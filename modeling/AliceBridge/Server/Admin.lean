import Mathlib.Data.List.Perm.Subperm
import AliceBridge.Core.MemoryStore
import AliceBridge.Lib.Words
import AliceBridge.Server.HouseStore

/-! # The command line of `bridge-admin`

`parse_command` reads two words and then pairs of a flag and a value into a map. That
every flag of the command is there is not checked: there are as many pairs as flags, each
is one of them and none comes twice. -/
namespace AliceBridge.Server.Admin
open AliceBridge.Lib.Utf8 AliceBridge.Lib.Words AliceBridge.Core.Household
open AliceBridge.Core.MemoryStore (inI64)
open AliceBridge.Lib.Json (Value)
open AliceBridge.Server.HouseStore (sixDigits)

inductive AdminCommand where
  | createHouse (name homeyConnector : Text)
  | addMember (houseId : HouseId) (userId role : Text)
  | approvePairing (houseId : HouseId) (code : Text)
  | disableMember (houseId : HouseId) (userId : Text)
  | disableSurface (applicationId : Text)
deriving DecidableEq, Repr

inductive AdminError where
  | invalidArguments
  | invalidEnvironment
  | database
  | pairingNotFound
deriving DecidableEq, Repr

/-! ## Flags -/

/-- The map of the flags that were read. -/
abbrev Flags := Text → Option Text

def Flags.insert (flags : Flags) (name value : Text) : Flags :=
  fun other => if other = name then some value else flags other

/-- `arguments.as_chunks::<2>()`, without the remainder. -/
def asPairs : List Text → List (Text × Text)
  | name :: value :: rest => (name, value) :: asPairs rest
  | _ => []

def readPairs (expected : List Text) : Flags → List (Text × Text) → Except AdminError Flags
  | parsed, [] => .ok parsed
  | parsed, (name, value) :: pairs =>
    if !expected.contains name || value.isEmpty || (parsed name).isSome then
      .error .invalidArguments
    else readPairs expected (parsed.insert name value) pairs

def parseFlags (arguments expected : List Text) : Except AdminError Flags :=
  if arguments.length ≠ expected.length * 2 then .error .invalidArguments
  else readPairs expected (fun _ => none) (asPairs arguments)

def required (flags : Flags) (name : Text) : Except AdminError Text :=
  (flags name).elim (.error .invalidArguments) .ok

/-! ## Values -/

/-- `value.parse::<i64>()`: a sign or none and decimal digits, within 64 bits. -/
def parseI64 (value : Text) : Option Int :=
  let negative := ['-'].isPrefixOf value
  let digits := if negative || ['+'].isPrefixOf value then value.tail else value
  if digits.isEmpty || !digits.all Char.isDigit then none
  else
    let magnitude : Int := digits.foldl (fun n c => 10 * n + digitValue c) 0
    let n := if negative then -magnitude else magnitude
    if inI64 n then some n else none

def positiveId (value : Text) : Except AdminError HouseId :=
  ((parseI64 value).filter fun id => decide (id > 0)).elim (.error .invalidArguments) .ok

def validHomeyConnector (connector : Text) : Bool :=
  "homey-".toList.isPrefixOf connector &&
    connector.all fun c => isAsciiAlphanumeric c || ['-', '_'].contains c

def isRole (role : Text) : Bool := role == "owner".toList || role == "member".toList

/-! ## Commands -/

/-- The commands that the first two words can name. -/
inductive Action where
  | createHouse
  | addMember
  | approvePairing
  | disableMember
  | disableSurface
deriving DecidableEq, Repr

def Action.all : List Action :=
  [.createHouse, .addMember, .approvePairing, .disableMember, .disableSurface]

def Action.words : Action → Text × Text
  | .createHouse => ("house".toList, "create".toList)
  | .addMember => ("member".toList, "add".toList)
  | .approvePairing => ("pairing".toList, "approve".toList)
  | .disableMember => ("member".toList, "disable".toList)
  | .disableSurface => ("surface".toList, "disable".toList)

def nameFlag : Text := "--name".toList
def connectorFlag : Text := "--homey-connector".toList
def houseFlag : Text := "--house".toList
def userFlag : Text := "--user-id".toList
def roleFlag : Text := "--role".toList
def codeFlag : Text := "--code".toList
def applicationFlag : Text := "--application-id".toList

def Action.flags : Action → List Text
  | .createHouse => [nameFlag, connectorFlag]
  | .addMember => [houseFlag, userFlag, roleFlag]
  | .approvePairing => [houseFlag, codeFlag]
  | .disableMember => [houseFlag, userFlag]
  | .disableSurface => [applicationFlag]

def require (cond : Bool) : Except AdminError Unit :=
  if cond then .ok () else .error .invalidArguments

/-- What the arm of a command does with its flags. -/
def Action.read (flags : Flags) : Action → Except AdminError AdminCommand
  | .createHouse => do
    let connector ← required flags connectorFlag
    require (validHomeyConnector connector)
    return .createHouse (← required flags nameFlag) connector
  | .addMember => do
    let memberRole ← required flags roleFlag
    require (isRole memberRole)
    let houseId ← positiveId (← required flags houseFlag)
    return .addMember houseId (← required flags userFlag) memberRole
  | .approvePairing => do
    let spoken ← required flags codeFlag
    require (sixDigits spoken)
    return .approvePairing (← positiveId (← required flags houseFlag)) spoken
  | .disableMember => do
    let houseId ← positiveId (← required flags houseFlag)
    return .disableMember houseId (← required flags userFlag)
  | .disableSurface => return .disableSurface (← required flags applicationFlag)

def parseCommand : List Text → Except AdminError AdminCommand
  | first :: second :: arguments =>
    match Action.all.find? fun action => action.words == (first, second) with
    | some action => do
      let flags ← parseFlags arguments action.flags
      action.read flags
    | none => .error .invalidArguments
  | _ => .error .invalidArguments

/-! ## The grammar -/

/-- Pairs as they are typed. -/
def typed (pairs : List (Text × Text)) : List Text := pairs.flatMap fun pair => [pair.1, pair.2]

/-- A positive number of 64 bits in decimal. -/
def HouseNumber (value : Text) (n : Int) : Prop := Numeral value n ∧ 0 < n ∧ n < 2 ^ 63

def RoleWord (value : Text) : Prop := value = "owner".toList ∨ value = "member".toList

def SpokenCode (value : Text) : Prop := value.length = 6 ∧ ∀ c ∈ value, '0' ≤ c ∧ c ≤ '9'

def ConnectorName (value : Text) : Prop :=
  "homey-".toList <+: value ∧ ∀ c ∈ value, '0' ≤ c ∧ c ≤ '9' ∨ 'A' ≤ c ∧ c ≤ 'Z' ∨
    'a' ≤ c ∧ c ≤ 'z' ∨ c = '-' ∨ c = '_'

/-- The command of the pairs, with values that its action takes. -/
inductive Means (pairs : List (Text × Text)) : Action → AdminCommand → Prop
  | createHouse {name connector : Text} : (nameFlag, name) ∈ pairs →
      (connectorFlag, connector) ∈ pairs → ConnectorName connector →
      Means pairs .createHouse (.createHouse name connector)
  | addMember {house userId role : Text} {houseId : HouseId} : (houseFlag, house) ∈ pairs →
      HouseNumber house houseId → (userFlag, userId) ∈ pairs → (roleFlag, role) ∈ pairs →
      RoleWord role → Means pairs .addMember (.addMember houseId userId role)
  | approvePairing {house code : Text} {houseId : HouseId} : (houseFlag, house) ∈ pairs →
      HouseNumber house houseId → (codeFlag, code) ∈ pairs → SpokenCode code →
      Means pairs .approvePairing (.approvePairing houseId code)
  | disableMember {house userId : Text} {houseId : HouseId} : (houseFlag, house) ∈ pairs →
      HouseNumber house houseId → (userFlag, userId) ∈ pairs →
      Means pairs .disableMember (.disableMember houseId userId)
  | disableSurface {applicationId : Text} : (applicationFlag, applicationId) ∈ pairs →
      Means pairs .disableSurface (.disableSurface applicationId)

/-- The words of an action and its flags in some order, each with a value that is not empty,
which together mean the command. -/
def WellFormed (arguments : List Text) (command : AdminCommand) : Prop :=
  ∃ action : Action, ∃ pairs,
    arguments = action.words.1 :: action.words.2 :: typed pairs ∧
      (pairs.map Prod.fst).Perm action.flags ∧ (∀ pair ∈ pairs, pair.2 ≠ []) ∧
      Means pairs action command

/-! ## The map of the flags -/

/-- The map after these pairs. -/
def Flags.with (flags : Flags) : List (Text × Text) → Flags
  | [] => flags
  | pair :: pairs => (flags.insert pair.1 pair.2).with pairs

section Pairs

variable {expected arguments : List Text} {parsed flags : Flags} {pairs pairs' : List (Text × Text)}
  {flag value : Text}

theorem Flags.insert_eq_none {other : Text} :
    flags.insert flag value other = none ↔ other ≠ flag ∧ flags other = none := by
  unfold Flags.insert
  split
  · next h => simp [h]
  · next h => simp [h]

theorem Flags.with_other (h : flag ∉ pairs.map Prod.fst) :
    parsed.with pairs flag = parsed flag := by
  induction pairs generalizing parsed with
  | nil => rfl
  | cons pair pairs ih =>
    rw [List.map_cons, List.mem_cons, not_or] at h
    rw [Flags.with, ih h.2]
    exact if_neg h.1

theorem Flags.with_mem (hnodup : (pairs.map Prod.fst).Nodup) (h : (flag, value) ∈ pairs) :
    parsed.with pairs flag = some value := by
  induction pairs generalizing parsed with
  | nil => cases h
  | cons pair pairs ih =>
    rw [List.map_cons, List.nodup_cons] at hnodup
    rcases List.mem_cons.mp h with rfl | h
    · rw [Flags.with, Flags.with_other hnodup.1]
      exact if_pos rfl
    · exact ih hnodup.2 h

theorem Flags.with_eq_some (hnodup : (pairs.map Prod.fst).Nodup) :
    Flags.with (fun _ => none) pairs flag = some value ↔ (flag, value) ∈ pairs := by
  refine ⟨fun h => ?_, Flags.with_mem hnodup⟩
  by_cases hmem : flag ∈ pairs.map Prod.fst
  · obtain ⟨pair, hpair, rfl⟩ := List.mem_map.mp hmem
    rw [Flags.with_mem hnodup hpair] at h
    obtain rfl := Option.some.inj h
    exact hpair
  · rw [Flags.with_other hmem] at h
    cases h

/-- The order of the pairs does not matter. -/
theorem Flags.with_perm (hnodup : (pairs.map Prod.fst).Nodup) (h : pairs.Perm pairs') :
    parsed.with pairs = parsed.with pairs' := by
  have hnodup' := (h.map Prod.fst).nodup_iff.mp hnodup
  funext flag
  by_cases hmem : flag ∈ pairs.map Prod.fst
  · obtain ⟨pair, hpair, rfl⟩ := List.mem_map.mp hmem
    rw [Flags.with_mem hnodup hpair, Flags.with_mem hnodup' (h.mem_iff.mp hpair)]
  · rw [Flags.with_other hmem, Flags.with_other fun h' => hmem ((h.map Prod.fst).mem_iff.mpr h')]

theorem readPairs_ok_iff : readPairs expected parsed pairs = .ok flags ↔
    (∀ pair ∈ pairs, pair.1 ∈ expected ∧ pair.2 ≠ [] ∧ parsed pair.1 = none) ∧
      (pairs.map Prod.fst).Nodup ∧ flags = parsed.with pairs := by
  induction pairs generalizing parsed with
  | nil =>
    rw [readPairs, Except.ok.injEq, eq_comm]
    simp [Flags.with]
  | cons pair pairs ih =>
    rw [readPairs]
    split
    · next hbad =>
      refine iff_of_false (fun h => by cases h) fun h => ?_
      obtain ⟨hexpected, hvalue, hnew⟩ := h.1 pair List.mem_cons_self
      simp [hexpected, hvalue, hnew] at hbad
    · next hgood =>
      simp only [Bool.or_eq_true, Bool.not_eq_true', List.contains_eq_mem, decide_eq_false_iff_not,
        List.isEmpty_iff, Option.isSome_iff_ne_none, not_or, not_not] at hgood
      obtain ⟨⟨hexpected, hvalue⟩, hnew⟩ := hgood
      rw [ih, List.map_cons, List.nodup_cons, List.forall_mem_cons, Flags.with]
      have hlater : (∀ later ∈ pairs, later.1 ∈ expected ∧ later.2 ≠ [] ∧
            parsed.insert pair.1 pair.2 later.1 = none) ↔
          (∀ later ∈ pairs, later.1 ∈ expected ∧ later.2 ≠ [] ∧ parsed later.1 = none) ∧
            pair.1 ∉ pairs.map Prod.fst := by
        simp only [Flags.insert_eq_none, List.mem_map, not_exists, not_and]
        constructor
        · intro h
          refine ⟨fun later hmem => ?_, fun later hmem => (h later hmem).2.2.1⟩
          exact ⟨(h later hmem).1, (h later hmem).2.1, (h later hmem).2.2.2⟩
        · rintro ⟨h, hne⟩ later hmem
          exact ⟨(h later hmem).1, (h later hmem).2.1, hne later hmem, (h later hmem).2.2⟩
      rw [hlater]
      tauto

theorem asPairs_typed (pairs : List (Text × Text)) : asPairs (typed pairs) = pairs := by
  induction pairs with
  | nil => rfl
  | cons pair pairs ih =>
    show pair :: asPairs (typed pairs) = pair :: pairs
    rw [ih]

theorem typed_length (pairs : List (Text × Text)) : (typed pairs).length = pairs.length * 2 := by
  induction pairs with
  | nil => rfl
  | cons pair pairs ih =>
    show (typed pairs).length + 2 = (pairs.length + 1) * 2
    omega

/-- An even number of arguments is pairs. -/
theorem typed_asPairs {n : Nat} (h : arguments.length = n * 2) :
    typed (asPairs arguments) = arguments := by
  induction n generalizing arguments with
  | zero =>
    obtain rfl := List.length_eq_zero_iff.mp (by omega : arguments.length = 0)
    rfl
  | succ n ih =>
    rcases arguments with _ | ⟨flag, _ | ⟨value, rest⟩⟩
    · simp at h
    · simp only [List.length_cons, List.length_nil] at h
      omega
    · simp only [List.length_cons] at h
      show flag :: value :: typed (asPairs rest) = flag :: value :: rest
      rw [ih (by omega)]

/-- As many pairs as flags, each of them a flag and none twice, are all the flags. -/
theorem parseFlags_ok_iff : parseFlags arguments expected = .ok flags ↔
    ∃ pairs, arguments = typed pairs ∧ pairs.length = expected.length ∧
      (∀ pair ∈ pairs, pair.1 ∈ expected ∧ pair.2 ≠ []) ∧ (pairs.map Prod.fst).Nodup ∧
      flags = Flags.with (fun _ => none) pairs := by
  unfold parseFlags
  split
  · next hlength =>
    refine iff_of_false (fun h => by cases h) ?_
    rintro ⟨pairs, rfl, hpairs, -⟩
    rw [typed_length, hpairs] at hlength
    exact hlength rfl
  · next hlength =>
    rw [ne_eq, not_not] at hlength
    have htyped := typed_asPairs hlength
    rw [readPairs_ok_iff]
    constructor
    · rintro ⟨hread, hnodup, hflags⟩
      refine ⟨asPairs arguments, htyped.symm, ?_, ?_, hnodup, hflags⟩
      · have hcount := typed_length (asPairs arguments)
        rw [htyped] at hcount
        omega
      · exact fun pair hpair => ⟨(hread pair hpair).1, (hread pair hpair).2.1⟩
    · rintro ⟨pairs, rfl, -, hread, hnodup, hflags⟩
      rw [asPairs_typed]
      exact ⟨fun pair hpair => ⟨(hread pair hpair).1, (hread pair hpair).2, rfl⟩, hnodup, hflags⟩

theorem names_perm (hlength : pairs.length = expected.length)
    (hread : ∀ pair ∈ pairs, pair.1 ∈ expected ∧ pair.2 ≠ [])
    (hnodup : (pairs.map Prod.fst).Nodup) : (pairs.map Prod.fst).Perm expected := by
  have hsubset : pairs.map Prod.fst ⊆ expected := by
    intro flag hflag
    obtain ⟨pair, hpair, rfl⟩ := List.mem_map.mp hflag
    exact (hread pair hpair).1
  refine (List.subperm_of_subset hnodup hsubset).perm_of_length_le ?_
  rw [List.length_map, hlength]

end Pairs

/-! ## The values of a command -/

/-- What is read of the digits after the sign. -/
theorem readDigits_iff {digits : Text} {sign : Int → Int} {n : Int} :
    (if digits.isEmpty || !digits.all Char.isDigit then none
      else
        let n := sign (digits.foldl (fun n c => 10 * n + (digitValue c : Int)) 0)
        if inI64 n then some n else none) = some n ↔
      (∃ m : Nat, Spells digits m ∧ n = sign m) ∧ inI64 n = true := by
  split
  next hbad =>
    refine iff_of_false (by simp) ?_
    rintro ⟨⟨m, hspells, -⟩, -⟩
    obtain ⟨hne, hdigits, -⟩ := hspells.read
    have hall : digits.all Char.isDigit = true := List.all_eq_true.mpr hdigits
    simp [hne, hall] at hbad
  next hgood =>
    obtain ⟨hne, hdigits⟩ : digits ≠ [] ∧ ∀ c ∈ digits, c.isDigit = true := by simpa using hgood
    obtain ⟨m, hspells⟩ := exists_spells hne hdigits
    rw [Option.ite_none_right_eq_some, Option.some.injEq, hspells.read.2.2]
    constructor
    · rintro ⟨hin, rfl⟩
      exact ⟨⟨m, hspells, rfl⟩, hin⟩
    · rintro ⟨⟨m', hspells', rfl⟩, hin⟩
      have hsame : (m' : Int) = m := hspells'.read.2.2.symm.trans hspells.read.2.2
      rw [hsame] at hin ⊢
      exact ⟨hin, rfl⟩

/-- `parse::<i64>()` reads the numerals of its range. -/
theorem parseI64_eq_some {value : Text} {n : Int} :
    parseI64 value = some n ↔ Numeral value n ∧ inI64 n = true := by
  by_cases hminus : ['-'] <+: value
  · obtain ⟨digits, rfl⟩ := hminus
    have hread := @readDigits_iff digits Neg.neg n
    rw [List.singleton_append, numeral_minus, ← hread]
    rfl
  by_cases hplus : ['+'] <+: value
  · obtain ⟨digits, rfl⟩ := hplus
    have hread := @readDigits_iff digits id n
    rw [List.singleton_append, numeral_plus]
    exact Iff.trans (Iff.of_eq rfl) hread
  · have hread := @readDigits_iff value id n
    rw [numeral_unsigned hminus hplus]
    refine Iff.trans (Iff.of_eq ?_) hread
    simp only [parseI64, Bool.eq_false_iff.mpr (mt List.isPrefixOf_iff_prefix.mp hminus),
      Bool.eq_false_iff.mpr (mt List.isPrefixOf_iff_prefix.mp hplus)]
    rfl

section Values

variable {flags : Flags} {action : Action} {command : AdminCommand} {flag value : Text}
  {pairs : List (Text × Text)}

theorem positiveId_ok_iff {n : Int} : positiveId value = .ok n ↔ HouseNumber value n := by
  have hfilter : positiveId value = .ok n ↔ parseI64 value = some n ∧ 0 < n := by
    unfold positiveId
    cases parseI64 value with
    | none => simp
    | some id =>
      by_cases hpos : id > 0
      · simp only [Option.filter_some, hpos, decide_true, if_true, Option.elim_some,
          Except.ok.injEq, Option.some.injEq]
        exact ⟨fun h => ⟨h, h ▸ hpos⟩, fun h => h.1⟩
      · simp only [Option.filter_some, hpos, decide_false, Bool.false_eq_true, if_false,
          Option.elim_none, reduceCtorEq, Option.some.injEq, false_iff]
        rintro ⟨rfl, h⟩
        exact hpos h
  rw [hfilter, parseI64_eq_some, HouseNumber, and_assoc]
  refine and_congr_right fun _ => ?_
  rw [inI64, decide_eq_true_iff, Value.i64Max]
  omega

theorem isRole_iff : isRole value = true ↔ RoleWord value := by
  simp [isRole, RoleWord]

theorem sixDigits_iff : sixDigits value = true ↔ SpokenCode value := by
  have hascii : ∀ text : Text, (∀ c ∈ text, '0' ≤ c ∧ c ≤ '9') → byteLen text = text.length := by
    intro text h
    induction text with
    | nil => rfl
    | cons c text ih =>
      obtain ⟨hc, hrest⟩ := List.forall_mem_cons.mp h
      have hone : c.utf8Size = 1 := by
        have hle : c.toNat ≤ 57 := UInt32.le_iff_toNat_le.mp hc.2
        exact Char.utf8Size_eq_one_iff.mpr (UInt32.le_iff_toNat_le.mpr (by
          show c.toNat ≤ 127
          omega))
      simp only [byteLen, List.map_cons, List.sum_cons, List.length_cons, hone] at ih ⊢
      rw [ih hrest, Nat.add_comm]
  simp only [sixDigits, SpokenCode, Bool.and_eq_true, decide_eq_true_eq, List.all_eq_true]
  exact and_congr_left fun h => by rw [hascii value h]

theorem validHomeyConnector_iff : validHomeyConnector value = true ↔ ConnectorName value := by
  simp only [validHomeyConnector, ConnectorName, Bool.and_eq_true, List.isPrefixOf_iff_prefix,
    List.all_eq_true, Bool.or_eq_true, isAsciiAlphanumeric_iff, List.contains_iff_mem,
    List.mem_cons, List.not_mem_nil, or_false, or_assoc]

theorem required_ok_iff : required flags flag = .ok value ↔ flags flag = some value := by
  unfold required
  cases flags flag <;> simp

theorem bind_ok_iff {α β : Type} {x : Except AdminError α} {f : α → Except AdminError β} {b : β} :
    (x >>= f) = .ok b ↔ ∃ a, x = .ok a ∧ f a = .ok b := by
  cases x with
  | error e => exact iff_of_false (fun h => by cases h) fun ⟨a, h, _⟩ => by cases h
  | ok a => exact ⟨fun h => ⟨a, rfl, h⟩, fun ⟨a', h, hb⟩ => Except.ok.inj h ▸ hb⟩

theorem require_ok_iff {cond : Bool} {u : Unit} : require cond = .ok u ↔ cond = true := by
  cases cond <;> simp [require]

/-- An action reads of its flags the command they mean. -/
theorem read_ok_iff (h : ∀ flag value, flags flag = some value ↔ (flag, value) ∈ pairs) :
    action.read flags = .ok command ↔ Means pairs action command := by
  cases action with
  | createHouse =>
    simp only [Action.read, bind_ok_iff, required_ok_iff, require_ok_iff, h,
      validHomeyConnector_iff, pure, Except.pure, Except.ok.injEq]
    constructor
    · rintro ⟨connector, hconnector, _, hvalid, name, hname, rfl⟩
      exact .createHouse hname hconnector hvalid
    · intro h
      cases h with
      | createHouse hname hconnector hvalid =>
        exact ⟨_, hconnector, (), hvalid, _, hname, rfl⟩
  | addMember =>
    simp only [Action.read, bind_ok_iff, required_ok_iff, require_ok_iff, h, isRole_iff,
      positiveId_ok_iff, pure, Except.pure, Except.ok.injEq]
    constructor
    · rintro ⟨role, hrole, _, hword, house, hhouse, houseId, hnumber, userId, huser, rfl⟩
      exact .addMember hhouse hnumber huser hrole hword
    · intro h
      cases h with
      | addMember hhouse hnumber huser hrole hword =>
        exact ⟨_, hrole, (), hword, _, hhouse, _, hnumber, _, huser, rfl⟩
  | approvePairing =>
    simp only [Action.read, bind_ok_iff, required_ok_iff, require_ok_iff, h, sixDigits_iff,
      positiveId_ok_iff, pure, Except.pure, Except.ok.injEq]
    constructor
    · rintro ⟨code, hcode, _, hsix, house, hhouse, houseId, hnumber, rfl⟩
      exact .approvePairing hhouse hnumber hcode hsix
    · intro h
      cases h with
      | approvePairing hhouse hnumber hcode hsix =>
        exact ⟨_, hcode, (), hsix, _, hhouse, _, hnumber, rfl⟩
  | disableMember =>
    simp only [Action.read, bind_ok_iff, required_ok_iff, h, positiveId_ok_iff, pure, Except.pure,
      Except.ok.injEq]
    constructor
    · rintro ⟨house, hhouse, houseId, hnumber, userId, huser, rfl⟩
      exact .disableMember hhouse hnumber huser
    · intro h
      cases h with
      | disableMember hhouse hnumber huser => exact ⟨_, hhouse, _, hnumber, _, huser, rfl⟩
  | disableSurface =>
    simp only [Action.read, bind_ok_iff, required_ok_iff, h, pure, Except.pure, Except.ok.injEq]
    constructor
    · rintro ⟨applicationId, happlication, rfl⟩
      exact .disableSurface happlication
    · intro h
      cases h with
      | disableSurface happlication => exact ⟨_, happlication, rfl⟩

end Values

/-! ## The grammar and the parser -/

theorem action_words (action : Action) :
    Action.all.find? (fun other => other.words == action.words) = some action := by
  cases action <;> decide +kernel

theorem action_flags_nodup (action : Action) : action.flags.Nodup := by
  cases action <;> decide

section Parser

variable {action : Action} {command : AdminCommand} {expected arguments : List Text}
  {pairs pairs' : List (Text × Text)} {flags : Flags} {flag first second : Text}

theorem parseCommand_words (action : Action) (arguments : List Text) :
    parseCommand (action.words.1 :: action.words.2 :: arguments) =
      parseFlags arguments action.flags >>= fun flags => action.read flags := by
  simp only [parseCommand, Prod.mk.eta, action_words]

theorem parseCommand_ok (h : parseCommand arguments = .ok command) :
    ∃ action : Action, ∃ rest, arguments = action.words.1 :: action.words.2 :: rest := by
  unfold parseCommand at h
  split at h
  · next first second rest =>
    split at h
    · next action hfound =>
      have hwords : action.words = (first, second) := by simpa using List.find?_some hfound
      exact ⟨action, rest, by rw [hwords]⟩
    · cases h
  · cases h

theorem parseFlags_found (h : parseFlags arguments expected = .ok flags) (hflag : flag ∈ expected) :
    ∃ value, flags flag = some value := by
  obtain ⟨pairs, -, hlength, hread, hnodup, rfl⟩ := parseFlags_ok_iff.mp h
  have hnames := names_perm hlength hread hnodup
  obtain ⟨pair, hpair, rfl⟩ := List.mem_map.mp (hnames.mem_iff.mpr hflag)
  exact ⟨pair.2, Flags.with_mem hnodup hpair⟩

/-- The flags of the action in some order, with values that mean the command. -/
theorem accepted_iff : (parseFlags arguments action.flags >>= fun flags =>
      action.read flags) = .ok command ↔
    ∃ pairs, arguments = typed pairs ∧ (pairs.map Prod.fst).Perm action.flags ∧
      (∀ pair ∈ pairs, pair.2 ≠ []) ∧ Means pairs action command := by
  rw [bind_ok_iff]
  constructor
  · rintro ⟨flags, hflags, hread⟩
    obtain ⟨pairs, rfl, hlength, hpairs, hnodup, rfl⟩ := parseFlags_ok_iff.mp hflags
    refine ⟨pairs, rfl, names_perm hlength hpairs hnodup, fun pair hpair => (hpairs pair hpair).2,
      ?_⟩
    exact (read_ok_iff fun _ _ => Flags.with_eq_some hnodup).mp hread
  · rintro ⟨pairs, rfl, hnames, hpairs, hmeans⟩
    have hnodup := hnames.nodup_iff.mpr (action_flags_nodup action)
    refine ⟨_, parseFlags_ok_iff.mpr ⟨pairs, rfl, ?_, fun pair hpair => ?_, hnodup, rfl⟩,
      (read_ok_iff fun _ _ => Flags.with_eq_some hnodup).mpr hmeans⟩
    · rw [← hnames.length_eq, List.length_map]
    · exact ⟨hnames.mem_iff.mp (List.mem_map_of_mem hpair), hpairs pair hpair⟩

theorem readPairs_error {parsed : Flags} {error : AdminError}
    (h : readPairs expected parsed pairs = .error error) : error = .invalidArguments := by
  induction pairs generalizing parsed with
  | nil => cases h
  | cons pair pairs ih =>
    rw [readPairs] at h
    split at h
    · exact (Except.error.inj h).symm
    · exact ih h

theorem parseFlags_error {error : AdminError} (h : parseFlags arguments expected = .error error) :
    error = .invalidArguments := by
  unfold parseFlags at h
  split at h
  · exact (Except.error.inj h).symm
  · exact readPairs_error h

theorem parseFlags_typed_perm (h : pairs.Perm pairs')
    (hflags : parseFlags (typed pairs) expected = .ok flags) :
    parseFlags (typed pairs') expected = .ok flags := by
  obtain ⟨read, htyped, hlength, hread, hnodup, rfl⟩ := parseFlags_ok_iff.mp hflags
  have hsame := congrArg asPairs htyped
  rw [asPairs_typed, asPairs_typed] at hsame
  subst hsame
  refine parseFlags_ok_iff.mpr ⟨pairs', rfl, ?_, ?_, ?_, Flags.with_perm hnodup h⟩
  · rw [← h.length_eq, hlength]
  · exact fun pair hpair => hread pair (h.mem_iff.mpr hpair)
  · exact (h.map Prod.fst).nodup_iff.mp hnodup

theorem parseFlags_perm (h : pairs.Perm pairs') (expected : List Text) :
    parseFlags (typed pairs) expected = parseFlags (typed pairs') expected := by
  cases hflags : parseFlags (typed pairs) expected with
  | ok flags => exact (parseFlags_typed_perm h hflags).symm
  | error e =>
    cases hflags' : parseFlags (typed pairs') expected with
    | ok flags =>
      rw [parseFlags_typed_perm h.symm hflags'] at hflags
      cases hflags
    | error e' => rw [parseFlags_error hflags, parseFlags_error hflags']

end Parser

/-- The command line is read as a command exactly when it is a well formed line of that
command, its pairs may come in any order, and flags that were parsed are all there. -/
theorem command_line_grammar (arguments : List Text) :
    (∀ command, parseCommand arguments = .ok command ↔ WellFormed arguments command) ∧
      (∀ first second pairs pairs', pairs.Perm pairs' →
        parseCommand (first :: second :: typed pairs) =
          parseCommand (first :: second :: typed pairs')) ∧
      ∀ expected flags, parseFlags arguments expected = .ok flags →
        ∀ flag ∈ expected, ∃ value, required flags flag = .ok value := by
  refine ⟨fun command => ⟨fun h => ?_, ?_⟩, fun first second pairs pairs' hperm => ?_, ?_⟩
  · obtain ⟨action, rest, rfl⟩ := parseCommand_ok h
    rw [parseCommand_words, accepted_iff] at h
    obtain ⟨pairs, rfl, hpairs⟩ := h
    exact ⟨action, pairs, rfl, hpairs⟩
  · rintro ⟨action, pairs, rfl, hpairs⟩
    rw [parseCommand_words, accepted_iff]
    exact ⟨pairs, rfl, hpairs⟩
  · unfold parseCommand
    simp only [parseFlags_perm hperm]
  · intro expected flags hflags flag hflag
    obtain ⟨value, hvalue⟩ := parseFlags_found hflags hflag
    exact ⟨value, required_ok_iff.mpr hvalue⟩

example : parseCommand (["member", "add", "--role", "owner", "--house", "+07", "--user-id",
    "u"].map String.toList) = .ok (.addMember 7 ['u'] "owner".toList) := by decide +kernel

end AliceBridge.Server.Admin
