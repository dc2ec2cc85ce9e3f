import Mathlib.Data.List.Find
import AliceBridge.Server.Access
import AliceBridge.Server.Approval

/-! # A surface is resolved while commands are committed

One call of `resolve_surface`, statement by statement, with commands of the owner between
its statements. A command is one transaction and so one step. The call is as good as atomic
when it could have run as a whole at one moment of the run. The second query does not look at
what the first has not found, and the last statement writes what the third has read: the call
keeps no transaction around them, as an approval does.

The fields `settled` and `clean` of a state remember what is asked of the steps: a moment at
which the whole call would have been refused, and one since which no approval has met the
request that the call is about to write. -/
namespace AliceBridge.Server.Resolution
open AliceBridge.Lib AliceBridge.Lib.Utf8 AliceBridge.Lib.Run AliceBridge.Core.Household
open AliceBridge.Server.HouseStore AliceBridge.Server.Approval
open AliceBridge.Server.Access (SurfacesKept kept_approvePairing)

variable {δ : Type} [DecidableEq δ]

/-! ## Commands -/

/-- The commands of `bridge-admin`; an approval with its time. -/
inductive Command where
  | createHouse (name homeyConnector : Text)
  | addMember (houseId : HouseId) (userId : Text) (role : Role)
  | disableMember (houseId : HouseId) (userId : Text)
  | disableSurface (applicationId : Text)
  | approvePairing (houseId : HouseId) (code : Text) (now : Nat)
deriving DecidableEq, Repr

/-- What a command commits; `fetched` are the rows of an approval in the order of the
database. Without a result the command fails and changes nothing. -/
def Command.execute (mac : Text → δ) (fetched : List (PairingRequest δ)) (db : Db δ) :
    Command → Option (Db δ)
  | .createHouse name homeyConnector => db.createHouse name homeyConnector
  | .addMember houseId userId role => db.addMember houseId userId role
  | .disableMember houseId userId => some (db.disableMember houseId userId)
  | .disableSurface applicationId => some (db.disableSurface applicationId)
  | .approvePairing houseId code now =>
    if fetched.Perm (db.liveRequests now houseId) then
      some (HouseStore.approvePairing mac noFailure fetched now db houseId code).1
    else none

def Commits (mac : Text → δ) (db : Db δ) (command : Command) (db' : Db δ) : Prop :=
  ∃ fetched, command.execute mac fetched db = some db'

inductive CommitsAll (mac : Text → δ) : Db δ → List Command → Db δ → Prop where
  | nil {db : Db δ} : CommitsAll mac db [] db
  | cons {db d db' : Db δ} {command : Command} {commands : List Command} :
      Commits mac db command d → CommitsAll mac d commands db' →
        CommitsAll mac db (command :: commands) db'

/-! ## The call -/

/-- Who asks, the code the call would draw, and the time of its last statement. -/
structure Asked where
  identity : SurfaceIdentity
  draw : Fin 1000000
  now : Nat

/-- The call from a statement on, at one moment; it has four statements. -/
def resolveFrom (mac : Text → δ) (call : Asked) : Nat → Db δ → ResolvePc →
    Option (Db δ × Except HouseholdStoreError SurfaceResolution)
  | 0, _, _ => none
  | fuel + 1, db, pc =>
    match resolveStatement mac false call.draw call.now db call.identity pc with
    | (db', .return result) => some (db', result)
    | (db', .query pc') => resolveFrom mac call fuel db' pc'

def resolveSurface (mac : Text → δ) (call : Asked) (db : Db δ) :
    Option (Db δ × Except HouseholdStoreError SurfaceResolution) :=
  resolveFrom mac call 4 db .selectBound

/-- The result and the tables are those of the call and the commands in some serial order. -/
def Serial (mac : Text → δ) (call : Asked) (db : Db δ) (commands : List Command)
    (result : Except HouseholdStoreError SurfaceResolution) (db' : Db δ) : Prop :=
  ∃ before after d d', (before ++ after).Perm commands ∧ CommitsAll mac db before d ∧
    resolveSurface mac call d = some (d', result) ∧ CommitsAll mac d' after db'

/-! ## Runs -/

/-- The whole call would be refused now. -/
def refuses (db : Db δ) (identity : SurfaceIdentity) : Bool :=
  (db.bound identity).isNone &&
    (db.applicationExists identity.applicationId || (db.memberships identity.userId).isEmpty)

/-- The scope of a request, if the user has a house. -/
def scopeOf : List HouseId → Option (Option HouseId)
  | [] => none
  | [houseId] => some (some houseId)
  | _ => some none

/-- The request that is about to be written has the scope it would have now. -/
def inScope (db : Db δ) (userId : Text) : Next → Bool
  | .query (.insertRequest scope) => scopeOf (db.memberships userId) == some scope
  | _ => true

def Asked.codeHash (mac : Text → δ) (call : Asked) : δ :=
  mac (pairingText call.identity.userId call.identity.applicationId (spokenCode call.draw))

/-- The command does not meet the request of the application, the old one or the new. -/
def blind (mac : Text → δ) (call : Asked) (fetched : List (PairingRequest δ)) : Command → Bool
  | .approvePairing _ code _ =>
    (fetched.all fun request => request.applicationId ≠ call.identity.applicationId ||
      !pairingCodeMatches mac request code) &&
      call.codeHash mac ≠
        mac (pairingText call.identity.userId call.identity.applicationId code)
  | _ => true

structure State (δ : Type) where
  db : Db δ
  next : Next
  settled : Bool
  clean : Bool

def State.start (db : Db δ) : State δ := ⟨db, .query .selectBound, false, true⟩

inductive Action (δ : Type) where
  | command (command : Command) (fetched : List (PairingRequest δ))
  | statement

def step (mac : Text → δ) (call : Asked) (s : State δ) :
    Action δ → Option (State δ × List Command)
  | .command command fetched =>
    (command.execute mac fetched s.db).map fun db =>
      ({ s with
        db := db
        settled := s.settled || refuses db call.identity
        clean := (s.clean && blind mac call fetched command) ||
          inScope db call.identity.userId s.next }, [command])
  | .statement =>
    match s.next with
    | .return _ => none
    | .query pc =>
      let r := resolveStatement mac false call.draw call.now s.db call.identity pc
      some ({ db := r.1
              next := r.2
              settled := s.settled || refuses s.db call.identity
              clean := true }, [])

/-- The observations are the commands that were committed. -/
def machine (mac : Text → δ) (call : Asked) : Machine (State δ) (Action δ) Command :=
  ⟨step mac call⟩

/-- An application that the second query finds was there with no enabled surface at some
moment, or the user had no house; and when the request is written, the application has not been
bound, and no approval has met it since the scope was the one to be written. -/
def guarded (call : Asked) (s : State δ) : Action δ → Bool
  | .command _ _ => true
  | .statement =>
    match s.next with
    | .query .selectApplication =>
      !s.db.applicationExists call.identity.applicationId || s.settled
    | .query (.insertRequest _) =>
      !s.db.applicationExists call.identity.applicationId && s.clean
    | _ => true

/-! ## What commands keep -/

section Commands

variable {mac : Text → δ} {db d d' db' : Db δ} {command : Command} {commands after : List Command}
  {fetched : List (PairingRequest δ)} {call : Asked} {scope : Option HouseId}

omit [DecidableEq δ] in
theorem applicationExists_iff {applicationId : Text} :
    db.applicationExists applicationId = true ↔
      ∃ surface ∈ db.surfaces.rows, surface.applicationId = applicationId := by
  unfold Db.applicationExists
  rw [Option.isSome_iff_exists]
  exact exists_congr fun _ => Table.find?_eq_some

omit [DecidableEq δ] in
theorem memberExists_iff {houseId : HouseId} {userId : Text} :
    db.memberExists houseId userId = true ↔
      ∃ member ∈ db.members.rows, member.key = (houseId, userId) := by
  unfold Db.memberExists
  rw [Option.isSome_iff_exists]
  exact exists_congr fun _ => Table.find?_eq_some

theorem approvePairing_members {fails : ApproveOp → Bool} {now : Nat} {houseId : HouseId}
    {code : Text} : (approvePairing mac fails fetched now db houseId code).1.members =
      db.members := by
  by_cases hok : (approvePairing mac fails fetched now db houseId code).2 = .ok true
  · obtain ⟨request, -, bound, -, -, -, hbind, hdb⟩ := approvePairing_ok mac (Prod.ext rfl hok)
    obtain ⟨surfaces, -, rfl⟩ := Option.map_eq_some_iff.mp hbind
    have hmembers := congrArg Db.members hdb
    exact hmembers
  · exact congrArg Db.members (approvePairing_unchanged mac (Prod.ext rfl rfl) hok)

/-- Surfaces and members stay. -/
structure Keeps (db db' : Db δ) : Prop where
  surfaces : SurfacesKept db db'
  members : ∀ member ∈ db.members.rows, ∃ member' ∈ db'.members.rows, member'.key = member.key

theorem execute_keeps (h : command.execute mac fetched db = some db') : Keeps db db' := by
  have hmembers {db' : Db δ} (heq : db'.members = db.members) :
      ∀ member ∈ db.members.rows, ∃ member' ∈ db'.members.rows, member'.key = member.key :=
    fun member hmember => ⟨member, heq ▸ hmember, rfl⟩
  cases command with
  | createHouse name homeyConnector =>
    obtain ⟨houses, -, rfl⟩ := Option.map_eq_some_iff.mp h
    exact ⟨.of_eq rfl, hmembers rfl⟩
  | addMember houseId userId role =>
    obtain ⟨-, hdb⟩ := Option.ite_none_right_eq_some.mp h
    obtain rfl := Option.some.inj hdb
    exact ⟨.of_eq rfl, fun member hmember => Table.column_upsert (fun _ => rfl) hmember⟩
  | disableMember houseId userId =>
    obtain rfl := Option.some.inj h
    refine ⟨.of_eq rfl, fun member hmember => ?_⟩
    dsimp only [Db.disableMember]
    exact Table.column_update (fun _ => rfl) hmember
  | disableSurface applicationId =>
    obtain rfl := Option.some.inj h
    refine ⟨fun surface hmem => ?_, hmembers rfl⟩
    dsimp only [Db.disableSurface]
    exact Table.column_update (fun _ => rfl) hmem
  | approvePairing houseId code now =>
    obtain ⟨-, hdb⟩ := Option.ite_none_right_eq_some.mp h
    obtain rfl := Option.some.inj hdb
    exact ⟨kept_approvePairing rfl, hmembers approvePairing_members⟩

end Commands

/-! ## Commands that do not meet the request -/

/-- The tables with the request of the call. -/
def withRequest (mac : Text → δ) (call : Asked) (scope : Option HouseId) (db : Db δ) : Db δ :=
  { db with
    requests := db.requests.upsert scope call.identity.userId call.identity.applicationId
      (call.codeHash mac) (call.now + pairingTtlSeconds * microseconds) }

section Requests

variable {requests : PairingRequests δ} {request : PairingRequest δ} {scope : Option HouseId}
  {userId applicationId : Text} {codeHash : δ} {expiresAt now : Nat} {houseId : HouseId}

omit [DecidableEq δ] in
theorem PairingRequests.ext {requests requests' : PairingRequests δ}
    (hrows : requests.table.rows = requests'.table.rows)
    (hnext : requests.nextId = requests'.nextId) : requests = requests' := by
  obtain ⟨⟨rows, hkeys⟩, next, hbelow, hids⟩ := requests
  obtain ⟨⟨rows', hkeys'⟩, next', hbelow', hids'⟩ := requests'
  obtain rfl : rows = rows' := hrows
  obtain rfl : next = next' := hnext
  rfl

/-- What an approval makes of a row. -/
def approvedRow (id : Int) (houseId : HouseId) (now : Nat) (row : PairingRequest δ) :
    PairingRequest δ :=
  if row.id = id then { row with houseId := some houseId, approvedAt := some now } else row

omit [DecidableEq δ] in
theorem approve_rows {id : Int} : (requests.approve id houseId now).table.rows =
    requests.table.rows.map (approvedRow id houseId now) := by
  simp [PairingRequests.approve, Table.update, approvedRow]

omit [DecidableEq δ] in
theorem approvedRow_applicationId {id : Int} :
    (approvedRow id houseId now request).applicationId = request.applicationId := by
  unfold approvedRow
  split <;> rfl

omit [DecidableEq δ] in
/-- A request is written before or after the approval of another one. -/
theorem approve_upsert (hrow : request ∈ requests.table.rows)
    (hother : request.applicationId ≠ applicationId) :
    (requests.upsert scope userId applicationId codeHash expiresAt).approve request.id houseId now =
      (requests.approve request.id houseId now).upsert scope userId applicationId codeHash
        expiresAt := by
  -- the row of the application is another one than the row that is approved
  have hapart : ∀ row ∈ requests.table.rows, row.applicationId = applicationId →
      row.id ≠ request.id := by
    intro row hmem happlication hid
    have heq := List.inj_on_of_nodup_map requests.idsNodup hmem hrow hid
    exact hother (heq ▸ happlication)
  have hkeys : (requests.table.rows.map (approvedRow request.id houseId now)).map
      PairingRequest.applicationId = requests.table.rows.map PairingRequest.applicationId := by
    rw [List.map_map]
    exact List.map_congr_left fun row _ => approvedRow_applicationId
  have hnext : (requests.approve request.id houseId now).nextId = requests.nextId := rfl
  refine PairingRequests.ext ?_ rfl
  rw [approve_rows]
  unfold PairingRequests.upsert
  dsimp only
  rw [Table.upsert_rows, Table.upsert_rows, approve_rows, hkeys]
  split
  · rw [List.map_map, List.map_map]
    refine List.map_congr_left fun row hmem => ?_
    dsimp only [Function.comp]
    rw [approvedRow_applicationId]
    split
    · next happlication => simp [approvedRow, hapart row hmem happlication]
    · rfl
  · have hnew : requests.nextId ≠ request.id := Int.ne_of_gt (requests.idsBelow request hrow)
    rw [List.map_cons]
    simp [approvedRow, hnew, hnext]

end Requests

section Blind

variable {mac : Text → δ} {db d d' : Db δ} {command : Command} {commands : List Command}
  {fetched : List (PairingRequest δ)} {call : Asked} {scope : Option HouseId} {now : Nat}
  {houseId : HouseId} {code : Text} {request : PairingRequest δ}

omit [DecidableEq δ] in
/-- The rows of other applications stay as they are. -/
theorem liveRequests_others :
    ((withRequest mac call scope db).liveRequests now houseId).filter
        (fun request => request.applicationId ≠ call.identity.applicationId) =
      (db.liveRequests now houseId).filter
        fun request => request.applicationId ≠ call.identity.applicationId := by
  unfold Db.liveRequests
  rw [List.filter_comm, List.filter_comm _ _ db.requests.table.rows]
  have hothers : (withRequest mac call scope db).requests.table.rows.filter
      (fun request => request.applicationId ≠ call.identity.applicationId) =
        db.requests.table.rows.filter
          (fun request => request.applicationId ≠ call.identity.applicationId) := by
    unfold withRequest PairingRequests.upsert
    exact Table.upsert_others rfl
  rw [hothers]

/-- The row of the application is the one just written. -/
theorem written_request (h : request ∈ (withRequest mac call scope db).liveRequests now houseId)
    (happlication : request.applicationId = call.identity.applicationId) :
    pairingCodeMatches mac request code = (call.codeHash mac =
      mac (pairingText call.identity.userId call.identity.applicationId code)) := by
  have hrow := (List.mem_filter.mp h).1
  unfold pairingCodeMatches
  rcases Table.mem_upsert.mp hrow with ⟨-, hne⟩ | ⟨rfl, -⟩ | ⟨old, -, hold, rfl⟩
  · exact absurd happlication hne
  · simp
  · simp [hold]

omit [DecidableEq δ] in
/-- The approval of another request does with the request of the call what it does without. -/
theorem outcome_withRequest (hrow : request ∈ db.requests.table.rows)
    (hother : request.applicationId ≠ call.identity.applicationId) :
    (outcome (withRequest mac call scope db) houseId now request).1 =
      withRequest mac call scope (outcome db houseId now request).1 := by
  have hbind : (withRequest mac call scope db).bindSurface request.applicationId houseId
      request.userId = (db.bindSurface request.applicationId houseId request.userId).map
        (withRequest mac call scope) := by
    unfold Db.bindSurface
    rw [Option.map_map]
    rfl
  have hmember : (withRequest mac call scope db).membershipExists houseId request.userId =
      db.membershipExists houseId request.userId := rfl
  unfold outcome
  rw [hmember, hbind]
  split
  · cases hsurface : db.bindSurface request.applicationId houseId request.userId with
    | none => rfl
    | some bound =>
      obtain ⟨surfaces, -, rfl⟩ := Option.map_eq_some_iff.mp hsurface
      simp only [Option.map_some, withRequest, approve_upsert hrow hother]
  · rfl

/-- An approval that meets neither request finds the same row. -/
theorem find_blind (h : blind mac call fetched (.approvePairing houseId code now) = true)
    {written : List (PairingRequest δ)}
    (hwritten : ∀ request ∈ written,
      request ∈ (withRequest mac call scope db).liveRequests now houseId ∧
        request.applicationId = call.identity.applicationId) :
    ((fetched.filter fun request => request.applicationId ≠ call.identity.applicationId) ++
        written).find? (fun request => pairingCodeMatches mac request code) =
      fetched.find? fun request => pairingCodeMatches mac request code := by
  obtain ⟨hold, hnew⟩ := Bool.and_eq_true_iff.mp h
  have hnone : written.find? (fun request => pairingCodeMatches mac request code) = none := by
    rw [List.find?_eq_none]
    intro request hrequest
    obtain ⟨hlive, happlication⟩ := hwritten request hrequest
    rw [written_request hlive happlication]
    exact of_decide_eq_true hnew
  rw [List.find?_append, hnone, Option.or_none, List.find?_filter]
  refine List.find?_congr fun request hmem => ?_
  have hunmet := List.all_eq_true.mp hold request hmem
  cases hmatch : pairingCodeMatches mac request code with
  | false => simp
  | true => simpa [hmatch] using hunmet

/-- A command that does not meet the request commutes with its writing. -/
theorem commits_withRequest (h : command.execute mac fetched d = some d')
    (hblind : blind mac call fetched command = true) :
    Commits mac (withRequest mac call scope d) command (withRequest mac call scope d') := by
  cases command with
  | createHouse name homeyConnector =>
    obtain ⟨houses, hhouses, rfl⟩ := Option.map_eq_some_iff.mp h
    exact ⟨[], Option.map_eq_some_iff.mpr ⟨houses, hhouses, rfl⟩⟩
  | addMember houseId userId role =>
    obtain ⟨hhouse, hdb⟩ := Option.ite_none_right_eq_some.mp h
    obtain rfl := Option.some.inj hdb
    exact ⟨[], Option.ite_none_right_eq_some.mpr ⟨hhouse, rfl⟩⟩
  | disableMember houseId userId =>
    obtain rfl := Option.some.inj h
    exact ⟨[], rfl⟩
  | disableSurface applicationId =>
    obtain rfl := Option.some.inj h
    exact ⟨[], rfl⟩
  | approvePairing houseId code now =>
    obtain ⟨hperm, hdb⟩ := Option.ite_none_right_eq_some.mp h
    obtain rfl := Option.some.inj hdb
    let live := (withRequest mac call scope d).liveRequests now houseId
    let written := live.filter fun request =>
      !decide (request.applicationId ≠ call.identity.applicationId)
    have hfetched : ((fetched.filter fun request =>
        request.applicationId ≠ call.identity.applicationId) ++ written).Perm live := by
      refine .trans (.append_right _ ?_) (List.filter_append_perm
        (fun request => decide (request.applicationId ≠ call.identity.applicationId)) live)
      rw [liveRequests_others]
      exact hperm.filter _
    refine ⟨_, Option.ite_none_right_eq_some.mpr ⟨hfetched, congrArg some ?_⟩⟩
    cases hsix : sixDigits code with
    | false => simp [approvePairing, hsix]
    | true =>
      have hwritten : ∀ request ∈ written, request ∈ live ∧
          request.applicationId = call.identity.applicationId := fun request hmem => by
        simpa [written] using hmem
      rw [approvePairing_outcome hsix, approvePairing_outcome hsix, find_blind hblind hwritten]
      cases hfind : fetched.find? fun request => pairingCodeMatches mac request code with
      | none => rfl
      | some request =>
        have hmem := List.mem_of_find?_eq_some hfind
        have hmatch : pairingCodeMatches mac request code = true := by
          simpa using List.find?_some hfind
        have hrow := (List.mem_filter.mp (hperm.mem_iff.mp hmem)).1
        have hunmet := List.all_eq_true.mp (Bool.and_eq_true_iff.mp hblind).1 request hmem
        exact outcome_withRequest hrow (by simpa [hmatch] using hunmet)

end Blind

/-! ## The call at one moment -/

section Moment

variable {mac : Text → δ} {db d d' db' : Db δ} {call : Asked} {identity : SurfaceIdentity}
  {scope : Option HouseId} {command : Command} {fetched : List (PairingRequest δ)}

omit [DecidableEq δ]

theorem mem_memberships {houseId : HouseId} {userId : Text}
    (h : houseId ∈ db.memberships userId) : db.memberExists houseId userId = true := by
  unfold Db.memberships at h
  have hmem := (List.mem_insertionSort _).mp (List.mem_of_mem_take h)
  obtain ⟨member, hmember, rfl⟩ := List.mem_map.mp hmem
  obtain ⟨hrow, hkey⟩ := List.mem_filter.mp hmember
  simp only [Bool.and_eq_true, decide_eq_true_eq] at hkey
  exact memberExists_iff.mpr ⟨member, hrow, by simp [HouseMember.key, hkey.1.1]⟩

theorem scopeOf_exists {userId : Text} (h : scopeOf (db.memberships userId) = some scope) :
    (scope.all fun houseId => db.memberExists houseId userId) = true := by
  cases scope with
  | none => rfl
  | some houseId =>
    refine mem_memberships ?_
    cases hmemberships : db.memberships userId with
    | nil => simp [hmemberships, scopeOf] at h
    | cons first rest =>
      cases rest with
      | nil =>
        rw [hmemberships] at h
        obtain rfl := Option.some.inj (Option.some.inj h)
        exact List.mem_cons_self
      | cons second rest => simp [hmemberships, scopeOf] at h

/-- Who is bound to a house has one. -/
theorem bound_memberships {house : HouseContext} (h : db.bound identity = some house) :
    db.memberships identity.userId ≠ [] := by
  unfold Db.bound at h
  split at h
  · cases h
  next surface hsurface =>
    split at h
    next hrow =>
      obtain ⟨huser, -, hmember⟩ := hrow
      obtain ⟨member, hfind, henabled⟩ := (Option.any_eq_true ..).mp hmember
      obtain ⟨hmem, hkey⟩ := Table.find?_eq_some.mp hfind
      obtain ⟨hhouse, hsame⟩ := Prod.mk.inj hkey
      split at h
      next house hfound =>
        split at h
        next hon =>
          have hlisted : member ∈ db.members.rows.filter fun member =>
              member.userId = identity.userId && member.enabled &&
                db.houseEnabled member.houseId := by
            rw [List.mem_filter]
            refine ⟨hmem, ?_⟩
            simp [hsame, huser, henabled, hhouse, Db.houseEnabled, hfound, hon]
          unfold Db.memberships
          rw [ne_eq, List.take_eq_nil_iff, not_or]
          refine ⟨by decide, ?_⟩
          have hsorted := (List.mem_insertionSort (· ≤ ·)).mpr
            (List.mem_map_of_mem (f := HouseMember.houseId) hlisted)
          exact List.ne_nil_of_mem hsorted
        next => cases h
      next => cases h
    next => cases h

theorem bound_applicationExists {house : HouseContext} (h : db.bound identity = some house) :
    db.applicationExists identity.applicationId = true := by
  obtain ⟨surface, hsurface, -, -, happlication, -⟩ := Db.bound_spec h
  exact applicationExists_iff.mpr ⟨surface, hsurface, happlication⟩

theorem upsertPairing_withRequest (mac : Text → δ)
    (h : (scope.all fun houseId => db.memberExists houseId call.identity.userId) = true) :
    db.upsertPairing call.now scope call.identity (call.codeHash mac) =
      some (withRequest mac call scope db) := by
  unfold Db.upsertPairing
  rw [if_pos h]
  rfl

/-- The third statement refuses, or passes the scope on. -/
theorem resolveStatement_memberships :
    resolveStatement mac false call.draw call.now db call.identity .selectMemberships =
      (db, (scopeOf (db.memberships call.identity.userId)).elim (.return (.ok .unauthorized))
        fun scope => .query (.insertRequest scope)) := by
  unfold resolveStatement
  cases db.memberships call.identity.userId with
  | nil => rfl
  | cons first rest => cases rest <;> rfl

/-- Nobody without a house is bound. -/
theorem scopeOf_refuses (h : scopeOf (db.memberships identity.userId) = none) :
    refuses db identity = true := by
  have hempty : db.memberships identity.userId = [] := by
    cases hmemberships : db.memberships identity.userId with
    | nil => rfl
    | cons first rest => cases rest <;> simp [hmemberships, scopeOf] at h
  cases hbound : db.bound identity with
  | none => simp [refuses, hbound, hempty]
  | some house => exact absurd hempty (bound_memberships hbound)

theorem resolveSurface_bound {house : HouseContext} (h : db.bound call.identity = some house) :
    resolveSurface mac call db = some (db, .ok (.bound house)) := by
  simp [resolveSurface, resolveFrom, resolveStatement, h]

theorem resolveSurface_refuses (h : refuses db call.identity = true) :
    resolveSurface mac call db = some (db, .ok .unauthorized) := by
  obtain ⟨hbound, hno⟩ := Bool.and_eq_true_iff.mp h
  rw [Option.isNone_iff_eq_none] at hbound
  cases happlication : db.applicationExists call.identity.applicationId with
  | true => simp [resolveSurface, resolveFrom, resolveStatement, hbound, happlication]
  | false =>
    have hempty : db.memberships call.identity.userId = [] := by
      simpa [happlication, List.isEmpty_iff] using hno
    simp [resolveSurface, resolveFrom, resolveStatement, hbound, happlication, hempty]

theorem resolveSurface_pairs
    (hnew : db.applicationExists call.identity.applicationId = false)
    (hscope : scopeOf (db.memberships call.identity.userId) = some scope) :
    resolveSurface mac call db =
      some (withRequest mac call scope db, .ok (.pairingRequired (spokenCode call.draw))) := by
  have hbound : db.bound call.identity = none := by
    cases hbound : db.bound call.identity with
    | none => rfl
    | some house => exact absurd (bound_applicationExists hbound) (by simp [hnew])
  have hupsert := upsertPairing_withRequest mac (scopeOf_exists hscope)
  unfold Asked.codeHash at hupsert
  cases hmemberships : db.memberships call.identity.userId with
  | nil => simp [hmemberships, scopeOf] at hscope
  | cons first rest =>
    cases rest with
    | nil =>
      obtain rfl : some first = scope := by simpa [hmemberships, scopeOf] using hscope
      simp [resolveSurface, resolveFrom, resolveStatement, hbound, hnew, hmemberships, hupsert]
    | cons second rest =>
      obtain rfl : none = scope := by simpa [hmemberships, scopeOf] using hscope
      simp [resolveSurface, resolveFrom, resolveStatement, hbound, hnew, hmemberships, hupsert]

end Moment

/-! ## Moments of a run -/

section Moments

variable {mac : Text → δ} {call : Asked} {db d d' db' : Db δ} {command : Command}
  {commands after : List Command} {fetched : List (PairingRequest δ)} {scope : Option HouseId}
  {result : Except HouseholdStoreError SurfaceResolution} {P Q : Db δ → List Command → Prop}

theorem CommitsAll.concat (h : CommitsAll mac db commands d) (hlast : Commits mac d command d') :
    CommitsAll mac db (commands ++ [command]) d' := by
  induction h with
  | nil => exact .cons hlast .nil
  | cons hfirst _ ih => exact .cons hfirst (ih hlast)

/-- At some moment the tables, and the commands committed since, met `P`. -/
def Moment (mac : Text → δ) (db : Db δ) (commands : List Command)
    (P : Db δ → List Command → Prop) : Prop :=
  ∃ before after d, commands = before ++ after ∧ CommitsAll mac db before d ∧ P d after

theorem Moment.now (h : CommitsAll mac db commands d) (hd : P d []) : Moment mac db commands P :=
  ⟨commands, [], d, by simp, h, hd⟩

theorem Moment.mono (h : Moment mac db commands P) (hPQ : ∀ d after, P d after → Q d after) :
    Moment mac db commands Q := by
  obtain ⟨before, after, d, heq, hbefore, hd⟩ := h
  exact ⟨before, after, d, heq, hbefore, hPQ d after hd⟩

theorem Moment.later (h : Moment mac db commands P)
    (hnext : ∀ d after, P d after → Q d (after ++ [command])) :
    Moment mac db (commands ++ [command]) Q := by
  obtain ⟨before, after, d, rfl, hbefore, hd⟩ := h
  exact ⟨before, after ++ [command], d, by simp, hbefore, hnext d after hd⟩

/-- The call would have been refused, and the commands since lead to `db'`. -/
structure Refused (mac : Text → δ) (call : Asked) (db' d : Db δ) (after : List Command) :
    Prop where
  refused : refuses d call.identity = true
  commits : CommitsAll mac d after db'

/-- The call would have written the scope, and the commands since do not notice. -/
structure Paired (mac : Text → δ) (call : Asked) (scope : Option HouseId) (db' d : Db δ)
    (after : List Command) : Prop where
  writes : scopeOf (d.memberships call.identity.userId) = some scope
  stays : d.applicationExists call.identity.applicationId = true →
    db'.applicationExists call.identity.applicationId = true
  commits : CommitsAll mac (withRequest mac call scope d) after (withRequest mac call scope db')

/-- The call would have had the result, and the commands since lead to `db'`. -/
def Taken (mac : Text → δ) (call : Asked)
    (result : Except HouseholdStoreError SurfaceResolution) (db' d : Db δ)
    (after : List Command) : Prop :=
  ∃ d', resolveSurface mac call d = some (d', result) ∧ CommitsAll mac d' after db'

theorem Refused.taken (h : Refused mac call db' d after) :
    Taken mac call (.ok .unauthorized) db' d after :=
  ⟨d, resolveSurface_refuses h.refused, h.commits⟩

theorem Paired.taken (h : Paired mac call scope db' d after)
    (hnew : db'.applicationExists call.identity.applicationId = false) :
    Taken mac call (.ok (.pairingRequired (spokenCode call.draw)))
      (withRequest mac call scope db') d after := by
  refine ⟨_, resolveSurface_pairs ?_ h.writes, h.commits⟩
  exact Bool.eq_false_iff.mpr fun hd => absurd (h.stays hd) (by simp [hnew])

/-- Such a moment is one of a serial order. -/
theorem Moment.serial (h : Moment mac db commands (Taken mac call result db')) :
    Serial mac call db commands result db' := by
  obtain ⟨before, after, d, rfl, hbefore, d', hcall, hafter⟩ := h
  exact ⟨before, after, d, d', .refl _, hbefore, hcall, hafter⟩

omit [DecidableEq δ] in
theorem Keeps.applicationExists (h : Keeps db db') {applicationId : Text}
    (hold : db.applicationExists applicationId = true) :
    db'.applicationExists applicationId = true := by
  obtain ⟨surface, hmem, happlication⟩ := applicationExists_iff.mp hold
  obtain ⟨surface', hmem', hsame⟩ := h.surfaces surface hmem
  exact applicationExists_iff.mpr ⟨surface', hmem', (Prod.mk.inj hsame).1.trans happlication⟩

omit [DecidableEq δ] in
theorem Keeps.memberExists (h : Keeps db db') {houseId : HouseId} {userId : Text}
    (hold : db.memberExists houseId userId = true) : db'.memberExists houseId userId = true := by
  obtain ⟨member, hmem, hkey⟩ := memberExists_iff.mp hold
  obtain ⟨member', hmem', hsame⟩ := h.members member hmem
  exact memberExists_iff.mpr ⟨member', hmem', hsame.trans hkey⟩

end Moments

/-! ## What a step keeps -/

section Steps

variable {mac : Text → δ} {call : Asked} {db db' : Db δ} {s s' : State δ} {command : Command}
  {commands os : List Command} {fetched : List (PairingRequest δ)} {pc : ResolvePc}

/-- The call has still to make the statement. -/
structure Asking (mac : Text → δ) (call : Asked) (db : Db δ) (s : State δ)
    (commands : List Command) (pc : ResolvePc) : Prop where
  committed : CommitsAll mac db commands s.db
  refused : s.settled = true → Moment mac db commands (Refused mac call s.db)
  member : ∀ scope, pc = .insertRequest scope →
    (scope.all fun houseId => s.db.memberExists houseId call.identity.userId) = true
  paired : ∀ scope, pc = .insertRequest scope → s.clean = true →
    Moment mac db commands (Paired mac call scope s.db)

def Invariant (mac : Text → δ) (call : Asked) (db : Db δ) (s : State δ)
    (commands : List Command) : Prop :=
  match s.next with
  | .query pc => Asking mac call db s commands pc
  | .return result => Moment mac db commands (Taken mac call result s.db)

theorem next_command (hstep : step mac call s (.command command fetched) = some (s', os)) :
    s'.next = s.next := by
  obtain ⟨db', -, heq⟩ := Option.map_eq_some_iff.mp hstep
  obtain ⟨rfl, -⟩ := Prod.mk.inj heq
  rfl

/-- A command leaves what is known about the call. -/
theorem Asking.later (h : Asking mac call db s commands pc) (hpc : s.next = .query pc)
    (hstep : step mac call s (.command command fetched) = some (s', os)) :
    Asking mac call db s' (commands ++ os) pc := by
  obtain ⟨db', hexecute, heq⟩ := Option.map_eq_some_iff.mp hstep
  obtain ⟨rfl, rfl⟩ := Prod.mk.inj heq
  have hkeeps := execute_keeps hexecute
  have hcommitted := h.committed.concat ⟨fetched, hexecute⟩
  refine ⟨hcommitted, fun hsettled => ?_, fun scope hscope => ?_, fun scope hscope hclean => ?_⟩
  · rcases Bool.or_eq_true_iff.mp hsettled with hbefore | hnow
    · exact (h.refused hbefore).later fun d after hd =>
        ⟨hd.refused, hd.commits.concat ⟨fetched, hexecute⟩⟩
    · exact .now hcommitted ⟨hnow, .nil⟩
  · have hmember := h.member scope hscope
    rw [Option.all_eq_true] at hmember ⊢
    exact fun houseId hhouse => hkeeps.memberExists (hmember houseId hhouse)
  · rcases Bool.or_eq_true_iff.mp hclean with hunmet | hnow
    · -- the request could as well have been written before the command
      obtain ⟨hbefore, hblind⟩ := Bool.and_eq_true_iff.mp hunmet
      exact (h.paired scope hscope hbefore).later fun d after hd =>
        ⟨hd.writes, fun happlication => hkeeps.applicationExists (hd.stays happlication),
          hd.commits.concat (commits_withRequest hexecute hblind)⟩
    · rw [hpc, hscope] at hnow
      exact .now hcommitted ⟨eq_of_beq hnow, id, .nil⟩

theorem Taken.later {result : Except HouseholdStoreError SurfaceResolution}
    (h : Moment mac db commands (Taken mac call result s.db))
    (hstep : step mac call s (.command command fetched) = some (s', os)) :
    Moment mac db (commands ++ os) (Taken mac call result s'.db) := by
  obtain ⟨db', hexecute, heq⟩ := Option.map_eq_some_iff.mp hstep
  obtain ⟨rfl, rfl⟩ := Prod.mk.inj heq
  refine h.later fun d after hd => ?_
  obtain ⟨d', hcall, hafter⟩ := hd
  exact ⟨d', hcall, hafter.concat ⟨fetched, hexecute⟩⟩

/-- A statement that meets the condition leads on, or to a result the call could have had. -/
theorem Asking.statement (h : Asking mac call db s commands pc) (hpc : s.next = .query pc)
    (hguard : guarded call s .statement = true)
    (hstep : step mac call s .statement = some (s', os)) :
    Invariant mac call db s' (commands ++ os) := by
  simp only [step, hpc] at hstep
  obtain ⟨rfl, rfl⟩ := Prod.mk.inj (Option.some.inj hstep)
  simp only [guarded, hpc] at hguard
  rw [List.append_nil]
  have hrefused (hsettled : (s.settled || refuses s.db call.identity) = true) :
      Moment mac db commands (Refused mac call s.db) := by
    rcases Bool.or_eq_true_iff.mp hsettled with hbefore | hnow
    · exact h.refused hbefore
    · exact .now h.committed ⟨hnow, .nil⟩
  cases pc with
  | selectBound =>
    cases hbound : s.db.bound call.identity with
    | some house =>
      simp only [Invariant, resolveStatement, hbound]
      exact .now h.committed ⟨s.db, resolveSurface_bound hbound, .nil⟩
    | none =>
      simp only [Invariant, resolveStatement, hbound]
      exact ⟨h.committed, hrefused, by simp, by simp⟩
  | selectApplication =>
    cases happlication : s.db.applicationExists call.identity.applicationId with
    | true =>
      simp only [happlication, Bool.not_true, Bool.false_or] at hguard
      simp only [Invariant, resolveStatement, happlication]
      exact (h.refused hguard).mono fun d after hd => hd.taken
    | false =>
      simp only [Invariant, resolveStatement, happlication]
      exact ⟨h.committed, hrefused, by simp, by simp⟩
  | selectMemberships =>
    rw [resolveStatement_memberships]
    cases hscope : scopeOf (s.db.memberships call.identity.userId) with
    | none => exact .now h.committed (Refused.taken ⟨scopeOf_refuses hscope, .nil⟩)
    | some scope =>
      refine ⟨h.committed, hrefused, fun scope' heq => ?_, fun scope' heq _ => ?_⟩
      · obtain rfl := ResolvePc.insertRequest.inj heq
        exact scopeOf_exists hscope
      · obtain rfl := ResolvePc.insertRequest.inj heq
        exact .now h.committed ⟨hscope, id, .nil⟩
  | insertRequest scope =>
    obtain ⟨hnew, hclean⟩ := Bool.and_eq_true_iff.mp hguard
    have hwrites := upsertPairing_withRequest mac (h.member scope rfl)
    unfold Asked.codeHash at hwrites
    simp only [Invariant, resolveStatement, hwrites]
    exact (h.paired scope rfl hclean).mono fun d after hd => hd.taken (by simpa using hnew)

theorem step_keeps {a : Action δ} (h : Invariant mac call db s commands)
    (hguard : guarded call s a = true) (hstep : step mac call s a = some (s', os)) :
    Invariant mac call db s' (commands ++ os) := by
  cases hnext : s.next with
  | query pc =>
    simp only [Invariant, hnext] at h
    cases a with
    | command command fetched =>
      have hnext' : s'.next = .query pc := (next_command hstep).trans hnext
      simp only [Invariant, hnext']
      exact h.later hnext hstep
    | statement => exact h.statement hnext hguard hstep
  | «return» result =>
    simp only [Invariant, hnext] at h
    cases a with
    | command command fetched =>
      have hnext' : s'.next = .return result := (next_command hstep).trans hnext
      simp only [Invariant, hnext']
      exact Taken.later h hstep
    | statement => simp [step, hnext] at hstep

/-- A call whose statements meet the condition is as good as atomic: its result and the tables
are those of some serial order. -/
theorem resolution_serializable {result : Except HouseholdStoreError SurfaceResolution}
    {actions : List (Action δ)}
    (he : (machine mac call).exec (.start db) actions = some (s, os))
    (hreturned : s.next = .return result)
    (hc : (machine mac call).Along (fun s a => guarded call s a = true) (.start db) actions) :
    Serial mac call db os result s.db := by
  have hstart : Invariant mac call db (.start db) [] :=
    ⟨.nil, by simp [State.start], by simp, by simp⟩
  have hend := Machine.exec_invariant (M := machine mac call) (Invariant mac call db)
    (fun h hguard hstep => step_keeps h hguard hstep) hstart hc he
  simp only [Invariant, hreturned, List.nil_append] at hend
  exact hend.serial

end Steps

/-- A house whose only member has a live request. -/
def pairing : Db Text where
  houses := ⟨[⟨1, ⟨[], none, []⟩, true⟩], by decide⟩
  nextHouse := 2
  members := ⟨[⟨1, "m".toList, .member, true⟩], by decide⟩
  surfaces := Table.empty
  requests := ⟨⟨[guestRequest], by decide⟩, 3, by decide, by decide⟩

/-- The member asks again through the same surface. -/
def asksAgain : Asked where
  identity := ⟨"m".toList, "a".toList⟩
  draw := ⟨7, by decide⟩
  now := 0

/-- The member is disabled before the request is written. -/
def disabledMeanwhile : List (Action Text) :=
  [.statement, .statement, .statement, .command (.disableMember 1 "m".toList) [], .statement]

theorem resolution_serializable_disabled :
    ∃ s, (machine id asksAgain).exec (.start pairing) disabledMeanwhile =
        some (s, [.disableMember 1 "m".toList]) ∧
      Serial id asksAgain pairing [.disableMember 1 "m".toList]
        (.ok (.pairingRequired (spokenCode asksAgain.draw))) s.db :=
  ⟨_, rfl, resolution_serializable (show (machine id asksAgain).exec (.start pairing)
    disabledMeanwhile = some (_, _) from rfl) rfl (by decide)⟩

def approveGuest : Command := .approvePairing 1 "123456".toList 0

/-- Between the first two queries the owner approves the request: the first finds no surface, the
second finds one. -/
theorem approved_surface_unauthorized :
    ∃ s, (machine id asksAgain).exec (.start pairing)
        [.statement, .command approveGuest [guestRequest], .statement] = some (s, [approveGuest]) ∧
      s.next = .return (.ok .unauthorized) ∧
      ¬ Serial id asksAgain pairing [approveGuest] (.ok .unauthorized) s.db := by
  refine ⟨_, rfl, rfl, ?_⟩
  rintro ⟨before, after, d, d', hperm, hbefore, hcall, -⟩
  have hsplit := List.perm_singleton.mp hperm
  rcases List.append_eq_singleton_iff.mp hsplit with ⟨rfl, rfl⟩ | ⟨rfl, rfl⟩
  · -- the call comes first and asks to pair
    cases hbefore
    have hresult := congrArg (Option.map Prod.snd) hcall
    simp only [Option.map_some] at hresult
    exact absurd hresult (by decide)
  · -- the approval comes first and binds the surface
    cases hbefore with
    | cons hcommit hnil =>
      cases hnil
      obtain ⟨fetched, hexecute⟩ := hcommit
      obtain ⟨hfetched, hdb⟩ := Option.ite_none_right_eq_some.mp hexecute
      obtain rfl : fetched = [guestRequest] := List.perm_singleton.mp hfetched
      obtain rfl := Option.some.inj hdb
      have hresult := congrArg (Option.map Prod.snd) hcall
      simp only [Option.map_some] at hresult
      exact absurd hresult (by decide)

end AliceBridge.Server.Resolution
