import AliceBridge.Core.HouseEngine
import AliceBridge.Server.HouseStore
import AliceBridge.Server.StateCrypto

/-! # Pending replies and continuations in PostgreSQL

The two tables of `0002_household.sql` that hold texts, and the operations of
`house_store_pg.rs` on them. A text is sealed before it is written, chunks as one
JSON array, and every row has a time after which it is not read any more. A
statement that fails may have been executed (`Outcome.err`).

`slotsAt` is what a reader can see of the tables at a time; each operation acts on
it as the operation of `Slots` does (`ActsAs`). -/
namespace AliceBridge.Server.TemporaryState
open AliceBridge.Lib AliceBridge.Lib.Utf8 AliceBridge.Lib.Bytes AliceBridge.Lib.Json
open AliceBridge.Lib.JsonText AliceBridge.Core.Household AliceBridge.Core.HouseEngine
open AliceBridge.Server.HouseStore AliceBridge.Server.StateCrypto

/-! ## The tables -/

/-- `status` with the columns its check constraint ties to it. -/
inductive PendingStatus where
  | thinking
  | ready (payload : EncryptedPayload)
deriving DecidableEq

structure PendingRow where
  houseId : HouseId
  applicationId : Text
  status : PendingStatus
  expiresAt : Nat
deriving DecidableEq

structure ContinuationRow where
  houseId : HouseId
  applicationId : Text
  payload : EncryptedPayload
  expiresAt : Nat
deriving DecidableEq

def PendingRow.key (row : PendingRow) : HouseId × Text := (row.houseId, row.applicationId)
def ContinuationRow.key (row : ContinuationRow) : HouseId × Text :=
  (row.houseId, row.applicationId)

/-- The columns an upsert sets. -/
def PendingRow.set (status : PendingStatus) (expiresAt : Nat) (row : PendingRow) : PendingRow :=
  { row with status := status, expiresAt := expiresAt }

def ContinuationRow.set (payload : EncryptedPayload) (expiresAt : Nat) (row : ContinuationRow) :
    ContinuationRow :=
  { row with payload := payload, expiresAt := expiresAt }

@[simp] theorem PendingRow.key_set (status : PendingStatus) (expiresAt : Nat) (row : PendingRow) :
    (row.set status expiresAt).key = row.key := rfl
@[simp] theorem ContinuationRow.key_set (payload : EncryptedPayload) (expiresAt : Nat)
    (row : ContinuationRow) : (row.set payload expiresAt).key = row.key := rfl

structure TempDb where
  pending : Table PendingRow.key
  continuations : Table ContinuationRow.key

def TempDb.empty : TempDb := ⟨Table.empty, Table.empty⟩

/-- `PENDING_TTL_SECONDS`. -/
def pendingTtlSeconds : Nat := 120
/-- `CONTINUATION_TTL_SECONDS`. -/
def continuationTtlSeconds : Nat := 600

def pendingExpiry (now : Nat) : Nat := now + pendingTtlSeconds * microseconds
def continuationExpiry (now : Nat) : Nat := now + continuationTtlSeconds * microseconds

/-- The row a foreign key of the two tables asks for. -/
def surfaceExists {δ : Type} (db : Db δ) (houseId : HouseId) (app : Text) : Bool :=
  (db.surfaces.find? app).any fun surface => surface.houseId = houseId

/-! ## Chunks as JSON -/

/-- `serde_json::to_vec` of the chunks. -/
def chunksText (chunks : List Text) : Text := JsonText.print noFloats (.array (chunks.map .string))

/-- `serde_json::from_str::<Vec<String>>`. -/
def readChunks (text : Text) : Option (List Text) :=
  match parse noFloats text with
  | some (.array items) => items.mapM Value.asStr
  | _ => none

theorem numbers_strings (chunks : List Text) :
    NumbersItems CanonicalNumber (chunks.map .string) := by
  induction chunks with
  | nil => trivial
  | cons chunk chunks ih => exact ⟨trivial, ih⟩

theorem normal_strings (chunks : List Text) :
    normalItems (chunks.map .string) = chunks.map .string := by
  induction chunks with
  | nil => rfl
  | cons chunk chunks ih => simp [normalItems, normal, ih]

theorem nesting_strings (chunks : List Text) : nestingItems (chunks.map .string) = 0 := by
  induction chunks with
  | nil => rfl
  | cons chunk chunks ih => simp [nestingItems, nesting, ih]

theorem asStr_strings (chunks : List Text) :
    (chunks.map Value.string).mapM Value.asStr = some chunks := by
  induction chunks with
  | nil => rfl
  | cons chunk chunks ih => simp [List.mapM_cons, ih, Value.asStr]

theorem readChunks_chunksText (chunks : List Text) :
    readChunks (chunksText chunks) = some chunks := by
  have hnumbers : Numbers CanonicalNumber (.array (chunks.map .string)) := numbers_strings chunks
  have hnesting : nesting (.array (chunks.map .string)) ≤ maxNesting := by
    simp [nesting, nesting_strings, maxNesting]
  have hparse := @parse_print noFloats _ hnumbers [] (by simp)
  rw [List.append_nil, if_pos hnesting, normal, normal_strings] at hparse
  rw [readChunks, chunksText, hparse]
  exact asStr_strings chunks

/-! ## Errors -/

def cryptoError : HouseholdStoreError := ⟨"household state authentication failed".toList⟩
def notUtf8 : HouseholdStoreError := ⟨"encrypted state is not valid UTF-8".toList⟩
def invalidPayload : HouseholdStoreError := ⟨"continuation payload is invalid".toList⟩
def differentThread : HouseholdStoreError :=
  ⟨"house already has a different Codex thread".toList⟩

/-! ## The operations -/

/-- A writing statement: what it leaves and what its caller gets. -/
def written (outcome : Outcome) (before after : TempDb) :
    TempDb × Except HouseholdStoreError Unit :=
  match outcome with
  | .ok => (after, .ok ())
  | .err applied => (if applied then after else before, .error dbError)

section
variable (aead : Aead) (cipher : StateCipher)

/-- `open_text`. -/
def openText (payload : EncryptedPayload) : Except HouseholdStoreError Text :=
  match cipher.open aead payload with
  | .error _ => .error cryptoError
  | .ok plaintext =>
    match decode plaintext with
    | some text => .ok text
    | none => .error notUtf8

def TempDb.livePending (temp : TempDb) (now : Nat) (houseId : HouseId) (app : Text) :
    Option PendingRow :=
  (temp.pending.find? (houseId, app)).filter fun row => now < row.expiresAt

def TempDb.liveContinuation (temp : TempDb) (now : Nat) (houseId : HouseId) (app : Text) :
    Option ContinuationRow :=
  (temp.continuations.find? (houseId, app)).filter fun row => now < row.expiresAt

/-- What a row of `pending_replies` is read as. -/
def PendingStatus.read : PendingStatus → Except HouseholdStoreError PendingReply
  | .thinking => .ok .thinking
  | .ready payload => (openText aead cipher payload).map .ready

def pollPending (outcome : Outcome) (now : Nat) (temp : TempDb) (houseId : HouseId) (app : Text) :
    Except HouseholdStoreError PendingReply :=
  match outcome with
  | .err _ => .error dbError
  | .ok =>
    match temp.livePending now houseId app with
    | none => .ok .none
    | some row => row.status.read aead cipher

/-- `INSERT … ON CONFLICT … DO UPDATE` on `pending_replies`. -/
def TempDb.upsertPending (temp : TempDb) (houseId : HouseId) (app : Text) (status : PendingStatus)
    (expiresAt : Nat) : TempDb :=
  { temp with
    pending := temp.pending.upsert ⟨houseId, app, status, expiresAt⟩
      (.set status expiresAt) (PendingRow.key_set status expiresAt) }

/-- The same on `continuations`. -/
def TempDb.upsertContinuation (temp : TempDb) (houseId : HouseId) (app : Text)
    (payload : EncryptedPayload) (expiresAt : Nat) : TempDb :=
  { temp with
    continuations := temp.continuations.upsert ⟨houseId, app, payload, expiresAt⟩
      (.set payload expiresAt) (ContinuationRow.key_set payload expiresAt) }

def TempDb.deletePending (temp : TempDb) (houseId : HouseId) (app : Text) : TempDb :=
  { temp with pending := temp.pending.delete fun row => row.key = (houseId, app) }

def TempDb.deleteContinuation (temp : TempDb) (houseId : HouseId) (app : Text) : TempDb :=
  { temp with continuations := temp.continuations.delete fun row => row.key = (houseId, app) }

def markThinking (outcome : Outcome) (now : Nat) (surface : Bool) (temp : TempDb)
    (houseId : HouseId) (app : Text) : TempDb × Except HouseholdStoreError Unit :=
  if surface then
    written outcome temp (temp.upsertPending houseId app .thinking (pendingExpiry now))
  else (temp, .error dbError)

def saveReady (outcome : Outcome) (nonce : Nonce) (now : Nat) (surface : Bool) (temp : TempDb)
    (houseId : HouseId) (app text : Text) : TempDb × Except HouseholdStoreError Unit :=
  match cipher.seal aead nonce (encode text) with
  | .error _ => (temp, .error cryptoError)
  | .ok payload =>
    if surface then
      written outcome temp (temp.upsertPending houseId app (.ready payload) (pendingExpiry now))
    else (temp, .error dbError)

def clearPending (outcome : Outcome) (temp : TempDb) (houseId : HouseId) (app : Text) :
    TempDb × Except HouseholdStoreError Unit :=
  written outcome temp (temp.deletePending houseId app)

def clearContinuation (outcome : Outcome) (temp : TempDb) (houseId : HouseId) (app : Text) :
    TempDb × Except HouseholdStoreError Unit :=
  written outcome temp (temp.deleteContinuation houseId app)

/-- What the payload of a row of `continuations` is read as. -/
def readContinuation (payload : EncryptedPayload) : Except HouseholdStoreError (List Text) :=
  match openText aead cipher payload with
  | .error e => .error e
  | .ok text =>
    match readChunks text with
    | some chunks => .ok chunks
    | none => .error invalidPayload

/-- One statement deletes the live row and returns it; only then is it opened. -/
def takeContinuation (outcome : Outcome) (now : Nat) (temp : TempDb) (houseId : HouseId)
    (app : Text) : TempDb × Except HouseholdStoreError (Option (List Text)) :=
  match temp.liveContinuation now houseId app with
  | none => (temp, if outcome = .ok then .ok none else .error dbError)
  | some row =>
    match outcome with
    | .err applied =>
      (if applied then temp.deleteContinuation houseId app else temp, .error dbError)
    | .ok =>
      (temp.deleteContinuation houseId app, (readContinuation aead cipher row.payload).map some)

def saveContinuation (outcome : Outcome) (nonce : Nonce) (now : Nat) (surface : Bool)
    (temp : TempDb) (houseId : HouseId) (app : Text) (chunks : List Text) :
    TempDb × Except HouseholdStoreError Unit :=
  if chunks.isEmpty then clearContinuation outcome temp houseId app
  else
    match cipher.seal aead nonce (encode (chunksText chunks)) with
    | .error _ => (temp, .error cryptoError)
    | .ok payload =>
      if surface then
        written outcome temp
          (temp.upsertContinuation houseId app payload (continuationExpiry now))
      else (temp, .error dbError)

/-! ## What can be read at a time -/

/-- The live entries of a surface; one that cannot be opened is none. -/
def slotsAt (now : Nat) (temp : TempDb) (houseId : HouseId) (app : Text) : Slots where
  pending := (pollPending aead cipher .ok now temp houseId app).toOption.getD .none
  continuation := (temp.liveContinuation now houseId app).bind fun row =>
    (readContinuation aead cipher row.payload).toOption

end

/-! ## What the statements do to it -/

section
variable {aead : Aead} {cipher : StateCipher} {temp : TempDb} {now expiresAt : Nat}
  {houseId h : HouseId} {app a : Text}

theorem livePending_upsert (status : PendingStatus) (hlive : now < expiresAt) :
    ∃ row, (temp.upsertPending houseId app status expiresAt).livePending now houseId app =
      some row ∧ row.status = status := by
  unfold TempDb.livePending TempDb.upsertPending
  rw [Table.find?_upsert]
  cases hfind : temp.pending.find? (houseId, app) <;>
    simp [PendingRow.key, PendingRow.set, hlive]

theorem livePending_upsert_other (status : PendingStatus) (hne : ¬ (h = houseId ∧ a = app)) :
    (temp.upsertPending houseId app status expiresAt).livePending now h a =
      temp.livePending now h a := by
  unfold TempDb.livePending TempDb.upsertPending
  rw [Table.find?_upsert, if_neg (by simpa [PendingRow.key] using hne)]

theorem livePending_delete :
    (temp.deletePending houseId app).livePending now h a =
      if h = houseId ∧ a = app then none else temp.livePending now h a := by
  unfold TempDb.livePending TempDb.deletePending
  rw [Table.find?_delete]
  by_cases heq : h = houseId ∧ a = app
  · simp [heq]
  · rw [if_neg (by simpa using heq), if_neg heq]

theorem liveContinuation_upsert (payload : EncryptedPayload) (hlive : now < expiresAt) :
    ∃ row, (temp.upsertContinuation houseId app payload expiresAt).liveContinuation now houseId
      app = some row ∧ row.payload = payload := by
  unfold TempDb.liveContinuation TempDb.upsertContinuation
  rw [Table.find?_upsert]
  cases hfind : temp.continuations.find? (houseId, app) <;>
    simp [ContinuationRow.key, ContinuationRow.set, hlive]

theorem liveContinuation_upsert_other (payload : EncryptedPayload)
    (hne : ¬ (h = houseId ∧ a = app)) :
    (temp.upsertContinuation houseId app payload expiresAt).liveContinuation now h a =
      temp.liveContinuation now h a := by
  unfold TempDb.liveContinuation TempDb.upsertContinuation
  rw [Table.find?_upsert, if_neg (by simpa [ContinuationRow.key] using hne)]

theorem liveContinuation_delete :
    (temp.deleteContinuation houseId app).liveContinuation now h a =
      if h = houseId ∧ a = app then none else temp.liveContinuation now h a := by
  unfold TempDb.liveContinuation TempDb.deleteContinuation
  rw [Table.find?_delete]
  by_cases heq : h = houseId ∧ a = app
  · simp [heq]
  · rw [if_neg (by simpa using heq), if_neg heq]

theorem openText_seal (hlawful : aead.Lawful) {nonce : Nonce} {text : Text}
    {payload : EncryptedPayload} (hseal : cipher.seal aead nonce (encode text) = .ok payload) :
    openText aead cipher payload = .ok text := by
  simp [openText, StateCipher.open_seal hlawful hseal, decode_encode]

theorem readContinuation_seal (hlawful : aead.Lawful) {nonce : Nonce} {chunks : List Text}
    {payload : EncryptedPayload}
    (hseal : cipher.seal aead nonce (encode (chunksText chunks)) = .ok payload) :
    readContinuation aead cipher payload = .ok chunks := by
  simp [readContinuation, openText_seal hlawful hseal, readChunks_chunksText]

/-! ## Each operation on what can be read -/

/-- An operation left what can be read as it was, but for one surface, on which it
acted as `f` unless it failed without effect. -/
def ActsAs (aead : Aead) (cipher : StateCipher) (now : Nat) (houseId : HouseId) (app : Text)
    (outcome : Outcome) (f : Slots → Slots) (temp temp' : TempDb) : Prop :=
  ∀ h a, slotsAt aead cipher now temp' h a =
    if h = houseId ∧ a = app then
      if outcome.applies then f (slotsAt aead cipher now temp h a)
      else slotsAt aead cipher now temp h a
    else slotsAt aead cipher now temp h a

theorem ActsAs.unchanged {f : Slots → Slots} {outcome : Outcome}
    (hfail : outcome.applies = true → f (slotsAt aead cipher now temp houseId app) =
      slotsAt aead cipher now temp houseId app) :
    ActsAs aead cipher now houseId app outcome f temp temp := by
  intro h a
  split
  next heq =>
    obtain ⟨rfl, rfl⟩ := heq
    split
    next happlies => exact (hfail happlies).symm
    · rfl
  · rfl

/-- The entries of one surface were replaced and no others. -/
def Replaced (aead : Aead) (cipher : StateCipher) (now : Nat) (houseId : HouseId) (app : Text)
    (slots : Slots) (temp temp' : TempDb) : Prop :=
  ∀ h a, slotsAt aead cipher now temp' h a =
    if h = houseId ∧ a = app then slots else slotsAt aead cipher now temp h a

theorem ActsAs.replaced {outcome : Outcome} {f : Slots → Slots} {temp' : TempDb}
    (h : ActsAs aead cipher now houseId app outcome f temp temp') :
    Replaced aead cipher now houseId app
      (if outcome.applies then f (slotsAt aead cipher now temp houseId app)
        else slotsAt aead cipher now temp houseId app) temp temp' := by
  intro x a
  rw [h x a]
  split
  next heq =>
    obtain ⟨rfl, rfl⟩ := heq
    rfl
  · rfl

theorem Replaced.refl (now : Nat) (houseId : HouseId) (app : Text) (temp : TempDb) :
    Replaced aead cipher now houseId app (slotsAt aead cipher now temp houseId app) temp temp := by
  intro x a
  split
  next heq =>
    obtain ⟨rfl, rfl⟩ := heq
    rfl
  · rfl

/-- A statement whose effect is `f` acts as `f` with the outcome it has. -/
theorem ActsAs.written {f : Slots → Slots} {outcome : Outcome} {after : TempDb}
    (heffect : ActsAs aead cipher now houseId app .ok f temp after) :
    ActsAs aead cipher now houseId app outcome f temp (written outcome temp after).1 := by
  cases outcome with
  | ok => exact heffect
  | err applied =>
    cases applied with
    | true => exact heffect
    | false => exact .unchanged (fun h => by cases h)

theorem actsAs_upsertPending {status : PendingStatus} {reply : PendingReply}
    (hlive : now < expiresAt) (hread : status.read aead cipher = .ok reply) :
    ActsAs aead cipher now houseId app .ok (fun slots => { slots with pending := reply }) temp
      (temp.upsertPending houseId app status expiresAt) := by
  intro h a
  by_cases heq : h = houseId ∧ a = app
  · obtain ⟨rfl, rfl⟩ := heq
    obtain ⟨row, hrow, hstatus⟩ := @livePending_upsert temp now expiresAt h a status hlive
    simp only [and_self, if_true, Outcome.applies, slotsAt, pollPending, hrow, hstatus, hread]
    rfl
  · rw [if_neg heq]
    simp only [slotsAt, pollPending, livePending_upsert_other status heq]
    rfl

theorem actsAs_deletePending :
    ActsAs aead cipher now houseId app .ok Slots.clearPending temp
      (temp.deletePending houseId app) := by
  intro h a
  by_cases heq : h = houseId ∧ a = app
  · simp only [heq, and_self, if_true, Outcome.applies, slotsAt, pollPending, livePending_delete]
    rfl
  · rw [if_neg heq]
    simp only [slotsAt, pollPending, livePending_delete, heq, if_false]
    rfl

theorem actsAs_deleteContinuation :
    ActsAs aead cipher now houseId app .ok Slots.clearContinuation temp
      (temp.deleteContinuation houseId app) := by
  intro h a
  by_cases heq : h = houseId ∧ a = app
  · simp only [heq, and_self, if_true, Outcome.applies, slotsAt, liveContinuation_delete]
    rfl
  · rw [if_neg heq]
    simp only [slotsAt, liveContinuation_delete, heq, if_false]
    rfl

theorem actsAs_upsertContinuation {payload : EncryptedPayload} {chunks : List Text}
    (hlive : now < expiresAt) (hread : readContinuation aead cipher payload = .ok chunks) :
    ActsAs aead cipher now houseId app .ok (fun slots => { slots with continuation := some chunks })
      temp (temp.upsertContinuation houseId app payload expiresAt) := by
  intro h a
  by_cases heq : h = houseId ∧ a = app
  · obtain ⟨rfl, rfl⟩ := heq
    obtain ⟨row, hrow, hpayload⟩ := @liveContinuation_upsert temp now expiresAt h a payload hlive
    simp only [and_self, if_true, Outcome.applies, slotsAt, hrow, Option.bind_some, hpayload, hread]
    rfl
  · rw [if_neg heq]
    simp only [slotsAt, liveContinuation_upsert_other payload heq]
    rfl

/-- The result is an error exactly when the outcome is one. -/
def Agrees {α : Type} : Outcome → Except HouseholdStoreError α → Prop
  | .ok, .ok _ => True
  | .err _, .error _ => True
  | _, _ => False

theorem Agrees.ok {α : Type} {seen : Outcome} {a : α} (h : Agrees seen (.ok a)) : seen = .ok := by
  cases seen with
  | ok => rfl
  | err applied => exact h.elim

theorem Agrees.error {α : Type} {seen : Outcome} {e : HouseholdStoreError}
    (h : Agrees seen (.error e : Except HouseholdStoreError α)) :
    ∃ applied, seen = .err applied := by
  cases seen with
  | ok => exact h.elim
  | err applied => exact ⟨applied, rfl⟩

theorem agrees_written (outcome : Outcome) (before after : TempDb) :
    Agrees outcome (written outcome before after).2 := by
  cases outcome <;> trivial

/-- The outcome of a write that was refused before it reached the table. -/
theorem refused_acts (f : Slots → Slots) (error : HouseholdStoreError) :
    ∃ outcome, ActsAs aead cipher now houseId app outcome f temp temp ∧
      Agrees outcome (.error error : Except HouseholdStoreError Unit) :=
  ⟨.err false, .unchanged (fun h => by cases h), trivial⟩

theorem markThinking_acts (outcome : Outcome) (surface : Bool) :
    ∃ seen, ActsAs aead cipher now houseId app seen Slots.markThinking temp
        (markThinking outcome now surface temp houseId app).1 ∧
      Agrees seen (markThinking outcome now surface temp houseId app).2 := by
  unfold markThinking
  split
  · have hlive : now < pendingExpiry now := by
      simp [pendingExpiry, pendingTtlSeconds, microseconds]
    exact ⟨outcome, .written (actsAs_upsertPending hlive rfl), agrees_written ..⟩
  · exact refused_acts ..

theorem saveReady_acts (hlawful : aead.Lawful) (outcome : Outcome) (nonce : Nonce) (surface : Bool)
    (text : Text) :
    ∃ seen, ActsAs aead cipher now houseId app seen (fun slots => slots.saveReady text) temp
        (saveReady aead cipher outcome nonce now surface temp houseId app text).1 ∧
      Agrees seen (saveReady aead cipher outcome nonce now surface temp houseId app text).2 := by
  unfold saveReady
  split
  · exact refused_acts ..
  next payload hseal =>
    split
    · have hlive : now < pendingExpiry now := by
        simp [pendingExpiry, pendingTtlSeconds, microseconds]
      have hread : (PendingStatus.ready payload).read aead cipher = .ok (.ready text) := by
        simp [PendingStatus.read, openText_seal hlawful hseal, Except.map]
      exact ⟨outcome, .written (actsAs_upsertPending hlive hread), agrees_written ..⟩
    · exact refused_acts ..

theorem clearPending_acts (outcome : Outcome) :
    ActsAs aead cipher now houseId app outcome Slots.clearPending temp
        (clearPending outcome temp houseId app).1 ∧
      Agrees outcome (clearPending outcome temp houseId app).2 :=
  ⟨.written actsAs_deletePending, agrees_written ..⟩

theorem saveContinuation_acts (hlawful : aead.Lawful) (outcome : Outcome) (nonce : Nonce)
    (surface : Bool) (chunks : List Text) :
    ∃ seen, ActsAs aead cipher now houseId app seen
      (fun slots => slots.saveContinuation chunks) temp
        (saveContinuation aead cipher outcome nonce now surface temp houseId app chunks).1 ∧
      Agrees seen
        (saveContinuation aead cipher outcome nonce now surface temp houseId app chunks).2 := by
  unfold saveContinuation
  split
  next hempty =>
    have hsame :
        (fun slots : Slots => slots.saveContinuation chunks) = Slots.clearContinuation := by
      funext slots
      rw [Slots.saveContinuation, if_pos hempty]
    rw [hsame]
    exact ⟨outcome, .written actsAs_deleteContinuation, agrees_written ..⟩
  next hempty =>
    have hsame : (fun slots : Slots => slots.saveContinuation chunks) =
        fun slots => { slots with continuation := some chunks } := by
      funext slots
      rw [Slots.saveContinuation, if_neg hempty]
    rw [hsame]
    split
    · exact refused_acts ..
    next payload hseal =>
      split
      · have hlive : now < continuationExpiry now := by
          simp [continuationExpiry, continuationTtlSeconds, microseconds]
        have hread := readContinuation_seal hlawful hseal
        exact ⟨outcome, .written (actsAs_upsertContinuation hlive hread), agrees_written ..⟩
      · exact refused_acts ..

/-- What is taken is what could be read, and it is gone. A row that cannot be
opened is gone too. -/
theorem takeContinuation_acts (outcome : Outcome) :
    ∃ seen, ActsAs aead cipher now houseId app seen Slots.clearContinuation temp
        (takeContinuation aead cipher outcome now temp houseId app).1 ∧
      Agrees seen (takeContinuation aead cipher outcome now temp houseId app).2 ∧
      ∀ taken, (takeContinuation aead cipher outcome now temp houseId app).2 = .ok taken →
        (slotsAt aead cipher now temp houseId app).continuation = taken := by
  unfold takeContinuation
  split
  next hnone =>
    have hslots : (slotsAt aead cipher now temp houseId app).continuation = none := by
      simp [slotsAt, hnone]
    have hsame : Slots.clearContinuation (slotsAt aead cipher now temp houseId app) =
        slotsAt aead cipher now temp houseId app := by
      simp [Slots.clearContinuation, ← hslots]
    refine ⟨outcome, .unchanged fun _ => hsame, ?_, ?_⟩
    · cases outcome <;> simp [Agrees]
    · intro taken htaken
      cases outcome with
      | ok =>
        rw [if_pos rfl] at htaken
        exact hslots.trans (Except.ok.inj htaken)
      | err applied => simp at htaken
  next row hrow =>
    cases outcome with
    | err applied =>
      refine ⟨.err applied, ?_, trivial, by simp⟩
      exact @ActsAs.written aead cipher temp now houseId app _ (.err applied) _
        actsAs_deleteContinuation
    | ok =>
      have hdelete := @actsAs_deleteContinuation aead cipher temp now houseId app
      cases hread : readContinuation aead cipher row.payload with
      | ok chunks =>
        refine ⟨.ok, hdelete, trivial, fun taken htaken => ?_⟩
        obtain rfl := Except.ok.inj htaken
        simp [slotsAt, hrow, hread, Except.toOption]
      | error e => exact ⟨.err true, hdelete, trivial, by simp [Except.map]⟩

/-- What is polled is what could be read. -/
theorem pollPending_reads {outcome : Outcome} {reply : PendingReply}
    (h : pollPending aead cipher outcome now temp houseId app = .ok reply) :
    (slotsAt aead cipher now temp houseId app).pending = reply := by
  cases outcome with
  | ok => simp [slotsAt, h, Except.toOption]
  | err applied => simp [pollPending] at h

end

end AliceBridge.Server.TemporaryState
