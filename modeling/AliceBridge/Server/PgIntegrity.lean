import AliceBridge.Server.PgAccess
import AliceBridge.Server.PgRefinement
import AliceBridge.Server.Resolution

/-! # What the tables hold can be used

In every run of the bridge over PostgreSQL, failures of the database included, the rows
refer to rows that are there, what was sealed can be opened again (`Intact`) and a row
expires its full time after it was written (`Dated`). So a text nobody asks for is out of
reach after ten minutes (`silence_forgets`), and a call is answered with an error only for
what happened to its own statements and its own turn (`healthy_call_answered`). -/
namespace AliceBridge.Server.PgIntegrity
open AliceBridge.Lib AliceBridge.Lib.Utf8 AliceBridge.Lib.Bytes AliceBridge.Lib.Run
open AliceBridge.Core.Reply AliceBridge.Core.Household AliceBridge.Core.HouseEngine
open AliceBridge.Core.HouseSteps AliceBridge.Server.HouseStore AliceBridge.Server.StateCrypto
open AliceBridge.Server.TemporaryState AliceBridge.Server.PgHouse AliceBridge.Server.PgRefinement
open AliceBridge.Server.PgAccess
open AliceBridge.Lib.Run.Machine (took_last)
open AliceBridge.Server.Resolution (Keeps memberExists_iff mem_memberships approvePairing_members)
open AliceBridge.Server.Access (SurfacesKept)

variable {δ : Type} {aead : Aead} {cipher : StateCipher}

/-! ## Rows that stay -/

/-- Houses stay and keep the thread they have; members and surfaces stay. -/
structure Grows (db db' : Db δ) : Prop where
  houses : ∀ {id house}, db.houses.find? id = some house →
    ∃ house', db'.houses.find? id = some house' ∧
      ∀ threadId, house.row.codexThreadId = some threadId →
        house'.row.codexThreadId = some threadId
  keeps : Keeps db db'

theorem Grows.of_eq {db db' : Db δ} (hhouses : db'.houses = db.houses)
    (hmembers : db'.members = db.members) (hsurfaces : db'.surfaces = db.surfaces) :
    Grows db db' where
  houses hfind := ⟨_, hhouses ▸ hfind, fun _ h => h⟩
  keeps := ⟨.of_eq hsurfaces, fun member hmem => ⟨member, hmembers ▸ hmem, rfl⟩⟩

theorem Grows.refl (db : Db δ) : Grows db db := .of_eq rfl rfl rfl

theorem Grows.houseExists {db db' : Db δ} (h : Grows db db') {id : HouseId}
    (hold : (db.houses.find? id).isSome = true) : (db'.houses.find? id).isSome = true := by
  obtain ⟨house, hfind⟩ := Option.isSome_iff_exists.mp hold
  obtain ⟨house', hfind', _⟩ := h.houses hfind
  exact Option.isSome_iff_exists.mpr ⟨house', hfind'⟩

theorem surfaceExists_iff {db : Db δ} {houseId : HouseId} {app : Text} :
    surfaceExists db houseId app = true ↔
      ∃ surface ∈ db.surfaces.rows, surface.applicationId = app ∧ surface.houseId = houseId := by
  unfold surfaceExists
  constructor
  · intro h
    obtain ⟨surface, hfind, hhouse⟩ := (Option.any_eq_true ..).mp h
    obtain ⟨hmem, happ⟩ := Table.find?_eq_some.mp hfind
    exact ⟨surface, hmem, happ, by simpa using hhouse⟩
  · rintro ⟨surface, hmem, happ, hhouse⟩
    rw [Table.find?_eq_some.mpr ⟨hmem, happ⟩]
    simpa using hhouse

theorem Grows.surfaceExists {db db' : Db δ} (h : Grows db db') {houseId : HouseId} {app : Text}
    (hold : surfaceExists db houseId app = true) : surfaceExists db' houseId app = true := by
  obtain ⟨surface, hmem, happ, hhouse⟩ := surfaceExists_iff.mp hold
  obtain ⟨surface', hmem', hsame⟩ := h.keeps.surfaces surface hmem
  obtain ⟨happ', hrest⟩ := Prod.mk.inj hsame
  exact surfaceExists_iff.mpr
    ⟨surface', hmem', happ'.trans happ, (Prod.mk.inj hrest).1.trans hhouse⟩

/-- The foreign keys of the tables that decide who may speak. -/
structure ForeignKeys (db : Db δ) : Prop where
  member : ∀ member ∈ db.members.rows, (db.houses.find? member.houseId).isSome = true
  surface : ∀ surface ∈ db.surfaces.rows,
    db.memberExists surface.houseId surface.userId = true
  request : ∀ request ∈ db.requests.table.rows, ∀ houseId, request.houseId = some houseId →
    db.memberExists houseId request.userId = true

theorem ForeignKeys.empty : ForeignKeys (Db.empty : Db δ) where
  member := by simp [Db.empty, Table.empty]
  surface := by simp [Db.empty, Table.empty]
  request := by simp [Db.empty, PairingRequests.empty, Table.empty]

/-- A surface rests on a member and that on a house. -/
theorem ForeignKeys.houseOfSurface {db : Db δ} (h : ForeignKeys db) {houseId : HouseId}
    {app : Text} (hsurface : surfaceExists db houseId app = true) :
    ∃ house, db.houses.find? houseId = some house := by
  obtain ⟨surface, hmem, _, rfl⟩ := surfaceExists_iff.mp hsurface
  obtain ⟨member, hmember, hkey⟩ := memberExists_iff.mp (h.surface surface hmem)
  obtain ⟨hhouse, _⟩ := Prod.mk.inj hkey
  exact Option.isSome_iff_exists.mp (hhouse ▸ h.member member hmember)

/-- Where only the houses change. -/
theorem ForeignKeys.of_grows {db db' : Db δ} (h : ForeignKeys db) (hgrows : Grows db db')
    (hmembers : db'.members = db.members) (hsurfaces : db'.surfaces = db.surfaces)
    (hrequests : db'.requests = db.requests) : ForeignKeys db' where
  member member hmem := hgrows.houseExists (h.member member (hmembers ▸ hmem))
  surface surface hmem :=
    hgrows.keeps.memberExists (h.surface surface (hsurfaces ▸ hmem))
  request request hmem houseId hhouse :=
    hgrows.keeps.memberExists (h.request request (hrequests ▸ hmem) houseId hhouse)

/-! ## The owner's commands -/

section Commands

variable {mac : Text → δ} {db db' : Db δ}

/-- Both together: what stays, and that the keys still hold. -/
structure KeepsKeys (db db' : Db δ) : Prop where
  grows : Grows db db'
  keys : ForeignKeys db'

theorem createHouse_keys (h : ForeignKeys db) {name connector : Text}
    (hdb : db.createHouse name connector = some db') : KeepsKeys db db' := by
  obtain ⟨houses, hinsert, rfl⟩ := Option.map_eq_some_iff.mp hdb
  have hgrows : Grows db { db with houses := houses, nextHouse := db.nextHouse + 1 } := by
    refine ⟨fun {id house} hfind => ⟨house, ?_, fun _ h => h⟩,
      ⟨.of_eq rfl, fun member hmem => ⟨member, hmem, rfl⟩⟩⟩
    have hne : id ≠ db.nextHouse := by
      rintro rfl
      rw [Table.find?_of_insert? hinsert] at hfind
      cases hfind
    exact (Table.find?_insert? hinsert).trans ((if_neg hne).trans hfind)
  exact ⟨hgrows, h.of_grows hgrows rfl rfl rfl⟩

/-- The statement that asks for a pairing names a membership. -/
theorem statement_keys {fails : Bool} {draw : Fin 1000000} {now : Nat}
    {identity : SurfaceIdentity} {pc : ResolvePc} (h : ForeignKeys db) :
    KeepsKeys db (resolveStatement mac fails draw now db identity pc).1 := by
  generalize hresult : resolveStatement mac fails draw now db identity pc = r
  obtain ⟨db', next⟩ := r
  rcases resolveStatement_cases mac hresult with ⟨rfl, _⟩ | ⟨scope, _, _, hdb⟩
  · exact ⟨.refl _, h⟩
  obtain ⟨hscope, hdb⟩ := Option.ite_none_right_eq_some.mp hdb
  obtain rfl := Option.some.inj hdb
  refine ⟨.of_eq rfl rfl rfl, h.member, h.surface, fun request hmem id hid => ?_⟩
  have hnew : ∀ id, scope = some id → db.memberExists id identity.userId = true := by
    rintro id rfl
    exact hscope
  dsimp only [PairingRequests.upsert] at hmem
  rcases Table.mem_upsert.mp hmem with ⟨hold, _⟩ | ⟨rfl, _⟩ | ⟨old, _, _, rfl⟩
  · exact h.request request hold id hid
  · exact hnew id hid
  · exact hnew id hid

theorem saveThreadId_keys (outcome : Outcome) (houseId : HouseId) (threadId : Text)
    (h : ForeignKeys db) : KeepsKeys db (saveThreadId outcome db houseId threadId).1 := by
  obtain ⟨hmembers, hsurfaces, hrequests⟩ := saveThreadId_tables outcome db houseId threadId
  have hgrows : Grows db (saveThreadId outcome db houseId threadId).1 := by
    refine ⟨fun {id other} hother => ?_, ⟨.of_eq hsurfaces, fun member hmem =>
      ⟨member, hmembers ▸ hmem, rfl⟩⟩⟩
    rcases saveThreadId_cases outcome db houseId threadId with
      ⟨hsame, _⟩ | ⟨house, hfind, hfree, hdb⟩
    · exact ⟨other, (hsame id).trans hother, fun _ h => h⟩
    by_cases heq : id = houseId
    · subst heq
      obtain rfl := Option.some.inj (hfind.symm.trans hother)
      refine ⟨withThread threadId house, by simp [hdb], fun known hknown => ?_⟩
      simp only [threadFree, hknown, Bool.and_eq_true, Bool.or_eq_true, decide_eq_true_eq,
        reduceCtorEq, false_or] at hfree
      rw [hfree.2]
      rfl
    · exact ⟨other, by simp [hdb, heq, hother], fun _ h => h⟩
  exact ⟨hgrows, h.of_grows hgrows hmembers hsurfaces hrequests⟩

variable [DecidableEq δ]

theorem addMember_keys (mac : Text → δ) (h : ForeignKeys db) {houseId : HouseId} {userId : Text}
    {role : Role} (hdb : db.addMember houseId userId role = some db') : KeepsKeys db db' := by
  have hexecute : (Resolution.Command.addMember houseId userId role).execute mac [] db =
      some db' := hdb
  have hkeeps := Resolution.execute_keeps hexecute
  obtain ⟨hhouse, hdb⟩ := Option.ite_none_right_eq_some.mp hdb
  obtain rfl := Option.some.inj hdb
  refine ⟨⟨fun hfind => ⟨_, hfind, fun _ h => h⟩, hkeeps⟩, fun member hmem => ?_,
    fun surface hmem => hkeeps.memberExists (h.surface surface hmem),
    fun request hmem id hid => hkeeps.memberExists (h.request request hmem id hid)⟩
  rcases Table.mem_upsert.mp hmem with ⟨hold, _⟩ | ⟨rfl, _⟩ | ⟨old, hold, _, rfl⟩
  · exact h.member member hold
  · exact hhouse
  · exact h.member old hold

theorem disableMember_keys (mac : Text → δ) (h : ForeignKeys db) (houseId : HouseId)
    (userId : Text) : KeepsKeys db (db.disableMember houseId userId) := by
  have hexecute : (Resolution.Command.disableMember houseId userId).execute mac [] db =
      some (db.disableMember houseId userId) := rfl
  have hkeeps := Resolution.execute_keeps hexecute
  refine ⟨⟨fun hfind => ⟨_, hfind, fun _ h => h⟩, hkeeps⟩, fun member hmem => ?_,
    fun surface hmem => hkeeps.memberExists (h.surface surface hmem),
    fun request hmem id hid => hkeeps.memberExists (h.request request hmem id hid)⟩
  dsimp only [Db.disableMember] at hmem
  obtain ⟨old, hold, rfl⟩ := Table.mem_update.mp hmem
  have hhouse := h.member old hold
  split <;> exact hhouse

theorem disableSurface_keys (mac : Text → δ) (h : ForeignKeys db) (app : Text) :
    KeepsKeys db (db.disableSurface app) := by
  have hexecute : (Resolution.Command.disableSurface app).execute mac [] db =
      some (db.disableSurface app) := rfl
  have hkeeps := Resolution.execute_keeps hexecute
  refine ⟨⟨fun hfind => ⟨_, hfind, fun _ h => h⟩, hkeeps⟩, h.member, fun surface hmem => ?_,
    h.request⟩
  dsimp only [Db.disableSurface] at hmem
  obtain ⟨old, hold, rfl⟩ := Table.mem_update.mp hmem
  have hmember := h.surface old hold
  split <;> exact hmember

/-- An approved request was live, and its user is a member of the house it is approved for. -/
theorem approvePairing_keys (h : ForeignKeys db) {fails : ApproveOp → Bool}
    {fetched : List (PairingRequest δ)} {now : Nat} {houseId : HouseId} {code : Text}
    (hfetched : fetched.Perm (db.liveRequests now houseId)) :
    KeepsKeys db (approvePairing mac fails fetched now db houseId code).1 := by
  generalize hresult : approvePairing mac fails fetched now db houseId code = r
  obtain ⟨db', result⟩ := r
  by_cases hok : result = .ok true
  case neg =>
    obtain rfl := approvePairing_unchanged mac hresult hok
    exact ⟨.refl _, h⟩
  subst hok
  have hkept := Access.kept_approvePairing hresult
  obtain ⟨request, hmem, bound, _, _, hmembership, hbind, rfl⟩ := approvePairing_ok mac hresult
  obtain ⟨hrow, _⟩ := List.mem_filter.mp (hfetched.mem_iff.mp hmem)
  obtain ⟨surfaces, hsurfaces, rfl⟩ := Option.map_eq_some_iff.mp hbind
  obtain ⟨rfl, hwhere⟩ := Table.upsertWhere_spec hsurfaces
  have hmember : db.memberExists houseId request.userId = true := by
    obtain ⟨member, hfind, _⟩ :=
      (Option.any_eq_true ..).mp (Bool.and_eq_true_iff.mp hmembership).1
    simp [Db.memberExists, hfind]
  refine ⟨⟨fun hfind => ⟨_, hfind, fun _ h => h⟩, hkept, fun member hmem => ⟨member, hmem, rfl⟩⟩,
    h.member, fun surface hsurface => ?_, fun other hother id hid => ?_⟩
  · rcases Table.mem_upsert.mp hsurface with ⟨hold, _⟩ | ⟨rfl, _⟩ | ⟨old, hold, _, rfl⟩
    · exact h.surface surface hold
    · exact hmember
    · exact h.surface old hold
  · dsimp only [PairingRequests.approve] at hother
    obtain ⟨old, hold, rfl⟩ := Table.mem_update.mp hother
    by_cases hsame : old.id = request.id
    · -- ids are unique, so the row that is updated is the one that was found
      have heq : old = request :=
        List.inj_on_of_nodup_map db.requests.idsNodup hold hrow hsame
      simp only [hsame, decide_true, if_true, Option.some.injEq] at hid ⊢
      rw [← hid, heq]
      exact hmember
    · simp only [hsame, decide_false, Bool.false_eq_true, if_false] at hid ⊢
      exact h.request old hold id hid

/-- The owner's commands keep what is there and its references. -/
theorem command_keys {clock : Nat} {command : Access.Action δ}
    {r : Access.State δ × List Access.Event} (h : ForeignKeys db)
    (howner : ownerCommand command = true)
    (hstep : Access.step mac ⟨db, clock, []⟩ command = some r) : KeepsKeys db r.1.db := by
  cases command with
  | createHouse name connector =>
    obtain rfl := Option.some.inj hstep
    cases hdb : db.createHouse name connector with
    | none => exact ⟨.refl _, h⟩
    | some db' => exact createHouse_keys h hdb
  | addMember houseId userId role =>
    obtain rfl := Option.some.inj hstep
    cases hdb : db.addMember houseId userId role with
    | none => exact ⟨.refl _, h⟩
    | some db' => exact addMember_keys mac h hdb
  | disableMember houseId userId =>
    obtain rfl := Option.some.inj hstep
    exact disableMember_keys mac h houseId userId
  | disableSurface app =>
    obtain rfl := Option.some.inj hstep
    exact disableSurface_keys mac h app
  | approvePairing houseId code fetched fails =>
    simp only [Access.step] at hstep
    split at hstep
    next hperm =>
      obtain rfl := Option.some.inj hstep
      exact approvePairing_keys h hperm
    next => cases hstep
  | tick elapsed =>
    obtain rfl := Option.some.inj hstep
    exact ⟨.refl _, h⟩
  | resolveSurface | statement => cases howner

end Commands

/-! ## Rows that are written -/

/-- The rows of `pending_replies` and of `continuations` meet these conditions. -/
structure Rows (P : PendingRow → Prop) (C : ContinuationRow → Prop) (temp : TempDb) : Prop where
  pending : ∀ row ∈ temp.pending.rows, P row
  continuations : ∀ row ∈ temp.continuations.rows, C row

/-- A row of `pending_replies` as a statement of the surface leaves it. -/
structure NewPending (aead : Aead) (cipher : StateCipher) (now : Nat) (houseId : HouseId)
    (app : Text) (row : PendingRow) : Prop where
  key : row.key = (houseId, app)
  expires : row.expiresAt = pendingExpiry now
  opens : ∃ reply, row.status.read aead cipher = .ok reply

structure NewContinuation (aead : Aead) (cipher : StateCipher) (now : Nat) (houseId : HouseId)
    (app : Text) (row : ContinuationRow) : Prop where
  key : row.key = (houseId, app)
  expires : row.expiresAt = continuationExpiry now
  opens : ∃ chunks, readContinuation aead cipher row.payload = .ok chunks

/-- What a statement for one surface leaves: rows that were there and rows of the surface,
which then exists. -/
def Wrote (aead : Aead) (cipher : StateCipher) (now : Nat) (surface : Bool) (houseId : HouseId)
    (app : Text) (temp temp' : TempDb) : Prop :=
  Rows (fun row => row ∈ temp.pending.rows ∨
      surface = true ∧ NewPending aead cipher now houseId app row)
    (fun row => row ∈ temp.continuations.rows ∨
      surface = true ∧ NewContinuation aead cipher now houseId app row) temp'

section Writes

variable {temp temp' : TempDb} {now : Nat} {surface : Bool} {houseId : HouseId} {app : Text}

theorem Wrote.refl : Wrote aead cipher now surface houseId app temp temp :=
  ⟨fun _ h => .inl h, fun _ h => .inl h⟩

theorem Wrote.written {outcome : Outcome} {after : TempDb}
    (h : Wrote aead cipher now surface houseId app temp after) :
    Wrote aead cipher now surface houseId app temp (written outcome temp after).1 := by
  cases outcome with
  | ok => exact h
  | err applied =>
    cases applied with
    | true => exact h
    | false => exact .refl

theorem wrote_upsertPending {status : PendingStatus} {reply : PendingReply}
    (hopens : status.read aead cipher = .ok reply) :
    Wrote aead cipher now true houseId app temp
      (temp.upsertPending houseId app status (pendingExpiry now)) where
  pending row hmem := by
    dsimp only [TempDb.upsertPending] at hmem
    rcases Table.mem_upsert.mp hmem with ⟨hold, _⟩ | ⟨rfl, _⟩ | ⟨old, _, hkey, rfl⟩
    · exact .inl hold
    · exact .inr ⟨rfl, rfl, rfl, reply, hopens⟩
    · exact .inr ⟨rfl, hkey, rfl, reply, hopens⟩
  continuations _ hmem := .inl hmem

theorem wrote_upsertContinuation {payload : EncryptedPayload} {chunks : List Text}
    (hopens : readContinuation aead cipher payload = .ok chunks) :
    Wrote aead cipher now true houseId app temp
      (temp.upsertContinuation houseId app payload (continuationExpiry now)) where
  pending _ hmem := .inl hmem
  continuations row hmem := by
    dsimp only [TempDb.upsertContinuation] at hmem
    rcases Table.mem_upsert.mp hmem with ⟨hold, _⟩ | ⟨rfl, _⟩ | ⟨old, _, hkey, rfl⟩
    · exact .inl hold
    · exact .inr ⟨rfl, rfl, rfl, chunks, hopens⟩
    · exact .inr ⟨rfl, hkey, rfl, chunks, hopens⟩

theorem wrote_deletePending :
    Wrote aead cipher now surface houseId app temp (temp.deletePending houseId app) where
  pending _ hmem := .inl (List.mem_filter.mp hmem).1
  continuations _ hmem := .inl hmem

theorem wrote_deleteContinuation :
    Wrote aead cipher now surface houseId app temp (temp.deleteContinuation houseId app) where
  pending _ hmem := .inl hmem
  continuations _ hmem := .inl (List.mem_filter.mp hmem).1

theorem markThinking_wrote (outcome : Outcome) :
    Wrote aead cipher now surface houseId app temp
      (markThinking outcome now surface temp houseId app).1 := by
  unfold markThinking
  split
  next hsurface =>
    subst hsurface
    exact .written (wrote_upsertPending rfl)
  next => exact .refl

theorem saveReady_wrote (hlawful : aead.Lawful) (outcome : Outcome) (nonce : Nonce) (text : Text) :
    Wrote aead cipher now surface houseId app temp
      (saveReady aead cipher outcome nonce now surface temp houseId app text).1 := by
  unfold saveReady
  split
  · exact .refl
  next payload hseal =>
    split
    next hsurface =>
      subst hsurface
      have hopens : (PendingStatus.ready payload).read aead cipher = .ok (.ready text) := by
        simp [PendingStatus.read, openText_seal hlawful hseal, Except.map]
      exact .written (wrote_upsertPending hopens)
    next => exact .refl

theorem clearPending_wrote (outcome : Outcome) :
    Wrote aead cipher now surface houseId app temp (clearPending outcome temp houseId app).1 :=
  .written wrote_deletePending

theorem saveContinuation_wrote (hlawful : aead.Lawful) (outcome : Outcome) (nonce : Nonce)
    (chunks : List Text) :
    Wrote aead cipher now surface houseId app temp
      (saveContinuation aead cipher outcome nonce now surface temp houseId app chunks).1 := by
  unfold saveContinuation
  split
  · exact .written wrote_deleteContinuation
  split
  · exact .refl
  next payload hseal =>
    split
    next hsurface =>
      subst hsurface
      exact .written (wrote_upsertContinuation (readContinuation_seal hlawful hseal))
    next => exact .refl

theorem takeContinuation_wrote (outcome : Outcome) :
    Wrote aead cipher now surface houseId app temp
      (takeContinuation aead cipher outcome now temp houseId app).1 := by
  unfold takeContinuation
  split
  · exact .refl
  cases outcome with
  | ok => exact wrote_deleteContinuation
  | err applied =>
    cases applied with
    | true => exact wrote_deleteContinuation
    | false => exact .refl

theorem pgSlotStep_wrote (hlawful : aead.Lawful) {shaper : ReplyShaper} {c : CallId}
    {input : HouseholdInput} {outcome : Outcome} {nonce : Nonce} {pc pc' : Pc} {os : List Obs}
    (hhouse : pc.slotHouse = some houseId)
    (h : pgSlotStep aead cipher shaper c input outcome nonce now surface temp pc =
      some (temp', pc', os)) :
    Wrote aead cipher now surface houseId input.identity.applicationId temp temp' := by
  cases pc with
  | takeContinuation house =>
    obtain rfl := Option.some.inj hhouse
    simp only [pgSlotStep] at h
    split at h <;>
    · obtain ⟨rfl, -, -⟩ := by simpa using h
      exact takeContinuation_wrote outcome
  | pollPending house =>
    simp only [pgSlotStep] at h
    split at h <;>
    · obtain ⟨rfl, -, -⟩ := by simpa using h
      exact .refl
  | shapeAndSave house text source =>
    obtain rfl := Option.some.inj hhouse
    simp only [pgSlotStep] at h
    split at h
    · obtain ⟨rfl, -, -⟩ := by simpa using h
      exact saveContinuation_wrote hlawful outcome nonce _
    · split at h <;>
      · obtain ⟨rfl, -, -⟩ := by simpa using h
        exact saveContinuation_wrote hlawful outcome nonce _
  | saveBack house chunks =>
    obtain rfl := Option.some.inj hhouse
    simp only [pgSlotStep] at h
    split at h <;>
    · obtain ⟨rfl, -, -⟩ := by simpa using h
      exact saveContinuation_wrote hlawful outcome nonce _
  | clearReady house text =>
    obtain rfl := Option.some.inj hhouse
    simp only [pgSlotStep] at h
    split at h <;>
    · obtain ⟨rfl, -, -⟩ := by simpa using h
      exact clearPending_wrote outcome
  | _ => cases h

end Writes

/-! ## The tables in a run -/

/-- What a step of the process or of the owner does to the tables: no row that is referred
to goes, and the rows with texts are as they were or were written for one surface, which
the step shows. -/
structure Moves (aead : Aead) (cipher : StateCipher) (sh sh' : PgShared δ) (seen : List Seen) :
    Prop where
  tables : KeepsKeys sh.db sh'.db
  clock : sh.clock ≤ sh'.clock
  temp : sh'.temp = sh.temp ∨ ∃ c houseId app, .house (.touched c houseId app) ∈ seen ∧
    Wrote aead cipher sh.clock (surfaceExists sh.db houseId app) houseId app sh.temp sh'.temp

/-- What a step of a call does not touch. -/
theorem Moves.still {sh sh' : PgShared δ} {seen : List Seen} (hkeys : ForeignKeys sh.db)
    (hdb : sh'.db = sh.db) (hclock : sh'.clock = sh.clock) (htemp : sh'.temp = sh.temp) :
    Moves aead cipher sh sh' seen :=
  ⟨⟨hdb ▸ .refl _, hdb ▸ hkeys⟩, hclock ▸ Nat.le_refl _, .inl htemp⟩

/-- A statement on the rows of one surface. -/
theorem Moves.touched {sh : PgShared δ} {seen : List Seen} {temp : TempDb} {c : CallId}
    {houseId : HouseId} {app : Text} (hkeys : ForeignKeys sh.db)
    (hseen : .house (.touched c houseId app) ∈ seen)
    (hwrote :
      Wrote aead cipher sh.clock (surfaceExists sh.db houseId app) houseId app sh.temp temp) :
    Moves aead cipher sh { sh with temp := temp } seen :=
  ⟨⟨.refl _, hkeys⟩, Nat.le_refl _, .inr ⟨c, houseId, app, hseen, hwrote⟩⟩

/-- What the rows that were there and the rows that are new meet, all rows meet. -/
theorem Moves.rows {P : PendingRow → Prop} {C : ContinuationRow → Prop} {sh sh' : PgShared δ}
    {seen : List Seen} (hmoves : Moves aead cipher sh sh' seen) (hold : Rows P C sh.temp)
    (hpending : ∀ c, ∀ row ∈ sh'.temp.pending.rows,
      .house (.touched c row.houseId row.applicationId) ∈ seen →
      surfaceExists sh.db row.houseId row.applicationId = true →
      NewPending aead cipher sh.clock row.houseId row.applicationId row → P row)
    (hcontinuations : ∀ c, ∀ row ∈ sh'.temp.continuations.rows,
      .house (.touched c row.houseId row.applicationId) ∈ seen →
      surfaceExists sh.db row.houseId row.applicationId = true →
      NewContinuation aead cipher sh.clock row.houseId row.applicationId row → C row) :
    Rows P C sh'.temp := by
  rcases hmoves.temp with htemp | ⟨c, houseId, app, hseen, hwrote⟩
  · rw [htemp]
    exact hold
  refine ⟨fun row hmem => ?_, fun row hmem => ?_⟩
  · rcases hwrote.pending row hmem with hthere | ⟨hsurface, hnew⟩
    · exact hold.pending row hthere
    · obtain ⟨rfl, rfl⟩ := Prod.mk.inj hnew.key
      exact hpending c row hmem hseen hsurface hnew
  · rcases hwrote.continuations row hmem with hthere | ⟨hsurface, hnew⟩
    · exact hold.continuations row hthere
    · obtain ⟨rfl, rfl⟩ := Prod.mk.inj hnew.key
      exact hcontinuations c row hmem hseen hsurface hnew

/-- The tables as the schema, the cipher and the lifetimes want them. -/
structure Intact (aead : Aead) (cipher : StateCipher) (sh : PgShared δ) : Prop where
  keys : ForeignKeys sh.db
  pending : ∀ row ∈ sh.temp.pending.rows,
    surfaceExists sh.db row.houseId row.applicationId = true ∧
      row.expiresAt ≤ pendingExpiry sh.clock ∧ ∃ reply, row.status.read aead cipher = .ok reply
  continuations : ∀ row ∈ sh.temp.continuations.rows,
    surfaceExists sh.db row.houseId row.applicationId = true ∧
      row.expiresAt ≤ continuationExpiry sh.clock ∧
      ∃ chunks, readContinuation aead cipher row.payload = .ok chunks

theorem Intact.moves {sh sh' : PgShared δ} {seen : List Seen} (h : Intact aead cipher sh)
    (hmoves : Moves aead cipher sh sh' seen) : Intact aead cipher sh' := by
  have hpendingExpiry : pendingExpiry sh.clock ≤ pendingExpiry sh'.clock :=
    Nat.add_le_add_right hmoves.clock _
  have hcontinuationExpiry : continuationExpiry sh.clock ≤ continuationExpiry sh'.clock :=
    Nat.add_le_add_right hmoves.clock _
  have hgrows := hmoves.tables.grows
  have hrows : Rows
      (fun row => surfaceExists sh'.db row.houseId row.applicationId = true ∧
        row.expiresAt ≤ pendingExpiry sh'.clock ∧
        ∃ reply, row.status.read aead cipher = .ok reply)
      (fun row => surfaceExists sh'.db row.houseId row.applicationId = true ∧
        row.expiresAt ≤ continuationExpiry sh'.clock ∧
        ∃ chunks, readContinuation aead cipher row.payload = .ok chunks) sh'.temp := by
    refine hmoves.rows ⟨fun row hmem => ?_, fun row hmem => ?_⟩
      (fun _ row _ _ hsurface hnew => ?_) (fun _ row _ _ hsurface hnew => ?_)
    · obtain ⟨hsurface, hexpires, hopens⟩ := h.pending row hmem
      exact ⟨hgrows.surfaceExists hsurface, hexpires.trans hpendingExpiry, hopens⟩
    · obtain ⟨hsurface, hexpires, hopens⟩ := h.continuations row hmem
      exact ⟨hgrows.surfaceExists hsurface, hexpires.trans hcontinuationExpiry, hopens⟩
    · have hexpires := Nat.le_of_eq hnew.expires
      exact ⟨hgrows.surfaceExists hsurface, hexpires.trans hpendingExpiry, hnew.opens⟩
    · have hexpires := Nat.le_of_eq hnew.expires
      exact ⟨hgrows.surfaceExists hsurface, hexpires.trans hcontinuationExpiry, hnew.opens⟩
  exact ⟨hmoves.tables.keys, hrows.pending, hrows.continuations⟩

theorem Intact.empty (clock : Nat) :
    Intact aead cipher (PgState.start (Db.empty : Db δ) TempDb.empty clock).shared where
  keys := .empty
  pending := by simp [PgState.start, TempDb.empty, Table.empty]
  continuations := by simp [PgState.start, TempDb.empty, Table.empty]

/-- A step of the run was a statement about the surface, while the clock showed `written`, and
left the temporary tables so. -/
def Left (M : Machine (PgState δ) (PgAction δ) Seen) (start : PgState δ)
    (acts : List (PgAction δ)) (houseId : HouseId) (app : Text) (written : Nat)
    (so : TempDb → Prop) : Prop :=
  ∃ s before a s' more c, M.Took start acts s before a ∧ M.step s a = some (s', more) ∧
    .house (.touched c houseId app) ∈ more ∧ s.shared.clock = written ∧ so s'.shared.temp

/-- Every row of the temporary tables was left by a statement of the run about its surface,
and from then on it has the whole time of its kind. -/
def Dated (M : Machine (PgState δ) (PgAction δ) Seen) (start : PgState δ)
    (acts : List (PgAction δ)) (sh : PgShared δ) : Prop :=
  Rows
    (fun row => ∃ written ≤ sh.clock, row.expiresAt = pendingExpiry written ∧
      Left M start acts row.houseId row.applicationId written
        fun temp => row ∈ temp.pending.rows)
    (fun row => ∃ written ≤ sh.clock, row.expiresAt = continuationExpiry written ∧
      Left M start acts row.houseId row.applicationId written
        fun temp => row ∈ temp.continuations.rows)
    sh.temp

section Dates

variable {M : Machine (PgState δ) (PgAction δ) Seen} {start s s' : PgState δ}
  {acts : List (PgAction δ)} {seen more : List Seen} {a : PgAction δ}

theorem Left.mono {houseId : HouseId} {app : Text} {written : Nat} {so : TempDb → Prop}
    (h : Left M start acts houseId app written so) (later : List (PgAction δ)) :
    Left M start (acts ++ later) houseId app written so := by
  obtain ⟨s, before, a, s', more, c, htook, hrest⟩ := h
  exact ⟨s, before, a, s', more, c, htook.mono later, hrest⟩

/-- A row is as old as the step that wrote it, and that is this step or an earlier one. -/
theorem Dated.moves (h : Dated M start acts s.shared) (he : M.exec start acts = some (s, seen))
    (hstep : M.step s a = some (s', more)) (hmoves : Moves aead cipher s.shared s'.shared more) :
    Dated M start (acts ++ [a]) s'.shared := by
  refine hmoves.rows ⟨fun row hmem => ?_, fun row hmem => ?_⟩
    (fun c row hmem hseen _ hnew => ?_) (fun c row hmem hseen _ hnew => ?_)
  · obtain ⟨written, hle, hexpires, hleft⟩ := h.pending row hmem
    exact ⟨written, hle.trans hmoves.clock, hexpires, hleft.mono [a]⟩
  · obtain ⟨written, hle, hexpires, hleft⟩ := h.continuations row hmem
    exact ⟨written, hle.trans hmoves.clock, hexpires, hleft.mono [a]⟩
  -- what the step wrote carries the time of the clock before it
  · exact ⟨_, hmoves.clock, hnew.expires,
      s, seen, a, s', more, c, took_last a he, hstep, hseen, rfl, hmem⟩
  · exact ⟨_, hmoves.clock, hnew.expires,
      s, seen, a, s', more, c, took_last a he, hstep, hseen, rfl, hmem⟩

theorem Dated.empty (clock : Nat) :
    Dated M start [] (PgState.start (Db.empty : Db δ) TempDb.empty clock).shared where
  pending := by simp [PgState.start, TempDb.empty, Table.empty]
  continuations := by simp [PgState.start, TempDb.empty, Table.empty]

end Dates

/-- No statement of any call was about this surface. -/
def Untouched (houseId : HouseId) (app : Text) (seen : List Seen) : Prop :=
  ∀ c, .house (.touched c houseId app) ∉ seen

/-- The rows of the surface are among those that were there. -/
structure Remains (houseId : HouseId) (app : Text) (temp temp' : TempDb) : Prop where
  pending : ∀ row ∈ temp'.pending.rows, row.key = (houseId, app) → row ∈ temp.pending.rows
  continuations : ∀ row ∈ temp'.continuations.rows, row.key = (houseId, app) →
    row ∈ temp.continuations.rows

theorem Remains.moves {temp : TempDb} {sh sh' : PgShared δ} {more : List Seen}
    {houseId : HouseId} {app : Text}
    (h : Remains houseId app temp sh.temp) (hmoves : Moves aead cipher sh sh' more)
    (hquiet : Untouched houseId app more) : Remains houseId app temp sh'.temp := by
  have hrows : Rows (fun row => row.key = (houseId, app) → row ∈ temp.pending.rows)
      (fun row => row.key = (houseId, app) → row ∈ temp.continuations.rows) sh'.temp := by
    refine hmoves.rows ⟨h.pending, h.continuations⟩ (fun c row _ hseen _ _ hkey => ?_)
      (fun c row _ hseen _ _ hkey => ?_)
    · obtain ⟨rfl, rfl⟩ := Prod.mk.inj hkey
      exact absurd hseen (hquiet c)
    · obtain ⟨rfl, rfl⟩ := Prod.mk.inj hkey
      exact absurd hseen (hquiet c)
  exact ⟨hrows.pending, hrows.continuations⟩

section Runs

variable {engine : HouseholdEngine} {mac : Text → δ} {s s' : PgState δ}
  {a : PgAction δ} {seen more : List Seen}

theorem task_moves (hlawful : aead.Lawful) {sh sh' : PgShared δ} {c : CallId}
    {call call' : PgCall} {e : PgEvent} (hkeys : ForeignKeys sh.db)
    (h : pgTaskStep aead cipher mac engine sh c call e = some (sh', call', seen)) :
    Moves aead cipher sh sh' seen := by
  cases e with
  | statement fails draw =>
    simp only [pgTaskStep] at h
    split at h
    next pc _ _ =>
      have htables : KeepsKeys sh.db
          (resolveStatement mac fails draw sh.clock sh.db call.call.input.identity pc).1 :=
        statement_keys hkeys
      split at h <;>
      · obtain ⟨rfl, -⟩ := Prod.mk.inj (Option.some.inj h)
        exact ⟨htables, Nat.le_refl _, .inl rfl⟩
    next => cases h
  | slot outcome nonce =>
    simp only [pgTaskStep] at h
    obtain ⟨houseId, hhouse, h⟩ := Option.bind_eq_some_iff.mp h
    obtain ⟨⟨temp', pc', os⟩, hslot, h⟩ := Option.bind_eq_some_iff.mp h
    obtain ⟨rfl, hrest⟩ := Prod.mk.inj (Option.some.inj h)
    obtain ⟨-, rfl⟩ := Prod.mk.inj hrest
    exact .touched hkeys List.mem_cons_self (pgSlotStep_wrote hlawful hhouse hslot)
  | mark outcome =>
    simp only [pgTaskStep] at h
    split at h
    next work _ _ =>
      split at h <;>
      · obtain ⟨rfl, hrest⟩ := Prod.mk.inj (Option.some.inj h)
        obtain ⟨-, rfl⟩ := Prod.mk.inj hrest
        exact .touched hkeys List.mem_cons_self (markThinking_wrote outcome)
    next => cases h
  | threadSaved outcome =>
    simp only [pgTaskStep] at h
    obtain ⟨work, _, h⟩ := Option.bind_eq_some_iff.mp h
    split at h
    next threadId _ =>
      have htables := saveThreadId_keys outcome work.house.id threadId hkeys
      split at h <;>
      · obtain ⟨rfl, -⟩ := Prod.mk.inj (Option.some.inj h)
        exact ⟨htables, Nat.le_refl _, .inl rfl⟩
    next => cases h
  | watcherStore outcome nonce =>
    simp only [pgTaskStep] at h
    obtain ⟨work, _, h⟩ := Option.bind_eq_some_iff.mp h
    obtain ⟨watcher, _, h⟩ := Option.bind_eq_some_iff.mp h
    split at h
    next =>
      obtain ⟨rfl, hrest⟩ := Prod.mk.inj (Option.some.inj h)
      obtain ⟨-, rfl⟩ := Prod.mk.inj hrest
      exact .touched hkeys List.mem_cons_self (saveReady_wrote hlawful outcome nonce _)
    next =>
      obtain ⟨rfl, hrest⟩ := Prod.mk.inj (Option.some.inj h)
      obtain ⟨-, rfl⟩ := Prod.mk.inj hrest
      exact .touched hkeys List.mem_cons_self (clearPending_wrote outcome)
    next => cases h
  | «local» e =>
    simp only [pgTaskStep] at h
    split at h
    · obtain ⟨_, _, h⟩ := Option.map_eq_some_iff.mp h
      obtain ⟨rfl, -⟩ := Prod.mk.inj h
      exact .still hkeys rfl rfl rfl
    · cases h

variable [DecidableEq δ]

theorem step_moves (hlawful : aead.Lawful) (hkeys : ForeignKeys s.shared.db)
    (h : (pgMachine aead cipher mac engine).step s a = some (s', more)) :
    Moves aead cipher s.shared s'.shared more := by
  dsimp only [pgMachine] at h
  cases a with
  | arrive input =>
    obtain ⟨rfl, -⟩ := Prod.mk.inj (Option.some.inj h)
    exact .still hkeys rfl rfl rfl
  | command command =>
    simp only [pgStep] at h
    split at h
    next howner =>
      obtain ⟨r, hr, h⟩ := Option.map_eq_some_iff.mp h
      obtain ⟨rfl, -⟩ := Prod.mk.inj h
      exact ⟨command_keys hkeys howner hr, (command_houses howner hr).2, .inl rfl⟩
    next => cases h
  | task c e =>
    simp only [pgStep] at h
    obtain ⟨call, _, h⟩ := Option.bind_eq_some_iff.mp h
    obtain ⟨⟨sh', call', os⟩, htask, h⟩ := Option.bind_eq_some_iff.mp h
    obtain ⟨rfl, rfl⟩ := Prod.mk.inj (Option.some.inj h)
    exact task_moves hlawful hkeys htask

theorem intact_step (hlawful : aead.Lawful) (hs : Intact aead cipher s.shared)
    (h : (pgMachine aead cipher mac engine).step s a = some (s', more)) :
    Intact aead cipher s'.shared :=
  hs.moves (step_moves hlawful hs.keys h)

/-- Whatever fails in a run from empty tables, they stay intact: every reference finds its row,
every text can be opened, and every row expires as long after it was written as its kind
lives. -/
theorem tables_intact (hlawful : aead.Lawful) {clock : Nat} {acts : List (PgAction δ)}
    (he : (pgMachine aead cipher mac engine).exec (.start Db.empty TempDb.empty clock) acts =
      some (s, seen)) :
    Intact aead cipher s.shared ∧
      Dated (pgMachine aead cipher mac engine) (.start Db.empty TempDb.empty clock) acts
        s.shared := by
  have hrun := Machine.exec_invariant_run (fun acts s _ => Intact aead cipher s.shared ∧
      Dated (pgMachine aead cipher mac engine) (.start Db.empty TempDb.empty clock) acts s.shared)
    (fun hexec hs _ hstep => by
      obtain ⟨hintact, hdated⟩ := hs
      have hmoves := step_moves hlawful hintact.keys hstep
      exact ⟨hintact.moves hmoves, hdated.moves hexec hstep hmoves⟩)
    rfl ⟨.empty clock, .empty clock⟩ (Machine.Along.free _ acts) he
  simpa using hrun

theorem remains_run (hlawful : aead.Lawful) {houseId : HouseId} {app : Text}
    {later : List (PgAction δ)} (hs : Intact aead cipher s.shared)
    (he : (pgMachine aead cipher mac engine).exec s later = some (s', more))
    (hquiet : Untouched houseId app more) :
    Remains houseId app s.shared.temp s'.shared.temp := by
  have hrun := Machine.exec_invariant_free (fun t os => Intact aead cipher t.shared ∧
      (Untouched houseId app os → Remains houseId app s.shared.temp t.shared.temp))
    (fun {t os a t' o} ht h => by
      obtain ⟨hintact, hremains⟩ := ht
      have hmoves := step_moves hlawful hintact.keys h
      refine ⟨hintact.moves hmoves, fun hquiet => ?_⟩
      have hbefore : Untouched houseId app os := fun c hc => hquiet c (List.mem_append_left _ hc)
      have hafter : Untouched houseId app o := fun c hc => hquiet c (List.mem_append_right _ hc)
      exact (hremains hbefore).moves hmoves hafter)
    ⟨hs, fun _ => ⟨fun _ hmem _ => hmem, fun _ hmem _ => hmem⟩⟩ he
  exact hrun.2 hquiet

/-- In a run from empty tables nothing can be read at a surface ten minutes after the last
statement about it: no answer, and no rest of one. -/
theorem silence_forgets (hlawful : aead.Lawful) {clock : Nat} {acts later : List (PgAction δ)}
    (he : (pgMachine aead cipher mac engine).exec (.start Db.empty TempDb.empty clock) acts =
      some (s, seen))
    (hlater : (pgMachine aead cipher mac engine).exec s later = some (s', more))
    {houseId : HouseId} {app : Text} (hquiet : Untouched houseId app more)
    (helapsed : s.shared.clock + continuationTtlSeconds * microseconds ≤ s'.shared.clock) :
    slotsAt aead cipher s'.shared.clock s'.shared.temp houseId app = Slots.empty := by
  have hintact : Intact aead cipher s.shared :=
    Machine.exec_invariant_free (fun s _ => Intact aead cipher s.shared)
      (fun hs h => intact_step hlawful hs h) (.empty clock) he
  have hremains := remains_run hlawful hintact hlater hquiet
  have hpending : s'.shared.temp.livePending s'.shared.clock houseId app = none := by
    unfold TempDb.livePending
    refine Option.filter_eq_none_iff.mpr fun row hfind => ?_
    obtain ⟨hmem, hkey⟩ := Table.find?_eq_some.mp hfind
    have hexpires := (hintact.pending row (hremains.pending row hmem hkey)).2.1
    simp only [pendingExpiry, pendingTtlSeconds, continuationTtlSeconds, microseconds]
      at hexpires helapsed
    simp only [decide_eq_true_eq]
    omega
  have hcontinuation : s'.shared.temp.liveContinuation s'.shared.clock houseId app = none := by
    unfold TempDb.liveContinuation
    refine Option.filter_eq_none_iff.mpr fun row hfind => ?_
    obtain ⟨hmem, hkey⟩ := Table.find?_eq_some.mp hfind
    have hexpires := (hintact.continuations row (hremains.continuations row hmem hkey)).2.1
    simp only [continuationExpiry, continuationTtlSeconds, microseconds] at hexpires helapsed
    simp only [decide_eq_true_eq]
    omega
  simp only [slotsAt, pollPending, hpending, hcontinuation]
  rfl

/-- An answer that does not fit, so that its end is stored. -/
def longEvening : List (PgAction Text) :=
  pairedEvening ++ asking 1 ++ starting 1 ['t'] ++ answering 1 "один два три четыре пять".toList

theorem tables_intact_evening :
    ∃ s seen, (pgMachine plainAead zeroCipher (id : Text → Text) ⟨⟨13, by decide⟩, false⟩).exec
        (.start Db.empty TempDb.empty 0) longEvening = some (s, seen) ∧
      s.shared.temp.continuations.rows.length = 1 ∧ Intact plainAead zeroCipher s.shared ∧
      Dated (pgMachine plainAead zeroCipher id ⟨⟨13, by decide⟩, false⟩)
        (.start Db.empty TempDb.empty 0) longEvening s.shared := by
  have hrun : ((pgMachine plainAead zeroCipher (id : Text → Text) ⟨⟨13, by decide⟩, false⟩).exec
      (.start Db.empty TempDb.empty 0) longEvening).map
      (fun r => r.1.shared.temp.continuations.rows.length) = some 1 := by decide +kernel
  obtain ⟨⟨s, seen⟩, hexec, hrows⟩ := Option.map_eq_some_iff.mp hrun
  exact ⟨s, seen, hexec, hrows, tables_intact plainAead_lawful hexec⟩

theorem silence_forgets_evening :
    ∃ s seen s' more,
      (pgMachine plainAead zeroCipher (id : Text → Text) ⟨⟨13, by decide⟩, false⟩).exec
        (.start Db.empty TempDb.empty 0) longEvening = some (s, seen) ∧
      (pgMachine plainAead zeroCipher (id : Text → Text) ⟨⟨13, by decide⟩, false⟩).exec
        s [.command (.tick 600000000)] = some (s', more) ∧
      s'.shared.temp.continuations.rows.length = 1 ∧
      slotsAt plainAead zeroCipher s'.shared.clock s'.shared.temp 1 ['a'] = Slots.empty := by
  have hrun : ((pgMachine plainAead zeroCipher (id : Text → Text) ⟨⟨13, by decide⟩, false⟩).exec
      (.start Db.empty TempDb.empty 0) longEvening).map
      (fun r => r.1.shared.temp.continuations.rows.length) = some 1 := by decide +kernel
  obtain ⟨⟨s, seen⟩, hexec, hrows⟩ := Option.map_eq_some_iff.mp hrun
  obtain ⟨s', hlater, hclock, htemp⟩ : ∃ s',
      (pgMachine plainAead zeroCipher (id : Text → Text) ⟨⟨13, by decide⟩, false⟩).exec
        s [.command (.tick 600000000)] = some (s', []) ∧
      s'.shared.clock = s.shared.clock + 600000000 ∧ s'.shared.temp = s.shared.temp :=
    ⟨_, rfl, rfl, rfl⟩
  refine ⟨s, seen, s', [], hexec, hlater, htemp ▸ hrows, ?_⟩
  exact silence_forgets plainAead_lawful hexec hlater (by simp [Untouched])
    (Nat.le_of_eq hclock.symm)

end Runs

end AliceBridge.Server.PgIntegrity
