import AliceBridge.Lib.Simulation
import AliceBridge.Server.PgHouse

/-! # The bridge over PostgreSQL is the engine over its store

Every run of the engine on the sealed and expiring rows is a run of `HouseEngine`
with the same observations: a statement acts on what can be read as the operation of
`Slots` does, a row past its time is an entry that an expiry step has removed, and
the owner's commands are not seen, except that a house created later was there from
the start. -/
namespace AliceBridge.Server.PgRefinement
open AliceBridge.Lib AliceBridge.Lib.Utf8 AliceBridge.Lib.Run AliceBridge.Core.Reply
open AliceBridge.Core.Household AliceBridge.Core.HouseEngine AliceBridge.Server.HouseStore
open AliceBridge.Server.StateCrypto AliceBridge.Server.TemporaryState AliceBridge.Server.PgHouse

variable {δ : Type} {aead : Aead} {cipher : StateCipher}

/-! ## Entries that expire -/

/-- The entries of a surface after some time: each is as it was or gone. -/
structure Stale (old new : Slots) : Prop where
  pending : new.pending = old.pending ∨ new.pending = .none
  continuation : new.continuation = old.continuation ∨ new.continuation = none

theorem Stale.refl (slots : Slots) : Stale slots slots := ⟨.inl rfl, .inl rfl⟩

theorem Stale.trans {a b c : Slots} (hab : Stale a b) (hbc : Stale b c) : Stale a c := by
  constructor
  · rcases hbc.pending with h | h
    · rw [h]
      exact hab.pending
    · exact .inr h
  · rcases hbc.continuation with h | h
    · rw [h]
      exact hab.continuation
    · exact .inr h

/-- Time only takes entries away. -/
theorem stale_later {now later : Nat} (h : now ≤ later) (temp : TempDb) (houseId : HouseId)
    (app : Text) :
    Stale (slotsAt aead cipher now temp houseId app)
      (slotsAt aead cipher later temp houseId app) := by
  constructor
  · unfold slotsAt pollPending TempDb.livePending
    cases hfind : temp.pending.find? (houseId, app) with
    | none => exact .inl rfl
    | some row =>
      by_cases hlive : later < row.expiresAt
      · have hnow : now < row.expiresAt := by omega
        simp [Option.filter, hlive, hnow]
      · simp [Option.filter, hlive, Except.toOption]
  · unfold slotsAt TempDb.liveContinuation
    cases hfind : temp.continuations.find? (houseId, app) with
    | none => exact .inl rfl
    | some row =>
      by_cases hlive : later < row.expiresAt
      · have hnow : now < row.expiresAt := by omega
        simp [Option.filter, hlive, hnow]
      · simp [Option.filter, hlive]

/-! ## Expiry steps of the engine -/

theorem setSlots_setSlots (sh : Shared) (houseId : HouseId) (app : Text) (a b : Slots) :
    (sh.setSlots houseId app a).setSlots houseId app b = sh.setSlots houseId app b := by
  simp only [Shared.setSlots, Store.setSlots, Shared.mk.injEq, Store.mk.injEq, true_and, and_true]
  funext h x
  split <;> rfl

theorem setSlots_slots (sh : Shared) (houseId : HouseId) (app : Text) :
    sh.setSlots houseId app (sh.slots houseId app) = sh := by
  have hsame : (fun h a => if h = houseId ∧ a = app then sh.slots houseId app
      else sh.store.slots h a) = sh.store.slots := by
    funext h a
    split
    next heq =>
      obtain ⟨rfl, rfl⟩ := heq
      rfl
    · rfl
  rw [Shared.setSlots, Store.setSlots, hsame]

/-- The engine's expiry steps bring the entries of a surface to what they are now. -/
theorem catch_up (engine : HouseholdEngine) {t : State} {houseId : HouseId} {app : Text}
    {new : Slots} (h : Stale (t.shared.slots houseId app) new) :
    ∃ acts, (machine engine).exec t acts =
      some ({ t with shared := t.shared.setSlots houseId app new }, []) := by
  obtain ⟨pending, continuation⟩ := new
  -- the pending entry first, the continuation on top of that
  let half : Slots := ⟨pending, (t.shared.slots houseId app).continuation⟩
  have hpending : ∃ acts, (machine engine).exec t acts =
      some ({ t with shared := t.shared.setSlots houseId app half }, []) := by
    rcases h.pending with heq | heq
    · refine ⟨[], ?_⟩
      have hhalf : half = t.shared.slots houseId app := by
        rw [show half = ⟨pending, _⟩ from rfl, show pending = _ from heq]
      rw [hhalf, setSlots_slots]
      rfl
    · have hhalf : half = (t.shared.slots houseId app).clearPending := by
        rw [show half = ⟨pending, _⟩ from rfl, show pending = _ from heq]
        rfl
      rw [hhalf]
      exact ⟨[.expirePending houseId app], rfl⟩
  obtain ⟨acts, hacts⟩ := hpending
  rcases h.continuation with heq | heq
  · refine ⟨acts, ?_⟩
    rw [hacts, show continuation = (t.shared.slots houseId app).continuation from heq]
  · refine ⟨acts ++ [.expireContinuation houseId app], ?_⟩
    refine (Machine.exec_append_of hacts rfl).trans ?_
    rw [show continuation = none from heq]
    simp only [Shared.setSlots_self, setSlots_setSlots]
    rfl

/-- The steps that are no store operation neither read nor change the store. -/
theorem taskStep_over (engine : HouseholdEngine) (sh : Shared) (store : Store) (c : CallId)
    (call : Call) {e : Event} (h : storeless e = true) :
    taskStep engine { sh with store := store } c call e =
      (taskStep engine sh c call e).map fun r => ({ r.1 with store := store }, r.2) := by
  cases e with
  | lockEntry =>
    cases hpc : call.pc with
    | lockEntry house =>
      cases hlock : sh.locks house.id <;> simp [taskStep, requestStep, hpc, hlock]
    | _ => simp [taskStep, requestStep, hpc]
  | tryLock =>
    cases hpc : call.pc with
    | tryLock house lock =>
      cases hheld : sh.locked lock <;> simp [taskStep, requestStep, hpc, hheld, Shared.setLocked]
    | _ => simp [taskStep, requestStep, hpc]
  | joined =>
    simp only [taskStep, requestStep]
    repeat' split
    all_goals rfl
  | deadline =>
    simp only [taskStep, requestStep]
    split <;> rfl
  | spawnWatcher =>
    simp only [taskStep, requestStep]
    split <;> rfl
  | workBegin | threadStarted | turned | panic | cancelled =>
    cases hwork : call.work with
    | none => simp [taskStep, hwork]
    | some work =>
      simp only [taskStep, hwork, Option.bind_eq_bind, Option.bind_some, workStep]
      repeat' split
      all_goals rfl
  | watcherJoined =>
    cases hwork : call.work with
    | none => simp [taskStep, hwork]
    | some work =>
      cases hwatcher : call.watcher with
      | none => simp [taskStep, hwork, hwatcher]
      | some watcher =>
        simp only [taskStep, hwork, hwatcher, Option.bind_eq_bind, Option.bind_some, watcherStep]
        repeat' split
        all_goals rfl
  | _ => cases h

/-! ## The request -/

section Request

variable {shaper : ReplyShaper} {c : CallId} {input : HouseholdInput} {outcome : Outcome}
  {nonce : Nonce} {now : Nat} {surface : Bool} {temp temp' : TempDb} {pc' : Pc} {os : List Obs}

/-- A store operation of a request on the tables is the operation of `slotStep` on
what can be read, with the outcome its caller sees. -/
theorem pgSlotStep_slotStep (hlawful : aead.Lawful) {pc : Pc} {houseId : HouseId}
    (hhouse : pc.slotHouse = some houseId)
    (h : pgSlotStep aead cipher shaper c input outcome nonce now surface temp pc =
      some (temp', pc', os)) :
    ∃ seen slots', slotStep shaper input
        (slotsAt aead cipher now temp houseId input.identity.applicationId) pc seen =
          some (pc', slots') ∧
      os = slotObs c input.identity.applicationId input
        (slotsAt aead cipher now temp houseId input.identity.applicationId) pc seen ∧
      Replaced aead cipher now houseId input.identity.applicationId slots' temp temp' := by
  cases pc with
  | takeContinuation house =>
    obtain rfl := Option.some.inj hhouse
    obtain ⟨seen, hacts, hagrees, htaken⟩ := @takeContinuation_acts aead cipher temp now house.id
      input.identity.applicationId outcome
    have hreplaced := ActsAs.replaced hacts
    simp only [pgSlotStep] at h
    split at h
    next chunks hresult =>
      rw [hresult] at hagrees
      obtain rfl := hagrees.ok
      obtain ⟨rfl, rfl, rfl⟩ := by simpa using h
      have hchunks := htaken _ hresult
      refine ⟨.ok, _, ?_, by simp only [slotObs, hchunks], hreplaced⟩
      simp [slotStep, hchunks, Outcome.applies]
    next hresult =>
      rw [hresult] at hagrees
      obtain rfl := hagrees.ok
      obtain ⟨rfl, rfl, rfl⟩ := by simpa using h
      have hnone := htaken _ hresult
      have hsame : Slots.clearContinuation (slotsAt aead cipher now temp house.id
          input.identity.applicationId) = slotsAt aead cipher now temp house.id
          input.identity.applicationId := by
        rw [Slots.clearContinuation, ← hnone]
      refine ⟨.ok, _, ?_, by simp only [slotObs, hnone], hreplaced⟩
      simp [slotStep, hnone, Outcome.applies, hsame]
    next hresult =>
      rw [hresult] at hagrees
      obtain ⟨applied, rfl⟩ := hagrees.error
      obtain ⟨rfl, rfl, rfl⟩ := by simpa using h
      exact ⟨.err applied, _, rfl, rfl, hreplaced⟩
  | saveBack house chunks =>
    obtain rfl := Option.some.inj hhouse
    obtain ⟨seen, hacts, hagrees⟩ := @saveContinuation_acts aead cipher temp now house
      input.identity.applicationId hlawful outcome nonce surface chunks
    have hreplaced := ActsAs.replaced hacts
    simp only [pgSlotStep] at h
    split at h
    next hresult =>
      rw [hresult] at hagrees
      obtain rfl := hagrees.ok
      obtain ⟨rfl, rfl, rfl⟩ := by simpa using h
      exact ⟨.ok, _, rfl, rfl, hreplaced⟩
    next hresult =>
      rw [hresult] at hagrees
      obtain ⟨applied, rfl⟩ := hagrees.error
      obtain ⟨rfl, rfl, rfl⟩ := by simpa using h
      exact ⟨.err applied, _, rfl, rfl, hreplaced⟩
  | shapeAndSave house text source =>
    obtain rfl := Option.some.inj hhouse
    obtain ⟨seen, hacts, hagrees⟩ := @saveContinuation_acts aead cipher temp now house
      input.identity.applicationId hlawful outcome nonce surface (shaper.split text).remaining
    have hreplaced := ActsAs.replaced hacts
    simp only [pgSlotStep] at h
    split at h
    next hresult =>
      rw [hresult] at hagrees
      obtain ⟨applied, rfl⟩ := hagrees.error
      obtain ⟨rfl, rfl, rfl⟩ := by simpa using h
      exact ⟨.err applied, _, rfl, by cases source <;> rfl, hreplaced⟩
    next hresult =>
      rw [hresult] at hagrees
      obtain rfl := hagrees.ok
      cases source <;>
      · obtain ⟨rfl, rfl, rfl⟩ := by simpa using h
        exact ⟨.ok, _, rfl, rfl, hreplaced⟩
  | clearReady house text =>
    obtain rfl := Option.some.inj hhouse
    obtain ⟨hacts, hagrees⟩ := @clearPending_acts aead cipher temp now house
      input.identity.applicationId outcome
    have hreplaced := ActsAs.replaced hacts
    simp only [pgSlotStep] at h
    split at h
    next hresult =>
      rw [hresult] at hagrees
      obtain rfl := hagrees.ok
      obtain ⟨rfl, rfl, rfl⟩ := by simpa using h
      exact ⟨.ok, _, rfl, rfl, hreplaced⟩
    next hresult =>
      rw [hresult] at hagrees
      obtain ⟨applied, rfl⟩ := hagrees.error
      obtain ⟨rfl, rfl, rfl⟩ := by simpa using h
      exact ⟨.err applied, _, rfl, rfl, hreplaced⟩
  | pollPending house =>
    obtain rfl := Option.some.inj hhouse
    have hreplaced := @Replaced.refl aead cipher now house.id input.identity.applicationId temp
    simp only [pgSlotStep] at h
    split at h
    next text hresult =>
      obtain ⟨rfl, rfl, rfl⟩ := by simpa using h
      have hpending := pollPending_reads hresult
      exact ⟨.ok, _, by simp only [slotStep, hpending], rfl, hreplaced⟩
    next hresult =>
      obtain ⟨rfl, rfl, rfl⟩ := by simpa using h
      have hpending := pollPending_reads hresult
      exact ⟨.ok, _, by simp only [slotStep, hpending], rfl, hreplaced⟩
    next hresult =>
      obtain ⟨rfl, rfl, rfl⟩ := by simpa using h
      have hpending := pollPending_reads hresult
      exact ⟨.ok, _, by simp only [slotStep, hpending], rfl, hreplaced⟩
    next hresult =>
      obtain ⟨rfl, rfl, rfl⟩ := by simpa using h
      exact ⟨.err false, _, rfl, rfl, hreplaced⟩
  | _ => cases hhouse

end Request

/-! ## The houses -/

/-- Houses stay, with their names and connectors. -/
def HousesKept (db db' : Db δ) : Prop :=
  ∀ h house, db.houses.find? h = some house → ∃ house', db'.houses.find? h = some house' ∧
    house'.row.name = house.row.name ∧ house'.row.homeyConnectorId = house.row.homeyConnectorId

theorem HousesKept.of_eq {db db' : Db δ} (h : db'.houses = db.houses) : HousesKept db db' := by
  intro id house hfind
  exact ⟨house, h ▸ hfind, rfl, rfl⟩

theorem HousesKept.trans {a b c : Db δ} (hab : HousesKept a b) (hbc : HousesKept b c) :
    HousesKept a c := by
  intro id house hfind
  obtain ⟨house', hfind', hname, hconnector⟩ := hab id house hfind
  obtain ⟨house'', hfind'', hname', hconnector'⟩ := hbc id house' hfind'
  exact ⟨house'', hfind'', hname'.trans hname, hconnector'.trans hconnector⟩

theorem find?_setThread (db : Db δ) (houseId h : HouseId) (threadId : Text) :
    (setThread db houseId threadId).houses.find? h = (db.houses.find? h).map fun house =>
      if threadFree houseId threadId house then withThread threadId house else house := by
  rw [setThread, Table.find?_update]

/-- The update touches the house it names, if that has no other thread. -/
theorem find?_setThread_of (db : Db δ) {houseId : HouseId} {threadId : Text} {house : House}
    (hfind : db.houses.find? houseId = some house)
    (hfree : threadFree houseId threadId house = true) (h : HouseId) :
    (setThread db houseId threadId).houses.find? h =
      if h = houseId then some (withThread threadId house) else db.houses.find? h := by
  rw [find?_setThread]
  split
  next heq => simp [heq, hfind, hfree]
  next hne =>
    cases hother : db.houses.find? h with
    | none => rfl
    | some other =>
      have hid := (Table.find?_eq_some.mp hother).2
      simp [threadFree, hid, hne]

/-- No row is touched where the house is missing or has another thread. -/
theorem find?_setThread_none (db : Db δ) {houseId : HouseId} {threadId : Text}
    (hnone : ∀ house, db.houses.find? houseId = some house →
      threadFree houseId threadId house = false)
    (h : HouseId) :
    (setThread db houseId threadId).houses.find? h = db.houses.find? h := by
  rw [find?_setThread]
  cases hfind : db.houses.find? h with
  | none => rfl
  | some house =>
    have hid := (Table.find?_eq_some.mp hfind).2
    have hfree : threadFree houseId threadId house = false := by
      by_cases heq : h = houseId
      · exact hnone house (heq ▸ hfind)
      · simp [threadFree, hid, heq]
    simp [hfree]

/-- `save_thread_id` wrote the thread of a house that had none or this one, or it
failed and left the houses as they were. -/
theorem saveThreadId_cases (outcome : Outcome) (db : Db δ) (houseId : HouseId) (threadId : Text) :
    ((∀ h, (saveThreadId outcome db houseId threadId).1.houses.find? h = db.houses.find? h) ∧
      ∃ e, (saveThreadId outcome db houseId threadId).2 = .error e) ∨
    ∃ house, db.houses.find? houseId = some house ∧ threadFree houseId threadId house = true ∧
      ∀ h, (saveThreadId outcome db houseId threadId).1.houses.find? h =
        if h = houseId then some (withThread threadId house) else db.houses.find? h := by
  by_cases hfree : ∃ house, db.houses.find? houseId = some house ∧
      threadFree houseId threadId house = true
  · obtain ⟨house, hfind, hfree⟩ := hfree
    have hset := find?_setThread_of db hfind hfree
    have hany : db.houses.rows.any (threadFree houseId threadId) = true :=
      List.any_eq_true.mpr ⟨house, (Table.find?_eq_some.mp hfind).1, hfree⟩
    cases outcome with
    | ok => exact .inr ⟨house, hfind, hfree, by simpa [saveThreadId, hany] using hset⟩
    | err applied =>
      cases applied with
      | true => exact .inr ⟨house, hfind, hfree, by simpa [saveThreadId] using hset⟩
      | false => exact .inl ⟨by simp [saveThreadId], dbError, rfl⟩
  · have hnone : ∀ house, db.houses.find? houseId = some house →
        threadFree houseId threadId house = false := by
      intro house hfind
      exact Bool.eq_false_iff.mpr fun h => hfree ⟨house, hfind, h⟩
    have hset := find?_setThread_none db hnone
    have hany : db.houses.rows.any (threadFree houseId threadId) = false := by
      refine List.any_eq_false.mpr fun house hmem h => ?_
      have hid : house.id = houseId := by
        simp only [threadFree, Bool.and_eq_true, decide_eq_true_eq] at h
        exact h.1
      exact hfree ⟨house, Table.find?_eq_some.mpr ⟨hmem, hid⟩, h⟩
    cases outcome with
    | ok => exact .inl ⟨by simp [saveThreadId, hany], differentThread, by simp [saveThreadId, hany]⟩
    | err applied =>
      refine .inl ⟨?_, dbError, rfl⟩
      cases applied with
      | true => exact hset
      | false => simp [saveThreadId]

theorem housesKept_saveThreadId (outcome : Outcome) (db : Db δ) (houseId : HouseId)
    (threadId : Text) : HousesKept db (saveThreadId outcome db houseId threadId).1 := by
  intro id other hother
  rcases saveThreadId_cases outcome db houseId threadId with ⟨hsame, _⟩ | ⟨house, hfind, _, hdb⟩
  · exact ⟨other, (hsame id).trans hother, rfl, rfl⟩
  · by_cases heq : id = houseId
    · subst heq
      obtain rfl := Option.some.inj (hfind.symm.trans hother)
      exact ⟨withThread threadId house, by simp [hdb], rfl, rfl⟩
    · exact ⟨other, by simp [hdb, heq, hother], rfl, rfl⟩

/-- A statement of a resolution leaves the houses alone. -/
theorem resolveStatement_houses {mac : Text → δ} {fails : Bool} {draw : Fin 1000000} {now : Nat}
    {db : Db δ} {identity : SurfaceIdentity} {pc : ResolvePc} :
    (resolveStatement mac fails draw now db identity pc).1.houses = db.houses := by
  generalize hr : resolveStatement mac fails draw now db identity pc = r
  obtain ⟨db', next⟩ := r
  rcases resolveStatement_cases mac hr with ⟨h, _⟩ | ⟨houseId, _, _, h⟩
  · rw [h]
  · unfold Db.upsertPairing at h
    split at h
    · rw [← Option.some.inj h]
    · cases h

/-- A command creates a house or leaves the houses alone, and the clock goes on. -/
theorem command_houses [DecidableEq δ] {mac : Text → δ} {db : Db δ} {clock : Nat}
    {command : Access.Action δ} {r : Access.State δ × List Access.Event}
    (howner : ownerCommand command = true)
    (h : Access.step mac ⟨db, clock, []⟩ command = some r) :
    (r.1.db.houses = db.houses ∨
      ∃ name connector, db.createHouse name connector = some r.1.db) ∧ clock ≤ r.1.clock := by
  cases command with
  | createHouse name connector =>
    obtain rfl := Option.some.inj h
    cases hdb : db.createHouse name connector with
    | none => exact ⟨.inl (by simp [Access.commanded]), by simp [Access.commanded]⟩
    | some db' => exact ⟨.inr ⟨name, connector, hdb⟩, Nat.le_refl _⟩
  | addMember houseId userId role =>
    obtain rfl := Option.some.inj h
    cases hdb : db.addMember houseId userId role with
    | none => exact ⟨.inl (by simp [Access.commanded]), by simp [Access.commanded]⟩
    | some db' =>
      refine ⟨.inl ?_, Nat.le_refl _⟩
      unfold Db.addMember at hdb
      split at hdb
      · obtain rfl := Option.some.inj hdb
        rfl
      · cases hdb
  | disableMember houseId userId | disableSurface applicationId =>
    obtain rfl := Option.some.inj h
    exact ⟨.inl rfl, Nat.le_refl _⟩
  | approvePairing houseId code fetched fails =>
    simp only [Access.step] at h
    split at h
    next =>
      obtain rfl := Option.some.inj h
      refine ⟨.inl ?_, Nat.le_refl _⟩
      dsimp only
      generalize hresult : approvePairing mac fails fetched clock db houseId code = result
      obtain ⟨db', result⟩ := result
      by_cases hok : result = .ok true
      · subst hok
        obtain ⟨_, _, bound, _, _, _, hbind, rfl⟩ := approvePairing_ok mac hresult
        obtain ⟨surfaces, _, rfl⟩ := Option.map_eq_some_iff.mp hbind
        rfl
      · rw [approvePairing_unchanged mac hresult hok]
    next => cases h
  | tick elapsed =>
    obtain rfl := Option.some.inj h
    exact ⟨.inl rfl, Nat.le_add_right ..⟩
  | resolveSurface | statement => cases howner

/-! ## The store of the engine and the tables -/

/-- The engine's store covers the tables: the houses with their threads, the houses
that a later command creates, and entries that are as they can be read or have
expired. -/
structure Covers (aead : Aead) (cipher : StateCipher) (last : Db δ) (sh : PgShared δ)
    (store : Store) : Prop where
  known : ∀ h house, sh.db.houses.find? h = some house → store.houses h = some house.row
  future : ∀ h house, sh.db.houses.find? h = none → last.houses.find? h = some house →
    store.houses h = some { house.row with codexThreadId := none }
  slots : ∀ h a, Stale (store.slots h a) (slotsAt aead cipher sh.clock sh.temp h a)

section Answers

variable {last : Db δ} {sh sh' : PgShared δ} {store : Store} {engine : HouseholdEngine}

theorem slots_later {old : Slots} {houseId : HouseId} {app : Text}
    (h : Stale old (slotsAt aead cipher sh.clock sh.temp houseId app)) (htemp : sh'.temp = sh.temp)
    (hclock : sh.clock ≤ sh'.clock) :
    Stale old (slotsAt aead cipher sh'.clock sh'.temp houseId app) := by
  rw [htemp]
  exact h.trans (stale_later hclock sh.temp houseId app)

theorem Covers.later (h : Covers aead cipher last sh store) (hdb : sh'.db.houses = sh.db.houses)
    (htemp : sh'.temp = sh.temp) (hclock : sh.clock ≤ sh'.clock) :
    Covers aead cipher last sh' store where
  known := hdb ▸ h.known
  future := hdb ▸ h.future
  slots id app := slots_later (h.slots id app) htemp hclock

/-- A house that was just created is one the engine's store has had all along. -/
theorem Covers.created {name connector : Text} (h : Covers aead cipher last sh store)
    (hcreate : sh.db.createHouse name connector = some sh'.db) (hkept : HousesKept sh'.db last)
    (htemp : sh'.temp = sh.temp) (hclock : sh.clock ≤ sh'.clock) :
    Covers aead cipher last sh' store := by
  obtain ⟨houses, hinsert, hdb⟩ := Option.map_eq_some_iff.mp hcreate
  have hfind (id : HouseId) : sh'.db.houses.find? id =
      if id = sh.db.nextHouse then some ⟨sh.db.nextHouse, ⟨name, none, connector⟩, true⟩
      else sh.db.houses.find? id := by
    rw [← hdb]
    exact Table.find?_insert? hinsert
  refine ⟨fun id house hid => ?_, fun id house hid hlast => ?_,
    fun id app => slots_later (h.slots id app) htemp hclock⟩
  · rw [hfind] at hid
    split at hid
    next hnew =>
      subst hnew
      obtain rfl := Option.some.inj hid
      have hself : sh'.db.houses.find? sh.db.nextHouse =
          some ⟨sh.db.nextHouse, ⟨name, none, connector⟩, true⟩ := by
        rw [hfind, if_pos rfl]
      obtain ⟨house', hlast, hname, hconnector⟩ := hkept _ _ hself
      have hbefore : sh.db.houses.find? sh.db.nextHouse = none := Table.find?_of_insert? hinsert
      rw [h.future _ house' hbefore hlast]
      simp only [hname, hconnector]
    next => exact h.known id house hid
  · rw [hfind] at hid
    split at hid
    · cases hid
    next => exact h.future id house hid hlast

/-- One task of the engine goes on. -/
theorem exec_one {calls : List Call} {shared shared' : Shared} {c : CallId} {call call' : Call}
    {e : Event} {os : List Obs} (hcall : calls[c]? = some call)
    (h : taskStep engine shared c call e = some (shared', call', os)) :
    (machine engine).exec ⟨shared, calls⟩ [.task c e] =
      some (⟨shared', calls.set c call'⟩, os) := by
  simp [Machine.exec, machine, step, hcall, h]

/-- What an answer to a step of a task is: steps of the engine with the same
observations, to a store that covers the tables again. -/
def Answered (aead : Aead) (cipher : StateCipher) (engine : HouseholdEngine) (last : Db δ)
    (c : CallId) (call call' : Call) (sh sh' : PgShared δ) (store : Store) (os : List Obs) : Prop :=
  ∃ store', Covers aead cipher last sh' store' ∧
    ∀ calls : List Call, calls[c]? = some call →
      ∃ acts, (machine engine).exec ⟨sh.over store, calls⟩ acts =
        some (⟨sh'.over store', calls.set c call'⟩, os)

variable {c : CallId} {call call' : Call} {os : List Obs}

/-- No step at all answers one that only reads. -/
theorem Answered.stay (h : Covers aead cipher last sh' store)
    (hover : sh'.over store = sh.over store) :
    Answered aead cipher engine last c call call sh sh' store [] := by
  refine ⟨store, h, fun calls hcall => ⟨[], ?_⟩⟩
  obtain ⟨hlt, rfl⟩ := List.getElem?_eq_some_iff.mp hcall
  rw [List.set_getElem_self, hover]
  rfl

/-- One step of the task, on the store as it is. -/
theorem Answered.one (e : Event) {store' : Store} (h : Covers aead cipher last sh' store')
    (hstep : taskStep engine (sh.over store) c call e = some (sh'.over store', call', os)) :
    Answered aead cipher engine last c call call' sh sh' store os :=
  ⟨store', h, fun _ hcall => ⟨[.task c e], exec_one hcall hstep⟩⟩

/-- One step on the entries of a surface, after the expiry steps that are due there. -/
theorem Answered.slots {e : Event} {houseId : HouseId} {app : Text} {slots' : Slots}
    {temp' : TempDb} (h : Covers aead cipher last sh store)
    (hsh : sh' = { sh with temp := temp' })
    (hreplaced : Replaced aead cipher sh.clock houseId app slots' sh.temp temp')
    (hstep : ∀ shared : Shared, shared.slots houseId app =
      slotsAt aead cipher sh.clock sh.temp houseId app →
      taskStep engine shared c call e = some (shared.setSlots houseId app slots', call', os)) :
    Answered aead cipher engine last c call call' sh sh' store os := by
  subst hsh
  refine ⟨store.setSlots houseId app slots', ⟨h.known, h.future, fun id a => ?_⟩,
    fun calls hcall => ?_⟩
  · simp only [Store.setSlots]
    rw [hreplaced id a]
    split
    · exact .refl _
    · exact h.slots id a
  · obtain ⟨acts, hacts⟩ := @catch_up engine ⟨sh.over store, calls⟩ houseId app _
      (h.slots houseId app)
    have hone := @exec_one engine calls _ _ c call call' e os hcall
      (hstep ((sh.over store).setSlots houseId app _) (Shared.setSlots_self ..))
    refine ⟨acts ++ [.task c e], (Machine.exec_append_of hacts hone).trans ?_⟩
    rw [setSlots_setSlots]
    rfl

/-! ## The events -/

variable {mac : Text → δ} {pgCall pgCall' : PgCall} {seen : List Seen}

theorem filterMap_house (os : List Obs) : (os.map Seen.house).filterMap Seen.house? = os := by
  simp [List.filterMap_map, Function.comp_def, Seen.house?]

/-- The house of a bound surface is a row of the table. -/
theorem bound_row {db : Db δ} {identity : SurfaceIdentity} {context : HouseContext}
    (h : db.bound identity = some context) :
    ∃ house, db.houses.find? context.id = some house ∧ house.row.context context.id = context := by
  unfold Db.bound at h
  split at h
  · cases h
  split at h
  · split at h
    next house hhouse =>
      split at h
      · obtain rfl := Option.some.inj h
        have hid := (Table.find?_eq_some.mp hhouse).2
        refine ⟨house, ?_, rfl⟩
        rw [HouseRow.context_id, hid]
        exact hhouse
      · cases h
    next => cases h
  · cases h

/-- What the engine's machine is told of a resolution. -/
def resolution : Except HouseholdStoreError HouseStore.SurfaceResolution → Resolution
  | .ok (.bound house) => .bound house.id
  | .ok (.pairingRequired code) => .pairingRequired code
  | .ok .unauthorized => .unauthorized
  | .error _ => .failed

theorem answered_statement {fails : Bool} {draw : Fin 1000000}
    (hcovers : Covers aead cipher last sh store)
    (h : pgTaskStep aead cipher mac engine sh c pgCall (.statement fails draw) =
      some (sh', pgCall', seen)) :
    Answered aead cipher engine last c pgCall.call pgCall'.call sh sh' store
      (seen.filterMap Seen.house?) := by
  simp only [pgTaskStep] at h
  split at h
  next pc hpc hresolve =>
    have hhouses := @resolveStatement_houses δ mac fails draw sh.clock sh.db
      pgCall.call.input.identity pc
    split at h
    next pc' hnext =>
      obtain ⟨rfl, rfl, rfl⟩ := by simpa using h
      exact .stay (hcovers.later hhouses rfl (Nat.le_refl _)) rfl
    next result hnext =>
      obtain ⟨rfl, rfl, rfl⟩ := by simpa using h
      have hstep : taskStep engine (sh.over store) c pgCall.call (.resolve (resolution result)) =
          some (sh.over store, { pgCall.call with pc := afterResolve result },
            replyObs c pgCall.call.app none (afterResolve result)) := by
        cases result with
        | error e => simp [taskStep, requestStep, hpc, resolution, afterResolve, replyObs]
        | ok answer =>
          cases answer with
          | pairingRequired code =>
            simp [taskStep, requestStep, hpc, resolution, afterResolve, replyObs]
          | unauthorized => simp [taskStep, requestStep, hpc, resolution, afterResolve, replyObs]
          | bound house =>
            have hbound : sh.db.bound pgCall.call.input.identity = some house := by
              generalize hr : resolveStatement mac fails draw sh.clock sh.db
                pgCall.call.input.identity pc = r at hnext
              obtain ⟨db', next⟩ := r
              obtain rfl : next = .return (.ok (.bound house)) := hnext
              rcases resolveStatement_cases mac hr with ⟨_, _, hb⟩ | ⟨_, _, hb, _⟩
              · exact (hb house rfl).2
              · simp at hb
            obtain ⟨row, hrow, hcontext⟩ := bound_row hbound
            have hstore : (sh.over store).store.houses house.id = some row.row :=
              hcovers.known house.id row hrow
            simp [taskStep, requestStep, hpc, resolution, afterResolve, replyObs, hstore, hcontext]
      have hseen : (Seen.resolved c pgCall.call.input.identity sh.clock result ::
          (replyObs c pgCall.call.app none (afterResolve result)).map Seen.house).filterMap
            Seen.house? = replyObs c pgCall.call.app none (afterResolve result) :=
        filterMap_house _
      rw [hseen]
      exact .one _ (hcovers.later hhouses rfl (Nat.le_refl _)) hstep
  next => cases h

theorem answered_slot {outcome : Outcome} {nonce : Nonce} (hlawful : aead.Lawful)
    (hcovers : Covers aead cipher last sh store)
    (h : pgTaskStep aead cipher mac engine sh c pgCall (.slot outcome nonce) =
      some (sh', pgCall', seen)) :
    Answered aead cipher engine last c pgCall.call pgCall'.call sh sh' store
      (seen.filterMap Seen.house?) := by
  simp only [pgTaskStep] at h
  obtain ⟨houseId, hhouse, h⟩ := Option.bind_eq_some_iff.mp h
  obtain ⟨⟨temp', pc', os⟩, hslot, h⟩ := Option.bind_eq_some_iff.mp h
  obtain ⟨rfl, hrest⟩ := Prod.mk.inj (Option.some.inj h)
  obtain ⟨rfl, rfl⟩ := Prod.mk.inj hrest
  obtain ⟨outcome', slots', hstep, hos, hreplaced⟩ := pgSlotStep_slotStep hlawful hhouse hslot
  rw [filterMap_house]
  refine .slots (e := .slot outcome') hcovers rfl hreplaced fun shared hshared => ?_
  subst hos
  have happ : pgCall.call.app = pgCall.call.input.identity.applicationId := rfl
  simp only [taskStep, requestStep, hhouse, Option.bind_eq_bind, Option.bind_some, happ, hshared,
    hstep]

theorem answered_mark {outcome : Outcome} (hcovers : Covers aead cipher last sh store)
    (h : pgTaskStep aead cipher mac engine sh c pgCall (.mark outcome) =
      some (sh', pgCall', seen)) :
    Answered aead cipher engine last c pgCall.call pgCall'.call sh sh' store
      (seen.filterMap Seen.house?) := by
  simp only [pgTaskStep] at h
  split at h
  next work hpc hwork =>
    obtain ⟨outcome', hacts, hagrees⟩ := @markThinking_acts aead cipher sh.temp sh.clock
      work.house.id pgCall.call.app outcome
      (surfaceExists sh.db work.house.id pgCall.call.app)
    split at h
    next hresult =>
      rw [hresult] at hagrees
      obtain rfl := hagrees.ok
      obtain ⟨rfl, rfl, rfl⟩ := by simpa using h
      refine .slots (e := .mark .ok) hcovers rfl hacts.replaced fun shared hshared => ?_
      simp [taskStep, requestStep, hpc, hwork, hshared, Seen.house?]
    next hresult =>
      rw [hresult] at hagrees
      obtain ⟨applied, rfl⟩ := hagrees.error
      obtain ⟨rfl, rfl, rfl⟩ := by simpa using h
      refine .slots (e := .mark (.err applied)) hcovers rfl hacts.replaced fun shared hshared => ?_
      simp [taskStep, requestStep, hpc, hwork, hshared, Seen.house?]
  next => cases h

theorem answered_watcherStore {outcome : Outcome} {nonce : Nonce} (hlawful : aead.Lawful)
    (hcovers : Covers aead cipher last sh store)
    (h : pgTaskStep aead cipher mac engine sh c pgCall (.watcherStore outcome nonce) =
      some (sh', pgCall', seen)) :
    Answered aead cipher engine last c pgCall.call pgCall'.call sh sh' store
      (seen.filterMap Seen.house?) := by
  simp only [pgTaskStep] at h
  obtain ⟨work, hwork, h⟩ := Option.bind_eq_some_iff.mp h
  obtain ⟨watcher, hwatcher, h⟩ := Option.bind_eq_some_iff.mp h
  split at h
  next text =>
    obtain ⟨outcome', hacts, _⟩ := @saveReady_acts aead cipher sh.temp sh.clock work.house.id
      pgCall.call.app hlawful outcome nonce (surfaceExists sh.db work.house.id pgCall.call.app) text
    obtain ⟨rfl, rfl, rfl⟩ := by simpa using h
    refine .slots (e := .watcherStore outcome') hcovers rfl hacts.replaced fun shared hshared => ?_
    simp [taskStep, watcherStep, hwork, hwatcher, hshared, Seen.house?]
  next =>
    have hacts := (@clearPending_acts aead cipher sh.temp sh.clock work.house.id pgCall.call.app
      outcome).1
    obtain ⟨rfl, rfl, rfl⟩ := by simpa using h
    refine .slots (e := .watcherStore outcome) hcovers rfl hacts.replaced fun shared hshared => ?_
    simp [taskStep, watcherStep, hwork, hwatcher, hshared, Seen.house?]
  next => cases h

theorem answered_local {e : Event} (hcovers : Covers aead cipher last sh store)
    (h : pgTaskStep aead cipher mac engine sh c pgCall (.local e) = some (sh', pgCall', seen)) :
    Answered aead cipher engine last c pgCall.call pgCall'.call sh sh' store
      (seen.filterMap Seen.house?) := by
  simp only [pgTaskStep] at h
  split at h
  next hlocal =>
    obtain ⟨⟨shared, call', os⟩, hstep, h⟩ := Option.map_eq_some_iff.mp h
    obtain ⟨rfl, hrest⟩ := Prod.mk.inj h
    obtain ⟨rfl, rfl⟩ := Prod.mk.inj hrest
    rw [filterMap_house]
    have hover := taskStep_over engine (sh.over noStore) store c pgCall.call hlocal
    rw [hstep] at hover
    exact .one e ⟨hcovers.known, hcovers.future, hcovers.slots⟩ hover
  next => cases h

variable (sh') in
/-- The engine's store after the thread of a house was written. -/
theorem Covers.threadWritten {houseId : HouseId} {threadId : Text} {house : House}
    (h : Covers aead cipher last sh store) (hfind : sh.db.houses.find? houseId = some house)
    (hfree : threadFree houseId threadId house = true)
    (hdb : ∀ h, sh'.db.houses.find? h =
      if h = houseId then some (withThread threadId house) else sh.db.houses.find? h)
    (htemp : sh'.temp = sh.temp) (hclock : sh'.clock = sh.clock) :
    ∃ store', store.saveThreadId houseId threadId = some store' ∧
      Covers aead cipher last sh' store' := by
  have hrow := h.known houseId house hfind
  have hcond : house.row.codexThreadId = none ∨ house.row.codexThreadId = some threadId := by
    simp only [threadFree, Bool.and_eq_true, Bool.or_eq_true, decide_eq_true_eq] at hfree
    exact hfree.2
  have hsave : store.saveThreadId houseId threadId = some { store with
      houses := fun h => if h = houseId then some (withThread threadId house).row
        else store.houses h } := by
    simp only [Store.saveThreadId, hrow, if_pos hcond]
    rfl
  refine ⟨_, hsave, ⟨?_, ?_, ?_⟩⟩
  · intro id other hother
    rw [hdb] at hother
    split at hother
    next heq =>
      obtain rfl := Option.some.inj hother
      simp only [heq, if_true]
    next hne => simpa only [hne, if_false] using h.known id other hother
  · intro id other hother hlast
    rw [hdb] at hother
    split at hother
    · cases hother
    next hne => simpa only [hne, if_false] using h.future id other hother hlast
  · intro id app
    exact slots_later (h.slots id app) htemp (Nat.le_of_eq hclock.symm)

theorem answered_threadSaved {outcome : Outcome} (hcovers : Covers aead cipher last sh store)
    (h : pgTaskStep aead cipher mac engine sh c pgCall (.threadSaved outcome) =
      some (sh', pgCall', seen)) :
    Answered aead cipher engine last c pgCall.call pgCall'.call sh sh' store
      (seen.filterMap Seen.house?) := by
  simp only [pgTaskStep] at h
  obtain ⟨work, hwork, h⟩ := Option.bind_eq_some_iff.mp h
  split at h
  next threadId hpc =>
    split at h
    next hresult =>
      obtain ⟨rfl, rfl, rfl⟩ := by simpa using h
      rcases saveThreadId_cases outcome sh.db work.house.id threadId with
        ⟨_, e, herror⟩ | ⟨house, hfind, hfree, hdb⟩
      · rw [herror] at hresult
        cases hresult
      · obtain ⟨store', hsave, hcovers'⟩ := hcovers.threadWritten
          { sh with db := (saveThreadId outcome sh.db work.house.id threadId).1 }
          hfind hfree hdb rfl rfl
        refine .one (.threadSaved .ok) hcovers' ?_
        simp [taskStep, workStep, hwork, hpc, hsave, PgShared.over, Seen.house?]
    next hresult =>
      obtain ⟨rfl, rfl, rfl⟩ := by simpa using h
      rcases saveThreadId_cases outcome sh.db work.house.id threadId with
        ⟨hsame, _⟩ | ⟨house, hfind, hfree, hdb⟩
      · have hcovers' : Covers aead cipher last (({ sh with
            db := (saveThreadId outcome sh.db work.house.id threadId).1 } : PgShared δ).setLocks
              (release (sh.over noStore) work)) store := by
          refine ⟨fun id house hfind => ?_, fun id house hfind => ?_, hcovers.slots⟩
          · exact hcovers.known id house ((hsame id).symm.trans hfind)
          · exact hcovers.future id house ((hsame id).symm.trans hfind)
        refine .one (.threadSaved (.err false)) hcovers' ?_
        simp [taskStep, workStep, hwork, hpc, release, Shared.setLocked, PgShared.over,
          PgShared.setLocks]
      · obtain ⟨store', hsave, hcovers'⟩ := hcovers.threadWritten
          { sh with db := (saveThreadId outcome sh.db work.house.id threadId).1 }
          hfind hfree hdb rfl rfl
        have hcovers'' : Covers aead cipher last (({ sh with
            db := (saveThreadId outcome sh.db work.house.id threadId).1 } : PgShared δ).setLocks
              (release (sh.over noStore) work)) store' :=
          ⟨hcovers'.known, hcovers'.future, hcovers'.slots⟩
        refine .one (.threadSaved (.err true)) hcovers'' ?_
        simp [taskStep, workStep, hwork, hpc, hsave, release, Shared.setLocked, PgShared.over,
          PgShared.setLocks]
  next => cases h

theorem answered_task {e : PgEvent} (hlawful : aead.Lawful)
    (hcovers : Covers aead cipher last sh store)
    (h : pgTaskStep aead cipher mac engine sh c pgCall e = some (sh', pgCall', seen)) :
    Answered aead cipher engine last c pgCall.call pgCall'.call sh sh' store
      (seen.filterMap Seen.house?) := by
  cases e with
  | statement fails draw => exact answered_statement hcovers h
  | slot outcome nonce => exact answered_slot hlawful hcovers h
  | mark outcome => exact answered_mark hcovers h
  | threadSaved outcome => exact answered_threadSaved hcovers h
  | watcherStore outcome nonce => exact answered_watcherStore hlawful hcovers h
  | «local» e => exact answered_local hcovers h

end Answers

/-! ## Runs -/

section Runs

variable [DecidableEq δ] {mac : Text → δ} {engine : HouseholdEngine} {s s' : PgState δ}
  {a : PgAction δ} {seen : List Seen}

omit [DecidableEq δ] in
theorem housesKept_task {sh sh' : PgShared δ} {c : CallId} {call call' : PgCall} {e : PgEvent}
    (h : pgTaskStep aead cipher mac engine sh c call e = some (sh', call', seen)) :
    HousesKept sh.db sh'.db := by
  cases e with
  | statement fails draw =>
    have hhouses := @resolveStatement_houses δ mac fails draw sh.clock sh.db
      call.call.input.identity
    simp only [pgTaskStep] at h
    split at h
    · split at h <;>
      · obtain ⟨rfl, _⟩ := Prod.mk.inj (Option.some.inj h)
        exact .of_eq hhouses
    · cases h
  | threadSaved outcome =>
    simp only [pgTaskStep] at h
    obtain ⟨work, _, h⟩ := Option.bind_eq_some_iff.mp h
    split at h
    · split at h <;>
      · obtain ⟨rfl, _⟩ := Prod.mk.inj (Option.some.inj h)
        exact housesKept_saveThreadId outcome sh.db _ _
    · cases h
  | slot outcome nonce =>
    simp only [pgTaskStep] at h
    obtain ⟨_, _, h⟩ := Option.bind_eq_some_iff.mp h
    obtain ⟨_, _, h⟩ := Option.bind_eq_some_iff.mp h
    obtain ⟨rfl, _⟩ := Prod.mk.inj (Option.some.inj h)
    exact .of_eq rfl
  | mark outcome =>
    simp only [pgTaskStep] at h
    split at h
    · split at h <;>
      · obtain ⟨rfl, _⟩ := Prod.mk.inj (Option.some.inj h)
        exact .of_eq rfl
    · cases h
  | watcherStore outcome nonce =>
    simp only [pgTaskStep] at h
    obtain ⟨_, _, h⟩ := Option.bind_eq_some_iff.mp h
    obtain ⟨_, _, h⟩ := Option.bind_eq_some_iff.mp h
    split at h
    · obtain ⟨rfl, _⟩ := Prod.mk.inj (Option.some.inj h)
      exact .of_eq rfl
    · obtain ⟨rfl, _⟩ := Prod.mk.inj (Option.some.inj h)
      exact .of_eq rfl
    · cases h
  | «local» e =>
    simp only [pgTaskStep] at h
    split at h
    · obtain ⟨_, _, h⟩ := Option.map_eq_some_iff.mp h
      obtain ⟨rfl, _⟩ := Prod.mk.inj h
      exact .of_eq rfl
    · cases h

/-- No step removes a house, renames it or changes its connector. -/
theorem housesKept_step (h : (pgMachine aead cipher mac engine).step s a = some (s', seen)) :
    HousesKept s.shared.db s'.shared.db := by
  dsimp only [pgMachine] at h
  cases a with
  | arrive input =>
    obtain ⟨rfl, _⟩ := Prod.mk.inj (Option.some.inj h)
    exact .of_eq rfl
  | task c e =>
    simp only [pgStep] at h
    obtain ⟨call, _, h⟩ := Option.bind_eq_some_iff.mp h
    obtain ⟨⟨sh', call', os⟩, hstep, h⟩ := Option.bind_eq_some_iff.mp h
    obtain ⟨rfl, _⟩ := Prod.mk.inj (Option.some.inj h)
    exact housesKept_task hstep
  | command command =>
    simp only [pgStep] at h
    split at h
    next howner =>
      obtain ⟨r, hr, h⟩ := Option.map_eq_some_iff.mp h
      obtain ⟨rfl, _⟩ := Prod.mk.inj h
      rcases (command_houses howner hr).1 with hhouses | ⟨name, connector, hcreate⟩
      · exact .of_eq hhouses
      · obtain ⟨houses, hinsert, hdb⟩ := Option.map_eq_some_iff.mp hcreate
        intro id house hfind
        have hne : id ≠ s.shared.db.nextHouse := by
          rintro rfl
          rw [Table.find?_of_insert? hinsert] at hfind
          cases hfind
        refine ⟨house, ?_, rfl, rfl⟩
        dsimp only
        rw [← hdb]
        exact (Table.find?_insert? hinsert).trans ((if_neg hne).trans hfind)
    next => cases h

/-- The engine's machine over a store that covers the tables. -/
def Matches (aead : Aead) (cipher : StateCipher) (last : Db δ) (s : PgState δ) (t : State) : Prop :=
  ∃ store, t = ⟨s.shared.over store, s.calls.map PgCall.call⟩ ∧
    Covers aead cipher last s.shared store

theorem matches_step (hlawful : aead.Lawful) {last : Db δ} {t : State}
    (hmatches : Matches aead cipher last s t)
    (h : (pgMachine aead cipher mac engine).step s a = some (s', seen))
    (hkept : HousesKept s'.shared.db last) :
    ∃ acts t', (machine engine).exec t acts = some (t', seen.filterMap Seen.house?) ∧
      Matches aead cipher last s' t' := by
  obtain ⟨store, rfl, hcovers⟩ := hmatches
  dsimp only [pgMachine] at h
  cases a with
  | arrive input =>
    obtain ⟨rfl, rfl⟩ := Prod.mk.inj (Option.some.inj h)
    refine ⟨[.arrive input], _, rfl, store, ?_, hcovers⟩
    simp
  | command command =>
    simp only [pgStep] at h
    split at h
    next howner =>
      obtain ⟨r, hr, h⟩ := Option.map_eq_some_iff.mp h
      obtain ⟨rfl, rfl⟩ := Prod.mk.inj h
      obtain ⟨hhouses, hclock⟩ := command_houses howner hr
      have hcovers' : Covers aead cipher last
          { s.shared with db := r.1.db, clock := r.1.clock } store := by
        rcases hhouses with hhouses | ⟨name, connector, hcreate⟩
        · exact hcovers.later hhouses rfl hclock
        · exact hcovers.created hcreate hkept rfl hclock
      refine ⟨[], _, ?_, store, rfl, hcovers'⟩
      simp [Machine.exec, Seen.house?, List.filterMap_map, Function.comp_def, PgShared.over]
    next => cases h
  | task c e =>
    simp only [pgStep] at h
    obtain ⟨call, hcall, h⟩ := Option.bind_eq_some_iff.mp h
    obtain ⟨⟨sh', call', os⟩, hstep, h⟩ := Option.bind_eq_some_iff.mp h
    obtain ⟨rfl, rfl⟩ := Prod.mk.inj (Option.some.inj h)
    obtain ⟨store', hcovers', hanswer⟩ := answered_task hlawful hcovers hstep
    obtain ⟨acts, hacts⟩ := hanswer (s.calls.map PgCall.call) (by simp [hcall])
    exact ⟨acts, _, hacts, store', by simp [List.map_set], hcovers'⟩

/-- What the tables hold when the process starts. -/
def Covered (aead : Aead) (cipher : StateCipher) (db : Db δ) (temp : TempDb) (clock : Nat)
    (store : Store) : Prop :=
  (∀ h house, db.houses.find? h = some house → store.houses h = some house.row) ∧
    store.slots = slotsAt aead cipher clock temp

/-- For every run from whatever the tables hold there is a run of the engine's machine
over a store that covers them. -/
theorem pg_house_matched (hlawful : aead.Lawful) {db : Db δ} {temp : TempDb} {clock : Nat}
    {acts : List (PgAction δ)}
    (he : (pgMachine aead cipher mac engine).exec (.start db temp clock) acts = some (s, seen)) :
    ∃ store acts' last, Covered aead cipher db temp clock store ∧
      (machine engine).exec (initial store) acts' =
        some (⟨s.shared.over last, s.calls.map PgCall.call⟩, seen.filterMap Seen.house?) ∧
      Covers aead cipher s.shared.db s.shared last := by
  -- a house the run creates is in the store from the start
  let store : Store :=
    { houses := fun h =>
        ((db.houses.find? h).map House.row).or
          ((s.shared.db.houses.find? h).map fun house =>
            { house.row with codexThreadId := none })
      slots := slotsAt aead cipher clock temp }
  have hcovers : Covers aead cipher s.shared.db (PgState.start db temp clock).shared store := by
    refine ⟨fun h house hfind => ?_, fun h house hfind hlast => ?_, fun h a => .refl _⟩
    · have hfind' : db.houses.find? h = some house := hfind
      simp [store, hfind']
    · have hfind' : db.houses.find? h = none := hfind
      simp [store, hfind', hlast]
  have hmatches : Matches aead cipher s.shared.db (.start db temp clock) (initial store) :=
    ⟨store, rfl, hcovers⟩
  have hstep : ∀ {s₁ t a s₂ o}, Matches aead cipher s.shared.db s₁ t →
      (pgMachine aead cipher mac engine).step s₁ a = some (s₂, o) →
      (pgMachine aead cipher mac engine).Reaches s₂ s →
      ∃ bs t', (machine engine).exec t bs = some (t', o.filterMap Seen.house?) ∧
        Matches aead cipher s.shared.db s₂ t' := by
    intro s₁ t a s₂ o hm hs hreach
    have hkept : HousesKept s₂.shared.db s.shared.db :=
      hreach.keeps (R := fun a b => HousesKept a.shared.db b.shared.db) (fun _ => .of_eq rfl)
        HousesKept.trans housesKept_step
    exact matches_step hlawful hm hs hkept
  obtain ⟨acts', t, hrun, last, rfl, hlast⟩ := Machine.exec_answered hstep hmatches he
  refine ⟨store, acts', last, ⟨fun h house hfind => ?_, rfl⟩, hrun, hlast⟩
  simp [store, hfind]

/-- The bridge over PostgreSQL shows what the engine over its store shows: for every
run from whatever the tables hold there is a run of the engine's machine with the same
observations, calls and threads. -/
theorem pg_house_refines (hlawful : aead.Lawful) (mac : Text → δ) (engine : HouseholdEngine)
    {db : Db δ} {temp : TempDb} {clock : Nat} {acts : List (PgAction δ)} {s : PgState δ}
    {seen : List Seen}
    (he : (pgMachine aead cipher mac engine).exec (.start db temp clock) acts = some (s, seen)) :
    ∃ store acts' t, Covered aead cipher db temp clock store ∧
      (machine engine).exec (initial store) acts' = some (t, seen.filterMap Seen.house?) ∧
      t.calls = s.calls.map PgCall.call ∧
      ∀ h house, s.shared.db.houses.find? h = some house →
        t.shared.store.houses h = some house.row := by
  obtain ⟨store, acts', last, hcovered, hrun, hlast⟩ := pg_house_matched hlawful he
  exact ⟨store, acts', _, hcovered, hrun, rfl, hlast.known⟩

theorem pg_house_refines_evening :
    ∃ s seen store acts' t,
      (pgMachine plainAead zeroCipher (id : Text → Text) ⟨⟨850, by decide⟩, false⟩).exec
        (.start Db.empty TempDb.empty 0) evening = some (s, seen) ∧
      (machine ⟨⟨850, by decide⟩, false⟩).exec (initial store) acts' =
        some (t, seen.filterMap Seen.house?) ∧
      .reply 1 ['a'] (some 1) (.say ['!']) ∈ seen.filterMap Seen.house? ∧
      t.calls = s.calls.map PgCall.call := by
  have hrun : ((pgMachine plainAead zeroCipher (id : Text → Text) ⟨⟨850, by decide⟩, false⟩).exec
      (.start Db.empty TempDb.empty 0) evening).map
        (fun r => decide (Obs.reply 1 ['a'] (some 1) (.say ['!']) ∈ r.2.filterMap Seen.house?)) =
      some true := by decide +kernel
  obtain ⟨⟨s, seen⟩, hexec, hreply⟩ := Option.map_eq_some_iff.mp hrun
  obtain ⟨store, acts', t, _, hmatch, hcalls, _⟩ := pg_house_refines plainAead_lawful _ _ hexec
  exact ⟨s, seen, store, acts', t, hexec, hmatch, of_decide_eq_true hreply, hcalls⟩

end Runs

end AliceBridge.Server.PgRefinement
