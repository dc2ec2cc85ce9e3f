import AliceBridge.Core.HouseLocks
import AliceBridge.Server.PgRefinement

/-! # Every call comes to an end

A call of the bridge over PostgreSQL takes at most 17 steps, its work and its watcher
included (`rank`). When no task can take a step any more, every request has its reply,
no work runs and no house is locked: no call waits for another one, and no lock is
left behind. -/
namespace AliceBridge.Server.PgProgress
open AliceBridge.Lib AliceBridge.Lib.Utf8 AliceBridge.Lib.Run AliceBridge.Core.Reply
open AliceBridge.Core.Household AliceBridge.Core.HouseEngine AliceBridge.Core.HouseSteps
open AliceBridge.Core.HouseCalls AliceBridge.Core.HouseLocks
open AliceBridge.Server.HouseStore AliceBridge.Server.StateCrypto
open AliceBridge.Server.TemporaryState AliceBridge.Server.PgHouse AliceBridge.Server.PgRefinement

variable {δ : Type} {aead : Aead} {cipher : StateCipher}

/-! ## What is left of a call -/

/-- The steps a request has before it, with those of the tasks it may still spawn. -/
def pcRank : Pc → Nat
  | .replied _ => 0
  | .saveBack .. | .clearReady .. => 1
  | .shapeAndSave .. => 2
  | .spawnWatcher => 3
  | .markThinking => 4
  | .awaitWork => 5
  | .tryLock .. => 10
  | .lockEntry _ => 11
  | .pollPending _ => 12
  | .takeContinuation _ => 13
  | .resolveSurface => 14

def resolveRank : ResolvePc → Nat
  | .selectBound => 3
  | .selectApplication => 2
  | .selectMemberships => 1
  | .insertRequest _ => 0

def workRank : WorkPc → Nat
  | .spawned => 4
  | .startThread => 3
  | .saveThreadId _ => 2
  | .turn _ => 1
  | .finished _ | .dropped => 0

def watcherRank : Watcher → Nat
  | .joining => 2
  | .saveReady _ | .clearPending => 1
  | .done => 0

def callRank (call : Call) : Nat :=
  pcRank call.pc + (call.work.elim 0 fun work => workRank work.pc) + call.watcher.elim 0 watcherRank

def rank (call : PgCall) : Nat := callRank call.call + call.resolve.elim 0 resolveRank

/-- A call that has not arrived yet has all its steps before it. -/
def rankAt (c : CallId) (s : PgState δ) : Nat := (s.calls[c]?).elim 17 rank

/-- A call has ended with its work and its watcher. -/
structure AtRest (call : Call) : Prop where
  replied : ∃ reply, call.pc = .replied reply
  worked : ∀ work, call.work = some work → work.pc.holdsGuard = false
  watched : ∀ watcher, call.watcher = some watcher → watcher = .done

section Steps

variable {engine : HouseholdEngine} {mac : Text → δ} {sh sh' : PgShared δ} {c : CallId}
  {call call' : PgCall} {seen : List Seen}

/-- A step of a task that is no store operation. -/
theorem taskStep_rank {shared shared' : Shared} {call call' : Call} {e : Event} {os : List Obs}
    (h : TaskStep engine shared c call e shared' call' os) (hlocal : storeless e = true) :
    callRank call' < callRank call := by
  cases h with
  | bound | unbound | slot | marked | markFailed | saved | saveFailed | readySaved
  | pendingCleared => cases hlocal
  | lockFound hpc | lockMade hpc | busy hpc | deadline hpc =>
    simp only [callRank, hpc, pcRank]
    omega
  | joinedText hpc | joinedLost hpc =>
    simp only [callRank, hpc, pcRank]
    omega
  | locked hpc _ _ _ _ _ hspawned =>
    simp only [callRank, hpc, pcRank, hspawned, Option.elim_some, workRank]
    omega
  | watch hpc =>
    simp only [callRank, hpc, pcRank, Option.elim_some, watcherRank]
    omega
  | turnKnown hw hpc | startCalled hw hpc | started hw hpc | answered hw hpc =>
    simp only [callRank, hw, hpc, Option.elim_some, workRank]
    omega
  | @runtimeFailed work _ hw hin =>
    have hpos : 0 < workRank work.pc := by
      cases hpc : work.pc <;> simp_all [WorkPc.inCall, workRank]
    have hdone : workRank (.finished none) = 0 := rfl
    simp only [callRank, hw, Option.elim_some, hdone]
    omega
  | @dropped work _ hw hguard =>
    have hpos : 0 < workRank work.pc := by
      cases hpc : work.pc <;> simp_all [WorkPc.holdsGuard, workRank]
    have hdone : workRank .dropped = 0 := rfl
    simp only [callRank, hw, Option.elim_some, hdone]
    omega
  | watcherText _ hv | watcherLost _ hv =>
    simp only [callRank, hv, Option.elim_some, watcherRank]
    omega

theorem pgSlotStep_rank {shaper : ReplyShaper} {input : HouseholdInput} {outcome : Outcome}
    {nonce : Nonce} {now : Nat} {surface : Bool} {temp temp' : TempDb} {pc pc' : Pc}
    {os : List Obs}
    (h : pgSlotStep aead cipher shaper c input outcome nonce now surface temp pc =
      some (temp', pc', os)) : pcRank pc' < pcRank pc := by
  have hanswer : ∀ houseId chunks,
      pcRank (answerContinuation houseId input.utterance chunks) ≤ 2 := by
    intro houseId chunks
    unfold answerContinuation
    split <;> simp [pcRank]
  have hafter : ∀ house, pcRank (afterPoll input house) ≤ 11 := by
    intro house
    unfold afterPoll
    split <;> simp [pcRank]
  cases pc with
  | takeContinuation house =>
    simp only [pgSlotStep] at h
    split at h
    next chunks _ =>
      obtain ⟨rfl, rfl, rfl⟩ := by simpa using h
      exact Nat.lt_of_le_of_lt (hanswer house.id chunks) (show 2 < 13 by decide)
    all_goals
      obtain ⟨rfl, rfl, rfl⟩ := by simpa using h
      simp [pcRank]
  | pollPending house =>
    simp only [pgSlotStep] at h
    split at h
    next =>
      obtain ⟨rfl, rfl, rfl⟩ := by simpa using h
      simp [pcRank]
    next =>
      obtain ⟨rfl, rfl, rfl⟩ := by simpa using h
      simp [pcRank]
    next =>
      obtain ⟨rfl, rfl, rfl⟩ := by simpa using h
      exact Nat.lt_of_le_of_lt (hafter house) (show 11 < 12 by decide)
    next =>
      obtain ⟨rfl, rfl, rfl⟩ := by simpa using h
      simp [pcRank]
  | shapeAndSave house text source =>
    simp only [pgSlotStep] at h
    split at h
    · obtain ⟨rfl, rfl, rfl⟩ := by simpa using h
      simp [pcRank]
    · split at h <;>
      · obtain ⟨rfl, rfl, rfl⟩ := by simpa using h
        simp [pcRank]
  | saveBack house chunks | clearReady house text =>
    simp only [pgSlotStep] at h
    split at h <;>
    · obtain ⟨rfl, rfl, rfl⟩ := by simpa using h
      simp [pcRank]
  | _ => cases h

theorem resolveStatement_rank {fails : Bool} {draw : Fin 1000000} {now : Nat} {db db' : Db δ}
    {identity : SurfaceIdentity} {pc pc' : ResolvePc}
    (h : resolveStatement mac fails draw now db identity pc = (db', .query pc')) :
    resolveRank pc' < resolveRank pc := by
  unfold resolveStatement at h
  split at h
  · simp at h
  cases pc with
  | selectBound =>
    dsimp only at h
    split at h
    · simp at h
    · obtain ⟨_, hpc⟩ := Prod.mk.inj h
      obtain rfl := Next.query.inj hpc
      decide
  | selectApplication =>
    dsimp only at h
    split at h
    · simp at h
    · obtain ⟨_, hpc⟩ := Prod.mk.inj h
      obtain rfl := Next.query.inj hpc
      decide
  | selectMemberships =>
    dsimp only at h
    split at h
    · simp at h
    all_goals
      obtain ⟨_, hpc⟩ := Prod.mk.inj h
      obtain rfl := Next.query.inj hpc
      simp [resolveRank]
  | insertRequest houseId =>
    dsimp only at h
    split at h <;> simp at h

theorem afterResolve_rank (result : Except HouseholdStoreError HouseStore.SurfaceResolution) :
    pcRank (afterResolve result) ≤ 13 := by
  unfold afterResolve
  split <;> simp [pcRank]

/-- Every step of a call brings it closer to its end. -/
theorem pgTaskStep_rank {e : PgEvent}
    (h : pgTaskStep aead cipher mac engine sh c call e = some (sh', call', seen)) :
    rank call' < rank call := by
  cases e with
  | statement fails draw =>
    simp only [pgTaskStep] at h
    split at h
    next pc hpc hresolve =>
      split at h
      next pc' hquery =>
        obtain ⟨rfl, hrest⟩ := Prod.mk.inj (Option.some.inj h)
        obtain ⟨rfl, rfl⟩ := Prod.mk.inj hrest
        have hlt := resolveStatement_rank (Prod.ext rfl hquery)
        simp only [rank, hresolve, Option.elim_some]
        omega
      next result _ =>
        obtain ⟨rfl, hrest⟩ := Prod.mk.inj (Option.some.inj h)
        obtain ⟨rfl, rfl⟩ := Prod.mk.inj hrest
        have hle := afterResolve_rank result
        have hresolving : pcRank .resolveSurface = 14 := rfl
        simp only [rank, callRank, hpc, hresolving, hresolve, Option.elim_some, Option.elim_none]
        omega
    next => cases h
  | slot outcome nonce =>
    simp only [pgTaskStep] at h
    obtain ⟨houseId, hhouse, h⟩ := Option.bind_eq_some_iff.mp h
    obtain ⟨⟨temp', pc', os⟩, hslot, h⟩ := Option.bind_eq_some_iff.mp h
    obtain ⟨rfl, hrest⟩ := Prod.mk.inj (Option.some.inj h)
    obtain ⟨rfl, rfl⟩ := Prod.mk.inj hrest
    have hlt := pgSlotStep_rank hslot
    simp only [rank, callRank]
    omega
  | mark outcome =>
    simp only [pgTaskStep] at h
    split at h
    next work hpc hwork =>
      split at h <;>
      · obtain ⟨rfl, hrest⟩ := Prod.mk.inj (Option.some.inj h)
        obtain ⟨rfl, rfl⟩ := Prod.mk.inj hrest
        simp only [rank, callRank, hpc, hwork, pcRank, Option.elim_some]
        omega
    next => cases h
  | threadSaved outcome =>
    simp only [pgTaskStep] at h
    obtain ⟨work, hwork, h⟩ := Option.bind_eq_some_iff.mp h
    split at h
    next threadId hpc =>
      split at h <;>
      · obtain ⟨rfl, hrest⟩ := Prod.mk.inj (Option.some.inj h)
        obtain ⟨rfl, rfl⟩ := Prod.mk.inj hrest
        simp only [rank, callRank, hwork, hpc, workRank, Option.elim_some]
        omega
    next => cases h
  | watcherStore outcome nonce =>
    simp only [pgTaskStep] at h
    obtain ⟨work, hwork, h⟩ := Option.bind_eq_some_iff.mp h
    obtain ⟨watcher, hwatcher, h⟩ := Option.bind_eq_some_iff.mp h
    split at h
    case h_3 => cases h
    all_goals
      obtain ⟨rfl, hrest⟩ := Prod.mk.inj (Option.some.inj h)
      obtain ⟨rfl, rfl⟩ := Prod.mk.inj hrest
      simp only [rank, callRank, hwatcher, watcherRank, Option.elim_some]
      omega
  | «local» e =>
    simp only [pgTaskStep] at h
    split at h
    next hlocal =>
      obtain ⟨⟨shared, call'', os⟩, hstep, h⟩ := Option.map_eq_some_iff.mp h
      obtain ⟨rfl, hrest⟩ := Prod.mk.inj h
      obtain ⟨rfl, rfl⟩ := Prod.mk.inj hrest
      have hlt := taskStep_rank (taskStep_sound hstep) hlocal
      simp only [rank]
      omega
    next => cases h

/-! ## A call that is stuck has ended -/

/-- The database executes the statement and the runtime answers. -/
def sound : PgEvent → Bool
  | .statement fails _ => !fails
  | .slot outcome _ | .mark outcome | .threadSaved outcome | .watcherStore outcome _ =>
    outcome = .ok
  | .local (.threadStarted result) | .local (.turned result) => result.isSome
  | .local .panic => false
  | .local _ => true

/-- Nothing fails, and no one gives up waiting. -/
def ordinary : PgEvent → Bool
  | .local .deadline | .local .cancelled => false
  | e => sound e

/-- No ordinary step of the call is possible. -/
def Stuck (aead : Aead) (cipher : StateCipher) (mac : Text → δ) (engine : HouseholdEngine)
    (sh : PgShared δ) (c : CallId) (call : PgCall) : Prop :=
  ∀ e, ordinary e = true → pgTaskStep aead cipher mac engine sh c call e = none

/-- The work goes on until it gives up the lock. -/
theorem Stuck.worked (h : Stuck aead cipher mac engine sh c call) {work : Work}
    (hwork : call.call.work = some work) : work.pc.holdsGuard = false := by
  cases hpc : work.pc with
  | spawned =>
    have hbegin := h (.local .workBegin) rfl
    cases hthread : work.house.codexThreadId <;>
      simp [pgTaskStep, storeless, taskStep, workStep, hwork, hpc, hthread] at hbegin
  | startThread =>
    have hstarted := h (.local (.threadStarted (some []))) rfl
    simp [pgTaskStep, storeless, taskStep, workStep, hwork, hpc] at hstarted
  | saveThreadId threadId =>
    have hsaved := h (.threadSaved .ok) rfl
    simp only [pgTaskStep, hwork, hpc, Option.bind_eq_bind, Option.bind_some] at hsaved
    split at hsaved <;> cases hsaved
  | turn threadId =>
    have hturned := h (.local (.turned (some []))) rfl
    simp [pgTaskStep, storeless, taskStep, workStep, hwork, hpc] at hturned
  | finished | dropped => rfl

theorem Stuck.watched (h : Stuck aead cipher mac engine sh c call) (hformed : Formed call.call)
    {watcher : Watcher} (hwatcher : call.call.watcher = some watcher) : watcher = .done := by
  obtain ⟨_, work, hwork, _⟩ := hformed.watched watcher hwatcher
  have hended := h.worked hwork
  cases watcher with
  | joining =>
    have hjoined := h (.local .watcherJoined) rfl
    cases hpc : work.pc with
    | finished text =>
      cases text <;>
        simp [pgTaskStep, storeless, taskStep, watcherStep, hwork, hwatcher, hpc] at hjoined
    | dropped =>
      simp [pgTaskStep, storeless, taskStep, watcherStep, hwork, hwatcher, hpc] at hjoined
    | _ => simp [hpc, WorkPc.holdsGuard] at hended
  | saveReady text =>
    have hstored := h (.watcherStore .ok zeroNonce) rfl
    simp [pgTaskStep, hwork, hwatcher] at hstored
  | clearPending =>
    have hstored := h (.watcherStore .ok zeroNonce) rfl
    simp [pgTaskStep, hwork, hwatcher] at hstored
  | done => rfl

theorem Stuck.replied (h : Stuck aead cipher mac engine sh c call) (hformed : Formed call.call)
    (hresolving : call.call.pc = .resolveSurface → ∃ pc, call.resolve = some pc) :
    ∃ reply, call.call.pc = .replied reply := by
  cases hpc : call.call.pc with
  | replied reply => exact ⟨reply, rfl⟩
  | resolveSurface =>
    obtain ⟨pc, hresolve⟩ := hresolving hpc
    have hstatement := h (.statement false 0) rfl
    simp only [pgTaskStep, hpc, hresolve] at hstatement
    split at hstatement <;> cases hstatement
  | takeContinuation house =>
    have hslot := h (.slot .ok zeroNonce) rfl
    simp only [pgTaskStep, hpc, Pc.slotHouse, pgSlotStep, Option.bind_eq_bind,
      Option.bind_some] at hslot
    split at hslot <;> cases hslot
  | pollPending house =>
    have hslot := h (.slot .ok zeroNonce) rfl
    simp only [pgTaskStep, hpc, Pc.slotHouse, pgSlotStep, Option.bind_eq_bind,
      Option.bind_some] at hslot
    split at hslot <;> cases hslot
  | saveBack house chunks =>
    have hslot := h (.slot .ok zeroNonce) rfl
    simp only [pgTaskStep, hpc, Pc.slotHouse, pgSlotStep, Option.bind_eq_bind,
      Option.bind_some] at hslot
    split at hslot <;> cases hslot
  | clearReady house text =>
    have hslot := h (.slot .ok zeroNonce) rfl
    simp only [pgTaskStep, hpc, Pc.slotHouse, pgSlotStep, Option.bind_eq_bind,
      Option.bind_some] at hslot
    split at hslot <;> cases hslot
  | shapeAndSave house text source =>
    have hslot := h (.slot .ok zeroNonce) rfl
    simp only [pgTaskStep, hpc, Pc.slotHouse, pgSlotStep, Option.bind_eq_bind,
      Option.bind_some] at hslot
    split at hslot
    · cases hslot
    · cases source <;> cases hslot
  | lockEntry house =>
    have hentry := h (.local .lockEntry) rfl
    cases hlock : sh.locks house.id <;>
      simp [pgTaskStep, storeless, taskStep, requestStep, hpc, PgShared.over, hlock] at hentry
  | tryLock house lock =>
    have htry := h (.local .tryLock) rfl
    cases hlocked : sh.locked lock <;>
      simp [pgTaskStep, storeless, taskStep, requestStep, hpc, PgShared.over, hlocked] at htry
  | awaitWork =>
    obtain ⟨work, hwork, _⟩ := hformed.holds (by rw [hpc]; rfl)
    have hended := h.worked hwork
    have hjoined := h (.local .joined) rfl
    cases hworkPc : work.pc with
    | finished text =>
      cases text <;>
        simp [pgTaskStep, storeless, taskStep, requestStep, hpc, hwork, hworkPc] at hjoined
    | dropped =>
      simp [pgTaskStep, storeless, taskStep, requestStep, hpc, hwork, hworkPc] at hjoined
    | _ => simp [hworkPc, WorkPc.holdsGuard] at hended
  | markThinking =>
    obtain ⟨work, hwork, _⟩ := hformed.holds (by rw [hpc]; rfl)
    have hmark := h (.mark .ok) rfl
    simp only [pgTaskStep, hpc, hwork] at hmark
    split at hmark <;> cases hmark
  | spawnWatcher =>
    obtain ⟨work, hwork, _⟩ := hformed.holds (by rw [hpc]; rfl)
    have hspawn := h (.local .spawnWatcher) rfl
    simp [pgTaskStep, storeless, taskStep, requestStep, hpc, hwork] at hspawn

theorem Stuck.atRest (h : Stuck aead cipher mac engine sh c call) (hformed : Formed call.call)
    (hresolving : call.call.pc = .resolveSurface → ∃ pc, call.resolve = some pc) :
    AtRest call.call where
  replied := h.replied hformed hresolving
  worked _ hwork := h.worked hwork
  watched _ hwatcher := h.watched hformed hwatcher

theorem taskStep_resolving {shared shared' : Shared} {call call' : Call} {e : Event}
    {os : List Obs} (h : TaskStep engine shared c call e shared' call' os)
    (hlocal : storeless e = true) (hpc : call'.pc = .resolveSurface) :
    call.pc = .resolveSurface := by
  cases h <;> first
    | exact hpc
    | (simp at hpc; done)
    | cases hlocal

theorem pgTaskStep_resolving {e : PgEvent}
    (h : pgTaskStep aead cipher mac engine sh c call e = some (sh', call', seen))
    (hbefore : call.call.pc = .resolveSurface → ∃ pc, call.resolve = some pc)
    (hpc : call'.call.pc = .resolveSurface) : ∃ pc, call'.resolve = some pc := by
  cases e with
  | statement fails draw =>
    simp only [pgTaskStep] at h
    split at h
    next =>
      split at h
      next pc' _ =>
        obtain ⟨rfl, hrest⟩ := Prod.mk.inj (Option.some.inj h)
        obtain ⟨rfl, rfl⟩ := Prod.mk.inj hrest
        exact ⟨pc', rfl⟩
      next result _ =>
        obtain ⟨rfl, hrest⟩ := Prod.mk.inj (Option.some.inj h)
        obtain ⟨rfl, rfl⟩ := Prod.mk.inj hrest
        have hle := afterResolve_rank result
        have hpc' : afterResolve result = .resolveSurface := hpc
        rw [hpc'] at hle
        exact absurd hle (by decide)
    next => cases h
  | slot outcome nonce =>
    simp only [pgTaskStep] at h
    obtain ⟨houseId, hhouse, h⟩ := Option.bind_eq_some_iff.mp h
    obtain ⟨⟨temp', pc', os⟩, hslot, h⟩ := Option.bind_eq_some_iff.mp h
    obtain ⟨rfl, hrest⟩ := Prod.mk.inj (Option.some.inj h)
    obtain ⟨rfl, rfl⟩ := Prod.mk.inj hrest
    have hlt := pgSlotStep_rank hslot
    have hpc' : pc' = .resolveSurface := hpc
    have hle : pcRank call.call.pc ≤ 14 := by cases call.call.pc <;> simp [pcRank]
    rw [hpc'] at hlt
    exact absurd (Nat.lt_of_lt_of_le hlt hle) (by decide)
  | mark outcome =>
    simp only [pgTaskStep] at h
    split at h
    · split at h <;>
      · obtain ⟨rfl, hrest⟩ := Prod.mk.inj (Option.some.inj h)
        obtain ⟨rfl, rfl⟩ := Prod.mk.inj hrest
        cases hpc
    · cases h
  | threadSaved outcome =>
    simp only [pgTaskStep] at h
    obtain ⟨work, hwork, h⟩ := Option.bind_eq_some_iff.mp h
    split at h
    · split at h <;>
      · obtain ⟨rfl, hrest⟩ := Prod.mk.inj (Option.some.inj h)
        obtain ⟨rfl, rfl⟩ := Prod.mk.inj hrest
        exact hbefore hpc
    · cases h
  | watcherStore outcome nonce =>
    simp only [pgTaskStep] at h
    obtain ⟨work, hwork, h⟩ := Option.bind_eq_some_iff.mp h
    obtain ⟨watcher, _, h⟩ := Option.bind_eq_some_iff.mp h
    split at h
    case h_3 => cases h
    all_goals
      obtain ⟨rfl, hrest⟩ := Prod.mk.inj (Option.some.inj h)
      obtain ⟨rfl, rfl⟩ := Prod.mk.inj hrest
      exact hbefore hpc
  | «local» e =>
    simp only [pgTaskStep] at h
    split at h
    next hlocal =>
      obtain ⟨⟨shared, call'', os⟩, hstep, h⟩ := Option.map_eq_some_iff.mp h
      obtain ⟨rfl, hrest⟩ := Prod.mk.inj h
      obtain ⟨rfl, rfl⟩ := Prod.mk.inj hrest
      exact hbefore (taskStep_resolving (taskStep_sound hstep) hlocal hpc)
    next => cases h

end Steps

/-! ## Runs -/

def isTaskOf (c : CallId) : PgAction δ → Bool
  | .task c' _ => c' = c
  | _ => false

section Runs

variable [DecidableEq δ] {engine : HouseholdEngine} {mac : Text → δ} {s s' : PgState δ}
  {a : PgAction δ} {seen more : List Seen}

/-- A step of the call costs one of the steps it has left. -/
theorem rankAt_step {c : CallId}
    (h : (pgMachine aead cipher mac engine).step s a = some (s', more)) :
    rankAt c s' + (if isTaskOf c a then 1 else 0) ≤ rankAt c s := by
  dsimp only [pgMachine] at h
  cases a with
  | arrive input =>
    obtain ⟨rfl, rfl⟩ := Prod.mk.inj (Option.some.inj h)
    simp only [rankAt, isTaskOf, Bool.false_eq_true, if_false, Nat.add_zero,
      List.getElem?_append]
    split
    · exact Nat.le_refl _
    next hge =>
      rw [List.getElem?_eq_none (Nat.le_of_not_lt hge)]
      by_cases hzero : c - s.calls.length = 0
      · rw [hzero]
        exact Nat.le_refl _
      · rw [List.getElem?_eq_none (Nat.pos_of_ne_zero hzero)]
  | command command =>
    simp only [pgStep] at h
    split at h
    · obtain ⟨r, _, hr⟩ := Option.map_eq_some_iff.mp h
      obtain ⟨rfl, rfl⟩ := Prod.mk.inj hr
      exact Nat.le_refl _
    · cases h
  | task c' e =>
    simp only [pgStep] at h
    obtain ⟨call, hcall, h⟩ := Option.bind_eq_some_iff.mp h
    obtain ⟨⟨sh', call', os⟩, htask, hr⟩ := Option.bind_eq_some_iff.mp h
    obtain ⟨rfl, rfl⟩ := Prod.mk.inj (Option.some.inj hr)
    by_cases hc : c' = c
    · subst hc
      have hlt := pgTaskStep_rank htask
      obtain ⟨hlen, _⟩ := List.getElem?_eq_some_iff.mp hcall
      simp only [rankAt, isTaskOf, decide_true, if_true, List.getElem?_set_self hlen, hcall,
        Option.elim_some]
      omega
    · simp [rankAt, isTaskOf, hc]

/-- A request that resolves its surface has a statement before it. -/
def Resolving (s : PgState δ) : Prop :=
  ∀ call ∈ s.calls, call.call.pc = .resolveSurface → ∃ pc, call.resolve = some pc

theorem resolving_step (hs : Resolving s)
    (h : (pgMachine aead cipher mac engine).step s a = some (s', more)) : Resolving s' := by
  dsimp only [pgMachine] at h
  cases a with
  | arrive input =>
    obtain ⟨rfl, rfl⟩ := Prod.mk.inj (Option.some.inj h)
    intro call hcall hpc
    rcases List.mem_append.mp hcall with hcall | hcall
    · exact hs call hcall hpc
    · rw [List.mem_singleton.mp hcall]
      exact ⟨_, rfl⟩
  | command command =>
    simp only [pgStep] at h
    split at h
    · obtain ⟨r, _, hr⟩ := Option.map_eq_some_iff.mp h
      obtain ⟨rfl, rfl⟩ := Prod.mk.inj hr
      exact hs
    · cases h
  | task c e =>
    simp only [pgStep] at h
    obtain ⟨call, hcall, h⟩ := Option.bind_eq_some_iff.mp h
    obtain ⟨⟨sh', call', os⟩, htask, hr⟩ := Option.bind_eq_some_iff.mp h
    obtain ⟨rfl, rfl⟩ := Prod.mk.inj (Option.some.inj hr)
    intro other hother hpc
    rcases List.mem_or_eq_of_mem_set hother with hother | rfl
    · exact hs other hother hpc
    · exact pgTaskStep_resolving htask (hs call (List.mem_of_getElem? hcall)) hpc

/-- Where no ordinary step of any task is possible, all is at rest. -/
theorem rests_of_stuck (hlawful : aead.Lawful) {db : Db δ} {temp : TempDb} {clock : Nat}
    {acts : List (PgAction δ)}
    (he : (pgMachine aead cipher mac engine).exec (.start db temp clock) acts = some (s, seen))
    (hstuck : ∀ c e, ordinary e = true →
      (pgMachine aead cipher mac engine).step s (.task c e) = none) :
    (∀ call ∈ s.calls, AtRest call.call) ∧ ∀ lock, s.shared.locked lock = false := by
  obtain ⟨_, _, last, _, hrun, _⟩ := pg_house_matched hlawful he
  obtain ⟨hlocks, hformed⟩ := lockInv hrun
  have hresolving : Resolving s :=
    Machine.exec_invariant_free (fun s _ => Resolving s) (fun hs h => resolving_step hs h)
      (by simp [Resolving, PgState.start]) he
  have hrest : ∀ call ∈ s.calls, AtRest call.call := by
    intro call hmem
    obtain ⟨c, hcall⟩ := List.mem_iff_getElem?.mp hmem
    have hstep : Stuck aead cipher mac engine s.shared c call := by
      intro e hordinary
      have hnone := hstuck c e hordinary
      simp only [pgMachine, pgStep, hcall, Option.bind_eq_bind, Option.bind_some] at hnone
      cases htask : pgTaskStep aead cipher mac engine s.shared c call e with
      | none => rfl
      | some r =>
        rw [htask] at hnone
        cases hnone
    exact hstep.atRest (hformed (c := c) (by simp [hcall])) (hresolving call hmem)
  refine ⟨hrest, fun lock => Bool.eq_false_iff.mpr fun hlocked => ?_⟩
  obtain ⟨c, house, call, hcall, hguard⟩ := hlocks.held hlocked
  obtain ⟨pgCall, hmem, rfl⟩ := List.mem_map.mp (List.mem_of_getElem? hcall)
  obtain ⟨work, hwork, hheld⟩ := Option.bind_eq_some_iff.mp hguard
  have hended := (hrest pgCall hmem).worked work hwork
  simp [hended] at hheld

/-- No call takes more than 17 steps. When no ordinary step of any task is possible any
more, every request has its reply, no work or watcher is left and no house is locked. -/
theorem comes_to_rest (hlawful : aead.Lawful) {db : Db δ} {temp : TempDb} {clock : Nat}
    {acts : List (PgAction δ)}
    (he : (pgMachine aead cipher mac engine).exec (.start db temp clock) acts = some (s, seen)) :
    (∀ c, acts.countP (isTaskOf c) ≤ 17) ∧
      ((∀ c e, ordinary e = true →
          (pgMachine aead cipher mac engine).step s (.task c e) = none) →
        (∀ call ∈ s.calls, AtRest call.call) ∧ ∀ lock, s.shared.locked lock = false) := by
  refine ⟨fun c => ?_, rests_of_stuck hlawful he⟩
  have hpays := Machine.exec_pays (f := rankAt c) (p := isTaskOf c) rankAt_step he
  have hstart : rankAt c (PgState.start db temp clock) = 17 := rfl
  omega

/-- Calls without a step left take none. -/
theorem no_step_left (h : ∀ call ∈ s.calls, rank call = 0) (c : CallId) (e : PgEvent) :
    (pgMachine aead cipher mac engine).step s (.task c e) = none := by
  cases hstep : (pgMachine aead cipher mac engine).step s (.task c e) with
  | none => rfl
  | some r =>
    obtain ⟨call, hcall, hrest⟩ := Option.bind_eq_some_iff.mp hstep
    obtain ⟨⟨sh', call', os⟩, htask, _⟩ := Option.bind_eq_some_iff.mp hrest
    have hlt := pgTaskStep_rank htask
    rw [h call (List.mem_of_getElem? hcall)] at hlt
    exact absurd hlt (Nat.not_lt_zero _)

theorem comes_to_rest_evening :
    ∃ s seen, (pgMachine plainAead zeroCipher (id : Text → Text) ⟨⟨850, by decide⟩, false⟩).exec
        (.start Db.empty TempDb.empty 0) evening = some (s, seen) ∧
      evening.countP (isTaskOf 1) ≤ 17 ∧ (∀ call ∈ s.calls, AtRest call.call) ∧
      ∀ lock, s.shared.locked lock = false := by
  have hrun : ((pgMachine plainAead zeroCipher (id : Text → Text) ⟨⟨850, by decide⟩, false⟩).exec
      (.start Db.empty TempDb.empty 0) evening).map
      (fun r => decide (∀ call ∈ r.1.calls, rank call = 0)) = some true := by decide +kernel
  obtain ⟨⟨s, seen⟩, hexec, hranks⟩ := Option.map_eq_some_iff.mp hrun
  obtain ⟨hcount, hrest⟩ := comes_to_rest plainAead_lawful hexec
  obtain ⟨hcalls, hlocks⟩ := hrest fun c e _ => no_step_left (of_decide_eq_true hranks) c e
  exact ⟨s, seen, hexec, hcount 1, hcalls, hlocks⟩

end Runs

end AliceBridge.Server.PgProgress
