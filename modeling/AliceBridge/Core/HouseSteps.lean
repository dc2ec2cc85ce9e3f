import AliceBridge.Core.HouseEngine

/-! # What a step of the household engine can do

The inversion of `step`: `TaskStep` has one rule for each thing a task of a call
can do, `step_cases` lifts it to states. Every invariant of the engine is proved
from these two and never unfolds the step functions. -/
namespace AliceBridge.Core.HouseSteps
open AliceBridge.Lib.Utf8 AliceBridge.Lib.Run AliceBridge.Core.Reply AliceBridge.Core.Household
open AliceBridge.Core.HouseEngine

/-! ## Slot operations -/

section Slot

variable (shaper : ReplyShaper) (input : HouseholdInput) (slots : Slots)

/-- What an operation writes when it takes effect. -/
def slotEffect : Pc → Slots
  | .takeContinuation _ => slots.clearContinuation
  | .saveBack _ chunks => slots.saveContinuation chunks
  | .shapeAndSave _ text _ => slots.saveContinuation (shaper.split text).remaining
  | .clearReady _ _ => slots.clearPending
  | _ => slots

inductive SlotStep : Pc → Outcome → Pc → Slots → Prop
  | failed {pc : Pc} {house : HouseId} {applied : Bool} : pc.slotHouse = some house →
      SlotStep pc (.err applied) (.replied .internalError)
        (if applied then slotEffect shaper slots pc else slots)
  | taken {house : HouseContext} {chunks : List Text} : slots.continuation = some chunks →
      SlotStep (.takeContinuation house) .ok (answerContinuation house.id input.utterance chunks)
        slots.clearContinuation
  | nothingTaken {house : HouseContext} : slots.continuation = none →
      SlotStep (.takeContinuation house) .ok (.pollPending house) slots
  | savedBack {house : HouseId} {chunks : List Text} :
      SlotStep (.saveBack house chunks) .ok (.replied (.say askAgain))
        (slots.saveContinuation chunks)
  | shaped {house : HouseId} {text : Text} {source : Source} : source ≠ .ready →
      SlotStep (.shapeAndSave house text source) .ok (.replied (.say (shaper.split text).spoken))
        (slots.saveContinuation (shaper.split text).remaining)
  | shapedReady {house : HouseId} {text : Text} :
      SlotStep (.shapeAndSave house text .ready) .ok (.clearReady house text)
        (slots.saveContinuation (shaper.split text).remaining)
  | cleared {house : HouseId} {text : Text} :
      SlotStep (.clearReady house text) .ok (.replied (.say (shaper.split text).spoken))
        slots.clearPending
  | polledReady {house : HouseContext} {text : Text} : slots.pending = .ready text →
      SlotStep (.pollPending house) .ok (.shapeAndSave house.id text .ready) slots
  | polledThinking {house : HouseContext} : slots.pending = .thinking →
      SlotStep (.pollPending house) .ok (.replied (.say stillThinking)) slots
  | polledNone {house : HouseContext} : slots.pending = .none →
      SlotStep (.pollPending house) .ok (afterPoll input house) slots

variable {shaper input slots}

theorem slotStep_sound {pc pc' : Pc} {slots' : Slots} {outcome : Outcome}
    (h : slotStep shaper input slots pc outcome = some (pc', slots')) :
    SlotStep shaper input slots pc outcome pc' slots' := by
  unfold slotStep at h
  split at h
  · split at h <;> obtain ⟨rfl, rfl⟩ := by simpa using h
    · exact .taken ‹_›
    · exact .nothingTaken ‹_›
  · obtain ⟨rfl, rfl⟩ := by simpa using h
    exact .failed rfl
  · obtain ⟨rfl, rfl⟩ := by simpa using h
    exact .savedBack
  · obtain ⟨rfl, rfl⟩ := by simpa using h
    exact .failed rfl
  · split at h <;> obtain ⟨rfl, rfl⟩ := by simpa using h
    · exact .shapedReady
    · exact .shaped ‹_›
  · obtain ⟨rfl, rfl⟩ := by simpa using h
    exact .failed rfl
  · obtain ⟨rfl, rfl⟩ := by simpa using h
    exact .cleared
  · obtain ⟨rfl, rfl⟩ := by simpa using h
    exact .failed rfl
  · split at h <;> obtain ⟨rfl, rfl⟩ := by simpa using h
    · exact .polledReady ‹_›
    · exact .polledThinking ‹_›
    · exact .polledNone ‹_›
  · next house applied =>
    obtain ⟨rfl, rfl⟩ := by simpa using h
    have hfail : SlotStep shaper input slots (.pollPending house) (.err applied)
        (.replied .internalError) (if applied then slots else slots) := .failed rfl
    rwa [ite_self] at hfail
  · cases h

/-- A slot operation keeps the request on its surface until it replies or takes the lock. -/
theorem SlotStep.house {pc pc' : Pc} {slots' : Slots} {outcome : Outcome} {houseId : HouseId}
    (h : SlotStep shaper input slots pc outcome pc' slots') (hh : pc.slotHouse = some houseId) :
    pc'.slotHouse = some houseId ∨ (∃ reply, pc' = .replied reply) ∨
      ∃ ctx : HouseContext, pc' = .lockEntry ctx ∧ ctx.id = houseId := by
  cases h with
  | taken _ =>
    unfold answerContinuation
    split <;> simp_all [Pc.slotHouse]
  | polledNone _ =>
    unfold afterPoll
    split <;> simp_all [Pc.slotHouse]
  | _ => simp_all [Pc.slotHouse]

/-- What a slot operation can show of itself. -/
def Obs.ofSlot : Obs → Bool
  | .shaped .. | .spoke .. | .refused .. => true
  | _ => false

theorem slotObs_ofSlot {c : CallId} {app : Text} {pc : Pc} {outcome : Outcome} :
    ∀ o ∈ slotObs c app input slots pc outcome, Obs.ofSlot o = true := by
  unfold slotObs
  split
  · split
    · split <;> simp [Obs.ofSlot]
    · simp
  all_goals simp [Obs.ofSlot]

theorem mem_slot {c : CallId} {app : Text} {house : HouseId} {pc pc' : Pc} {outcome : Outcome}
    {o : Obs} (h : o ∈ .touched c house app ::
      (slotObs c app input slots pc outcome ++ replyObs c app house pc')) :
    o = .touched c house app ∨ o ∈ slotObs c app input slots pc outcome ∨
      ∃ reply, o = .reply c app house reply := by
  rcases List.mem_cons.mp h with h | h
  · exact .inl h
  · rcases List.mem_append.mp h with h | h
    · exact .inr (.inl h)
    · unfold replyObs at h
      split at h
      · exact .inr (.inr ⟨_, List.mem_singleton.mp h⟩)
      · cases h

/-- A slot operation shows a reply exactly when it leads to one. -/
theorem reply_mem_slot {c c' : CallId} {app app' : Text} {house : HouseId} {h : Option HouseId}
    {pc pc' : Pc} {outcome : Outcome} {reply : HouseholdReply} :
    .reply c' app' h reply ∈ .touched c house app ::
        (slotObs c app input slots pc outcome ++ replyObs c app house pc') ↔
      c' = c ∧ app' = app ∧ h = some house ∧ pc' = .replied reply := by
  have hno : Obs.reply c' app' h reply ∉ slotObs c app input slots pc outcome :=
    fun hmem => Bool.noConfusion (slotObs_ofSlot _ hmem)
  simp only [List.mem_cons, List.mem_append, hno, reduceCtorEq, false_or]
  unfold replyObs
  split
  · simp only [List.mem_singleton, Obs.reply.injEq, Pc.replied.injEq]
    grind
  · simp_all

end Slot

/-! ## Task steps -/

section Rules

variable (engine : HouseholdEngine) (sh : Shared) (c : CallId) (call : Call)

inductive TaskStep : Event → Shared → Call → List Obs → Prop
  | bound {house : HouseId} {row : HouseRow} : call.pc = .resolveSurface →
      sh.store.houses house = some row →
      TaskStep (.resolve (.bound house)) sh
        { call with pc := .takeContinuation (row.context house) } []
  | unbound {resolution : Resolution} {reply : HouseholdReply} : call.pc = .resolveSurface →
      (∀ house, resolution ≠ .bound house) → (∀ text, reply ≠ .say text) → reply ≠ .busy →
      TaskStep (.resolve resolution) sh { call with pc := .replied reply }
        [.reply c call.app none reply]
  | slot {house : HouseId} {pc : Pc} {slots : Slots} {outcome : Outcome} :
      call.pc.slotHouse = some house →
      SlotStep engine.shaper call.input (sh.slots house call.app) call.pc outcome pc slots →
      TaskStep (.slot outcome) (sh.setSlots house call.app slots) { call with pc := pc }
        (.touched c house call.app ::
          (slotObs c call.app call.input (sh.slots house call.app) call.pc outcome ++
            replyObs c call.app house pc))
  | lockFound {house : HouseContext} {lock : LockId} : call.pc = .lockEntry house →
      sh.locks house.id = some lock →
      TaskStep .lockEntry sh { call with pc := .tryLock house lock } []
  | lockMade {house : HouseContext} : call.pc = .lockEntry house → sh.locks house.id = none →
      TaskStep .lockEntry
        { sh with
          locks := fun h => if h = house.id then some sh.nextLock else sh.locks h
          nextLock := sh.nextLock + 1 }
        { call with pc := .tryLock house sh.nextLock } []
  | busy {house : HouseContext} {lock : LockId} : call.pc = .tryLock house lock →
      sh.locked lock = true →
      TaskStep .tryLock sh { call with pc := .replied .busy } [.reply c call.app house.id .busy]
  | locked {house : HouseContext} {lock : LockId} {work : Work} : call.pc = .tryLock house lock →
      sh.locked lock = false → work.house = house → work.lock = lock →
      work.utterance = call.input.utterance → work.aborting = false → work.pc = .spawned →
      TaskStep .tryLock (sh.setLocked lock true)
        { call with pc := .awaitWork, work := some work } []
  | joinedText {work : Work} {text : Text} : call.pc = .awaitWork → call.work = some work →
      work.pc = .finished (some text) →
      TaskStep .joined sh { call with pc := .shapeAndSave work.house.id text .fresh } []
  | joinedLost {work : Work} : call.pc = .awaitWork → call.work = some work →
      (work.pc = .finished none ∨ work.pc = .dropped) →
      TaskStep .joined sh { call with pc := .replied .internalError }
        [.reply c call.app work.house.id .internalError]
  | deadline : call.pc = .awaitWork → TaskStep .deadline sh { call with pc := .markThinking } []
  | marked {work : Work} : call.pc = .markThinking → call.work = some work →
      TaskStep (.mark .ok)
        (sh.setSlots work.house.id call.app (sh.slots work.house.id call.app).markThinking)
        { call with pc := .spawnWatcher } [.touched c work.house.id call.app]
  | markFailed {work : Work} {slots : Slots} {applied : Bool} : call.pc = .markThinking →
      call.work = some work →
      slots.continuation = (sh.slots work.house.id call.app).continuation →
      (slots.pending = .thinking ∨ slots.pending = (sh.slots work.house.id call.app).pending) →
      TaskStep (.mark (.err applied)) (sh.setSlots work.house.id call.app slots)
        { call with pc := .replied .internalError, work := some { work with aborting := true } }
        [.touched c work.house.id call.app, .reply c call.app work.house.id .internalError]
  | watch {work : Work} : call.pc = .spawnWatcher → call.work = some work →
      TaskStep .spawnWatcher sh
        { call with pc := .replied (.say stillThinking), watcher := some .joining }
        [.reply c call.app work.house.id (.say stillThinking)]
  | turnKnown {work : Work} {threadId : Text} : call.work = some work → work.pc = .spawned →
      work.house.codexThreadId = some threadId →
      TaskStep .workBegin sh { call with work := some { work with pc := .turn threadId } }
        [.turn c work.house.id threadId work.utterance]
  | startCalled {work : Work} : call.work = some work → work.pc = .spawned →
      work.house.codexThreadId = none →
      TaskStep .workBegin sh { call with work := some { work with pc := .startThread } }
        [.startThread c work.house.id work.instructions]
  | started {work : Work} {threadId : Text} : call.work = some work → work.pc = .startThread →
      TaskStep (.threadStarted (some threadId)) sh
        { call with work := some { work with pc := .saveThreadId threadId } }
        [.threadStarted c work.house.id threadId]
  | saved {work : Work} {threadId : Text} {store : Store} : call.work = some work →
      work.pc = .saveThreadId threadId →
      sh.store.saveThreadId work.house.id threadId = some store →
      TaskStep (.threadSaved .ok) { sh with store := store }
        { call with work := some { work with pc := .turn threadId } }
        [.turn c work.house.id threadId work.utterance]
  | saveFailed {work : Work} {threadId : Text} {store : Store} {outcome : Outcome} :
      call.work = some work → work.pc = .saveThreadId threadId →
      (store = sh.store ∧
          (outcome = .ok → sh.store.saveThreadId work.house.id threadId = none) ∨
        outcome = .err true ∧ sh.store.saveThreadId work.house.id threadId = some store) →
      TaskStep (.threadSaved outcome) (release { sh with store := store } work)
        { call with work := some { work with pc := .finished none } } []
  | answered {work : Work} {threadId text : Text} : call.work = some work →
      work.pc = .turn threadId →
      TaskStep (.turned (some text)) (release sh work)
        { call with work := some { work with pc := .finished (some text) } }
        [.answer c work.house.id call.app text]
  | runtimeFailed {work : Work} {e : Event} : call.work = some work → work.pc.inCall = true →
      (e = .threadStarted none ∨ e = .turned none) →
      TaskStep e (release sh work) { call with work := some { work with pc := .finished none } } []
  | dropped {work : Work} {e : Event} : call.work = some work → work.pc.holdsGuard = true →
      (e = .panic ∨ e = .cancelled ∧ work.aborting = true) →
      TaskStep e (release sh work) { call with work := some { work with pc := .dropped } } []
  | watcherText {work : Work} {text : Text} : call.work = some work →
      call.watcher = some .joining → work.pc = .finished (some text) →
      TaskStep .watcherJoined sh { call with watcher := some (.saveReady text) } []
  | watcherLost {work : Work} : call.work = some work → call.watcher = some .joining →
      (work.pc = .finished none ∨ work.pc = .dropped) →
      TaskStep .watcherJoined sh { call with watcher := some .clearPending } []
  | readySaved {work : Work} {text : Text} {outcome : Outcome} : call.work = some work →
      call.watcher = some (.saveReady text) →
      TaskStep (.watcherStore outcome)
        (sh.setSlots work.house.id call.app
          (if outcome.applies then (sh.slots work.house.id call.app).saveReady text
            else sh.slots work.house.id call.app))
        { call with watcher := some .done } [.touched c work.house.id call.app]
  | pendingCleared {work : Work} {outcome : Outcome} : call.work = some work →
      call.watcher = some .clearPending →
      TaskStep (.watcherStore outcome)
        (sh.setSlots work.house.id call.app
          (if outcome.applies then (sh.slots work.house.id call.app).clearPending
            else sh.slots work.house.id call.app))
        { call with watcher := some .done } [.touched c work.house.id call.app]

end Rules

variable {engine : HouseholdEngine} {sh sh' : Shared} {c : CallId} {call call' : Call} {e : Event}
  {os : List Obs}

theorem requestStep_sound (h : requestStep engine sh c call e = some (sh', call', os)) :
    TaskStep engine sh c call e sh' call' os := by
  cases e with
  | resolve resolution =>
    simp only [requestStep] at h
    split at h
    · next house hpc =>
      obtain ⟨row, hrow, he⟩ := Option.map_eq_some_iff.mp h
      obtain ⟨rfl, rfl, rfl⟩ := by simpa using he
      exact .bound hpc hrow
    case h_5 => cases h
    all_goals
      next hpc =>
        obtain ⟨rfl, rfl, rfl⟩ := by simpa using h
        exact .unbound hpc (by simp) (by simp) (by simp)
  | slot outcome =>
    simp only [requestStep, bind, Option.bind_eq_some_iff] at h
    obtain ⟨house, hh, ⟨pc, slots⟩, hs, he⟩ := h
    obtain ⟨rfl, rfl, rfl⟩ := by simpa using he
    exact .slot hh (slotStep_sound hs)
  | lockEntry =>
    simp only [requestStep] at h
    split at h
    · next house hpc =>
      split at h
      · next lock hl =>
        obtain ⟨rfl, rfl, rfl⟩ := by simpa using h
        exact .lockFound hpc hl
      · next hl =>
        obtain ⟨rfl, rfl, rfl⟩ := by simpa using h
        exact .lockMade hpc hl
    · cases h
  | tryLock =>
    simp only [requestStep] at h
    split at h
    · next house lock hpc =>
      split at h
      · next hl =>
        obtain ⟨rfl, rfl, rfl⟩ := by simpa using h
        exact .busy hpc hl
      · next hl =>
        obtain ⟨rfl, rfl, rfl⟩ := by simpa using h
        refine .locked hpc (by simpa using hl) ?_ ?_ ?_ ?_ ?_ <;> rfl
    · cases h
  | joined =>
    simp only [requestStep] at h
    split at h
    · next work hpc hw =>
      split at h
      · next text hf =>
        obtain ⟨rfl, rfl, rfl⟩ := by simpa using h
        exact .joinedText hpc hw hf
      · next hf =>
        obtain ⟨rfl, rfl, rfl⟩ := by simpa using h
        exact .joinedLost hpc hw (.inl hf)
      · next hf =>
        obtain ⟨rfl, rfl, rfl⟩ := by simpa using h
        exact .joinedLost hpc hw (.inr hf)
      · cases h
    · cases h
  | deadline =>
    simp only [requestStep] at h
    split at h
    · next hpc =>
      obtain ⟨rfl, rfl, rfl⟩ := by simpa using h
      exact .deadline hpc
    · cases h
  | mark outcome =>
    simp only [requestStep] at h
    split at h
    · next work hpc hw =>
      split at h
      · obtain ⟨rfl, rfl, rfl⟩ := by simpa using h
        exact .marked hpc hw
      · next applied =>
        obtain ⟨rfl, rfl, rfl⟩ := by simpa using h
        refine .markFailed hpc hw ?_ ?_ <;> cases applied <;>
          simp [Outcome.applies, Slots.markThinking]
    · cases h
  | spawnWatcher =>
    simp only [requestStep] at h
    split at h
    · next work hpc hw =>
      obtain ⟨rfl, rfl, rfl⟩ := by simpa using h
      exact .watch hpc hw
    · cases h
  | _ => simp [requestStep] at h

theorem workStep_sound {work : Work} {work' : Work} (hw : call.work = some work)
    (h : workStep sh c call.app work e = some (sh', work', os)) :
    TaskStep engine sh c call e sh' { call with work := some work' } os := by
  cases e with
  | workBegin =>
    simp only [workStep] at h
    split at h
    · next threadId hpc ht =>
      obtain ⟨rfl, rfl, rfl⟩ := by simpa using h
      exact .turnKnown hw hpc ht
    · next hpc ht =>
      obtain ⟨rfl, rfl, rfl⟩ := by simpa using h
      exact .startCalled hw hpc ht
    · cases h
  | threadStarted result =>
    simp only [workStep] at h
    split at h
    · next threadId hpc =>
      obtain ⟨rfl, rfl, rfl⟩ := by simpa using h
      exact .started hw hpc
    · next hpc =>
      obtain ⟨rfl, rfl, rfl⟩ := by simpa using h
      exact .runtimeFailed hw (by simp [hpc, WorkPc.inCall]) (.inl rfl)
    · cases h
  | threadSaved outcome =>
    simp only [workStep] at h
    split at h
    · next threadId hpc =>
      split at h
      · next store hs =>
        obtain ⟨rfl, rfl, rfl⟩ := by simpa using h
        exact .saved hw hpc hs
      · next store hs =>
        obtain ⟨rfl, rfl, rfl⟩ := by simpa using h
        exact .saveFailed hw hpc (.inr ⟨rfl, hs⟩)
      · next hok _ =>
        obtain ⟨rfl, rfl, rfl⟩ := by simpa using h
        refine .saveFailed hw hpc (.inl ⟨rfl, fun ho => ?_⟩)
        cases hs : sh.store.saveThreadId work.house.id threadId with
        | none => rfl
        | some store => exact absurd ho (hok store hs)
    · cases h
  | turned result =>
    simp only [workStep] at h
    split at h
    · next threadId text hpc =>
      obtain ⟨rfl, rfl, rfl⟩ := by simpa using h
      exact .answered hw hpc
    · next threadId hpc =>
      obtain ⟨rfl, rfl, rfl⟩ := by simpa using h
      exact .runtimeFailed hw (by simp [hpc, WorkPc.inCall]) (.inr rfl)
    · cases h
  | panic =>
    simp only [workStep] at h
    split at h
    · next hg =>
      obtain ⟨rfl, rfl, rfl⟩ := by simpa using h
      exact .dropped hw hg (.inl rfl)
    · cases h
  | cancelled =>
    simp only [workStep] at h
    split at h
    · next hg =>
      obtain ⟨rfl, rfl, rfl⟩ := by simpa using h
      rw [Bool.and_eq_true] at hg
      exact .dropped hw hg.2 (.inr ⟨rfl, hg.1⟩)
    · cases h
  | _ => simp [workStep] at h

theorem watcherStep_sound {work : Work} {watcher watcher' : Watcher} (hw : call.work = some work)
    (hv : call.watcher = some watcher)
    (h : watcherStep sh c call.app work watcher e = some (sh', watcher', os)) :
    TaskStep engine sh c call e sh' { call with watcher := some watcher' } os := by
  cases e with
  | watcherJoined =>
    simp only [watcherStep] at h
    split at h
    · next text hpc =>
      obtain ⟨rfl, rfl, rfl⟩ := by simpa using h
      exact .watcherText hw hv hpc
    · next hpc =>
      obtain ⟨rfl, rfl, rfl⟩ := by simpa using h
      exact .watcherLost hw hv (.inl hpc)
    · next hpc =>
      obtain ⟨rfl, rfl, rfl⟩ := by simpa using h
      exact .watcherLost hw hv (.inr hpc)
    · cases h
  | watcherStore outcome =>
    simp only [watcherStep] at h
    split at h
    · next text =>
      obtain ⟨rfl, rfl, rfl⟩ := by simpa using h
      exact .readySaved hw hv
    · obtain ⟨rfl, rfl, rfl⟩ := by simpa using h
      exact .pendingCleared hw hv
    · cases h
  | _ => simp [watcherStep] at h

theorem taskStep_sound (h : taskStep engine sh c call e = some (sh', call', os)) :
    TaskStep engine sh c call e sh' call' os := by
  unfold taskStep at h
  split at h
  case h_7 | h_8 =>
    simp only [bind, Option.bind_eq_some_iff] at h
    obtain ⟨work, hw, watcher, hv, ⟨sh₁, watcher₁, os₁⟩, hs, he⟩ := h
    obtain ⟨rfl, rfl, rfl⟩ := by simpa using he
    exact watcherStep_sound hw hv hs
  case h_9 => exact requestStep_sound h
  all_goals
    simp only [bind, Option.bind_eq_some_iff] at h
    obtain ⟨work, hw, ⟨sh₁, work₁, os₁⟩, hs, he⟩ := h
    obtain ⟨rfl, rfl, rfl⟩ := by simpa using he
    exact workStep_sound hw hs

/-- All a step can do: a request arrives, one task of one call does one thing,
or an entry expires. -/
theorem step_cases {s s' : State} {a : Action} (h : step engine s a = some (s', os)) :
    (∃ input, a = .arrive input ∧ os = [] ∧
      s' = { s with calls := s.calls ++ [⟨input, .resolveSurface, none, none⟩] }) ∨
    (∃ c e call sh call', a = .task c e ∧ s.calls[c]? = some call ∧
      TaskStep engine s.shared c call e sh call' os ∧
      s' = { shared := sh, calls := s.calls.set c call' }) ∨
    (∃ house app slots, os = [] ∧ s' = { s with shared := s.shared.setSlots house app slots } ∧
      (a = .expirePending house app ∧ slots = (s.shared.slots house app).clearPending ∨
        a = .expireContinuation house app ∧
          slots = (s.shared.slots house app).clearContinuation)) := by
  cases a with
  | arrive input =>
    obtain ⟨rfl, rfl⟩ := by simpa [step] using h
    exact .inl ⟨input, rfl, rfl, rfl⟩
  | task c e =>
    simp only [step, bind, Option.bind_eq_some_iff] at h
    obtain ⟨call, hc, ⟨sh, call', os'⟩, ht, he⟩ := h
    obtain ⟨rfl, rfl⟩ := by simpa using he
    exact .inr (.inl ⟨c, e, call, sh, call', rfl, hc, taskStep_sound ht, rfl⟩)
  | expirePending house app =>
    obtain ⟨rfl, rfl⟩ := by simpa [step] using h
    exact .inr (.inr ⟨house, app, _, rfl, rfl, .inl ⟨rfl, rfl⟩⟩)
  | expireContinuation house app =>
    obtain ⟨rfl, rfl⟩ := by simpa [step] using h
    exact .inr (.inr ⟨house, app, _, rfl, rfl, .inr ⟨rfl, rfl⟩⟩)

end AliceBridge.Core.HouseSteps
