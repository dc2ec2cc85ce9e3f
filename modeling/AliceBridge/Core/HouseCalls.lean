import AliceBridge.Core.HouseSteps

/-! # The shape of a call

A call keeps its request, its work and its watcher in step: no work before the
lock is taken, a watcher only behind a reply, a text only behind a finished
work. `Formed` says so of one call; `run_invariant` is the induction on runs, in
which every call is formed. -/
namespace AliceBridge.Core.HouseCalls
open AliceBridge.Lib.Utf8 AliceBridge.Lib.Run AliceBridge.Core.Reply AliceBridge.Core.Household
open AliceBridge.Core.HouseEngine AliceBridge.Core.HouseSteps

/-! ## Calls of a state -/

theorem getElem?_set_cases {α : Type} {xs : List α} {x y : α} {i j : Nat}
    (h : (xs.set i x)[j]? = some y) : (j = i ∧ y = x) ∨ (j ≠ i ∧ xs[j]? = some y) := by
  rw [List.getElem?_set] at h
  split at h
  · split at h
    · exact .inl ⟨by omega, (Option.some.inj h).symm⟩
    · cases h
  · exact .inr ⟨by omega, h⟩

theorem getElem?_concat_cases {α : Type} {xs : List α} {x y : α} {j : Nat}
    (h : (xs ++ [x])[j]? = some y) : (j = xs.length ∧ y = x) ∨ xs[j]? = some y := by
  rw [List.getElem?_append] at h
  split at h
  · exact .inr h
  · obtain ⟨hj, rfl⟩ : j - xs.length = 0 ∧ x = y := by simpa [List.getElem?_singleton] using h
    exact .inl ⟨by omega, rfl⟩

theorem getElem?_set_self {α : Type} {xs : List α} {x y : α} {i : Nat} (h : xs[i]? = some y) :
    (xs.set i x)[i]? = some x := by
  simp [(List.getElem?_eq_some_iff.mp h).1]

section Rules

variable {engine : HouseholdEngine} {sh sh' : Shared} {s s' : State} {c : CallId}
  {call call' : Call} {e : Event} {a : Action} {os : List Obs}

theorem input_step (ht : TaskStep engine sh c call e sh' call' os) : call'.input = call.input := by
  cases ht <;> rfl

/-! ## Formed calls -/

/-- The request has not taken the house lock. -/
def Pc.beforeWork : Pc → Bool
  | .resolveSurface | .takeContinuation _ | .saveBack _ _ | .shapeAndSave _ _ .continuation
  | .shapeAndSave _ _ .ready | .clearReady _ _ | .pollPending _
  | .lockEntry _ | .tryLock _ _ => true
  | _ => false

/-- The request holds the join handle of its work. -/
def Pc.holdsWork : Pc → Bool
  | .awaitWork | .markThinking | .spawnWatcher => true
  | _ => false

structure Formed (call : Call) : Prop where
  before : Pc.beforeWork call.pc = true → call.work = none
  holds : Pc.holdsWork call.pc = true → ∃ work, call.work = some work ∧ work.aborting = false
  fresh : ∀ house text, call.pc = .shapeAndSave house text .fresh →
    ∃ work, call.work = some work ∧ work.house.id = house ∧ work.pc = .finished (some text)
  watched : ∀ watcher, call.watcher = some watcher →
    call.pc = .replied (.say stillThinking) ∧ ∃ work, call.work = some work ∧ work.aborting = false
  saving : ∀ text, call.watcher = some (.saveReady text) →
    ∃ work, call.work = some work ∧ work.pc = .finished (some text)

/-- Where a slot operation leads: to its reply, or on up to the lock map. -/
theorem slotStep_next {shaper : ReplyShaper} {input : HouseholdInput} {slots slots' : Slots}
    {pc pc' : Pc} {outcome : Outcome} (h : SlotStep shaper input slots pc outcome pc' slots') :
    (∃ reply, pc' = .replied reply) ∨ (Pc.beforeWork pc = true ∧ Pc.beforeWork pc' = true ∧
      ∀ house lock, pc' ≠ .tryLock house lock) := by
  cases h with
  | taken _ =>
    unfold answerContinuation
    split <;> simp [Pc.beforeWork]
  | polledNone _ =>
    unfold afterPoll
    split <;> simp [Pc.beforeWork]
  | _ => simp [Pc.beforeWork]

theorem inCall_holdsGuard {pc : WorkPc} (h : pc.inCall = true) : pc.holdsGuard = true := by
  cases pc <;> simp_all [WorkPc.inCall, WorkPc.holdsGuard]

section Keep

variable (h : Formed call)
include h

/-- Only a request that has replied has a watcher. -/
theorem Formed.no_watcher (hpc : ∀ reply, call.pc ≠ .replied reply) : call.watcher = none := by
  cases hv : call.watcher with
  | none => rfl
  | some watcher => exact absurd (h.watched watcher hv).1 (hpc _)

theorem Formed.ahead {pc : Pc} (hpc : Pc.beforeWork call.pc = true)
    (hpc' : Pc.beforeWork pc = true) :
    Formed { call with pc := pc } := by
  have hw := h.before hpc
  have hv : call.watcher = none := h.no_watcher fun _ hr => by simp [hr, Pc.beforeWork] at hpc
  refine ⟨fun _ => hw, ?_, ?_, by simp [hv], by simp [hv]⟩
  · intro hholds
    cases pc <;> simp_all [Pc.beforeWork, Pc.holdsWork]
  · rintro house text rfl
    simp [Pc.beforeWork] at hpc'

theorem Formed.replies {reply : HouseholdReply} (hpc : ∀ reply, call.pc ≠ .replied reply) :
    Formed { call with pc := .replied reply } := by
  have hv := h.no_watcher hpc
  refine ⟨by simp [Pc.beforeWork], by simp [Pc.holdsWork], by simp, by simp [hv], by simp [hv]⟩

/-- A step of the work itself: it is running, so nothing refers to its text yet. -/
theorem Formed.works {work work' : Work} (hw : call.work = some work)
    (hg : work.pc.holdsGuard = true) (ha : work'.aborting = work.aborting) :
    Formed { call with work := some work' } := by
  have running : ∀ text, work.pc ≠ .finished (some text) := by
    intro text he
    simp [he, WorkPc.holdsGuard] at hg
  refine ⟨fun hb => ?_, fun hh => ?_, fun house text hf => ?_, fun watcher hv => ?_,
    fun text hs => ?_⟩
  · simp [h.before hb] at hw
  · obtain ⟨w, hw', hab⟩ := h.holds hh
    obtain rfl := Option.some.inj (hw.symm.trans hw')
    exact ⟨_, rfl, ha.trans hab⟩
  · obtain ⟨w, hw', _, hfin⟩ := h.fresh house text hf
    obtain rfl := Option.some.inj (hw.symm.trans hw')
    exact absurd hfin (running text)
  · obtain ⟨hpc, w, hw', hab⟩ := h.watched watcher hv
    obtain rfl := Option.some.inj (hw.symm.trans hw')
    exact ⟨hpc, _, rfl, ha.trans hab⟩
  · obtain ⟨w, hw', hfin⟩ := h.saving text hs
    obtain rfl := Option.some.inj (hw.symm.trans hw')
    exact absurd hfin (running text)

/-- A step of the watcher. -/
theorem Formed.watches {watcher watcher' : Watcher} (hv : call.watcher = some watcher)
    (hs : ∀ text, watcher' = .saveReady text →
      ∃ work, call.work = some work ∧ work.pc = .finished (some text)) :
    Formed { call with watcher := some watcher' } := by
  refine ⟨h.before, h.holds, h.fresh, ?_, ?_⟩
  · intro _ _
    exact h.watched watcher hv
  · intro text ht
    exact hs text (Option.some.inj ht)

end Keep

theorem formed_step (ht : TaskStep engine sh c call e sh' call' os) (h : Formed call) :
    Formed call' := by
  cases ht with
  | bound hpc _ | lockFound hpc _ | lockMade hpc _ =>
    exact h.ahead (by rw [hpc]; rfl) rfl
  | unbound hpc _ _ _ | busy hpc _ | joinedLost hpc _ _ =>
    exact h.replies (by simp [hpc])
  | slot hh hs =>
    rcases slotStep_next hs with ⟨reply, rfl⟩ | ⟨hb, hb', _⟩
    · exact h.replies fun r hr => by simp [hr, Pc.slotHouse] at hh
    · exact h.ahead hb hb'
  | @locked house lock work hpc _ _ _ _ hab _ =>
    have hv := h.no_watcher (by simp [hpc])
    exact ⟨by simp [Pc.beforeWork], fun _ => ⟨work, rfl, hab⟩, by simp, by simp [hv], by simp [hv]⟩
  | @joinedText work text hpc hw hfin =>
    have hv := h.no_watcher (by simp [hpc])
    refine ⟨by simp [Pc.beforeWork], by simp [Pc.holdsWork], ?_, by simp [hv], by simp [hv]⟩
    rintro house text' ⟨rfl, rfl, _⟩
    exact ⟨work, hw, rfl, hfin⟩
  | deadline hpc | marked hpc _ =>
    have hv := h.no_watcher (by simp [hpc])
    exact ⟨by simp [Pc.beforeWork], fun _ => h.holds (by rw [hpc]; rfl), by simp, by simp [hv],
      by simp [hv]⟩
  | markFailed hpc _ _ _ =>
    have hv := h.no_watcher (by simp [hpc])
    exact ⟨by simp [Pc.beforeWork], by simp [Pc.holdsWork], by simp, by simp [hv], by simp [hv]⟩
  | watch hpc _ =>
    exact ⟨by simp [Pc.beforeWork], by simp [Pc.holdsWork], by simp,
      fun _ _ => ⟨rfl, h.holds (by rw [hpc]; rfl)⟩, by simp⟩
  | turnKnown hw hpc _ | startCalled hw hpc _ | started hw hpc | saved hw hpc _
  | saveFailed hw hpc _ | answered hw hpc =>
    exact h.works hw (by rw [hpc]; rfl) rfl
  | runtimeFailed hw hin _ => exact h.works hw (inCall_holdsGuard hin) rfl
  | dropped hw hg _ => exact h.works hw hg rfl
  | watcherText hw hv hfin =>
    refine h.watches hv fun text ht => ⟨_, hw, ?_⟩
    obtain rfl := Watcher.saveReady.inj ht
    exact hfin
  | watcherLost _ hv _ | readySaved _ hv | pendingCleared _ hv => exact h.watches hv (by simp)

/-! ## Invariants of runs -/

theorem formed_calls (hs : ∀ {c : CallId} {call : Call}, s.calls[c]? = some call → Formed call)
    (hstep : step engine s a = some (s', os)) {c : CallId} {call : Call}
    (hc : s'.calls[c]? = some call) : Formed call := by
  rcases step_cases hstep with ⟨input, _, _, rfl⟩ | ⟨c₀, e, call₀, sh, call', _, hc₀, ht, rfl⟩ |
    ⟨house, app, slots, _, rfl, _⟩
  · rcases getElem?_concat_cases hc with ⟨_, rfl⟩ | hc
    · exact ⟨by simp, by simp [Pc.holdsWork], by simp, by simp, by simp⟩
    · exact hs hc
  · rcases getElem?_set_cases hc with ⟨_, rfl⟩ | ⟨_, hc⟩
    · exact formed_step ht (hs hc₀)
    · exact hs hc
  · exact hs hc

/-- The induction on runs of the engine: a new call, a step of one task of a
formed call, an expiring entry. `C` is what the run promises of its steps. -/
theorem run_invariant {C : State → Action → Prop} {store : Store} (I : State → List Obs → Prop)
    (init : I (initial store) [])
    (arrive : ∀ {s os input}, I s os → C s (.arrive input) →
      I { s with calls := s.calls ++ [⟨input, .resolveSurface, none, none⟩] } os)
    (task : ∀ {s os c e call sh call' o}, I s os → C s (.task c e) → s.calls[c]? = some call →
      Formed call → TaskStep engine s.shared c call e sh call' o →
      I ⟨sh, s.calls.set c call'⟩ (os ++ o))
    (expire : ∀ {s os a house app slots}, I s os → C s a →
      (a = .expirePending house app ∧ slots = (s.shared.slots house app).clearPending ∨
        a = .expireContinuation house app ∧
          slots = (s.shared.slots house app).clearContinuation) →
      I { s with shared := s.shared.setSlots house app slots } os)
    {as : List Action} (hC : (machine engine).Along C (initial store) as)
    (h : (machine engine).exec (initial store) as = some (s, os)) :
    I s os ∧ ∀ {c : CallId} {call : Call}, s.calls[c]? = some call → Formed call := by
  refine Machine.exec_invariant
    (fun s os => I s os ∧ ∀ {c call}, s.calls[c]? = some call → Formed call)
    ?_ ⟨init, by simp [initial]⟩ hC h
  intro s os a s' o ⟨hi, hf⟩ hc hstep
  refine ⟨?_, fun hc' => formed_calls hf hstep hc'⟩
  rcases step_cases hstep with ⟨input, rfl, rfl, rfl⟩ |
    ⟨c₀, e, call₀, sh, call', rfl, hc₀, ht, rfl⟩ | ⟨house, app, slots, rfl, rfl, ha⟩
  · rw [List.append_nil]
    exact arrive hi hc
  · exact task hi hc hc₀ (hf hc₀) ht
  · rw [List.append_nil]
    exact expire hi hc ha

end Rules

end AliceBridge.Core.HouseCalls
