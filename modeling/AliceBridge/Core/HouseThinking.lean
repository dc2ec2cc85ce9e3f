import AliceBridge.Core.HouseCalls

/-! # Who answers for a thinking surface

A surface that is marked as thinking has a task that will unmark it: the call
that marked it, up to the spawn of its watcher, or the watcher after it. -/
namespace AliceBridge.Core.HouseThinking
open AliceBridge.Lib.Utf8 AliceBridge.Lib.Run AliceBridge.Core.Reply AliceBridge.Core.Household
open AliceBridge.Core.HouseEngine AliceBridge.Core.HouseSteps AliceBridge.Core.HouseCalls

/-- The surface that the work of a call belongs to. -/
def OnSurface (call : Call) (house : HouseId) (app : Text) : Prop :=
  call.app = app ∧ ∃ work, call.work = some work ∧ work.house.id = house

/-- A watcher that has not yet stored the result or cleared the mark. -/
def Watching (call : Call) : Prop := ∃ watcher, call.watcher = some watcher ∧ watcher ≠ .done

/-- The call is about to spawn its watcher, or has one at work. -/
def Attending (call : Call) : Prop := call.pc = .spawnWatcher ∨ Watching call

/-- The call that a step marks this surface for. -/
def markOf (house : HouseId) (app : Text) : State × Action → Option CallId
  | (s, .task c (.mark .ok)) =>
    match s.calls[c]? with
    | some call =>
      match call.work with
      | some work => if call.app = app ∧ work.house.id = house then some c else none
      | none => none
    | none => none
  | _ => none

/-- The marks and the store operations of watchers succeed; other operations may fail. -/
def succeeds : Action → Bool
  | .task _ (.mark outcome) | .task _ (.watcherStore outcome) => decide (outcome = .ok)
  | _ => true

section Steps

variable {engine : HouseholdEngine} {sh sh' : Shared} {s s' : State} {c : CallId}
  {call call' : Call} {e : Event} {a : Action} {os : List Obs} {house : HouseId} {app : Text}

/-- A slot operation of a request never marks. -/
theorem slot_thinking {shaper : ReplyShaper} {input : HouseholdInput} {slots slots' : Slots}
    {pc pc' : Pc} {outcome : Outcome} (h : SlotStep shaper input slots pc outcome pc' slots')
    (hthinking : slots'.pending = .thinking) : slots.pending = .thinking := by
  cases h with
  | @failed pc _ applied =>
    cases applied with
    | false => exact hthinking
    | true =>
      unfold slotEffect at hthinking
      cases pc <;> simp_all [Slots.clearContinuation, Slots.clearPending]
  | _ => simp_all [Slots.clearContinuation, Slots.clearPending]

theorem Watching.replied (hf : Formed call) (h : Watching call) :
    call.pc = .replied (.say stillThinking) := by
  obtain ⟨watcher, hwatcher, -⟩ := h
  exact (hf.watched watcher hwatcher).1

theorem OnSurface.work {work : Work} (hw : call.work = some work) :
    OnSurface call house app ↔ call.app = app ∧ work.house.id = house := by
  unfold OnSurface
  rw [hw]
  simp

/-- A write on the surface of the call's work, and the pending entry of any surface. -/
theorem pending_write {slots : Slots} {h : HouseId} {a : Text} :
    ((sh.setSlots h a slots).slots house app).pending =
      if a = app ∧ h = house then slots.pending else (sh.slots house app).pending := by
  by_cases hsurface : a = app ∧ h = house
  · rw [if_pos hsurface, ← hsurface.1, ← hsurface.2, Shared.setSlots_self]
  · rw [if_neg hsurface, Shared.setSlots_other fun hs => hsurface ⟨hs.2.symm, hs.1.symm⟩]

theorem not_attending (hf : Formed call) (hpc : call.pc ≠ .spawnWatcher)
    (hreplied : ∀ reply, call.pc ≠ .replied reply) : ¬ Attending call := by
  intro h
  rcases h with h | h
  · exact hpc h
  · exact hreplied _ (Watching.replied hf h)

/-- The work task goes on, and nothing about its surface changes. -/
theorem works_attending {work work' : Work} (hw : call.work = some work)
    (hhouse : work'.house = work.house) (hsurface : OnSurface call house app)
    (h : Attending call) :
    OnSurface { call with work := some work' } house app ∧
      Attending { call with work := some work' } := by
  rw [OnSurface.work hw] at hsurface
  exact ⟨⟨hsurface.1, work', rfl, hhouse ▸ hsurface.2⟩, h⟩

/-- A step that leaves a surface thinking marked it, or found it thinking and leaves its
call in attendance. -/
theorem thinking_step (ht : TaskStep engine sh c call e sh' call' os) (hf : Formed call)
    (hC : succeeds (.task c e) = true) (hthinking : (sh'.slots house app).pending = .thinking) :
    (e = .mark .ok ∧ OnSurface call house app ∧ OnSurface call' house app ∧
        call'.pc = .spawnWatcher) ∨
      (e = .mark .ok → ¬ OnSurface call house app) ∧
        (sh.slots house app).pending = .thinking ∧
        (OnSurface call house app → Attending call →
          OnSurface call' house app ∧ Attending call') := by
  cases ht with
  | @slot houseId pc slots outcome hh hs =>
    refine .inr ⟨fun he => (by cases he), ?_, ?_⟩
    · rw [pending_write] at hthinking
      split at hthinking
      · next hsurface =>
        rw [← hsurface.1, ← hsurface.2]
        exact slot_thinking hs hthinking
      · exact hthinking
    · intro _ hattending
      rcases hattending with hpc | hwatching
      · rw [hpc] at hh
        cases hh
      · rw [Watching.replied hf hwatching] at hh
        cases hh
  | @marked work hpc hw =>
    rw [OnSurface.work hw]
    by_cases hsurface : call.app = app ∧ work.house.id = house
    · exact .inl ⟨rfl, hsurface, (OnSurface.work hw).mpr hsurface, rfl⟩
    · rw [pending_write, if_neg hsurface] at hthinking
      exact .inr ⟨fun _ => hsurface, hthinking, fun h => absurd h hsurface⟩
  | @markFailed _ _ applied =>
    have hok : Outcome.err applied = .ok := of_decide_eq_true hC
    cases hok
  | @readySaved work text outcome hw hv =>
    obtain rfl : outcome = .ok := of_decide_eq_true hC
    rw [OnSurface.work hw]
    by_cases hsurface : call.app = app ∧ work.house.id = house
    · rw [pending_write, if_pos hsurface] at hthinking
      cases hthinking
    · rw [pending_write, if_neg hsurface] at hthinking
      exact .inr ⟨fun he => (by cases he), hthinking, fun h => absurd h hsurface⟩
  | @pendingCleared work outcome hw hv =>
    obtain rfl : outcome = .ok := of_decide_eq_true hC
    rw [OnSurface.work hw]
    by_cases hsurface : call.app = app ∧ work.house.id = house
    · rw [pending_write, if_pos hsurface] at hthinking
      cases hthinking
    · rw [pending_write, if_neg hsurface] at hthinking
      exact .inr ⟨fun he => (by cases he), hthinking, fun h => absurd h hsurface⟩
  | bound hpc | unbound hpc | lockFound hpc | lockMade hpc | busy hpc | locked hpc
  | joinedText hpc | joinedLost hpc | deadline hpc =>
    refine .inr ⟨fun he => (by cases he), hthinking, fun _ h => ?_⟩
    exact absurd h (not_attending hf (by simp [hpc]) (by simp [hpc]))
  | watch hpc hw =>
    exact .inr ⟨fun he => (by cases he), hthinking,
      fun hsurface _ => ⟨hsurface, .inr ⟨.joining, rfl, by simp⟩⟩⟩
  | turnKnown hw | startCalled hw | started hw | answered hw =>
    exact .inr ⟨fun he => (by cases he), hthinking, works_attending hw rfl⟩
  | runtimeFailed hw _ he | dropped hw _ he =>
    refine .inr ⟨fun hmark => ?_, hthinking, works_attending hw rfl⟩
    subst hmark
    simp at he
  | saved hw _ hs =>
    have hsame := (Store.saveThreadId_spec hs).1
    simp only [Shared.slots, hsame] at hthinking
    exact .inr ⟨fun he => (by cases he), hthinking, works_attending hw rfl⟩
  | saveFailed hw _ hs =>
    refine .inr ⟨fun he => (by cases he), ?_, works_attending hw rfl⟩
    rcases hs with ⟨rfl, _⟩ | ⟨_, hs⟩
    · exact hthinking
    · have hsame := (Store.saveThreadId_spec hs).1
      simp only [release, Shared.setLocked, Shared.slots, hsame] at hthinking
      exact hthinking
  | watcherText hw hv | watcherLost hw hv =>
    refine .inr ⟨fun he => (by cases he), hthinking, fun hsurface _ => ⟨hsurface, .inr ?_⟩⟩
    exact ⟨_, rfl, by simp⟩

theorem markOf_mark (hc : s.calls[c]? = some call) (hsurface : OnSurface call house app) :
    markOf house app (s, .task c (.mark .ok)) = some c := by
  obtain ⟨happ, work, hw, hhouse⟩ := hsurface
  simp [markOf, hc, hw, happ, hhouse]

theorem markOf_other (hc : s.calls[c]? = some call)
    (he : e = .mark .ok → ¬ OnSurface call house app) :
    markOf house app (s, .task c e) = none := by
  unfold markOf
  split
  · next c' heq =>
    obtain ⟨rfl, haction⟩ := Prod.mk.inj heq
    obtain ⟨rfl, rfl⟩ := Action.task.inj haction
    simp only [hc]
    cases hw : call.work with
    | none => rfl
    | some work =>
      have hoff := he rfl
      rw [OnSurface.work hw] at hoff
      exact if_neg hoff
  · rfl

/-- The call that last marked a thinking surface attends it. -/
def Attended (s : State) (history : List (State × Action)) : Prop :=
  ∀ house app, (s.shared.slots house app).pending = .thinking →
    ∃ c call, lastOf (markOf house app) history = some c ∧ s.calls[c]? = some call ∧
      OnSurface call house app ∧ Attending call

theorem attended_task {history : List (State × Action)} (h : Attended s history)
    (hc : s.calls[c]? = some call) (hf : Formed call) (hC : succeeds (.task c e) = true)
    (ht : TaskStep engine s.shared c call e sh call' os) :
    Attended ⟨sh, s.calls.set c call'⟩ (history ++ [(s, .task c e)]) := by
  intro house app hthinking
  rw [lastOf_concat]
  rcases thinking_step ht hf hC hthinking with
    ⟨rfl, hsurface, hsurface', hpc⟩ | ⟨hother, hbefore, hstays⟩
  · rw [markOf_mark hc hsurface]
    exact ⟨c, call', rfl, getElem?_set_self hc, hsurface', .inl hpc⟩
  · rw [markOf_other hc hother, Option.none_or]
    obtain ⟨c₀, call₀, hlast, hc₀, hsurface, hattending⟩ := h house app hbefore
    by_cases hsame : c₀ = c
    · subst hsame
      obtain rfl := Option.some.inj (hc.symm.trans hc₀)
      obtain ⟨hsurface', hattending'⟩ := hstays hsurface hattending
      exact ⟨c₀, call', hlast, getElem?_set_self hc, hsurface', hattending'⟩
    · refine ⟨c₀, call₀, hlast, ?_, hsurface, hattending⟩
      rw [List.getElem?_set_ne (Ne.symm hsame)]
      exact hc₀

theorem attended_step {history : List (State × Action)} (h : Attended s history)
    (hf : ∀ {c : CallId} {call : Call}, s.calls[c]? = some call → Formed call)
    (hC : succeeds a = true) (hstep : step engine s a = some (s', os)) :
    Attended s' (history ++ [(s, a)]) := by
  rcases step_cases hstep with ⟨input, rfl, rfl, rfl⟩ |
    ⟨c, e, call, sh, call', rfl, hc, ht, rfl⟩ | ⟨h₀, a₀, slots, rfl, rfl, ha⟩
  · intro house app hthinking
    rw [lastOf_concat]
    obtain ⟨c, call, hlast, hc, hattends⟩ := h house app hthinking
    refine ⟨c, call, hlast, ?_, hattends⟩
    rw [List.getElem?_append_left (List.getElem?_eq_some_iff.mp hc).1]
    exact hc
  · exact attended_task h hc (hf hc) hC ht
  · intro house app hthinking
    have hbefore : (s.shared.slots house app).pending = .thinking := by
      rw [pending_write] at hthinking
      split at hthinking
      · next hsurface =>
        rw [← hsurface.1, ← hsurface.2]
        rcases ha with ⟨rfl, rfl⟩ | ⟨rfl, rfl⟩
        · cases hthinking
        · exact hthinking
      · exact hthinking
    have hnone : markOf house app (s, a) = none := by
      rcases ha with ⟨rfl, _⟩ | ⟨rfl, _⟩ <;> rfl
    rw [lastOf_concat, hnone, Option.none_or]
    exact h house app hbefore

end Steps

/-- Every task of the call has run to its end. -/
structure Ended (call : Call) : Prop where
  replied : ∃ reply, call.pc = .replied reply
  worked : ∀ work, call.work = some work → work.pc.holdsGuard = false
  watched : ∀ watcher, call.watcher = some watcher → watcher = .done

/-- A thinking surface is attended by the call that marked it last; so when all tasks have
ended, no surface is thinking. -/
theorem thinking_attended {engine : HouseholdEngine} {store : Store} {as : List Action}
    {s : State} {os : List Obs}
    (hstore : ∀ house app, (store.slots house app).pending ≠ .thinking)
    (hC : (machine engine).Along (fun _ a => succeeds a = true) (initial store) as)
    (h : (machine engine).exec (initial store) as = some (s, os)) :
    Attended s ((machine engine).history (initial store) as) ∧
      ((∀ call ∈ s.calls, Ended call) →
        ∀ house app, (s.shared.slots house app).pending ≠ .thinking) := by
  have hinit : Attended (initial store) [] :=
    fun house app hthinking => absurd hthinking (hstore house app)
  have hinv := Machine.exec_invariant_history
    (fun s history => Attended s history ∧
      ∀ {c : CallId} {call : Call}, s.calls[c]? = some call → Formed call)
    (fun hI hC hstep => ⟨attended_step hI.1 hI.2 hC hstep, formed_calls hI.2 hstep⟩)
    ⟨hinit, by simp [initial]⟩ hC h
  refine ⟨hinv.1, ?_⟩
  intro hended house app hthinking
  obtain ⟨c, call, -, hc, -, hattending⟩ := hinv.1 house app hthinking
  have hend := hended call (List.mem_of_getElem? hc)
  rcases hattending with hpc | ⟨watcher, hwatcher, hactive⟩
  · obtain ⟨reply, hreply⟩ := hend.replied
    rw [hpc] at hreply
    cases hreply
  · exact hactive (hend.watched watcher hwatcher)

/-- The deadline passes while the turn of a request is running. -/
def marked : List Action :=
  [.arrive ⟨⟨['o'], ['a']⟩, ['?'], false⟩, .task 0 (.resolve (.bound 1)), .task 0 (.slot .ok),
    .task 0 (.slot .ok), .task 0 .lockEntry, .task 0 .tryLock, .task 0 .workBegin,
    .task 0 .deadline, .task 0 (.mark .ok)]

theorem thinking_attended_marked :
    ∃ s os, (machine ⟨⟨850, by decide⟩, false⟩).exec
        (initial (fixture 1 ⟨['Д'], some ['t'], ['h']⟩)) marked = some (s, os) ∧
      (s.shared.slots 1 ['a']).pending = .thinking ∧
      Attended s ((machine ⟨⟨850, by decide⟩, false⟩).history
        (initial (fixture 1 ⟨['Д'], some ['t'], ['h']⟩)) marked) := by
  have hrun : ((machine ⟨⟨850, by decide⟩, false⟩).exec
      (initial (fixture 1 ⟨['Д'], some ['t'], ['h']⟩)) marked).isSome = true := by decide
  have hexec := (Option.some_get hrun).symm
  have hstore : ∀ house app,
      ((fixture 1 ⟨['Д'], some ['t'], ['h']⟩).slots house app).pending ≠ .thinking := by
    intro house app hthinking
    cases hthinking
  exact ⟨_, _, hexec, by decide, (thinking_attended hstore (by decide) hexec).1⟩

end AliceBridge.Core.HouseThinking
