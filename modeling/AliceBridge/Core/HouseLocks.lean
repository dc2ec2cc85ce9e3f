import AliceBridge.Core.HouseCalls

/-! # Mutual exclusion of Codex turns

The lock map gives every house its own mutex, the guard of a mutex belongs to
one work, and only the end of this work gives it back. `LockInv` says so of all
calls at once, `LockStep` is all a task step does to locks and guards. -/
namespace AliceBridge.Core.HouseLocks
open AliceBridge.Lib.Utf8 AliceBridge.Lib.Run AliceBridge.Core.Reply AliceBridge.Core.Household
open AliceBridge.Core.HouseEngine AliceBridge.Core.HouseSteps AliceBridge.Core.HouseCalls

/-- The house and the mutex of the guard that the work of the call holds. -/
def guard (call : Call) : Option (HouseId × LockId) :=
  call.work.bind fun work => if work.pc.holdsGuard then some (work.house.id, work.lock) else none

/-- The house and the mutex the request is about to lock. -/
def trying (call : Call) : Option (HouseId × LockId) :=
  match call.pc with
  | .tryLock house lock => some (house.id, lock)
  | _ => none

/-- A `start_thread` or `turn` call for the house is in progress. -/
def InProgress (s : State) (c : CallId) (house : HouseId) : Prop :=
  ∃ call work, s.calls[c]? = some call ∧ call.work = some work ∧ work.pc.inCall = true ∧
    work.house.id = house

/-- The work of call `c` holds the mutex `lock` for `house`. -/
def Holds (calls : List Call) (c : CallId) (house : HouseId) (lock : LockId) : Prop :=
  ∃ call, calls[c]? = some call ∧ guard call = some (house, lock)

structure LockInv (s : State) : Prop where
  fresh : ∀ {house lock}, s.shared.locks house = some lock → lock < s.shared.nextLock
  own : ∀ {house house' lock}, s.shared.locks house = some lock →
    s.shared.locks house' = some lock → house = house'
  trying : ∀ {c : CallId} {call house lock}, s.calls[c]? = some call →
    trying call = some (house, lock) →
    s.shared.locks house = some lock
  holds : ∀ {c : CallId} {house lock}, Holds s.calls c house lock →
    s.shared.locks house = some lock ∧ s.shared.locked lock = true
  held : ∀ {lock}, s.shared.locked lock = true → ∃ c house, Holds s.calls c house lock
  single : ∀ {c c' : CallId} {house house' lock},
    Holds s.calls c house lock → Holds s.calls c' house' lock → c = c'

/-- What a task step does to the lock map, the mutexes and the guard of its call. -/
inductive LockStep (sh : Shared) (call : Call) : Shared → Call → Prop
  | same {sh' : Shared} {call' : Call} : sh'.locks = sh.locks → sh'.locked = sh.locked →
      sh'.nextLock = sh.nextLock → guard call' = guard call →
      (∀ house lock, trying call' = some (house, lock) →
        trying call = some (house, lock) ∨ sh.locks house = some lock) →
      LockStep sh call sh' call'
  | made {house : HouseId} {sh' : Shared} {call' : Call} : sh.locks house = none →
      sh'.locks = (fun h => if h = house then some sh.nextLock else sh.locks h) →
      sh'.locked = sh.locked → sh'.nextLock = sh.nextLock + 1 → guard call' = guard call →
      trying call' = some (house, sh.nextLock) → LockStep sh call sh' call'
  | acquired {house : HouseId} {lock : LockId} {call' : Call} :
      trying call = some (house, lock) → sh.locked lock = false → guard call = none →
      guard call' = some (house, lock) → trying call' = none →
      LockStep sh call (sh.setLocked lock true) call'
  | released {house : HouseId} {lock : LockId} {sh' : Shared} {call' : Call} :
      guard call = some (house, lock) → guard call' = none → trying call' = trying call →
      sh'.locks = sh.locks → sh'.nextLock = sh.nextLock →
      sh'.locked = (sh.setLocked lock false).locked → LockStep sh call sh' call'

section Steps

variable {engine : HouseholdEngine} {sh sh' : Shared} {s s' : State} {c : CallId}
  {call call' : Call} {e : Event} {os : List Obs}

theorem guard_some {work : Work} (hw : call.work = some work) (hg : work.pc.holdsGuard = true) :
    guard call = some (work.house.id, work.lock) := by
  simp [guard, hw, hg]

theorem guard_none {work : Work} (hw : call.work = some work) (hg : work.pc.holdsGuard = false) :
    guard call = none := by
  simp [guard, hw, hg]

theorem lockStep (ht : TaskStep engine sh c call e sh' call' os) (h : Formed call) :
    LockStep sh call sh' call' := by
  cases ht with
  | bound hpc _ | unbound hpc _ _ _ | busy hpc _ | joinedText hpc _ _ | joinedLost hpc _ _
  | deadline hpc | marked hpc _ | watch hpc _ =>
    exact .same rfl rfl rfl rfl (by simp [trying])
  | slot hh hs =>
    refine .same rfl rfl rfl rfl fun house lock htry => ?_
    rcases slotStep_next hs with ⟨reply, rfl⟩ | ⟨_, _, hno⟩
    · cases htry
    · unfold trying at htry
      split at htry
      · exact absurd ‹_› (hno _ _)
      · cases htry
  | @lockFound house lock hpc hl =>
    refine .same rfl rfl rfl rfl ?_
    rintro _ _ ⟨rfl, rfl⟩
    exact .inr hl
  | lockMade hpc hl => exact .made hl rfl rfl rfl rfl rfl
  | @locked house lock work hpc hl hhouse hlock _ _ hspawned =>
    have hnone : guard call = none := by
      simp [guard, h.before (by rw [hpc]; rfl)]
    have htry : trying call = some (house.id, lock) := by simp [trying, hpc]
    refine .acquired htry hl hnone ?_ rfl
    rw [guard_some rfl (by rw [hspawned]; rfl), hhouse, hlock]
  | markFailed hpc hw _ _ => exact .same rfl rfl rfl (by simp [guard, hw]) (by simp [trying])
  | turnKnown hw hpc _ | startCalled hw hpc _ | started hw hpc | saved hw hpc _ =>
    exact .same rfl rfl rfl (by simp [guard, hw, hpc, WorkPc.holdsGuard]) fun _ _ => .inl
  | saveFailed hw hpc _ | answered hw hpc =>
    exact .released (guard_some hw (by rw [hpc]; rfl)) (guard_none rfl rfl) rfl rfl rfl rfl
  | runtimeFailed hw hin _ =>
    exact .released (guard_some hw (inCall_holdsGuard hin)) (guard_none rfl rfl) rfl rfl rfl rfl
  | dropped hw hg _ =>
    exact .released (guard_some hw hg) (guard_none rfl rfl) rfl rfl rfl rfl
  | watcherText _ _ _ | watcherLost _ _ _ | readySaved _ _ | pendingCleared _ _ =>
    exact .same rfl rfl rfl rfl fun _ _ => .inl

/-! ## The invariant -/

theorem Holds.of_set {calls : List Call} {c' : CallId} {house : HouseId} {lock : LockId}
    (h : Holds (calls.set c call') c' house lock) :
    (c' = c ∧ guard call' = some (house, lock)) ∨ (c' ≠ c ∧ Holds calls c' house lock) := by
  obtain ⟨d, hd, hg⟩ := h
  rcases getElem?_set_cases hd with ⟨rfl, rfl⟩ | ⟨hne, hd⟩
  · exact .inl ⟨rfl, hg⟩
  · exact .inr ⟨hne, d, hd, hg⟩

theorem Holds.set_other {calls : List Call} {c' : CallId} {house : HouseId} {lock : LockId}
    (hne : c' ≠ c) (h : Holds calls c' house lock) : Holds (calls.set c call') c' house lock := by
  obtain ⟨d, hd, hg⟩ := h
  exact ⟨d, by rw [List.getElem?_set_ne (Ne.symm hne)]; exact hd, hg⟩

theorem Holds.set_self {calls : List Call} {house : HouseId} {lock : LockId}
    (hc : calls[c]? = some call) (hg : guard call' = some (house, lock)) :
    Holds (calls.set c call') c house lock :=
  ⟨call', getElem?_set_self hc, hg⟩

/-- A step that leaves the guard of its call alone moves no guard. -/
theorem Holds.set_same {calls : List Call} (hc : calls[c]? = some call)
    (hg : guard call' = guard call) {c' : CallId} {house : HouseId} {lock : LockId} :
    Holds (calls.set c call') c' house lock ↔ Holds calls c' house lock := by
  constructor
  · intro h
    rcases h.of_set with ⟨rfl, hg'⟩ | ⟨_, h⟩
    · exact ⟨call, hc, hg ▸ hg'⟩
    · exact h
  · rintro ⟨d, hd, hgd⟩
    by_cases hcc : c' = c
    · subst hcc
      obtain rfl := Option.some.inj (hc.symm.trans hd)
      exact .set_self hc (hg.trans hgd)
    · exact .set_other hcc ⟨d, hd, hgd⟩

/-- The mutex `try_lock_owned` finds belongs to the house of the request. -/
theorem trying_of_set {calls : List Call} {locks : HouseId → Option LockId} {house : HouseId}
    {lock : LockId} {c' : CallId} {d : Call}
    (hi : ∀ {c' : CallId} {d house lock}, calls[c']? = some d → trying d = some (house, lock) →
      locks house = some lock)
    (hself : trying call' = some (house, lock) → locks house = some lock)
    (hd : (calls.set c call')[c']? = some d) (ht : trying d = some (house, lock)) :
    locks house = some lock := by
  rcases getElem?_set_cases hd with ⟨_, rfl⟩ | ⟨_, hd⟩
  · exact hself ht
  · exact hi hd ht

theorem lockInv_task (hi : LockInv s) (hc : s.calls[c]? = some call)
    (h : LockStep s.shared call sh' call') : LockInv ⟨sh', s.calls.set c call'⟩ := by
  cases h with
  | same hlocks hlocked hnext hguard htry =>
    have hself : ∀ {house lock}, trying call' = some (house, lock) →
        s.shared.locks house = some lock := fun ht => (htry _ _ ht).elim (hi.trying hc) id
    refine ⟨?_, ?_, ?_, ?_, ?_, ?_⟩ <;> simp only [hlocks, hlocked, hnext, Holds.set_same hc hguard]
    · exact hi.fresh
    · exact hi.own
    · exact fun hd ht => trying_of_set hi.trying hself hd ht
    · exact hi.holds
    · exact hi.held
    · exact hi.single
  | @made house _ _ hnone hlocks hlocked hnext hguard htry =>
    -- the new mutex is the next one, so no other house has it and no work holds it
    have hold : ∀ {h lock}, s.shared.locks h = some lock →
        (if h = house then some s.shared.nextLock else s.shared.locks h) = some lock := by
      intro h lock hl
      split
      · subst h
        simp [hnone] at hl
      · exact hl
    refine ⟨?_, ?_, ?_, ?_, ?_, ?_⟩ <;> simp only [hlocks, hlocked, hnext, Holds.set_same hc hguard]
    · intro h lock hl
      split at hl
      · obtain rfl := Option.some.inj hl
        exact Nat.lt_succ_self _
      · exact Nat.lt_succ_of_lt (hi.fresh hl)
    · intro h h' lock hl hl'
      split at hl <;> split at hl'
      · subst h h'
        rfl
      · obtain rfl := Option.some.inj hl
        exact absurd (hi.fresh hl') (Nat.lt_irrefl _)
      · obtain rfl := Option.some.inj hl'
        exact absurd (hi.fresh hl) (Nat.lt_irrefl _)
      · exact hi.own hl hl'
    · intro c' d h lock hd ht
      refine trying_of_set (fun hd ht => hold (hi.trying hd ht)) (fun ht => ?_) hd ht
      obtain ⟨rfl, rfl⟩ := by simpa [htry] using ht
      simp
    · exact fun hh => ⟨hold (hi.holds hh).1, (hi.holds hh).2⟩
    · exact hi.held
    · exact hi.single
  | @acquired house lock _ htry hfree hnone hguard htry' =>
    have hlock := hi.trying hc htry
    have hother : ∀ {c' : CallId} {h l}, Holds s.calls c' h l → c' ≠ c ∧ l ≠ lock := by
      intro c' h l hh
      constructor
      · rintro rfl
        obtain ⟨d, hd, hg⟩ := hh
        obtain rfl := Option.some.inj (hc.symm.trans hd)
        simp [hnone] at hg
      · rintro rfl
        simp [(hi.holds hh).2] at hfree
    refine ⟨hi.fresh, hi.own, ?_, ?_, ?_, ?_⟩
    · exact fun hd ht => trying_of_set hi.trying (by simp [htry']) hd ht
    · intro c' h l hh
      rcases hh.of_set with ⟨_, hg⟩ | ⟨_, hh⟩
      · obtain ⟨rfl, rfl⟩ := by simpa [hguard] using hg
        exact ⟨hlock, by simp [Shared.setLocked]⟩
      · exact ⟨(hi.holds hh).1, by simp [Shared.setLocked, (hother hh).2, (hi.holds hh).2]⟩
    · intro l hl
      by_cases hll : l = lock
      · subst hll
        exact ⟨c, house, .set_self hc hguard⟩
      · have hl : s.shared.locked l = true := by simpa [Shared.setLocked, hll] using hl
        obtain ⟨c', h, hh⟩ := hi.held hl
        exact ⟨c', h, hh.set_other (hother hh).1⟩
    · intro c₁ c₂ h₁ h₂ l hh₁ hh₂
      rcases hh₁.of_set with ⟨hc₁, hg₁⟩ | ⟨_, hold₁⟩ <;>
        rcases hh₂.of_set with ⟨hc₂, hg₂⟩ | ⟨_, hold₂⟩
      · rw [hc₁, hc₂]
      · obtain ⟨rfl, rfl⟩ := by simpa [hguard] using hg₁
        exact absurd rfl (hother hold₂).2
      · obtain ⟨rfl, rfl⟩ := by simpa [hguard] using hg₂
        exact absurd rfl (hother hold₁).2
      · exact hi.single hold₁ hold₂
  | @released house lock _ _ hguard hguard' htry hlocks hnext hlocked =>
    have hmine : Holds s.calls c house lock := ⟨call, hc, hguard⟩
    have hother : ∀ {c' : CallId} {h l}, Holds (s.calls.set c call') c' h l →
        Holds s.calls c' h l ∧ c' ≠ c ∧ l ≠ lock := by
      intro c' h l hh
      rcases hh.of_set with ⟨_, hg⟩ | ⟨hne, hh⟩
      · simp [hguard'] at hg
      · refine ⟨hh, hne, ?_⟩
        rintro rfl
        exact hne (hi.single hh hmine)
    refine ⟨?_, ?_, ?_, ?_, ?_, ?_⟩ <;> simp only [hlocks, hlocked, hnext]
    · exact hi.fresh
    · exact hi.own
    · exact fun hd ht => trying_of_set hi.trying (fun ht => hi.trying hc (htry ▸ ht)) hd ht
    · intro c' h l hh
      obtain ⟨hh, _, hne⟩ := hother hh
      exact ⟨(hi.holds hh).1, by simp [Shared.setLocked, hne, (hi.holds hh).2]⟩
    · intro l hl
      obtain ⟨hne, hl⟩ : l ≠ lock ∧ s.shared.locked l = true := by
        simpa [Shared.setLocked] using hl
      obtain ⟨c', h, hh⟩ := hi.held hl
      refine ⟨c', h, hh.set_other ?_⟩
      rintro rfl
      obtain ⟨d, hd, hg⟩ := hh
      obtain rfl := Option.some.inj (hc.symm.trans hd)
      obtain ⟨_, rfl⟩ := by simpa [hguard] using hg
      exact hne rfl
    · exact fun h₁ h₂ => hi.single (hother h₁).1 (hother h₂).1

theorem lockInv_arrive (hi : LockInv s) (input : HouseholdInput) :
    LockInv { s with calls := s.calls ++ [⟨input, .resolveSurface, none, none⟩] } := by
  have hholds : ∀ {c : CallId} {house lock},
      Holds (s.calls ++ [⟨input, .resolveSurface, none, none⟩]) c house lock ↔
        Holds s.calls c house lock := by
    intro c house lock
    constructor
    · rintro ⟨d, hd, hg⟩
      rcases getElem?_concat_cases hd with ⟨_, rfl⟩ | hd
      · cases hg
      · exact ⟨d, hd, hg⟩
    · rintro ⟨d, hd, hg⟩
      exact ⟨d, by rw [List.getElem?_append_left (List.getElem?_eq_some_iff.mp hd).1]; exact hd, hg⟩
  refine ⟨hi.fresh, hi.own, ?_, ?_, ?_, ?_⟩ <;> simp only [hholds]
  · intro c d house lock hd ht
    rcases getElem?_concat_cases hd with ⟨_, rfl⟩ | hd
    · cases ht
    · exact hi.trying hd ht
  · exact hi.holds
  · exact hi.held
  · exact hi.single

theorem lockInv_initial (store : Store) : LockInv (initial store) := by
  constructor <;> simp [initial, Holds]

theorem lockInv {store : Store} {as : List Action}
    (h : (machine engine).exec (initial store) as = some (s, os)) :
    LockInv s ∧ ∀ {c : CallId} {call : Call}, s.calls[c]? = some call → Formed call :=
  run_invariant (fun s _ => LockInv s) (lockInv_initial store)
    (fun hi _ => lockInv_arrive hi _)
    (fun hi _ hc hf ht => lockInv_task hi hc (lockStep ht hf))
    (fun hi _ _ => ⟨hi.fresh, hi.own, hi.trying, hi.holds, hi.held, hi.single⟩)
    (Machine.Along.free _ _) h

/-! ## What a Busy reply tells -/

theorem slot_not_busy {shaper : ReplyShaper} {input : HouseholdInput} {slots slots' : Slots}
    {pc pc' : Pc} {outcome : Outcome} (h : SlotStep shaper input slots pc outcome pc' slots') :
    pc' ≠ .replied .busy := by
  cases h with
  | taken _ =>
    unfold answerContinuation
    split <;> simp
  | polledNone _ =>
    unfold afterPoll
    split <;> simp
  | _ => simp

theorem busy_step (ht : TaskStep engine sh c call e sh' call' os) {c' : CallId} {app : Text}
    {house : Option HouseId} (hb : .reply c' app house .busy ∈ os) :
    c' = c ∧ ∃ ctx lock, call.pc = .tryLock ctx lock ∧ sh.locked lock = true ∧
      house = some ctx.id := by
  cases ht with
  | busy hpc hl =>
    obtain ⟨rfl, rfl, rfl⟩ := by simpa using hb
    exact ⟨rfl, _, _, hpc, hl, rfl⟩
  | slot _ hs =>
    exact absurd (reply_mem_slot.mp hb).2.2.2 (slot_not_busy hs)
  | unbound _ _ _ hbusy => simp_all
  | _ => simp at hb

end Steps

/-- At most one call of a house has a turn in progress; a Busy reply means that
the work of another call of the same house holds the mutex, and no work of
another house can hold it. -/
theorem turns_exclusive (engine : HouseholdEngine) (store : Store) {as : List Action} {s : State}
    {os : List Obs} (h : (machine engine).exec (initial store) as = some (s, os)) :
    (∀ c c' house, InProgress s c house → InProgress s c' house → c = c') ∧
    ∀ a s' o c app house, step engine s a = some (s', o) → .reply c app house .busy ∈ o →
      ∃ call ctx lock, s.calls[c]? = some call ∧ call.pc = .tryLock ctx lock ∧
        house = some ctx.id ∧ (∃ c', c' ≠ c ∧ Holds s.calls c' ctx.id lock) ∧
        ∀ c' house', Holds s.calls c' house' lock → house' = ctx.id := by
  obtain ⟨hi, hf⟩ := lockInv h
  refine ⟨?_, ?_⟩
  · rintro c c' house ⟨call, work, hc, hw, hin, rfl⟩ ⟨call', work', hc', hw', hin', hhouse⟩
    have hold : Holds s.calls c work.house.id work.lock :=
      ⟨call, hc, guard_some hw (inCall_holdsGuard hin)⟩
    have hold' : Holds s.calls c' work.house.id work'.lock :=
      ⟨call', hc', hhouse ▸ guard_some hw' (inCall_holdsGuard hin')⟩
    have hsame : work.lock = work'.lock :=
      Option.some.inj ((hi.holds hold).1.symm.trans (hi.holds hold').1)
    exact hi.single hold (hsame ▸ hold')
  · intro a s' o c app house hstep hb
    rcases step_cases hstep with ⟨_, _, rfl, _⟩ | ⟨c₀, e, call, sh, call', _, hc, ht, _⟩ |
      ⟨_, _, _, rfl, _⟩
    · cases hb
    · obtain ⟨rfl, ctx, lock, hpc, hlocked, rfl⟩ := busy_step ht hb
      have hown : s.shared.locks ctx.id = some lock := hi.trying hc (by simp [trying, hpc])
      obtain ⟨c', house', hold⟩ := hi.held hlocked
      have hhouse : ∀ {c' house'}, Holds s.calls c' house' lock → house' = ctx.id :=
        fun hold => hi.own (hi.holds hold).1 hown
      refine ⟨call, ctx, lock, hc, hpc, rfl, ⟨c', ?_, hhouse hold ▸ hold⟩, fun _ _ => hhouse⟩
      -- a request that is about to lock has no work of its own
      rintro rfl
      obtain ⟨d, hd, hg⟩ := hold
      obtain rfl := Option.some.inj (hc.symm.trans hd)
      simp [guard, (hf hc).before (by rw [hpc]; rfl)] at hg
    · cases hb

/-- Two accounts of one house ask at the same time. -/
def overlap : List Action :=
  [.arrive ⟨⟨['o'], ['a']⟩, ['?'], false⟩, .arrive ⟨⟨['m'], ['b']⟩, ['?'], false⟩] ++
  [0, 1].flatMap (fun c => [.task c (.resolve (.bound 1)), .task c (.slot .ok),
    .task c (.slot .ok), .task c .lockEntry, .task c .tryLock]) ++ [.task 0 .workBegin]

theorem turns_exclusive_overlap :
    ∃ s os, (machine ⟨⟨850, by decide⟩, false⟩).exec
        (initial (fixture 1 ⟨['Д'], some ['t'], ['h']⟩)) overlap = some (s, os) ∧
      .reply 1 ['b'] (some 1) .busy ∈ os ∧ InProgress s 0 1 ∧
      ∀ c, InProgress s c 1 → c = 0 := by
  have hrun : ((machine ⟨⟨850, by decide⟩, false⟩).exec
      (initial (fixture 1 ⟨['Д'], some ['t'], ['h']⟩)) overlap).isSome = true := by
    decide +kernel
  have hexec := (Option.some_get hrun).symm
  have hin : InProgress (Option.get _ hrun).1 0 1 := ⟨_, _, rfl, rfl, rfl, rfl⟩
  exact ⟨_, _, hexec, by decide +kernel, hin,
    fun c hc => (turns_exclusive _ _ hexec).1 c 0 1 hc hin⟩

end AliceBridge.Core.HouseLocks
