import Mathlib.Data.List.Pairwise
import AliceBridge.Core.HouseLocks

/-! # One home, one thread

The only write to `codex_thread_id` is the conditional `save_thread_id`, so a
thread once persisted stays. A turn carries the id of a snapshot that had one or
an id whose save succeeded, and both are persisted (`ThreadInv`).

The decision to start a thread is taken from the snapshot of `resolve_surface`,
which can be out of date when the house lock is taken. As long as it is not
(`Current`), no thread is started for a house that has one (`StartInv`). -/
namespace AliceBridge.Core.HouseThreads
open AliceBridge.Lib.Utf8 AliceBridge.Lib.Run AliceBridge.Core.Reply AliceBridge.Core.Household
open AliceBridge.Core.HouseEngine AliceBridge.Core.HouseSteps AliceBridge.Core.HouseCalls
open AliceBridge.Core.HouseLocks

/-! ## Snapshots -/

/-- The snapshot a request carries. -/
def context (pc : Pc) : Option HouseContext :=
  match pc with
  | .takeContinuation house | .pollPending house | .lockEntry house | .tryLock house _ => some house
  | _ => none

/-- The house of the snapshot exists, and a thread in it is the persisted one. -/
structure Valid (store : Store) (house : HouseContext) : Prop where
  row : (store.houses house.id).isSome = true
  thread : ∀ {t}, house.codexThreadId = some t → store.thread house.id = some t

/-- Houses stay and so do their threads. -/
structure Extends (store store' : Store) : Prop where
  row : ∀ {house}, (store.houses house).isSome = true → (store'.houses house).isSome = true
  thread : ∀ {house t}, store.thread house = some t → store'.thread house = some t

/-- What a call knows of the store: its snapshots, and the thread of its turn. -/
structure Known (store : Store) (call : Call) : Prop where
  request : ∀ {house}, context call.pc = some house → Valid store house
  work : ∀ {work}, call.work = some work → Valid store work.house
  turn : ∀ {work t}, call.work = some work → work.pc = .turn t →
    store.thread work.house.id = some t

theorem Valid.mono {store store' : Store} {house : HouseContext} (h : Valid store house)
    (he : Extends store store') : Valid store' house :=
  ⟨he.row h.row, fun ht => he.thread (h.thread ht)⟩

theorem Known.mono {store store' : Store} {call : Call} (h : Known store call)
    (he : Extends store store') : Known store' call :=
  ⟨fun hc => (h.request hc).mono he, fun hw => (h.work hw).mono he,
    fun hw ht => he.thread (h.turn hw ht)⟩

theorem Valid.of_row {store : Store} {house : HouseId} {row : HouseRow}
    (h : store.houses house = some row) : Valid store (row.context house) :=
  ⟨by simp [h], fun ht => by simpa [Store.thread, h] using ht⟩

theorem Extends.of_houses {store store' : Store} (h : store'.houses = store.houses) :
    Extends store store' :=
  ⟨by simp [h], by simp [Store.thread, h]⟩

theorem Extends.of_save {store store' : Store} {house : HouseId} {t : Text}
    (h : store.saveThreadId house t = some store') : Extends store store' := by
  obtain ⟨_, hset, hcond, hother⟩ := Store.saveThreadId_spec h
  refine ⟨fun hrow => Store.saveThreadId_row h hrow, fun {other u} hu => ?_⟩
  · by_cases ho : other = house
    · subst ho
      rcases hcond with hnone | hsame
      · simp [hnone] at hu
      · exact hset.trans (hsame.symm.trans hu)
    · exact (hother other ho).trans hu

section Steps

variable {engine : HouseholdEngine} {sh sh' : Shared} {s s' : State} {c : CallId}
  {call call' : Call} {e : Event} {a : Action} {os o : List Obs}

/-- Only `save_thread_id` writes a row of `houses`. -/
theorem houses_step (ht : TaskStep engine sh c call e sh' call' os) :
    sh'.store.houses = sh.store.houses ∨ ∃ work t, call.work = some work ∧
      work.pc = .saveThreadId t ∧ sh.store.saveThreadId work.house.id t = some sh'.store := by
  cases ht with
  | saved hw hpc hs => exact .inr ⟨_, _, hw, hpc, hs⟩
  | saveFailed hw hpc hs =>
    rcases hs with ⟨rfl, _⟩ | ⟨_, hs⟩
    · exact .inl rfl
    · exact .inr ⟨_, _, hw, hpc, hs⟩
  | _ => exact .inl rfl

theorem extends_step (ht : TaskStep engine sh c call e sh' call' os) :
    Extends sh.store sh'.store := by
  rcases houses_step ht with h | ⟨_, _, _, _, h⟩
  · exact .of_houses h
  · exact .of_save h

theorem context_slot {shaper : ReplyShaper} {input : HouseholdInput} {slots slots' : Slots}
    {pc pc' : Pc} {outcome : Outcome} (h : SlotStep shaper input slots pc outcome pc' slots')
    {house : HouseContext} (hc : context pc' = some house) : context pc = some house := by
  cases h with
  | taken _ =>
    unfold answerContinuation at hc
    split at hc <;> simp [context] at hc
  | polledNone _ =>
    unfold afterPoll at hc
    split at hc <;> simp_all [context]
  | _ => simp_all [context]

theorem Known.with_pc {pc : Pc} {store : Store} (h : Known store call)
    (hpc : ∀ {house}, context pc = some house → Valid store house) :
    Known store { call with pc := pc } :=
  ⟨hpc, h.work, h.turn⟩

theorem Known.with_work {store : Store} {work work' : Work} (h : Known store call)
    (hw : call.work = some work) (hhouse : work'.house = work.house)
    (hturn : ∀ {t}, work'.pc = .turn t → store.thread work.house.id = some t) :
    Known store { call with work := some work' } := by
  refine ⟨h.request, ?_, ?_⟩
  · rintro _ ⟨rfl⟩
    exact hhouse ▸ h.work hw
  · rintro _ t ⟨rfl⟩ ht
    exact hhouse ▸ hturn ht

theorem known_step (ht : TaskStep engine sh c call e sh' call' os) (h : Known sh.store call) :
    Known sh'.store call' := by
  have h' := h.mono (extends_step ht)
  cases ht with
  | bound _ hrow =>
    refine h.with_pc ?_
    rintro house ⟨rfl⟩
    exact .of_row hrow
  | slot _ hs => exact h'.with_pc fun hc => h'.request (context_slot hs hc)
  | lockFound hpc _ | lockMade hpc _ =>
    refine h'.with_pc ?_
    rintro house ⟨rfl⟩
    exact h'.request (by rw [hpc]; rfl)
  | @locked house lock work hpc _ hhouse _ _ _ hspawned =>
    refine ⟨nofun, ?_, ?_⟩
    · rintro _ ⟨rfl⟩
      exact hhouse ▸ h'.request (by rw [hpc]; rfl)
    · rintro _ t ⟨rfl⟩ ht
      simp [hspawned] at ht
  | unbound _ _ _ _ | busy _ _ | joinedText _ _ _ | joinedLost _ _ _ | deadline _ | marked _ _ =>
    exact h'.with_pc (by simp [context])
  | watch _ _ => exact ⟨by simp [context], h'.work, h'.turn⟩
  | markFailed _ hw _ _ =>
    have hvalid := h'.work hw
    have hturn := fun t => h'.turn (t := t) hw
    refine ⟨by simp [context], ?_, ?_⟩
    · rintro _ ⟨rfl⟩
      exact hvalid
    · rintro _ t ⟨rfl⟩ ht
      exact hturn t ht
  | turnKnown hw _ hthread =>
    refine h'.with_work hw rfl ?_
    rintro t ⟨rfl⟩
    exact (h'.work hw).thread hthread
  | saved hw _ hs =>
    refine h'.with_work hw rfl ?_
    rintro t ⟨rfl⟩
    exact (Store.saveThreadId_spec hs).2.1
  | startCalled hw _ _ | started hw _ | saveFailed hw _ _ | answered hw _ | runtimeFailed hw _ _
  | dropped hw _ _ => exact h'.with_work hw rfl nofun
  | watcherText _ _ _ | watcherLost _ _ _ | readySaved _ _ | pendingCleared _ _ =>
    exact ⟨h'.request, h'.work, h'.turn⟩

theorem known_calls (hi : ∀ {c' : CallId} {d}, s.calls[c']? = some d → Known s.shared.store d)
    (hc : s.calls[c]? = some call) (ht : TaskStep engine s.shared c call e sh' call' os)
    {c' : CallId} {d : Call} (hd : (s.calls.set c call')[c']? = some d) : Known sh'.store d := by
  rcases getElem?_set_cases hd with ⟨_, rfl⟩ | ⟨_, hd⟩
  · exact known_step ht (hi hc)
  · exact (hi hd).mono (extends_step ht)

theorem known_arrive (hi : ∀ {c' : CallId} {d}, s.calls[c']? = some d → Known s.shared.store d)
    {input : HouseholdInput} {c' : CallId} {d : Call}
    (hd : (s.calls ++ [⟨input, .resolveSurface, none, none⟩])[c']? = some d) :
    Known s.shared.store d := by
  rcases getElem?_concat_cases hd with ⟨_, rfl⟩ | hd
  · exact ⟨by simp [context], by simp, by simp⟩
  · exact hi hd

/-! ## Threads of turns -/

/-- The ids that `start_thread` returned. -/
def startedId : Obs → Option Text
  | .threadStarted _ _ t => some t
  | _ => none

def startedIds (os : List Obs) : List Text := os.filterMap startedId

theorem turn_step (ht : TaskStep engine sh c call e sh' call' os) {c' : CallId} {house : HouseId}
    {t u : Text} (h : .turn c' house t u ∈ os) :
    ∃ work, call'.work = some work ∧ work.pc = .turn t ∧ work.house.id = house := by
  cases ht with
  | slot _ _ =>
    rcases mem_slot h with h | h | ⟨_, h⟩
    · cases h
    · cases slotObs_ofSlot _ h
    · cases h
  | turnKnown _ _ _ | saved _ _ _ =>
    obtain ⟨rfl, rfl, rfl, rfl⟩ := by simpa using h
    exact ⟨_, rfl, rfl, rfl⟩
  | _ => simp at h

structure ThreadInv (store₀ : Store) (s : State) (os : List Obs) : Prop where
  known : ∀ {c : CallId} {call}, s.calls[c]? = some call → Known s.shared.store call
  turns : ∀ {c house t u}, .turn c house t u ∈ os → s.shared.store.thread house = some t
  saving : ∀ {c : CallId} {call work t}, s.calls[c]? = some call → call.work = some work →
    work.pc = .saveThreadId t → .threadStarted c work.house.id t ∈ os
  origin : ∀ {house t}, s.shared.store.thread house = some t →
    store₀.thread house = some t ∨ ∃ c, .threadStarted c house t ∈ os

/-- A thread id about to be saved has just been returned, or was there before. -/
theorem saving_step (ht : TaskStep engine sh c call e sh' call' os) {work' : Work} {t : Text}
    (hw' : call'.work = some work') (hpc : work'.pc = .saveThreadId t) :
    .threadStarted c work'.house.id t ∈ os ∨
      ∃ work, call.work = some work ∧ work.pc = .saveThreadId t ∧ work.house = work'.house := by
  cases ht with
  | started _ _ =>
    obtain rfl := Option.some.inj hw'
    obtain rfl := WorkPc.saveThreadId.inj hpc
    exact .inl (by simp)
  | locked _ _ _ _ _ _ hspawned =>
    obtain rfl := Option.some.inj hw'
    simp [hspawned] at hpc
  | markFailed _ hw _ _ =>
    obtain rfl := Option.some.inj hw'
    exact .inr ⟨_, hw, hpc, rfl⟩
  | turnKnown _ _ _ | startCalled _ _ _ | saved _ _ _ | saveFailed _ _ _ | answered _ _
  | runtimeFailed _ _ _ | dropped _ _ _ =>
    obtain rfl := Option.some.inj hw'
    cases hpc
  | _ => exact .inr ⟨_, hw', hpc, rfl⟩

theorem origin_save {store store' : Store} {house other : HouseId} {t u : Text}
    (h : store.saveThreadId house t = some store') (hu : store'.thread other = some u) :
    store.thread other = some u ∨ (other = house ∧ u = t) := by
  obtain ⟨_, hset, _, hother⟩ := Store.saveThreadId_spec h
  by_cases ho : other = house
  · subst ho
    exact .inr ⟨rfl, Option.some.inj (hu.symm.trans hset)⟩
  · exact .inl ((hother other ho).symm.trans hu)

theorem threadInv_task {store₀ : Store} (hi : ThreadInv store₀ s os) (hc : s.calls[c]? = some call)
    (ht : TaskStep engine s.shared c call e sh' call' o) :
    ThreadInv store₀ ⟨sh', s.calls.set c call'⟩ (os ++ o) := by
  have hext := extends_step ht
  have hknown := known_step ht (hi.known hc)
  refine ⟨fun hd => known_calls hi.known hc ht hd, ?_, ?_, ?_⟩
  · intro c' house t u hturn
    rcases List.mem_append.mp hturn with hturn | hturn
    · exact hext.thread (hi.turns hturn)
    · obtain ⟨work, hw, hpc, rfl⟩ := turn_step ht hturn
      exact hknown.turn hw hpc
  · intro c' d work t hd hw hpc
    rcases getElem?_set_cases hd with ⟨rfl, rfl⟩ | ⟨_, hd⟩
    · rcases saving_step ht hw hpc with hnew | ⟨work₀, hw₀, hpc₀, hhouse⟩
      · exact List.mem_append_right _ hnew
      · exact List.mem_append_left _ (hhouse ▸ hi.saving hc hw₀ hpc₀)
    · exact List.mem_append_left _ (hi.saving hd hw hpc)
  · intro house t hthread
    have hold : s.shared.store.thread house = some t →
        store₀.thread house = some t ∨ ∃ c, .threadStarted c house t ∈ os ++ o := fun hthread =>
      (hi.origin hthread).imp_right fun ⟨c, hc⟩ => ⟨c, List.mem_append_left _ hc⟩
    rcases houses_step ht with hsame | ⟨work, u, hw, hpc, hsave⟩
    · exact hold (by rwa [Store.thread, hsame] at hthread)
    · rcases origin_save hsave hthread with hthread | ⟨rfl, rfl⟩
      · exact hold hthread
      · exact .inr ⟨c, List.mem_append_left _ (hi.saving hc hw hpc)⟩

theorem threadInv {store : Store} {as : List Action}
    (h : (machine engine).exec (initial store) as = some (s, os)) : ThreadInv store s os := by
  refine (run_invariant (ThreadInv store) ?_ ?_ ?_ ?_ (Machine.Along.free _ _) h).1
  · exact ⟨by simp [initial], by simp, by simp [initial], fun h => .inl h⟩
  · intro s os input hi _
    refine ⟨known_arrive hi.known, hi.turns, fun hd hw hpc => ?_, hi.origin⟩
    rcases getElem?_concat_cases hd with ⟨_, rfl⟩ | hd
    · cases hw
    · exact hi.saving hd hw hpc
  · exact fun hi _ hc _ ht => threadInv_task hi hc ht
  · intro s os a house app slots hi _ _
    exact ⟨fun hd => (hi.known hd).mono (.of_houses rfl), hi.turns, hi.saving, hi.origin⟩

theorem extends_state (hstep : step engine s a = some (s', o)) :
    Extends s.shared.store s'.shared.store := by
  rcases step_cases hstep with ⟨_, _, _, rfl⟩ | ⟨_, _, _, _, _, _, _, ht, rfl⟩ |
    ⟨_, _, _, _, rfl, _⟩
  · exact .of_houses rfl
  · exact extends_step ht
  · exact .of_houses rfl

theorem extends_run : ∀ {as : List Action} {s : State} {os : List Obs},
    (machine engine).exec s as = some (s', os) → Extends s.shared.store s'.shared.store
  | [], s, _, h => by
    obtain ⟨rfl, _⟩ := Prod.mk.injEq .. ▸ Option.some.inj h
    exact .of_houses rfl
  | a :: as, s, _, h => by
    obtain ⟨r, q, hr, hq, _⟩ := Machine.exec_cons h
    have hfirst := extends_state hr
    have hrest := extends_run hq
    exact ⟨fun h => hrest.row (hfirst.row h), fun h => hrest.thread (hfirst.thread h)⟩

/-- Two starts that returned the same id are the same start, when no id is
returned twice. -/
theorem started_house (hnodup : (startedIds os).Nodup) {c c' : CallId} {house house' : HouseId}
    {t : Text} (h : .threadStarted c house t ∈ os) (h' : .threadStarted c' house' t ∈ os) :
    house = house' := by
  have hpair := List.pairwise_filterMap.mp hnodup
  have : Std.Symm fun x y : Obs =>
      ∀ i, startedId x = some i → ∀ j, startedId y = some j → i ≠ j :=
    ⟨fun _ _ hxy i hi j hj => (hxy j hj i hi).symm⟩
  by_contra hne
  have hdiff := hpair.forall h h' (by simp [hne])
  exact hdiff t rfl t rfl rfl

end Steps

/-- A persisted thread never changes, every turn of a house carries the persisted
thread, and turns of two houses never share one if `start_thread` returns ids
that are neither persisted nor returned before. -/
theorem one_thread_per_house (engine : HouseholdEngine) (store : Store) {as bs : List Action}
    {m s : State} {os os' : List Obs}
    (h : (machine engine).exec (initial store) as = some (m, os))
    (h' : (machine engine).exec m bs = some (s, os')) :
    (∀ house t, m.shared.store.thread house = some t → s.shared.store.thread house = some t) ∧
    (∀ c house t u, .turn c house t u ∈ os ++ os' → s.shared.store.thread house = some t) ∧
    ((∀ house house' t, store.thread house = some t → store.thread house' = some t →
        house = house') →
      (startedIds (os ++ os')).Nodup →
      (∀ t ∈ startedIds (os ++ os'), ∀ house, store.thread house ≠ some t) →
      ∀ c c' house house' t u u', .turn c house t u ∈ os ++ os' →
        .turn c' house' t u' ∈ os ++ os' → house = house') := by
  have hi := threadInv (Machine.exec_append_of h h')
  refine ⟨fun house t ht => (extends_run h').thread ht, fun c house t u => hi.turns, ?_⟩
  intro hdistinct hnodup hfresh c c' house house' t u u' hturn hturn'
  have hstarted : ∀ {c house}, .threadStarted c house t ∈ os ++ os' →
      ∀ house', store.thread house' ≠ some t := fun hmem =>
    hfresh t (List.mem_filterMap.mpr ⟨_, hmem, rfl⟩)
  rcases hi.origin (hi.turns hturn), hi.origin (hi.turns hturn') with
    ⟨hold | ⟨_, hnew⟩, hold' | ⟨_, hnew'⟩⟩
  · exact hdistinct _ _ _ hold hold'
  · exact absurd hold (hstarted hnew' _)
  · exact absurd hold' (hstarted hnew _)
  · exact started_house hnodup hnew hnew'

/-- A first request starts the thread of its house and runs its turn. -/
def firstTurn : List Action :=
  [.arrive ⟨⟨['o'], ['a']⟩, ['?'], false⟩, .task 0 (.resolve (.bound 1)), .task 0 (.slot .ok),
    .task 0 (.slot .ok), .task 0 .lockEntry, .task 0 .tryLock, .task 0 .workBegin,
    .task 0 (.threadStarted (some ['t'])), .task 0 (.threadSaved .ok)]

theorem one_thread_per_house_first :
    ∃ s os, (machine ⟨⟨850, by decide⟩, false⟩).exec
        (initial (fixture 1 ⟨['Д'], none, ['h']⟩)) firstTurn = some (s, os) ∧
      .turn 0 1 ['t'] ['?'] ∈ os ∧
      ∀ c t u, .turn c 1 t u ∈ os → s.shared.store.thread 1 = some t := by
  have hrun : ((machine ⟨⟨850, by decide⟩, false⟩).exec
      (initial (fixture 1 ⟨['Д'], none, ['h']⟩)) firstTurn).isSome = true := by decide
  have hexec := (Option.some_get hrun).symm
  have hmore : (machine ⟨⟨850, by decide⟩, false⟩).exec (Option.get _ hrun).1 [] =
      some ((Option.get _ hrun).1, []) := rfl
  refine ⟨_, _, hexec, by decide, fun c t u hturn => ?_⟩
  exact (one_thread_per_house _ _ hexec hmore).2.1 c 1 t u (List.mem_append_left _ hturn)

/-! ## Starting a thread -/

/-- The snapshot and the mutex of a `try_lock_owned` step. -/
def lockAttempt (s : State) : Action → Option (HouseContext × LockId)
  | .task c .tryLock => s.calls[c]?.bind fun call =>
    match call.pc with
    | .tryLock house lock => some (house, lock)
    | _ => none
  | _ => none

/-- A snapshot without a thread is up to date when its request takes the lock. -/
def Current (s : State) (a : Action) : Prop :=
  ∀ p ∈ lockAttempt s a, s.shared.locked p.2 = false → p.1.codexThreadId = none →
    s.shared.store.thread p.1.id = none

instance (s : State) (a : Action) : Decidable (Current s a) :=
  inferInstanceAs (Decidable (∀ p ∈ lockAttempt s a, s.shared.locked p.2 = false →
    p.1.codexThreadId = none → s.shared.store.thread p.1.id = none))

/-- No store operation fails, nor does the task panic in its only one. -/
def StoreWorks (s : State) : Action → Prop
  | .task _ (.resolve .failed) | .task _ (.slot (.err _)) | .task _ (.mark (.err _))
  | .task _ (.threadSaved (.err _)) | .task _ (.watcherStore (.err _)) => False
  | .task c .panic => ∀ call work t, s.calls[c]? = some call → call.work = some work →
      work.pc ≠ .saveThreadId t
  | _ => True

/-- The work is about to call `start_thread`, waits for it, or saves what it returned. -/
def Starting (work : Work) : Prop :=
  (work.pc = .spawned ∧ work.house.codexThreadId = none) ∨ work.pc = .startThread ∨
    ∃ t, work.pc = .saveThreadId t

theorem Starting.holdsGuard {work : Work} (h : Starting work) : work.pc.holdsGuard = true := by
  rcases h with ⟨h, _⟩ | h | ⟨t, h⟩ <;> rw [h] <;> rfl

structure StartInv (s : State) : Prop where
  locks : LockInv s
  known : ∀ {c : CallId} {call}, s.calls[c]? = some call → Known s.shared.store call
  absent : ∀ {c : CallId} {call work}, s.calls[c]? = some call → call.work = some work →
    Starting work → s.shared.store.thread work.house.id = none

section Start

variable {engine : HouseholdEngine} {sh' : Shared} {s : State} {c : CallId}
  {call call' : Call} {e : Event} {os o : List Obs}

/-- Two works of one house that hold their guards are the same work. -/
theorem StartInv.single (hi : StartInv s) {c c' : CallId} {call call' : Call} {work work' : Work}
    (hc : s.calls[c]? = some call) (hw : call.work = some work) (hg : work.pc.holdsGuard = true)
    (hc' : s.calls[c']? = some call') (hw' : call'.work = some work')
    (hg' : work'.pc.holdsGuard = true) (hhouse : work.house.id = work'.house.id) : c = c' := by
  have hold : Holds s.calls c work.house.id work.lock := ⟨call, hc, guard_some hw hg⟩
  have hold' : Holds s.calls c' work.house.id work'.lock :=
    ⟨call', hc', hhouse ▸ guard_some hw' hg'⟩
  have hsame := Option.some.inj ((hi.locks.holds hold).1.symm.trans (hi.locks.holds hold').1)
  exact hi.locks.single hold (hsame ▸ hold')

/-- What a starting work was before the step: it was starting already, or it has
just been spawned from a snapshot without a thread. -/
theorem starting_step (ht : TaskStep engine s.shared c call e sh' call' o) {work' : Work}
    (hw' : call'.work = some work') (hs : Starting work') :
    (∃ work, call.work = some work ∧ work.house = work'.house ∧ Starting work) ∨
    (∃ lock, e = .tryLock ∧ call.pc = .tryLock work'.house lock ∧
      s.shared.locked lock = false ∧ work'.house.codexThreadId = none) := by
  cases ht with
  | locked hpc hl hhouse _ _ _ hspawned =>
    obtain rfl := Option.some.inj hw'
    refine .inr ⟨_, rfl, hhouse ▸ hpc, hl, ?_⟩
    rcases hs with ⟨_, hnone⟩ | h | ⟨_, h⟩
    · exact hnone
    · simp [hspawned] at h
    · simp [hspawned] at h
  | startCalled hw hpc hnone =>
    obtain rfl := Option.some.inj hw'
    exact .inl ⟨_, hw, rfl, .inl ⟨hpc, hnone⟩⟩
  | started hw hpc =>
    obtain rfl := Option.some.inj hw'
    exact .inl ⟨_, hw, rfl, .inr (.inl hpc)⟩
  | markFailed _ hw _ _ =>
    obtain rfl := Option.some.inj hw'
    exact .inl ⟨_, hw, rfl, hs⟩
  | turnKnown _ _ _ | saved _ _ _ | saveFailed _ _ _ | answered _ _ | runtimeFailed _ _ _
  | dropped _ _ _ =>
    obtain rfl := Option.some.inj hw'
    rcases hs with ⟨h, _⟩ | h | ⟨_, h⟩ <;> cases h
  | _ => exact .inl ⟨_, hw', rfl, hs⟩

/-- An absent thread stays absent, unless the step ends the save of a work of
that house. -/
theorem absent_step (ht : TaskStep engine s.shared c call e sh' call' o) {house : HouseId}
    (hnone : s.shared.store.thread house = none) :
    sh'.store.thread house = none ∨ ∃ work t, call.work = some work ∧
      work.pc = .saveThreadId t ∧ work.house.id = house ∧
      ∀ work', call'.work = some work' → ¬ Starting work' := by
  have hsaved : ∀ {work : Work} {t store},
      s.shared.store.saveThreadId work.house.id t = some store →
        store.thread house = none ∨ work.house.id = house := by
    intro work t store hsave
    by_cases hh : house = work.house.id
    · exact .inr hh.symm
    · exact .inl (((Store.saveThreadId_spec hsave).2.2.2 house hh).trans hnone)
  cases ht with
  | saved hw hpc hs =>
    refine (hsaved hs).imp_right fun hh => ⟨_, _, hw, hpc, hh, ?_⟩
    rintro _ ⟨rfl⟩ (⟨h, _⟩ | h | ⟨_, h⟩) <;> cases h
  | saveFailed hw hpc hs =>
    rcases hs with ⟨rfl, _⟩ | ⟨_, hs⟩
    · exact .inl hnone
    · refine (hsaved hs).imp_right fun hh => ⟨_, _, hw, hpc, hh, ?_⟩
      rintro _ ⟨rfl⟩ (⟨h, _⟩ | h | ⟨_, h⟩) <;> cases h
  | _ => exact .inl hnone

theorem startInv_task (hi : StartInv s) (hC : Current s (.task c e)) (hc : s.calls[c]? = some call)
    (hf : Formed call) (ht : TaskStep engine s.shared c call e sh' call' o) :
    StartInv ⟨sh', s.calls.set c call'⟩ := by
  refine ⟨lockInv_task hi.locks hc (lockStep ht hf), known_calls hi.known hc ht, ?_⟩
  intro c' d work' hd hw' hs
  rcases getElem?_set_cases hd with ⟨_, rfl⟩ | ⟨hne, hd⟩
  · have hnone : s.shared.store.thread work'.house.id = none := by
      rcases starting_step ht hw' hs with ⟨work, hw, hhouse, hs₀⟩ | ⟨lock, rfl, hpc, hfree, hsnap⟩
      · exact hhouse ▸ hi.absent hc hw hs₀
      · exact hC (work'.house, lock) (by simp [lockAttempt, hc, hpc]) hfree hsnap
    rcases absent_step ht hnone with h | ⟨_, _, _, _, _, hno⟩
    · exact h
    · exact absurd hs (hno work' hw')
  · -- the work of another call holds the lock of the house, so this step saves no thread for it
    rcases absent_step ht (hi.absent hd hw' hs) with h | ⟨work, t, hw, hpc, hhouse, _⟩
    · exact h
    · exact absurd (hi.single hd hw' hs.holdsGuard hc hw (by rw [hpc]; rfl) hhouse.symm) hne

theorem startInv_initial (store : Store) : StartInv (initial store) :=
  ⟨lockInv_initial store, by simp [initial], by simp [initial]⟩

theorem startInv_arrive (hi : StartInv s) (input : HouseholdInput) :
    StartInv { s with calls := s.calls ++ [⟨input, .resolveSurface, none, none⟩] } := by
  refine ⟨lockInv_arrive hi.locks input, known_arrive hi.known, fun hd hw hs => ?_⟩
  rcases getElem?_concat_cases hd with ⟨_, rfl⟩ | hd
  · cases hw
  · exact hi.absent hd hw hs

theorem startInv_expire (hi : StartInv s) (house : HouseId) (app : Text) (slots : Slots) :
    StartInv { s with shared := s.shared.setSlots house app slots } := by
  obtain ⟨hl, hk, ha⟩ := hi
  exact ⟨⟨hl.fresh, hl.own, hl.trying, hl.holds, hl.held, hl.single⟩,
    fun hd => (hk hd).mono (.of_houses rfl), ha⟩

theorem startInv {store : Store} {as : List Action}
    (hC : (machine engine).Along Current (initial store) as)
    (h : (machine engine).exec (initial store) as = some (s, os)) : StartInv s :=
  (run_invariant (fun s _ => StartInv s) (startInv_initial store)
    (fun hi _ => startInv_arrive hi _) (fun hi hC hc hf ht => startInv_task hi hC hc hf ht)
    (fun hi _ _ => startInv_expire hi _ _ _) hC h).1

/-- The save of a started thread never meets another thread. -/
theorem StartInv.save_ok (hi : StartInv s) (hc : s.calls[c]? = some call) {work : Work} {t : Text}
    (hw : call.work = some work) (hpc : work.pc = .saveThreadId t) :
    s.shared.store.saveThreadId work.house.id t ≠ none := by
  intro hnone
  have habsent := hi.absent hc hw (.inr (.inr ⟨t, hpc⟩))
  have hrow := ((hi.known hc).work hw).row
  rcases Store.saveThreadId_none hnone with h | ⟨other, h, _⟩
  · simp [h] at hrow
  · simp [habsent] at h

theorem start_step (ht : TaskStep engine s.shared c call e sh' call' o) {c' : CallId}
    {house : HouseId} {i : Text} (h : .startThread c' house i ∈ o) :
    ∃ work, call.work = some work ∧ work.house.id = house ∧ Starting work := by
  cases ht with
  | slot _ _ =>
    rcases mem_slot h with h | h | ⟨_, h⟩
    · cases h
    · cases slotObs_ofSlot _ h
    · cases h
  | startCalled hw hpc hnone =>
    obtain ⟨rfl, rfl, rfl⟩ := by simpa using h
    exact ⟨_, hw, rfl, .inl ⟨hpc, hnone⟩⟩
  | _ => simp at h

/-! ## Counting the started threads -/

/-- The threads started for a house. -/
def startsOf (house : HouseId) (os : List Obs) : Nat :=
  os.countP fun o => match o with
    | .threadStarted _ h _ => h == house
    | _ => false

def Saving (s : State) (house : HouseId) : Prop :=
  ∃ (c : CallId) (call : Call) (work : Work) (t : Text), s.calls[c]? = some call ∧
    call.work = some work ∧ work.pc = .saveThreadId t ∧ work.house.id = house

/-- At most one thread was started for a house, and it is persisted or about to be. -/
structure CountInv (s : State) (os : List Obs) : Prop where
  start : StartInv s
  running : ∀ {c : CallId} {call work}, s.calls[c]? = some call → call.work = some work →
    work.aborting = false
  count : ∀ house, startsOf house os = 0 ∨
    (startsOf house os = 1 ∧ (s.shared.store.thread house ≠ none ∨ Saving s house))

theorem startsOf_append (house : HouseId) (os o : List Obs) :
    startsOf house (os ++ o) = startsOf house os + startsOf house o :=
  List.countP_append

/-- What a step adds to the started threads: nothing, or the one a work that
called `start_thread` is about to save. -/
theorem starts_step (ht : TaskStep engine s.shared c call e sh' call' o) :
    (∀ house, startsOf house o = 0) ∨ ∃ work t, call.work = some work ∧ work.pc = .startThread ∧
      call'.work = some { work with pc := .saveThreadId t } ∧
      o = [.threadStarted c work.house.id t] := by
  cases ht with
  | started hw hpc => exact .inr ⟨_, _, hw, hpc, rfl, rfl⟩
  | slot _ _ =>
    refine .inl fun house => List.countP_eq_zero.mpr fun o ho => ?_
    rcases mem_slot ho with rfl | ho | ⟨_, rfl⟩
    · simp
    · have := slotObs_ofSlot _ ho
      cases o <;> simp_all [Obs.ofSlot]
    · simp
  | _ => exact .inl fun house => rfl

theorem running_step (hC : StoreWorks s (.task c e))
    (hi : ∀ {work}, call.work = some work → work.aborting = false)
    (ht : TaskStep engine s.shared c call e sh' call' o) {work' : Work}
    (hw' : call'.work = some work') : work'.aborting = false := by
  cases ht with
  | markFailed _ _ _ _ => exact hC.elim
  | locked _ _ _ _ _ hab _ =>
    obtain rfl := Option.some.inj hw'
    exact hab
  | turnKnown hw _ _ | startCalled hw _ _ | started hw _ | saved hw _ _ | saveFailed hw _ _
  | answered hw _ | runtimeFailed hw _ _ | dropped hw _ _ =>
    obtain rfl := Option.some.inj hw'
    have hab := hi hw
    exact hab
  | _ => exact hi hw'

/-- With a working store a saving work either keeps saving or has persisted its thread. -/
theorem saving_persists (hi : StartInv s) (hC : StoreWorks s (.task c e))
    (hc : s.calls[c]? = some call) (hf : Formed call) {work : Work} (hab : work.aborting = false)
    (hw : call.work = some work) {t : Text} (hpc : work.pc = .saveThreadId t)
    (ht : TaskStep engine s.shared c call e sh' call' o) :
    (∃ work', call'.work = some work' ∧ work'.pc = .saveThreadId t ∧
      work'.house.id = work.house.id) ∨ sh'.store.thread work.house.id ≠ none := by
  have hsame : ∀ {w}, call.work = some w → w = work := fun h =>
    Option.some.inj (h.symm.trans hw)
  have hformer : ∀ {w pc}, call.work = some w → w.pc = pc → pc = .saveThreadId t := by
    rintro w pc hw' rfl
    rw [hsame hw', hpc]
  cases ht with
  | saved hw' hpc' hs =>
    obtain rfl := hsame hw'
    exact .inr (by simp [(Store.saveThreadId_spec hs).2.1])
  | @saveFailed _ _ _ outcome hw' hpc' hs =>
    obtain rfl := hsame hw'
    cases outcome with
    | err _ => exact hC.elim
    | ok =>
      rcases hs with ⟨_, hnone⟩ | ⟨h, _⟩
      · exact absurd (hnone rfl) (hi.save_ok hc hw' hpc')
      · cases h
  | dropped hw' hg he =>
    obtain rfl := hsame hw'
    rcases he with rfl | ⟨rfl, hab'⟩
    · exact absurd hpc (hC call _ t hc hw)
    · simp [hab] at hab'
  | runtimeFailed hw' hin _ =>
    obtain rfl := hsame hw'
    simp [hpc, WorkPc.inCall] at hin
  | turnKnown hw' hpc' _ | startCalled hw' hpc' _ | started hw' hpc' | answered hw' hpc' =>
    cases hformer hw' hpc'
  | locked hlock _ _ _ _ _ _ => simp [hf.before (by rw [hlock]; rfl)] at hw
  | markFailed _ hw' _ _ =>
    obtain rfl := hsame hw'
    exact .inl ⟨_, rfl, hpc, rfl⟩
  | _ => exact .inl ⟨work, hw, hpc, rfl⟩

theorem countInv_task (hi : CountInv s os) (hC : StoreWorks s (.task c e))
    (hcur : Current s (.task c e)) (hc : s.calls[c]? = some call) (hf : Formed call)
    (ht : TaskStep engine s.shared c call e sh' call' o) :
    CountInv ⟨sh', s.calls.set c call'⟩ (os ++ o) := by
  refine ⟨startInv_task hi.start hcur hc hf ht, ?_, ?_⟩
  · intro c' d work hd hw
    rcases getElem?_set_cases hd with ⟨_, rfl⟩ | ⟨_, hd⟩
    · exact running_step hC (hi.running hc) ht hw
    · exact hi.running hd hw
  · intro house
    -- a thread that was persisted or about to be still is
    have hkeep : (s.shared.store.thread house ≠ none ∨ Saving s house) →
        sh'.store.thread house ≠ none ∨ Saving ⟨sh', s.calls.set c call'⟩ house := by
      rintro (hthread | ⟨c', d, work, t, hd, hw, hpc, rfl⟩)
      · obtain ⟨t, ht'⟩ := Option.ne_none_iff_exists'.mp hthread
        exact .inl (by simp [(extends_step ht).thread ht'])
      · by_cases hcc : c' = c
        · subst hcc
          obtain rfl := Option.some.inj (hc.symm.trans hd)
          rcases saving_persists hi.start hC hc hf (hi.running hc hw) hw hpc ht with
            ⟨work', hw', hpc', hhouse⟩ | h
          · exact .inr ⟨c', call', work', t, getElem?_set_self hc, hw', hpc', hhouse⟩
          · exact .inl h
        · refine .inr ⟨c', d, work, t, ?_, hw, hpc, rfl⟩
          rw [List.getElem?_set_ne (Ne.symm hcc)]
          exact hd
    rw [startsOf_append]
    rcases starts_step ht with hzero | ⟨work, t, hw, hpc, hw', rfl⟩
    · rw [hzero house, Nat.add_zero]
      exact (hi.count house).imp_right fun ⟨h, hk⟩ => ⟨h, hkeep hk⟩
    · by_cases hh : work.house.id = house
      · subst hh
        -- the work was starting, so no other start of its house can have come before
        have hstarting : Starting work := .inr (.inl hpc)
        rcases hi.count work.house.id with h | ⟨_, hthread | ⟨c', d, w, u, hd, hw₁, hpc₁, hh₁⟩⟩
        · have hone : startsOf work.house.id [.threadStarted c work.house.id t] = 1 := by
            simp [startsOf]
          rw [h, hone]
          exact .inr ⟨rfl, .inr ⟨c, call', _, t, getElem?_set_self hc, hw', rfl, rfl⟩⟩
        · exact absurd (hi.start.absent hc hw hstarting) hthread
        · obtain rfl := hi.start.single hd hw₁ (by rw [hpc₁]; rfl) hc hw hstarting.holdsGuard hh₁
          obtain rfl := Option.some.inj (hc.symm.trans hd)
          obtain rfl := Option.some.inj (hw.symm.trans hw₁)
          simp [hpc] at hpc₁
      · have hzero : startsOf house [.threadStarted c work.house.id t] = 0 := by
          simp [startsOf, hh]
        rw [hzero, Nat.add_zero]
        exact (hi.count house).imp_right fun ⟨h, hk⟩ => ⟨h, hkeep hk⟩

theorem countInv {store : Store} {as : List Action}
    (hC : (machine engine).Along (fun s a => Current s a ∧ StoreWorks s a) (initial store) as)
    (h : (machine engine).exec (initial store) as = some (s, os)) : CountInv s os := by
  refine (run_invariant CountInv ?_ ?_ ?_ ?_ hC h).1
  · exact ⟨startInv_initial store, by simp [initial], fun _ => .inl rfl⟩
  · intro s os input hi _
    refine ⟨startInv_arrive hi.start input, fun hd hw => ?_, fun house => ?_⟩
    · rcases getElem?_concat_cases hd with ⟨_, rfl⟩ | hd
      · cases hw
      · exact hi.running hd hw
    · refine (hi.count house).imp_right (And.imp_right (Or.imp_right ?_))
      rintro ⟨c, call, work, t, hc, hw, hpc, hhouse⟩
      refine ⟨c, call, work, t, ?_, hw, hpc, hhouse⟩
      rw [List.getElem?_append_left (List.getElem?_eq_some_iff.mp hc).1]
      exact hc
  · exact fun hi hC hc hf ht => countInv_task hi hC.2 hC.1 hc hf ht
  · exact fun hi _ _ => ⟨startInv_expire hi.start _ _ _, hi.running, hi.count⟩

end Start

/-- If snapshots without a thread are up to date whenever the lock is taken, no
thread is started for a house that has one, no save meets another thread, and
with a working store at most one thread is started for a house. -/
theorem one_start_of_current (engine : HouseholdEngine) (store : Store) {as : List Action}
    {s : State} {os : List Obs} (h : (machine engine).exec (initial store) as = some (s, os))
    (hcur : (machine engine).Along Current (initial store) as) :
    (∀ a s' o c house i, step engine s a = some (s', o) → .startThread c house i ∈ o →
      s.shared.store.thread house = none) ∧
    (∀ (c : CallId) (call : Call) (work : Work) (t : Text), s.calls[c]? = some call →
      call.work = some work → work.pc = .saveThreadId t →
      s.shared.store.saveThreadId work.house.id t ≠ none) ∧
    ((machine engine).Along StoreWorks (initial store) as → ∀ house, startsOf house os ≤ 1) := by
  have hi := startInv hcur h
  refine ⟨?_, fun c call work t hc hw hpc => hi.save_ok hc hw hpc, fun hworks house => ?_⟩
  · intro a s' o c house i hstep hstart
    rcases step_cases hstep with ⟨_, _, rfl, _⟩ | ⟨_, _, _, _, _, _, hc, ht, _⟩ |
      ⟨_, _, _, rfl, _⟩
    · cases hstart
    · obtain ⟨work, hw, rfl, hs⟩ := start_step ht hstart
      exact hi.absent hc hw hs
    · cases hstart
  · rcases (countInv (hcur.and hworks) h).count house with hzero | ⟨hone, _⟩ <;> omega


theorem one_start_of_current_first :
    ∃ s os, (machine ⟨⟨850, by decide⟩, false⟩).exec
        (initial (fixture 1 ⟨['Д'], none, ['h']⟩)) firstTurn = some (s, os) ∧
      startsOf 1 os = 1 ∧ ∀ (c : CallId) (call : Call) (work : Work) (t : Text),
        s.calls[c]? = some call → call.work = some work → work.pc = .saveThreadId t →
        s.shared.store.saveThreadId work.house.id t ≠ none := by
  have hrun : ((machine ⟨⟨850, by decide⟩, false⟩).exec
      (initial (fixture 1 ⟨['Д'], none, ['h']⟩)) firstTurn).isSome = true := by decide
  have hexec := (Option.some_get hrun).symm
  exact ⟨_, _, hexec, by decide, (one_start_of_current _ _ hexec (by decide)).2.1⟩

/-- Two accounts of a house without a thread resolve before the first turn starts one. -/
def staleSnapshot : List Action :=
  [.arrive ⟨⟨['o'], ['a']⟩, ['?'], false⟩, .arrive ⟨⟨['m'], ['b']⟩, ['?'], false⟩,
    .task 0 (.resolve (.bound 1)), .task 1 (.resolve (.bound 1)),
    .task 0 (.slot .ok), .task 0 (.slot .ok), .task 0 .lockEntry, .task 0 .tryLock,
    .task 0 .workBegin, .task 0 (.threadStarted (some ['t'])), .task 0 (.threadSaved .ok),
    .task 0 (.turned (some ['!'])), .task 0 .joined, .task 0 (.slot .ok),
    .task 1 (.slot .ok), .task 1 (.slot .ok), .task 1 .lockEntry, .task 1 .tryLock]

/-- The house of a `start_thread` call. -/
def startHouse : Obs → Option HouseId
  | .startThread _ house _ => some house
  | _ => none

/-- The second request starts a thread although the first has persisted one. -/
theorem start_despite_thread :
    ¬ ∀ as s os a s' o c house i, (machine ⟨⟨850, by decide⟩, false⟩).exec
        (initial (fixture 1 ⟨['Д'], none, ['h']⟩)) as = some (s, os) →
      step ⟨⟨850, by decide⟩, false⟩ s a = some (s', o) → .startThread c house i ∈ o →
      s.shared.store.thread house = none := by
  intro h
  have hbad : ((machine ⟨⟨850, by decide⟩, false⟩).exec
      (initial (fixture 1 ⟨['Д'], none, ['h']⟩)) staleSnapshot).map (fun r =>
        (r.1.shared.store.thread 1, (step ⟨⟨850, by decide⟩, false⟩ r.1 (.task 1 .workBegin)).map
          fun q => q.2.filterMap startHouse)) = some (some ['t'], some [1]) := by decide
  obtain ⟨⟨s, os⟩, hexec, hr⟩ := Option.map_eq_some_iff.mp hbad
  obtain ⟨hthread, hstarts⟩ := Prod.mk.injEq .. ▸ hr
  obtain ⟨⟨s', o⟩, hstep, ho⟩ := Option.map_eq_some_iff.mp hstarts
  have hmem : 1 ∈ o.filterMap startHouse := by simp [ho]
  obtain ⟨obs, hobs, hstart⟩ := List.mem_filterMap.mp hmem
  cases obs with
  | startThread c house i =>
    obtain rfl := Option.some.inj hstart
    simp [h _ s os _ s' o c 1 i hexec hstep hobs] at hthread
  | _ => cases hstart

end AliceBridge.Core.HouseThreads
