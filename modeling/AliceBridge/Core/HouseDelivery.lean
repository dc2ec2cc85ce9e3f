import AliceBridge.Core.HouseViews

/-! # Answers reach the surface that asked

When each surface waits for its reply before it asks again and the store works,
at most one call is engaged with the entries of a surface (`Owned`): a second
one would find the entry of a watcher, say so and leave. The invariant is that
what the surface has seen are its answers in order, and that the rest of the
last one is what the engaged call, or the entries, hold. -/
namespace AliceBridge.Core.HouseDelivery
open AliceBridge.Lib.Utf8 AliceBridge.Lib.Run AliceBridge.Lib.Delivery AliceBridge.Core.Reply
open AliceBridge.Core.Household AliceBridge.Core.HouseEngine AliceBridge.Core.HouseSteps
open AliceBridge.Core.HouseCalls AliceBridge.Core.HouseViews

/-! ## Steps of calls -/

section Calls

variable {engine : HouseholdEngine} {sh sh' : Shared} {c : CallId} {call call' : Call} {e : Event}
  {o : List Obs}

theorem app_step (ht : TaskStep engine sh c call e sh' call' o) : call'.app = call.app := by
  unfold Call.app
  rw [input_step ht]

theorem attended_step (hok : Succeeds e) (ht : TaskStep engine sh c call e sh' call' o)
    (hf : Formed call) (h : Attended call) : Attended call' := by
  intro work' hw' hg
  cases ht with
  | bound hpc _ | unbound hpc _ _ _ | lockFound hpc _ | lockMade hpc _ | busy hpc _ =>
    simp [hf.before (by rw [hpc]; rfl)] at hw'
  | slot hh _ =>
    exfalso
    cases hp : call.pc with
    | takeContinuation _ | saveBack _ _ | clearReady _ _ | pollPending _ =>
      simp [hf.before (by rw [hp]; rfl)] at hw'
    | shapeAndSave house text source =>
      cases source with
      | continuation | ready => simp [hf.before (by rw [hp]; rfl)] at hw'
      | fresh =>
        obtain ⟨work, hw, _, hfin⟩ := hf.fresh house text hp
        obtain rfl := Option.some.inj (hw.symm.trans hw')
        simp [hfin, WorkPc.holdsGuard] at hg
    | _ => simp [hp, Pc.slotHouse] at hh
  | locked _ _ _ _ _ _ _ | deadline _ | marked _ _ => exact .inl rfl
  | joinedText hpc hw hfin =>
    obtain rfl := Option.some.inj (hw.symm.trans hw')
    simp [hfin, WorkPc.holdsGuard] at hg
  | joinedLost hpc hw hlost =>
    obtain rfl := Option.some.inj (hw.symm.trans hw')
    rcases hlost with hlost | hlost <;> simp [hlost, WorkPc.holdsGuard] at hg
  | markFailed _ _ _ _ => exact absurd hok (by simp [Succeeds])
  | watch _ _ => exact .inr rfl
  | turnKnown hw hwpc _ | startCalled hw hwpc _ | started hw hwpc | saved hw hwpc _
  | saveFailed hw hwpc _ | answered hw hwpc => exact h hw (by rw [hwpc]; rfl)
  | runtimeFailed hw hin _ => exact h hw (inCall_holdsGuard hin)
  | dropped hw hg' _ => exact h hw hg'
  | watcherText hw hv hfin =>
    obtain rfl := Option.some.inj (hw.symm.trans hw')
    simp [hfin, WorkPc.holdsGuard] at hg
  | watcherLost hw hv hlost =>
    obtain rfl := Option.some.inj (hw.symm.trans hw')
    rcases hlost with hlost | hlost <;> simp [hlost, WorkPc.holdsGuard] at hg
  | readySaved _ hv | pendingCleared _ hv =>
    rcases h hw' hg with hpc | hj
    · exact .inl hpc
    · simp [hv] at hj

/-- A request that has replied stays so. -/
theorem live_step (ht : TaskStep engine sh c call e sh' call' o) (h : Call.live call' = true) :
    Call.live call = true := by
  cases ht with
  | slot hh _ => cases hp : call.pc <;> simp_all [Pc.slotHouse, Call.live]
  | _ => simp_all [Call.live]

/-- A call that has replied makes no slot operations. -/
theorem not_slot (ht : TaskStep engine sh c call e sh' call' o) (hlive : Call.live call = false)
    (outcome : Outcome) : e ≠ .slot outcome := by
  rintro rfl
  cases ht with
  | slot hh _ => cases hp : call.pc <;> simp_all [Pc.slotHouse, Call.live]
  | runtimeFailed _ _ he | dropped _ _ he => simp at he

theorem slots_other (ht : TaskStep engine sh c call e sh' call' o) {house : HouseId} {app : Text}
    (hne : app ≠ call.app) : sh'.slots house app = sh.slots house app := by
  have hset : ∀ {h slots}, (sh.setSlots h call.app slots).slots house app = sh.slots house app :=
    Store.setSlots_other fun hs => hne hs.2
  cases ht with
  | slot _ _ | marked _ _ | markFailed _ _ _ _ | readySaved _ _ | pendingCleared _ _ => exact hset
  | saved _ _ hs => simp [Shared.slots, (Store.saveThreadId_spec hs).1]
  | saveFailed _ _ hs =>
    rcases hs with ⟨rfl, _⟩ | ⟨_, hs⟩
    · rfl
    · simp [Shared.slots, release, Shared.setLocked, (Store.saveThreadId_spec hs).1]
  | _ => rfl

/-- Only slot operations of requests write continuations. -/
theorem continuation_kept (ht : TaskStep engine sh c call e sh' call' o)
    (he : ∀ outcome, e ≠ .slot outcome) (house : HouseId) (app : Text) :
    (sh'.slots house app).continuation = (sh.slots house app).continuation := by
  have hset : ∀ {h a slots}, slots.continuation = (sh.slots h a).continuation →
      ((sh.setSlots h a slots).slots house app).continuation =
        (sh.slots house app).continuation := by
    intro h a slots heq
    by_cases hs : house = h ∧ app = a
    · obtain ⟨rfl, rfl⟩ := hs
      simpa [Shared.slots, Shared.setSlots] using heq
    · exact congrArg Slots.continuation (Store.setSlots_other hs)
  cases ht with
  | slot _ _ => exact absurd rfl (he _)
  | marked _ _ => exact hset rfl
  | markFailed _ _ hcont _ => exact hset hcont
  | @readySaved _ _ outcome _ _ | @pendingCleared _ outcome _ _ =>
    refine hset ?_
    split <;> rfl
  | saved _ _ hs => simp [Shared.slots, (Store.saveThreadId_spec hs).1]
  | saveFailed _ _ hs =>
    rcases hs with ⟨rfl, _⟩ | ⟨_, hs⟩
    · rfl
    · simp [Shared.slots, release, Shared.setLocked, (Store.saveThreadId_spec hs).1]
  | _ => rfl

end Calls

/-! ## Stored chunks are the shaper's -/

/-- Chunks that are stored or carried back are the chunks of their own text. -/
structure Regular (shaper : ReplyShaper) (s : State) : Prop where
  stored : ∀ {house app chunks}, (s.shared.slots house app).continuation = some chunks →
    shaper.chunks chunks.flatten = chunks
  carried : ∀ {c : CallId} {call house chunks}, s.calls[c]? = some call →
    call.pc = .saveBack house chunks → shaper.chunks chunks.flatten = chunks

theorem chunks_ne_nil {shaper : ReplyShaper} {chunks : List Text}
    (h : shaper.chunks chunks.flatten = chunks) : chunks ≠ [] :=
  h ▸ (shaper.chunks_spec chunks.flatten).ne_nil

/-- The chunks that `split` leaves. -/
theorem chunks_remaining (shaper : ReplyShaper) (text : Text)
    (h : (shaper.split text).remaining ≠ []) :
    shaper.chunks (shaper.split text).remaining.flatten = (shaper.split text).remaining := by
  rcases shaper.split_cases text with ⟨_, hs⟩ | ⟨_, chunk, remaining, hs, _, _, _, _, hchunks⟩
  · simp [hs] at h
  · rw [hs]
    exact hchunks

section Regularity

variable {engine : HouseholdEngine} {sh sh' : Shared} {c : CallId} {call call' : Call} {e : Event}
  {o : List Obs} {shaper : ReplyShaper} {input : HouseholdInput} {slots slots' : Slots}
  {pc pc' : Pc} {outcome : Outcome}

theorem slot_regular (h : SlotStep shaper input slots pc outcome pc' slots')
    (hstored : ∀ {chunks}, slots.continuation = some chunks →
      shaper.chunks chunks.flatten = chunks)
    (hcarried : ∀ {house chunks}, pc = .saveBack house chunks →
      shaper.chunks chunks.flatten = chunks) :
    (∀ {chunks}, slots'.continuation = some chunks → shaper.chunks chunks.flatten = chunks) ∧
      ∀ {house chunks}, pc' = .saveBack house chunks → shaper.chunks chunks.flatten = chunks := by
  have hsave : ∀ {stored}, (stored ≠ [] → shaper.chunks stored.flatten = stored) →
      ∀ {chunks}, (slots.saveContinuation stored).continuation = some chunks →
        shaper.chunks chunks.flatten = chunks := by
    intro stored hs chunks hc
    rw [Slots.saveContinuation_continuation] at hc
    split at hc
    · cases hc
    · next hne =>
      obtain rfl := Option.some.inj hc
      exact hs (by simpa using hne)
  cases h with
  | failed _ =>
    refine ⟨?_, by simp⟩
    split
    · unfold slotEffect
      split
      · nofun
      · exact hsave fun _ => hcarried rfl
      · exact hsave (chunks_remaining shaper _)
      · exact hstored
      · exact hstored
    · exact hstored
  | taken hc =>
    refine ⟨nofun, ?_⟩
    unfold answerContinuation
    split
    · simp
    · rintro _ _ ⟨rfl, rfl⟩
      exact hstored hc
    · simp
  | polledNone _ =>
    refine ⟨hstored, ?_⟩
    unfold afterPoll
    split <;> simp
  | savedBack => exact ⟨hsave fun _ => hcarried rfl, by simp⟩
  | shaped _ | shapedReady => exact ⟨hsave (chunks_remaining shaper _), by simp⟩
  | cleared | nothingTaken _ | polledReady _ | polledThinking _ => exact ⟨hstored, by simp⟩

theorem regular_task {s : State} (h : Regular engine.shaper s) (hc : s.calls[c]? = some call)
    (ht : TaskStep engine s.shared c call e sh' call' o) :
    Regular engine.shaper ⟨sh', s.calls.set c call'⟩ := by
  have hlocal : (∀ house app chunks, (sh'.slots house app).continuation = some chunks →
      engine.shaper.chunks chunks.flatten = chunks) ∧
      ∀ house chunks, call'.pc = .saveBack house chunks →
        engine.shaper.chunks chunks.flatten = chunks := by
    by_cases he : ∀ outcome, e ≠ .slot outcome
    · refine ⟨fun house app chunks hs => h.stored (continuation_kept ht he house app ▸ hs), ?_⟩
      intro house chunks hback
      cases ht with
      | slot _ _ => exact absurd rfl (he _)
      | turnKnown _ _ _ | startCalled _ _ _ | started _ _ | saved _ _ _ | saveFailed _ _ _
      | answered _ _ | runtimeFailed _ _ _ | dropped _ _ _ | watcherText _ _ _ | watcherLost _ _ _
      | readySaved _ _ | pendingCleared _ _ => exact h.carried hc hback
      | _ => cases hback
    · rw [not_forall] at he
      obtain ⟨outcome, he⟩ := he
      obtain rfl := not_not.mp he
      cases ht with
      | @slot house pc slots _ hh hs =>
        obtain ⟨hstored, hcarried⟩ := slot_regular hs (fun hcont => h.stored hcont)
          (fun hback => h.carried hc hback)
        refine ⟨fun house' app chunks hcont => ?_, fun _ _ hback => hcarried hback⟩
        by_cases hs' : house' = house ∧ app = call.app
        · obtain ⟨rfl, rfl⟩ := hs'
          rw [Shared.setSlots_self] at hcont
          exact hstored hcont
        · rw [Shared.setSlots_other hs'] at hcont
          exact h.stored hcont
      | runtimeFailed _ _ he | dropped _ _ he => simp at he
  refine ⟨fun hs => hlocal.1 _ _ _ hs, fun hc' hpc => ?_⟩
  rcases getElem?_set_cases hc' with ⟨_, rfl⟩ | ⟨_, hc'⟩
  · exact hlocal.2 _ _ hpc
  · exact h.carried hc' hpc

end Regularity

/-! ## One engaged call a surface -/

/-- The entries of the surface and what is owed to it are as the one engaged call
knows them, or settled when there is none. -/
def Owned (shaper : ReplyShaper) (s : State) (house : HouseId) (app : Text)
    (owed : Option Text) : Prop :=
  (∃ (c : CallId) (call : Call), s.calls[c]? = some call ∧ call.app = app ∧
    view shaper call = some (house, ⟨s.shared.slots house app, owed⟩) ∧
    ∀ (c' : CallId) (call' : Call) v, s.calls[c']? = some call' → call'.app = app →
      view shaper call' = some (house, v) → c' = c) ∨
  Settled (s.shared.slots house app) owed ∧
    ∀ (c : CallId) (call : Call) v, s.calls[c]? = some call → call.app = app →
      view shaper call ≠ some (house, v)

structure Delivers (shaper : ReplyShaper) (s : State) (os : List Obs) : Prop where
  alone : ∀ {c c' : CallId} {call call' : Call}, s.calls[c]? = some call →
    s.calls[c']? = some call' → call.app = call'.app → Call.live call = true →
    Call.live call' = true → c = c'
  attended : ∀ {c : CallId} {call : Call}, s.calls[c]? = some call → Attended call
  polls : ∀ {c : CallId} {call : Call} {house : HouseContext}, s.calls[c]? = some call →
    call.pc = .pollPending house → (s.shared.slots house.id call.app).continuation = none
  owned : ∀ house app, ∃ owed, InOrder (timeline shaper house app os) owed ∧
    Owned shaper s house app owed

section Ownership

variable {shaper : ReplyShaper} {s : State} {sh : Shared} {c : CallId} {call call' : Call}
  {house : HouseId} {app : Text} {owed : Option Text}

/-- A call that has replied is engaged only as a watcher of a thinking entry. -/
theorem view_watcher {v : View} (hlive : Call.live call = false)
    (hv : view shaper call = some (house, v)) : v.slots = ⟨.thinking, none⟩ := by
  unfold view at hv
  cases hp : call.pc with
  | replied reply =>
    simp only [hp] at hv
    split at hv
    · obtain ⟨work, _, he⟩ := Option.map_eq_some_iff.mp hv
      obtain ⟨_, rfl⟩ := Prod.mk.injEq .. ▸ he
      rfl
    · obtain ⟨work, _, he⟩ := Option.map_eq_some_iff.mp hv
      obtain ⟨_, rfl⟩ := Prod.mk.injEq .. ▸ he
      rfl
    · obtain ⟨work, _, he⟩ := Option.map_eq_some_iff.mp hv
      obtain ⟨_, rfl⟩ := Prod.mk.injEq .. ▸ he
      rfl
    · cases hv
  | _ => simp [Call.live, hp] at hlive

theorem Owned.view_eq (h : Owned shaper s house app owed) (hc : s.calls[c]? = some call)
    (happ : call.app = app) {v : View} (hv : view shaper call = some (house, v)) :
    v = ⟨s.shared.slots house app, owed⟩ := by
  rcases h with ⟨c₀, call₀, hc₀, happ₀, hv₀, hone⟩ | ⟨_, hnone⟩
  · obtain rfl := hone c call v hc happ hv
    obtain rfl := Option.some.inj (hc.symm.trans hc₀)
    exact (Prod.mk.inj (Option.some.inj (hv.symm.trans hv₀))).2
  · exact absurd hv (hnone c call v hc happ)

/-- A call that leaves the entries and its view of them alone changes nothing there. -/
theorem Owned.frame (h : Owned shaper s house app owed) (hc : s.calls[c]? = some call)
    (happ : call'.app = call.app) (hslots : sh.slots house app = s.shared.slots house app)
    (hview : call.app = app → ∀ v, view shaper call' = some (house, v) ↔
      view shaper call = some (house, v)) :
    Owned shaper ⟨sh, s.calls.set c call'⟩ house app owed := by
  have hback : ∀ {c₁ : CallId} {call₁ : Call} {v : View}, (s.calls.set c call')[c₁]? = some call₁ →
      call₁.app = app → view shaper call₁ = some (house, v) →
      ∃ call₀, s.calls[c₁]? = some call₀ ∧ call₀.app = app ∧
        view shaper call₀ = some (house, v) := by
    intro c₁ call₁ v hc₁ happ₁ hv₁
    rcases getElem?_set_cases hc₁ with ⟨rfl, rfl⟩ | ⟨_, hc₁⟩
    · have happ₀ := happ.symm.trans happ₁
      exact ⟨call, hc, happ₀, (hview happ₀ v).mp hv₁⟩
    · exact ⟨call₁, hc₁, happ₁, hv₁⟩
  rcases h with ⟨c₀, call₀, hc₀, happ₀, hv₀, hone⟩ | ⟨hsettled, hnone⟩
  · left
    have hothers : ∀ (c₁ : CallId) (call₁ : Call) v, (s.calls.set c call')[c₁]? = some call₁ →
        call₁.app = app → view shaper call₁ = some (house, v) → c₁ = c₀ := by
      intro c₁ call₁ v hc₁ happ₁ hv₁
      obtain ⟨call₂, hc₂, happ₂, hv₂⟩ := hback hc₁ happ₁ hv₁
      exact hone c₁ call₂ v hc₂ happ₂ hv₂
    by_cases hcc : c₀ = c
    · subst hcc
      obtain rfl := Option.some.inj (hc.symm.trans hc₀)
      refine ⟨c₀, call', getElem?_set_self hc, happ.trans happ₀, ?_, hothers⟩
      rw [hslots]
      exact (hview happ₀ _).mpr hv₀
    · refine ⟨c₀, call₀, ?_, happ₀, by rw [hslots]; exact hv₀, hothers⟩
      rw [List.getElem?_set_ne (Ne.symm hcc)]
      exact hc₀
  · right
    refine ⟨by rw [hslots]; exact hsettled, fun c₁ call₁ v hc₁ happ₁ hv₁ => ?_⟩
    obtain ⟨call₂, hc₂, happ₂, hv₂⟩ := hback hc₁ happ₁ hv₁
    exact hnone c₁ call₂ v hc₂ happ₂ hv₂

/-- A call that was engaged, or found the entries settled, hands them over as it
leaves them. -/
theorem Owned.handover {owed' : Option Text} (hc : s.calls[c]? = some call)
    (happ : call.app = app) (happ' : call'.app = call.app)
    (hothers : ∀ (c' : CallId) (call₁ : Call) v, s.calls[c']? = some call₁ → call₁.app = app →
      view shaper call₁ = some (house, v) → c' = c)
    (hon : OnHouse house (view shaper call'))
    (hagrees : Agrees (view shaper call') (sh.slots house app) owed') :
    Owned shaper ⟨sh, s.calls.set c call'⟩ house app owed' := by
  have hone : ∀ (c₁ : CallId) (call₁ : Call) v, (s.calls.set c call')[c₁]? = some call₁ →
      call₁.app = app → view shaper call₁ = some (house, v) → c₁ = c := by
    intro c₁ call₁ v hc₁ happ₁ hv₁
    rcases getElem?_set_cases hc₁ with ⟨rfl, _⟩ | ⟨_, hc₁⟩
    · rfl
    · exact hothers c₁ call₁ v hc₁ happ₁ hv₁
  cases hv : view shaper call' with
  | none =>
    rw [hv] at hagrees
    refine .inr ⟨hagrees, fun c₁ call₁ v hc₁ happ₁ hv₁ => ?_⟩
    obtain rfl := hone c₁ call₁ v hc₁ happ₁ hv₁
    obtain rfl := Option.some.inj ((getElem?_set_self hc).symm.trans hc₁)
    simp [hv] at hv₁
  | some p =>
    obtain ⟨h, v⟩ := p
    obtain rfl := hon hv
    rw [hv] at hagrees
    obtain rfl : v = ⟨sh.slots h app, owed'⟩ := hagrees
    exact .inl ⟨c, call', getElem?_set_self hc, happ'.trans happ, hv, hone⟩

end Ownership

/-! ## Steps and runs -/

section Steps

variable {engine : HouseholdEngine} {s : State} {sh : Shared} {c : CallId} {call call' : Call}
  {e : Event} {os o : List Obs}

theorem delivers_arrive {input : HouseholdInput} (h : Delivers engine.shaper s os)
    (hseq : Sequential s (.arrive input)) :
    Delivers engine.shaper { s with calls := s.calls ++ [⟨input, .resolveSurface, none, none⟩] }
      os := by
  have hold : ∀ {c : CallId} {call : Call}, s.calls[c]? = some call →
      (s.calls ++ [⟨input, .resolveSurface, none, none⟩])[c]? = some call := by
    intro c call hc
    rw [List.getElem?_append_left (List.getElem?_eq_some_iff.mp hc).1]
    exact hc
  have hquiet : ∀ {c : CallId} {call : Call}, s.calls[c]? = some call →
      call.app = input.identity.applicationId → Call.live call = false :=
    fun hc happ => hseq _ (List.mem_of_getElem? hc) happ
  refine ⟨fun {c c' call call'} hc hc' happ hl hl' => ?_, fun hc => ?_, fun hc hpc => ?_,
    fun house app => ?_⟩
  · rcases getElem?_concat_cases hc with ⟨hcl, rfl⟩ | hc <;>
      rcases getElem?_concat_cases hc' with ⟨hcl', rfl⟩ | hc'
    · exact hcl.trans hcl'.symm
    · simp [hquiet hc' happ.symm] at hl'
    · simp [hquiet hc happ] at hl
    · exact h.alone hc hc' happ hl hl'
  · rcases getElem?_concat_cases hc with ⟨_, rfl⟩ | hc
    · nofun
    · exact h.attended hc
  · rcases getElem?_concat_cases hc with ⟨_, rfl⟩ | hc
    · cases hpc
    · exact h.polls hc hpc
  · obtain ⟨owed, htl, hown⟩ := h.owned house app
    refine ⟨owed, htl, ?_⟩
    rcases hown with ⟨c₀, call₀, hc₀, happ₀, hv₀, hone⟩ | ⟨hsettled, hnone⟩
    · refine .inl ⟨c₀, call₀, hold hc₀, happ₀, hv₀, fun c₁ call₁ v hc₁ happ₁ hv₁ => ?_⟩
      rcases getElem?_concat_cases hc₁ with ⟨_, rfl⟩ | hc₁
      · cases hv₁
      · exact hone c₁ call₁ v hc₁ happ₁ hv₁
    · refine .inr ⟨hsettled, fun c₁ call₁ v hc₁ happ₁ hv₁ => ?_⟩
      rcases getElem?_concat_cases hc₁ with ⟨_, rfl⟩ | hc₁
      · cases hv₁
      · exact hnone c₁ call₁ v hc₁ happ₁ hv₁

/-- A request that moves on to `poll_pending` found no continuation. -/
theorem polls_step (ht : TaskStep engine s.shared c call e sh call' o)
    (h : ∀ {house : HouseContext}, call.pc = .pollPending house →
      (s.shared.slots house.id call.app).continuation = none)
    {house : HouseContext} (hpc : call'.pc = .pollPending house) :
    (sh.slots house.id call.app).continuation = none := by
  by_cases he : ∀ outcome, e ≠ .slot outcome
  · rw [continuation_kept ht he]
    cases ht with
    | slot _ _ => exact absurd rfl (he _)
    | turnKnown _ _ _ | startCalled _ _ _ | started _ _ | saved _ _ _ | saveFailed _ _ _
    | answered _ _ | runtimeFailed _ _ _ | dropped _ _ _ | watcherText _ _ _ | watcherLost _ _ _
    | readySaved _ _ | pendingCleared _ _ => exact h hpc
    | _ => cases hpc
  · rw [not_forall] at he
    obtain ⟨outcome, he⟩ := he
    obtain rfl := not_not.mp he
    cases ht with
    | @slot house' pc slots _ hh hs =>
      generalize hold : s.shared.slots house' call.app = old at hs
      generalize hcall : call.pc = pc₀ at hs
      cases hs with
      | @nothingTaken ctx hc =>
        obtain rfl := Pc.pollPending.inj hpc
        obtain rfl : ctx.id = house' := by simpa [hcall, Pc.slotHouse] using hh
        rw [Shared.setSlots_self]
        exact hc
      | taken _ =>
        simp only [answerContinuation] at hpc
        split at hpc <;> cases hpc
      | polledNone _ =>
        simp only [afterPoll] at hpc
        split at hpc <;> cases hpc
      | _ => cases hpc
    | runtimeFailed _ _ he | dropped _ _ he => simp at he

theorem timeline_surface {shaper : ReplyShaper} {house : HouseId} {app : Text} {o : List Obs}
    {items : List (Item Char)}
    (ho : o.filterMap (shown shaper) = items.map fun item => ((house, app), item))
    (house' : HouseId) (app' : Text) :
    timeline shaper house' app' o = if house' = house ∧ app' = app then items else [] := by
  rw [timeline, ho]
  split
  next hs =>
    obtain ⟨rfl, rfl⟩ := hs
    simp [List.filterMap_map]
  next hs =>
    rw [List.filterMap_map, List.filterMap_eq_nil_iff]
    intro item _
    simp only [Function.comp, Prod.mk.injEq, ite_eq_right_iff, reduceCtorEq, imp_false]
    rintro ⟨rfl, rfl⟩
    exact hs ⟨rfl, rfl⟩

/-- A call that acts on a surface is the one engaged with it, or finds it settled. -/
theorem Delivers.acting {shaper : ReplyShaper} {house : HouseId} {owed : Option Text}
    (h : Delivers shaper s os) (hc : s.calls[c]? = some call)
    (hown : Owned shaper s house call.app owed) (hon : OnHouse house (view shaper call))
    (hreader : view shaper call = none →
      Call.live call = true ∧ s.shared.slots house call.app ≠ ⟨.thinking, none⟩) :
    (∀ (c' : CallId) (call' : Call) v, s.calls[c']? = some call' → call'.app = call.app →
      view shaper call' = some (house, v) → c' = c) ∧
      Agrees (view shaper call) (s.shared.slots house call.app) owed := by
  cases hv : view shaper call with
  | some p =>
    obtain ⟨house', v⟩ := p
    obtain rfl := hon hv
    refine ⟨?_, hown.view_eq hc rfl hv⟩
    rcases hown with ⟨c₀, _, _, _, _, hone⟩ | ⟨_, hnone⟩
    · obtain rfl := hone c call v hc rfl hv
      exact hone
    · exact absurd hv (hnone c call v hc rfl)
  | none =>
    obtain ⟨hlive, hne⟩ := hreader hv
    rcases hown with ⟨c₀, call₀, hc₀, happ₀, hv₀, _⟩ | ⟨hsettled, hnone⟩
    · exfalso
      cases hl : Call.live call₀ with
      | true =>
        obtain rfl := h.alone hc₀ hc happ₀ hl hlive
        obtain rfl := Option.some.inj (hc.symm.trans hc₀)
        simp [hv] at hv₀
      | false => exact hne (view_watcher hl hv₀)
    · exact ⟨fun c' call' v hc' happ' hv' => absurd hv' (hnone c' call' v hc' happ'), hsettled⟩

theorem delivers_task (h : Delivers engine.shaper s os) (hreg : Regular engine.shaper s)
    (hok : Succeeds e) (hc : s.calls[c]? = some call) (hf : Formed call)
    (ht : TaskStep engine s.shared c call e sh call' o) :
    Delivers engine.shaper ⟨sh, s.calls.set c call'⟩ (os ++ o) := by
  have happ := app_step ht
  have hm := taskStep_move hok ht hf (h.attended hc) (fun ctx hpc => h.polls hc hpc)
    (fun _ _ hpc => chunks_ne_nil (hreg.carried hc hpc))
  refine ⟨fun {c₁ c₂ call₁ call₂} hc₁ hc₂ happ₁₂ hl₁ hl₂ => ?_, fun hc₁ => ?_,
    fun {c₁ call₁ ctx} hc₁ hpc => ?_, fun house app => ?_⟩
  · have hback : ∀ {c₁ : CallId} {call₁ : Call}, (s.calls.set c call')[c₁]? = some call₁ →
        Call.live call₁ = true → ∃ call₀, s.calls[c₁]? = some call₀ ∧ call₀.app = call₁.app ∧
          Call.live call₀ = true := by
      intro c₁ call₁ hc₁ hl₁
      rcases getElem?_set_cases hc₁ with ⟨rfl, rfl⟩ | ⟨_, hc₁⟩
      · exact ⟨call, hc, happ.symm, live_step ht hl₁⟩
      · exact ⟨call₁, hc₁, rfl, hl₁⟩
    obtain ⟨call₃, hc₃, happ₃, hl₃⟩ := hback hc₁ hl₁
    obtain ⟨call₄, hc₄, happ₄, hl₄⟩ := hback hc₂ hl₂
    exact h.alone hc₃ hc₄ (happ₃.trans (happ₁₂.trans happ₄.symm)) hl₃ hl₄
  · rcases getElem?_set_cases hc₁ with ⟨rfl, rfl⟩ | ⟨_, hc₁⟩
    · exact attended_step hok ht hf (h.attended hc)
    · exact h.attended hc₁
  · rcases getElem?_set_cases hc₁ with ⟨rfl, rfl⟩ | ⟨hne, hc₁⟩
    · rw [happ]
      exact polls_step ht (fun hpc => h.polls hc hpc) hpc
    · have hpoll := h.polls hc₁ hpc
      by_cases happ₁ : call₁.app = call.app
      · have hlive : Call.live call = false := by
          by_contra hl
          exact hne (h.alone hc₁ hc happ₁ (by simp [Call.live, hpc]) (by simpa using hl))
        rw [continuation_kept ht (not_slot ht hlive)]
        exact hpoll
      · rw [slots_other ht happ₁]
        exact hpoll
  · obtain ⟨owed, htl, hown⟩ := h.owned house app
    rw [timeline_append]
    cases hm with
    | still hview hslots hshown =>
      have htimeline : timeline engine.shaper house app o = [] := by rw [timeline, hshown]; rfl
      rw [htimeline, List.append_nil]
      exact ⟨owed, htl, hown.frame hc happ (hslots house app) fun _ _ => by rw [hview]⟩
    | @move house' items hon hon' hother hshown hagrees hreader =>
      rw [timeline_surface hshown]
      by_cases hs : house = house' ∧ app = call.app
      · obtain ⟨rfl, rfl⟩ := hs
        rw [if_pos ⟨rfl, rfl⟩]
        obtain ⟨hothers, hagree⟩ := h.acting hc hown hon hreader
        obtain ⟨owed', hsteps, hagree'⟩ := hagrees owed hagree
        exact ⟨owed', htl.steps hsteps, .handover hc rfl happ hothers hon' hagree'⟩
      · rw [if_neg hs, List.append_nil]
        refine ⟨owed, htl, hown.frame hc happ (hother house app hs) fun happ₀ v => ?_⟩
        have hne : house ≠ house' := fun heq => hs ⟨heq, happ₀.symm⟩
        exact ⟨fun hv => absurd (hon' hv) hne, fun hv => absurd (hon hv) hne⟩

theorem delivers_start {shaper : ReplyShaper} {store : Store}
    (hempty : ∀ house app, store.slots house app = Slots.empty) :
    Delivers shaper (initial store) [] := by
  refine ⟨by simp [initial], by simp [initial], by simp [initial], fun house app => ?_⟩
  refine ⟨none, .nil, .inr ⟨?_, by simp [initial]⟩⟩
  rw [show (initial store).shared.slots house app = Slots.empty from hempty house app]
  exact .nothing

/-- Every state of an undisturbed run. -/
theorem delivers_run {store : Store} (hempty : ∀ house app, store.slots house app = Slots.empty)
    {as : List Action} (hu : (machine engine).Along Undisturbed (initial store) as)
    (h : (machine engine).exec (initial store) as = some (s, os)) :
    (Delivers engine.shaper s os ∧ Regular engine.shaper s) ∧
      ∀ {c : CallId} {call : Call}, s.calls[c]? = some call → Formed call := by
  have hregular : Regular engine.shaper (initial store) := by
    refine ⟨fun hs => ?_, by simp [initial]⟩
    rw [show (initial store).shared.slots _ _ = Slots.empty from hempty _ _] at hs
    cases hs
  refine run_invariant (fun s os => Delivers engine.shaper s os ∧ Regular engine.shaper s)
    ⟨delivers_start hempty, hregular⟩ ?_ ?_ ?_ hu h
  · rintro s os input ⟨hd, hr⟩ ⟨hseq, _⟩
    refine ⟨delivers_arrive hd hseq, hr.stored, fun hc hpc => ?_⟩
    rcases getElem?_concat_cases hc with ⟨_, rfl⟩ | hc
    · cases hpc
    · exact hr.carried hc hpc
  · rintro s os c e call sh call' o ⟨hd, hr⟩ ⟨_, hok⟩ hc hf ht
    exact ⟨delivers_task hd hr hok hc hf ht, regular_task hr hc ht⟩
  · rintro s os a house app slots _ ⟨_, hok⟩ ha
    rcases ha with ⟨rfl, _⟩ | ⟨rfl, _⟩ <;> exact absurd hok (by simp [StoreWorks])

end Steps

/-! ## What is said -/

section Said

variable {engine : HouseholdEngine} {shaper : ReplyShaper} {sh sh' : Shared} {c : CallId}
  {call call' : Call} {e : Event} {o : List Obs}

theorem voiced_append {a b : List Obs} (ha : Voiced shaper a) (hb : Voiced shaper b) :
    Voiced shaper (a ++ b) := by
  fun_induction Voiced shaper a with
  | case1 c house app source text c' app' house' reply os ih =>
    obtain ⟨rfl, rfl, rfl, rfl, hrest⟩ := ha
    exact ⟨rfl, rfl, rfl, rfl, ih hrest⟩
  | case2 => exact absurd ha id
  | case3 _ _ _ text os ih => exact ⟨ha.1, ih ha.2⟩
  | case4 o os _ hspoke hreply ih =>
    rw [List.cons_append, Voiced]
    · exact ih ha
    · intro _ _ _ _ _ _ _ _ _ _ he _
      exact hspoke _ _ _ _ _ he
    · exact hspoke
    · exact hreply
  | case5 => exact hb

theorem voiced_step (ht : TaskStep engine sh c call e sh' call' o) : Voiced engine.shaper o := by
  cases ht with
  | @slot house pc slots outcome hh hs =>
    generalize call.pc = pc₀ at hs hh
    generalize sh.slots house call.app = old at hs
    cases hs with
    | failed _ => simp [slotObs, replyObs, Voiced]
    | taken hc =>
      cases hd : ContinuationDecision.fromUtterance call.input.utterance <;>
        simp [slotObs, hc, hd, answerContinuation, replyObs, Voiced, fixedPhrases]
    | nothingTaken hc => simp [slotObs, hc, replyObs, Voiced]
    | savedBack => simp [slotObs, replyObs, Voiced, fixedPhrases]
    | @shaped house' text source hsrc =>
      obtain rfl : house' = house := by simpa [Pc.slotHouse] using hh
      cases source with
      | ready => exact absurd rfl hsrc
      | continuation | fresh => simp [slotObs, replyObs, Voiced]
    | shapedReady => simp [slotObs, replyObs, Voiced]
    | @cleared house' text =>
      obtain rfl : house' = house := by simpa [Pc.slotHouse] using hh
      simp [slotObs, replyObs, Voiced]
    | polledReady hp => simp [slotObs, replyObs, Voiced]
    | polledThinking hp => simp [slotObs, replyObs, Voiced, fixedPhrases]
    | polledNone hp =>
      unfold afterPoll
      split <;> simp [slotObs, replyObs, Voiced, fixedPhrases]
  | unbound _ _ _ _ => simp [Voiced]
  | watch _ _ => simp [Voiced, fixedPhrases]
  | _ => simp [Voiced]

theorem voiced_run {store : Store} {as : List Action} {s : State} {os : List Obs}
    (h : (machine engine).exec (initial store) as = some (s, os)) : Voiced engine.shaper os := by
  refine Machine.exec_invariant_free (fun _ os => Voiced engine.shaper os) ?_ trivial h
  intro s os a s' o hv hstep
  refine voiced_append hv ?_
  rcases step_cases hstep with ⟨_, _, rfl, _⟩ | ⟨_, _, _, _, _, _, _, ht, _⟩ | ⟨_, _, _, rfl, _⟩
  · trivial
  · exact voiced_step ht
  · trivial

/-- A turn is called by the work of a call. -/
theorem turn_shown (ht : TaskStep engine sh c call e sh' call' o) {c' : CallId} {house : HouseId}
    {threadId utterance : Text} (hmem : .turn c' house threadId utterance ∈ o) :
    c' = c ∧ ∃ work, call.work = some work ∧ work.house.id = house ∧
      work.pc.holdsGuard = true := by
  cases ht with
  | slot _ _ =>
    rcases mem_slot hmem with h | h | ⟨_, h⟩
    · cases h
    · exact absurd (slotObs_ofSlot _ h) (by simp [Obs.ofSlot])
    · cases h
  | turnKnown hw hwpc _ | saved hw hwpc _ =>
    obtain ⟨rfl, rfl, _⟩ := by simpa using hmem
    exact ⟨rfl, _, hw, rfl, by rw [hwpc]; rfl⟩
  | _ => simp at hmem

/-- Only a request that had not replied replies. -/
theorem reply_shown (ht : TaskStep engine sh c call e sh' call' o) {c' : CallId} {app : Text}
    {house : Option HouseId} {reply : HouseholdReply} (hmem : .reply c' app house reply ∈ o) :
    c' = c ∧ Call.live call = true := by
  cases ht with
  | slot hh _ =>
    refine ⟨(reply_mem_slot.mp hmem).1, ?_⟩
    cases hp : call.pc <;> simp_all [Pc.slotHouse, Call.live]
  | unbound hpc _ _ _ | busy hpc _ | joinedLost hpc _ _ | markFailed hpc _ _ _ | watch hpc _ =>
    exact ⟨by simp at hmem; exact hmem.1, by simp [Call.live, hpc]⟩
  | _ => simp at hmem

end Said

/-! ## A stored continuation -/

/-- What a request that finds `chunks` stored gets, and what it leaves stored. -/
def Continued (utterance : Text) (chunks : List Text) (reply : HouseholdReply)
    (left : Option (List Text)) : Prop :=
  match ContinuationDecision.fromUtterance utterance with
  | .stop => reply = .say stopped ∧ left = none
  | .empty => reply = .say askAgain ∧ left = some chunks
  | .goOn => ∃ chunk rest, chunks = chunk :: rest ∧
    reply = .say (if rest.isEmpty then chunk else chunk ++ continuationSuffix) ∧
    left = if rest.isEmpty then none else some rest

/-- Where such a request stands until it replies. -/
def Continuing (s : State) (c : CallId) (call : Call) (house : HouseContext)
    (chunks : List Text) : Prop :=
  ∃ call₁, s.calls[c]? = some call₁ ∧ call₁.input = call.input ∧ (Call.live call₁ = true →
    call₁.pc = .takeContinuation house ∧
      (s.shared.slots house.id call.app).continuation = some chunks ∨
    call₁.pc = answerContinuation house.id call.input.utterance chunks)

section Continue

variable {engine : HouseholdEngine} {sh sh' : Shared} {c : CallId} {call call' : Call} {e : Event}
  {o : List Obs}

/-- A request before the lock does nothing but slot operations. -/
theorem slot_only (ht : TaskStep engine sh c call e sh' call' o) (hf : Formed call)
    (hb : Pc.beforeWork call.pc = true) {house : HouseId} (hh : call.pc.slotHouse = some house) :
    ∃ outcome pc slots, e = .slot outcome ∧ call' = { call with pc := pc } ∧
      sh' = sh.setSlots house call.app slots ∧
      SlotStep engine.shaper call.input (sh.slots house call.app) call.pc outcome pc slots ∧
      ∀ h reply, .reply c call.app h reply ∈ o → pc = .replied reply := by
  have hw := hf.before hb
  cases ht with
  | slot hh' hs =>
    obtain rfl := Option.some.inj (hh.symm.trans hh')
    exact ⟨_, _, _, rfl, rfl, rfl, hs, fun h reply hmem => (reply_mem_slot.mp hmem).2.2.2⟩
  | bound hpc _ | unbound hpc _ _ _ | lockFound hpc _ | lockMade hpc _ | busy hpc _
  | locked hpc _ _ _ _ _ _ | joinedText hpc _ _ | joinedLost hpc _ _ | deadline hpc | marked hpc _
  | markFailed hpc _ _ _ | watch hpc _ => simp [hpc, Pc.slotHouse] at hh
  | turnKnown hw' _ _ | startCalled hw' _ _ | started hw' _ | saved hw' _ _ | saveFailed hw' _ _
  | answered hw' _ | runtimeFailed hw' _ _ | dropped hw' _ _ | watcherText hw' _ _
  | watcherLost hw' _ _ | readySaved hw' _ | pendingCleared hw' _ => simp [hw] at hw'

/-- Splitting the text of stored chunks says the first of them and leaves the others. -/
theorem split_chunks {shaper : ReplyShaper} {chunks : List Text}
    (h : shaper.chunks chunks.flatten = chunks) :
    ∃ chunk rest, chunks = chunk :: rest ∧ shaper.split chunks.flatten =
      ⟨if rest.isEmpty then chunk else chunk ++ continuationSuffix, rest⟩ := by
  obtain ⟨chunk, rest, rfl⟩ := List.exists_cons_of_ne_nil (chunks_ne_nil h)
  exact ⟨chunk, rest, rfl, by simp only [ReplyShaper.split, h, List.headD_cons, List.tail_cons]⟩

/-- A request that took the chunks and goes on with them: its next operation is its last. -/
theorem answer_step {houseId : HouseId} {chunks : List Text}
    (ht : TaskStep engine sh c call e sh' call' o) (hf : Formed call) (hok : Succeeds e)
    (hlive : Call.live call = true)
    (hpc : call.pc = answerContinuation houseId call.input.utterance chunks)
    (hchunks : engine.shaper.chunks chunks.flatten = chunks) :
    ∃ reply, call'.pc = .replied reply ∧
      Continued call.input.utterance chunks reply (sh'.slots houseId call.app).continuation ∧
      ∀ h r, .reply c call.app h r ∈ o → r = reply := by
  unfold answerContinuation at hpc
  unfold Continued
  cases hd : ContinuationDecision.fromUtterance call.input.utterance with
  | stop =>
    simp only [hd] at hpc
    simp [Call.live, hpc] at hlive
  | empty =>
    simp only [hd] at hpc
    obtain ⟨outcome, pc, slots, rfl, rfl, rfl, hs, hreply⟩ :=
      slot_only ht hf (by rw [hpc]; rfl) (by rw [hpc]; rfl)
    obtain rfl := hok
    rw [hpc] at hs
    cases hs with
    | savedBack =>
      refine ⟨_, rfl, ⟨rfl, ?_⟩, fun h r hmem => (Pc.replied.inj (hreply h r hmem)).symm⟩
      rw [Shared.setSlots_self, Slots.saveContinuation_continuation]
      simp [chunks_ne_nil hchunks]
  | goOn =>
    simp only [hd] at hpc
    obtain ⟨outcome, pc, slots, rfl, rfl, rfl, hs, hreply⟩ :=
      slot_only ht hf (by rw [hpc]; rfl) (by rw [hpc]; rfl)
    obtain rfl := hok
    obtain ⟨chunk, rest, hcons, hsplit⟩ := split_chunks hchunks
    rw [hpc] at hs
    cases hs with
    | shaped _ =>
      refine ⟨_, rfl, ⟨chunk, rest, hcons, by rw [hsplit], ?_⟩, fun h r hmem => ?_⟩
      · rw [Shared.setSlots_self, Slots.saveContinuation_continuation, hsplit]
      · exact (Pc.replied.inj (hreply h r hmem)).symm

theorem continuing_step {s s' : State} {os os' : List Obs} {house : HouseContext}
    {chunks : List Text} {a : Action} (hd : Delivers engine.shaper s os)
    (hf : ∀ {c : CallId} {call : Call}, s.calls[c]? = some call → Formed call)
    (hchunks : engine.shaper.chunks chunks.flatten = chunks)
    (h : Continuing s c call house chunks) (hu : Undisturbed s a)
    (hstep : step engine s a = some (s', os')) : Continuing s' c call house chunks := by
  obtain ⟨call₁, hc, hin, hpc⟩ := h
  rcases step_cases hstep with ⟨input, rfl, _, rfl⟩ | ⟨c₀, e, call₀, sh, call', rfl, hc₀, ht, rfl⟩ |
    ⟨_, _, _, _, _, ha⟩
  · refine ⟨call₁, ?_, hin, hpc⟩
    rw [List.getElem?_append_left (List.getElem?_eq_some_iff.mp hc).1]
    exact hc
  · by_cases hcc : c₀ = c
    · subst hcc
      obtain rfl := Option.some.inj (hc.symm.trans hc₀)
      refine ⟨call', getElem?_set_self hc, (input_step ht).trans hin, fun hl' => ?_⟩
      have hok : Succeeds e := hu.2
      have happ : call₁.app = call.app := by rw [Call.app, hin, Call.app]
      rcases hpc (live_step ht hl') with ⟨hpc, hcont⟩ | hpc
      · obtain ⟨outcome, pc, slots, rfl, rfl, _, hs, _⟩ :=
          slot_only ht (hf hc) (by rw [hpc]; rfl) (by rw [hpc]; rfl)
        obtain rfl := hok
        rw [hpc, happ] at hs
        cases hs with
        | taken hc' =>
          obtain rfl := Option.some.inj (hcont.symm.trans hc')
          right
          simp only [hin]
        | nothingTaken hc' => simp [hcont] at hc'
      · obtain ⟨reply, hreplied, _⟩ := answer_step ht (hf hc) hok (live_step ht hl')
          (by rw [hpc, hin]) hchunks
        simp [Call.live, hreplied] at hl'
    · refine ⟨call₁, ?_, hin, fun hl => ?_⟩
      · rw [List.getElem?_set_ne hcc]
        exact hc
      · rcases hpc hl with ⟨hpc, hcont⟩ | hpc
        · refine .inl ⟨hpc, ?_⟩
          by_cases happ : call₀.app = call.app
          · have hlive : Call.live call₀ = false := by
              by_contra hl₀
              have happ₁ : call₀.app = call₁.app := happ.trans (by rw [Call.app, Call.app, hin])
              exact hcc (hd.alone hc₀ hc happ₁ (by simpa using hl₀) hl)
            rw [continuation_kept ht (not_slot ht hlive)]
            exact hcont
          · rw [slots_other ht (Ne.symm happ)]
            exact hcont
        · exact .inr hpc
  · rcases ha with ⟨rfl, _⟩ | ⟨rfl, _⟩ <;> exact absurd hu.2 (by simp [StoreWorks])

/-- The step with which the request replies. -/
theorem continued_reply {s s' : State} {os : List Obs} {house : HouseContext}
    {chunks : List Text} {a : Action} {h : Option HouseId} {reply : HouseholdReply}
    (hf : ∀ {c : CallId} {call : Call}, s.calls[c]? = some call → Formed call)
    (hchunks : engine.shaper.chunks chunks.flatten = chunks)
    (hcont : Continuing s c call house chunks) (hok : StoreWorks a)
    (hstep : step engine s a = some (s', os)) (hmem : .reply c call.app h reply ∈ os) :
    Continued call.input.utterance chunks reply
      (s'.shared.slots house.id call.app).continuation := by
  rcases step_cases hstep with ⟨_, _, rfl, _⟩ | ⟨c₀, e, call₀, sh, call', rfl, hc₀, ht, rfl⟩ |
    ⟨_, _, _, rfl, _⟩
  · cases hmem
  · obtain ⟨rfl, hlive⟩ := reply_shown ht hmem
    obtain ⟨call₁, hc, hin, hpc⟩ := hcont
    obtain rfl := Option.some.inj (hc.symm.trans hc₀)
    have happ : call₁.app = call.app := by rw [Call.app, hin, Call.app]
    rw [← happ] at hmem ⊢
    rw [← hin] at hpc ⊢
    rcases hpc hlive with ⟨hpc, hc'⟩ | hpc
    · obtain ⟨outcome, pc, slots, rfl, rfl, rfl, hs, hreply⟩ :=
        slot_only ht (hf hc) (by rw [hpc]; rfl) (by rw [hpc]; rfl)
      obtain rfl := hok
      rw [hpc] at hs
      cases hs with
      | taken hc'' =>
        obtain rfl := Option.some.inj ((happ ▸ hc').symm.trans hc'')
        have hreplied := hreply h reply hmem
        unfold Continued
        unfold answerContinuation at hreplied
        cases hd : ContinuationDecision.fromUtterance call₁.input.utterance with
        | stop =>
          simp only [hd, Pc.replied.injEq] at hreplied
          exact ⟨hreplied.symm, by rw [Shared.setSlots_self]; rfl⟩
        | empty | goOn => simp [hd] at hreplied
      | nothingTaken hc'' => simp [happ ▸ hc'] at hc''
    · obtain ⟨reply', _, hcontinued, hreply⟩ := answer_step ht (hf hc) hok hlive hpc hchunks
      obtain rfl := hreply h reply hmem
      exact hcontinued
  · cases hmem

end Continue

/-- In a run in which every surface waits for its replies and the store works,
the surface sees its answers one after the other, each said to its end or cut
off by a refusal, the last one maybe unfinished. No turn is called for a surface
with a stored continuation, and a request that finds one stored refuses it,
leaves it or hears its next chunk. -/
theorem answers_in_order (engine : HouseholdEngine) {store : Store}
    (hempty : ∀ house app, store.slots house app = Slots.empty) {as : List Action} {s : State}
    {os : List Obs} (hu : (machine engine).Along Undisturbed (initial store) as)
    (h : (machine engine).exec (initial store) as = some (s, os)) :
    (∀ house app, ∃ owed, InOrder (timeline engine.shaper house app os) owed) ∧
    Voiced engine.shaper os ∧
    (∀ a s' o c call house threadId utterance, step engine s a = some (s', o) →
      .turn c house threadId utterance ∈ o → s.calls[c]? = some call →
      (s.shared.slots house call.app).continuation = none) ∧
    ∀ (c : CallId) (call : Call) house chunks, s.calls[c]? = some call →
      call.pc = .takeContinuation house →
      (s.shared.slots house.id call.app).continuation = some chunks →
      ∀ bs m q a s' o surface reply, (machine engine).Along Undisturbed s (bs ++ [a]) →
        (machine engine).exec s bs = some (m, q) → step engine m a = some (s', o) →
        .reply c call.app surface reply ∈ o →
        Continued call.input.utterance chunks reply
          (s'.shared.slots house.id call.app).continuation := by
  obtain ⟨⟨hd, hr⟩, hf⟩ := delivers_run hempty hu h
  refine ⟨fun house app => (hd.owned house app).imp fun _ => And.left, voiced_run h, ?_, ?_⟩
  · intro a s' o c call house threadId utterance hstep hmem hc
    rcases step_cases hstep with ⟨_, _, rfl, _⟩ | ⟨c₀, e, call₀, sh, call', rfl, hc₀, ht, rfl⟩ |
      ⟨_, _, _, rfl, _⟩
    · cases hmem
    · obtain ⟨rfl, work, hw, rfl, hg⟩ := turn_shown ht hmem
      obtain rfl := Option.some.inj (hc.symm.trans hc₀)
      obtain ⟨slots, hnone, hv, _⟩ :=
        view_attended engine.shaper (hd.attended hc) (hf hc) hw hg
      obtain ⟨owed, _, hown⟩ := hd.owned work.house.id call.app
      have hview := hown.view_eq hc rfl hv
      rw [← (View.mk.inj hview).1]
      exact hnone
    · cases hmem
  · intro c call house chunks hc hpc hcont bs m q a s' o surface reply hu' hm hstep hmem
    have hchunks := hr.stored hcont
    let I (m : State) (q : List Obs) : Prop :=
      (∃ cs, (machine engine).Along Undisturbed (initial store) cs ∧
        (machine engine).exec (initial store) cs = some (m, os ++ q)) ∧
      Continuing m c call house chunks
    have hI : I m ([] ++ q) := by
      refine Machine.exec_invariant I ?_ ⟨⟨as, hu, by rw [List.append_nil]; exact h⟩,
        call, hc, rfl, fun _ => .inl ⟨hpc, hcont⟩⟩ hu'.prefix hm
      rintro m q b m' r ⟨⟨cs, hcs, hexec⟩, hcontinuing⟩ hb hstep
      obtain ⟨⟨hd, _⟩, hf⟩ := delivers_run hempty hcs hexec
      refine ⟨⟨cs ++ [b], hcs.append hexec ⟨hb, fun _ _ => trivial⟩, ?_⟩,
        continuing_step hd hf hchunks hcontinuing hb hstep⟩
      have hone : (machine engine).exec m [b] = some (m', r ++ []) := Machine.exec_cons_of hstep rfl
      have hall := Machine.exec_append_of hexec hone
      rwa [List.append_nil, List.append_assoc] at hall
    obtain ⟨⟨cs, hcs, hexec⟩, hcontinuing⟩ := hI
    obtain ⟨_, hf⟩ := delivers_run hempty hcs hexec
    have hb : Undisturbed m a := (hu'.suffix hm).1
    exact continued_reply hf hchunks hcontinuing hb.2 hstep hmem

/-- A late answer of two chunks: its first one is spoken from the pending entry,
and the surface asks on. -/
def twoChunks : List Action :=
  [.arrive ⟨⟨['u'], ['a']⟩, ['?'], false⟩, .task 0 (.resolve (.bound 1)), .task 0 (.slot .ok),
    .task 0 (.slot .ok), .task 0 .lockEntry, .task 0 .tryLock, .task 0 .workBegin,
    .task 0 .deadline, .task 0 (.mark .ok), .task 0 .spawnWatcher,
    .task 0 (.turned (some ['x', 'y'])), .task 0 .watcherJoined, .task 0 (.watcherStore .ok),
    .arrive ⟨⟨['u'], ['a']⟩, ['?'], false⟩, .task 1 (.resolve (.bound 1)), .task 1 (.slot .ok),
    .task 1 (.slot .ok), .task 1 (.slot .ok), .task 1 (.slot .ok),
    .arrive ⟨⟨['u'], ['a']⟩, ['д', 'а'], false⟩, .task 2 (.resolve (.bound 1))]

theorem answers_in_order_chunks :
    ∃ s os, (machine ⟨⟨13, by decide⟩, false⟩).exec
        (initial (fixture 1 ⟨['Д'], some ['t'], ['h']⟩)) twoChunks = some (s, os) ∧
      timeline ⟨13, by decide⟩ 1 ['a'] os = [.received ['x', 'y'], .said ['x']] ∧
      ∃ owed, InOrder [.received ['x', 'y'], .said ['x']] owed := by
  have hrun : ((machine ⟨⟨13, by decide⟩, false⟩).exec
      (initial (fixture 1 ⟨['Д'], some ['t'], ['h']⟩)) twoChunks).map (fun r =>
        timeline ⟨13, by decide⟩ 1 ['a'] r.2) =
      some [.received ['x', 'y'], .said ['x']] := by rfl
  obtain ⟨⟨s, os⟩, hexec, htimeline⟩ := Option.map_eq_some_iff.mp hrun
  have hordered := (answers_in_order _ (fun _ _ => rfl) (by decide) hexec).1 1 ['a']
  exact ⟨s, os, hexec, htimeline, htimeline ▸ hordered⟩

end AliceBridge.Core.HouseDelivery
