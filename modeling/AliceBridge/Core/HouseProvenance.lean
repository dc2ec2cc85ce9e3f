import AliceBridge.Core.HouseCalls

/-! # Where spoken texts come from

Every text of a surface, in its slots, in the locals of its requests and in its
watchers, is an end of an answer to a request of the same application in the
same house (`From`). A slot operation passes such texts on and says a chunk of
one or a fixed phrase (`slot_from`). A request without a house leaves after its
first operation and is never seen again. -/
namespace AliceBridge.Core.HouseProvenance
open AliceBridge.Lib.Utf8 AliceBridge.Lib.Run AliceBridge.Core.Reply AliceBridge.Core.Household
open AliceBridge.Core.HouseEngine AliceBridge.Core.HouseSteps AliceBridge.Core.HouseCalls

/-- The text is an end of what a turn of the house answered a request of the application. -/
def From (os : List Obs) (house : HouseId) (app text : Text) : Prop :=
  ∃ c answer, .answer c house app answer ∈ os ∧ text <:+ answer

/-- The text a request carries. -/
def carried : Pc → Option Text
  | .saveBack _ chunks => some chunks.flatten
  | .shapeAndSave _ text _ | .clearReady _ text => some text
  | _ => none

/-- The texts stored for a surface have the property. -/
structure SlotsHave (P : Text → Prop) (slots : Slots) : Prop where
  pending : ∀ {text}, slots.pending = .ready text → P text
  continuation : ∀ {chunks}, slots.continuation = some chunks → P chunks.flatten

theorem slotsHave_empty {P : Text → Prop} : SlotsHave P Slots.empty := ⟨nofun, nofun⟩

/-- What a request may say: a fixed phrase or the first part of a text with the property. -/
def Sayable (shaper : ReplyShaper) (P : Text → Prop) (text : Text) : Prop :=
  text ∈ fixedPhrases ∨ ∃ u, P u ∧ text = (shaper.split u).spoken

theorem From.mono {os o : List Obs} {house : HouseId} {app text : Text}
    (h : From os house app text) :
    From (os ++ o) house app text := by
  obtain ⟨c, answer, hmem, hsuffix⟩ := h
  exact ⟨c, answer, List.mem_append_left _ hmem, hsuffix⟩

theorem From.suffix {os : List Obs} {house : HouseId} {app t u : Text} (h : From os house app t)
    (hu : u <:+ t) : From os house app u := by
  obtain ⟨c, answer, hmem, ht⟩ := h
  exact ⟨c, answer, hmem, hu.trans ht⟩

theorem SlotsHave.mono {P Q : Text → Prop} {slots : Slots} (h : SlotsHave P slots)
    (hpq : ∀ {t}, P t → Q t) : SlotsHave Q slots :=
  ⟨fun hp => hpq (h.pending hp), fun hc => hpq (h.continuation hc)⟩

theorem remaining_suffix (shaper : ReplyShaper) (text : Text) :
    (shaper.split text).remaining.flatten <:+ text :=
  ⟨_, shaper.split_content text⟩

/-- A spoken part is a piece of the text it was cut from, maybe with the question. -/
theorem spoken_piece (shaper : ReplyShaper) (text : Text) :
    ∃ part, part <:+: text ∧ part.length ≤ shaper.contentLimit ∧
      ((shaper.split text).spoken = part ∨
        (shaper.split text).spoken = part ++ continuationSuffix) := by
  rcases shaper.split_cases text with ⟨hle, h⟩ | ⟨_, chunk, remaining, h, _, _, hle, hflat, _⟩
  · exact ⟨text, List.infix_rfl, hle, .inl (by rw [h])⟩
  · exact ⟨chunk, ⟨[], remaining.flatten, hflat⟩, hle, .inr (by rw [h])⟩

section Slots

variable {shaper : ReplyShaper} {input : HouseholdInput} {slots slots' : Slots} {pc pc' : Pc}
  {outcome : Outcome} {P : Text → Prop}

theorem SlotsHave.save {chunks : List Text} (h : SlotsHave P slots)
    (hc : chunks ≠ [] → P chunks.flatten) : SlotsHave P (slots.saveContinuation chunks) := by
  refine ⟨fun hp => h.pending (by simpa using hp), fun {stored} hs => ?_⟩
  rw [Slots.saveContinuation_continuation] at hs
  split at hs
  · cases hs
  · next hne =>
    obtain rfl := Option.some.inj hs
    exact hc (by simpa using hne)

theorem SlotsHave.clearContinuation (h : SlotsHave P slots) :
    SlotsHave P slots.clearContinuation :=
  ⟨fun hp => h.pending hp, nofun⟩

theorem SlotsHave.clearPending (h : SlotsHave P slots) : SlotsHave P slots.clearPending :=
  ⟨nofun, fun hc => h.continuation hc⟩

theorem slotEffect_have (hsuffix : ∀ {t u}, P t → u <:+ t → P u) (hslots : SlotsHave P slots)
    (hpc : ∀ {text}, carried pc = some text → P text) :
    SlotsHave P (slotEffect shaper slots pc) := by
  unfold slotEffect
  split
  · exact hslots.clearContinuation
  · exact hslots.save fun _ => hpc rfl
  · exact hslots.save fun _ => hsuffix (hpc rfl) (remaining_suffix shaper _)
  · exact hslots.clearPending
  · exact hslots

/-- A slot operation keeps the property of the stored and the carried texts, and
says only what it allows. -/
theorem slot_from (hsuffix : ∀ {t u}, P t → u <:+ t → P u)
    (h : SlotStep shaper input slots pc outcome pc' slots') (hslots : SlotsHave P slots)
    (hpc : ∀ {text}, carried pc = some text → P text) :
    SlotsHave P slots' ∧ (∀ {text}, carried pc' = some text → P text) ∧
      ∀ {text}, pc' = .replied (.say text) → Sayable shaper P text := by
  have heffect : SlotsHave P (slotEffect shaper slots pc) := slotEffect_have hsuffix hslots hpc
  cases h with
  | failed _ =>
    refine ⟨?_, by simp [carried], by simp⟩
    split
    · exact heffect
    · exact hslots
  | taken hc =>
    have hchunks := hslots.continuation hc
    refine ⟨heffect, ?_, ?_⟩ <;> unfold answerContinuation <;> split
    · simp [carried]
    · rintro _ ⟨rfl⟩
      exact hchunks
    · rintro _ ⟨rfl⟩
      exact hchunks
    · rintro _ ⟨rfl⟩
      exact .inl (by simp [fixedPhrases])
    · simp
    · simp
  | nothingTaken _ => exact ⟨hslots, by simp [carried], by simp⟩
  | savedBack =>
    refine ⟨heffect, by simp [carried], ?_⟩
    rintro _ ⟨rfl⟩
    exact .inl (by simp [fixedPhrases])
  | shaped _ =>
    refine ⟨heffect, by simp [carried], ?_⟩
    rintro _ ⟨rfl⟩
    exact .inr ⟨_, hpc rfl, rfl⟩
  | shapedReady => exact ⟨heffect, hpc, by simp⟩
  | cleared =>
    refine ⟨heffect, by simp [carried], ?_⟩
    rintro _ ⟨rfl⟩
    exact .inr ⟨_, hpc rfl, rfl⟩
  | polledReady hp =>
    refine ⟨hslots, ?_, by simp⟩
    rintro _ ⟨rfl⟩
    exact hslots.pending hp
  | polledThinking _ =>
    refine ⟨hslots, by simp [carried], ?_⟩
    rintro _ ⟨rfl⟩
    exact .inl (by simp [fixedPhrases])
  | polledNone _ =>
    refine ⟨hslots, ?_, ?_⟩ <;> unfold afterPoll <;> split
    · simp [carried]
    · simp [carried]
    · rintro _ ⟨rfl⟩
      exact .inl (by simp [fixedPhrases])
    · simp

end Slots

/-- The call an observation belongs to. -/
def callOf : Obs → CallId
  | .touched c .. | .startThread c .. | .threadStarted c .. | .turn c .. | .answer c ..
  | .shaped c .. | .spoke c .. | .refused c .. | .reply c .. => c

section Steps

variable {engine : HouseholdEngine} {sh sh' : Shared} {s s' : State} {c : CallId}
  {call call' : Call} {e : Event} {os o : List Obs}

/-- A step that changes the entries of a surface shows that it touched them. -/
theorem slots_touched (ht : TaskStep engine sh c call e sh' call' o) {house : HouseId} {app : Text}
    (hne : sh'.slots house app ≠ sh.slots house app) : .touched c house app ∈ o := by
  have hset : ∀ {h a slots}, (sh.setSlots h a slots).slots house app ≠ sh.slots house app →
      Obs.touched c house app = .touched c h a := by
    intro h a slots hdiff
    by_cases hha : house = h ∧ app = a
    · rw [hha.1, hha.2]
    · exact absurd (Store.setSlots_other hha) hdiff
  cases ht with
  | slot _ _ | marked _ _ | markFailed _ _ _ _ | readySaved _ _ | pendingCleared _ _ =>
    exact hset hne ▸ .head _
  | saved _ _ hs =>
    have hsame := (Store.saveThreadId_spec hs).1
    exact absurd (by simp [Shared.slots, hsame]) hne
  | saveFailed _ _ hs =>
    rcases hs with ⟨rfl, _⟩ | ⟨_, hs⟩
    · exact absurd rfl hne
    · have hsame := (Store.saveThreadId_spec hs).1
      exact absurd (by simp [Shared.slots, release, Shared.setLocked, hsame]) hne
  | _ => exact absurd rfl hne

/-- The texts a call holds outside the slots have the property. -/
structure CallHas (P : HouseId → Text → Prop) (call : Call) : Prop where
  carried : ∀ {house text}, call.pc.slotHouse = some house → carried call.pc = some text →
    P house text
  finished : ∀ {work text}, call.work = some work → work.pc = .finished (some text) →
    P work.house.id text

theorem callHas_new {P : HouseId → Text → Prop} (input : HouseholdInput) :
    CallHas P ⟨input, .resolveSurface, none, none⟩ := ⟨nofun, nofun⟩

theorem slots_have (ht : TaskStep engine sh c call e sh' call' o) (hf : Formed call)
    {P : HouseId → Text → Text → Prop} (hsuffix : ∀ {h a t u}, P h a t → u <:+ t → P h a u)
    (hslots : ∀ h a, SlotsHave (P h a) (sh.slots h a))
    (hcall : CallHas (fun h => P h call.app) call) (house : HouseId) (app : Text) :
    SlotsHave (P house app) (sh'.slots house app) := by
  have hset : ∀ {h slots}, SlotsHave (P h call.app) slots →
      SlotsHave (P house app) ((sh.setSlots h call.app slots).slots house app) := by
    intro h slots hnew
    by_cases hha : house = h ∧ app = call.app
    · obtain ⟨rfl, rfl⟩ := hha
      simpa [Shared.slots, Shared.setSlots] using hnew
    · have hother : (sh.setSlots h call.app slots).slots house app = sh.slots house app :=
        Store.setSlots_other hha
      exact hother ▸ hslots house app
  cases ht with
  | slot hh hs =>
    exact hset (slot_from hsuffix hs (hslots _ _) fun hc => hcall.carried hh hc).1
  | @marked work hpc hw => exact hset ⟨nofun, fun hc => (hslots _ _).continuation hc⟩
  | markFailed _ _ hcont hpend =>
    refine hset ⟨fun hp => ?_, fun hc => (hslots _ _).continuation (hcont ▸ hc)⟩
    rcases hpend with h | h
    · simp [h] at hp
    · exact (hslots _ _).pending (h ▸ hp)
  | @readySaved work text outcome hw hv =>
    refine hset ?_
    split
    · refine ⟨?_, fun hc => (hslots _ _).continuation hc⟩
      rintro _ ⟨rfl⟩
      obtain ⟨w, hw', hfin⟩ := hf.saving text hv
      obtain rfl := Option.some.inj (hw.symm.trans hw')
      exact hcall.finished hw hfin
    · exact hslots _ _
  | pendingCleared _ _ =>
    refine hset ?_
    split
    · exact (hslots _ _).clearPending
    · exact hslots _ _
  | saved _ _ hs =>
    have hsame := (Store.saveThreadId_spec hs).1
    simpa [Shared.slots, hsame] using hslots house app
  | saveFailed _ _ hs =>
    rcases hs with ⟨rfl, _⟩ | ⟨_, hs⟩
    · exact hslots house app
    · have hsame := (Store.saveThreadId_spec hs).1
      simpa [Shared.slots, release, Shared.setLocked, hsame] using hslots house app
  | _ => exact hslots house app

theorem call_has (ht : TaskStep engine sh c call e sh' call' o)
    {P : HouseId → Text → Text → Prop} (hsuffix : ∀ {h a t u}, P h a t → u <:+ t → P h a u)
    (hslots : ∀ h a, SlotsHave (P h a) (sh.slots h a))
    (hcall : CallHas (fun h => P h call.app) call)
    (hanswer : ∀ {c' h a t}, .answer c' h a t ∈ o → P h a t) :
    CallHas (fun h => P h call.app) call' := by
  cases ht with
  | slot hh hs =>
    obtain ⟨_, hpc', _⟩ := slot_from hsuffix hs (hslots _ _) fun hc => hcall.carried hh hc
    refine ⟨fun {house text} hh' hc' => ?_, hcall.finished⟩
    rcases hs.house hh with h | ⟨reply, rfl⟩ | ⟨ctx, rfl, _⟩
    · obtain rfl := Option.some.inj (h.symm.trans hh')
      exact hpc' hc'
    · cases hc'
    · cases hc'
  | @joinedText work text hpc hw hfin =>
    refine ⟨?_, hcall.finished⟩
    rintro _ _ ⟨rfl⟩ ⟨rfl⟩
    exact hcall.finished hw hfin
  | locked _ _ _ _ _ _ hspawned =>
    refine ⟨nofun, ?_⟩
    rintro _ text ⟨rfl⟩ hfin
    simp [hspawned] at hfin
  | @markFailed work _ _ _ hw _ _ =>
    have hfinished (t : Text) (hfin : work.pc = .finished (some t)) := hcall.finished hw hfin
    refine ⟨nofun, ?_⟩
    rintro _ text ⟨rfl⟩ hfin
    exact hfinished text hfin
  | answered hw _ =>
    refine ⟨hcall.carried, ?_⟩
    rintro _ _ ⟨rfl⟩ ⟨rfl⟩
    exact hanswer (List.mem_singleton_self _)
  | turnKnown _ _ _ | startCalled _ _ _ | started _ _ | saved _ _ _ | saveFailed _ _ _
  | runtimeFailed _ _ _ | dropped _ _ _ =>
    refine ⟨hcall.carried, ?_⟩
    rintro _ _ ⟨rfl⟩ hfin
    cases hfin
  | bound _ _ | unbound _ _ _ _ | lockFound _ _ | lockMade _ _ | busy _ _ | joinedLost _ _ _
  | deadline _ | marked _ _ | watch _ _ => exact ⟨nofun, hcall.finished⟩
  | watcherText _ _ _ | watcherLost _ _ _ | readySaved _ _ | pendingCleared _ _ =>
    exact ⟨hcall.carried, hcall.finished⟩

theorem reply_sayable (ht : TaskStep engine sh c call e sh' call' o)
    {P : HouseId → Text → Text → Prop} (hsuffix : ∀ {h a t u}, P h a t → u <:+ t → P h a u)
    (hslots : ∀ h a, SlotsHave (P h a) (sh.slots h a))
    (hcall : CallHas (fun h => P h call.app) call) {c' : CallId} {app text : Text}
    {house : HouseId} (hr : .reply c' app (some house) (.say text) ∈ o) :
    Sayable engine.shaper (P house app) text := by
  cases ht with
  | slot hh hs =>
    obtain ⟨_, rfl, hhouse, hpc'⟩ := reply_mem_slot.mp hr
    obtain rfl := Option.some.inj hhouse
    exact (slot_from hsuffix hs (hslots _ _) fun hc => hcall.carried hh hc).2.2 hpc'
  | unbound _ _ _ _ => simp at hr
  | watch _ _ =>
    obtain ⟨_, _, _, rfl⟩ := by simpa using hr
    exact .inl (by simp [fixedPhrases])
  | _ => simp at hr

/-- A turn in progress was shown. -/
theorem turn_shown (ht : TaskStep engine sh c call e sh' call' o) {work' : Work} {t : Text}
    (hw' : call'.work = some work') (hpc : work'.pc = .turn t) :
    (∃ u, .turn c work'.house.id t u ∈ o) ∨
      ∃ work, call.work = some work ∧ work.pc = .turn t ∧ work.house = work'.house := by
  cases ht with
  | turnKnown _ _ _ | saved _ _ _ =>
    obtain rfl := Option.some.inj hw'
    obtain rfl := WorkPc.turn.inj hpc
    exact .inl ⟨_, .head _⟩
  | locked _ _ _ _ _ _ hspawned =>
    obtain rfl := Option.some.inj hw'
    simp [hspawned] at hpc
  | markFailed _ hw _ _ =>
    obtain rfl := Option.some.inj hw'
    exact .inr ⟨_, hw, hpc, rfl⟩
  | startCalled _ _ _ | started _ _ | saveFailed _ _ _ | answered _ _ | runtimeFailed _ _ _
  | dropped _ _ _ =>
    obtain rfl := Option.some.inj hw'
    cases hpc
  | _ => exact .inr ⟨_, hw', hpc, rfl⟩

/-- An answer belongs to the turn in progress. -/
theorem answer_step (ht : TaskStep engine sh c call e sh' call' o) {c' : CallId} {house : HouseId}
    {app text : Text} (h : .answer c' house app text ∈ o) :
    c' = c ∧ app = call.app ∧ ∃ work t, call.work = some work ∧ work.pc = .turn t ∧
      work.house.id = house := by
  cases ht with
  | slot _ _ =>
    rcases mem_slot h with h | h | ⟨_, h⟩
    · cases h
    · cases slotObs_ofSlot _ h
    · cases h
  | answered hw hpc =>
    obtain ⟨rfl, rfl, rfl, rfl⟩ := by simpa using h
    exact ⟨rfl, rfl, _, _, hw, hpc, rfl⟩
  | _ => simp at h

structure ProvInv (engine : HouseholdEngine) (s : State) (os : List Obs) : Prop where
  slots : ∀ house app, SlotsHave (From os house app) (s.shared.slots house app)
  calls : ∀ {c : CallId} {call}, s.calls[c]? = some call →
    CallHas (fun house => From os house call.app) call
  spoken : ∀ {c app house text}, .reply c app (some house) (.say text) ∈ os →
    Sayable engine.shaper (From os house app) text
  turns : ∀ {c : CallId} {call work t}, s.calls[c]? = some call → call.work = some work →
    work.pc = .turn t → ∃ u, .turn c work.house.id t u ∈ os
  answers : ∀ {c house app text}, .answer c house app text ∈ os →
    (∃ t u, .turn c house t u ∈ os) ∧ ∃ call, s.calls[c]? = some call ∧ call.app = app

theorem CallHas.mono {P Q : HouseId → Text → Prop} (h : CallHas P call)
    (hpq : ∀ {house text}, P house text → Q house text) : CallHas Q call :=
  ⟨fun hh hc => hpq (h.carried hh hc), fun hw hf => hpq (h.finished hw hf)⟩

theorem Sayable.mono {shaper : ReplyShaper} {P Q : Text → Prop} {text : Text}
    (h : Sayable shaper P text) (hpq : ∀ {t}, P t → Q t) : Sayable shaper Q text :=
  h.imp_right fun ⟨u, hu, ht⟩ => ⟨u, hpq hu, ht⟩

theorem provInv_task (hi : ProvInv engine s os) (hc : s.calls[c]? = some call) (hf : Formed call)
    (ht : TaskStep engine s.shared c call e sh' call' o) :
    ProvInv engine ⟨sh', s.calls.set c call'⟩ (os ++ o) := by
  have happ : call'.app = call.app := by rw [Call.app, Call.app, input_step ht]
  have hsuffix : ∀ {h a t u}, From (os ++ o) h a t → u <:+ t → From (os ++ o) h a u :=
    fun h hu => h.suffix hu
  have hslots : ∀ h a, SlotsHave (From (os ++ o) h a) (s.shared.slots h a) :=
    fun h a => (hi.slots h a).mono From.mono
  have hcall : CallHas (fun h => From (os ++ o) h call.app) call := (hi.calls hc).mono From.mono
  have hanswer : ∀ {c' h a t}, .answer c' h a t ∈ o → From (os ++ o) h a t :=
    fun ha => ⟨_, _, List.mem_append_right _ ha, List.suffix_rfl⟩
  refine ⟨slots_have ht hf hsuffix hslots hcall, ?_, ?_, ?_, ?_⟩
  · intro c' d hd
    rcases getElem?_set_cases hd with ⟨_, rfl⟩ | ⟨_, hd⟩
    · exact happ ▸ call_has ht hsuffix hslots hcall hanswer
    · exact (hi.calls hd).mono From.mono
  · intro c' app house text hr
    rcases List.mem_append.mp hr with hr | hr
    · exact (hi.spoken hr).mono From.mono
    · exact reply_sayable (P := From (os ++ o)) ht hsuffix hslots hcall hr
  · intro c' d work t hd hw hpc
    rcases getElem?_set_cases hd with ⟨rfl, rfl⟩ | ⟨_, hd⟩
    · rcases turn_shown ht hw hpc with ⟨u, hu⟩ | ⟨work₀, hw₀, hpc₀, hhouse⟩
      · exact ⟨u, List.mem_append_right _ hu⟩
      · obtain ⟨u, hu⟩ := hi.turns hc hw₀ hpc₀
        exact ⟨u, List.mem_append_left _ (hhouse ▸ hu)⟩
    · obtain ⟨u, hu⟩ := hi.turns hd hw hpc
      exact ⟨u, List.mem_append_left _ hu⟩
  · intro c' house app text ha
    rcases List.mem_append.mp ha with ha | ha
    · obtain ⟨⟨t, u, hu⟩, d, hd, hda⟩ := hi.answers ha
      refine ⟨⟨t, u, List.mem_append_left _ hu⟩, ?_⟩
      by_cases hcc : c' = c
      · subst hcc
        obtain rfl := Option.some.inj (hc.symm.trans hd)
        exact ⟨call', getElem?_set_self hc, happ.trans hda⟩
      · exact ⟨d, by rw [List.getElem?_set_ne (Ne.symm hcc)]; exact hd, hda⟩
    · obtain ⟨rfl, rfl, work, t, hw, hpc, rfl⟩ := answer_step ht ha
      obtain ⟨u, hu⟩ := hi.turns hc hw hpc
      exact ⟨⟨t, u, List.mem_append_left _ hu⟩, call', getElem?_set_self hc, happ⟩

theorem expire_have {P : HouseId → Text → Text → Prop}
    (hslots : ∀ h a, SlotsHave (P h a) (sh.slots h a))
    {house : HouseId} {app : Text} {slots : Slots}
    (hs : slots = (sh.slots house app).clearPending ∨
      slots = (sh.slots house app).clearContinuation) (h : HouseId) (a : Text) :
    SlotsHave (P h a) ((sh.setSlots house app slots).slots h a) := by
  by_cases hha : h = house ∧ a = app
  · obtain ⟨rfl, rfl⟩ := hha
    have hself : (sh.setSlots h a slots).slots h a = slots := Store.setSlots_self ..
    rw [hself]
    rcases hs with rfl | rfl
    · exact (hslots h a).clearPending
    · exact (hslots h a).clearContinuation
  · have hother : (sh.setSlots house app slots).slots h a = sh.slots h a := Store.setSlots_other hha
    rw [hother]
    exact hslots h a

theorem provInv {store : Store} (hempty : ∀ h a, store.slots h a = Slots.empty) {as : List Action}
    (h : (machine engine).exec (initial store) as = some (s, os)) : ProvInv engine s os := by
  refine (run_invariant (ProvInv engine) ?_ ?_ ?_ ?_ (Machine.Along.free _ _) h).1
  · refine ⟨fun house app => ?_, by simp [initial], by simp, by simp [initial], by simp⟩
    have hslots : (initial store).shared.slots house app = Slots.empty := hempty house app
    rw [hslots]
    exact slotsHave_empty
  · intro s os input hi _
    refine ⟨hi.slots, fun hd => ?_, hi.spoken, fun hd hw hpc => ?_, fun ha => ?_⟩
    · rcases getElem?_concat_cases hd with ⟨_, rfl⟩ | hd
      · exact callHas_new input
      · exact hi.calls hd
    · rcases getElem?_concat_cases hd with ⟨_, rfl⟩ | hd
      · cases hw
      · exact hi.turns hd hw hpc
    · obtain ⟨hturn, d, hd, hda⟩ := hi.answers ha
      refine ⟨hturn, d, ?_, hda⟩
      rw [List.getElem?_append_left (List.getElem?_eq_some_iff.mp hd).1]
      exact hd
  · exact fun hi _ hc hf ht => provInv_task hi hc hf ht
  · intro s os a house app slots hi _ ha
    exact ⟨expire_have hi.slots (ha.imp And.right And.right), hi.calls, hi.spoken, hi.turns,
      hi.answers⟩

/-! ## Requests without a house -/

theorem slotObs_call {app : Text} {input : HouseholdInput} {slots : Slots}
    {pc : Pc} {outcome : Outcome} :
    ∀ o ∈ slotObs c app input slots pc outcome, callOf o = c := by
  unfold slotObs
  split
  · split
    · split <;> simp [callOf]
    · simp
  all_goals simp [callOf]

theorem obs_call (ht : TaskStep engine sh c call e sh' call' o) : ∀ obs ∈ o, callOf obs = c := by
  cases ht with
  | slot _ _ =>
    intro obs hobs
    rcases mem_slot hobs with rfl | h | ⟨_, rfl⟩
    · rfl
    · exact slotObs_call _ h
    · rfl
  | _ => simp [callOf]

/-- A request that has replied and has no work does nothing more. -/
theorem done_stops (ht : TaskStep engine sh c call e sh' call' o) {reply : HouseholdReply}
    (hpc : call.pc = .replied reply) (hw : call.work = none) : False := by
  cases ht <;> simp_all [Pc.slotHouse]

theorem leaves_resolve (ht : TaskStep engine sh c call e sh' call' o) (hf : Formed call) :
    call'.pc ≠ .resolveSurface := by
  have hbefore : ∀ {work}, call.work = some work → call.pc ≠ .resolveSurface := by
    intro work hw hpc
    simp [hf.before (by rw [hpc]; rfl)] at hw
  cases ht with
  | slot hh hs =>
    rcases hs.house hh with h | ⟨_, rfl⟩ | ⟨_, rfl, _⟩
    · rintro rfl
      cases h
    · simp
    · simp
  | turnKnown hw _ _ | startCalled hw _ _ | started hw _ | saved hw _ _ | saveFailed hw _ _
  | answered hw _ | runtimeFailed hw _ _ | dropped hw _ _ | watcherText hw _ _
  | watcherLost hw _ _ | readySaved hw _ | pendingCleared hw _ => exact hbefore hw
  | _ => simp

/-- A reply without a house is the whole step of a request that is not bound. -/
theorem unbound_step (ht : TaskStep engine sh c call e sh' call' o) {c' : CallId} {app : Text}
    {reply : HouseholdReply} (h : .reply c' app none reply ∈ o) :
    call.pc = .resolveSurface ∧ call' = { call with pc := .replied reply } ∧
      o = [.reply c' app none reply] ∧ c' = c ∧ (∀ text, reply ≠ .say text) := by
  cases ht with
  | unbound hpc _ hsay _ =>
    obtain ⟨rfl, rfl, rfl⟩ := by simpa using h
    exact ⟨hpc, rfl, rfl, rfl, hsay⟩
  | slot _ _ => cases (reply_mem_slot.mp h).2.2.1
  | _ => simp at h

structure UnboundInv (s : State) (os : List Obs) : Prop where
  bounded : ∀ o ∈ os, callOf o < s.calls.length
  silent : ∀ {c : CallId} {call}, s.calls[c]? = some call → call.pc = .resolveSurface →
    ∀ o ∈ os, callOf o ≠ c
  unbound : ∀ {c app reply}, .reply c app none reply ∈ os →
    (∀ text, reply ≠ .say text) ∧ (∀ o ∈ os, callOf o = c → o = .reply c app none reply) ∧
      ∃ call, s.calls[c]? = some call ∧ call.pc = .replied reply ∧ call.work = none

theorem unboundInv_task (hi : UnboundInv s os) (hc : s.calls[c]? = some call) (hf : Formed call)
    (ht : TaskStep engine s.shared c call e sh' call' o) :
    UnboundInv ⟨sh', s.calls.set c call'⟩ (os ++ o) := by
  have hlt := (List.getElem?_eq_some_iff.mp hc).1
  refine ⟨fun obs hobs => ?_, fun {c' d} hd hpc obs hobs => ?_, fun {c' app reply} hr => ?_⟩
  · rw [List.length_set]
    rcases List.mem_append.mp hobs with hobs | hobs
    · exact hi.bounded obs hobs
    · rw [obs_call ht obs hobs]
      exact hlt
  · rcases getElem?_set_cases hd with ⟨_, rfl⟩ | ⟨hne, hd⟩
    · exact absurd hpc (leaves_resolve ht hf)
    · rcases List.mem_append.mp hobs with hobs | hobs
      · exact hi.silent hd hpc obs hobs
      · rw [obs_call ht obs hobs]
        exact Ne.symm hne
  · rcases List.mem_append.mp hr with hr | hr
    · obtain ⟨hsay, honly, d, hd, hpc, hw⟩ := hi.unbound hr
      have hne : c' ≠ c := by
        rintro rfl
        obtain rfl := Option.some.inj (hc.symm.trans hd)
        exact done_stops ht hpc hw
      refine ⟨hsay, fun obs hobs hcall => ?_, d, ?_, hpc, hw⟩
      · rcases List.mem_append.mp hobs with hobs | hobs
        · exact honly obs hobs hcall
        · exact absurd (hcall.symm.trans (obs_call ht obs hobs)) hne
      · rw [List.getElem?_set_ne (Ne.symm hne)]
        exact hd
    · obtain ⟨hpc, rfl, rfl, rfl, hsay⟩ := unbound_step ht hr
      refine ⟨hsay, fun obs hobs hcall => ?_, _, getElem?_set_self hc, rfl,
        hf.before (by rw [hpc]; rfl)⟩
      rcases List.mem_append.mp hobs with hobs | hobs
      · exact absurd hcall (hi.silent hc hpc obs hobs)
      · exact List.mem_singleton.mp hobs

theorem unboundInv {store : Store} {as : List Action}
    (h : (machine engine).exec (initial store) as = some (s, os)) : UnboundInv s os := by
  refine (run_invariant UnboundInv ?_ ?_ ?_ ?_ (Machine.Along.free _ _) h).1
  · exact ⟨by simp, by simp, by simp⟩
  · intro s os input hi _
    refine ⟨fun o ho => ?_, fun hd hpc o ho => ?_, fun hr => ?_⟩
    · exact Nat.lt_of_lt_of_le (hi.bounded o ho) (by simp)
    · rcases getElem?_concat_cases hd with ⟨rfl, _⟩ | hd
      · exact Nat.ne_of_lt (hi.bounded o ho)
      · exact hi.silent hd hpc o ho
    · obtain ⟨hsay, honly, d, hd, hpc, hw⟩ := hi.unbound hr
      refine ⟨hsay, honly, d, ?_, hpc, hw⟩
      rw [List.getElem?_append_left (List.getElem?_eq_some_iff.mp hd).1]
      exact hd
  · exact fun hi _ hc hf ht => unboundInv_task hi hc hf ht
  · exact fun hi _ _ => ⟨hi.bounded, hi.silent, hi.unbound⟩

end Steps

/-- What an application hears is a fixed phrase or a piece of an answer to a
request of its own in the same house. A request without a house shows nothing
but its reply, and every change of an entry is shown by a task that touched it
or is an expiry. -/
theorem speech_isolated (engine : HouseholdEngine) {store : Store}
    (hempty : ∀ house app, store.slots house app = Slots.empty) {as : List Action} {s : State}
    {os : List Obs} (h : (machine engine).exec (initial store) as = some (s, os)) :
    (∀ c app house text, .reply c app (some house) (.say text) ∈ os → text ∈ fixedPhrases ∨
      ∃ (c' : CallId) (call : Call) (t u answer part : Text), s.calls[c']? = some call ∧
        call.app = app ∧ .turn c' house t u ∈ os ∧ .answer c' house app answer ∈ os ∧
        part <:+: answer ∧ part.length ≤ engine.shaper.contentLimit ∧
        (text = part ∨ text = part ++ continuationSuffix)) ∧
    (∀ c app reply, .reply c app none reply ∈ os → (∀ text, reply ≠ .say text) ∧
      ∀ o ∈ os, callOf o = c → o = .reply c app none reply) ∧
    ∀ a s' o house app, step engine s a = some (s', o) →
      s'.shared.slots house app ≠ s.shared.slots house app →
      a = .expirePending house app ∨ a = .expireContinuation house app ∨
        ∃ c, .touched c house app ∈ o := by
  have hi := provInv hempty h
  have hu := unboundInv h
  refine ⟨?_, fun c app reply hr => ⟨(hu.unbound hr).1, (hu.unbound hr).2.1⟩, ?_⟩
  · intro c app house text hr
    rcases hi.spoken hr with hfixed | ⟨u, ⟨c', answer, ha, hend⟩, rfl⟩
    · exact .inl hfixed
    · obtain ⟨⟨t, w, hturn⟩, call, hc, happ⟩ := hi.answers ha
      obtain ⟨part, hpart, hle, htext⟩ := spoken_piece engine.shaper u
      exact .inr ⟨c', call, t, w, answer, part, hc, happ, hturn, ha,
        hpart.trans hend.isInfix, hle, htext⟩
  · intro a s' o house app hstep hne
    rcases step_cases hstep with ⟨_, _, _, rfl⟩ | ⟨c, _, _, _, _, _, _, ht, rfl⟩ |
      ⟨h₀, a₀, slots, _, rfl, ha⟩
    · exact absurd rfl hne
    · exact .inr (.inr ⟨c, slots_touched ht hne⟩)
    · have hsame : house = h₀ ∧ app = a₀ := by
        by_contra hha
        exact hne (Store.setSlots_other hha)
      obtain ⟨rfl, rfl⟩ := hsame
      exact ha.imp And.left fun h => .inl h.1

/-- One surface asks and hears the answer, an unknown one is refused. -/
def heardAnswer : List Action :=
  [.arrive ⟨⟨['o'], ['a']⟩, ['?'], false⟩, .task 0 (.resolve (.bound 1)), .task 0 (.slot .ok),
    .task 0 (.slot .ok), .task 0 .lockEntry, .task 0 .tryLock, .task 0 .workBegin,
    .task 0 (.turned (some ['!'])), .task 0 .joined, .task 0 (.slot .ok),
    .arrive ⟨⟨['x'], ['b']⟩, ['?'], false⟩, .task 1 (.resolve .unauthorized)]

theorem speech_isolated_heard :
    ∃ s os, (machine ⟨⟨850, by decide⟩, false⟩).exec
        (initial (fixture 1 ⟨['Д'], some ['t'], ['h']⟩)) heardAnswer = some (s, os) ∧
      .reply 0 ['a'] (some 1) (.say ['!']) ∈ os ∧ .reply 1 ['b'] none .refuse ∈ os ∧
      ∀ o ∈ os, callOf o = 1 → o = .reply 1 ['b'] none .refuse := by
  have hrun : ((machine ⟨⟨850, by decide⟩, false⟩).exec
      (initial (fixture 1 ⟨['Д'], some ['t'], ['h']⟩)) heardAnswer).map (fun r =>
        decide (.reply 0 ['a'] (some 1) (.say ['!']) ∈ r.2 ∧ .reply 1 ['b'] none .refuse ∈ r.2)) =
      some true := by decide
  obtain ⟨⟨s, os⟩, hexec, hshown⟩ := Option.map_eq_some_iff.mp hrun
  obtain ⟨hheard, hrefused⟩ := of_decide_eq_true hshown
  exact ⟨s, os, hexec, hheard, hrefused,
    ((speech_isolated _ (fun _ _ => rfl) hexec).2.1 1 ['b'] .refuse hrefused).2⟩

end AliceBridge.Core.HouseProvenance
