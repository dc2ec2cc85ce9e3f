import AliceBridge.Lib.Delivery
import AliceBridge.Core.HouseCalls

/-! # What a call knows of the entries of its surface

A call is engaged with the entries of its surface from the continuation it took
to its reply, and again while it waits for a late result. `view` is what it then
knows of the entries and of the text still owed to the surface; entries nobody
is engaged with are `Settled`. While the store works, a step leaves all that
alone or moves it by what it shows the surface (`taskStep_move`). -/
namespace AliceBridge.Core.HouseViews
open AliceBridge.Lib.Utf8 AliceBridge.Lib.Run AliceBridge.Lib.Delivery AliceBridge.Core.Reply
open AliceBridge.Core.Household AliceBridge.Core.HouseEngine AliceBridge.Core.HouseSteps
open AliceBridge.Core.HouseCalls

/-! ## Undisturbed runs -/

def Call.live (call : Call) : Bool :=
  match call.pc with
  | .replied _ => false
  | _ => true

/-- The surface of a new request has received all its replies. -/
def Sequential (s : State) : Action → Prop
  | .arrive input =>
    ∀ call ∈ s.calls, call.app = input.identity.applicationId → Call.live call = false
  | _ => True

def Succeeds : Event → Prop
  | .resolve resolution => resolution ≠ .failed
  | .slot outcome | .mark outcome | .threadSaved outcome | .watcherStore outcome => outcome = .ok
  | _ => True

/-- Store operations succeed and no entry expires. -/
def StoreWorks : Action → Prop
  | .arrive _ => True
  | .task _ e => Succeeds e
  | .expirePending _ _ | .expireContinuation _ _ => False

def Undisturbed (s : State) (a : Action) : Prop := Sequential s a ∧ StoreWorks a

instance (s : State) (a : Action) : Decidable (Sequential s a) := by
  cases a <;> unfold Sequential <;> infer_instance

instance (e : Event) : Decidable (Succeeds e) := by
  cases e <;> unfold Succeeds <;> infer_instance

instance (a : Action) : Decidable (StoreWorks a) := by
  cases a <;> unfold StoreWorks <;> infer_instance

instance (s : State) (a : Action) : Decidable (Undisturbed s a) := by
  unfold Undisturbed
  infer_instance

/-! ## What a surface sees -/

/-- An answer of the runtime, a part of it in a reply, the rest a refusal cut off. -/
def shown (shaper : ReplyShaper) : Obs → Option ((HouseId × Text) × Item Char)
  | .answer _ house app text => some ((house, app), .received text)
  | .spoke _ house app _ text => some ((house, app), .said (shaper.split text).content)
  | .refused _ house app chunks => some ((house, app), .cut chunks.flatten)
  | _ => none

def timeline (shaper : ReplyShaper) (house : HouseId) (app : Text) (os : List Obs) :
    List (Item Char) :=
  (os.filterMap (shown shaper)).filterMap fun e => if e.1 = (house, app) then some e.2 else none

theorem timeline_append (shaper : ReplyShaper) (house : HouseId) (app : Text) (os o : List Obs) :
    timeline shaper house app (os ++ o) =
      timeline shaper house app os ++ timeline shaper house app o := by
  simp [timeline]

/-- Every part of an answer is followed by the reply that speaks it, and all
else that is said is a fixed phrase. -/
def Voiced (shaper : ReplyShaper) : List Obs → Prop
  | .spoke c house app _ text :: .reply c' app' house' reply :: os =>
    c' = c ∧ app' = app ∧ house' = some house ∧ reply = .say (shaper.split text).spoken ∧
      Voiced shaper os
  | .spoke .. :: _ => False
  | .reply _ _ (some _) (.say text) :: os => text ∈ fixedPhrases ∧ Voiced shaper os
  | _ :: os => Voiced shaper os
  | [] => True

/-! ## Engaged calls -/

structure View where
  slots : Slots
  owed : Option Text

def WorkPc.text : WorkPc → Option Text
  | .finished text => text
  | _ => none

/-- The entries and the owed text as a call that is engaged with them knows them. -/
def view (shaper : ReplyShaper) (call : Call) : Option (HouseId × View) :=
  match call.pc with
  | .saveBack house chunks => some (house, ⟨Slots.empty, some chunks.flatten⟩)
  | .shapeAndSave house text .ready => some (house, ⟨⟨.ready text, none⟩, some text⟩)
  | .shapeAndSave house text _ => some (house, ⟨Slots.empty, some text⟩)
  | .clearReady house text =>
    some (house, ⟨Slots.saveContinuation ⟨.ready text, none⟩ (shaper.split text).remaining,
      some text⟩)
  | .lockEntry house | .tryLock house _ => some (house.id, ⟨Slots.empty, none⟩)
  | .awaitWork | .markThinking =>
    call.work.map fun work => (work.house.id, ⟨Slots.empty, WorkPc.text work.pc⟩)
  | .spawnWatcher =>
    call.work.map fun work => (work.house.id, ⟨⟨.thinking, none⟩, WorkPc.text work.pc⟩)
  | .replied _ =>
    match call.watcher with
    | some .joining | some (.saveReady _) =>
      call.work.map fun work => (work.house.id, ⟨⟨.thinking, none⟩, WorkPc.text work.pc⟩)
    | some .clearPending => call.work.map fun work => (work.house.id, ⟨⟨.thinking, none⟩, none⟩)
    | _ => none
  | _ => none

/-- Entries no task is engaged with, and what they owe. -/
inductive Settled : Slots → Option Text → Prop
  | nothing : Settled ⟨.none, none⟩ none
  | ready {text : Text} : Settled ⟨.ready text, none⟩ (some text)
  | rest {chunks : List Text} : Settled ⟨.none, some chunks⟩ (some chunks.flatten)

def Agrees (view : Option (HouseId × View)) (slots : Slots) (owed : Option Text) : Prop :=
  match view with
  | some (_, view) => view = ⟨slots, owed⟩
  | none => Settled slots owed

/-- Work in progress has a request or a watcher waiting for it. -/
def Attended (call : Call) : Prop :=
  ∀ {work}, call.work = some work → work.pc.holdsGuard = true →
    Pc.holdsWork call.pc = true ∨ call.watcher = some .joining

/-! ## What a step does to a surface -/

/-- A call is engaged with this house or not at all. -/
def OnHouse (house : HouseId) (view : Option (HouseId × View)) : Prop :=
  ∀ {h v}, view = some (h, v) → h = house

/-- What a step of `call` to `call'` does to the surfaces and to who is engaged:
nothing, or a move on one of them. A request that becomes engaged, or acts
without being so, finds no watcher there. -/
inductive Move (shaper : ReplyShaper) (sh sh' : Shared) (call call' : Call) (o : List Obs) : Prop
  | still : view shaper call' = view shaper call → (∀ h a, sh'.slots h a = sh.slots h a) →
      o.filterMap (shown shaper) = [] → Move shaper sh sh' call call' o
  | move {house : HouseId} {items : List (Item Char)} :
      OnHouse house (view shaper call) → OnHouse house (view shaper call') →
      (∀ h a, ¬ (h = house ∧ a = call.app) → sh'.slots h a = sh.slots h a) →
      o.filterMap (shown shaper) = items.map (fun item => ((house, call.app), item)) →
      (∀ owed, Agrees (view shaper call) (sh.slots house call.app) owed →
        ∃ owed', Steps owed items owed' ∧
          Agrees (view shaper call') (sh'.slots house call.app) owed') →
      (view shaper call = none →
        Call.live call = true ∧ sh.slots house call.app ≠ ⟨.thinking, none⟩) →
      Move shaper sh sh' call call' o

section Moves

variable {shaper : ReplyShaper} {sh sh' : Shared} {c : CallId} {call call' : Call} {o : List Obs}

theorem onHouse_none {house : HouseId} : OnHouse house none := by simp [OnHouse]

theorem onHouse_some {house : HouseId} {v : View} : OnHouse house (some (house, v)) := by
  rintro h w ⟨⟩
  rfl

/-- An engaged call acts: what it owes afterwards follows from its view alone. -/
theorem Move.engaged (items : List (Item Char)) {house : HouseId} {v : View} {slots : Slots}
    (hv : view shaper call = some (house, v)) (hv' : OnHouse house (view shaper call'))
    (hsh : ∀ h a, sh'.slots h a = (sh.setSlots house call.app slots).slots h a)
    (ho : o.filterMap (shown shaper) = items.map fun item => ((house, call.app), item))
    (h : v.slots = sh.slots house call.app →
      ∃ owed', Steps v.owed items owed' ∧ Agrees (view shaper call') slots owed') :
    Move shaper sh sh' call call' o := by
  refine .move (hv ▸ onHouse_some) hv' (fun h a hne => ?_) ho (fun owed hagrees => ?_) ?_
  · rw [hsh]
    exact Shared.setSlots_other hne
  · rw [hv] at hagrees
    obtain rfl : v = ⟨sh.slots house call.app, owed⟩ := hagrees
    rw [hsh]
    rw [Shared.setSlots_self]
    exact h rfl
  · simp [hv]

/-- A request that is not engaged acts on entries nobody is engaged with. -/
theorem Move.reader (items : List (Item Char)) {house : HouseId} {slots : Slots}
    (hv : view shaper call = none) (hv' : OnHouse house (view shaper call'))
    (hlive : Call.live call = true) (hp : sh.slots house call.app ≠ ⟨.thinking, none⟩)
    (hsh : ∀ h a, sh'.slots h a = (sh.setSlots house call.app slots).slots h a)
    (ho : o.filterMap (shown shaper) = items.map fun item => ((house, call.app), item))
    (h : ∀ owed, Settled (sh.slots house call.app) owed →
      ∃ owed', Steps owed items owed' ∧ Agrees (view shaper call') slots owed') :
    Move shaper sh sh' call call' o := by
  refine .move (hv ▸ onHouse_none) hv' (fun h a hne => ?_) ho (fun owed hagrees => ?_)
    fun _ => ⟨hlive, hp⟩
  · rw [hsh]
    exact Shared.setSlots_other hne
  · rw [hv] at hagrees
    rw [hsh]
    rw [Shared.setSlots_self]
    exact h owed hagrees

theorem setSlots_same {house : HouseId} {app : Text} (h : HouseId) (a : Text) :
    sh.slots h a = (sh.setSlots house app (sh.slots house app)).slots h a := by
  by_cases hs : h = house ∧ a = app
  · obtain ⟨rfl, rfl⟩ := hs
    exact (Shared.setSlots_self ..).symm
  · exact (Shared.setSlots_other hs).symm

/-- Saving the chunks `split` leaves settles the entries, with what it did not say owed. -/
theorem settled_saved (shaper : ReplyShaper) (text : Text) :
    ∃ owed, Steps (some text) [.said (shaper.split text).content] owed ∧
      Settled (Slots.saveContinuation Slots.empty (shaper.split text).remaining) owed := by
  have hcontent := shaper.split_content text
  rcases shaper.split_cases text with ⟨_, h⟩ | ⟨_, chunk, remaining, h, hne, _⟩
  · refine ⟨none, .single ?_, ?_⟩
    · simp only [h, ShapedReply.content, List.isEmpty_nil, if_true]
      exact .finished
    · simp only [h, Slots.saveContinuation, List.isEmpty_nil, if_true]
      exact .nothing
  · refine ⟨some remaining.flatten, .single ?_, ?_⟩
    · have hrest : (shaper.split text).rest = remaining.flatten := by rw [h, ShapedReply.rest]
      rw [hrest] at hcontent
      have hstep : Step (some ((shaper.split text).content ++ remaining.flatten))
          (.said (shaper.split text).content) (some remaining.flatten) := .said
      rwa [hcontent] at hstep
    · simp only [h, Slots.saveContinuation, List.isEmpty_iff, hne, if_false]
      exact .rest

theorem view_replied (shaper : ReplyShaper) (reply : HouseholdReply) (hv : call.watcher = none) :
    view shaper { call with pc := .replied reply } = none := by
  simp [view, hv]

/-- A call that owes nothing replies without an answer. -/
theorem Move.lost {house : HouseId} {reply : HouseholdReply}
    (hview : view shaper call = some (house, ⟨Slots.empty, none⟩)) (hv : call.watcher = none)
    (ho : o.filterMap (shown shaper) = []) :
    Move shaper sh sh call { call with pc := .replied reply } o := by
  have hnone := view_replied shaper reply hv
  refine .engaged [] hview ?_ (fun h a => setSlots_same h a) ho fun hslots => ?_
  · rw [hnone]
    exact onHouse_none
  · rw [hnone, ← hslots]
    exact ⟨none, .nil, .nothing⟩

theorem slotObs_shown {app : Text} {house : HouseId} {input : HouseholdInput} {slots : Slots}
    {pc pc' : Pc} {outcome : Outcome} :
    (.touched c house app :: (slotObs c app input slots pc outcome ++
      replyObs c app house pc')).filterMap (shown shaper) =
    (slotObs c app input slots pc outcome).filterMap (shown shaper) := by
  have hreply : (replyObs c app house pc').filterMap (shown shaper) = [] := by
    unfold replyObs
    split <;> rfl
  rw [List.filterMap_cons, List.filterMap_append, hreply, List.append_nil]
  rfl

/-- A request that takes chunks drops them, goes on with them, or keeps them to save them
back. -/
theorem taken_move {ctx : HouseContext} {chunks : List Text}
    (hc : (sh.slots ctx.id call.app).continuation = some chunks)
    (hpc : call.pc = .takeContinuation ctx) (hv : call.watcher = none) :
    Move shaper sh (sh.setSlots ctx.id call.app (sh.slots ctx.id call.app).clearContinuation) call
      { call with pc := answerContinuation ctx.id call.input.utterance chunks }
      (.touched c ctx.id call.app ::
        (slotObs c call.app call.input (sh.slots ctx.id call.app) (.takeContinuation ctx) .ok ++
          replyObs c call.app ctx.id
            (answerContinuation ctx.id call.input.utterance chunks))) := by
  have hold' : sh.slots ctx.id call.app ≠ ⟨.thinking, none⟩ := by
    intro heq
    simp [heq] at hc
  have hsettled : ∀ owed, Settled (sh.slots ctx.id call.app) owed →
      owed = some chunks.flatten ∧
        (sh.slots ctx.id call.app).clearContinuation = Slots.empty := by
    intro owed h
    generalize sh.slots ctx.id call.app = slots at h hc
    cases h with
    | nothing | ready => cases hc
    | rest =>
      obtain rfl := Option.some.inj hc
      exact ⟨rfl, rfl⟩
  cases hd : ContinuationDecision.fromUtterance call.input.utterance with
  | stop =>
    refine .reader [.cut chunks.flatten] (by simp [view, hpc]) ?_ (by simp [Call.live, hpc]) hold'
      (fun _ _ => rfl) ?_ ?_
    · simp only [answerContinuation, hd, view_replied _ _ hv]
      exact onHouse_none
    · rw [slotObs_shown]
      simp [slotObs, hc, hd, shown]
    · intro owed h
      obtain ⟨rfl, hempty⟩ := hsettled owed h
      simp only [answerContinuation, hd, view_replied _ _ hv, hempty]
      exact ⟨none, .single .cut, .nothing⟩
  | empty =>
    refine .reader [] (by simp [view, hpc]) ?_ (by simp [Call.live, hpc]) hold'
      (fun _ _ => rfl) ?_ ?_
    · simp only [answerContinuation, hd, view]
      exact onHouse_some
    · rw [slotObs_shown]
      simp [slotObs, hc, hd]
    · intro owed h
      obtain ⟨rfl, hempty⟩ := hsettled owed h
      simp only [answerContinuation, hd, view, hempty]
      exact ⟨_, .nil, rfl⟩
  | goOn =>
    refine .reader [] (by simp [view, hpc]) ?_ (by simp [Call.live, hpc]) hold'
      (fun _ _ => rfl) ?_ ?_
    · simp only [answerContinuation, hd, view]
      exact onHouse_some
    · rw [slotObs_shown]
      simp [slotObs, hc, hd]
    · intro owed h
      obtain ⟨rfl, hempty⟩ := hsettled owed h
      simp only [answerContinuation, hd, view, hempty]
      exact ⟨_, .nil, rfl⟩

/-- The slot operations, by what the request read. -/
theorem slot_move {input : HouseholdInput} {house : HouseId} {pc : Pc} {slots : Slots}
    (hs : SlotStep shaper input (sh.slots house call.app) call.pc .ok pc slots)
    (hh : call.pc.slotHouse = some house) (hin : call.input = input) (hv : call.watcher = none)
    (hpoll : ∀ ctx, call.pc = .pollPending ctx → (sh.slots ctx.id call.app).continuation = none)
    (hback : ∀ h chunks, call.pc = .saveBack h chunks → chunks ≠ []) :
    Move shaper sh (sh.setSlots house call.app slots) call { call with pc := pc }
      (.touched c house call.app ::
        (slotObs c call.app call.input (sh.slots house call.app) call.pc .ok ++
          replyObs c call.app house pc)) := by
  have hreplied (reply : HouseholdReply) := view_replied shaper reply hv
  generalize hold : sh.slots house call.app = old at hs
  generalize hpc : call.pc = pc₀ at hs hh hpoll hback
  cases hs with
  | @taken ctx chunks hc =>
    obtain rfl : ctx.id = house := by simpa [Pc.slotHouse] using hh
    subst hin hold
    exact taken_move hc hpc hv
  | nothingTaken hc =>
    refine .still (by simp [view, hpc]) (fun h a => (hold ▸ setSlots_same h a).symm) ?_
    rw [slotObs_shown]
    simp [slotObs, hc]
  | @savedBack house' chunks =>
    obtain rfl : house' = house := by simpa [Pc.slotHouse] using hh
    refine .engaged [] (v := ⟨Slots.empty, some chunks.flatten⟩) (by simp [view, hpc]) ?_
      (fun _ _ => rfl) ?_ ?_
    · rw [hreplied]
      exact onHouse_none
    · rw [slotObs_shown]
      simp [slotObs]
    · intro hslots
      rw [hreplied, ← hold, ← hslots]
      refine ⟨_, .nil, ?_⟩
      simp only [Slots.saveContinuation, List.isEmpty_iff, hback _ _ rfl, if_false]
      exact .rest
  | @shaped house' text source hsrc =>
    obtain rfl : house' = house := by simpa [Pc.slotHouse] using hh
    have hview : view shaper call = some (house', ⟨Slots.empty, some text⟩) := by
      cases source <;> simp [view, hpc] at hsrc ⊢
    refine .engaged [.said (shaper.split text).content] hview ?_ (fun _ _ => rfl) ?_ ?_
    · rw [hreplied]
      exact onHouse_none
    · rw [slotObs_shown]
      cases source with
      | ready => exact absurd rfl hsrc
      | continuation | fresh => rfl
    · intro hslots
      rw [hreplied, ← hold, ← hslots]
      exact settled_saved shaper text
  | @shapedReady house' text =>
    obtain rfl : house' = house := by simpa [Pc.slotHouse] using hh
    refine .engaged [] (v := ⟨⟨.ready text, none⟩, some text⟩) (by simp [view, hpc]) ?_
      (fun _ _ => rfl) ?_ ?_
    · simp only [view]
      exact onHouse_some
    · rw [slotObs_shown]
      simp [slotObs, shown]
    · intro hslots
      rw [← hold, ← hslots]
      exact ⟨_, .nil, rfl⟩
  | @cleared house' text =>
    obtain rfl : house' = house := by simpa [Pc.slotHouse] using hh
    refine .engaged [.said (shaper.split text).content]
      (v := ⟨Slots.saveContinuation ⟨.ready text, none⟩ (shaper.split text).remaining, some text⟩)
      (by simp [view, hpc]) ?_ (fun _ _ => rfl) ?_ ?_
    · rw [hreplied]
      exact onHouse_none
    · rw [slotObs_shown]
      simp [slotObs, shown]
    · intro hslots
      rw [hreplied, ← hold, ← hslots]
      have hclear : Slots.clearPending (Slots.saveContinuation ⟨.ready text, none⟩
          (shaper.split text).remaining) =
          Slots.saveContinuation Slots.empty (shaper.split text).remaining := by
        unfold Slots.saveContinuation
        split <;> rfl
      rw [hclear]
      exact settled_saved shaper text
  | @polledReady ctx text hp =>
    obtain rfl : ctx.id = house := by simpa [Pc.slotHouse] using hh
    refine .reader [] (by simp [view, hpc]) ?_ (by simp [Call.live, hpc]) ?_ (fun _ _ => rfl) ?_ ?_
    · simp only [view]
      exact onHouse_some
    · intro heq
      simp [← hold, heq] at hp
    · rw [slotObs_shown]
      simp [slotObs]
    · intro owed h
      rw [hold] at h
      cases h with
      | nothing | rest => cases hp
      | ready =>
        obtain rfl := PendingReply.ready.inj hp
        exact ⟨_, .nil, rfl⟩
  | @polledThinking ctx hp =>
    refine .still ?_ (fun h a => (hold ▸ setSlots_same h a).symm) ?_
    · rw [hreplied]
      simp [view, hpc]
    · rw [slotObs_shown]
      simp [slotObs]
  | @polledNone ctx hp =>
    obtain rfl : ctx.id = house := by simpa [Pc.slotHouse] using hh
    unfold afterPoll
    split
    · refine .still ?_ (fun h a => (hold ▸ setSlots_same h a).symm) ?_
      · rw [hreplied]
        simp [view, hpc]
      · rw [slotObs_shown]
        simp [slotObs]
    · refine .reader [] (by simp [view, hpc]) ?_ (by simp [Call.live, hpc]) ?_
        (fun _ _ => rfl) ?_ ?_
      · simp only [view]
        exact onHouse_some
      · intro heq
        simp [← hold, heq] at hp
      · rw [slotObs_shown]
        simp [slotObs]
      · intro owed h
        have hnone := hpoll ctx rfl
        rw [hold] at h hnone
        cases h with
        | ready => cases hp
        | rest => cases hnone
        | nothing => exact ⟨_, .nil, rfl⟩

/-- A step of the work that does not bring a text leaves the view alone. -/
theorem view_work {work work' : Work} (hw : call.work = some work)
    (hhouse : work'.house = work.house) (htext : WorkPc.text work'.pc = WorkPc.text work.pc) :
    view shaper { call with work := some work' } = view shaper call := by
  unfold view
  simp only [hw, Option.map_some, hhouse, htext]

theorem text_of_holdsGuard {pc : WorkPc} (h : pc.holdsGuard = true) : WorkPc.text pc = none := by
  cases pc <;> simp_all [WorkPc.holdsGuard, WorkPc.text]

/-- Work in progress is seen by the call that waits for it, and its text when it comes. -/
theorem view_attended (shaper : ReplyShaper) {work : Work} (h : Attended call) (hf : Formed call)
    (hw : call.work = some work) (hg : work.pc.holdsGuard = true) :
    ∃ slots : Slots, slots.continuation = none ∧
      view shaper call = some (work.house.id, ⟨slots, none⟩) ∧
      ∀ work' : Work, work'.house = work.house →
        view shaper { call with work := some work' } =
          some (work.house.id, ⟨slots, WorkPc.text work'.pc⟩) := by
  have htext := text_of_holdsGuard hg
  rcases h hw hg with hpc | hv
  · cases hp : call.pc with
    | awaitWork | markThinking =>
      exact ⟨Slots.empty, rfl, by simp [view, hp, hw, htext], fun _ he => by simp [view, he]⟩
    | spawnWatcher =>
      exact ⟨⟨.thinking, none⟩, rfl, by simp [view, hp, hw, htext], fun _ he => by simp [view, he]⟩
    | _ => simp [hp, Pc.holdsWork] at hpc
  · have hp := (hf.watched _ hv).1
    exact ⟨⟨.thinking, none⟩, rfl, by simp [view, hp, hw, hv, htext],
      fun _ he => by simp [view, hp, hv, he]⟩

theorem taskStep_move {engine : HouseholdEngine} {e : Event} (hok : Succeeds e)
    (ht : TaskStep engine sh c call e sh' call' o) (hf : Formed call) (hatt : Attended call)
    (hpoll : ∀ ctx, call.pc = .pollPending ctx → (sh.slots ctx.id call.app).continuation = none)
    (hback : ∀ h chunks, call.pc = .saveBack h chunks → chunks ≠ []) :
    Move engine.shaper sh sh' call call' o := by
  cases ht with
  | bound hpc _ => exact .still (by simp [view, hpc]) (fun _ _ => rfl) rfl
  | unbound hpc _ _ _ =>
    refine .still ?_ (fun _ _ => rfl) rfl
    rw [view_replied _ _ (hf.no_watcher (by simp [hpc]))]
    simp [view, hpc]
  | slot hh hs =>
    obtain rfl := hok
    refine slot_move hs hh rfl (hf.no_watcher fun r hr => ?_) hpoll hback
    simp [hr, Pc.slotHouse] at hh
  | lockFound hpc _ | lockMade hpc _ | deadline hpc =>
    exact .still (by simp [view, hpc]) (fun _ _ => rfl) rfl
  | @busy house lock hpc _ =>
    have hview : view engine.shaper call = some (house.id, ⟨Slots.empty, none⟩) := by
      simp [view, hpc]
    exact .lost hview (hf.no_watcher (by simp [hpc])) rfl
  | @locked house lock work hpc _ hhouse _ _ _ hwpc =>
    exact .still (by simp [view, hpc, hhouse, hwpc, WorkPc.text]) (fun _ _ => rfl) rfl
  | @joinedText work text hpc hw hfin =>
    exact .still (by simp [view, hpc, hw, hfin, WorkPc.text]) (fun _ _ => rfl) rfl
  | @joinedLost work hpc hw hlost =>
    have htext : WorkPc.text work.pc = none := by
      rcases hlost with h | h <;> rw [h] <;> rfl
    have hview : view engine.shaper call = some (work.house.id, ⟨Slots.empty, none⟩) := by
      simp [view, hpc, hw, htext]
    exact .lost hview (hf.no_watcher (by simp [hpc])) rfl
  | @marked work hpc hw =>
    have hview : view engine.shaper { call with pc := .spawnWatcher } =
        some (work.house.id, ⟨⟨.thinking, none⟩, WorkPc.text work.pc⟩) := by simp [view, hw]
    refine .engaged [] (v := ⟨Slots.empty, WorkPc.text work.pc⟩) (by simp [view, hpc, hw]) ?_
      (fun _ _ => rfl) rfl fun hslots => ?_
    · rw [hview]
      exact onHouse_some
    · rw [hview, ← hslots]
      exact ⟨_, .nil, rfl⟩
  | markFailed _ _ _ _ => exact absurd hok (by simp [Succeeds])
  | @watch work hpc hw => exact .still (by simp [view, hpc, hw]) (fun _ _ => rfl) rfl
  | turnKnown hw hwpc _ | startCalled hw hwpc _ | started hw hwpc =>
    refine .still (view_work hw rfl ?_) (fun _ _ => rfl) rfl
    simp [hwpc, WorkPc.text]
  | saved hw hwpc hs =>
    refine .still (view_work hw rfl (by simp [hwpc, WorkPc.text])) (fun _ _ => ?_) rfl
    simp [Shared.slots, (Store.saveThreadId_spec hs).1]
  | saveFailed hw hwpc hs =>
    refine .still (view_work hw rfl (by simp [hwpc, WorkPc.text])) (fun _ _ => ?_) rfl
    rcases hs with ⟨rfl, _⟩ | ⟨_, hs⟩
    · rfl
    · simp [Shared.slots, release, Shared.setLocked, (Store.saveThreadId_spec hs).1]
  | @answered work threadId text hw hwpc =>
    obtain ⟨slots, _, hview, hview'⟩ := view_attended engine.shaper hatt hf hw
      (by rw [hwpc]; rfl)
    have hview' := hview' { work with pc := .finished (some text) } rfl
    refine .engaged [.received text] hview ?_ (fun h a => setSlots_same h a) rfl fun hslots => ?_
    · rw [hview']
      exact onHouse_some
    · have hsame : (release sh work).slots = sh.slots := rfl
      rw [hview', hsame, ← hslots]
      exact ⟨some text, .single .received, rfl⟩
  | runtimeFailed hw hin _ =>
    refine .still (view_work hw rfl ?_) (fun _ _ => rfl) rfl
    rw [text_of_holdsGuard (inCall_holdsGuard hin)]
    rfl
  | dropped hw hg _ =>
    refine .still (view_work hw rfl ?_) (fun _ _ => rfl) rfl
    rw [text_of_holdsGuard hg]
    rfl
  | @watcherText work text hw hv hfin =>
    have hpc := (hf.watched _ hv).1
    exact .still (by simp [view, hpc, hv]) (fun _ _ => rfl) rfl
  | @watcherLost work hw hv hlost =>
    have hpc := (hf.watched _ hv).1
    have htext : WorkPc.text work.pc = none := by
      rcases hlost with h | h <;> rw [h] <;> rfl
    exact .still (by simp [view, hpc, hv, hw, htext]) (fun _ _ => rfl) rfl
  | @readySaved work text outcome hw hv =>
    obtain rfl := hok
    have hpc := (hf.watched _ hv).1
    obtain ⟨w, hw', hfin⟩ := hf.saving _ hv
    obtain rfl := Option.some.inj (hw.symm.trans hw')
    have hdone : view engine.shaper { call with watcher := some .done } = none := by
      simp [view, hpc]
    refine .engaged [] (v := ⟨⟨.thinking, none⟩, some text⟩)
      (by simp [view, hpc, hv, hw, hfin, WorkPc.text]) ?_ (fun _ _ => rfl) rfl fun hslots => ?_
    · rw [hdone]
      exact onHouse_none
    · rw [hdone, ← hslots]
      exact ⟨_, .nil, .ready⟩
  | @pendingCleared work outcome hw hv =>
    obtain rfl := hok
    have hpc := (hf.watched _ hv).1
    have hdone : view engine.shaper { call with watcher := some .done } = none := by
      simp [view, hpc]
    refine .engaged [] (v := ⟨⟨.thinking, none⟩, none⟩) (by simp [view, hpc, hv, hw]) ?_
      (fun _ _ => rfl) rfl fun hslots => ?_
    · rw [hdone]
      exact onHouse_none
    · rw [hdone, ← hslots]
      exact ⟨_, .nil, .nothing⟩

end Moves

end AliceBridge.Core.HouseViews
