import AliceBridge.Lib.Ledger
import AliceBridge.Core.HouseServe
import AliceBridge.Core.HouseDelivery

/-! # No answer lost, none spoken twice

Calls of one surface may overlap. What the runtime answered a surface is either
spoken from its beginning or still whole somewhere: in a finished work, in its
request or its watcher, or ready in the entry; and a remainder that was stored
is spoken on, refused, or still stored or carried (`Balanced`). A step keeps it
so exactly when it does not write over a text, and when the ready text it deletes
is the one it speaks (`Spares`). Nothing in the engine makes it so: two requests
can poll one ready text and both speak it. -/
namespace AliceBridge.Core.HouseLedger
open AliceBridge.Lib.Utf8 AliceBridge.Lib.Run AliceBridge.Lib.Ledger AliceBridge.Core.Reply
open AliceBridge.Core.Household AliceBridge.Core.HouseEngine AliceBridge.Core.HouseSteps
open AliceBridge.Core.HouseCalls AliceBridge.Core.HouseViews AliceBridge.Core.HouseDelivery
open AliceBridge.Core.HouseServe (readyText)

/-! ## The two accounts of a surface -/

abbrev Surface := HouseId × Text

def answered : Obs → Option (Surface × Text)
  | .answer _ house app text => some ((house, app), text)
  | _ => none

/-- A reply that speaks an answer from its beginning. -/
def begun : Obs → Option (Surface × Text)
  | .spoke _ _ _ .continuation _ => none
  | .spoke _ house app _ text => some ((house, app), text)
  | _ => none

/-- A remainder that is stored for the first time. -/
def remainder (shaper : ReplyShaper) : Obs → Option (Surface × Text)
  | .shaped _ house app _ text =>
    if (shaper.split text).remaining.isEmpty then none
    else some ((house, app), (shaper.split text).rest)
  | _ => none

/-- A remainder that is spoken on or refused. -/
def resumed : Obs → Option (Surface × Text)
  | .spoke _ house app .continuation text => some ((house, app), text)
  | .refused _ house app chunks => some ((house, app), chunks.flatten)
  | _ => none

/-- The answer a call holds unspoken: its work has finished, or it or its watcher
is about to store it. -/
def heldAnswer (call : Call) : Option (Surface × Text) :=
  match call.pc with
  | .shapeAndSave house text .fresh => some ((house, call.app), text)
  | .awaitWork | .markThinking | .spawnWatcher =>
    call.work.bind fun work =>
      (WorkPc.text work.pc).map fun text => ((work.house.id, call.app), text)
  | .replied _ =>
    match call.watcher with
    | some .joining | some (.saveReady _) =>
      call.work.bind fun work =>
        (WorkPc.text work.pc).map fun text => ((work.house.id, call.app), text)
    | _ => none
  | _ => none

/-- The remainder a request has taken. -/
def heldRest (call : Call) : Option (Surface × Text) :=
  match call.pc with
  | .saveBack house chunks => some ((house, call.app), chunks.flatten)
  | .shapeAndSave house text .continuation => some ((house, call.app), text)
  | _ => none

def readyIn (slots : Slots) : Multiset Text := (readyText slots.pending).elim 0 fun text => {text}

def storedIn (slots : Slots) : Multiset Text :=
  slots.continuation.elim 0 fun chunks => {chunks.flatten}

/-- Every answer of the surface was begun once or is held whole, and every
remainder was resumed once or is held. -/
structure Balanced (shaper : ReplyShaper) (s : State) (os : List Obs) (house : HouseId)
    (app : Text) : Prop where
  answers : total answered (house, app) os = total begun (house, app) os +
    (readyIn (s.shared.slots house app) + total heldAnswer (house, app) s.calls)
  rests : total (remainder shaper) (house, app) os = total resumed (house, app) os +
    (storedIn (s.shared.slots house app) + total heldRest (house, app) s.calls)

/-! ## Steps that spare the texts -/

/-- The surface whose entries a call works on. -/
def surfaceOf (call : Call) : Option Surface :=
  (call.pc.slotHouse.or (call.work.map fun work => work.house.id)).map fun house =>
    (house, call.app)

/-- A step that stores chunks finds none stored, one that deletes a ready text to
speak it finds that text, and one that marks or settles the entry finds no text. -/
def sparesAt (slots : Slots) (pc : Pc) : Event → Bool
  | .slot _ =>
    match pc with
    | .saveBack _ _ | .shapeAndSave _ _ _ => slots.continuation.isNone
    | .clearReady _ text => slots.pending = .ready text
    | _ => true
  | .mark _ | .watcherStore _ => (readyText slots.pending).isNone
  | _ => true

def Spares (s : State) : Action → Prop
  | .task c e => ∀ call ∈ s.calls[c]?, ∀ k ∈ surfaceOf call,
    sparesAt (s.shared.slots k.1 k.2) call.pc e = true
  | _ => True

instance (s : State) : (a : Action) → Decidable (Spares s a)
  | .task c e => inferInstanceAs (Decidable (∀ call ∈ s.calls[c]?, ∀ k ∈ surfaceOf call,
      sparesAt (s.shared.slots k.1 k.2) call.pc e = true))
  | .arrive _ | .expirePending _ _ | .expireContinuation _ _ => isTrue trivial

/-! ## One step -/

section Steps

variable (shaper : ReplyShaper) (sh sh' : Shared) (call call' : Call) (o : List Obs)

/-- On this surface the step speaks or keeps what it takes in. -/
def Kept (house : HouseId) (app : Text) : Prop :=
  readyIn (sh.slots house app) + total answered (house, app) o +
      pick (house, app) (heldAnswer call) =
    readyIn (sh'.slots house app) + total begun (house, app) o +
      pick (house, app) (heldAnswer call') ∧
  storedIn (sh.slots house app) + total (remainder shaper) (house, app) o +
      pick (house, app) (heldRest call) =
    storedIn (sh'.slots house app) + total resumed (house, app) o +
      pick (house, app) (heldRest call')

variable {shaper sh sh' call call' o}

/-- Only these observations are on an account. -/
def counts : Obs → Bool
  | .answer .. | .spoke .. | .shaped .. | .refused .. => true
  | _ => false

theorem not_counts (shaper : ReplyShaper) {x : Obs} (h : counts x = false) :
    answered x = none ∧ begun x = none ∧
    remainder shaper x = none ∧ resumed x = none := by
  cases x <;> first | exact ⟨rfl, rfl, rfl, rfl⟩ | cases h

/-- A step that writes no entry, hands over what the call holds and shows nothing. -/
theorem Kept.quiet (hslots : ∀ h a, sh'.slots h a = sh.slots h a)
    (hA : heldAnswer call' = heldAnswer call) (hR : heldRest call' = heldRest call)
    (ho : ∀ x ∈ o, counts x = false) (house : HouseId) (app : Text) :
    Kept shaper sh sh' call call' o house app := by
  unfold Kept
  have h (x : Obs) (hx : x ∈ o) := not_counts shaper (ho x hx)
  rw [hslots, hA, hR, total_none fun x hx => (h x hx).1, total_none fun x hx => (h x hx).2.1,
    total_none fun x hx => (h x hx).2.2.1, total_none fun x hx => (h x hx).2.2.2]
  exact ⟨rfl, rfl⟩

theorem forall_surface {P : HouseId → Text → Prop} (house : HouseId) (app : Text)
    (hother : ∀ h a, ((house, app) : Surface) ≠ (h, a) → P h a) :
    (∀ h a, P h a) ↔ P house app := by
  refine ⟨fun h => h house app, fun hp h a => ?_⟩
  by_cases hk : ((house, app) : Surface) = (h, a)
  · obtain ⟨rfl, rfl⟩ := Prod.mk.injEq .. ▸ hk
    exact hp
  · exact hother h a hk

theorem slots_off {house h : HouseId} {app a : Text} {slots : Slots}
    (hk : ((house, app) : Surface) ≠ (h, a)) :
    (sh.setSlots house app slots).slots h a = sh.slots h a :=
  Shared.setSlots_other fun hs => hk (by rw [hs.1, hs.2])

@[simp] theorem heldAnswer_replied (reply : HouseholdReply) (hv : call.watcher = none) :
    heldAnswer { call with pc := .replied reply } = none := by
  simp [heldAnswer, hv]

/-- An observation on an account is on the account of its surface. -/
theorem total_slot {c : CallId} {house : HouseId} {input : HouseholdInput} {slots : Slots}
    {pc pc' : Pc} {outcome : Outcome} {k : Surface} {f : Obs → Option (Surface × Text)}
    (htouched : f (.touched c house call.app) = none)
    (hreply : ∀ reply, f (.reply c call.app house reply) = none) :
    total f k (.touched c house call.app :: (slotObs c call.app input slots pc outcome ++
      replyObs c call.app house pc')) = total f k (slotObs c call.app input slots pc outcome) := by
  have hr : total f k (replyObs c call.app house pc') = 0 := by
    unfold replyObs
    split
    · simp [hreply]
    · rfl
  rw [total_cons, htouched, pick_none, zero_add, total_append, hr, add_zero]

@[simp] theorem readyIn_saved (slots : Slots) (chunks : List Text) :
    readyIn (slots.saveContinuation chunks) = readyIn slots := by
  simp [readyIn]

theorem storedIn_saved (slots : Slots) (chunks : List Text) :
    storedIn (slots.saveContinuation chunks) = if chunks.isEmpty then 0 else {chunks.flatten} := by
  unfold storedIn
  rw [Slots.saveContinuation_continuation]
  split <;> rfl

theorem storedIn_eq_zero {slots : Slots} : storedIn slots = 0 ↔ slots.continuation = none := by
  unfold storedIn
  cases slots.continuation <;> simp

theorem readyIn_eq_zero {slots : Slots} : readyIn slots = 0 ↔ readyText slots.pending = none := by
  unfold readyIn
  cases readyText slots.pending <;> simp

theorem readyIn_eq_singleton {slots : Slots} {text : Text} :
    readyIn slots = {text} ↔ slots.pending = .ready text := by
  unfold readyIn readyText
  cases slots.pending <;> simp

@[simp] theorem readyIn_clearPending (slots : Slots) : readyIn slots.clearPending = 0 := rfl

@[simp] theorem readyIn_markThinking (slots : Slots) : readyIn slots.markThinking = 0 := rfl

@[simp] theorem readyIn_saveReady (slots : Slots) (text : Text) :
    readyIn (slots.saveReady text) = {text} := rfl

@[simp] theorem storedIn_clearPending (slots : Slots) :
    storedIn slots.clearPending = storedIn slots := rfl

@[simp] theorem storedIn_markThinking (slots : Slots) :
    storedIn slots.markThinking = storedIn slots := rfl

@[simp] theorem storedIn_saveReady (slots : Slots) (text : Text) :
    storedIn (slots.saveReady text) = storedIn slots := rfl

/-- What the chunks that `split` leaves put on the account of the remainders. -/
theorem storedIn_split (shaper : ReplyShaper) (slots : Slots) (text : Text) (house : HouseId)
    (app : Text) (c : CallId) (source : Source) :
    storedIn (slots.saveContinuation (shaper.split text).remaining) =
      pick (house, app) (remainder shaper (.shaped c house app source text)) := by
  rw [storedIn_saved, remainder]
  split
  · rfl
  · simp [ShapedReply.rest]

theorem remainder_other (shaper : ReplyShaper) (c : CallId) {house h : HouseId} {app a : Text}
    (text : Text) (source : Source) (hk : ((house, app) : Surface) ≠ (h, a)) :
    pick (h, a) (remainder shaper (.shaped c house app source text)) = 0 := by
  simp only [remainder]
  split
  · rfl
  · exact pick_other hk _

@[simp] theorem app_mk (pc : Pc) (work : Option Work) (watcher : Option Watcher) :
    Call.app ⟨call.input, pc, work, watcher⟩ = call.app := rfl

theorem slot_kept {c : CallId} {house : HouseId} {pc : Pc} {slots : Slots}
    (hs : SlotStep shaper call.input (sh.slots house call.app) call.pc .ok pc slots)
    (hh : call.pc.slotHouse = some house) (hv : call.watcher = none)
    (hback : ∀ h chunks, call.pc = .saveBack h chunks → chunks ≠ []) :
    (∀ h a, Kept shaper sh (sh.setSlots house call.app slots) call { call with pc := pc }
      (.touched c house call.app ::
        (slotObs c call.app call.input (sh.slots house call.app) call.pc .ok ++
          replyObs c call.app house pc)) h a) ↔
      sparesAt (sh.slots house call.app) call.pc (.slot .ok) = true := by
  have hreplied (reply : HouseholdReply) := heldAnswer_replied reply hv
  unfold Kept
  simp only [total_slot (f := answered) rfl fun _ => rfl, total_slot (f := begun) rfl fun _ => rfl,
    total_slot (f := remainder shaper) rfl fun _ => rfl,
    total_slot (f := resumed) rfl fun _ => rfl]
  generalize hold : sh.slots house call.app = old at hs
  generalize hpc : call.pc = pc₀ at hs hh hback
  cases hs with
  | @taken ctx chunks hc =>
    obtain rfl : ctx.id = house := by simpa [Pc.slotHouse] using hh
    refine iff_of_true ((forall_surface ctx.id call.app fun h a hk => ?_).mpr ?_) rfl
    · cases hd : ContinuationDecision.fromUtterance call.input.utterance <;>
        simp [slots_off hk, slotObs, hc, hd, answered, begun, remainder, resumed, heldAnswer,
          heldRest, hpc, answerContinuation, pick_other hk, hv]
    · have hstored : storedIn old = {chunks.flatten} := by simp [storedIn, hc]
      have hcleared : storedIn old.clearContinuation = 0 := rfl
      have hready : readyIn old.clearContinuation = readyIn old := rfl
      cases hd : ContinuationDecision.fromUtterance call.input.utterance <;>
        simp [hold, hstored, hcleared, hready, slotObs, hc, hd, answered, begun, remainder, resumed,
          heldAnswer, heldRest, hpc, answerContinuation, hv]
  | @nothingTaken ctx hc =>
    obtain rfl : ctx.id = house := by simpa [Pc.slotHouse] using hh
    refine iff_of_true ((forall_surface ctx.id call.app fun h a hk => ?_).mpr ?_) rfl
    · simp [slots_off hk, slotObs, hc, heldAnswer, heldRest, hpc]
    · simp [hold, slotObs, hc, heldAnswer, heldRest, hpc]
  | @savedBack house' chunks =>
    obtain rfl : house' = house := by simpa [Pc.slotHouse] using hh
    have hne := hback _ _ rfl
    rw [forall_surface house' call.app]
    · simp [hold, slotObs, heldAnswer, heldRest, hpc, hv, sparesAt, storedIn_saved, hne,
        storedIn_eq_zero]
    · intro h a hk
      simp [slots_off hk, slotObs, heldAnswer, heldRest, hpc, pick_other hk, hv]
  | @shaped house' text source hsrc =>
    obtain rfl : house' = house := by simpa [Pc.slotHouse] using hh
    have hsplit := storedIn_split shaper old text house' call.app c source
    have hspoke : remainder shaper (.spoke c house' call.app source text) = none := rfl
    rw [forall_surface house' call.app]
    · cases source with
      | ready => exact absurd rfl hsrc
      | continuation | fresh =>
        simp [hold, slotObs, hsplit, hspoke, answered, begun, resumed, heldAnswer, heldRest, hpc,
          hv, sparesAt, storedIn_eq_zero, add_assoc]
    · intro h a hk
      have hoff := remainder_other shaper c text source hk
      cases source with
      | ready => exact absurd rfl hsrc
      | continuation | fresh =>
        simp [slots_off hk, slotObs, hoff, hspoke, answered, begun, resumed, heldAnswer, heldRest,
          hpc, pick_other hk, hv]
  | @shapedReady house' text =>
    obtain rfl : house' = house := by simpa [Pc.slotHouse] using hh
    have hsplit := storedIn_split shaper old text house' call.app c .ready
    rw [forall_surface house' call.app]
    · simp [hold, slotObs, hsplit, answered, begun, resumed, heldAnswer, heldRest, hpc, sparesAt,
        storedIn_eq_zero]
    · intro h a hk
      have hoff := remainder_other shaper c text .ready hk
      simp [slots_off hk, slotObs, hoff, answered, begun, resumed, heldAnswer, heldRest, hpc]
  | @cleared house' text =>
    obtain rfl : house' = house := by simpa [Pc.slotHouse] using hh
    rw [forall_surface house' call.app]
    · simp [hold, slotObs, answered, begun, remainder, resumed, heldAnswer, heldRest, hpc, hv,
        sparesAt, readyIn_eq_singleton]
    · intro h a hk
      simp [slots_off hk, slotObs, answered, begun, remainder, resumed, heldAnswer, heldRest, hpc,
        pick_other hk, hv]
  | @polledReady ctx text hp =>
    obtain rfl : ctx.id = house := by simpa [Pc.slotHouse] using hh
    refine iff_of_true ((forall_surface ctx.id call.app fun h a hk => ?_).mpr ?_) rfl
    · simp [slots_off hk, slotObs, heldAnswer, heldRest, hpc]
    · simp [hold, slotObs, heldAnswer, heldRest, hpc]
  | @polledThinking ctx hp =>
    obtain rfl : ctx.id = house := by simpa [Pc.slotHouse] using hh
    refine iff_of_true ((forall_surface ctx.id call.app fun h a hk => ?_).mpr ?_) rfl
    · simp [slots_off hk, slotObs, heldAnswer, heldRest, hpc, hv]
    · simp [hold, slotObs, heldAnswer, heldRest, hpc, hv]
  | @polledNone ctx hp =>
    obtain rfl : ctx.id = house := by simpa [Pc.slotHouse] using hh
    refine iff_of_true ((forall_surface ctx.id call.app fun h a hk => ?_).mpr ?_) rfl
    · unfold afterPoll
      split <;> simp [slots_off hk, slotObs, heldAnswer, heldRest, hpc, hv]
    · unfold afterPoll
      split <;> simp [hold, slotObs, heldAnswer, heldRest, hpc, hv]

/-- A step of the work that does not bring a text hands nothing over. -/
theorem heldAnswer_work {work work' : Work} (hw : call.work = some work)
    (hhouse : work'.house = work.house) (htext : WorkPc.text work'.pc = WorkPc.text work.pc) :
    heldAnswer { call with work := some work' } = heldAnswer call := by
  unfold heldAnswer
  simp only [hw, Option.bind_some, hhouse, htext, app_mk]

/-- The text of work in progress is held by the call that waits for it. -/
theorem heldAnswer_attended {work : Work} (h : Attended call) (hf : Formed call)
    (hw : call.work = some work) (hg : work.pc.holdsGuard = true) :
    heldAnswer call = none ∧ ∀ work' : Work, work'.house = work.house →
      heldAnswer { call with work := some work' } =
        (WorkPc.text work'.pc).map fun text => ((work.house.id, call.app), text) := by
  have htext := text_of_holdsGuard hg
  rcases h hw hg with hpc | hv
  · cases hp : call.pc with
    | awaitWork | markThinking | spawnWatcher =>
      exact ⟨by simp [heldAnswer, hp, hw, htext], fun _ he => by simp [heldAnswer, he]⟩
    | _ => simp [hp, Pc.holdsWork] at hpc
  · have hp := (hf.watched _ hv).1
    exact ⟨by simp [heldAnswer, hp, hw, hv, htext], fun _ he => by simp [heldAnswer, hp, hv, he]⟩

theorem surfaceOf_slot {house : HouseId} (hh : call.pc.slotHouse = some house) :
    surfaceOf call = some (house, call.app) := by
  simp [surfaceOf, hh]

theorem surfaceOf_work {work : Work} (hh : call.pc.slotHouse = none) (hw : call.work = some work) :
    surfaceOf call = some (work.house.id, call.app) := by
  simp [surfaceOf, hh, hw]

theorem kept_quiet {engine : HouseholdEngine} {e : Event}
    (hslots : ∀ h a, sh'.slots h a = sh.slots h a)
    (hA : heldAnswer call' = heldAnswer call) (hR : heldRest call' = heldRest call)
    (ho : ∀ x ∈ o, counts x = false)
    (he : ∀ slots, sparesAt slots call.pc e = true) :
    (∀ h a, Kept engine.shaper sh sh' call call' o h a) ↔
      ∀ k ∈ surfaceOf call, sparesAt (sh.slots k.1 k.2) call.pc e = true :=
  iff_of_true (fun h a => .quiet hslots hA hR ho h a) fun _ _ => he _

theorem taskStep_kept {engine : HouseholdEngine} {c : CallId} {e : Event} (hok : Succeeds e)
    (ht : TaskStep engine sh c call e sh' call' o) (hf : Formed call) (hatt : Attended call)
    (hback : ∀ h chunks, call.pc = .saveBack h chunks → chunks ≠ []) :
    (∀ h a, Kept engine.shaper sh sh' call call' o h a) ↔
      ∀ k ∈ surfaceOf call, sparesAt (sh.slots k.1 k.2) call.pc e = true := by
  cases ht with
  | bound hpc _ | lockFound hpc _ | lockMade hpc _ =>
    exact kept_quiet (fun _ _ => rfl) (by simp [heldAnswer, hpc]) (by simp [heldRest, hpc])
      (by simp) fun _ => rfl
  | unbound hpc _ _ _ | busy hpc _ =>
    refine kept_quiet (fun _ _ => rfl) ?_ (by simp [heldRest, hpc]) (by simp [counts]) fun _ => rfl
    rw [heldAnswer_replied _ (hf.no_watcher (by simp [hpc]))]
    simp [heldAnswer, hpc]
  | slot hh hs =>
    obtain rfl := hok
    rw [slot_kept hs hh (hf.no_watcher fun r hr => by simp [hr, Pc.slotHouse] at hh) hback]
    simp [surfaceOf_slot hh]
  | @locked house lock work hpc _ _ _ _ _ hwpc =>
    exact kept_quiet (fun _ _ => rfl) (by simp [heldAnswer, hpc, hwpc, WorkPc.text])
      (by simp [heldRest, hpc]) (by simp) fun _ => rfl
  | @joinedText work text hpc hw hfin =>
    exact kept_quiet (fun _ _ => rfl) (by simp [heldAnswer, hpc, hw, hfin, WorkPc.text])
      (by simp [heldRest, hpc]) (by simp) fun _ => rfl
  | @joinedLost work hpc hw hlost =>
    refine kept_quiet (fun _ _ => rfl) ?_ (by simp [heldRest, hpc]) (by simp [counts]) fun _ => rfl
    rw [heldAnswer_replied _ (hf.no_watcher (by simp [hpc]))]
    rcases hlost with hlost | hlost <;> simp [heldAnswer, hpc, hw, hlost, WorkPc.text]
  | deadline hpc =>
    exact kept_quiet (fun _ _ => rfl) (by simp [heldAnswer, hpc]) (by simp [heldRest, hpc])
      (by simp) fun _ => rfl
  | @marked work hpc hw =>
    rw [surfaceOf_work (by simp [hpc, Pc.slotHouse]) hw, forall_surface work.house.id call.app]
    · simp [Kept, answered, begun, remainder, resumed, heldAnswer, heldRest, hpc, sparesAt,
        readyIn_eq_zero]
    · intro h a hk
      simp [Kept, slots_off hk, answered, begun, remainder, resumed, heldAnswer, heldRest, hpc]
  | markFailed _ _ _ _ => exact absurd hok (by simp [Succeeds])
  | @watch work hpc hw =>
    exact kept_quiet (fun _ _ => rfl) (by simp [heldAnswer, hpc, hw]) (by simp [heldRest, hpc])
      (by simp [counts]) fun _ => rfl
  | turnKnown hw hwpc _ | startCalled hw hwpc _ | started hw hwpc =>
    exact kept_quiet (fun _ _ => rfl) (heldAnswer_work hw rfl (by simp [hwpc, WorkPc.text])) rfl
      (by simp [counts]) fun _ => rfl
  | saved hw hwpc hs =>
    refine kept_quiet (fun _ _ => ?_) (heldAnswer_work hw rfl (by simp [hwpc, WorkPc.text])) rfl
      (by simp [counts]) fun _ => rfl
    simp [Shared.slots, (Store.saveThreadId_spec hs).1]
  | saveFailed hw hwpc hs =>
    refine kept_quiet (fun _ _ => ?_) (heldAnswer_work hw rfl (by simp [hwpc, WorkPc.text])) rfl
      (by simp) fun _ => rfl
    rcases hs with ⟨rfl, _⟩ | ⟨_, hs⟩
    · rfl
    · simp [Shared.slots, release, Shared.setLocked, (Store.saveThreadId_spec hs).1]
  | @answered work threadId text hw hwpc =>
    obtain ⟨hnone, hheld⟩ := heldAnswer_attended hatt hf hw (by rw [hwpc]; rfl)
    have hheld := hheld { work with pc := .finished (some text) } rfl
    have hrest : heldRest { call with work := some { work with pc := .finished (some text) } } =
      heldRest call := rfl
    have hslots (h : HouseId) (a : Text) : (release sh work).slots h a = sh.slots h a := rfl
    refine iff_of_true (fun h a => ?_) fun _ _ => rfl
    simp [Kept, hnone, hheld, hrest, hslots, answered, begun, remainder, resumed, WorkPc.text]
  | runtimeFailed hw hin he =>
    refine kept_quiet (fun _ _ => rfl) (heldAnswer_work hw rfl ?_) rfl (by simp) fun _ => ?_
    · rw [text_of_holdsGuard (inCall_holdsGuard hin)]
      rfl
    · rcases he with rfl | rfl <;> rfl
  | dropped hw hg he =>
    refine kept_quiet (fun _ _ => rfl) (heldAnswer_work hw rfl ?_) rfl (by simp) fun _ => ?_
    · rw [text_of_holdsGuard hg]
      rfl
    · rcases he with rfl | ⟨rfl, _⟩ <;> rfl
  | @watcherText work text hw hv hfin =>
    have hpc := (hf.watched _ hv).1
    exact kept_quiet (fun _ _ => rfl) (by simp [heldAnswer, hpc, hv]) (by simp [heldRest, hpc])
      (by simp) fun _ => rfl
  | @watcherLost work hw hv hlost =>
    have hpc := (hf.watched _ hv).1
    refine kept_quiet (fun _ _ => rfl) ?_ rfl (by simp) fun _ => rfl
    rcases hlost with hlost | hlost <;> simp [heldAnswer, hpc, hv, hw, hlost, WorkPc.text]
  | @readySaved work text outcome hw hv =>
    obtain rfl := hok
    have hpc := (hf.watched _ hv).1
    obtain ⟨w, hw', hfin⟩ := hf.saving _ hv
    obtain rfl := Option.some.inj (hw.symm.trans hw')
    rw [surfaceOf_work (by simp [hpc, Pc.slotHouse]) hw, forall_surface work.house.id call.app]
    · simp [Kept, answered, begun, remainder, resumed, heldAnswer, heldRest, hpc, hv, hw, hfin,
        WorkPc.text, sparesAt, readyIn_eq_zero, Outcome.applies]
    · intro h a hk
      simp [Kept, slots_off hk, answered, begun, remainder, resumed, heldAnswer, heldRest, hpc, hv,
        hw, hfin, WorkPc.text, pick_other hk]
  | @pendingCleared work outcome hw hv =>
    obtain rfl := hok
    have hpc := (hf.watched _ hv).1
    rw [surfaceOf_work (by simp [hpc, Pc.slotHouse]) hw, forall_surface work.house.id call.app]
    · simp [Kept, answered, begun, remainder, resumed, heldAnswer, heldRest, hpc, hv, sparesAt,
        readyIn_eq_zero, Outcome.applies]
    · intro h a hk
      simp [Kept, slots_off hk, answered, begun, remainder, resumed, heldAnswer, heldRest, hpc, hv]

end Steps

/-! ## Runs -/

section Runs

variable {engine : HouseholdEngine} {s s' : State} {c : CallId} {call call' : Call} {sh : Shared}
  {os o : List Obs}

theorem task_balanced {shaper : ReplyShaper} (h : ∀ house app, Balanced shaper s os house app)
    (hc : s.calls[c]? = some call) :
    (∀ house app, Balanced shaper ⟨sh, s.calls.set c call'⟩ (os ++ o) house app) ↔
      ∀ house app, Kept shaper s.shared sh call call' o house app := by
  refine forall_congr' fun house => forall_congr' fun app => ?_
  have hanswers : total answered (house, app) (os ++ o) = total begun (house, app) (os ++ o) +
      (readyIn (sh.slots house app) + total heldAnswer (house, app) (s.calls.set c call')) ↔
      readyIn (s.shared.slots house app) + total answered (house, app) o +
        pick (house, app) (heldAnswer call) =
      readyIn (sh.slots house app) + total begun (house, app) o +
        pick (house, app) (heldAnswer call') := by
    rw [total_append, total_append]
    exact balance_iff (h house app).answers (total_set heldAnswer (house, app) hc)
  have hrests : total (remainder shaper) (house, app) (os ++ o) =
      total resumed (house, app) (os ++ o) +
      (storedIn (sh.slots house app) + total heldRest (house, app) (s.calls.set c call')) ↔
      storedIn (s.shared.slots house app) + total (remainder shaper) (house, app) o +
        pick (house, app) (heldRest call) =
      storedIn (sh.slots house app) + total resumed (house, app) o +
        pick (house, app) (heldRest call') := by
    rw [total_append, total_append]
    exact balance_iff (h house app).rests (total_set heldRest (house, app) hc)
  exact ⟨fun hb => ⟨hanswers.mp hb.answers, hrests.mp hb.rests⟩,
    fun hk => ⟨hanswers.mpr hk.1, hrests.mpr hk.2⟩⟩

/-- What the accounts rely on: calls keep their parts in step, and chunks are the shaper's. -/
structure Sound (engine : HouseholdEngine) (s : State) : Prop where
  formed : ∀ {c : CallId} {call : Call}, s.calls[c]? = some call → Formed call
  attended : ∀ {c : CallId} {call : Call}, s.calls[c]? = some call → Attended call
  regular : Regular engine.shaper s

theorem sound_step {a : Action} (h : Sound engine s) (hok : StoreWorks a)
    (hs : step engine s a = some (s', o)) : Sound engine s' := by
  refine ⟨fun hc => formed_calls h.formed hs hc, ?_, ?_⟩ <;>
    rcases step_cases hs with ⟨input, rfl, rfl, rfl⟩ |
      ⟨c, e, call, sh, call', rfl, hc, ht, rfl⟩ | ⟨_, _, _, _, _, ha⟩
  · intro c call hc
    rcases getElem?_concat_cases hc with ⟨_, rfl⟩ | hc
    · nofun
    · exact h.attended hc
  · intro c₁ call₁ hc₁
    rcases getElem?_set_cases hc₁ with ⟨_, rfl⟩ | ⟨_, hc₁⟩
    · exact attended_step hok ht (h.formed hc) (h.attended hc)
    · exact h.attended hc₁
  · rcases ha with ⟨rfl, _⟩ | ⟨rfl, _⟩ <;> exact absurd hok (by simp [StoreWorks])
  · refine ⟨h.regular.stored, fun hc hpc => ?_⟩
    rcases getElem?_concat_cases hc with ⟨_, rfl⟩ | hc
    · cases hpc
    · exact h.regular.carried hc hpc
  · exact regular_task h.regular hc ht
  · rcases ha with ⟨rfl, _⟩ | ⟨rfl, _⟩ <;> exact absurd hok (by simp [StoreWorks])

theorem balanced_step {a : Action} (hsound : Sound engine s)
    (h : ∀ house app, Balanced engine.shaper s os house app) (hok : StoreWorks a)
    (hs : step engine s a = some (s', o)) :
    (∀ house app, Balanced engine.shaper s' (os ++ o) house app) ↔ Spares s a := by
  rcases step_cases hs with ⟨input, rfl, rfl, rfl⟩ | ⟨c, e, call, sh, call', rfl, hc, ht, rfl⟩ |
    ⟨_, _, _, _, _, ha⟩
  · refine iff_of_true (fun house app => ?_) trivial
    have hnone : total heldAnswer (house, app) [⟨input, .resolveSurface, none, none⟩] = 0 := rfl
    have hnone' : total heldRest (house, app) [⟨input, .resolveSurface, none, none⟩] = 0 := rfl
    refine ⟨?_, ?_⟩
    · rw [List.append_nil, total_append, hnone, add_zero]
      exact (h house app).answers
    · rw [List.append_nil, total_append, hnone', add_zero]
      exact (h house app).rests
  · rw [task_balanced h hc, taskStep_kept hok ht (hsound.formed hc) (hsound.attended hc)
      fun _ _ hpc => chunks_ne_nil (hsound.regular.carried hc hpc)]
    simp [Spares, hc]
  · rcases ha with ⟨rfl, _⟩ | ⟨rfl, _⟩ <;> exact absurd hok (by simp [StoreWorks])

theorem sound_initial {store : Store}
    (hempty : ∀ house app, store.slots house app = Slots.empty) :
    Sound engine (initial store) := by
  refine ⟨by simp [initial], by simp [initial], fun hs => ?_, by simp [initial]⟩
  rw [show (initial store).shared.slots _ _ = Slots.empty from hempty _ _] at hs
  cases hs

end Runs

/-- In a run in which the store works, every surface hears or still has all it was
answered throughout, exactly when every step spares the texts. -/
theorem balanced_iff_spares (engine : HouseholdEngine) {store : Store}
    (hempty : ∀ house app, store.slots house app = Slots.empty) {as : List Action} {s : State}
    {os : List Obs} (hok : (machine engine).Along (fun _ a => StoreWorks a) (initial store) as)
    (h : (machine engine).exec (initial store) as = some (s, os)) :
    (machine engine).Always (fun s os => ∀ house app, Balanced engine.shaper s os house app)
        (initial store) [] as ↔
      (machine engine).Along Spares (initial store) as := by
  refine Machine.always_iff_along (J := fun s _ => Sound engine s)
    (fun hj hd hs => sound_step hj hd hs)
    (fun hj hi hd hs => balanced_step hj hi hd hs) (sound_initial hempty) ?_ hok h
  intro house app
  have hslots : (initial store).shared.slots house app = Slots.empty := hempty house app
  refine ⟨?_, ?_⟩ <;> rw [hslots] <;> rfl

/-- A request of surface `a` of house 1 that waits past its deadline; its answer
is stored by its watcher. -/
def lateAnswer : List Action :=
  [.arrive ⟨⟨['u'], ['a']⟩, ['?'], false⟩, .task 0 (.resolve (.bound 1)), .task 0 (.slot .ok),
    .task 0 (.slot .ok), .task 0 .lockEntry, .task 0 .tryLock, .task 0 .workBegin,
    .task 0 .deadline, .task 0 (.mark .ok), .task 0 .spawnWatcher, .task 0 (.turned (some ['!'])),
    .task 0 .watcherJoined, .task 0 (.watcherStore .ok)]

/-- A second request polls it, shapes it and speaks it. -/
def polledOnce : List Action :=
  lateAnswer ++ [.arrive ⟨⟨['u'], ['a']⟩, ['?'], false⟩, .task 1 (.resolve (.bound 1)),
    .task 1 (.slot .ok), .task 1 (.slot .ok), .task 1 (.slot .ok), .task 1 (.slot .ok)]

/-- Two requests poll it before either of them deletes it. -/
def polledTwice : List Action :=
  lateAnswer ++ [.arrive ⟨⟨['u'], ['a']⟩, ['?'], false⟩, .arrive ⟨⟨['u'], ['a']⟩, ['?'], false⟩,
    .task 1 (.resolve (.bound 1)), .task 2 (.resolve (.bound 1)), .task 1 (.slot .ok),
    .task 2 (.slot .ok), .task 1 (.slot .ok), .task 2 (.slot .ok), .task 1 (.slot .ok),
    .task 2 (.slot .ok), .task 1 (.slot .ok), .task 2 (.slot .ok)]

theorem balanced_iff_spares_once :
    (machine ⟨⟨850, by decide⟩, false⟩).Always
        (fun s os => ∀ house app, Balanced ⟨850, by decide⟩ s os house app)
        (initial (fixture 1 ⟨['Д'], some ['t'], ['h']⟩)) [] polledOnce := by
  have hrun : ((machine ⟨⟨850, by decide⟩, false⟩).exec
      (initial (fixture 1 ⟨['Д'], some ['t'], ['h']⟩)) polledOnce).isSome = true := by
    decide +kernel
  obtain ⟨⟨s, os⟩, hexec⟩ := Option.isSome_iff_exists.mp hrun
  exact (balanced_iff_spares ⟨⟨850, by decide⟩, false⟩ (fun _ _ => rfl) (by decide) hexec).mpr
    (by decide +kernel)

/-- Overlapping requests of one surface both speak one answer. -/
theorem ready_spoken_twice :
    ∃ s os, (machine ⟨⟨850, by decide⟩, false⟩).Along (fun _ a => StoreWorks a)
        (initial (fixture 1 ⟨['Д'], some ['t'], ['h']⟩)) polledTwice ∧
      (machine ⟨⟨850, by decide⟩, false⟩).exec (initial (fixture 1 ⟨['Д'], some ['t'], ['h']⟩))
        polledTwice = some (s, os) ∧
      total answered (1, ['a']) os = {['!']} ∧ total begun (1, ['a']) os = {['!'], ['!']} ∧
      ¬ Balanced ⟨850, by decide⟩ s os 1 ['a'] := by
  have hrun : ((machine ⟨⟨850, by decide⟩, false⟩).exec
      (initial (fixture 1 ⟨['Д'], some ['t'], ['h']⟩)) polledTwice).map (fun r =>
        (total answered (1, ['a']) r.2, total begun (1, ['a']) r.2)) =
      some ({['!']}, {['!'], ['!']}) := by
    decide +kernel
  obtain ⟨⟨s, os⟩, hexec, htotals⟩ := Option.map_eq_some_iff.mp hrun
  obtain ⟨hanswered, hbegun⟩ := Prod.mk.inj htotals
  refine ⟨s, os, by decide +kernel, hexec, hanswered, hbegun, fun hb => ?_⟩
  have hcards := congrArg Multiset.card hb.answers
  rw [hanswered, hbegun] at hcards
  simp at hcards

end AliceBridge.Core.HouseLedger
