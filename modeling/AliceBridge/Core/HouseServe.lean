import AliceBridge.Core.HouseSteps

/-! # One surface, one request at a time

A request that meets no other task of its surface, on the slots of the surface:
`serve` drives the request's own slot steps to its reply, with at most one store
operation failing without effect. `serveFrom_exec` shows that this is a run of
the machine. `following` is the sequence of requests that collect what is
stored, and `following_undelivered` that they speak exactly that.

A failed operation keeps the stored text except in two places
(`preserved_iff_keeps`): `take_continuation` has deleted the chunks when
`save_continuation` fails, and a failed `clear_pending` leaves a long ready text
behind its own continuation. -/
namespace AliceBridge.Core.HouseServe
open AliceBridge.Lib.Utf8 AliceBridge.Lib.Run AliceBridge.Core.Reply AliceBridge.Core.Household
open AliceBridge.Core.HouseEngine AliceBridge.Core.HouseSteps

/-- The store operations of a request up to the lock. -/
inductive SlotOp where
  | resolveSurface
  | takeContinuation
  | pollPending
  | saveContinuation
  | clearPending
deriving DecidableEq, Repr

/-- The operation a request is about to make. -/
def slotOp : Pc → Option SlotOp
  | .resolveSurface => some .resolveSurface
  | .takeContinuation _ => some .takeContinuation
  | .pollPending _ => some .pollPending
  | .saveBack _ _ | .shapeAndSave _ _ _ => some .saveContinuation
  | .clearReady _ _ => some .clearPending
  | _ => none

def outcomeOf (fault : Option SlotOp) (pc : Pc) : Outcome :=
  if fault.isSome && slotOp pc == fault then .err false else .ok

/-- A request from `pc` on, within `fuel` steps: its reply and the slots it leaves,
none when it goes on to the house lock. -/
def serveFrom (shaper : ReplyShaper) (input : HouseholdInput) (fault : Option SlotOp) :
    Nat → Pc → Slots → Option (HouseholdReply × Slots)
  | _, .replied reply, slots => some (reply, slots)
  | 0, _, _ => none
  | fuel + 1, pc, slots =>
    (slotStep shaper input slots pc (outcomeOf fault pc)).bind fun r =>
      serveFrom shaper input fault fuel r.1 r.2

/-- A whole request: no path makes more than four slot operations. -/
def serve (shaper : ReplyShaper) (house : HouseContext) (input : HouseholdInput)
    (fault : Option SlotOp) (slots : Slots) : Option (HouseholdReply × Slots) :=
  if fault = some .resolveSurface then some (.internalError, slots)
  else serveFrom shaper input fault 4 (.takeContinuation house) slots

section Serve

variable {shaper : ReplyShaper} {input : HouseholdInput} {fault : Option SlotOp}
  {house : HouseContext} {slots : Slots}

/-- `serveFrom` is a run of the machine: the events of the call alone take it to
its reply and its surface to the slots it leaves. -/
theorem serveFrom_exec (engine : HouseholdEngine) {c : CallId} {houseId : HouseId}
    {reply : HouseholdReply} {slots' : Slots} :
    ∀ {fuel : Nat} {s : State} {call : Call}, s.calls[c]? = some call →
      (call.pc.slotHouse = some houseId ∨ ∃ r, call.pc = .replied r) →
      serveFrom engine.shaper call.input fault fuel call.pc (s.shared.slots houseId call.app) =
        some (reply, slots') →
      ∃ acts s' os, (machine engine).exec s acts = some (s', os) ∧
        s'.calls[c]? = some { call with pc := .replied reply } ∧
        s'.shared.slots houseId call.app = slots'
  | fuel, s, call, hc, hpc, h => by
    have replied : ∀ r, call.pc = .replied r → ∃ acts s' os,
        (machine engine).exec s acts = some (s', os) ∧
        s'.calls[c]? = some { call with pc := .replied reply } ∧
        s'.shared.slots houseId call.app = slots' := by
      intro r hr
      simp only [hr, serveFrom, Option.some.injEq, Prod.mk.injEq] at h
      obtain ⟨rfl, rfl⟩ := h
      exact ⟨[], s, [], rfl, by rw [hc, ← hr], rfl⟩
    rcases hpc with hpc | ⟨r, hr⟩
    · cases fuel with
      | zero =>
        cases hp : call.pc <;> simp [hp, serveFrom, Pc.slotHouse] at h hpc
      | succ fuel =>
        have hstep : ∃ r, slotStep engine.shaper call.input (s.shared.slots houseId call.app)
            call.pc (outcomeOf fault call.pc) = some r ∧
            serveFrom engine.shaper call.input fault fuel r.1 r.2 = some (reply, slots') := by
          cases hp : call.pc <;> rw [hp] at h hpc <;> first
            | exact Option.bind_eq_some_iff.mp h
            | simp [Pc.slotHouse] at hpc
        obtain ⟨⟨pc', mid⟩, hs, hrest⟩ := hstep
        have hlt : c < s.calls.length := (List.getElem?_eq_some_iff.mp hc).1
        let s₁ : State :=
          { shared := s.shared.setSlots houseId call.app mid
            calls := s.calls.set c { call with pc := pc' } }
        have hc₁ : s₁.calls[c]? = some { call with pc := pc' } := by simp [s₁, hlt]
        have hslots : s₁.shared.slots houseId call.app = mid := by
          simp [s₁, Shared.slots, Shared.setSlots]
        have hfirst : (machine engine).step s (.task c (.slot (outcomeOf fault call.pc))) =
            some (s₁, .touched c houseId call.app ::
              (slotObs c call.app call.input (s.shared.slots houseId call.app) call.pc
                (outcomeOf fault call.pc) ++ replyObs c call.app houseId pc')) := by
          simp [machine, step, hc, taskStep, requestStep, hpc, hs, s₁]
        have hnext : pc'.slotHouse = some houseId ∨ ∃ r, pc' = .replied r := by
          rcases (slotStep_sound hs).house hpc with h | h | ⟨ctx, rfl, _⟩
          · exact .inl h
          · exact .inr h
          · cases fuel <;> simp [serveFrom, slotStep] at hrest
        obtain ⟨acts, s', os, he, hc', hslots'⟩ :=
          serveFrom_exec engine hc₁ hnext (hslots ▸ hrest)
        exact ⟨_, s', _, Machine.exec_cons_of hfirst he, hc', hslots'⟩
    · exact replied r hr

/-- So is `serve`, after the step that resolves the surface. -/
theorem serve_exec (engine : HouseholdEngine) {c : CallId} {s : State} {call : Call}
    {houseId : HouseId} {row : HouseRow} {reply : HouseholdReply} {slots' : Slots}
    (hc : s.calls[c]? = some call) (hpc : call.pc = .resolveSurface)
    (hrow : s.shared.store.houses houseId = some row)
    (h : serve engine.shaper (row.context houseId) call.input fault
      (s.shared.slots houseId call.app) = some (reply, slots')) :
    ∃ acts s' os, (machine engine).exec s acts = some (s', os) ∧
      s'.calls[c]? = some { call with pc := .replied reply } ∧
      s'.shared.slots houseId call.app = slots' := by
  have hlt : c < s.calls.length := (List.getElem?_eq_some_iff.mp hc).1
  by_cases hf : fault = some .resolveSurface
  · obtain ⟨rfl, rfl⟩ := by simpa [serve, hf] using h
    let s₁ : State :=
      { s with calls := s.calls.set c { call with pc := .replied .internalError } }
    have hfirst : (machine engine).step s (.task c (.resolve .failed)) =
        some (s₁, [.reply c call.app none .internalError]) := by
      simp [machine, step, hc, taskStep, requestStep, hpc, s₁]
    exact ⟨[.task c (.resolve .failed)], s₁, _, Machine.exec_cons_of hfirst rfl, by simp [s₁, hlt],
      rfl⟩
  · rw [serve, if_neg hf] at h
    let bound : Call := { call with pc := .takeContinuation (row.context houseId) }
    let s₁ : State := { s with calls := s.calls.set c bound }
    have hfirst : (machine engine).step s (.task c (.resolve (.bound houseId))) =
        some (s₁, []) := by
      simp [machine, step, hc, taskStep, requestStep, hpc, hrow, s₁, bound]
    obtain ⟨acts, s', os, he, hc', hslots⟩ :=
      @serveFrom_exec fault engine c houseId reply slots' 4 s₁ bound
        (by simp [s₁, hlt]) (.inl rfl) h
    exact ⟨_, s', _, Machine.exec_cons_of hfirst he, hc', hslots⟩

end Serve

/-! ## Collecting what is stored -/

/-- The text of a Ready reply. -/
def readyText : PendingReply → Option Text
  | .ready text => some text
  | _ => none

/-- The text stored for the surface and not spoken yet; the continuation has
precedence. -/
def undelivered (slots : Slots) : Text :=
  (slots.continuation.getD []).flatten ++ (readyText slots.pending).getD []

def hasStored (slots : Slots) : Bool :=
  slots.continuation.isSome || (readyText slots.pending).isSome

/-- An utterance that is neither blank nor a refusal. -/
def Continuing (input : HouseholdInput) : Prop :=
  ContinuationDecision.fromUtterance input.utterance = .goOn

instance (input : HouseholdInput) : Decidable (Continuing input) :=
  inferInstanceAs (Decidable (_ = _))

/-- The requests of the surface one after the other, while something is stored
for it: each reply with the slots it leaves. -/
def following (shaper : ReplyShaper) (house : HouseContext) :
    List HouseholdInput → Slots → List (HouseholdReply × Slots)
  | [], _ => []
  | input :: inputs, slots =>
    if hasStored slots then
      match serve shaper house input none slots with
      | some served => served :: following shaper house inputs served.2
      | none => []
    else []

/-- What a reply says of an answer: its text without the question that is added
when chunks remain. -/
def heard : HouseholdReply × Slots → Text
  | (.say spoken, slots) => ShapedReply.content ⟨spoken, slots.continuation.getD []⟩
  | _ => []

/-- The slots after the replies. -/
def leaves (slots : Slots) (replies : List (HouseholdReply × Slots)) : Slots :=
  (replies.getLast?.map Prod.snd).getD slots

/-- A bound on the requests that collect all that is stored. -/
def backlog (slots : Slots) : Nat :=
  (slots.continuation.elim 0 fun chunks => chunks.flatten.length + 1) +
    (readyText slots.pending).elim 0 fun text => text.length + 2

section Collect

variable {shaper : ReplyShaper} {house : HouseContext} {input : HouseholdInput} {slots : Slots}

theorem leaves_cons (served : HouseholdReply × Slots) (replies : List (HouseholdReply × Slots)) :
    leaves slots (served :: replies) = leaves served.2 replies := by
  cases replies <;> simp [leaves, List.getLast?_cons]

@[simp] theorem saveContinuation_getD (chunks : List Text) :
    (slots.saveContinuation chunks).continuation.getD [] = chunks := by
  rw [Slots.saveContinuation_continuation]
  cases chunks <;> rfl

theorem serve_continuation {chunks : List Text} (h : slots.continuation = some chunks)
    (hc : Continuing input) :
    serve shaper house input none slots =
      some (.say (shaper.split chunks.flatten).spoken,
        slots.clearContinuation.saveContinuation (shaper.split chunks.flatten).remaining) := by
  have hc : ContinuationDecision.fromUtterance input.utterance = .goOn := hc
  simp [serve, serveFrom, slotStep, outcomeOf, answerContinuation, h, hc]

theorem serve_ready {text : Text} (h : slots.continuation = none)
    (hp : slots.pending = .ready text) :
    serve shaper house input none slots =
      some (.say (shaper.split text).spoken,
        (slots.saveContinuation (shaper.split text).remaining).clearPending) := by
  simp [serve, serveFrom, slotStep, outcomeOf, h, hp]

theorem heard_append (text : Text) {slots' : Slots}
    (h : slots'.continuation.getD [] = (shaper.split text).remaining) :
    heard (.say (shaper.split text).spoken, slots') ++ (slots'.continuation.getD []).flatten =
      text := by
  have := shaper.split_content text
  rwa [heard, h]

/-- The rest of a text is a smaller backlog than the text. -/
theorem backlog_remaining (shaper : ReplyShaper) (text : Text) (slots : Slots) :
    ((slots.saveContinuation (shaper.split text).remaining).continuation.elim 0
      fun chunks => chunks.flatten.length + 1) < text.length + 1 := by
  rw [Slots.saveContinuation_continuation]
  rcases shaper.split_cases text with ⟨_, h⟩ | ⟨_, chunk, remaining, h, hne, hchunk, _, hflat, _⟩
  · simp [h]
  · have hlen : chunk.length + remaining.flatten.length = text.length := by
      rw [← List.length_append, hflat]
    have := List.length_pos_iff.mpr hchunk
    simp only [h, List.isEmpty_iff, hne, if_false, Option.elim_some]
    omega

/-- One continuing request speaks a first part of what is stored and leaves the
rest stored. -/
theorem serve_collects (shaper : ReplyShaper) (house : HouseContext)
    (hstored : hasStored slots = true) (hc : Continuing input) :
    ∃ spoken slots', serve shaper house input none slots = some (.say spoken, slots') ∧
      heard (.say spoken, slots') ++ undelivered slots' = undelivered slots ∧
      backlog slots' < backlog slots := by
  cases hcont : slots.continuation with
  | some chunks =>
    refine ⟨_, _, serve_continuation hcont hc, ?_, ?_⟩
    · rw [undelivered, ← List.append_assoc, heard_append chunks.flatten (by simp)]
      simp [undelivered, hcont, Slots.clearContinuation]
    · have := backlog_remaining shaper chunks.flatten slots.clearContinuation
      simp only [backlog, hcont, Slots.saveContinuation_pending, Option.elim_some]
      simp only [Slots.clearContinuation] at this ⊢
      omega
  | none =>
    cases hp : slots.pending with
    | ready text =>
      refine ⟨_, _, serve_ready hcont hp, ?_, ?_⟩
      · rw [undelivered, ← List.append_assoc,
          heard_append text (by simp [Slots.clearPending])]
        simp [undelivered, hcont, hp, Slots.clearPending, readyText]
      · have := backlog_remaining shaper text slots
        simp only [backlog, hcont, hp, Slots.clearPending, readyText, Option.elim_none,
          Option.elim_some]
        omega
    | none => simp [hasStored, hcont, hp, readyText] at hstored
    | thinking => simp [hasStored, hcont, hp, readyText] at hstored

theorem backlog_eq_zero (h : hasStored slots = false) : undelivered slots = [] := by
  simp only [hasStored, Bool.or_eq_false_iff, Option.isSome_eq_false_iff,
    Option.isNone_iff_eq_none] at h
  simp [undelivered, h.1, h.2]

theorem hasStored_of_backlog (h : hasStored slots = true) : 0 < backlog slots := by
  simp only [hasStored, Bool.or_eq_true, Option.isSome_iff_exists] at h
  rcases h with ⟨chunks, h⟩ | ⟨text, h⟩ <;> simp only [backlog, h, Option.elim_some] <;> omega

/-- What the requests of the surface say and what they leave is what was stored;
enough of them leave nothing. -/
theorem following_spec (shaper : ReplyShaper) (house : HouseContext) :
    ∀ {inputs : List HouseholdInput} (slots : Slots), (∀ input ∈ inputs, Continuing input) →
    let replies := following shaper house inputs slots
    (replies.map heard).flatten ++ undelivered (leaves slots replies) = undelivered slots ∧
      (backlog slots ≤ inputs.length → hasStored (leaves slots replies) = false)
  | [], slots, _ => by
    refine ⟨rfl, fun h => ?_⟩
    cases hs : hasStored slots with
    | false => simpa [following, leaves] using hs
    | true =>
      have := hasStored_of_backlog hs
      simp only [List.length_nil] at h
      omega
  | input :: inputs, slots, hall => by
    cases hs : hasStored slots with
    | false => simp [following, leaves, hs]
    | true =>
      obtain ⟨spoken, slots', hserve, hsplit, hless⟩ :=
        serve_collects shaper house hs (hall input (by simp))
      obtain ⟨hflat, hend⟩ := following_spec shaper house slots'
        fun i hi => hall i (List.mem_cons_of_mem _ hi)
      simp only [following, hs, hserve, if_true, leaves_cons, List.map_cons, List.flatten_cons]
      refine ⟨by rw [List.append_assoc, hflat, hsplit], fun hlen => hend ?_⟩
      rw [List.length_cons] at hlen
      omega

theorem following_undelivered {inputs : List HouseholdInput}
    (hall : ∀ input ∈ inputs, Continuing input) (hlen : backlog slots ≤ inputs.length) :
    ((following shaper house inputs slots).map heard).flatten = undelivered slots := by
  obtain ⟨hflat, hend⟩ := following_spec shaper house slots hall
  rw [backlog_eq_zero (hend hlen), List.append_nil] at hflat
  exact hflat

end Collect

/-! ## One failed operation -/

/-- When the request fails, all that was stored still is, and the next requests
speak exactly that. -/
def Preserved (shaper : ReplyShaper) (house : HouseContext) (input : HouseholdInput) (op : SlotOp)
    (slots : Slots) : Prop :=
  ∀ slots', serve shaper house input (some op) slots = some (.internalError, slots') →
    undelivered slots' = undelivered slots ∧
    ∀ inputs : List HouseholdInput, (∀ i ∈ inputs, Continuing i) →
      backlog slots' ≤ inputs.length →
      ((following shaper house inputs slots').map heard).flatten = undelivered slots

/-- The failing operation is not a `save_continuation` that should write chunks
back, nor the `clear_pending` after the first part of a long ready text. -/
def Keeps (shaper : ReplyShaper) (input : HouseholdInput) (op : SlotOp) (slots : Slots) : Prop :=
  (op = .saveContinuation → ∀ chunks, slots.continuation = some chunks →
    ContinuationDecision.fromUtterance input.utterance = .stop ∨ chunks.flatten = []) ∧
  (op = .clearPending → slots.continuation = none → ∀ text, slots.pending = .ready text →
    text.length ≤ shaper.contentLimit)

section Fault

variable {shaper : ReplyShaper} {house : HouseContext} {input : HouseholdInput} {op : SlotOp}
  {slots slots' : Slots}

/-- All that a request with one failing operation can leave behind an error: the
slots as they were, or one of two half done deliveries. -/
theorem serve_failed
    (h : serve shaper house input (some op) slots = some (.internalError, slots')) :
    slots' = slots ∨
    (op = .saveContinuation ∧ slots' = slots.clearContinuation ∧
      ∃ chunks, slots.continuation = some chunks ∧
        ContinuationDecision.fromUtterance input.utterance ≠ .stop) ∨
    (op = .clearPending ∧ slots.continuation = none ∧ ∃ text, slots.pending = .ready text ∧
      slots' = slots.saveContinuation (shaper.split text).remaining) := by
  cases hcont : slots.continuation with
  | some chunks =>
    cases hd : ContinuationDecision.fromUtterance input.utterance <;> cases op <;>
      simp_all [serve, serveFrom, slotStep, slotOp, outcomeOf, answerContinuation]
  | none =>
    cases hp : slots.pending with
    | ready text =>
      cases op <;> simp_all [serve, serveFrom, slotStep, slotOp, outcomeOf]
    | _ =>
      cases op <;> simp_all [serve, serveFrom, slotStep, slotOp, outcomeOf, afterPoll]
      all_goals split at h <;> simp_all [serveFrom, slotStep]

theorem serve_saveFails {chunks : List Text} (hc : slots.continuation = some chunks)
    (hd : ContinuationDecision.fromUtterance input.utterance ≠ .stop) :
    serve shaper house input (some .saveContinuation) slots =
      some (.internalError, slots.clearContinuation) := by
  cases h : ContinuationDecision.fromUtterance input.utterance with
  | stop => exact absurd h hd
  | _ => simp [serve, serveFrom, slotStep, slotOp, outcomeOf, answerContinuation, hc, h]

theorem serve_clearFails {text : Text} (hc : slots.continuation = none)
    (hp : slots.pending = .ready text) :
    serve shaper house input (some .clearPending) slots =
      some (.internalError, slots.saveContinuation (shaper.split text).remaining) := by
  simp [serve, serveFrom, slotStep, slotOp, outcomeOf, hc, hp]

/-- A failed operation keeps the stored text for the next requests exactly
outside the two half done deliveries. -/
theorem preserved_iff_keeps (shaper : ReplyShaper) (house : HouseContext) (input : HouseholdInput)
    (op : SlotOp) (slots : Slots) :
    Preserved shaper house input op slots ↔ Keeps shaper input op slots := by
  constructor
  · intro h
    constructor
    · rintro rfl chunks hc
      by_cases hd : ContinuationDecision.fromUtterance input.utterance = .stop
      · exact .inl hd
      · have hsame := (h _ (serve_saveFails hc hd)).1
        exact .inr (by simpa [undelivered, Slots.clearContinuation, hc] using hsame)
    · rintro rfl hc text hp
      have hsame := (h _ (serve_clearFails hc hp)).1
      rcases shaper.split_cases text with ⟨hshort, _⟩ | ⟨_, chunk, rest, hs, hne, _, hle, hflat, _⟩
      · exact hshort
      · -- the rest stands before the whole text, which is still Ready
        have hrest : rest.flatten = [] := by
          simpa [undelivered, hs, hc, hp, readyText] using hsame
        rw [← hflat, hrest, List.append_nil]
        exact hle
  · intro h slots' hserve
    have hsame : undelivered slots' = undelivered slots := by
      rcases serve_failed hserve with rfl | ⟨hop, rfl, chunks, hc, hd⟩ |
        ⟨hop, hc, text, hp, rfl⟩
      · rfl
      · have hempty := (h.1 hop chunks hc).resolve_left hd
        simp [undelivered, Slots.clearContinuation, hc, hempty]
      · have hshort := h.2 hop hc text hp
        rcases shaper.split_cases text with ⟨_, hs⟩ | ⟨hlong, _⟩
        · simp [undelivered, hs, hc]
        · omega
    exact ⟨hsame, fun inputs hall hlen => hsame ▸ following_undelivered hall hlen⟩

/-- `save_continuation` fails after `take_continuation` has deleted the chunks. -/
theorem preserved_fails :
    ¬ Preserved ⟨850, by decide⟩ ⟨1, ['Д', 'о', 'м'], some ['t'], ['h']⟩
      ⟨⟨['u'], ['a']⟩, ['д', 'а'], false⟩ .saveContinuation
      ⟨.none, some [['К', 'о', 'н', 'е', 'ц', '.']]⟩ := by
  intro h
  have hsame := (h _ (serve_saveFails rfl (by decide))).1
  revert hsame
  decide

end Fault

end AliceBridge.Core.HouseServe
