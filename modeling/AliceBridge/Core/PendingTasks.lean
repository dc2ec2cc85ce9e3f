import AliceBridge.Core.Pending
import AliceBridge.Lib.Linearizable

/-! # Tasks on the map of deferred answers

Any number of tasks call the operations of `pending.rs`, a step for each access to the
map and for each reading of the clock. `poll` reads an entry and later removes whatever
is there by then. Compared with the object whose operations take effect at once, which
are those of `Core.Pending`. -/
namespace AliceBridge.Core.PendingTasks
open AliceBridge.Lib AliceBridge.Lib.Utf8 AliceBridge.Lib.Run AliceBridge.Core.Pending

inductive Op where
  | poll (key : Text)
  | markThinking (key : Text)
  | complete (key text : Text)
  | clear (key : Text)
deriving DecidableEq, Repr

inductive Result where
  | unit
  | polled (poll : Poll)
deriving DecidableEq, Repr

/-- The operations at once. A mark has the instant its call read, a poll the clock. -/
def pendingObject : Object PendingAnswers Op Result where
  apply
    | .poll key, _, now, pending => ((.polled (pending.poll key now).1), (pending.poll key now).2)
    | .markThinking key, read, _, pending => (.unit, pending.markThinking key read)
    | .complete key text, _, _, pending => (.unit, pending.complete key text)
    | .clear key, _, _, pending => (.unit, pending.clear key)

/-- Where a task is in its operation. -/
inductive Task where
  | idle
  | called (op : Op)
  | marking (key : Text) (since : Nat)
  | read (key : Text) (entry : PendingState)
  | expiring (key : Text)
  | returning (result : Result)
  | finished
deriving DecidableEq, Repr

/-- An entry that a poll has removed, and what that poll returns. -/
structure Removal where
  entry : PendingState
  result : Poll
  now : Nat
deriving DecidableEq, Repr

structure State where
  pending : PendingAnswers
  now : Nat
  task : Nat → Task
  /-- The history of removals. -/
  removals : List Removal

inductive Act where
  | advance (d : Nat)
  | start (task : Nat) (op : Op)
  | step (task : Nat)
deriving DecidableEq, Repr

def setTask (task : Nat → Task) (i : Nat) (next : Task) : Nat → Task :=
  fun j => if j = i then next else task j

def State.become (s : State) (i : Nat) (next : Task) : State :=
  { s with task := setTask s.task i next }

/-- `inner.remove(key)` in a poll that returns `result`. -/
def State.remove (s : State) (i : Nat) (key : Text) (result : Poll) : State :=
  { s with
    pending := s.pending.clear key
    task := setTask s.task i (.returning (.polled result))
    removals := s.removals ++ ((s.pending key).map fun entry => ⟨entry, result, s.now⟩).toList }

/-- What a poll that has seen a ready answer returns, from what it removes. -/
def removed : Option PendingState → Poll
  | some (.ready text) => .answer text
  | _ => .none

/-- The next step of a task in its operation; no result when there is none. -/
def stepTask (s : State) (i : Nat) : Option (State × List (Seen Op Result)) :=
  match s.task i with
  | .idle | .finished => none
  | .called (.markThinking key) => some (s.become i (.marking key s.now), [])
  | .marking key since =>
    some ({ s with pending := s.pending.markThinking key since }.become i (.returning .unit), [])
  | .called (.complete key text) =>
    some ({ s with pending := s.pending.complete key text }.become i (.returning .unit), [])
  | .called (.clear key) =>
    some ({ s with pending := s.pending.clear key }.become i (.returning .unit), [])
  | .called (.poll key) =>
    match s.pending key with
    | some entry => some (s.become i (.read key entry), [])
    | none => some (s.become i (.returning (.polled .none)), [])
  | .read key (.ready _) => some (s.remove i key (removed (s.pending key)), [])
  | .read key (.thinking since) =>
    if s.now - since > thinkingTtl then some (s.become i (.expiring key), [])
    else some (s.become i (.returning (.polled .stillThinking)), [])
  | .expiring key => some (s.remove i key .none, [])
  | .returning result => some (s.become i .finished, [.finish i result])

def step (s : State) : Act → Option (State × List (Seen Op Result))
  | .advance d => some ({ s with now := s.now + d }, [.advance d])
  | .start i op =>
    match s.task i with
    | .idle => some (s.become i (.called op), [.start i op])
    | _ => none
  | .step i => stepTask s i

def tasks : Machine State Act (Seen Op Result) := ⟨step⟩

/-- Any map and clock, and no operation has started. -/
def initial (pending : PendingAnswers) (now : Nat) : State := ⟨pending, now, fun _ => .idle, []⟩

/-- A mark older than `THINKING_TTL`. -/
def stale (now : Nat) : PendingState → Bool
  | .thinking since => decide (now - since > thinkingTtl)
  | .ready _ => false

def isReady : PendingState → Bool
  | .thinking _ => false
  | .ready _ => true

/-- A removal that loses nothing: of a stale mark, or of the answer that is returned. -/
def Removal.lossless (r : Removal) : Bool :=
  match r.entry with
  | .thinking since => stale r.now (.thinking since)
  | .ready text => decide (r.result = .answer text)

/-- A poll about to remove an entry finds none but a stale mark, or a ready answer if it
was one that it has read. -/
def harmless (s : State) : Act → Bool
  | .step i =>
    match s.task i with
    | .read key (.ready _) => (s.pending key).all fun entry => isReady entry || stale s.now entry
    | .expiring key => (s.pending key).all (stale s.now)
    | _ => true
  | _ => true

/-! ## The step of a task -/

/-- What a task does next in its operation. -/
inductive TaskStep (s : State) (i : Nat) : State → List (Seen Op Result) → Prop
  | marks {key : Text} : s.task i = .called (.markThinking key) →
      TaskStep s i (s.become i (.marking key s.now)) []
  | marked {key : Text} {since : Nat} : s.task i = .marking key since →
      TaskStep s i ({ s with pending := s.pending.markThinking key since }.become i
        (.returning .unit)) []
  | completes {key text : Text} : s.task i = .called (.complete key text) →
      TaskStep s i ({ s with pending := s.pending.complete key text }.become i
        (.returning .unit)) []
  | clears {key : Text} : s.task i = .called (.clear key) →
      TaskStep s i ({ s with pending := s.pending.clear key }.become i (.returning .unit)) []
  | absent {key : Text} : s.task i = .called (.poll key) → s.pending key = none →
      TaskStep s i (s.become i (.returning (.polled .none))) []
  | looks {key : Text} {entry : PendingState} : s.task i = .called (.poll key) →
      s.pending key = some entry → TaskStep s i (s.become i (.read key entry)) []
  | decides {key : Text} {mark : Nat} {next : Task} : s.task i = .read key (.thinking mark) →
      next = (if stale s.now (.thinking mark) then .expiring key
        else .returning (.polled .stillThinking)) → TaskStep s i (s.become i next) []
  | takes {key text : Text} : s.task i = .read key (.ready text) →
      TaskStep s i (s.remove i key (removed (s.pending key))) []
  | expires {key : Text} : s.task i = .expiring key → TaskStep s i (s.remove i key .none) []
  | returns {result : Result} : s.task i = .returning result →
      TaskStep s i (s.become i .finished) [.finish i result]

theorem stepTask_cases {s s' : State} {i : Nat} {seen : List (Seen Op Result)}
    (h : stepTask s i = some (s', seen)) : TaskStep s i s' seen := by
  unfold stepTask at h
  split at h
  next => cases h
  next => cases h
  next htask =>
    obtain ⟨rfl, rfl⟩ := Prod.mk.inj (Option.some.inj h)
    exact .marks htask
  next htask =>
    obtain ⟨rfl, rfl⟩ := Prod.mk.inj (Option.some.inj h)
    exact .marked htask
  next htask =>
    obtain ⟨rfl, rfl⟩ := Prod.mk.inj (Option.some.inj h)
    exact .completes htask
  next htask =>
    obtain ⟨rfl, rfl⟩ := Prod.mk.inj (Option.some.inj h)
    exact .clears htask
  next htask =>
    split at h
    next hentry =>
      obtain ⟨rfl, rfl⟩ := Prod.mk.inj (Option.some.inj h)
      exact .looks htask hentry
    next hentry =>
      obtain ⟨rfl, rfl⟩ := Prod.mk.inj (Option.some.inj h)
      exact .absent htask hentry
  next htask =>
    obtain ⟨rfl, rfl⟩ := Prod.mk.inj (Option.some.inj h)
    exact .takes htask
  next htask =>
    split at h
    next hstale =>
      obtain ⟨rfl, rfl⟩ := Prod.mk.inj (Option.some.inj h)
      exact .decides htask (if_pos (decide_eq_true hstale)).symm
    next hfresh =>
      obtain ⟨rfl, rfl⟩ := Prod.mk.inj (Option.some.inj h)
      refine .decides htask (if_neg ?_).symm
      simpa [stale] using hfresh
  next htask =>
    obtain ⟨rfl, rfl⟩ := Prod.mk.inj (Option.some.inj h)
    exact .expires htask
  next htask =>
    obtain ⟨rfl, rfl⟩ := Prod.mk.inj (Option.some.inj h)
    exact .returns htask

/-! ## The atomic object follows -/

/-- The phase of a call while its task is here. A poll that has read a fresh mark may or may
not have taken effect already, which depends on the clock it will read: `early` is either
choice. -/
inductive Follows (now : Nat) (early : Bool) : Task → Object.Phase Op Result → Prop
  | idle : Follows now early .idle .idle
  | called {op : Op} {since : Nat} : since ≤ now →
      Follows now early (.called op) (.started op since)
  | marking {key : Text} {since read : Nat} : since ≤ read → read ≤ now →
      Follows now early (.marking key read) (.started (.markThinking key) since)
  | decided {key : Text} {mark : Nat} : early = true →
      Follows now early (.read key (.thinking mark)) (.applied (.polled .stillThinking))
  | undecided {key : Text} {mark since : Nat} : since ≤ now →
      early = false ∨ stale now (.thinking mark) = true →
      Follows now early (.read key (.thinking mark)) (.started (.poll key) since)
  | ready {key text : Text} {since : Nat} : since ≤ now →
      Follows now early (.read key (.ready text)) (.started (.poll key) since)
  | expiring {key : Text} {since : Nat} : since ≤ now →
      Follows now early (.expiring key) (.started (.poll key) since)
  | returning {result : Result} : Follows now early (.returning result) (.applied result)
  | finished : Follows now early .finished .finished

structure Matches (early : Nat → Bool) (s : State) (t : Object.Atomic PendingAnswers Op Result) :
    Prop where
  object : t.object = s.pending
  now : t.now = s.now
  task : ∀ i, Follows s.now (early i) (s.task i) (t.phase i)

section Following

variable {early : Nat → Bool} {s s' : State} {t : Object.Atomic PendingAnswers Op Result}
  {history seen : List (Seen Op Result)} {i : Nat} {key : Text}

theorem stale_later {now d : Nat} {entry : PendingState} (h : stale now entry = true) :
    stale (now + d) entry = true := by
  cases entry with
  | thinking since =>
    simp only [stale, decide_eq_true_eq] at h ⊢
    omega
  | ready text => exact h

theorem Follows.later {now d : Nat} {early : Bool} {task : Task} {phase : Object.Phase Op Result}
    (h : Follows now early task phase) : Follows (now + d) early task phase := by
  have hle {n : Nat} (hn : n ≤ now) : n ≤ now + d := Nat.le_add_right_of_le hn
  cases h with
  | idle => exact .idle
  | called hsince => exact .called (hle hsince)
  | marking hsince hread => exact .marking hsince (hle hread)
  | decided hearly => exact .decided hearly
  | undecided hsince hearly => exact .undecided (hle hsince) (hearly.imp_right stale_later)
  | ready hsince => exact .ready (hle hsince)
  | expiring hsince => exact .expiring (hle hsince)
  | returning => exact .returning
  | finished => exact .finished

/-- One task and its call move, with the same map on both sides. -/
theorem Matches.move (h : Matches early s t) {object pending : PendingAnswers} {next : Task}
    {phase : Object.Phase Op Result} {removals : List Removal} (hobject : object = pending)
    (hi : Follows s.now (early i) next phase) :
    Matches early ⟨pending, s.now, setTask s.task i next, removals⟩
      ⟨object, t.now, Object.setPhase t.phase i phase⟩ where
  object := hobject
  now := h.now
  task j := by
    by_cases hj : j = i
    · subst hj
      simpa only [setTask, Object.setPhase, if_true] using hi
    · simpa only [setTask, Object.setPhase, if_neg hj] using h.task j

/-- The task moves alone. -/
theorem Matches.become {early₀ : Nat → Bool} (h : Matches early₀ s t)
    (hother : ∀ j, j ≠ i → early₀ j = early j) {next : Task}
    (hi : Follows s.now (early i) next (t.phase i)) : Matches early (s.become i next) t where
  object := h.object
  now := h.now
  task j := by
    by_cases hj : j = i
    · subst hj
      simpa only [State.become, setTask, if_true] using hi
    · have hkept := h.task j
      rw [hother j hj] at hkept
      simpa only [State.become, setTask, if_neg hj] using hkept

/-- However the open choices are made, the atomic object can have this history and match. -/
def Possible (init : Object.Atomic PendingAnswers Op Result) (s : State)
    (history : List (Seen Op Result)) : Prop :=
  ∀ early, ∃ t, pendingObject.Reaches init t history ∧ Matches early s t

variable {init : Object.Atomic PendingAnswers Op Result}

/-- A call takes effect with the step of its task. -/
theorem Matches.take (ht : pendingObject.Reaches init t history) (h : Matches early s t) {op : Op}
    {since read : Nat} {next : Task} {removals : List Removal} {result : Result}
    {pending : PendingAnswers}
    (happly : pendingObject.apply op read s.now s.pending = (result, pending))
    (hphase : t.phase i = .started op since) (hsince : since ≤ read) (hread : read ≤ s.now)
    (hnext : Follows s.now (early i) next (.applied result)) :
    ∃ t', pendingObject.Reaches init t' history ∧
      Matches early ⟨pending, s.now, setTask s.task i next, removals⟩ t' := by
  have htaken := ht.take hphase hsince (h.now ▸ hread)
  rw [h.object, h.now, happly] at htaken
  have hmoved : Matches early ⟨pending, s.now, setTask s.task i next, removals⟩
      ⟨pending, t.now, Object.setPhase t.phase i (.applied result)⟩ :=
    h.move rfl hnext
  rw [h.now] at hmoved
  exact ⟨_, htaken, hmoved⟩

theorem Possible.take (h : Possible init s history) {op : Op} {read : Nat} {next : Task}
    {removals : List Removal} {result : Result} {pending : PendingAnswers}
    (happly : pendingObject.apply op read s.now s.pending = (result, pending))
    (hphase : ∀ {early phase}, Follows s.now early (s.task i) phase →
      ∃ since, phase = .started op since ∧ since ≤ read)
    (hread : read ≤ s.now) (hnext : ∀ early, Follows s.now early next (.applied result)) :
    Possible init ⟨pending, s.now, setTask s.task i next, removals⟩ history := by
  intro early
  obtain ⟨t, ht, hmatch⟩ := h early
  obtain ⟨since, hstarted, hsince⟩ := hphase (hmatch.task i)
  exact hmatch.take ht happly hstarted hsince hread (hnext _)

/-- The task moves alone, whether or not its call has taken effect. -/
theorem Possible.become (h : Possible init s history) {next : Task}
    (hnext : ∀ {early phase}, Follows s.now early (s.task i) phase →
      Follows s.now early next phase) : Possible init (s.become i next) history := by
  intro early
  obtain ⟨t, ht, hmatch⟩ := h early
  exact ⟨t, ht, hmatch.become (fun _ _ => rfl) (hnext (hmatch.task i))⟩

theorem called_phase {op : Op} (htask : s.task i = .called op) {early : Bool}
    {phase : Object.Phase Op Result} (h : Follows s.now early (s.task i) phase) :
    ∃ since, phase = .started op since ∧ since ≤ s.now := by
  rw [htask] at h
  cases h with
  | called hsince => exact ⟨_, rfl, hsince⟩

theorem apply_poll {now read : Nat} {pending pending' : PendingAnswers} {poll : Poll}
    (h : pending.poll key now = (poll, pending')) :
    pendingObject.apply (.poll key) read now pending = (.polled poll, pending') := by
  show (Result.polled (pending.poll key now).1, (pending.poll key now).2) = _
  rw [h]

/-- A poll that has not taken effect removes what it finds. -/
theorem Possible.remove (h : Possible init s history) {poll : Poll}
    (hphase : ∀ {early phase}, Follows s.now early (s.task i) phase →
      ∃ since, phase = .started (.poll key) since ∧ since ≤ s.now)
    (hpoll : s.pending.poll key s.now = (poll, s.pending.clear key)) :
    Possible init (s.remove i key poll) history :=
  h.take (apply_poll hpoll) hphase (Nat.le_refl _) fun _ => .returning

section Polls

variable {pending : PendingAnswers} {mark now : Nat}

theorem poll_absent (h : pending key = none) :
    pending.poll key now = (.none, pending.clear key) := by
  have hclear : pending.clear key = pending := by
    funext other
    by_cases hother : other = key
    · rw [hother, clear_self, h]
    · exact set_other _ _ _ hother
  simp only [PendingAnswers.poll, h, hclear]

theorem poll_stale (h : pending key = some (.thinking mark))
    (hstale : stale now (.thinking mark) = true) :
    pending.poll key now = (.none, pending.clear key) := by
  simp only [stale, decide_eq_true_eq] at hstale
  simp only [PendingAnswers.poll, h, if_pos hstale]

theorem poll_fresh (h : pending key = some (.thinking mark))
    (hfresh : stale now (.thinking mark) = false) :
    pending.poll key now = (.stillThinking, pending) := by
  simp only [stale, decide_eq_false_iff_not] at hfresh
  simp only [PendingAnswers.poll, h, if_neg hfresh]

end Polls

/-- The lookup of a poll. A fresh mark is reported at once if the poll will report it. -/
theorem Possible.lookup (h : Possible init s history) (htask : s.task i = .called (.poll key))
    {entry : PendingState} (hentry : s.pending key = some entry) :
    Possible init (s.become i (.read key entry)) history := by
  intro early
  obtain ⟨t, ht, hmatch⟩ := h early
  obtain ⟨since, hphase, hsince⟩ := called_phase htask (hmatch.task i)
  cases entry with
  | ready text =>
    refine ⟨t, ht, hmatch.become (fun _ _ => rfl) ?_⟩
    rw [hphase]
    exact .ready hsince
  | thinking mark =>
    by_cases hopen : early i = false ∨ stale s.now (.thinking mark) = true
    · refine ⟨t, ht, hmatch.become (fun _ _ => rfl) ?_⟩
      rw [hphase]
      exact .undecided hsince hopen
    · rw [not_or, Bool.not_eq_false, Bool.not_eq_true] at hopen
      exact hmatch.take ht (apply_poll (poll_fresh hentry hopen.2)) hphase hsince (Nat.le_refl _)
        (.decided hopen.1)

/-- The clock tells a poll that the mark it has read is fresh, or is not. -/
theorem Possible.decide (h : Possible init s history) {mark : Nat} {next : Task}
    (htask : s.task i = .read key (.thinking mark))
    (hnext : next = if stale s.now (.thinking mark) then .expiring key
      else .returning (.polled .stillThinking)) : Possible init (s.become i next) history := by
  intro early
  cases hstale : stale s.now (.thinking mark) with
  | true =>
    obtain ⟨t, ht, hmatch⟩ := h (Function.update early i false)
    refine ⟨t, ht, hmatch.become (fun j hj => Function.update_of_ne hj ..) ?_⟩
    have hi := hmatch.task i
    rw [htask, Function.update_self] at hi
    rw [hnext, hstale, if_pos rfl]
    generalize t.phase i = phase at hi ⊢
    cases hi with
    | decided hearly => cases hearly
    | undecided hsince _ => exact .expiring hsince
  | false =>
    obtain ⟨t, ht, hmatch⟩ := h (Function.update early i true)
    refine ⟨t, ht, hmatch.become (fun j hj => Function.update_of_ne hj ..) ?_⟩
    have hi := hmatch.task i
    rw [htask, Function.update_self] at hi
    rw [hnext, hstale, if_neg Bool.false_ne_true]
    generalize t.phase i = phase at hi ⊢
    cases hi with
    | decided _ => exact .returning
    | undecided _ hearly => simp [hstale] at hearly

theorem poll_taken {key text : Text} (htask : s.task i = .read key (.ready text))
    (hharmless : harmless s (.step i) = true) :
    s.pending.poll key s.now = (removed (s.pending key), s.pending.clear key) := by
  simp only [harmless, htask] at hharmless
  cases hentry : s.pending key with
  | none => exact poll_absent hentry
  | some found =>
    cases found with
    | ready text => simp only [PendingAnswers.poll, hentry, removed]
    | thinking mark =>
      simp only [hentry, Option.all_some, isReady, Bool.false_or] at hharmless
      exact poll_stale hentry hharmless

theorem poll_expired (htask : s.task i = .expiring key) (hharmless : harmless s (.step i) = true) :
    s.pending.poll key s.now = (.none, s.pending.clear key) := by
  simp only [harmless, htask] at hharmless
  cases hentry : s.pending key with
  | none => exact poll_absent hentry
  | some found =>
    rw [hentry] at hharmless
    cases found with
    | ready text => cases hharmless
    | thinking mark => exact poll_stale hentry hharmless

/-- A task in its operation takes a step. -/
theorem Possible.task (h : Possible init s history) (hharmless : harmless s (.step i) = true)
    (hstep : TaskStep s i s' seen) : Possible init s' (history ++ seen) := by
  cases hstep with
  | marks htask =>
    rw [List.append_nil]
    refine h.become fun hf => ?_
    obtain ⟨since, rfl, hsince⟩ := called_phase htask hf
    exact .marking hsince (Nat.le_refl _)
  | marked htask =>
    rw [List.append_nil]
    intro early
    obtain ⟨t, ht, hmatch⟩ := h early
    have hi := hmatch.task i
    rw [htask] at hi
    generalize hphase : t.phase i = phase at hi
    cases hi with
    | marking hsince hread => exact hmatch.take ht rfl hphase hsince hread .returning
  | completes htask | clears htask =>
    rw [List.append_nil]
    exact h.take rfl (called_phase htask) (Nat.le_refl _) fun _ => .returning
  | @absent key htask hentry =>
    rw [List.append_nil]
    have hpoll : s.pending.poll key s.now = (.none, s.pending) := by
      simp only [PendingAnswers.poll, hentry]
    exact h.take (apply_poll hpoll) (called_phase htask) (Nat.le_refl _) fun _ => .returning
  | looks htask hentry =>
    rw [List.append_nil]
    exact h.lookup htask hentry
  | decides htask hnext =>
    rw [List.append_nil]
    exact h.decide htask hnext
  | takes htask =>
    rw [List.append_nil]
    refine h.remove (fun hf => ?_) (poll_taken htask hharmless)
    rw [htask] at hf
    cases hf with
    | ready hsince => exact ⟨_, rfl, hsince⟩
  | expires htask =>
    rw [List.append_nil]
    refine h.remove (fun hf => ?_) (poll_expired htask hharmless)
    rw [htask] at hf
    cases hf with
    | expiring hsince => exact ⟨_, rfl, hsince⟩
  | returns htask =>
    intro early
    obtain ⟨t, ht, hmatch⟩ := h early
    have hi := hmatch.task i
    rw [htask] at hi
    generalize hphase : t.phase i = phase at hi
    cases hi with
    | returning => exact ⟨_, ht.finish hphase, hmatch.move hmatch.object .finished⟩

theorem Possible.step {a : Act} (h : Possible init s history) (hharmless : harmless s a = true)
    (hstep : step s a = some (s', seen)) : Possible init s' (history ++ seen) := by
  cases a with
  | advance d =>
    obtain ⟨rfl, rfl⟩ := Prod.mk.inj (Option.some.inj hstep)
    intro early
    obtain ⟨t, ht, hmatch⟩ := h early
    refine ⟨_, ht.advance d, hmatch.object, ?_, fun i => (hmatch.task i).later⟩
    exact congrArg (· + d) hmatch.now
  | start i op =>
    unfold PendingTasks.step at hstep
    simp only at hstep
    split at hstep
    · next htask =>
      obtain ⟨rfl, rfl⟩ := Prod.mk.inj (Option.some.inj hstep)
      intro early
      obtain ⟨t, ht, hmatch⟩ := h early
      have hi := hmatch.task i
      rw [htask] at hi
      generalize hphase : t.phase i = phase at hi
      cases hi with
      | idle =>
        refine ⟨_, ht.start hphase op, hmatch.move hmatch.object ?_⟩
        exact .called (Nat.le_of_eq hmatch.now)
    · cases hstep
  | step i => exact h.task hharmless (stepTask_cases hstep)

end Following

/-! ## What removals lose -/

section Removals

variable {s s' : State} {a : Act} {seen : List (Seen Op Result)}

/-- All that polls have removed was stale or has been returned. -/
def Lossless (s : State) : Prop := ∀ r ∈ s.removals, r.lossless = true

instance (s : State) : Decidable (Lossless s) :=
  inferInstanceAs (Decidable (∀ r ∈ s.removals, r.lossless = true))

/-- A removal in this step loses nothing exactly when the step is harmless. -/
theorem remove_removals {i : Nat} {key : Text} {result : Poll} {harm : Bool}
    (h : ∀ entry, s.pending key = some entry → (Removal.mk entry result s.now).lossless = harm)
    (hnone : s.pending key = none → harm = true) :
    Lossless (s.remove i key result) ↔ Lossless s ∧ harm = true := by
  unfold Lossless State.remove
  cases hentry : s.pending key with
  | none => simp [hnone hentry]
  | some entry => simp [← h entry hentry, or_imp, forall_and]

theorem harmless_removal {i : Nat} (h : TaskStep s i s' seen) :
    Lossless s' ↔ Lossless s ∧ harmless s (.step i) = true := by
  have hkept (hharmless : harmless s (.step i) = true) :
      Lossless s ↔ Lossless s ∧ harmless s (.step i) = true :=
    (and_iff_left hharmless).symm
  cases h with
  | takes htask =>
    simp only [harmless, htask]
    refine remove_removals (fun entry hentry => ?_) fun hnone => by rw [hnone]; rfl
    rw [hentry]
    cases entry with
    | ready text => simp [Removal.lossless, removed, isReady]
    | thinking mark => rfl
  | expires htask =>
    simp only [harmless, htask]
    refine remove_removals (fun entry hentry => ?_) fun hnone => by rw [hnone]; rfl
    rw [hentry]
    cases entry <;> rfl
  | marks htask | marked htask | completes htask | clears htask | returns htask =>
    exact hkept (by simp only [harmless, htask])
  | absent htask _ | looks htask _ | decides htask _ =>
    exact hkept (by simp only [harmless, htask])

theorem step_lossless (h : step s a = some (s', seen)) :
    Lossless s' ↔ Lossless s ∧ harmless s a = true := by
  cases a with
  | step i => exact harmless_removal (stepTask_cases h)
  | advance d =>
    obtain ⟨rfl, rfl⟩ := Prod.mk.inj (Option.some.inj h)
    exact (and_iff_left rfl).symm
  | start i op =>
    unfold PendingTasks.step at h
    simp only at h
    split at h
    · obtain ⟨rfl, rfl⟩ := Prod.mk.inj (Option.some.inj h)
      exact (and_iff_left rfl).symm
    · cases h

end Removals

/-! ## Runs -/

/-- From any map and clock: a run of any number of tasks has a history that the atomic
object has too, with the same map at its end, and its polls lose nothing, exactly when
every removal of a poll finds a stale mark, or the ready answer it takes, or no entry. -/
theorem linearizable_iff {pending : PendingAnswers} {now : Nat} {acts : List Act} {s : State}
    {history : List (Seen Op Result)}
    (he : tasks.exec (initial pending now) acts = some (s, history)) :
    (pendingObject.Linearizable pending now history s.pending ∧ Lossless s) ↔
      tasks.Along (fun s a => harmless s a = true) (initial pending now) acts := by
  have hlossless : Lossless s ↔
      tasks.Along (fun s a => harmless s a = true) (initial pending now) acts := by
    refine Machine.last_iff_along (M := tasks) (J := fun _ => True) (fun h _ => h) ?_ ?_ trivial
      (fun r hr => absurd hr List.not_mem_nil) he
    · exact fun _ hg hstep => (step_lossless hstep).trans (and_iff_right hg)
    · exact fun _ hb hstep hg => hb ((step_lossless hstep).mp hg).1
  refine ⟨fun h => hlossless.mp h.2, fun h => ⟨?_, hlossless.mpr h⟩⟩
  have hinit : Possible (Object.fresh pending now) (initial pending now) [] :=
    fun _ => ⟨_, .refl, rfl, rfl, fun _ => .idle⟩
  have hpossible := Machine.exec_invariant (M := tasks) (Possible (Object.fresh pending now))
    (fun hI hC hstep => hI.step hC hstep) hinit h he
  obtain ⟨t, ht, hmatch⟩ := hpossible fun _ => false
  exact ⟨t, ht, hmatch.object⟩

/-- A poll that reads the mark before the answer comes, then two that read the answer. -/
def twoPolls : List Act :=
  [.start 0 (.markThinking ['u']), .step 0, .step 0, .step 0, .advance 3, .start 1 (.poll ['u']),
    .step 1, .start 2 (.complete ['u'] ['a']), .step 2, .step 2, .step 1, .step 1,
    .start 3 (.poll ['u']), .start 4 (.poll ['u']), .step 3, .step 4, .step 4, .step 3, .step 3,
    .step 4]

theorem linearizable_twoPolls : ∃ s history,
    tasks.exec (initial (fun _ => none) 0) twoPolls = some (s, history) ∧
      pendingObject.Linearizable (fun _ => none) 0 history s.pending ∧ Lossless s := by
  have hruns : (tasks.exec (initial (fun _ => none) 0) twoPolls).isSome = true := by decide +kernel
  obtain ⟨⟨s, history⟩, he⟩ := Option.isSome_iff_exists.mp hruns
  exact ⟨s, history, he, (linearizable_iff he).mpr (by decide +kernel)⟩

/-- A mark of 121 seconds ago. -/
def oldMark : PendingAnswers := PendingAnswers.markThinking (fun _ => none) ['u'] 0

/-- A poll reads the old mark; a new mark is set before it removes the entry. -/
def markLost : List Act :=
  [.start 1 (.poll ['u']), .step 1, .step 1, .start 2 (.markThinking ['u']), .step 2, .step 2,
    .step 2, .step 1, .step 1]

def markLostHistory : List (Seen Op Result) :=
  [.start 1 (.poll ['u']), .start 2 (.markThinking ['u']), .finish 2 .unit,
    .finish 1 (.polled .none)]

def tookEffect : Object.Phase Op Result → Bool
  | .applied _ | .finished => true
  | .idle | .started _ _ => false

/-- The atomic object while only these calls are made: from its effect on, the mark of
call 2 stays. -/
structure Marks (t : Object.Atomic PendingAnswers Op Result) : Prop where
  now : t.now = 121
  started : ∀ {i op since}, t.phase i = .started op since →
    if i = 2 then op = .markThinking ['u'] ∧ since = 121 else op = .poll ['u']
  kept : tookEffect (t.phase 2) = true → t.object ['u'] = some (.thinking 121)

section Marks

variable {t t' : Object.Atomic PendingAnswers Op Result}

theorem Marks.move (h : Marks t) {call : Nat} {phase : Object.Phase Op Result}
    {object : PendingAnswers}
    (hstarted : ∀ {op since}, phase = .started op since →
      if call = 2 then op = .markThinking ['u'] ∧ since = 121 else op = .poll ['u'])
    (hkept : tookEffect (Object.setPhase t.phase call phase 2) = true →
      object ['u'] = some (.thinking 121)) :
    Marks ⟨object, t.now, Object.setPhase t.phase call phase⟩ where
  now := h.now
  started {i op since} hi := by
    by_cases hcall : i = call
    · subst hcall
      exact hstarted ((Object.setPhase_self ..).symm.trans hi)
    · exact h.started ((Object.setPhase_other hcall).symm.trans hi)
  kept := hkept

theorem Marks.step {a : Object.Action Op} {seen : List (Seen Op Result)} (h : Marks t)
    (hseen : ∀ e ∈ seen, e ∈ markLostHistory)
    (hstep : pendingObject.step t a = some (t', seen)) : Marks t' := by
  unfold Object.step at hstep
  cases a with
  | advance d =>
    obtain ⟨rfl, rfl⟩ := Prod.mk.inj (Option.some.inj hstep)
    simp [markLostHistory] at hseen
  | start call op =>
    simp only at hstep
    split at hstep
    next =>
      obtain ⟨rfl, rfl⟩ := Prod.mk.inj (Option.some.inj hstep)
      have hcalls : call = 1 ∧ op = .poll ['u'] ∨ call = 2 ∧ op = .markThinking ['u'] := by
        simpa [markLostHistory] using hseen
      refine h.move (fun hphase => ?_) fun hdone => ?_
      · obtain ⟨rfl, rfl⟩ := Object.Phase.started.inj hphase
        rcases hcalls with ⟨rfl, rfl⟩ | ⟨rfl, rfl⟩
        · rfl
        · exact ⟨rfl, h.now⟩
      · by_cases hcall : call = 2
        · subst hcall
          rw [Object.setPhase_self] at hdone
          cases hdone
        · rw [Object.setPhase_other (Ne.symm hcall)] at hdone
          exact h.kept hdone
    next => cases hstep
  | take call read =>
    simp only at hstep
    split at hstep
    next op since hphase =>
      obtain ⟨⟨hsince, hread⟩, hstep⟩ := Option.ite_none_right_eq_some.mp hstep
      obtain ⟨rfl, rfl⟩ := Prod.mk.inj (Option.some.inj hstep)
      have hop := h.started hphase
      refine h.move (fun hphase => by cases hphase) fun hdone => ?_
      by_cases hcall : call = 2
      · rw [if_pos hcall] at hop
        obtain ⟨rfl, rfl⟩ := hop
        have hnow := h.now
        obtain rfl : read = 121 := by omega
        exact markThinking_self t.object ['u'] 121
      · rw [if_neg hcall] at hop
        subst hop
        rw [Object.setPhase_other (Ne.symm hcall)] at hdone
        have hfresh : stale t.now (.thinking 121) = false := by
          rw [h.now]
          decide
        rw [apply_poll (poll_fresh (h.kept hdone) hfresh)]
        exact h.kept hdone
    next => cases hstep
  | finish call =>
    simp only at hstep
    split at hstep
    next result happlied =>
      obtain ⟨rfl, rfl⟩ := Prod.mk.inj (Option.some.inj hstep)
      refine h.move (fun hphase => by cases hphase) fun hdone => h.kept ?_
      by_cases hcall : call = 2
      · rw [← hcall, happlied]
        rfl
      · rwa [Object.setPhase_other (Ne.symm hcall)] at hdone
    next => cases hstep

/-- With these calls, the new mark is in the map at the end. -/
theorem markLostHistory_final {final : PendingAnswers}
    (h : pendingObject.Linearizable oldMark 121 markLostHistory final) :
    final ['u'] = some (.thinking 121) := by
  obtain ⟨t, ht, rfl⟩ := h
  have hinit : Marks (Object.fresh oldMark 121) :=
    ⟨rfl, (fun hi => by cases hi), (fun hdone => by cases hdone)⟩
  obtain ⟨actions, he⟩ := ht
  have hrun := Machine.exec_invariant_free (M := pendingObject.atomic)
    (fun t seen => (∀ e ∈ seen, e ∈ markLostHistory) → Marks t)
    (fun hI hstep hseen => by
      rw [List.forall_mem_append] at hseen
      exact (hI hseen.1).step hseen.2 hstep)
    (fun _ => hinit) he
  refine (hrun fun _ hmem => hmem).kept ?_
  rw [Object.Reaches.finished ⟨actions, he⟩ (by decide : .finish 2 .unit ∈ markLostHistory)]
  rfl

end Marks

/-- The new mark is lost: no order of these calls has this end. -/
theorem markLost_not_linearizable : ∃ s history,
    tasks.exec (initial oldMark 121) markLost = some (s, history) ∧
      ¬ pendingObject.Linearizable oldMark 121 history s.pending := by
  have hruns : ((tasks.exec (initial oldMark 121) markLost).map fun r =>
      decide (r.2 = markLostHistory ∧ r.1.pending ['u'] = none)) = some true := by decide +kernel
  obtain ⟨⟨s, history⟩, he, hend⟩ := Option.map_eq_some_iff.mp hruns
  obtain ⟨rfl, hnone⟩ := of_decide_eq_true hend
  refine ⟨s, _, he, fun h => ?_⟩
  rw [markLostHistory_final h] at hnone
  cases hnone

end AliceBridge.Core.PendingTasks
