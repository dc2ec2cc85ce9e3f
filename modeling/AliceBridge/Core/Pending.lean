import AliceBridge.Lib.Utf8

/-! # Deferred answers of the legacy engine

The map of `pending.rs`, with the clock as a number of seconds. A ready answer is
polled once, a thinking entry expires, and `complete` needs an entry to land in. -/
namespace AliceBridge.Core.Pending
open AliceBridge.Lib.Utf8

/-- `THINKING_TTL` in seconds. -/
def thinkingTtl : Nat := 120

inductive PendingState where
  | thinking (since : Nat)
  | ready (text : Text)
deriving DecidableEq, Repr

inductive Poll where
  | none
  | stillThinking
  | answer (text : Text)
deriving DecidableEq, Repr

abbrev PendingAnswers := Text → Option PendingState

def PendingAnswers.set (pending : PendingAnswers) (key : Text) (entry : Option PendingState) :
    PendingAnswers :=
  fun k => if k = key then entry else pending k

def PendingAnswers.markThinking (pending : PendingAnswers) (key : Text) (now : Nat) :
    PendingAnswers :=
  pending.set key (some (.thinking now))

/-- No entry, no change: the caller has cleared the key. -/
def PendingAnswers.complete (pending : PendingAnswers) (key text : Text) : PendingAnswers :=
  match pending key with
  | some _ => pending.set key (some (.ready text))
  | none => pending

def PendingAnswers.clear (pending : PendingAnswers) (key : Text) : PendingAnswers :=
  pending.set key none

def PendingAnswers.poll (pending : PendingAnswers) (key : Text) (now : Nat) :
    Poll × PendingAnswers :=
  match pending key with
  | none => (.none, pending)
  | some (.ready text) => (.answer text, pending.clear key)
  | some (.thinking since) =>
    if now - since > thinkingTtl then (.none, pending.clear key) else (.stillThinking, pending)

section Laws

variable (pending : PendingAnswers) (key other text : Text) (now : Nat)

@[simp] theorem set_self (entry : Option PendingState) : pending.set key entry key = entry := by
  simp [PendingAnswers.set]

theorem set_other {entry : Option PendingState} (h : other ≠ key) :
    pending.set key entry other = pending other := by
  simp [PendingAnswers.set, h]

@[simp] theorem markThinking_self :
    pending.markThinking key now key = some (.thinking now) := set_self ..

@[simp] theorem clear_self : pending.clear key key = none := set_self ..

theorem complete_self {entry : PendingState} (h : pending key = some entry) :
    pending.complete key text key = some (.ready text) := by
  simp [PendingAnswers.complete, h]

/-- A late `complete` after the fast path has cleared the key changes nothing. -/
theorem complete_absent (h : pending key = none) : pending.complete key text = pending := by
  simp [PendingAnswers.complete, h]

theorem complete_other (h : other ≠ key) : pending.complete key text other = pending other := by
  cases hentry : pending key with
  | some entry => simpa [PendingAnswers.complete, hentry] using set_other _ _ _ h
  | none => simp [PendingAnswers.complete, hentry]

/-- The next poll returns a ready answer, whenever it comes, and only that one does. -/
theorem poll_ready (h : pending key = some (.ready text)) :
    (pending.poll key now).1 = .answer text ∧
      ∀ later, ((pending.poll key now).2.poll key later).1 = .none := by
  simp [PendingAnswers.poll, h]

end Laws

end AliceBridge.Core.Pending
