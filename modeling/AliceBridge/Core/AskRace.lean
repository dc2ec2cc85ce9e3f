import AliceBridge.Core.Pending
import AliceBridge.Lib.Run

/-! # The deadline race of `ask_llm`

One `ask_llm` call cut at the points where its two tasks can interleave: the
request, which marks the key, spawns the task and waits in `tokio::time::timeout`
on the receiver of a oneshot channel, and the task, which generates the reply
and sends it or, when the receiver is gone, completes the pending entry. The
receiver is polled before the timer and dropped in a step of its own.

A reply sent between the last poll of the receiver and its drop lands nowhere:
the send succeeds and nobody reads the channel. `delivered_iff` shows that this
is the only way to lose it. -/
namespace AliceBridge.Core.AskRace
open AliceBridge.Lib.Utf8 AliceBridge.Lib.Run AliceBridge.Core.Pending

def phraseThinkingStarted : Text :=
  "Хороший вопрос, мне нужно немного подумать. Спроси меня через пару секунд: ну что там?".toList
def phraseInternalError : Text := "Ой, у меня что-то сломалось. Попробуй ещё раз.".toList

/-- The request: before `mark_thinking`, before the spawn, in `timeout`, and after it. -/
inductive Waiter where
  | markThinking
  | spawn
  | pollReceiver
  | pollTimer
  | dropReceiver
  | clear (reply : Text)
  | returned (reply : Text)
deriving DecidableEq, Repr

/-- The spawned task. -/
inductive Generator where
  | unspawned
  | generating
  | send (reply : Text)
  | complete (reply : Text)
  | finished (reply : Text)
  | panicked
deriving DecidableEq, Repr

/-- The oneshot channel: the value in it and which ends are gone. -/
structure Channel where
  value : Option Text
  receiverDropped : Bool
  senderDropped : Bool
deriving DecidableEq, Repr

structure State where
  pending : PendingAnswers
  now : Nat
  deadline : Nat
  waiter : Waiter
  generator : Generator
  channel : Channel

inductive Action where
  | waiter
  | generated (reply : Text)
  | panic
  | send
  | complete
  | tick
deriving DecidableEq, Repr

section Machine

variable (key : Text) (replyBudget : Nat)

def waiterStep (s : State) : Option State :=
  match s.waiter with
  | .markThinking =>
    some { s with pending := s.pending.markThinking key s.now, waiter := .spawn }
  | .spawn =>
    some { s with
      generator := .generating
      deadline := s.now + replyBudget
      waiter := .pollReceiver }
  | .pollReceiver =>
    match s.channel.value with
    | some reply =>
      some { s with
        channel := { s.channel with value := none, receiverDropped := true }
        waiter := .clear reply }
    | none =>
      if s.channel.senderDropped then
        some { s with
          channel := { s.channel with receiverDropped := true }
          waiter := .clear phraseInternalError }
      else some { s with waiter := .pollTimer }
  | .pollTimer =>
    some { s with waiter := if s.now ≥ s.deadline then .dropReceiver else .pollReceiver }
  | .dropReceiver =>
    some { s with
      channel := { s.channel with receiverDropped := true }
      waiter := .returned phraseThinkingStarted }
  | .clear reply => some { s with pending := s.pending.clear key, waiter := .returned reply }
  | .returned _ => none

def step (s : State) (a : Action) : Option State :=
  match a, s.generator with
  | .waiter, _ => waiterStep key replyBudget s
  | .generated reply, .generating => some { s with generator := .send reply }
  | .panic, .generating =>
    some { s with
      generator := .panicked
      channel := { s.channel with senderDropped := true } }
  | .send, .send reply =>
    if s.channel.receiverDropped then
      some { s with
        generator := .complete reply
        channel := { s.channel with senderDropped := true } }
    else
      some { s with
        generator := .finished reply
        channel := { s.channel with value := some reply, senderDropped := true } }
  | .complete, .complete reply =>
    some { s with pending := s.pending.complete key reply, generator := .finished reply }
  | .tick, _ => some { s with now := s.now + 1 }
  | _, _ => none

def machine : Machine State Action Unit :=
  ⟨fun s a => (step key replyBudget s a).map fun s' => (s', [])⟩

end Machine

/-- A call of a user with any pending map and clock. -/
def initial (pending : PendingAnswers) (now : Nat) : State :=
  { pending := pending
    now := now
    deadline := now
    waiter := .markThinking
    generator := .unspawned
    channel := ⟨none, false, false⟩ }

/-- `handle` returned the reply and left nothing behind. -/
def Direct (key reply : Text) (s : State) : Prop :=
  s.waiter = .returned reply ∧ s.pending key = none

/-- `handle` returned the phrase and the next poll returns the reply. -/
def Deferred (key reply : Text) (s : State) : Prop :=
  s.waiter = .returned phraseThinkingStarted ∧ s.pending key = some (.ready reply) ∧
    ∀ now, (s.pending.poll key now).1 = .answer reply

/-- No reply is in the channel when the receiver that timed out is dropped. -/
def DropsEmpty (s : State) (a : Action) : Prop :=
  a = .waiter → s.waiter = .dropReceiver → s.channel.value = none

instance (s : State) (a : Action) : Decidable (DropsEmpty s a) :=
  inferInstanceAs (Decidable (_ → _ → _))

/-- Where the two tasks and the channel can stand together, and the entry of the
key then. -/
inductive Phase : Option PendingState → Waiter → Generator → Channel → Prop
  | unmarked {entry : Option PendingState} :
      Phase entry .markThinking .unspawned ⟨none, false, false⟩
  | marked {since : Nat} : Phase (some (.thinking since)) .spawn .unspawned ⟨none, false, false⟩
  | waiting {since : Nat} {w : Waiter} {g : Generator} :
      (w = .pollReceiver ∨ w = .pollTimer ∨ w = .dropReceiver) →
      (g = .generating ∨ ∃ reply, g = .send reply) →
      Phase (some (.thinking since)) w g ⟨none, false, false⟩
  | sent {since : Nat} {w : Waiter} {reply : Text} :
      (w = .pollReceiver ∨ w = .pollTimer ∨ w = .dropReceiver) →
      Phase (some (.thinking since)) w (.finished reply) ⟨some reply, false, true⟩
  | closed {since : Nat} {w : Waiter} :
      (w = .pollReceiver ∨ w = .pollTimer ∨ w = .dropReceiver) →
      Phase (some (.thinking since)) w .panicked ⟨none, false, true⟩
  | received {since : Nat} {reply : Text} :
      Phase (some (.thinking since)) (.clear reply) (.finished reply) ⟨none, true, true⟩
  | direct {reply : Text} : Phase none (.returned reply) (.finished reply) ⟨none, true, true⟩
  | failed {entry : Option PendingState} {w : Waiter} {reply : Text} :
      (w = .clear reply ∨ w = .returned reply) → Phase entry w .panicked ⟨none, true, true⟩
  | late {since : Nat} {g : Generator} : (g = .generating ∨ ∃ reply, g = .send reply) →
      Phase (some (.thinking since)) (.returned phraseThinkingStarted) g ⟨none, true, false⟩
  | completing {since : Nat} {reply : Text} :
      Phase (some (.thinking since)) (.returned phraseThinkingStarted) (.complete reply)
        ⟨none, true, true⟩
  | deferred {reply : Text} :
      Phase (some (.ready reply)) (.returned phraseThinkingStarted) (.finished reply)
        ⟨none, true, true⟩
  | lost {since : Nat} {reply : Text} :
      Phase (some (.thinking since)) (.returned phraseThinkingStarted) (.finished reply)
        ⟨some reply, true, true⟩

/-- `handle` delivered the reply in exactly one of its two ways. -/
def Delivered (key reply : Text) (s : State) : Prop :=
  (Direct key reply s ∨ Deferred key reply s) ∧ ¬ (Direct key reply s ∧ Deferred key reply s)

/-- A reply in the channel of a dropped receiver. -/
def Lost (s : State) : Prop := s.channel.value.isSome = true ∧ s.channel.receiverDropped = true

def InPhase (key : Text) (s : State) : Prop :=
  Phase (s.pending key) s.waiter s.generator s.channel

section Steps

variable {key : Text} {replyBudget : Nat} {s s' : State} {a : Action}

/-- The waiting request polls the receiver, then the timer, and gives up only there. -/
theorem waiter_phase (h : InPhase key s) (hs : waiterStep key replyBudget s = some s') :
    InPhase key s' := by
  obtain ⟨pending, now, deadline, waiter, generator, channel⟩ := s
  simp only [InPhase] at h ⊢
  generalize hentry : pending key = entry at h
  cases h with
  | unmarked =>
    obtain rfl := Option.some.inj hs
    simpa using Phase.marked
  | marked =>
    obtain rfl := Option.some.inj hs
    simpa [hentry] using Phase.waiting (.inl rfl) (.inl rfl)
  | waiting hw hg =>
    rcases hw with rfl | rfl | rfl <;> obtain rfl := Option.some.inj hs <;> simp only [hentry]
    · exact .waiting (.inr (.inl rfl)) hg
    · split
      · exact .waiting (.inr (.inr rfl)) hg
      · exact .waiting (.inl rfl) hg
    · exact .late hg
  | sent hw =>
    rcases hw with rfl | rfl | rfl <;> obtain rfl := Option.some.inj hs <;> simp only [hentry]
    · exact .received
    · split
      · exact .sent (.inr (.inr rfl))
      · exact .sent (.inl rfl)
    · exact .lost
  | closed hw =>
    rcases hw with rfl | rfl | rfl <;> obtain rfl := Option.some.inj hs <;> simp only [hentry]
    · exact .failed (.inl rfl)
    · split
      · exact .closed (.inr (.inr rfl))
      · exact .closed (.inl rfl)
    · exact .failed (.inr rfl)
  | received =>
    obtain rfl := Option.some.inj hs
    simpa using Phase.direct
  | failed hw =>
    rcases hw with rfl | rfl
    · obtain rfl := Option.some.inj hs
      exact .failed (.inr rfl)
    · cases hs
  | direct | late _ | completing | deferred | lost => cases hs

/-- The steps of the task. -/
theorem generator_phase (h : InPhase key s) (ha : a ≠ .waiter)
    (hs : step key replyBudget s a = some s') : InPhase key s' := by
  obtain ⟨pending, now, deadline, waiter, generator, channel⟩ := s
  simp only [InPhase] at h ⊢
  generalize hentry : pending key = entry at h
  cases a with
  | waiter => exact absurd rfl ha
  | tick =>
    subst hentry
    cases generator <;> obtain rfl := Option.some.inj hs <;> exact h
  | generated reply =>
    cases h with
    | waiting hw hg =>
      rcases hg with rfl | ⟨_, rfl⟩
      · obtain rfl := Option.some.inj hs
        simpa only [hentry] using Phase.waiting hw (.inr ⟨reply, rfl⟩)
      · cases hs
    | late hg =>
      rcases hg with rfl | ⟨_, rfl⟩
      · obtain rfl := Option.some.inj hs
        simpa only [hentry] using Phase.late (.inr ⟨reply, rfl⟩)
      · cases hs
    | _ => cases hs
  | panic =>
    cases h with
    | waiting hw hg =>
      rcases hg with rfl | ⟨_, rfl⟩
      · obtain rfl := Option.some.inj hs
        simpa only [hentry] using Phase.closed hw
      · cases hs
    | late hg =>
      rcases hg with rfl | ⟨_, rfl⟩
      · obtain rfl := Option.some.inj hs
        exact .failed (.inr rfl)
      · cases hs
    | _ => cases hs
  | send =>
    cases h with
    | waiting hw hg =>
      rcases hg with rfl | ⟨reply, rfl⟩
      · cases hs
      · obtain rfl := Option.some.inj hs
        simpa only [hentry] using Phase.sent hw
    | late hg =>
      rcases hg with rfl | ⟨reply, rfl⟩
      · cases hs
      · obtain rfl := Option.some.inj hs
        simpa only [hentry] using Phase.completing
    | _ => cases hs
  | complete =>
    cases h with
    | completing =>
      obtain rfl := Option.some.inj hs
      simpa only [complete_self pending key _ hentry] using Phase.deferred
    | waiting _ hg | late hg => rcases hg with rfl | ⟨_, rfl⟩ <;> cases hs
    | _ => cases hs

theorem phase_step (h : InPhase key s) (hs : step key replyBudget s a = some s') :
    InPhase key s' := by
  by_cases ha : a = .waiter
  · subst ha
    exact waiter_phase h hs
  · exact generator_phase h ha hs

/-- The only waiter step that loses a reply drops the receiver over it. -/
theorem waiter_lost (hl : ¬ Lost s) (hs : waiterStep key replyBudget s = some s') :
    ¬ Lost s' ↔ (s.waiter = .dropReceiver → s.channel.value = none) := by
  unfold waiterStep at hs
  split at hs <;> rename_i hw <;>
    simp only [hw, reduceCtorEq, false_imp_iff, iff_true, true_imp_iff]
  · obtain rfl := Option.some.inj hs
    exact hl
  · obtain rfl := Option.some.inj hs
    exact hl
  · split at hs
    · obtain rfl := Option.some.inj hs
      simp [Lost]
    · next hvalue =>
      split at hs <;> obtain rfl := Option.some.inj hs
      · simp [Lost, hvalue]
      · exact hl
  · obtain rfl := Option.some.inj hs
    exact hl
  · obtain rfl := Option.some.inj hs
    simp [Lost]
  · obtain rfl := Option.some.inj hs
    exact hl
  · cases hs

/-- A step loses a reply exactly when it drops the receiver over one. -/
theorem lost_step (hl : ¬ Lost s) (hs : step key replyBudget s a = some s') :
    ¬ Lost s' ↔ DropsEmpty s a := by
  unfold step at hs
  split at hs
  · simpa [DropsEmpty] using waiter_lost hl hs
  · obtain rfl := Option.some.inj hs
    simpa [DropsEmpty, Lost] using hl
  · obtain rfl := Option.some.inj hs
    simpa [DropsEmpty, Lost] using hl
  · split at hs
    · obtain rfl := Option.some.inj hs
      simpa [DropsEmpty, Lost] using hl
    · next hopen =>
      obtain rfl := Option.some.inj hs
      simpa [DropsEmpty, Lost] using hopen
  · obtain rfl := Option.some.inj hs
    simpa [DropsEmpty, Lost] using hl
  · obtain rfl := Option.some.inj hs
    simpa [DropsEmpty, Lost] using hl
  · cases hs

/-- What is lost stays lost: nobody moves any more but the clock. -/
theorem lost_stays (h : InPhase key s) (hl : Lost s) (hs : step key replyBudget s a = some s') :
    Lost s' := by
  obtain ⟨pending, now, deadline, waiter, generator, channel⟩ := s
  simp only [InPhase] at h
  obtain ⟨hvalue, hdropped⟩ := hl
  generalize pending key = entry at h
  cases h with
  | lost =>
    cases a with
    | tick =>
      obtain rfl := Option.some.inj hs
      exact ⟨rfl, rfl⟩
    | _ => cases hs
  | unmarked | marked | waiting _ _ | sent _ | closed _ => cases hdropped
  | received | direct | failed _ | late _ | completing | deferred => cases hvalue

/-- When both tasks have ended, the reply is delivered or lost. -/
theorem delivered_end {reply said : Text} (h : InPhase key s)
    (hg : s.generator = .finished reply) (hw : s.waiter = .returned said) :
    Delivered key reply s ↔ ¬ Lost s := by
  obtain ⟨pending, now, deadline, waiter, generator, channel⟩ := s
  simp only [InPhase] at h
  generalize hentry : pending key = entry at h
  cases h with
  | direct =>
    obtain rfl := Generator.finished.inj hg
    refine ⟨fun _ => by simp [Lost], fun _ => ⟨.inl ⟨rfl, hentry⟩, ?_⟩⟩
    rintro ⟨_, _, hready, _⟩
    cases hentry.symm.trans hready
  | deferred =>
    obtain rfl := Generator.finished.inj hg
    refine ⟨fun _ => by simp [Lost], fun _ => ⟨.inr ⟨rfl, hentry, fun later => ?_⟩, ?_⟩⟩
    · exact (poll_ready pending key _ later hentry).1
    · rintro ⟨⟨_, hnone⟩, _⟩
      cases hentry.symm.trans hnone
  | lost =>
    refine ⟨?_, fun h => absurd ⟨rfl, rfl⟩ h⟩
    rintro ⟨⟨_, hnone⟩ | ⟨_, hready, _⟩, _⟩
    · cases hentry.symm.trans hnone
    · cases hentry.symm.trans hready
  | sent hwaits => rcases hwaits with rfl | rfl | rfl <;> cases hw
  | received => cases hw
  | waiting _ hrun | late hrun => rcases hrun with rfl | ⟨_, rfl⟩ <;> cases hg
  | unmarked | marked | closed _ | failed _ | completing => cases hg

end Steps

/-- When both tasks have run to their end, the reply was delivered in exactly one
way, if and only if the receiver that timed out was never dropped over a reply. -/
theorem delivered_iff (key : Text) (replyBudget : Nat) (pending : PendingAnswers) (now : Nat)
    {as : List Action} {s : State} {os : List Unit} {reply said : Text}
    (h : (machine key replyBudget).exec (initial pending now) as = some (s, os))
    (hg : s.generator = .finished reply) (hw : s.waiter = .returned said) :
    Delivered key reply s ↔
      (machine key replyBudget).Along DropsEmpty (initial pending now) as := by
  have hstep : ∀ {s a s' o}, (machine key replyBudget).step s a = some (s', o) →
      step key replyBudget s a = some s' := by
    intro s a s' o h
    obtain ⟨r, hr, he⟩ := Option.map_eq_some_iff.mp h
    obtain ⟨rfl, _⟩ := Prod.mk.injEq .. ▸ he
    exact hr
  have hinit : InPhase key (initial pending now) := .unmarked
  have hphase : InPhase key s :=
    Machine.exec_invariant_free (fun s _ => InPhase key s)
      (fun hi hs => phase_step hi (hstep hs)) hinit h
  rw [delivered_end hphase hg hw]
  exact Machine.last_iff_along (G := fun s => ¬ Lost s) (J := InPhase key)
    (fun hj hs => phase_step hj (hstep hs)) (fun _ hl hs => lost_step hl (hstep hs))
    (fun hj hb hs hl => hl (lost_stays hj (not_not.mp hb) (hstep hs)))
    hinit (by simp [Lost, initial]) h

/-- The reply is sent after the deadline and after the drop of the receiver. -/
def sentLate : List Action :=
  [.waiter, .waiter, .waiter, .tick, .tick, .tick, .waiter, .waiter, .generated ['!'], .send,
    .complete]

theorem delivered_iff_late :
    ∃ s os, (machine ['u'] 3).exec (initial (fun _ => none) 0) sentLate = some (s, os) ∧
      Delivered ['u'] ['!'] s := by
  have hrun : ((machine ['u'] 3).exec (initial (fun _ => none) 0) sentLate).map (fun r =>
      (r.1.generator, r.1.waiter)) = some (.finished ['!'], .returned phraseThinkingStarted) := rfl
  obtain ⟨⟨s, os⟩, hexec, hr⟩ := Option.map_eq_some_iff.mp hrun
  obtain ⟨hg, hw⟩ := Prod.mk.injEq .. ▸ hr
  exact ⟨s, os, hexec, (delivered_iff _ _ _ _ hexec hg hw).mpr (by decide)⟩

/-- The reply comes between the last poll of the timer and the drop of the receiver. -/
def sentIntoDrop : List Action :=
  [.waiter, .waiter, .waiter, .tick, .tick, .tick, .waiter, .generated ['!'], .send, .waiter]

/-- The channel swallows the reply, and the entry stays thinking. -/
theorem ask_loses_reply :
    ¬ ∀ (as : List Action) (s : State) (os : List Unit) (reply said : Text),
      (machine ['u'] 3).exec (initial (fun _ => none) 0) as = some (s, os) →
      s.generator = .finished reply → s.waiter = .returned said → Delivered ['u'] reply s := by
  intro h
  have hrun : ((machine ['u'] 3).exec (initial (fun _ => none) 0) sentIntoDrop).map (fun r =>
      (r.1.generator, r.1.waiter, r.1.pending ['u'])) =
      some (.finished ['!'], .returned phraseThinkingStarted, some (.thinking 0)) := rfl
  obtain ⟨⟨s, os⟩, hexec, hr⟩ := Option.map_eq_some_iff.mp hrun
  obtain ⟨hg, hw, hp⟩ : s.generator = .finished ['!'] ∧ s.waiter = .returned phraseThinkingStarted ∧
      s.pending ['u'] = some (.thinking 0) := by simpa using hr
  rcases (h _ s os _ _ hexec hg hw).1 with ⟨_, hnone⟩ | ⟨_, hready, _⟩
  · cases hp.symm.trans hnone
  · cases hp.symm.trans hready

end AliceBridge.Core.AskRace
