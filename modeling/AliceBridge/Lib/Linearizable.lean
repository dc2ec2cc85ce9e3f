import AliceBridge.Lib.Run

/-! # Linearizable objects

The operations of an object take effect at once: `apply` is given an instant that the
call has read from the clock since its start, and the clock at the effect. A history is
what the callers see of an object. The atomic object is the machine whose calls take
effect at some moment between their start and their end, one after the other, and a
history is linearizable if the atomic object has it and ends with the same contents. -/
namespace AliceBridge.Lib
open AliceBridge.Lib.Run

structure Object (σ ι ρ : Type*) where
  apply : ι → (read now : Nat) → σ → ρ × σ

/-- What callers see: time passes, calls start and finish. -/
inductive Seen (ι ρ : Type*) where
  | advance (d : Nat)
  | start (call : Nat) (op : ι)
  | finish (call : Nat) (result : ρ)
deriving DecidableEq, Repr

namespace Object

variable {σ ι ρ : Type*}

inductive Phase (ι ρ : Type*) where
  | idle
  | started (op : ι) (since : Nat)
  | applied (result : ρ)
  | finished

structure Atomic (σ ι ρ : Type*) where
  object : σ
  now : Nat
  phase : Nat → Phase ι ρ

/-- Only `take`, the effect of a call, is not seen. -/
inductive Action (ι : Type*) where
  | advance (d : Nat)
  | start (call : Nat) (op : ι)
  | take (call read : Nat)
  | finish (call : Nat)

def setPhase (phase : Nat → Phase ι ρ) (call : Nat) (p : Phase ι ρ) : Nat → Phase ι ρ :=
  fun c => if c = call then p else phase c

@[simp] theorem setPhase_self (phase : Nat → Phase ι ρ) (call : Nat) (p : Phase ι ρ) :
    setPhase phase call p call = p := if_pos rfl

theorem setPhase_other {phase : Nat → Phase ι ρ} {call c : Nat} {p : Phase ι ρ} (h : c ≠ call) :
    setPhase phase call p c = phase c := if_neg h

def step (O : Object σ ι ρ) (t : Atomic σ ι ρ) :
    Action ι → Option (Atomic σ ι ρ × List (Seen ι ρ))
  | .advance d => some ({ t with now := t.now + d }, [.advance d])
  | .start call op =>
    match t.phase call with
    | .idle =>
      some ({ t with phase := setPhase t.phase call (.started op t.now) }, [.start call op])
    | _ => none
  | .take call read =>
    match t.phase call with
    | .started op since =>
      if since ≤ read ∧ read ≤ t.now then
        let r := O.apply op read t.now t.object
        some ({ t with object := r.2, phase := setPhase t.phase call (.applied r.1) }, [])
      else none
    | _ => none
  | .finish call =>
    match t.phase call with
    | .applied result =>
      some ({ t with phase := setPhase t.phase call .finished }, [.finish call result])
    | _ => none

def atomic (O : Object σ ι ρ) : Machine (Atomic σ ι ρ) (Action ι) (Seen ι ρ) := ⟨O.step⟩

/-- No call has started. -/
def fresh (object : σ) (now : Nat) : Atomic σ ι ρ := ⟨object, now, fun _ => .idle⟩

/-- The atomic object can be in this state when its callers have seen this. -/
def Reaches (O : Object σ ι ρ) (init t : Atomic σ ι ρ) (history : List (Seen ι ρ)) : Prop :=
  ∃ actions, O.atomic.exec init actions = some (t, history)

def Linearizable (O : Object σ ι ρ) (object : σ) (now : Nat) (history : List (Seen ι ρ))
    (final : σ) : Prop :=
  ∃ t, O.Reaches (fresh object now) t history ∧ t.object = final

section Rules

variable {O : Object σ ι ρ} {init t : Atomic σ ι ρ} {history : List (Seen ι ρ)} {call : Nat}

theorem Reaches.refl : O.Reaches init init [] := ⟨[], rfl⟩

theorem Reaches.step (h : O.Reaches init t history) {a : Action ι} {t' : Atomic σ ι ρ}
    {seen : List (Seen ι ρ)} (hstep : O.step t a = some (t', seen)) :
    O.Reaches init t' (history ++ seen) := by
  obtain ⟨actions, he⟩ := h
  have hlast : O.atomic.exec t [a] = some (t', seen ++ []) :=
    Machine.exec_cons_of (M := O.atomic) hstep rfl
  rw [List.append_nil] at hlast
  exact ⟨actions ++ [a], Machine.exec_append_of he hlast⟩

theorem Reaches.advance (h : O.Reaches init t history) (d : Nat) :
    O.Reaches init { t with now := t.now + d } (history ++ [.advance d]) :=
  h.step (a := .advance d) rfl

theorem Reaches.start (h : O.Reaches init t history) (hidle : t.phase call = .idle) (op : ι) :
    O.Reaches init { t with phase := setPhase t.phase call (.started op t.now) }
      (history ++ [.start call op]) :=
  h.step (a := .start call op) (by simp only [Object.step, hidle])

/-- A call takes effect now. -/
theorem Reaches.take (h : O.Reaches init t history) {op : ι} {since read : Nat}
    (hstarted : t.phase call = .started op since) (hsince : since ≤ read) (hread : read ≤ t.now) :
    O.Reaches init { t with
      object := (O.apply op read t.now t.object).2
      phase := setPhase t.phase call (.applied (O.apply op read t.now t.object).1) } history := by
  have hstep : O.step t (.take call read) = some ({ t with
      object := (O.apply op read t.now t.object).2
      phase := setPhase t.phase call (.applied (O.apply op read t.now t.object).1) }, []) := by
    simp only [Object.step, hstarted, if_pos (And.intro hsince hread)]
  have htaken := h.step hstep
  rwa [List.append_nil] at htaken

theorem Reaches.finish (h : O.Reaches init t history) {result : ρ}
    (happlied : t.phase call = .applied result) :
    O.Reaches init { t with phase := setPhase t.phase call .finished }
      (history ++ [.finish call result]) :=
  h.step (a := .finish call) (by simp only [Object.step, happlied])

theorem step_finished {t' : Atomic σ ι ρ} {a : Action ι} {seen : List (Seen ι ρ)} {result : ρ}
    (hstep : O.step t a = some (t', seen))
    (h : t.phase call = .finished ∨ .finish call result ∈ seen) : t'.phase call = .finished := by
  have hother {c : Nat} {p q : Phase ι ρ} (hc : t.phase c = q) (hq : q ≠ .finished)
      (hcall : t.phase call = .finished) : setPhase t.phase c p call = .finished := by
    refine (setPhase_other ?_).trans hcall
    rintro rfl
    exact hq (hc.symm.trans hcall)
  unfold Object.step at hstep
  cases a with
  | advance d =>
    obtain ⟨rfl, rfl⟩ := Prod.mk.inj (Option.some.inj hstep)
    exact h.resolve_right (by simp)
  | start c op =>
    simp only at hstep
    split at hstep
    next hidle =>
      obtain ⟨rfl, rfl⟩ := Prod.mk.inj (Option.some.inj hstep)
      exact hother hidle (fun h => by cases h) (h.resolve_right (by simp))
    next => cases hstep
  | take c read =>
    simp only at hstep
    split at hstep
    next hstarted =>
      obtain ⟨-, hstep⟩ := Option.ite_none_right_eq_some.mp hstep
      obtain ⟨rfl, rfl⟩ := Prod.mk.inj (Option.some.inj hstep)
      exact hother hstarted (fun h => by cases h) (h.resolve_right (by simp))
    next => cases hstep
  | finish c =>
    simp only at hstep
    split at hstep
    next happlied =>
      obtain ⟨rfl, rfl⟩ := Prod.mk.inj (Option.some.inj hstep)
      by_cases hc : call = c
      · subst hc
        exact setPhase_self ..
      · exact hother happlied (fun h => by cases h) (h.resolve_right (by simp [hc]))
    next => cases hstep

/-- A call that has been seen to finish has finished. -/
theorem Reaches.finished (h : O.Reaches init t history) {result : ρ}
    (hseen : .finish call result ∈ history) : t.phase call = .finished := by
  obtain ⟨actions, he⟩ := h
  have hrun := Machine.exec_invariant_free (M := O.atomic)
    (fun t seen => .finish call result ∈ seen → t.phase call = .finished)
    (fun hI hstep hmem => step_finished hstep ((List.mem_append.mp hmem).imp_left hI))
    (fun hmem => absurd hmem List.not_mem_nil) he
  exact hrun hseen

end Rules

end Object
end AliceBridge.Lib
