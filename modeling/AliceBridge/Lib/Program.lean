import Mathlib.Control.Monad.Basic

/-! # Programs with a state and errors

A program changes a state and ends with a result or an error; the state of a
failed program is kept. `Runs` is the evaluation relation, with one inversion
rule for each way programs are composed. -/
namespace AliceBridge.Lib.Program

abbrev Prog (σ ε : Type) := ExceptT ε (StateM σ)

variable {σ ε α β : Type}

def Prog.exec (m : Prog σ ε α) (s : σ) : Except ε α × σ := m.run s

/-- Started in `s`, the program ends in `s'` with the result `r`. -/
def Runs (m : Prog σ ε α) (s : σ) (r : Except ε α) (s' : σ) : Prop := m.exec s = (r, s')

variable {s s' : σ} {r : Except ε α} {r' : Except ε β}

theorem Runs.pure_iff {a : α} : Runs (pure a : Prog σ ε α) s r s' ↔ r = .ok a ∧ s' = s := by
  show (Except.ok a, s) = (r, s') ↔ _
  rw [Prod.mk.injEq, eq_comm (a := s), eq_comm (b := r)]

theorem Runs.throw_iff {e : ε} :
    Runs (throw e : Prog σ ε α) s r s' ↔ r = .error e ∧ s' = s := by
  show (Except.error e, s) = (r, s') ↔ _
  rw [Prod.mk.injEq, eq_comm (a := s), eq_comm (b := r)]

theorem Runs.modify_iff {f : σ → σ} {r : Except ε PUnit} :
    Runs (modify f : Prog σ ε PUnit) s r s' ↔ r = .ok .unit ∧ s' = f s := by
  show (Except.ok PUnit.unit, f s) = (r, s') ↔ _
  rw [Prod.mk.injEq, eq_comm (a := f s), eq_comm (b := r)]

theorem Runs.get_iff {r : Except ε σ} :
    Runs (get : Prog σ ε σ) s r s' ↔ r = .ok s ∧ s' = s := by
  show (Except.ok s, s) = (r, s') ↔ _
  rw [Prod.mk.injEq, eq_comm (a := s) (b := s'), eq_comm (b := r)]

/-- A composition fails in its first part, or runs it and then the second. -/
theorem Runs.bind_iff {m : Prog σ ε α} {f : α → Prog σ ε β} :
    Runs (m >>= f) s r' s' ↔
      (∃ a s₁, Runs m s (.ok a) s₁ ∧ Runs (f a) s₁ r' s') ∨
      ∃ e, Runs m s (.error e) s' ∧ r' = .error e := by
  have hbind : (m >>= f).exec s = match m.exec s with
      | (.ok a, s₁) => (f a).exec s₁
      | (.error e, s₁) => (.error e, s₁) := by
    show (match (m.exec s) with | (x, s₁) => (ExceptT.bindCont f x).run s₁) = _
    rcases m.exec s with ⟨_ | _, _⟩ <;> rfl
  unfold Runs
  rw [hbind]
  rcases hm : m.exec s with ⟨e | a, s₁⟩
  · simp only [Prod.mk.injEq, reduceCtorEq, false_and, exists_false, false_or, Except.error.injEq]
    constructor
    · rintro ⟨rfl, rfl⟩
      exact ⟨e, ⟨rfl, rfl⟩, rfl⟩
    · rintro ⟨_, ⟨rfl, rfl⟩, rfl⟩
      exact ⟨rfl, rfl⟩
  · simp only [Prod.mk.injEq, Except.ok.injEq, reduceCtorEq, false_and, exists_false, or_false]
    constructor
    · intro h
      exact ⟨a, s₁, ⟨rfl, rfl⟩, h⟩
    · rintro ⟨_, _, ⟨rfl, rfl⟩, h⟩
      exact h

/-- First a step that cannot fail. -/
theorem Runs.modify_bind {f : σ → σ} {m : PUnit → Prog σ ε β} :
    Runs ((modify f : Prog σ ε PUnit) >>= m) s r' s' ↔ Runs (m .unit) (f s) r' s' := by
  constructor
  · intro h
    rcases Runs.bind_iff.mp h with ⟨_, s₁, hmodify, hrest⟩ | ⟨_, hmodify, _⟩
    · obtain ⟨-, rfl⟩ := Runs.modify_iff.mp hmodify
      exact hrest
    · cases (Runs.modify_iff.mp hmodify).1
  · intro h
    exact Runs.bind_iff.mpr (.inl ⟨_, _, Runs.modify_iff.mpr ⟨rfl, rfl⟩, h⟩)

theorem Runs.get_bind {m : σ → Prog σ ε β} :
    Runs ((get : Prog σ ε σ) >>= m) s r' s' ↔ Runs (m s) s r' s' := by
  constructor
  · intro h
    rcases Runs.bind_iff.mp h with ⟨_, s₁, hget, hrest⟩ | ⟨_, hget, _⟩
    · obtain ⟨hs, rfl⟩ := Runs.get_iff.mp hget
      obtain rfl := Except.ok.inj hs
      exact hrest
    · cases (Runs.get_iff.mp hget).1
  · intro h
    exact Runs.bind_iff.mpr (.inl ⟨_, _, Runs.get_iff.mpr ⟨rfl, rfl⟩, h⟩)

/-! ## Programs by what they emit -/

section Emits

variable {τ : Type} {log : σ → List τ} {I : σ → Prop} {P : Bool → List τ → Prop}

/-- The state has a log that only grows. From a state with the invariant, the program
keeps it, and what it adds to the log obeys a law, which may depend on its success. -/
def Emits (log : σ → List τ) (I : σ → Prop) (P : Bool → List τ → Prop) (m : Prog σ ε α) : Prop :=
  ∀ s r s', I s → Runs m s r s' → I s' ∧ ∃ es, log s' = log s ++ es ∧ P r.isOk es

/-- A law that survives composition: of what a part that went well adds, and of what comes after. -/
structure Composes (P : Bool → List τ → Prop) : Prop where
  nil : ∀ ok, P ok []
  append : ∀ {ok es es'}, P true es → P ok es' → P ok (es ++ es')

theorem Emits.quiet (hP : Composes P) {m : Prog σ ε α}
    (h : ∀ {s r s'}, I s → Runs m s r s' → I s' ∧ log s' = log s) : Emits log I P m := by
  intro s r s' hI hruns
  obtain ⟨hI', hlog⟩ := h hI hruns
  exact ⟨hI', [], by rw [hlog, List.append_nil], hP.nil _⟩

theorem Emits.throw (hP : Composes P) (e : ε) : Emits log I P (throw e : Prog σ ε α) := by
  refine .quiet hP fun hI h => ?_
  obtain ⟨-, rfl⟩ := Runs.throw_iff.mp h
  exact ⟨hI, rfl⟩

theorem Emits.pure (hP : Composes P) (a : α) : Emits log I P (pure a : Prog σ ε α) := by
  refine .quiet hP fun hI h => ?_
  obtain ⟨-, rfl⟩ := Runs.pure_iff.mp h
  exact ⟨hI, rfl⟩

theorem Emits.get (hP : Composes P) : Emits log I P (get : Prog σ ε σ) := by
  refine .quiet hP fun hI h => ?_
  obtain ⟨-, rfl⟩ := Runs.get_iff.mp h
  exact ⟨hI, rfl⟩

theorem Emits.bind (hP : Composes P) {m : Prog σ ε α} {f : α → Prog σ ε β}
    (hm : Emits log I P m) (hf : ∀ a, Emits log I P (f a)) : Emits log I P (m >>= f) := by
  intro s r s' hI h
  rcases Runs.bind_iff.mp h with ⟨a, s₁, h₁, h₂⟩ | ⟨e, h₁, rfl⟩
  · obtain ⟨hI₁, es, hlog, hes⟩ := hm _ _ _ hI h₁
    obtain ⟨hI', es', hlog', hes'⟩ := hf a _ _ _ hI₁ h₂
    refine ⟨hI', es ++ es', ?_, hP.append hes hes'⟩
    rw [hlog', hlog, List.append_assoc]
  · exact hm _ _ _ hI h₁

/-- Like `Emits`, where the program leads from one invariant to another. -/
def EmitsTo (log : σ → List τ) (I J : σ → Prop) (P : Bool → List τ → Prop) (m : Prog σ ε α) :
    Prop :=
  ∀ s r s', I s → Runs m s r s' → J s' ∧ ∃ es, log s' = log s ++ es ∧ P r.isOk es

theorem Emits.to {m : Prog σ ε α} (h : Emits log I P m) : EmitsTo log I I P m := h

/-- The second part may rely on what the first returns. -/
theorem EmitsTo.bind_of {J K : σ → Prop} (hP : Composes P) {m : Prog σ ε α} {f : α → Prog σ ε β}
    {Q : α → Prop} (hJK : ∀ s, J s → K s) (hm : EmitsTo log I J P m)
    (hQ : ∀ {s a s'}, Runs m s (.ok a) s' → Q a) (hf : ∀ a, Q a → EmitsTo log J K P (f a)) :
    EmitsTo log I K P (m >>= f) := by
  intro s r s' hI h
  rcases Runs.bind_iff.mp h with ⟨a, s₁, h₁, h₂⟩ | ⟨e, h₁, rfl⟩
  · obtain ⟨hI₁, es, hlog, hes⟩ := hm _ _ _ hI h₁
    obtain ⟨hI', es', hlog', hes'⟩ := hf a (hQ h₁) _ _ _ hI₁ h₂
    refine ⟨hI', es ++ es', ?_, hP.append hes hes'⟩
    rw [hlog', hlog, List.append_assoc]
  · obtain ⟨hI₁, hes⟩ := hm _ _ _ hI h₁
    exact ⟨hJK _ hI₁, hes⟩

theorem EmitsTo.bind {J K : σ → Prop} (hP : Composes P) {m : Prog σ ε α} {f : α → Prog σ ε β}
    (hJK : ∀ s, J s → K s) (hm : EmitsTo log I J P m) (hf : ∀ a, EmitsTo log J K P (f a)) :
    EmitsTo log I K P (m >>= f) :=
  .bind_of (Q := fun _ => True) hP hJK hm (fun _ => trivial) fun a _ => hf a

theorem EmitsTo.mono {J K : σ → Prop} {m : Prog σ ε α} (hJK : ∀ s, J s → K s)
    (h : EmitsTo log I J P m) : EmitsTo log I K P m := by
  intro s r s' hI hruns
  obtain ⟨hJ, hes⟩ := h s r s' hI hruns
  exact ⟨hJK _ hJ, hes⟩

end Emits

end AliceBridge.Lib.Program
