import AliceBridge.Lib.Run

/-! # Machines that answer each other

`N` answers `M` when every step of `M` is matched by some steps of `N`, none or
several, that show what a reader of `N` can see of it. The rule here carries that to
runs. A step may be answered with an eye on where the run ends: what is
chosen freely at the start of a run of `N` can depend on the whole run of `M`. -/
namespace AliceBridge.Lib.Run.Machine

variable {σ τ α β ω ω' : Type*} {M : Machine σ α ω} {N : Machine τ β ω'}

/-- `M` runs from here to there. -/
def Reaches (M : Machine σ α ω) (s last : σ) : Prop :=
  ∃ as os, M.exec s as = some (last, os)

theorem Reaches.refl (s : σ) : M.Reaches s s := ⟨[], [], rfl⟩

/-- What every step keeps, a run keeps. -/
theorem Reaches.keeps {R : σ → σ → Prop} (refl : ∀ s, R s s)
    (trans : ∀ {a b c}, R a b → R b c → R a c)
    (step : ∀ {s a s' o}, M.step s a = some (s', o) → R s s') {s last : σ}
    (h : M.Reaches s last) : R s last := by
  obtain ⟨as, os, he⟩ := h
  induction as generalizing s os with
  | nil =>
    obtain ⟨rfl, _⟩ := Prod.mk.injEq .. ▸ Option.some.inj he
    exact refl s
  | cons a as ih =>
    obtain ⟨r, q, hr, hq, _⟩ := exec_cons he
    exact trans (step hr) (ih q hq)

/-- Where the actions of one kind `p` lower a potential and the others do not raise it, a
run has no more of them than the potential it starts with. -/
theorem exec_pays {f : σ → Nat} {p : α → Bool}
    (step : ∀ {s a s' o}, M.step s a = some (s', o) → f s' + (if p a then 1 else 0) ≤ f s)
    {as : List α} {s s' : σ} {os : List ω} (he : M.exec s as = some (s', os)) :
    f s' + as.countP p ≤ f s := by
  induction as generalizing s os with
  | nil =>
    obtain ⟨rfl, _⟩ := Prod.mk.injEq .. ▸ Option.some.inj he
    exact Nat.le_refl _
  | cons a as ih =>
    obtain ⟨r, q, hr, hq, _⟩ := exec_cons he
    have hfirst := step hr
    have hrest := ih hq
    rw [List.countP_cons]
    omega

/-- Answered steps make an answered run. -/
theorem exec_answered {see : ω → Option ω'} {R : σ → τ → Prop} {last : σ}
    (step : ∀ {s t a s' o}, R s t → M.step s a = some (s', o) → M.Reaches s' last →
      ∃ bs t', N.exec t bs = some (t', o.filterMap see) ∧ R s' t')
    {as : List α} {s : σ} {t : τ} {os : List ω} (h : R s t) (he : M.exec s as = some (last, os)) :
    ∃ bs t', N.exec t bs = some (t', os.filterMap see) ∧ R last t' := by
  induction as generalizing s t os with
  | nil =>
    obtain ⟨rfl, rfl⟩ := Prod.mk.injEq .. ▸ Option.some.inj he
    exact ⟨[], t, rfl, h⟩
  | cons a as ih =>
    obtain ⟨r, q, hr, hq, rfl⟩ := exec_cons he
    obtain ⟨bs, t₁, hbs, h₁⟩ := step h hr ⟨as, q, hq⟩
    obtain ⟨bs', t', hbs', h'⟩ := ih h₁ hq
    exact ⟨bs ++ bs', t', by rw [List.filterMap_append]; exact exec_append_of hbs hbs', h'⟩

end AliceBridge.Lib.Run.Machine
