import Mathlib.Data.List.Basic

/-! # Machines with observations

A machine is a partial step function: an action is enabled when it has a result,
and a step emits observations. A run is a list of actions; `exec` gives the state
and the observations it ends with, `Along C` says that every step of it meets a
condition on the state it leaves, `Always I` that `I` holds at every state it
passes. The rules here package the inductions on runs. -/
namespace AliceBridge.Lib.Run

structure Machine (σ α ω : Type*) where
  step : σ → α → Option (σ × List ω)

namespace Machine

variable {σ α ω : Type*} (M : Machine σ α ω)

def exec : σ → List α → Option (σ × List ω)
  | s, [] => some (s, [])
  | s, a :: as => (M.step s a).bind fun r => (exec r.1 as).map fun q => (q.1, r.2 ++ q.2)

def Along (C : σ → α → Prop) : σ → List α → Prop
  | _, [] => True
  | s, a :: as => C s a ∧ ∀ r, M.step s a = some r → Along C r.1 as

def Always (I : σ → List ω → Prop) : σ → List ω → List α → Prop
  | s, os, [] => I s os
  | s, os, a :: as => I s os ∧ ∀ r, M.step s a = some r → Always I r.1 (os ++ r.2) as

instance Along.decidable (C : σ → α → Prop) [∀ s a, Decidable (C s a)] :
    ∀ s as, Decidable (M.Along C s as)
  | _, [] => isTrue trivial
  | s, a :: as =>
    match h : M.step s a with
    | none => decidable_of_iff (C s a) (by rw [Along, h]; simp)
    | some r =>
      letI := Along.decidable C r.1 as
      decidable_of_iff (C s a ∧ M.Along C r.1 as) (by rw [Along, h]; simp)

instance Always.decidable (I : σ → List ω → Prop) [∀ s os, Decidable (I s os)] :
    ∀ s os as, Decidable (M.Always I s os as)
  | s, os, [] => inferInstanceAs (Decidable (I s os))
  | s, os, a :: as =>
    match h : M.step s a with
    | none => decidable_of_iff (I s os) (by rw [Always, h]; simp)
    | some r =>
      letI := Always.decidable I r.1 (os ++ r.2) as
      decidable_of_iff (I s os ∧ M.Always I r.1 (os ++ r.2) as) (by rw [Always, h]; simp)

variable {M}

theorem exec_cons {s s' : σ} {a : α} {as : List α} {os : List ω}
    (h : M.exec s (a :: as) = some (s', os)) :
    ∃ r q, M.step s a = some r ∧ M.exec r.1 as = some (s', q) ∧ os = r.2 ++ q := by
  simp only [exec] at h
  obtain ⟨r, hr, hrest⟩ := Option.bind_eq_some_iff.mp h
  obtain ⟨⟨s'', q⟩, hq, he⟩ := Option.map_eq_some_iff.mp hrest
  obtain ⟨rfl, rfl⟩ := Prod.mk.injEq .. ▸ he
  exact ⟨r, q, hr, hq, rfl⟩

theorem exec_cons_of {s s' : σ} {a : α} {as : List α} {r : σ × List ω} {q : List ω}
    (hr : M.step s a = some r) (hq : M.exec r.1 as = some (s', q)) :
    M.exec s (a :: as) = some (s', r.2 ++ q) := by
  simp [exec, hr, hq]

theorem exec_append_of {s m s' : σ} {as bs : List α} {q r : List ω}
    (h₁ : M.exec s as = some (m, q)) (h₂ : M.exec m bs = some (s', r)) :
    M.exec s (as ++ bs) = some (s', q ++ r) := by
  induction as generalizing s q with
  | nil =>
    obtain ⟨rfl, rfl⟩ := Prod.mk.injEq .. ▸ Option.some.inj h₁
    exact h₂
  | cons a as ih =>
    obtain ⟨p, q', hp, hq', rfl⟩ := exec_cons h₁
    rw [List.append_assoc]
    exact exec_cons_of hp (ih hq')

theorem Along.mono {C D : σ → α → Prop} (h : ∀ s a, C s a → D s a) :
    ∀ {s : σ} {as : List α}, M.Along C s as → M.Along D s as
  | _, [], _ => trivial
  | _, _ :: _, ⟨hc, hrest⟩ => ⟨h _ _ hc, fun r hr => Along.mono h (hrest r hr)⟩

theorem Along.and {C D : σ → α → Prop} :
    ∀ {s : σ} {as : List α}, M.Along C s as → M.Along D s as →
      M.Along (fun s a => C s a ∧ D s a) s as
  | _, [], _, _ => trivial
  | _, _ :: _, ⟨hc, hcs⟩, ⟨hd, hds⟩ => ⟨⟨hc, hd⟩, fun r hr => (hcs r hr).and (hds r hr)⟩

theorem Along.prefix {C : σ → α → Prop} {s : σ} {as bs : List α} (h : M.Along C s (as ++ bs)) :
    M.Along C s as := by
  induction as generalizing s with
  | nil => trivial
  | cons a as ih => exact ⟨h.1, fun r hr => ih (h.2 r hr)⟩

theorem Along.suffix {C : σ → α → Prop} {s m : σ} {as bs : List α} {q : List ω}
    (h : M.Along C s (as ++ bs)) (he : M.exec s as = some (m, q)) : M.Along C m bs := by
  induction as generalizing s q with
  | nil =>
    obtain ⟨rfl, rfl⟩ := Prod.mk.injEq .. ▸ Option.some.inj he
    exact h
  | cons a as ih =>
    obtain ⟨r, q', hr, hq', rfl⟩ := exec_cons he
    exact ih (h.2 r hr) hq'

theorem Along.append {C : σ → α → Prop} {s m : σ} {as bs : List α} {q : List ω}
    (h : M.Along C s as) (he : M.exec s as = some (m, q)) (h' : M.Along C m bs) :
    M.Along C s (as ++ bs) := by
  induction as generalizing s q with
  | nil =>
    obtain ⟨rfl, rfl⟩ := Prod.mk.injEq .. ▸ Option.some.inj he
    exact h'
  | cons a as ih =>
    obtain ⟨r, q', hr, hq', rfl⟩ := exec_cons he
    refine ⟨h.1, fun r' hr' => ?_⟩
    obtain rfl := Option.some.inj (hr.symm.trans hr')
    exact ih (h.2 r hr) hq'

/-! ## Invariants of runs -/

/-- What one step preserves, a run preserves. -/
theorem exec_invariant {C : σ → α → Prop} (I : σ → List ω → Prop)
    (step : ∀ {s os a s' o}, I s os → C s a → M.step s a = some (s', o) → I s' (os ++ o)) :
    ∀ {s s' : σ} {os₀ os : List ω} {as : List α}, I s os₀ → M.Along C s as →
      M.exec s as = some (s', os) → I s' (os₀ ++ os)
  | s, s', os₀, os, [], h, _, he => by
    obtain ⟨rfl, rfl⟩ := Prod.mk.injEq .. ▸ Option.some.inj he
    simpa using h
  | s, s', os₀, os, a :: as, h, hc, he => by
    obtain ⟨r, q, hr, hq, rfl⟩ := exec_cons he
    have hr' : I r.1 (os₀ ++ r.2) := step h hc.1 hr
    simpa using exec_invariant I step hr' (hc.2 r hr) hq

/-- What an invariant makes of the condition on the steps, all steps of the run meet. -/
theorem Along.of_invariant {C D : σ → α → Prop} {I : σ → Prop}
    (keep : ∀ {s a s' o}, I s → C s a → M.step s a = some (s', o) → I s')
    (gives : ∀ {s a}, I s → C s a → D s a) :
    ∀ {s : σ} {as : List α}, I s → M.Along C s as → M.Along D s as
  | _, [], _, _ => trivial
  | _, _ :: _, h, ⟨hc, hrest⟩ =>
    ⟨gives h hc, fun r hr => Along.of_invariant keep gives (keep h hc hr) (hrest r hr)⟩

/-- What every action of a run meets, its steps meet. -/
theorem Along.of_forall {C : α → Prop} :
    ∀ {s : σ} {as : List α}, (∀ a ∈ as, C a) → M.Along (fun _ a => C a) s as
  | _, [], _ => trivial
  | _, _ :: _, h => ⟨h _ List.mem_cons_self, fun _ _ =>
      Along.of_forall fun a ha => h a (List.mem_cons_of_mem _ ha)⟩

/-- Every run meets the condition that asks nothing. -/
theorem Along.free (s : σ) (as : List α) : M.Along (fun _ _ => True) s as :=
  Along.of_forall fun _ _ => trivial

/-- The rule without a condition on the steps and without earlier observations. -/
theorem exec_invariant_free (I : σ → List ω → Prop)
    (step : ∀ {s os a s' o}, I s os → M.step s a = some (s', o) → I s' (os ++ o))
    {s s' : σ} {os : List ω} {as : List α} (h : I s []) (he : M.exec s as = some (s', os)) :
    I s' os :=
  exec_invariant I (fun h _ hs => step h hs) h (Along.free s as) he

/-- An invariant of the state alone. -/
theorem exec_state_invariant {C : σ → α → Prop} {I : σ → Prop}
    (step : ∀ {s a s' o}, I s → C s a → M.step s a = some (s', o) → I s')
    {s s' : σ} {os : List ω} {as : List α} (h : I s) (hc : M.Along C s as)
    (he : M.exec s as = some (s', os)) : I s' :=
  @exec_invariant σ α ω M C (fun s _ => I s) (fun hI hC hs => step hI hC hs) s s' [] os as h hc he

/-- A machine that matches every step of another, with the same observations, matches its
runs. `C` is what the actions may be. -/
theorem exec_simulation {τ : Type*} {N : Machine τ α ω} {C : α → Prop} {R : σ → τ → Prop}
    (step : ∀ {s t a s' o}, R s t → C a → M.step s a = some (s', o) →
      ∃ t', N.step t a = some (t', o) ∧ R s' t')
    {s s' : σ} {t : τ} {os : List ω} {as : List α} (h : R s t) (hc : ∀ a ∈ as, C a)
    (he : M.exec s as = some (s', os)) : ∃ t', N.exec t as = some (t', os) ∧ R s' t' := by
  induction as generalizing s t os with
  | nil =>
    obtain ⟨rfl, rfl⟩ := Prod.mk.injEq .. ▸ Option.some.inj he
    exact ⟨t, rfl, h⟩
  | cons a as ih =>
    obtain ⟨r, q, hr, hq, rfl⟩ := exec_cons he
    obtain ⟨t₁, ht₁, h₁⟩ := step h (hc a List.mem_cons_self) hr
    obtain ⟨t', ht', h'⟩ := ih h₁ (fun b hb => hc b (List.mem_cons_of_mem _ hb)) hq
    exact ⟨t', exec_cons_of ht₁ ht', h'⟩

/-- What holds of every action that is enabled somewhere holds of the actions of a run. -/
theorem exec_enabled {C : α → Prop} (step : ∀ {s a r}, M.step s a = some r → C a)
    {s s' : σ} {os : List ω} {as : List α} (he : M.exec s as = some (s', os)) :
    ∀ a ∈ as, C a := by
  induction as generalizing s os with
  | nil => exact fun a ha => absurd ha List.not_mem_nil
  | cons a as ih =>
    obtain ⟨r, q, hr, hq, rfl⟩ := exec_cons he
    exact List.forall_mem_cons.mpr ⟨step hr, ih hq⟩

theorem Always.head {I : σ → List ω → Prop} {s : σ} {os : List ω} {as : List α}
    (h : M.Always I s os as) : I s os := by
  cases as with
  | nil => exact h
  | cons a as => exact h.1

/-- If a step keeps `I` exactly when it meets `C`, a run that executes keeps `I`
throughout exactly when all its steps meet `C`. `D` is what the run promises of
its steps, `J` what a step needs to know besides `I`. -/
theorem always_iff_along {C D : σ → α → Prop} {I J : σ → List ω → Prop}
    (keep : ∀ {s os a s' o}, J s os → D s a → M.step s a = some (s', o) → J s' (os ++ o))
    (exact : ∀ {s os a s' o}, J s os → I s os → D s a → M.step s a = some (s', o) →
      (I s' (os ++ o) ↔ C s a)) :
    ∀ {s s' : σ} {os₀ os : List ω} {as : List α}, J s os₀ → I s os₀ → M.Along D s as →
      M.exec s as = some (s', os) → (M.Always I s os₀ as ↔ M.Along C s as)
  | s, s', os₀, os, [], _, hi, _, _ => ⟨fun _ => trivial, fun _ => hi⟩
  | s, s', os₀, os, a :: as, hj, hi, hd, he => by
    obtain ⟨r, q, hr, hq, rfl⟩ := exec_cons he
    have hstep := exact hj hi hd.1 hr
    constructor
    · rintro ⟨_, h⟩
      refine ⟨hstep.mp (h r hr).head, fun r' hr' => ?_⟩
      obtain rfl := Option.some.inj (hr.symm.trans hr')
      exact (always_iff_along keep exact (keep hj hd.1 hr) (h r hr).head (hd.2 r hr) hq).mp (h r hr)
    · rintro ⟨hc, h⟩
      refine ⟨hi, fun r' hr' => ?_⟩
      obtain rfl := Option.some.inj (hr.symm.trans hr')
      exact (always_iff_along keep exact (keep hj hd.1 hr) (hstep.mpr hc) (hd.2 r hr) hq).mpr
        (h r hr)

/-- The same for the last state alone, when a bad state stays bad: a run ends
good exactly when all its steps meet `C`. -/
theorem last_iff_along {C : σ → α → Prop} {G J : σ → Prop}
    (keep : ∀ {s a s' o}, J s → M.step s a = some (s', o) → J s')
    (exact : ∀ {s a s' o}, J s → G s → M.step s a = some (s', o) → (G s' ↔ C s a))
    (stays : ∀ {s a s' o}, J s → ¬ G s → M.step s a = some (s', o) → ¬ G s') :
    ∀ {s s' : σ} {os : List ω} {as : List α}, J s → G s → M.exec s as = some (s', os) →
      (G s' ↔ M.Along C s as)
  | s, s', os, [], _, hg, he => by
    obtain ⟨rfl, _⟩ := Prod.mk.injEq .. ▸ Option.some.inj he
    exact ⟨fun _ => trivial, fun _ => hg⟩
  | s, s', os, a :: as, hj, hg, he => by
    obtain ⟨r, q, hr, hq, _⟩ := exec_cons he
    have hstep := exact hj hg hr
    have hrest : ∀ {r'}, M.step s a = some r' → r' = r := fun h =>
      Option.some.inj (h.symm.trans hr)
    by_cases hgood : G r.1
    · rw [last_iff_along keep exact stays (keep hj hr) hgood hq]
      exact ⟨fun h => ⟨hstep.mp hgood, fun r' hr' => hrest hr' ▸ h⟩, fun h => h.2 r hr⟩
    · have hbad : ∀ {s s' : σ} {os : List ω} {as : List α}, J s → ¬ G s →
          M.exec s as = some (s', os) → ¬ G s' := by
        intro s s' os as
        induction as generalizing s os with
        | nil =>
          intro _ hb he
          obtain ⟨rfl, _⟩ := Prod.mk.injEq .. ▸ Option.some.inj he
          exact hb
        | cons a as ih =>
          intro hj hb he
          obtain ⟨r, q, hr, hq, _⟩ := exec_cons he
          exact ih (keep hj hr) (stays hj hb hr) hq
      exact ⟨fun h => absurd h (hbad (keep hj hr) hgood hq),
        fun h => absurd (hstep.mpr h.1) hgood⟩

/-! ## Histories -/

/-- The actions of a run with the states they were taken in. -/
def history (M : Machine σ α ω) : σ → List α → List (σ × α)
  | _, [] => []
  | s, a :: as => (s, a) :: match M.step s a with
    | some r => history M r.1 as
    | none => []

theorem history_cons {s : σ} {a : α} {as : List α} {r : σ × List ω} (hr : M.step s a = some r) :
    M.history s (a :: as) = (s, a) :: M.history r.1 as := by
  simp [history, hr]

/-- What one step preserves, with the history so far at hand, a run preserves. -/
theorem exec_invariant_history {C : σ → α → Prop} (I : σ → List (σ × α) → Prop)
    (step : ∀ {s h a s' o}, I s h → C s a → M.step s a = some (s', o) → I s' (h ++ [(s, a)])) :
    ∀ {s s' : σ} {h₀ : List (σ × α)} {os : List ω} {as : List α}, I s h₀ → M.Along C s as →
      M.exec s as = some (s', os) → I s' (h₀ ++ M.history s as)
  | s, s', h₀, os, [], hI, _, he => by
    obtain ⟨rfl, rfl⟩ := Prod.mk.injEq .. ▸ Option.some.inj he
    simpa [history] using hI
  | s, s', h₀, os, a :: as, hI, hc, he => by
    obtain ⟨r, q, hr, hq, rfl⟩ := exec_cons he
    have hI' : I r.1 (h₀ ++ [(s, a)]) := step hI hc.1 hr
    have hrest := exec_invariant_history I step hI' (hc.2 r hr) hq
    rw [history_cons hr]
    simpa using hrest

/-- The run took the step `a` in the state `t`, after the observations `os`. -/
def Took (M : Machine σ α ω) (start : σ) (as : List α) (t : σ) (os : List ω) (a : α) : Prop :=
  ∃ earlier later, as = earlier ++ a :: later ∧ M.exec start earlier = some (t, os)

theorem Took.mono {start t : σ} {as : List α} {os : List ω} {a : α}
    (h : M.Took start as t os a) (more : List α) : M.Took start (as ++ more) t os a := by
  obtain ⟨earlier, later, rfl, he⟩ := h
  exact ⟨earlier, later ++ more, by simp, he⟩

/-- The step a run is about to take. -/
theorem took_last {start t : σ} {as : List α} {os : List ω} (a : α)
    (h : M.exec start as = some (t, os)) : M.Took start (as ++ [a]) t os a :=
  ⟨as, [], rfl, h⟩

/-- What one step preserves, with the run so far at hand, a run preserves. -/
theorem exec_invariant_run {C : σ → α → Prop} {start : σ} (I : List α → σ → List ω → Prop)
    (step : ∀ {as s os a s' o}, M.exec start as = some (s, os) → I as s os → C s a →
      M.step s a = some (s', o) → I (as ++ [a]) s' (os ++ o)) :
    ∀ {as₀ as : List α} {s s' : σ} {os₀ os : List ω}, M.exec start as₀ = some (s, os₀) →
      I as₀ s os₀ → M.Along C s as → M.exec s as = some (s', os) → I (as₀ ++ as) s' (os₀ ++ os)
  | as₀, [], s, s', os₀, os, _, hI, _, he => by
    obtain ⟨rfl, rfl⟩ := Prod.mk.injEq .. ▸ Option.some.inj he
    simpa using hI
  | as₀, a :: as, s, s', os₀, os, h₀, hI, hc, he => by
    obtain ⟨r, q, hr, hq, rfl⟩ := exec_cons he
    have hstep : M.exec s [a] = some (r.1, r.2) := by simp [exec, hr]
    have hI' : I (as₀ ++ [a]) r.1 (os₀ ++ r.2) := step h₀ hI hc.1 hr
    simpa using exec_invariant_run I step (exec_append_of h₀ hstep) hI' (hc.2 r hr) hq

end Machine

/-! ## Reading observations -/

variable {ω β : Type*}

/-- The last value `f` reads. -/
def lastOf (f : ω → Option β) (os : List ω) : Option β := (os.filterMap f).getLast?

@[simp] theorem lastOf_concat (f : ω → Option β) (os : List ω) (o : ω) :
    lastOf f (os ++ [o]) = (f o).or (lastOf f os) := by
  cases h : f o <;> simp [lastOf, h]

/-- `P` relates every observation to those before it. -/
def Each (P : List ω → ω → Prop) (os : List ω) : Prop :=
  ∀ before o after, os = before ++ o :: after → P before o

theorem Each.nil {P : List ω → ω → Prop} : Each P [] := by
  intro before o after h
  simp at h

theorem take_split {os : List ω} {n : Nat} {o : ω} (h : os[n]? = some o) :
    ∃ after, os = os.take n ++ o :: after := by
  obtain ⟨hlt, rfl⟩ := List.getElem?_eq_some_iff.mp h
  exact ⟨os.drop (n + 1), by rw [← List.drop_eq_getElem_cons hlt, List.take_append_drop]⟩

theorem Each.at {P : List ω → ω → Prop} {os : List ω} {n : Nat} {o : ω} (h : Each P os)
    (ho : os[n]? = some o) : P (os.take n) o := by
  obtain ⟨after, heq⟩ := take_split ho
  exact h _ _ _ heq

theorem Each.mono {P Q : List ω → ω → Prop} {os : List ω} (h : Each P os)
    (hPQ : ∀ before o, P before o → Q before o) : Each Q os :=
  fun before o after heq => hPQ before o (h before o after heq)

theorem Each.concat {P : List ω → ω → Prop} {os : List ω} {o : ω} (h : Each P os) (ho : P os o) :
    Each P (os ++ [o]) := by
  intro before x after heq
  rcases List.eq_nil_or_concat after with rfl | ⟨rest, last, rfl⟩
  · obtain ⟨rfl, hx⟩ := List.append_inj' heq rfl
    obtain rfl := List.singleton_inj.mp hx
    exact ho
  · have heq' : os ++ [o] = (before ++ x :: rest) ++ [last] := by simpa using heq
    exact h before x rest (List.append_inj' heq' rfl).1

/-- Several observations that were made together. -/
theorem Each.append {P : List ω → ω → Prop} {os os' : List ω} (h : Each P os)
    (mono : ∀ before o x, P before o → P (before ++ [x]) o) (ho : ∀ o ∈ os', P os o) :
    Each P (os ++ os') := by
  induction os' generalizing os with
  | nil => simpa using h
  | cons x os' ih =>
    have hx : Each P (os ++ [x]) := h.concat (ho x List.mem_cons_self)
    have hrest : ∀ o ∈ os', P (os ++ [x]) o :=
      fun o hmem => mono _ _ _ (ho o (List.mem_cons_of_mem _ hmem))
    simpa using ih hx hrest

/-- `o` was observed, after observations that meet `P`. -/
def Once (P : List ω → Prop) (o : ω) (os : List ω) : Prop :=
  ∃ before after, os = before ++ o :: after ∧ P before

theorem Once.at {P : List ω → Prop} {os : List ω} {n : Nat} {o : ω} (ho : os[n]? = some o)
    (h : P (os.take n)) : Once P o os := by
  obtain ⟨after, heq⟩ := take_split ho
  exact ⟨_, after, heq, h⟩

theorem once_nil {P : List ω → Prop} {o : ω} : ¬ Once P o [] := by
  rintro ⟨before, after, h, _⟩
  simp at h

theorem once_concat {P : List ω → Prop} {o x : ω} {os : List ω} :
    Once P o (os ++ [x]) ↔ Once P o os ∨ x = o ∧ P os := by
  constructor
  · rintro ⟨before, after, heq, hP⟩
    rcases List.eq_nil_or_concat after with rfl | ⟨rest, last, rfl⟩
    · obtain ⟨rfl, hx⟩ := List.append_inj' heq rfl
      exact .inr ⟨List.singleton_inj.mp hx, hP⟩
    · have heq' : os ++ [x] = (before ++ o :: rest) ++ [last] := by simpa using heq
      exact .inl ⟨before, rest, (List.append_inj' heq' rfl).1, hP⟩
  · rintro (⟨before, after, rfl, hP⟩ | ⟨rfl, hP⟩)
    · exact ⟨before, after ++ [x], by simp, hP⟩
    · exact ⟨os, [], rfl, hP⟩

end AliceBridge.Lib.Run
