import Mathlib.Data.List.Nodup
import Mathlib.Data.List.Sort

/-! # Tables with a primary key

A table is a list of rows whose keys differ; the order means nothing. The
operations are the SQL statements `INSERT`, `UPDATE`, `DELETE` and
`INSERT … ON CONFLICT` on the key, and keep the keys different. What the rows are
afterwards is said by `mem_update` and `mem_upsert`. -/
namespace AliceBridge.Lib

structure Table {ρ κ : Type*} (key : ρ → κ) where
  rows : List ρ
  nodup : (rows.map key).Nodup

namespace Table

variable {ρ κ : Type*} {key : ρ → κ}

def empty : Table key := ⟨[], List.nodup_nil⟩

theorem eq_of_key (t : Table key) {x y : ρ} (hx : x ∈ t.rows) (hy : y ∈ t.rows)
    (h : key x = key y) : x = y :=
  List.inj_on_of_nodup_map t.nodup hx hy h

/-- Columns that `f` leaves alone are the same after `f` is applied to some rows. -/
theorem map_ite_column {γ : Type*} {g : ρ → γ} {p : ρ → Bool} {f : ρ → ρ} (hg : ∀ x, g (f x) = g x)
    (rows : List ρ) : (rows.map fun x => if p x then f x else x).map g = rows.map g := by
  rw [List.map_map]
  refine List.map_congr_left fun x _ => ?_
  simp only [Function.comp]
  split
  · exact hg x
  · rfl

/-- `UPDATE … SET f WHERE p`. -/
def update (t : Table key) (p : ρ → Bool) (f : ρ → ρ) (hf : ∀ x, key (f x) = key x) :
    Table key where
  rows := t.rows.map fun x => if p x then f x else x
  nodup := by
    rw [map_ite_column hf]
    exact t.nodup

theorem update_column_nodup {γ : Type*} {g : ρ → γ} {t : Table key} {p : ρ → Bool} {f : ρ → ρ}
    {hf : ∀ x, key (f x) = key x} (hg : ∀ x, g (f x) = g x) (h : (t.rows.map g).Nodup) :
    ((t.update p f hf).rows.map g).Nodup := by
  rw [update, map_ite_column hg]
  exact h

theorem mem_update {t : Table key} {p : ρ → Bool} {f : ρ → ρ} {hf : ∀ x, key (f x) = key x}
    {x : ρ} : x ∈ (t.update p f hf).rows ↔ ∃ y ∈ t.rows, (if p y then f y else y) = x :=
  List.mem_map

theorem column_update {γ : Type*} {g : ρ → γ} {t : Table key} {p : ρ → Bool} {f : ρ → ρ}
    {hf : ∀ x, key (f x) = key x} {x : ρ} (hg : ∀ x, g (f x) = g x) (hx : x ∈ t.rows) :
    ∃ y ∈ (t.update p f hf).rows, g y = g x := by
  refine ⟨if p x then f x else x, mem_update.mpr ⟨x, hx, rfl⟩, ?_⟩
  split
  · exact hg x
  · rfl

variable [DecidableEq κ]

def find? (t : Table key) (k : κ) : Option ρ := t.rows.find? fun x => key x = k

theorem find?_eq_some {t : Table key} {k : κ} {x : ρ} :
    t.find? k = some x ↔ x ∈ t.rows ∧ key x = k := by
  constructor
  · intro h
    exact ⟨List.mem_of_find?_eq_some h, by simpa using List.find?_some h⟩
  · rintro ⟨hx, rfl⟩
    cases hf : t.find? (key x) with
    | none => simpa using List.find?_eq_none.mp hf x hx
    | some y =>
      have hy : key y = key x := by simpa using List.find?_some hf
      rw [t.eq_of_key (List.mem_of_find?_eq_some hf) hx hy]

theorem find?_eq_none {t : Table key} {k : κ} : t.find? k = none ↔ ∀ x ∈ t.rows, key x ≠ k := by
  simp [find?]

/-- `INSERT`; no result on a key that is there. -/
def insert? (t : Table key) (r : ρ) : Option (Table key) :=
  if h : key r ∈ t.rows.map key then none else some ⟨r :: t.rows, List.nodup_cons.mpr ⟨h, t.nodup⟩⟩

/-- `INSERT … ON CONFLICT (key) DO UPDATE SET f`. -/
def upsert (t : Table key) (r : ρ) (f : ρ → ρ) (hf : ∀ x, key (f x) = key x) : Table key :=
  if h : key r ∈ t.rows.map key then t.update (fun x => key x = key r) f hf
  else ⟨r :: t.rows, List.nodup_cons.mpr ⟨h, t.nodup⟩⟩

theorem upsert_rows {t : Table key} {r : ρ} {f : ρ → ρ} {hf : ∀ x, key (f x) = key x} :
    (t.upsert r f hf).rows = if key r ∈ t.rows.map key then
      t.rows.map (fun x => if key x = key r then f x else x) else r :: t.rows := by
  unfold upsert
  split
  · simp [update]
  · rfl

/-- The rows with other keys stay, in their order. -/
theorem upsert_others {t : Table key} {r : ρ} {f : ρ → ρ} {hf : ∀ x, key (f x) = key x} {k : κ}
    (hk : key r = k) :
    (t.upsert r f hf).rows.filter (fun x => key x ≠ k) = t.rows.filter (fun x => key x ≠ k) := by
  subst hk
  rw [upsert_rows]
  split
  · rw [List.filter_map]
    have hsame : t.rows.filter ((fun x => decide (key x ≠ key r)) ∘ fun x =>
        if key x = key r then f x else x) = t.rows.filter fun x => key x ≠ key r := by
      refine List.filter_congr fun x _ => ?_
      dsimp only [Function.comp]
      split
      · rw [hf]
      · rfl
    rw [hsame]
    refine (List.map_congr_left fun x hx => ?_).trans (List.map_id _)
    rw [if_neg (by simpa using (List.mem_filter.mp hx).2)]
    rfl
  · rw [List.filter_cons_of_neg (by simp)]

theorem mem_upsert {t : Table key} {r x : ρ} {f : ρ → ρ} {hf : ∀ x, key (f x) = key x} :
    x ∈ (t.upsert r f hf).rows ↔ (x ∈ t.rows ∧ key x ≠ key r) ∨
      (x = r ∧ ∀ y ∈ t.rows, key y ≠ key r) ∨ ∃ y ∈ t.rows, key y = key r ∧ f y = x := by
  unfold upsert
  split
  next h =>
    obtain ⟨z, hz, hzk⟩ := List.mem_map.mp h
    rw [mem_update]
    constructor
    · rintro ⟨y, hy, rfl⟩
      by_cases hk : key y = key r
      · exact .inr (.inr ⟨y, hy, hk, by simp [hk]⟩)
      · exact .inl (by simpa [hk] using hy)
    · rintro (⟨hx, hk⟩ | ⟨_, hno⟩ | ⟨y, hy, hk, rfl⟩)
      · exact ⟨x, hx, by simp [hk]⟩
      · exact absurd hzk (hno z hz)
      · exact ⟨y, hy, by simp [hk]⟩
  next h =>
    have hno : ∀ y ∈ t.rows, key y ≠ key r := fun y hy hk => h (List.mem_map.mpr ⟨y, hy, hk⟩)
    rw [List.mem_cons]
    constructor
    · rintro (rfl | hx)
      · exact .inr (.inl ⟨rfl, hno⟩)
      · exact .inl ⟨hx, hno x hx⟩
    · rintro (⟨hx, _⟩ | ⟨rfl, _⟩ | ⟨y, hy, hk, _⟩)
      · exact .inr hx
      · exact .inl rfl
      · exact absurd hk (hno y hy)

/-- A row keeps the columns `f` leaves alone. -/
theorem column_upsert {γ : Type*} {g : ρ → γ} {t : Table key} {r x : ρ} {f : ρ → ρ}
    {hf : ∀ x, key (f x) = key x} (hg : ∀ x, g (f x) = g x) (hx : x ∈ t.rows) :
    ∃ y ∈ (t.upsert r f hf).rows, g y = g x := by
  by_cases hk : key x = key r
  · exact ⟨f x, mem_upsert.mpr (.inr (.inr ⟨x, hx, hk, rfl⟩)), hg x⟩
  · exact ⟨x, mem_upsert.mpr (.inl ⟨hx, hk⟩), rfl⟩

/-- Another unique column stays so if the new row brings a new value. -/
theorem upsert_column_nodup {γ : Type*} {g : ρ → γ} {t : Table key} {r : ρ} {f : ρ → ρ}
    {hf : ∀ x, key (f x) = key x} (hg : ∀ x, g (f x) = g x) (hr : g r ∉ t.rows.map g)
    (h : (t.rows.map g).Nodup) : ((t.upsert r f hf).rows.map g).Nodup := by
  unfold upsert
  split
  · exact update_column_nodup hg h
  · exact List.nodup_cons.mpr ⟨hr, h⟩

/-- `DELETE … WHERE p`. -/
def delete (t : Table key) (p : ρ → Bool) : Table key where
  rows := t.rows.filter fun x => !p x
  nodup := t.nodup.sublist (List.filter_sublist.map key)

theorem find?_delete {t : Table key} {k k' : κ} :
    (t.delete fun x => decide (key x = k)).find? k' = if k' = k then none else t.find? k' := by
  split
  · next hk =>
    refine find?_eq_none.mpr fun x hx hkey => ?_
    have hkept := (List.mem_filter.mp hx).2
    simp [hkey, hk] at hkept
  · next hk =>
    cases hf : t.find? k' with
    | none =>
      exact find?_eq_none.mpr fun x hx => find?_eq_none.mp hf x (List.mem_filter.mp hx).1
    | some y =>
      obtain ⟨hy, rfl⟩ := find?_eq_some.mp hf
      exact find?_eq_some.mpr ⟨List.mem_filter.mpr ⟨hy, by simpa using hk⟩, rfl⟩

theorem find?_upsert {t : Table key} {r : ρ} {f : ρ → ρ} {hf : ∀ x, key (f x) = key x} {k : κ} :
    (t.upsert r f hf).find? k =
      if k = key r then some (((t.find? k).map f).getD r) else t.find? k := by
  split
  · next hk =>
    subst hk
    cases hfind : t.find? (key r) with
    | none =>
      refine find?_eq_some.mpr ⟨mem_upsert.mpr (.inr (.inl ⟨rfl, ?_⟩)), rfl⟩
      exact find?_eq_none.mp hfind
    | some y =>
      obtain ⟨hy, hkey⟩ := find?_eq_some.mp hfind
      refine find?_eq_some.mpr ⟨mem_upsert.mpr (.inr (.inr ⟨y, hy, hkey, rfl⟩)), ?_⟩
      exact (hf y).trans hkey
  · next hk =>
    cases hfind : t.find? k with
    | none =>
      refine find?_eq_none.mpr fun x hx hkey => ?_
      have hno := find?_eq_none.mp hfind
      rcases mem_upsert.mp hx with ⟨hx, _⟩ | ⟨rfl, _⟩ | ⟨y, hy, hyr, rfl⟩
      · exact hno x hx hkey
      · exact hk hkey.symm
      · exact hk (hkey.symm.trans ((hf y).trans hyr))
    | some y =>
      obtain ⟨hy, rfl⟩ := find?_eq_some.mp hfind
      exact find?_eq_some.mpr ⟨mem_upsert.mpr (.inl ⟨hy, hk⟩), rfl⟩

theorem find?_update {t : Table key} {p : ρ → Bool} {f : ρ → ρ} {hf : ∀ x, key (f x) = key x}
    {k : κ} : (t.update p f hf).find? k = (t.find? k).map fun x => if p x then f x else x := by
  have hkey (x : ρ) : key (if p x then f x else x) = key x := by
    split
    · exact hf x
    · rfl
  cases hfind : t.find? k with
  | none =>
    refine find?_eq_none.mpr fun x hx => ?_
    obtain ⟨y, hy, rfl⟩ := mem_update.mp hx
    rw [hkey]
    exact find?_eq_none.mp hfind y hy
  | some y =>
    obtain ⟨hy, rfl⟩ := find?_eq_some.mp hfind
    exact find?_eq_some.mpr ⟨mem_update.mpr ⟨y, hy, rfl⟩, hkey y⟩

theorem find?_insert? {t t' : Table key} {r : ρ} (h : t.insert? r = some t') {k : κ} :
    t'.find? k = if k = key r then some r else t.find? k := by
  unfold insert? at h
  split at h
  · cases h
  · obtain rfl := Option.some.inj h
    by_cases hk : key r = k
    · simp [find?, hk]
    · simp [find?, hk, Ne.symm hk]

/-- An inserted row has a new key. -/
theorem find?_of_insert? {t t' : Table key} {r : ρ} (h : t.insert? r = some t') :
    t.find? (key r) = none := by
  unfold insert? at h
  split at h
  · cases h
  next hnew => exact find?_eq_none.mpr fun x hx hk => hnew (List.mem_map.mpr ⟨x, hx, hk⟩)

/-! ## A condition on the row in conflict -/

/-- `INSERT … ON CONFLICT (key) DO UPDATE SET f WHERE p`; no result is no row affected. -/
def upsertWhere (t : Table key) (r : ρ) (p : ρ → Bool) (f : ρ → ρ)
    (hf : ∀ x, key (f x) = key x) : Option (Table key) :=
  if (t.find? (key r)).all p then some (t.upsert r f hf) else none

theorem upsertWhere_spec {t t' : Table key} {r : ρ} {p : ρ → Bool} {f : ρ → ρ}
    {hf : ∀ x, key (f x) = key x} (h : t.upsertWhere r p f hf = some t') :
    t' = t.upsert r f hf ∧ ∀ y ∈ t.rows, key y = key r → p y = true := by
  unfold upsertWhere at h
  split at h
  next hall =>
    refine ⟨(Option.some.inj h).symm, fun y hy hk => ?_⟩
    rw [find?_eq_some.mpr ⟨hy, hk⟩] at hall
    exact hall
  next => cases h

/-! ## The order of a query -/

omit [DecidableEq κ] in
/-- `ORDER BY` on a key: the one list of these rows in that order. -/
theorem insertionSort_of_perm (key : ρ → κ) {r : ρ → ρ → Prop} [DecidableRel r] [Std.Total r]
    [IsTrans ρ r] (hr : ∀ x y, r x y → r y x → key x = key y) {rows sorted : List ρ}
    (hperm : rows.Perm sorted) (hnodup : (sorted.map key).Nodup) (hsorted : sorted.Pairwise r) :
    rows.insertionSort r = sorted := by
  have hsame := (List.perm_insertionSort r rows).trans hperm
  refine List.Perm.eq_of_pairwise ?_ (List.pairwise_insertionSort r rows) hsorted hsame
  intro x y hx hy hxy hyx
  exact List.inj_on_of_nodup_map hnodup (hsame.subset hx) hy (hr x y hxy hyx)

end Table
end AliceBridge.Lib
