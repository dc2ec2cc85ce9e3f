import Mathlib.Algebra.BigOperators.Group.List.Basic
import Mathlib.Algebra.Order.Group.Multiset

/-! # Ledgers

Items sit on accounts. A reading `f` says of an entry which item it puts on
which account, and `total f k` is the multiset of the items that a list of
entries has on the account `k`. `total_append` and `total_set` are how it changes
when entries are added and when one of them changes; `balance_iff` is the rule
for an account that has paid out, or still holds, all it took in. -/
namespace AliceBridge.Lib.Ledger

variable {ι κ β : Type*} [DecidableEq κ]

def pick (k : κ) : Option (κ × β) → Multiset β
  | some (account, item) => if account = k then {item} else 0
  | none => 0

@[simp] theorem pick_none (k : κ) : pick k (none : Option (κ × β)) = 0 := rfl

@[simp] theorem pick_self (k : κ) (item : β) : pick k (some (k, item)) = {item} := if_pos rfl

theorem pick_other {k k' : κ} (h : k' ≠ k) (item : β) : pick k (some (k', item)) = 0 := if_neg h

def total (f : ι → Option (κ × β)) (k : κ) (entries : List ι) : Multiset β :=
  (entries.map fun entry => pick k (f entry)).sum

@[simp] theorem total_nil (f : ι → Option (κ × β)) (k : κ) : total f k [] = 0 := rfl

@[simp] theorem total_cons (f : ι → Option (κ × β)) (k : κ) (x : ι) (xs : List ι) :
    total f k (x :: xs) = pick k (f x) + total f k xs := by
  simp [total]

@[simp] theorem total_append (f : ι → Option (κ × β)) (k : κ) (xs ys : List ι) :
    total f k (xs ++ ys) = total f k xs + total f k ys := by
  simp [total]

theorem total_none {f : ι → Option (κ × β)} {k : κ} {xs : List ι} (h : ∀ x ∈ xs, f x = none) :
    total f k xs = 0 := by
  induction xs with
  | nil => rfl
  | cons x xs ih =>
    rw [total_cons, h x (List.mem_cons_self ..), ih fun y hy => h y (List.mem_cons_of_mem _ hy)]
    rfl

theorem total_set (f : ι → Option (κ × β)) (k : κ) {xs : List ι} {i : Nat} {x y : ι}
    (h : xs[i]? = some x) :
    total f k (xs.set i y) + pick k (f x) = total f k xs + pick k (f y) := by
  induction xs generalizing i with
  | nil => simp at h
  | cons z zs ih =>
    cases i with
    | zero =>
      obtain rfl : z = x := by simpa using h
      rw [List.set_cons_zero, total_cons, total_cons]
      ac_rfl
    | succ i =>
      have hrest := ih (i := i) (by simpa using h)
      rw [List.set_cons_succ, total_cons, total_cons, add_assoc, hrest, add_assoc]

/-- An account that is balanced (`taken = paid + held`) stays so exactly when the
step pays out or keeps what it takes in. `entries` changes in one entry. -/
theorem balance_iff [DecidableEq β] {taken paid stored stored' entries entries' takes pays before
    after : Multiset β} (h : taken = paid + (stored + entries))
    (hset : entries' + before = entries + after) :
    taken + takes = (paid + pays) + (stored' + entries') ↔
      stored + takes + before = stored' + pays + after := by
  have hcount (item : β) := congrArg (Multiset.count item) h
  have hcount' (item : β) := congrArg (Multiset.count item) hset
  simp only [Multiset.count_add] at hcount hcount'
  rw [Multiset.ext, Multiset.ext]
  simp only [Multiset.count_add]
  refine forall_congr' fun item => ?_
  have := hcount item
  have := hcount' item
  omega

end AliceBridge.Lib.Ledger
