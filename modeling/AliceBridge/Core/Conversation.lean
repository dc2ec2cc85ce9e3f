import Mathlib.Data.List.Sort
import AliceBridge.Lib.Utf8

/-! # The conversation store

The tables `messages` and `summaries` and the statements of `store_pg.rs` on
them, over any type of contents. The committed rows are kept in the order of
their ids, the order of every query. `record_exchange` draws its two ids from
the sequence of the table when the inserts execute and shows both rows at its
commit, so a row can appear below rows that are there already. -/
namespace AliceBridge.Core.Conversation
open AliceBridge.Lib.Utf8

/-- A key of `messages`: `BIGSERIAL`, from 1. -/
abbrev MessageId := Nat

inductive MessageRole where
  | user
  | assistant
deriving DecidableEq, Repr

structure Row (τ : Type*) where
  id : MessageId
  profile : Text
  role : MessageRole
  content : τ
  costMicros : Int
  createdAt : Nat
deriving DecidableEq, Repr

structure Summary (τ : Type*) where
  content : τ
  coversUntilMessageId : MessageId
deriving DecidableEq, Repr

structure ExchangeRecord (τ : Type*) where
  profile : Text
  userText : τ
  assistantText : τ
  costMicros : Int
deriving DecidableEq, Repr

structure UsageStats where
  requests : Nat
  costMicros : Int
deriving DecidableEq, Repr

section Tables

variable {τ : Type*}

/-- `ORDER BY id`. -/
def Row.before (a b : Row τ) : Prop := a.id ≤ b.id

instance (a b : Row τ) : Decidable (a.before b) := inferInstanceAs (Decidable (a.id ≤ b.id))
instance : Std.Total (Row.before (τ := τ)) := ⟨fun a b => Nat.le_total a.id b.id⟩
instance : IsTrans (Row τ) Row.before := ⟨fun _ _ _ => Nat.le_trans⟩

structure Store (τ : Type*) where
  rows : List (Row τ)
  summaries : Text → Option (Summary τ)
  /-- The last value of the sequence of ids. -/
  lastId : MessageId
  ordered : rows.Pairwise Row.before

def Store.empty : Store τ := ⟨[], fun _ => none, 0, .nil⟩

/-! ## Statements -/

/-- `nextval`, which no rollback undoes. -/
def Store.drawId (store : Store τ) : Store τ := { store with lastId := store.lastId + 1 }

def Store.insert (store : Store τ) (row : Row τ) : Store τ :=
  { store with
    rows := store.rows.orderedInsert Row.before row
    ordered := store.ordered.orderedInsert row _ }

/-- The commit of `record_exchange` with the ids its inserts drew. -/
def Store.commitExchange (store : Store τ) (exchange : ExchangeRecord τ)
    (userId assistantId : MessageId) (createdAt : Nat) : Store τ :=
  (store.insert
    { id := userId
      profile := exchange.profile
      role := .user
      content := exchange.userText
      costMicros := 0
      createdAt := createdAt }).insert
    { id := assistantId
      profile := exchange.profile
      role := .assistant
      content := exchange.assistantText
      costMicros := exchange.costMicros
      createdAt := createdAt }

def Store.profileRows (store : Store τ) (profile : Text) : List (Row τ) :=
  store.rows.filter fun row => row.profile == profile

def Store.recentMessages (store : Store τ) (profile : Text) (limit : Nat) : List (Row τ) :=
  ((store.profileRows profile).reverse.take limit).reverse

/-- `COALESCE((SELECT covers_until_message_id ...), 0)`. -/
def Store.coversUntil (store : Store τ) (profile : Text) : MessageId :=
  ((store.summaries profile).map Summary.coversUntilMessageId).getD 0

def Store.unsummarized (store : Store τ) (profile : Text) (keepLast : Nat) : List (Row τ) :=
  let rows := (store.profileRows profile).filter fun row => store.coversUntil profile < row.id
  rows.take (rows.length - keepLast)

def Store.setSummary (store : Store τ) (profile : Text) (summary : Option (Summary τ)) :
    Store τ :=
  { store with summaries := fun p => if p = profile then summary else store.summaries p }

def Store.upsertSummary (store : Store τ) (profile : Text) (summary : Summary τ) : Store τ :=
  store.setSummary profile (some summary)

/-- What the two statements of `clear_profile` deleted, at its commit. -/
def Store.delete (store : Store τ) (profile : Text) (ids : List MessageId) (summary : Bool) :
    Store τ :=
  let store' : Store τ :=
    { store with
      rows := store.rows.filter fun row => !ids.contains row.id
      ordered := store.ordered.filter _ }
  if summary then store'.setSummary profile none else store'

def Store.usageSince (store : Store τ) (since : Nat) : UsageStats :=
  let rows := store.rows.filter fun row => decide (since ≤ row.createdAt)
  { requests := rows.countP fun row => decide (row.role = .assistant)
    costMicros := rows.foldl (fun sum row => sum + row.costMicros) 0 }

/-- The id a summary of these rows covers up to: `max().unwrap_or(0)`. -/
def lastOfRows (rows : List (Row τ)) : MessageId := ((rows.map Row.id).max?).getD 0

/-! ## What the statements leave and return -/

variable {store : Store τ} {row row' : Row τ} {profile other : Text} {ids : List MessageId}

@[simp] theorem Store.drawId_rows : store.drawId.rows = store.rows := rfl
@[simp] theorem Store.drawId_summaries : store.drawId.summaries = store.summaries := rfl
@[simp] theorem Store.insert_summaries : (store.insert row).summaries = store.summaries := rfl
@[simp] theorem Store.insert_lastId : (store.insert row).lastId = store.lastId := rfl
@[simp] theorem Store.setSummary_rows {summary : Option (Summary τ)} :
    (store.setSummary profile summary).rows = store.rows := rfl
@[simp] theorem Store.setSummary_lastId {summary : Option (Summary τ)} :
    (store.setSummary profile summary).lastId = store.lastId := rfl
@[simp] theorem Store.setSummary_self {summary : Option (Summary τ)} :
    (store.setSummary profile summary).summaries profile = summary := if_pos rfl

theorem Store.setSummary_other {summary : Option (Summary τ)} (h : other ≠ profile) :
    (store.setSummary profile summary).summaries other = store.summaries other := if_neg h

@[simp] theorem Store.mem_insert :
    row' ∈ (store.insert row).rows ↔ row' = row ∨ row' ∈ store.rows :=
  List.mem_orderedInsert _

/-- The two rows of an exchange appear, and nothing else changes. -/
theorem Store.mem_commitExchange {exchange : ExchangeRecord τ} {userId assistantId : MessageId}
    {createdAt : Nat}
    (h : row ∈ (store.commitExchange exchange userId assistantId createdAt).rows) :
    row ∈ store.rows ∨ row.profile = exchange.profile ∧
      (row.id = userId ∧ row.content = exchange.userText ∨
        row.id = assistantId ∧ row.content = exchange.assistantText) := by
  unfold Store.commitExchange at h
  rw [Store.mem_insert, Store.mem_insert] at h
  rcases h with rfl | rfl | h
  · exact .inr ⟨rfl, .inr ⟨rfl, rfl⟩⟩
  · exact .inr ⟨rfl, .inl ⟨rfl, rfl⟩⟩
  · exact .inl h

@[simp] theorem Store.commitExchange_summaries {exchange : ExchangeRecord τ}
    {userId assistantId : MessageId} {createdAt : Nat} :
    (store.commitExchange exchange userId assistantId createdAt).summaries = store.summaries := rfl

@[simp] theorem Store.mem_profileRows :
    row ∈ store.profileRows profile ↔ row ∈ store.rows ∧ row.profile = profile := by
  simp [Store.profileRows]

theorem Store.mem_recentMessages {limit : Nat} (h : row ∈ store.recentMessages profile limit) :
    row ∈ store.rows ∧ row.profile = profile := by
  have hrev := List.mem_of_mem_take (List.mem_reverse.mp h)
  exact Store.mem_profileRows.mp (List.mem_reverse.mp hrev)

theorem Store.mem_unsummarized {keepLast : Nat}
    (h : row ∈ store.unsummarized profile keepLast) : row ∈ store.rows ∧ row.profile = profile :=
  Store.mem_profileRows.mp (List.mem_filter.mp (List.mem_of_mem_take h)).1

theorem Store.mem_delete {summary : Bool} :
    row ∈ (store.delete profile ids summary).rows ↔ row ∈ store.rows ∧ row.id ∉ ids := by
  unfold Store.delete
  cases summary <;> simp

theorem Store.delete_summaries {summary : Bool} :
    (store.delete profile ids summary).summaries other =
      if summary = true ∧ other = profile then none else store.summaries other := by
  unfold Store.delete
  cases summary <;> simp [Store.setSummary]

/-- A message of the profile is covered already, is selected, or lies above all that are. -/
theorem Store.unsummarized_spec (keepLast : Nat) (h : row ∈ store.rows)
    (hprofile : row.profile = profile) :
    row.id ≤ store.coversUntil profile ∨ row ∈ store.unsummarized profile keepLast ∨
      ∀ selected ∈ store.unsummarized profile keepLast, selected.id ≤ row.id := by
  by_cases hcovered : row.id ≤ store.coversUntil profile
  · exact .inl hcovered
  · right
    let rows := (store.profileRows profile).filter fun r => store.coversUntil profile < r.id
    have hmem : row ∈ rows := by
      rw [List.mem_filter, Store.mem_profileRows]
      exact ⟨⟨h, hprofile⟩, by simpa using hcovered⟩
    have hordered : rows.Pairwise Row.before := (store.ordered.filter _).filter _
    rw [← List.take_append_drop (rows.length - keepLast) rows] at hmem hordered
    rcases List.mem_append.mp hmem with hmem | hmem
    · exact .inl hmem
    · refine .inr fun selected hselected => ?_
      exact (List.pairwise_append.mp hordered).2.2 selected hselected row hmem

/-- The rows lie below an id exactly when `lastOfRows` does. -/
theorem lastOfRows_lt {rows : List (Row τ)} {id : MessageId} :
    lastOfRows rows < id ↔ 0 < id ∧ ∀ row ∈ rows, row.id < id := by
  unfold lastOfRows
  cases hmax : (rows.map Row.id).max? with
  | none =>
    have hnil : rows = [] := by simpa using List.max?_eq_none_iff.mp hmax
    simp [hnil]
  | some last =>
    obtain ⟨hlast, hle⟩ := List.max?_eq_some_iff.mp hmax
    obtain ⟨row, hrow, rfl⟩ := List.mem_map.mp hlast
    constructor
    · intro h
      refine ⟨Nat.zero_lt_of_lt h, fun other hother => ?_⟩
      exact Nat.lt_of_le_of_lt (hle _ (List.mem_map_of_mem hother)) h
    · intro h
      exact h.2 row hrow

end Tables

end AliceBridge.Core.Conversation
