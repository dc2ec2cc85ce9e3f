import AliceBridge.Core.MemoryStore
import AliceBridge.Lib.Table

/-! # The conversation store on Postgres

The tables of `0001_init.sql` and the statements of `store_pg.rs`, each operation
run by itself. A table is a list of rows in no particular order: what a query
promises about order is its `ORDER BY`. A text with a zero byte cannot be bound.
Matched with the in-memory store, whose list is the table in the order of its ids. -/
namespace AliceBridge.Server.PgStore
open AliceBridge.Lib AliceBridge.Lib.Utf8 AliceBridge.Lib.Run AliceBridge.Core.MemoryStore
open AliceBridge.Lib.Json.Value (i64Max)
open AliceBridge.Core.Conversation (MessageRole ExchangeRecord UsageStats)

structure MessageRow where
  id : Int
  profile : Text
  role : Text
  content : Text
  costMicros : Int
  createdAt : Instant
deriving DecidableEq, Repr

structure SummaryRow where
  profile : Text
  content : Text
  coversUntilMessageId : Int
deriving DecidableEq, Repr

/-- The tables, and the last value of the sequence of `messages.id`. -/
structure PgStore where
  messages : Table MessageRow.id
  summaries : Table SummaryRow.profile
  sequence : Int

/-! ## Statements -/

/-- A text parameter of a statement. -/
def bindText (text : Text) : Option Text :=
  if text.contains (Char.ofNat 0) then none else some text

/-- `limit as i64`. -/
def limitAsI64 (limit : UInt64) : Int := Int.bmod limit.toNat (2 ^ 64)

/-- `LIMIT`, which must not be negative. -/
def limitClause (limit : Int) : Option Nat := if limit < 0 then none else some limit.toNat

/-- `::BIGINT`. -/
def castI64 (n : Int) : Option Int := if inI64 n then some n else none

def user : Text := "user".toList

def assistant : Text := "assistant".toList

def roleFromStr (role : Text) : MessageRole := if role = assistant then .assistant else .user

def MessageRow.message (row : MessageRow) : StoredMessage := ⟨roleFromStr row.role, row.content⟩

def SummaryRow.summary (row : SummaryRow) : Summary := ⟨row.content, row.coversUntilMessageId⟩

def MessageRow.before (a b : MessageRow) : Prop := a.id ≤ b.id

def MessageRow.after (a b : MessageRow) : Prop := b.id ≤ a.id

instance : DecidableRel MessageRow.before :=
  fun a b => inferInstanceAs (Decidable (a.id ≤ b.id))
instance : Std.Total MessageRow.before := ⟨fun a b => Int.le_total a.id b.id⟩
instance : IsTrans MessageRow MessageRow.before := ⟨fun _ _ _ => Int.le_trans⟩

instance : DecidableRel MessageRow.after :=
  fun a b => inferInstanceAs (Decidable (b.id ≤ a.id))
instance : Std.Total MessageRow.after := ⟨fun a b => Int.le_total b.id a.id⟩
instance : IsTrans MessageRow MessageRow.after := ⟨fun _ _ _ h h' => Int.le_trans h' h⟩

def orderById (rows : List MessageRow) : List MessageRow := rows.insertionSort MessageRow.before

def orderByIdDesc (rows : List MessageRow) : List MessageRow :=
  rows.insertionSort MessageRow.after

namespace PgStore

def new (sequence : Int) : PgStore := ⟨Table.empty, Table.empty, sequence⟩

/-- `INSERT INTO messages`; `now()` is the start of the transaction. -/
def insertMessage (store : PgStore) (profile role content : Text) (costMicros : Int)
    (now : Instant) : Option PgStore := do
  let profile ← bindText profile
  let content ← bindText content
  let id ← addI64 store.sequence 1
  let messages ← store.messages.insert? ⟨id, profile, role, content, costMicros, now⟩
  return { store with
    messages := messages
    sequence := id }

def recordExchange (store : PgStore) (exchange : ExchangeRecord Text) (now : Instant) :
    Option PgStore := do
  let store ← store.insertMessage exchange.profile user exchange.userText 0 now
  store.insertMessage exchange.profile assistant exchange.assistantText exchange.costMicros now

/-- `FROM messages WHERE profile = $1`. -/
def profileRows (store : PgStore) (profile : Text) : List MessageRow :=
  store.messages.rows.filter fun row => row.profile == profile

def recentMessages (store : PgStore) (profile : Text) (limit : UInt64) :
    Option (List StoredMessage) := do
  let profile ← bindText profile
  let limit ← limitClause (limitAsI64 limit)
  let rows := (orderByIdDesc (store.profileRows profile)).take limit
  return (rows.map MessageRow.message).reverse

def summary (store : PgStore) (profile : Text) : Option (Option Summary) := do
  let profile ← bindText profile
  return (store.summaries.find? profile).map SummaryRow.summary

def upsertSummary (store : PgStore) (profile : Text) (summary : Summary) : Option PgStore := do
  let profile ← bindText profile
  let content ← bindText summary.content
  let set := fun row : SummaryRow => { row with
    content := content
    coversUntilMessageId := summary.coversUntilMessageId }
  let row : SummaryRow := ⟨profile, content, summary.coversUntilMessageId⟩
  return { store with summaries := store.summaries.upsert row set fun _ => rfl }

def unsummarized (store : PgStore) (profile : Text) (keepLast : Nat) :
    Option (List (Int × StoredMessage)) := do
  let profile ← bindText profile
  let covered := ((store.summaries.find? profile).map SummaryRow.coversUntilMessageId).getD 0
  let rows := orderById ((store.profileRows profile).filter fun row => decide (covered < row.id))
  let result := rows.map fun row => (row.id, row.message)
  return result.take (result.length - keepLast)

def clearProfile (store : PgStore) (profile : Text) : Option PgStore := do
  let profile ← bindText profile
  return { store with
    messages := store.messages.delete fun row => decide (row.profile = profile)
    summaries := store.summaries.delete fun row => decide (row.profile = profile) }

/-- `COUNT(*) FILTER (WHERE role = 'assistant')` and `COALESCE(SUM(cost_micros), 0)::BIGINT`. -/
def usageSince (store : PgStore) (since : Instant) : Option UsageStats := do
  let rows := store.messages.rows.filter fun row => decide (since ≤ row.createdAt)
  let costMicros ← castI64 (sumOf (rows.map MessageRow.costMicros))
  return { requests := rows.countP fun row => decide (row.role = assistant)
           costMicros := costMicros }

def step (store : PgStore) : Op → Option (PgStore × List Answer)
  | .recordExchange exchange now =>
    (store.recordExchange exchange now).map fun store => (store, [.unit])
  | .recentMessages profile limit =>
    (store.recentMessages profile limit).map fun messages => (store, [.messages messages])
  | .summary profile => (store.summary profile).map fun summary => (store, [.summary summary])
  | .upsertSummary profile summary =>
    (store.upsertSummary profile summary).map fun store => (store, [.unit])
  | .unsummarized profile keepLast =>
    (store.unsummarized profile keepLast).map fun messages => (store, [.numbered messages])
  | .clearProfile profile => (store.clearProfile profile).map fun store => (store, [.unit])
  | .usageSince since => (store.usageSince since).map fun stats => (store, [.usage stats])

end PgStore

def postgres : Machine PgStore Op Answer := ⟨PgStore.step⟩

/-! ## Parameters that can be bound -/

def bindable (text : Text) : Bool := !text.contains (Char.ofNat 0)

/-- The operation's texts have no zero byte, and its limit is an `i64`. -/
def storable : Op → Bool
  | .recordExchange exchange _ =>
    bindable exchange.profile && bindable exchange.userText && bindable exchange.assistantText
  | .recentMessages profile limit => bindable profile && decide (limit.toNat ≤ i64Max)
  | .summary profile | .unsummarized profile _ | .clearProfile profile => bindable profile
  | .upsertSummary profile summary => bindable profile && bindable summary.content
  | .usageSince _ => true

theorem bindText_eq_some {text bound : Text} :
    bindText text = some bound ↔ bindable text = true ∧ bound = text := by
  unfold bindText bindable
  cases text.contains (Char.ofNat 0) <;> simp [eq_comm]

theorem limitAsI64_eq (limit : UInt64) :
    limitAsI64 limit = if limit.toNat ≤ i64Max then (limit.toNat : Int)
      else (limit.toNat : Int) - (2 ^ 64 : Nat) := by
  have hlt := limit.toNat_lt
  unfold limitAsI64 i64Max
  rw [Int.bmod_def]
  split <;> split <;> omega

theorem limitClause_eq_some {limit : UInt64} {n : Nat} :
    limitClause (limitAsI64 limit) = some n ↔ limit.toNat ≤ i64Max ∧ n = limit.toNat := by
  have hlt := limit.toNat_lt
  rw [limitAsI64_eq]
  unfold limitClause
  split
  · next hmax =>
    rw [if_neg (by omega), Int.toNat_natCast, Option.some.injEq, and_iff_right hmax, eq_comm]
  · next hmax =>
    rw [if_pos (by omega)]
    exact iff_of_false (fun hnone => by cases hnone) fun h => hmax h.1

/-! ## The two stores match -/

def encodeRole : MessageRole → Text
  | .user => user
  | .assistant => assistant

/-- A row as the table has it. -/
def encode (row : Row) : MessageRow :=
  ⟨row.id, row.profile, encodeRole row.role, row.content, row.costMicros, row.createdAt⟩

@[simp] theorem encode_id (row : Row) : (encode row).id = row.id := rfl
@[simp] theorem encode_profile (row : Row) : (encode row).profile = row.profile := rfl
@[simp] theorem encode_costMicros (row : Row) : (encode row).costMicros = row.costMicros := rfl
@[simp] theorem encode_createdAt (row : Row) : (encode row).createdAt = row.createdAt := rfl

theorem encodeRole_assistant {role : MessageRole} :
    encodeRole role = assistant ↔ role = .assistant := by
  cases role <;> decide

@[simp] theorem encode_message (row : Row) : (encode row).message = row.message := by
  have hrole : roleFromStr (encodeRole row.role) = row.role := by
    cases row.role <;> decide
  exact congrArg (StoredMessage.mk · row.content) hrole

/-- The list of the one store is the table of the other in the order of ids. -/
structure Matches (s : MemoryStore) (t : PgStore) : Prop where
  rows : t.messages.rows.Perm (s.rows.map encode)
  ordered : s.rows.Pairwise fun a b => a.id < b.id
  bounded : ∀ row ∈ s.rows, row.id ≤ s.nextId
  sequence : t.sequence = s.nextId
  summaries : ∀ profile, (t.summaries.find? profile).map SummaryRow.summary = s.summaries profile

section Matching

variable {s s' : MemoryStore} {t : PgStore} {op : Op} {profile : Text}

/-- The rows of a query with this condition. -/
theorem Matches.filter (h : Matches s t) {p : MessageRow → Bool} {q : Row → Bool}
    (hpq : ∀ row, p (encode row) = q row) :
    (t.messages.rows.filter p).Perm ((s.rows.filter q).map encode) := by
  have hfilter : (s.rows.map encode).filter p = (s.rows.filter q).map encode := by
    rw [List.filter_map]
    exact congrArg _ (List.filter_congr fun row _ => hpq row)
  exact hfilter ▸ h.rows.filter p

theorem ids_nodup {rows : List Row} (h : rows.Pairwise fun a b => a.id < b.id) :
    ((rows.map encode).map MessageRow.id).Nodup := by
  rw [List.map_map]
  refine List.pairwise_map.mpr (h.imp fun hlt => ?_)
  exact Int.ne_of_lt hlt

theorem orderById_eq {rows : List MessageRow} {sorted : List Row}
    (hperm : rows.Perm (sorted.map encode)) (h : sorted.Pairwise fun a b => a.id < b.id) :
    orderById rows = sorted.map encode := by
  have hanti (x y : MessageRow) (hxy : x.before y) (hyx : y.before x) : x.id = y.id :=
    Int.le_antisymm hxy hyx
  refine Table.insertionSort_of_perm MessageRow.id hanti hperm (ids_nodup h) ?_
  exact List.pairwise_map.mpr (h.imp Int.le_of_lt)

theorem orderByIdDesc_eq {rows : List MessageRow} {sorted : List Row}
    (hperm : rows.Perm (sorted.map encode)) (h : sorted.Pairwise fun a b => a.id < b.id) :
    orderByIdDesc rows = (sorted.map encode).reverse := by
  have hnodup : ((sorted.map encode).reverse.map MessageRow.id).Nodup := by
    rw [List.map_reverse]
    exact List.nodup_reverse.mpr (ids_nodup h)
  have hanti (x y : MessageRow) (hxy : x.after y) (hyx : y.after x) : x.id = y.id :=
    Int.le_antisymm hyx hxy
  have hreversed := hperm.trans (List.reverse_perm _).symm
  refine Table.insertionSort_of_perm MessageRow.id hanti hreversed hnodup ?_
  rw [List.pairwise_reverse]
  exact List.pairwise_map.mpr (h.imp Int.le_of_lt)

theorem matches_new (id : Int) : Matches (.new id) (.new id) where
  rows := .nil
  ordered := .nil
  bounded _ hrow := absurd hrow List.not_mem_nil
  sequence := rfl
  summaries _ := rfl

/-- `nextval` brings an id above all that are there. -/
theorem insertMessage_matches (h : Matches s t) {content : Text} (role : MessageRole)
    (costMicros : Int) (now : Instant) (hprofile : bindable profile = true)
    (hcontent : bindable content = true) (hid : inI64 (s.nextId + 1) = true) :
    ∃ t', t.insertMessage profile (encodeRole role) content costMicros now = some t' ∧
      Matches { s with
        nextId := s.nextId + 1
        rows := s.rows ++ [⟨s.nextId + 1, profile, role, content, costMicros, now⟩] } t' := by
  let row : Row := ⟨s.nextId + 1, profile, role, content, costMicros, now⟩
  have hfresh : (encode row).id ∉ t.messages.rows.map MessageRow.id := by
    intro hmem
    obtain ⟨_, hcoded, heq⟩ := List.mem_map.mp ((h.rows.map _).subset hmem)
    obtain ⟨old, hold, rfl⟩ := List.mem_map.mp hcoded
    have hle := h.bounded old hold
    simp only [encode_id, row] at heq
    omega
  have hrows := List.nodup_cons.mpr ⟨hfresh, t.messages.nodup⟩
  have hinsert : t.messages.insert? (encode row) = some ⟨encode row :: t.messages.rows, hrows⟩ :=
    dif_neg hfresh
  have hnext : addI64 t.sequence 1 = some (s.nextId + 1) :=
    addI64_eq_some.mpr ⟨hid, by rw [h.sequence]⟩
  refine ⟨{ t with
    messages := ⟨encode row :: t.messages.rows, hrows⟩
    sequence := s.nextId + 1 }, ?_, ?_⟩
  · unfold PgStore.insertMessage
    rw [bindText_eq_some.mpr ⟨hprofile, rfl⟩, bindText_eq_some.mpr ⟨hcontent, rfl⟩, hnext]
    show (t.messages.insert? (encode row)).bind _ = _
    rw [hinsert]
    rfl
  · constructor
    · show (encode row :: t.messages.rows).Perm ((s.rows ++ [row]).map encode)
      rw [List.map_append]
      exact (h.rows.cons _).trans (List.perm_append_singleton ..).symm
    · refine List.pairwise_append.mpr ⟨h.ordered, List.pairwise_singleton .., ?_⟩
      intro old hold new hnew
      obtain rfl := List.mem_singleton.mp hnew
      have hle := h.bounded old hold
      simp only
      omega
    · intro old hold
      rcases List.mem_append.mp hold with hold | hold
      · have hle := h.bounded old hold
        simp only
        omega
      · obtain rfl := List.mem_singleton.mp hold
        exact Int.le_refl _
    · rfl
    · exact h.summaries

theorem recordExchange_matches (h : Matches s t) {exchange : ExchangeRecord Text} {now : Instant}
    (hop : storable (.recordExchange exchange now) = true)
    (hs : s.recordExchange exchange now = some s') :
    ∃ t', t.recordExchange exchange now = some t' ∧ Matches s' t' := by
  simp only [storable, Bool.and_eq_true] at hop
  obtain ⟨⟨hprofile, huser⟩, hassistant⟩ := hop
  obtain ⟨hid, hid', rfl⟩ := recordExchange_spec hs
  obtain ⟨t₁, ht₁, h₁⟩ := insertMessage_matches h .user 0 now hprofile huser hid
  obtain ⟨t', ht', h'⟩ :=
    insertMessage_matches h₁ .assistant exchange.costMicros now hprofile hassistant hid'
  refine ⟨t', Option.bind_eq_some_iff.mpr ⟨t₁, ht₁, ht'⟩, ?_⟩
  rw [List.append_assoc] at h'
  exact h'

theorem profileRows_matches (h : Matches s t) (profile : Text) :
    (t.profileRows profile).Perm ((s.profileRows profile).map encode) :=
  h.filter fun _ => rfl

theorem recentMessages_matches (h : Matches s t) {limit : UInt64}
    (hop : storable (.recentMessages profile limit) = true) :
    t.recentMessages profile limit = some (s.recentMessages profile limit) := by
  simp only [storable, Bool.and_eq_true, decide_eq_true_eq] at hop
  have hrows : orderByIdDesc (t.profileRows profile) =
      (s.profileRows profile).reverse.map encode := by
    rw [List.map_reverse]
    exact orderByIdDesc_eq (profileRows_matches h profile) (h.ordered.filter _)
  unfold PgStore.recentMessages MemoryStore.recentMessages
  rw [bindText_eq_some.mpr ⟨hop.1, rfl⟩, limitClause_eq_some.mpr ⟨hop.2, rfl⟩]
  simp only [bind, Option.bind_some, pure, hrows]
  rw [← List.map_take, List.map_map]
  simp [Function.comp_def]

theorem unsummarized_matches (h : Matches s t) {keepLast : Nat}
    (hop : storable (.unsummarized profile keepLast) = true) :
    t.unsummarized profile keepLast = some (s.unsummarized profile keepLast) := by
  have hcovered : ((t.summaries.find? profile).map SummaryRow.coversUntilMessageId) =
      (s.summaries profile).map Summary.coversUntilMessageId := by
    rw [← h.summaries profile, Option.map_map]
    rfl
  unfold PgStore.unsummarized MemoryStore.unsummarized
  rw [bindText_eq_some.mpr ⟨hop, rfl⟩]
  simp only [bind, Option.bind_some, pure, hcovered]
  generalize ((s.summaries profile).map Summary.coversUntilMessageId).getD 0 = covered
  have hperm : ((t.profileRows profile).filter fun row => decide (covered < row.id)).Perm
      (((s.profileRows profile).filter fun row => decide (covered < row.id)).map encode) := by
    have hfilter := (profileRows_matches h profile).filter fun row => decide (covered < row.id)
    rwa [List.filter_map] at hfilter
  rw [orderById_eq hperm ((h.ordered.filter _).filter _), List.map_map]
  simp [Function.comp_def]

theorem clearProfile_matches (h : Matches s t) (hop : storable (.clearProfile profile) = true) :
    ∃ t', t.clearProfile profile = some t' ∧ Matches (s.clearProfile profile) t' := by
  unfold PgStore.clearProfile
  rw [bindText_eq_some.mpr ⟨hop, rfl⟩]
  refine ⟨_, rfl, ?_⟩
  constructor
  · exact h.filter fun row => by rw [bne, beq_eq_decide]; rfl
  · exact h.ordered.filter _
  · intro row hrow
    exact h.bounded row (List.mem_filter.mp hrow).1
  · exact h.sequence
  · intro other
    rw [Table.find?_delete]
    show _ = if other = profile then none else s.summaries other
    split
    · rfl
    · exact h.summaries other

theorem upsertSummary_matches (h : Matches s t) {summary : Summary}
    (hop : storable (.upsertSummary profile summary) = true) :
    ∃ t', t.upsertSummary profile summary = some t' ∧
      Matches (s.upsertSummary profile summary) t' := by
  simp only [storable, Bool.and_eq_true] at hop
  unfold PgStore.upsertSummary
  rw [bindText_eq_some.mpr ⟨hop.1, rfl⟩, bindText_eq_some.mpr ⟨hop.2, rfl⟩]
  refine ⟨_, rfl, { h with summaries := fun other => ?_ }⟩
  rw [Table.find?_upsert]
  show _ = if other = profile then some summary else s.summaries other
  split
  · next hother => 
    cases t.summaries.find? other <;> rfl
  · exact h.summaries other

theorem usageSince_matches (h : Matches s t) {since : Instant} {stats : UsageStats}
    (hs : s.usageSince since = some stats) : t.usageSince since = some stats := by
  obtain ⟨rfl, hin⟩ := usageSince_spec hs
  have hperm : (t.messages.rows.filter fun row => decide (since ≤ row.createdAt)).Perm
      ((s.rows.filter fun row => decide (since ≤ row.createdAt)).map encode) :=
    h.filter fun _ => rfl
  unfold PgStore.usageSince
  simp only [sumOf_perm (hperm.map _), hperm.countP_eq, List.map_map, List.countP_map]
  set rows := s.rows.filter fun row => decide (since ≤ row.createdAt)
  have hcount : (rows.countP fun row => decide (encodeRole row.role = assistant)) =
      (usageOf rows).requests :=
    List.countP_congr fun row _ => by simp only [encodeRole_assistant]
  have hcast : castI64 (sumOf (rows.map Row.costMicros)) = some (usageOf rows).costMicros :=
    if_pos hin
  have hstats : usageOf rows =
      ⟨rows.countP fun row => decide (encodeRole row.role = assistant),
        (usageOf rows).costMicros⟩ := by
    rw [hcount]
  rw [hstats]
  exact congrArg (Option.bind · _) hcast

/-- Each operation that does not fail has the same answer on both stores. -/
theorem step_matches {answers : List Answer} (h : Matches s t) (hop : storable op = true)
    (hs : s.step op = some (s', answers)) :
    ∃ t', t.step op = some (t', answers) ∧ Matches s' t' := by
  cases op with
  | recordExchange exchange now =>
    obtain ⟨s₁, hs₁, hanswer⟩ := Option.map_eq_some_iff.mp hs
    obtain ⟨rfl, rfl⟩ := Prod.mk.inj hanswer
    obtain ⟨t', ht', h'⟩ := recordExchange_matches h hop hs₁
    exact ⟨t', Option.map_eq_some_iff.mpr ⟨t', ht', rfl⟩, h'⟩
  | recentMessages profile limit =>
    obtain ⟨rfl, rfl⟩ := Prod.mk.inj (Option.some.inj hs)
    exact ⟨t, Option.map_eq_some_iff.mpr ⟨_, recentMessages_matches h hop, rfl⟩, h⟩
  | summary profile =>
    obtain ⟨rfl, rfl⟩ := Prod.mk.inj (Option.some.inj hs)
    refine ⟨t, Option.map_eq_some_iff.mpr ⟨_, ?_, rfl⟩, h⟩
    unfold PgStore.summary
    rw [bindText_eq_some.mpr ⟨hop, rfl⟩, ← h.summaries profile]
    rfl
  | upsertSummary profile summary =>
    obtain ⟨rfl, rfl⟩ := Prod.mk.inj (Option.some.inj hs)
    obtain ⟨t', ht', h'⟩ := upsertSummary_matches h hop
    exact ⟨t', Option.map_eq_some_iff.mpr ⟨t', ht', rfl⟩, h'⟩
  | unsummarized profile keepLast =>
    obtain ⟨rfl, rfl⟩ := Prod.mk.inj (Option.some.inj hs)
    exact ⟨t, Option.map_eq_some_iff.mpr ⟨_, unsummarized_matches h hop, rfl⟩, h⟩
  | clearProfile profile =>
    obtain ⟨rfl, rfl⟩ := Prod.mk.inj (Option.some.inj hs)
    obtain ⟨t', ht', h'⟩ := clearProfile_matches h hop
    exact ⟨t', Option.map_eq_some_iff.mpr ⟨t', ht', rfl⟩, h'⟩
  | usageSince since =>
    obtain ⟨stats, hstats, hanswer⟩ := Option.map_eq_some_iff.mp hs
    obtain ⟨rfl, rfl⟩ := Prod.mk.inj hanswer
    exact ⟨t, Option.map_eq_some_iff.mpr ⟨stats, usageSince_matches h hstats, rfl⟩, h⟩

theorem bind_bindText {α : Type} {text : Text} {f : Text → Option α} {a : α}
    (h : bindText text >>= f = some a) : bindable text = true ∧ f text = some a := by
  obtain ⟨bound, hbound, hrest⟩ := Option.bind_eq_some_iff.mp h
  obtain ⟨hbindable, rfl⟩ := bindText_eq_some.mp hbound
  exact ⟨hbindable, hrest⟩

/-- An operation that does not fail on Postgres had parameters that can be bound. -/
theorem storable_of_step {r : PgStore × List Answer} (h : t.step op = some r) :
    storable op = true := by
  cases op with
  | recordExchange exchange now =>
    obtain ⟨t', ht', -⟩ := Option.map_eq_some_iff.mp h
    obtain ⟨t₁, ht₁, ht'⟩ := Option.bind_eq_some_iff.mp ht'
    obtain ⟨hprofile, hrest⟩ := bind_bindText ht₁
    obtain ⟨hassistant, -⟩ := bind_bindText (bind_bindText ht').2
    simp only [storable, hprofile, (bind_bindText hrest).1, hassistant, Bool.and_self]
  | recentMessages profile limit =>
    obtain ⟨messages, hmessages, -⟩ := Option.map_eq_some_iff.mp h
    obtain ⟨hprofile, hrest⟩ := bind_bindText hmessages
    obtain ⟨n, hn, -⟩ := Option.bind_eq_some_iff.mp hrest
    simp only [storable, hprofile, (limitClause_eq_some.mp hn).1, decide_true, Bool.and_self]
  | summary profile =>
    obtain ⟨summary, hsummary, -⟩ := Option.map_eq_some_iff.mp h
    exact (bind_bindText hsummary).1
  | upsertSummary profile summary =>
    obtain ⟨t', ht', -⟩ := Option.map_eq_some_iff.mp h
    obtain ⟨hprofile, hrest⟩ := bind_bindText ht'
    simp only [storable, hprofile, (bind_bindText hrest).1, Bool.and_self]
  | unsummarized profile keepLast =>
    obtain ⟨messages, hmessages, -⟩ := Option.map_eq_some_iff.mp h
    exact (bind_bindText hmessages).1
  | clearProfile profile =>
    obtain ⟨t', ht', -⟩ := Option.map_eq_some_iff.mp h
    exact (bind_bindText ht').1
  | usageSince since => rfl

/-- Operations that fail on neither store. -/
theorem run_matches {ops : List Op} {answers : List Answer} (h : Matches s t)
    (hs : memory.exec s ops = some (s', answers)) (hops : ∀ op ∈ ops, storable op = true) :
    ∃ t', postgres.exec t ops = some (t', answers) ∧ Matches s' t' :=
  Machine.exec_simulation (N := postgres) (R := Matches) step_matches h hops hs

end Matching

/-- The same operations on both stores have the same answers, the ids of their rows
included: where neither fails, and Postgres does not fail where the operations can be bound
and the in-memory store keeps its ids and its partial sums in `i64`. -/
theorem stores_answer_alike (id : Int) {ops : List Op} {s : MemoryStore} {answers : List Answer}
    (hs : memory.exec (.new id) ops = some (s, answers)) :
    (∀ t answers', postgres.exec (.new id) ops = some (t, answers') → answers' = answers) ∧
      ((∀ op ∈ ops, storable op = true) →
        ∃ t, postgres.exec (.new id) ops = some (t, answers)) := by
  constructor
  · intro t answers' ht
    have hops := Machine.exec_enabled (fun hstep => storable_of_step hstep) ht
    obtain ⟨t', ht', -⟩ := run_matches (matches_new id) hs hops
    exact (Prod.mk.inj (Option.some.inj (ht.symm.trans ht'))).2
  · intro hops
    obtain ⟨t, ht, -⟩ := run_matches (matches_new id) hs hops
    exact ⟨t, ht⟩

/-- Two profiles, a summary, and a profile cleared. -/
def someOps : List Op :=
  [.recordExchange ⟨['d'], ['q'], ['a'], 100⟩ 1, .recordExchange ⟨['m'], ['r'], ['b'], 50⟩ 2,
    .recordExchange ⟨['d'], ['s'], ['c'], 70⟩ 3, .recentMessages ['d'] 3, .usageSince 2,
    .unsummarized ['d'] 2, .upsertSummary ['d'] ⟨['z'], 2⟩, .summary ['d'],
    .unsummarized ['d'] 1, .clearProfile ['d'], .recentMessages ['d'] 3, .usageSince 0]

theorem stores_answer_alike_some : ∃ s t answers,
    memory.exec (.new 0) someOps = some (s, answers) ∧
      postgres.exec (.new 0) someOps = some (t, answers) := by
  have hruns : (memory.exec (.new 0) someOps).isSome = true := by decide +kernel
  obtain ⟨⟨s, answers⟩, hs⟩ := Option.isSome_iff_exists.mp hruns
  obtain ⟨t, ht⟩ := (stores_answer_alike 0 hs).2 (by decide)
  exact ⟨s, t, answers, hs, ht⟩

end AliceBridge.Server.PgStore
