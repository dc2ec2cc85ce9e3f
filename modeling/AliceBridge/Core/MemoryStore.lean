import AliceBridge.Core.Conversation
import AliceBridge.Lib.Json
import AliceBridge.Lib.Run

/-! # The operations of a conversation store

The trait `ConversationStore`, one operation at a time, and the in-memory store of
`testing.rs`. Ids and sums are `i64`: an operation that would leave the range fails.
An instant is in microseconds, the precision that both stores keep; of an exchange
the model and the token counts are left out, which no operation reads. -/
namespace AliceBridge.Core.MemoryStore
open AliceBridge.Lib.Utf8 AliceBridge.Lib.Run
open AliceBridge.Lib.Json.Value (i64Max)
open AliceBridge.Core.Conversation (MessageRole ExchangeRecord UsageStats)

abbrev Instant := Int

structure StoredMessage where
  role : MessageRole
  content : Text
deriving DecidableEq, Repr

structure Summary where
  content : Text
  coversUntilMessageId : Int
deriving DecidableEq, Repr

/-- A call of the trait; `now` is the time at which an exchange is recorded. -/
inductive Op where
  | recordExchange (exchange : ExchangeRecord Text) (now : Instant)
  | recentMessages (profile : Text) (limit : UInt64)
  | summary (profile : Text)
  | upsertSummary (profile : Text) (summary : Summary)
  | unsummarized (profile : Text) (keepLast : Nat)
  | clearProfile (profile : Text)
  | usageSince (since : Instant)
deriving DecidableEq, Repr

inductive Answer where
  | unit
  | messages (messages : List StoredMessage)
  | summary (summary : Option Summary)
  | numbered (messages : List (Int × StoredMessage))
  | usage (stats : UsageStats)
deriving DecidableEq, Repr

/-! ## Arithmetic of `i64` -/

def inI64 (n : Int) : Bool := decide (-(i64Max : Int) - 1 ≤ n ∧ n ≤ i64Max)

def addI64 (a b : Int) : Option Int := if inI64 (a + b) then some (a + b) else none

theorem addI64_eq_some {a b c : Int} : addI64 a b = some c ↔ inI64 c = true ∧ c = a + b := by
  unfold addI64
  constructor
  · intro h
    split at h
    · next hin =>
      obtain rfl := Option.some.inj h
      exact ⟨hin, rfl⟩
    · cases h
  · rintro ⟨hin, rfl⟩
    rw [if_pos hin]

/-- The sum of these amounts. -/
def sumOf (amounts : List Int) : Int := amounts.foldr (fun amount sum => amount + sum) 0

@[simp] theorem sumOf_nil : sumOf [] = 0 := rfl

@[simp] theorem sumOf_cons (amount : Int) (amounts : List Int) :
    sumOf (amount :: amounts) = amount + sumOf amounts := rfl

theorem sumOf_perm {amounts amounts' : List Int} (h : amounts.Perm amounts') :
    sumOf amounts = sumOf amounts' :=
  h.foldr_eq' (fun a _ b _ sum => Int.add_left_comm b a sum) 0

/-! ## The in-memory store -/

structure Row where
  id : Int
  profile : Text
  role : MessageRole
  content : Text
  costMicros : Int
  createdAt : Instant
deriving DecidableEq, Repr

def Row.message (row : Row) : StoredMessage := ⟨row.role, row.content⟩

structure MemoryStore where
  rows : List Row
  summaries : Text → Option Summary
  nextId : Int

namespace MemoryStore

/-- A new store whose last id was `nextId`. -/
def new (nextId : Int) : MemoryStore := ⟨[], fun _ => none, nextId⟩

/-- A round of the loop of `record_exchange`. -/
def push (store : MemoryStore) (profile : Text) (role : MessageRole) (content : Text)
    (costMicros : Int) (now : Instant) : Option MemoryStore := do
  let id ← addI64 store.nextId 1
  return { store with
    nextId := id
    rows := store.rows ++ [⟨id, profile, role, content, costMicros, now⟩] }

def recordExchange (store : MemoryStore) (exchange : ExchangeRecord Text) (now : Instant) :
    Option MemoryStore := do
  let store ← store.push exchange.profile .user exchange.userText 0 now
  store.push exchange.profile .assistant exchange.assistantText exchange.costMicros now

def profileRows (store : MemoryStore) (profile : Text) : List Row :=
  store.rows.filter fun row => row.profile == profile

def recentMessages (store : MemoryStore) (profile : Text) (limit : UInt64) :
    List StoredMessage :=
  (((store.profileRows profile).reverse.take limit.toNat).map Row.message).reverse

def upsertSummary (store : MemoryStore) (profile : Text) (summary : Summary) : MemoryStore :=
  { store with summaries := fun p => if p = profile then some summary else store.summaries p }

def unsummarized (store : MemoryStore) (profile : Text) (keepLast : Nat) :
    List (Int × StoredMessage) :=
  let coversUntil := ((store.summaries profile).map Summary.coversUntilMessageId).getD 0
  let rows := ((store.profileRows profile).filter fun row => decide (coversUntil < row.id)).map
    fun row => (row.id, row.message)
  rows.take (rows.length - keepLast)

def clearProfile (store : MemoryStore) (profile : Text) : MemoryStore :=
  { store with
    rows := store.rows.filter fun row => row.profile != profile
    summaries := fun p => if p = profile then none else store.summaries p }

/-- The loop of `usage_since`, which fails when a partial sum overflows. -/
def addUsage (stats : UsageStats) (row : Row) : Option UsageStats := do
  let costMicros ← addI64 stats.costMicros row.costMicros
  return { requests := if row.role = .assistant then stats.requests + 1 else stats.requests
           costMicros := costMicros }

def usageSince (store : MemoryStore) (since : Instant) : Option UsageStats :=
  (store.rows.filter fun row => decide (since ≤ row.createdAt)).foldlM addUsage ⟨0, 0⟩

def step (store : MemoryStore) : Op → Option (MemoryStore × List Answer)
  | .recordExchange exchange now =>
    (store.recordExchange exchange now).map fun store => (store, [.unit])
  | .recentMessages profile limit =>
    some (store, [.messages (store.recentMessages profile limit)])
  | .summary profile => some (store, [.summary (store.summaries profile)])
  | .upsertSummary profile summary => some (store.upsertSummary profile summary, [.unit])
  | .unsummarized profile keepLast =>
    some (store, [.numbered (store.unsummarized profile keepLast)])
  | .clearProfile profile => some (store.clearProfile profile, [.unit])
  | .usageSince since => (store.usageSince since).map fun stats => (store, [.usage stats])

end MemoryStore

/-- Operations one after the other; no result is a failed operation. -/
def memory : Machine MemoryStore Op Answer := ⟨MemoryStore.step⟩

/-! ## What the operations do -/

section Operations

variable {store store' : MemoryStore} {profile content : Text} {role : MessageRole}
  {costMicros : Int} {now since : Instant} {exchange : ExchangeRecord Text}

theorem push_spec (h : store.push profile role content costMicros now = some store') :
    inI64 (store.nextId + 1) = true ∧
      store' = { store with
        nextId := store.nextId + 1
        rows := store.rows ++ [⟨store.nextId + 1, profile, role, content, costMicros, now⟩] } := by
  obtain ⟨id, hid, hstore⟩ := Option.bind_eq_some_iff.mp h
  obtain ⟨hin, rfl⟩ := addI64_eq_some.mp hid
  exact ⟨hin, (Option.some.inj hstore).symm⟩

theorem recordExchange_spec (h : store.recordExchange exchange now = some store') :
    inI64 (store.nextId + 1) = true ∧ inI64 (store.nextId + 1 + 1) = true ∧
      store' = { store with
        nextId := store.nextId + 1 + 1
        rows := store.rows ++
          [⟨store.nextId + 1, exchange.profile, .user, exchange.userText, 0, now⟩,
            ⟨store.nextId + 1 + 1, exchange.profile, .assistant, exchange.assistantText,
              exchange.costMicros, now⟩] } := by
  obtain ⟨first, hfirst, hsecond⟩ := Option.bind_eq_some_iff.mp h
  obtain ⟨hin, rfl⟩ := push_spec hfirst
  obtain ⟨hin', rfl⟩ := push_spec hsecond
  exact ⟨hin, hin', by simp⟩

/-- The number of answers among the rows, and what they cost. -/
def usageOf (rows : List Row) : UsageStats :=
  { requests := rows.countP fun row => decide (row.role = .assistant)
    costMicros := sumOf (rows.map Row.costMicros) }

theorem addUsage_spec {rows : List Row} {stats stats' : UsageStats}
    (h : rows.foldlM MemoryStore.addUsage stats = some stats') :
    stats'.requests = stats.requests + (usageOf rows).requests ∧
      stats'.costMicros = stats.costMicros + (usageOf rows).costMicros ∧
      (inI64 stats.costMicros = true → inI64 stats'.costMicros = true) := by
  induction rows generalizing stats with
  | nil =>
    obtain rfl := Option.some.inj h
    simp [usageOf]
  | cons row rows ih =>
    rw [List.foldlM_cons] at h
    obtain ⟨next, hnext, hrest⟩ := Option.bind_eq_some_iff.mp h
    obtain ⟨costMicros, hcost, hstats⟩ := Option.bind_eq_some_iff.mp hnext
    obtain ⟨hin, rfl⟩ := addI64_eq_some.mp hcost
    obtain rfl := Option.some.inj hstats
    obtain ⟨hrequests, hcosts, hbound⟩ := ih hrest
    refine ⟨?_, ?_, fun _ => hbound hin⟩
    · rw [hrequests]
      unfold usageOf
      rw [List.countP_cons]
      by_cases hrole : row.role = .assistant
      · simp only [hrole, if_true, decide_true]
        omega
      · simp only [hrole, if_false, decide_false, Bool.false_eq_true]
        omega
    · rw [hcosts]
      unfold usageOf
      rw [List.map_cons, sumOf_cons]
      exact Int.add_assoc ..

theorem usageSince_spec {stats : UsageStats} (h : store.usageSince since = some stats) :
    stats = usageOf (store.rows.filter fun row => decide (since ≤ row.createdAt)) ∧
      inI64 stats.costMicros = true := by
  obtain ⟨hrequests, hcosts, hbound⟩ := addUsage_spec h
  refine ⟨?_, hbound (by decide)⟩
  cases stats
  simp only [Nat.zero_add, Int.zero_add] at hrequests hcosts
  rw [hrequests, hcosts]

end Operations

end AliceBridge.Core.MemoryStore
