import AliceBridge.Server.PgStore

/-! # What a store says was spent

The usage since an instant, against the exchanges recorded since then. Both stores keep
their accounts in the rows of the conversation, a bill a row, so that to clear a profile
deletes its bills. `charge` is what an operation does to the bills of either store, and
`outliving` what a sequence of operations leaves of its own. -/
namespace AliceBridge.Server.Spending
open AliceBridge.Lib AliceBridge.Lib.Utf8 AliceBridge.Lib.Run
open AliceBridge.Core.MemoryStore AliceBridge.Server.PgStore
open AliceBridge.Core.Conversation (MessageRole ExchangeRecord UsageStats)

structure Bill where
  profile : Text
  role : MessageRole
  costMicros : Int
  createdAt : Instant
deriving DecidableEq, Repr

/-- The bills of an exchange: its question costs nothing. -/
def billsOf (exchange : ExchangeRecord Text) (now : Instant) : List Bill :=
  [⟨exchange.profile, .user, 0, now⟩, ⟨exchange.profile, .assistant, exchange.costMicros, now⟩]

def since (instant : Instant) (bills : List Bill) : List Bill :=
  bills.filter fun bill => decide (instant ≤ bill.createdAt)

def billed (bills : List Bill) : UsageStats :=
  { requests := bills.countP fun bill => decide (bill.role = .assistant)
    costMicros := sumOf (bills.map Bill.costMicros) }

def charge (bills : List Bill) : Op → List Bill
  | .recordExchange exchange now => bills ++ billsOf exchange now
  | .clearProfile profile => bills.filter fun bill => bill.profile != profile
  | _ => bills

/-- None of the operations clears the profile. -/
def keeps (ops : List Op) (profile : Text) : Bool := ops.all fun op => op != .clearProfile profile

def outliving : List Op → List Bill
  | [] => []
  | .recordExchange exchange now :: ops =>
    (billsOf exchange now).filter (fun bill => keeps ops bill.profile) ++ outliving ops
  | _ :: ops => outliving ops

/-- The exchanges recorded at or after the instant. -/
def recorded (instant : Instant) : List Op → List (ExchangeRecord Text)
  | [] => []
  | .recordExchange exchange now :: ops =>
    if instant ≤ now then exchange :: recorded instant ops else recorded instant ops
  | _ :: ops => recorded instant ops

/-- Their number and what they cost. -/
def spent (instant : Instant) (ops : List Op) : UsageStats :=
  { requests := (recorded instant ops).length
    costMicros := sumOf ((recorded instant ops).map ExchangeRecord.costMicros) }

/-- No profile is cleared after an exchange of it that was recorded at or after the instant. -/
def spared (instant : Instant) : List Op → Bool
  | [] => true
  | .recordExchange exchange now :: ops =>
    (decide (now < instant) || keeps ops exchange.profile) && spared instant ops
  | _ :: ops => spared instant ops

/-! ## What the operations leave of the bills -/

section Bills

variable {bills bills' : List Bill} {instant : Instant}

theorem billed_append (bills bills' : List Bill) :
    billed (bills ++ bills') = ⟨(billed bills).requests + (billed bills').requests,
      (billed bills).costMicros + (billed bills').costMicros⟩ := by
  have hsum (xs ys : List Int) : sumOf (xs ++ ys) = sumOf xs + sumOf ys := by
    induction xs with
    | nil => simp
    | cons x xs ih => simp [ih, Int.add_assoc]
  simp only [billed, List.countP_append, List.map_append, hsum]

theorem since_append :
    since instant (bills ++ bills') = since instant bills ++ since instant bills' :=
  List.filter_append ..

theorem billed_perm (h : bills.Perm bills') : billed bills = billed bills' := by
  unfold billed
  rw [h.countP_eq, sumOf_perm (h.map _)]

theorem charge_perm (op : Op) (h : bills.Perm bills') :
    (charge bills op).Perm (charge bills' op) := by
  cases op with
  | recordExchange exchange now => exact h.append_right _
  | clearProfile profile => exact h.filter _
  | _ => exact h

/-- Of earlier bills those stay whose profile is not cleared. -/
theorem foldl_charge (ops : List Op) (bills : List Bill) :
    ops.foldl charge bills =
      bills.filter (fun bill => keeps ops bill.profile) ++ outliving ops := by
  induction ops generalizing bills with
  | nil => simp [keeps, outliving]
  | cons op ops ih =>
    rw [List.foldl_cons, ih]
    cases op with
    | recordExchange exchange now =>
      rw [charge, List.filter_append, List.append_assoc]
      rfl
    | clearProfile profile =>
      rw [charge, List.filter_filter]
      refine congrArg (· ++ outliving ops) (List.filter_congr fun bill _ => ?_)
      have hne : (Op.clearProfile profile != .clearProfile bill.profile) =
          (bill.profile != profile) := by
        rw [Bool.eq_iff_iff, bne_iff_ne, bne_iff_ne, ne_eq, Op.clearProfile.injEq, eq_comm]
      show (keeps ops bill.profile && bill.profile != profile) =
        ((Op.clearProfile profile != .clearProfile bill.profile) && keeps ops bill.profile)
      rw [hne, Bool.and_comm]
    | _ => rfl

theorem billed_billsOf (exchange : ExchangeRecord Text) (now : Instant) :
    billed (since instant (billsOf exchange now)) =
      if instant ≤ now then ⟨1, exchange.costMicros⟩ else ⟨0, 0⟩ := by
  by_cases h : instant ≤ now <;> simp [since, billsOf, billed, h]

/-- A bill that outlives the operations is one of a recorded exchange, and all of them
are there exactly when no profile is cleared after its exchange. -/
theorem billed_outliving (instant : Instant) (ops : List Op) :
    (billed (since instant (outliving ops))).requests ≤ (spent instant ops).requests ∧
      ((billed (since instant (outliving ops))).requests = (spent instant ops).requests ↔
        spared instant ops = true) ∧
      (spared instant ops = true → billed (since instant (outliving ops)) = spent instant ops) := by
  induction ops with
  | nil => exact ⟨Nat.le_refl _, iff_of_true rfl rfl, fun _ => rfl⟩
  | cons op ops ih =>
    obtain ⟨hle, hiff, heq⟩ := ih
    cases op with
    | recordExchange exchange now =>
      have hkept : (billsOf exchange now).filter (fun bill => keeps ops bill.profile) =
          if keeps ops exchange.profile then billsOf exchange now else [] := by
        cases h : keeps ops exchange.profile <;> simp [billsOf, h]
      simp only [outliving, hkept, since_append, billed_append, spared, Bool.and_eq_true,
        Bool.or_eq_true, decide_eq_true_eq]
      by_cases hnow : instant ≤ now
      · have hspent : spent instant (.recordExchange exchange now :: ops) =
            ⟨(spent instant ops).requests + 1,
              exchange.costMicros + (spent instant ops).costMicros⟩ := by
          simp only [spent, recorded, if_pos hnow, List.length_cons, List.map_cons, sumOf_cons]
        rw [hspent]
        cases hkeeps : keeps ops exchange.profile with
        | true =>
          simp only [if_true, billed_billsOf, if_pos hnow, or_true, true_and]
          refine ⟨by omega, ?_, fun hspared => ?_⟩
          · rw [← hiff]
            omega
          · rw [heq hspared, Nat.add_comm]
        | false =>
          have hnone : billed (since instant []) = ⟨0, 0⟩ := rfl
          have hlate : ¬ now < instant := Int.not_lt.mpr hnow
          simp only [Bool.false_eq_true, if_false, hnone, hlate, or_false, false_and]
          exact ⟨by omega, iff_of_false (by omega) id, False.elim⟩
      · have hspent : spent instant (.recordExchange exchange now :: ops) = spent instant ops := by
          simp only [spent, recorded, if_neg hnow]
        have hnone : billed (since instant (if keeps ops exchange.profile
            then billsOf exchange now else [])) = ⟨0, 0⟩ := by
          split
          · rw [billed_billsOf, if_neg hnow]
          · rfl
        have hearly : now < instant := Int.not_le.mp hnow
        simp only [hspent, hnone, Nat.zero_add, Int.zero_add, hearly, true_or, true_and]
        exact ⟨hle, hiff, heq⟩
    | _ => exact ⟨hle, hiff, heq⟩

end Bills

/-! ## A store and its bills -/

/-- The bills of a store, and what it reports of them. -/
structure Accounts {σ : Type} (M : Machine σ Op Answer) (bills : σ → List Bill)
    (usage : σ → Instant → Option UsageStats) : Prop where
  charged : ∀ {s s' op answers}, M.step s op = some (s', answers) →
    (bills s').Perm (charge (bills s) op)
  reported : ∀ {s instant stats}, usage s instant = some stats →
    stats = billed (since instant (bills s))

section Accounts

variable {σ : Type} {M : Machine σ Op Answer} {bills : σ → List Bill}
  {usage : σ → Instant → Option UsageStats} {s s' : σ} {ops : List Op} {answers : List Answer}

theorem Accounts.run (h : Accounts M bills usage) (he : M.exec s ops = some (s', answers)) :
    (bills s').Perm (ops.foldl charge (bills s)) := by
  suffices hfold : ∀ kept, (bills s).Perm kept → (bills s').Perm (ops.foldl charge kept) from
    hfold _ (.refl _)
  induction ops generalizing s answers with
  | nil =>
    obtain ⟨rfl, rfl⟩ := Prod.mk.inj (Option.some.inj he)
    exact fun kept hkept => hkept
  | cons op ops ih =>
    obtain ⟨r, q, hr, hq, rfl⟩ := Machine.exec_cons he
    exact fun kept hkept => ih hq _ ((h.charged hr).trans (charge_perm op hkept))

/-- From a new store on, the usage reported is what was spent exactly when no profile was
cleared after an exchange that counts. -/
theorem Accounts.reported_iff (h : Accounts M bills usage) (hnew : bills s = [])
    (he : M.exec s ops = some (s', answers)) {instant : Instant} {stats : UsageStats}
    (hstats : usage s' instant = some stats) :
    stats = spent instant ops ↔ spared instant ops = true := by
  have hleft : (bills s').Perm (outliving ops) := by
    have hrun := h.run he
    rw [foldl_charge, hnew] at hrun
    exact hrun
  obtain ⟨-, hiff, heq⟩ := billed_outliving instant ops
  have hbilled : billed (since instant (bills s')) = billed (since instant (outliving ops)) :=
    billed_perm (hleft.filter _)
  rw [h.reported hstats, hbilled]
  exact ⟨fun hspent => hiff.mp (congrArg UsageStats.requests hspent), heq⟩

end Accounts

/-! ## The two stores -/

def memoryBill (row : Row) : Bill := ⟨row.profile, row.role, row.costMicros, row.createdAt⟩

theorem memory_accounts :
    Accounts memory (fun store => store.rows.map memoryBill) MemoryStore.usageSince where
  charged := by
    intro s s' op answers hstep
    cases op with
    | recordExchange exchange now =>
      obtain ⟨store, hstore, hanswer⟩ := Option.map_eq_some_iff.mp hstep
      obtain ⟨rfl, rfl⟩ := Prod.mk.inj hanswer
      obtain ⟨-, -, rfl⟩ := recordExchange_spec hstore
      rw [List.map_append]
      exact .refl _
    | clearProfile profile =>
      obtain ⟨rfl, rfl⟩ := Prod.mk.inj (Option.some.inj hstep)
      rw [charge, List.filter_map]
      exact .refl _
    | usageSince instant =>
      obtain ⟨stats, hstats, hanswer⟩ := Option.map_eq_some_iff.mp hstep
      obtain ⟨rfl, rfl⟩ := Prod.mk.inj hanswer
      exact .refl _
    | _ =>
      obtain ⟨rfl, rfl⟩ := Prod.mk.inj (Option.some.inj hstep)
      exact .refl _
  reported := by
    intro s instant stats hstats
    obtain ⟨rfl, -⟩ := usageSince_spec hstats
    simp only [usageOf, billed, since, List.filter_map, List.countP_map, List.map_map]
    rfl

def postgresBill (row : MessageRow) : Bill :=
  ⟨row.profile, roleFromStr row.role, row.costMicros, row.createdAt⟩

theorem roleFromStr_assistant {role : Text} :
    roleFromStr role = .assistant ↔ role = assistant := by
  unfold roleFromStr
  split
  · next h => exact iff_of_true rfl h
  · next h => exact iff_of_false (fun hrole => by cases hrole) h

theorem insertMessage_spec {t t' : PgStore} {profile role content : Text} {costMicros : Int}
    {now : Instant} (h : t.insertMessage profile role content costMicros now = some t') :
    t'.messages.rows.map postgresBill =
      ⟨profile, roleFromStr role, costMicros, now⟩ :: t.messages.rows.map postgresBill := by
  obtain ⟨-, h⟩ := bind_bindText h
  obtain ⟨-, h⟩ := bind_bindText h
  obtain ⟨id, -, h⟩ := Option.bind_eq_some_iff.mp h
  obtain ⟨messages, hmessages, h⟩ := Option.bind_eq_some_iff.mp h
  obtain rfl := Option.some.inj h
  unfold Table.insert? at hmessages
  split at hmessages
  · cases hmessages
  · obtain rfl := Option.some.inj hmessages
    rfl

theorem postgres_accounts :
    Accounts postgres (fun store => store.messages.rows.map postgresBill) PgStore.usageSince where
  charged := by
    intro t t' op answers hstep
    cases op with
    | recordExchange exchange now =>
      obtain ⟨store, hstore, hanswer⟩ := Option.map_eq_some_iff.mp hstep
      obtain ⟨rfl, rfl⟩ := Prod.mk.inj hanswer
      obtain ⟨t₁, ht₁, ht'⟩ := Option.bind_eq_some_iff.mp hstore
      rw [insertMessage_spec ht', insertMessage_spec ht₁]
      have hcharged : (t.messages.rows.map postgresBill ++ billsOf exchange now).Perm
          (billsOf exchange now ++ t.messages.rows.map postgresBill) :=
        List.perm_append_comm
      exact (List.Perm.swap ..).trans hcharged.symm
    | clearProfile profile =>
      obtain ⟨store, hstore, hanswer⟩ := Option.map_eq_some_iff.mp hstep
      obtain ⟨rfl, rfl⟩ := Prod.mk.inj hanswer
      obtain ⟨-, hdelete⟩ := bind_bindText hstore
      obtain rfl := Option.some.inj hdelete
      rw [charge, List.filter_map]
      refine .of_eq (congrArg _ (List.filter_congr fun row _ => ?_))
      simp only [Function.comp, postgresBill, bne, beq_eq_decide]
    | upsertSummary profile summary =>
      obtain ⟨store, hstore, hanswer⟩ := Option.map_eq_some_iff.mp hstep
      obtain ⟨rfl, rfl⟩ := Prod.mk.inj hanswer
      obtain ⟨-, hupsert⟩ := bind_bindText hstore
      obtain ⟨-, hupsert⟩ := bind_bindText hupsert
      obtain rfl := Option.some.inj hupsert
      exact .refl _
    | _ =>
      obtain ⟨answer, hread, hanswer⟩ := Option.map_eq_some_iff.mp hstep
      obtain ⟨rfl, rfl⟩ := Prod.mk.inj hanswer
      exact .refl _
  reported := by
    intro t instant stats hstats
    obtain ⟨costMicros, hcast, hstats⟩ := Option.bind_eq_some_iff.mp hstats
    obtain rfl := Option.some.inj hstats
    have hcost := (Option.ite_none_right_eq_some.mp hcast).2
    simp only [billed, since, List.filter_map, List.countP_map, List.map_map, Function.comp_def,
      postgresBill, roleFromStr_assistant]
    exact congrArg _ (Option.some.inj hcost).symm

/-- On either store, from a new one on: the usage reported since an instant is the number and
the cost of the exchanges recorded since then exactly when no profile was cleared after one
of its exchanges. -/
theorem usage_eq_spent_iff (id : Int) {ops : List Op} {instant : Instant} {stats : UsageStats}
    {answers : List Answer} :
    (∀ store, memory.exec (.new id) ops = some (store, answers) →
      store.usageSince instant = some stats →
        (stats = spent instant ops ↔ spared instant ops = true)) ∧
    (∀ store, postgres.exec (.new id) ops = some (store, answers) →
      store.usageSince instant = some stats →
        (stats = spent instant ops ↔ spared instant ops = true)) :=
  ⟨fun _ he hstats => memory_accounts.reported_iff rfl he hstats,
    fun _ he hstats => postgres_accounts.reported_iff rfl he hstats⟩

/-- Two profiles; the one is cleared before it asks again. -/
def clearedBefore : List Op :=
  [.recordExchange ⟨['d'], ['q'], ['a'], 100⟩ 1, .clearProfile ['d'],
    .recordExchange ⟨['d'], ['s'], ['c'], 70⟩ 3, .recordExchange ⟨['m'], ['r'], ['b'], 50⟩ 4]

theorem usage_eq_spent_clearedBefore : ∃ store answers stats,
    memory.exec (.new 0) clearedBefore = some (store, answers) ∧
      store.usageSince 2 = some stats ∧ stats = spent 2 clearedBefore := by
  have hruns : ((memory.exec (.new 0) clearedBefore).bind fun r =>
      r.1.usageSince 2).isSome = true := by decide +kernel
  obtain ⟨stats, hstats⟩ := Option.isSome_iff_exists.mp hruns
  obtain ⟨⟨store, answers⟩, he, hstats⟩ := Option.bind_eq_some_iff.mp hstats
  exact ⟨store, answers, stats, he, hstats,
    ((usage_eq_spent_iff 0).1 store he hstats).mpr (by decide)⟩

/-- An exchange of a profile that is cleared then: nothing was spent any more. -/
theorem cleared_usage_is_lost : ∃ store answers stats,
    memory.exec (.new 0) [.recordExchange ⟨['d'], ['q'], ['a'], 100⟩ 1, .clearProfile ['d']] =
        some (store, answers) ∧
      store.usageSince 0 = some stats ∧
      stats ≠ spent 0 [.recordExchange ⟨['d'], ['q'], ['a'], 100⟩ 1, .clearProfile ['d']] :=
  ⟨_, _, _, rfl, rfl, by decide⟩

end AliceBridge.Server.Spending
