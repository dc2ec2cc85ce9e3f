import AliceBridge.Lib.Run
import AliceBridge.Core.Conversation

/-! # Overlapping exchanges

Transactions of `record_exchange` on one database, statement by statement. An insert draws
its id when it executes, the rows are seen when the transaction commits, and a transaction
may be rolled back at any point. The messages of an exchange stay together as long as no
other exchange of the profile inserts between its two inserts. -/
namespace AliceBridge.Core.Exchanges
open AliceBridge.Lib.Utf8 AliceBridge.Lib.Run AliceBridge.Core.Conversation

/-! ## The transactions -/

variable {τ : Type*}

/-- An exchange with the ids its inserts drew; `now()` is the start of the transaction. -/
structure Recorded (τ : Type*) where
  exchange : ExchangeRecord τ
  userId : MessageId
  assistantId : MessageId
  createdAt : Nat
deriving DecidableEq, Repr

namespace Recorded

def userRow (recorded : Recorded τ) : Row τ where
  id := recorded.userId
  profile := recorded.exchange.profile
  role := .user
  content := recorded.exchange.userText
  costMicros := 0
  createdAt := recorded.createdAt

def assistantRow (recorded : Recorded τ) : Row τ where
  id := recorded.assistantId
  profile := recorded.exchange.profile
  role := .assistant
  content := recorded.exchange.assistantText
  costMicros := recorded.exchange.costMicros
  createdAt := recorded.createdAt

/-- The id lies between those of the two messages. -/
def Around (recorded : Recorded τ) (id : MessageId) : Prop :=
  recorded.userId < id ∧ id < recorded.assistantId

instance (recorded : Recorded τ) (id : MessageId) : Decidable (recorded.Around id) :=
  inferInstanceAs (Decidable (_ ∧ _))

end Recorded

/-- What a transaction has executed. -/
inductive Transaction (τ : Type*) where
  | begun (exchange : ExchangeRecord τ) (createdAt : Nat)
  | userInserted (exchange : ExchangeRecord τ) (createdAt : Nat) (userId : MessageId)
  | assistantInserted (recorded : Recorded τ)
  | ended
deriving DecidableEq, Repr

inductive Action (τ : Type*) where
  | begin (exchange : ExchangeRecord τ) (now : Nat)
  /-- The next statement of the transaction. -/
  | execute (transaction : Nat)
  | rollback (transaction : Nat)
deriving DecidableEq, Repr

/-- The database, and the exchanges that were committed. -/
structure State (τ : Type*) where
  store : Store τ
  transactions : List (Transaction τ)
  recorded : List (Recorded τ)

def State.empty : State τ := ⟨.empty, [], []⟩

/-- The next statement of one transaction: two inserts and the commit. -/
def State.execute (s : State τ) (n : Nat) : Transaction τ → Option (State τ)
  | .begun exchange createdAt =>
    let store := s.store.drawId
    some { s with
      store := store
      transactions := s.transactions.set n (.userInserted exchange createdAt store.lastId) }
  | .userInserted exchange createdAt userId =>
    let store := s.store.drawId
    some { s with
      store := store
      transactions := s.transactions.set n
        (.assistantInserted ⟨exchange, userId, store.lastId, createdAt⟩) }
  | .assistantInserted recorded =>
    some { s with
      store := s.store.commitExchange recorded.exchange recorded.userId recorded.assistantId
        recorded.createdAt
      transactions := s.transactions.set n .ended
      recorded := s.recorded ++ [recorded] }
  | .ended => none

def State.step (s : State τ) : Action τ → Option (State τ × List Unit)
  | .begin exchange now =>
    some ({ s with transactions := s.transactions ++ [.begun exchange now] }, [])
  | .execute n => ((s.transactions[n]?).bind (s.execute n)).map fun s' => (s', [])
  | .rollback n =>
    if n < s.transactions.length then
      some ({ s with transactions := s.transactions.set n .ended }, [])
    else none

def database : Machine (State τ) (Action τ) Unit := ⟨State.step⟩

/-- Every exchange that was committed has its answer right after its question. -/
def Paired (s : State τ) : Prop :=
  ∀ recorded ∈ s.recorded,
    [recorded.userRow, recorded.assistantRow] <:+: s.store.profileRows recorded.exchange.profile

/-- No message of the profile lies between the ids of the exchange, and neither of them lies
between those of an exchange of the profile that was committed. -/
def Apart (s : State τ) (recorded : Recorded τ) : Prop :=
  (∀ row ∈ s.store.profileRows recorded.exchange.profile, ¬ recorded.Around row.id) ∧
    ∀ earlier ∈ s.recorded, earlier.exchange.profile = recorded.exchange.profile →
      ¬ earlier.Around recorded.userId ∧ ¬ earlier.Around recorded.assistantId

/-- The step commits no exchange that overlaps another one. -/
def Serial (s : State τ) (action : Action τ) : Prop :=
  ∀ n recorded, action = .execute n → s.transactions[n]? = some (.assistantInserted recorded) →
    Apart s recorded

/-! ## Rows next to each other -/

/-- In a list that ascends strictly two entries are next to each other exactly when no other
lies between them. -/
theorem infix_pair_iff {α : Type*} {key : α → Nat} {xs : List α} {a b : α}
    (hsorted : xs.Pairwise fun x y => key x < key y) (ha : a ∈ xs) (hb : b ∈ xs)
    (hlt : key a < key b) :
    [a, b] <:+: xs ↔ ∀ x ∈ xs, ¬ (key a < key x ∧ key x < key b) := by
  constructor
  · rintro ⟨before, after, rfl⟩ x hx ⟨hax, hxb⟩
    obtain ⟨hfirst, -, hafter⟩ := List.pairwise_append.mp hsorted
    obtain ⟨-, -, hbefore⟩ := List.pairwise_append.mp hfirst
    simp only [List.mem_append, List.mem_cons, List.not_mem_nil, or_false] at hx
    rcases hx with (hx | rfl | rfl) | hx
    · have := hbefore x hx a List.mem_cons_self
      omega
    · omega
    · omega
    · have := hafter b (by simp) x hx
      omega
  · intro h
    obtain ⟨before, after, rfl⟩ := List.append_of_mem ha
    obtain ⟨-, htail, hbefore⟩ := List.pairwise_append.mp hsorted
    have hbefore' : b ∉ before := fun hmem => by
      have := hbefore b hmem a List.mem_cons_self
      omega
    have hne : b ≠ a := fun heq => by
      rw [heq] at hlt
      omega
    have hafter : b ∈ after := by simpa [hbefore', hne] using hb
    cases after with
    | nil => cases hafter
    | cons c rest =>
      rcases List.mem_cons.mp hafter with rfl | hrest
      · exact ⟨before, rest, by simp⟩
      · obtain ⟨hafterA, htail'⟩ := List.pairwise_cons.mp htail
        exact absurd ⟨hafterA c List.mem_cons_self, (List.pairwise_cons.mp htail').1 b hrest⟩
          (h c (by simp))

/-! ## What a step does -/

inductive Step (s : State τ) : Action τ → State τ → Prop where
  | began (exchange : ExchangeRecord τ) (now : Nat) :
      Step s (.begin exchange now)
        { s with transactions := s.transactions ++ [.begun exchange now] }
  | userInserted {n : Nat} {exchange : ExchangeRecord τ} {createdAt : Nat}
      (htx : s.transactions[n]? = some (.begun exchange createdAt)) :
      Step s (.execute n) { s with
        store := s.store.drawId
        transactions := s.transactions.set n
          (.userInserted exchange createdAt (s.store.lastId + 1)) }
  | assistantInserted {n : Nat} {exchange : ExchangeRecord τ} {createdAt : Nat}
      {userId : MessageId}
      (htx : s.transactions[n]? = some (.userInserted exchange createdAt userId)) :
      Step s (.execute n) { s with
        store := s.store.drawId
        transactions := s.transactions.set n
          (.assistantInserted ⟨exchange, userId, s.store.lastId + 1, createdAt⟩) }
  | committed {n : Nat} {recorded : Recorded τ}
      (htx : s.transactions[n]? = some (.assistantInserted recorded)) :
      Step s (.execute n) { s with
        store := (s.store.insert recorded.userRow).insert recorded.assistantRow
        transactions := s.transactions.set n .ended
        recorded := s.recorded ++ [recorded] }
  | rolledBack {n : Nat} (hlt : n < s.transactions.length) :
      Step s (.rollback n) { s with transactions := s.transactions.set n .ended }

variable {s s' : State τ} {action : Action τ} {os : List Unit}

theorem step_cases (h : database.step s action = some (s', os)) : Step s action s' := by
  cases action with
  | begin exchange now =>
    obtain ⟨rfl, -⟩ := Prod.mk.inj (Option.some.inj h)
    exact .began exchange now
  | execute n =>
    obtain ⟨t, ht, heq⟩ := Option.map_eq_some_iff.mp h
    obtain ⟨transaction, htx, hstep⟩ := Option.bind_eq_some_iff.mp ht
    obtain ⟨rfl, -⟩ := Prod.mk.inj heq
    cases transaction with
    | begun exchange createdAt =>
      obtain rfl := Option.some.inj hstep
      exact .userInserted htx
    | userInserted exchange createdAt userId =>
      obtain rfl := Option.some.inj hstep
      exact .assistantInserted htx
    | assistantInserted recorded =>
      obtain rfl := Option.some.inj hstep
      exact .committed htx
    | ended => cases hstep
  | rollback n =>
    obtain ⟨hlt, heq⟩ := Option.ite_none_right_eq_some.mp h
    obtain ⟨rfl, -⟩ := Prod.mk.inj (Option.some.inj heq)
    exact .rolledBack hlt

/-! ## The ids in use -/

/-- The ids an open transaction holds. -/
def Transaction.drawn : Transaction τ → List MessageId
  | .begun _ _ => []
  | .userInserted _ _ userId => [userId]
  | .assistantInserted recorded => [recorded.userId, recorded.assistantId]
  | .ended => []

def State.ids (s : State τ) : List MessageId :=
  s.store.rows.map Row.id ++ s.transactions.flatMap Transaction.drawn

structure WellFormed (s : State τ) : Prop where
  /-- The primary key, also against rows that are not committed yet. -/
  nodup : s.ids.Nodup
  /-- The sequence is not behind. -/
  drawn : ∀ id ∈ s.ids, id ≤ s.store.lastId
  pending : ∀ {recorded}, .assistantInserted recorded ∈ s.transactions →
    recorded.userId < recorded.assistantId
  recorded : ∀ {recorded}, recorded ∈ s.recorded → recorded.userRow ∈ s.store.rows ∧
    recorded.assistantRow ∈ s.store.rows ∧ recorded.userId < recorded.assistantId

/-- What the other transactions hold while one goes on. -/
theorem drawn_set {transactions : List (Transaction τ)} {n : Nat} {transaction : Transaction τ}
    (h : transactions[n]? = some transaction) :
    ∃ rest, (transactions.flatMap Transaction.drawn).Perm (transaction.drawn ++ rest) ∧
      ∀ next, ((transactions.set n next).flatMap Transaction.drawn).Perm (next.drawn ++ rest) := by
  obtain ⟨hlt, hget⟩ := List.getElem?_eq_some_iff.mp h
  refine ⟨(transactions.take n ++ transactions.drop (n + 1)).flatMap Transaction.drawn, ?_, ?_⟩
  · have hsplit : transactions =
        transactions.take n ++ transaction :: transactions.drop (n + 1) := by
      rw [← hget, ← List.drop_eq_getElem_cons hlt, List.take_append_drop]
    conv_lhs => rw [hsplit]
    simp only [List.flatMap_append, List.flatMap_cons]
    exact List.perm_append_comm_assoc ..
  · intro next
    rw [List.set_eq_take_append_cons_drop, if_pos hlt]
    simp only [List.flatMap_append, List.flatMap_cons]
    exact List.perm_append_comm_assoc ..

/-- An insert draws an id that is not in use. -/
theorem ids_draw {n : Nat} {transaction next : Transaction τ}
    (htx : s.transactions[n]? = some transaction)
    (hnext : next.drawn = transaction.drawn ++ [s.store.lastId + 1]) :
    (State.mk s.store.drawId (s.transactions.set n next) s.recorded).ids.Perm
      ((s.store.lastId + 1) :: s.ids) := by
  obtain ⟨rest, hold, hset⟩ := drawn_set htx
  unfold State.ids
  refine ((hset next).append_left _).trans ?_
  rw [hnext, List.append_assoc]
  refine .trans (.append_left _ List.perm_middle) (List.perm_middle.trans (.cons _ ?_))
  exact hold.symm.append_left _

theorem ids_commit {n : Nat} {recorded : Recorded τ}
    (htx : s.transactions[n]? = some (.assistantInserted recorded)) :
    (State.mk ((s.store.insert recorded.userRow).insert recorded.assistantRow)
      (s.transactions.set n .ended) (s.recorded ++ [recorded])).ids.Perm s.ids := by
  obtain ⟨rest, hold, hset⟩ := drawn_set htx
  have hrows : (((s.store.insert recorded.userRow).insert recorded.assistantRow).rows.map
      Row.id).Perm (recorded.assistantId :: recorded.userId :: s.store.rows.map Row.id) :=
    ((List.perm_orderedInsert _ _ _).trans (.cons _ (List.perm_orderedInsert _ _ _))).map Row.id
  unfold State.ids
  refine (hrows.append (hset .ended)).trans ?_
  refine .trans ?_ (hold.symm.append_left _)
  refine (List.Perm.swap ..).trans ?_
  exact (List.perm_append_comm_assoc [recorded.userId, recorded.assistantId] _ _)

theorem wellFormed_draw (h : WellFormed s) {n : Nat} {transaction next : Transaction τ}
    (htx : s.transactions[n]? = some transaction)
    (hnext : next.drawn = transaction.drawn ++ [s.store.lastId + 1])
    (hpending : ∀ recorded, next = .assistantInserted recorded →
      recorded.userId < recorded.assistantId) :
    WellFormed (State.mk s.store.drawId (s.transactions.set n next) s.recorded) where
  nodup := by
    refine (ids_draw htx hnext).nodup_iff.mpr (List.nodup_cons.mpr ⟨fun hmem => ?_, h.nodup⟩)
    exact Nat.not_succ_le_self _ (h.drawn _ hmem)
  drawn := fun id hid => by
    show id ≤ s.store.lastId + 1
    rcases List.mem_cons.mp ((ids_draw htx hnext).mem_iff.mp hid) with rfl | hid
    · exact Nat.le_refl _
    · exact Nat.le_succ_of_le (h.drawn id hid)
  pending := fun hmem => by
    rcases List.mem_or_eq_of_mem_set hmem with hmem | heq
    · exact h.pending hmem
    · exact hpending _ heq.symm
  recorded := h.recorded

theorem wellFormed_step (h : WellFormed s) (hstep : Step s action s') : WellFormed s' := by
  cases hstep with
  | began exchange now =>
    have hids : (State.mk s.store (s.transactions ++ [.begun exchange now]) s.recorded).ids =
        s.ids := by
      simp [State.ids, Transaction.drawn]
    refine ⟨hids ▸ h.nodup, hids ▸ h.drawn, fun hmem => ?_, h.recorded⟩
    rcases List.mem_append.mp hmem with hmem | hmem
    · exact h.pending hmem
    · cases List.mem_singleton.mp hmem
  | userInserted htx => exact wellFormed_draw h htx rfl fun _ heq => by cases heq
  | @assistantInserted n exchange createdAt userId htx =>
    have hlast := h.drawn userId (List.mem_append_right _
      (List.mem_flatMap.mpr ⟨_, List.mem_of_getElem? htx, List.mem_singleton_self _⟩))
    refine wellFormed_draw h htx rfl fun _ heq => ?_
    obtain rfl := Transaction.assistantInserted.inj heq
    exact Nat.lt_succ_of_le hlast
  | @committed n recorded htx =>
    have hperm := ids_commit htx
    refine ⟨hperm.nodup_iff.mpr h.nodup, fun id hid => h.drawn id (hperm.mem_iff.mp hid),
      fun hmem => ?_, fun {other} hmem => ?_⟩
    · rcases List.mem_or_eq_of_mem_set hmem with hmem | heq
      · exact h.pending hmem
      · cases heq
    · simp only [Store.mem_insert]
      rcases List.mem_append.mp hmem with hmem | hmem
      · obtain ⟨huser, hassistant, hlt⟩ := h.recorded hmem
        exact ⟨.inr (.inr huser), .inr (.inr hassistant), hlt⟩
      · obtain rfl := List.mem_singleton.mp hmem
        exact ⟨.inr (.inl rfl), .inl rfl, h.pending (List.mem_of_getElem? htx)⟩
  | @rolledBack n hlt =>
    obtain ⟨rest, hold, hset⟩ := drawn_set (List.getElem?_eq_getElem hlt)
    obtain ⟨ids, hperm, hsub⟩ :
        (State.mk s.store (s.transactions.set n .ended) s.recorded).ids.Subperm s.ids := by
      refine ((hset .ended).append_left _).subperm.trans ?_
      refine ((List.subperm_append_left _).mpr ?_).trans (hold.symm.append_left _).subperm
      exact (List.sublist_append_right _ _).subperm
    refine ⟨hperm.nodup_iff.mp (h.nodup.sublist hsub),
      fun id hid => h.drawn id (hsub.subset (hperm.mem_iff.mpr hid)), fun hmem => ?_, h.recorded⟩
    rcases List.mem_or_eq_of_mem_set hmem with hmem | heq
    · exact h.pending hmem
    · cases heq

/-! ## Pairs -/

theorem wellFormed_empty : WellFormed (State.empty : State τ) where
  nodup := List.nodup_nil
  drawn := fun _ hid => by cases hid
  pending := fun hmem => by cases hmem
  recorded := fun hmem => by cases hmem

/-- Exchanges are paired exactly when no message lies between the two of an exchange. -/
theorem paired_iff (h : WellFormed s) : Paired s ↔ ∀ recorded ∈ s.recorded,
    ∀ row ∈ s.store.profileRows recorded.exchange.profile, ¬ recorded.Around row.id := by
  refine forall₂_congr fun recorded hrecorded => ?_
  obtain ⟨huser, hassistant, hlt⟩ := h.recorded hrecorded
  have hstrict : s.store.rows.Pairwise fun a b => a.id < b.id := by
    have hne : s.store.rows.Pairwise fun a b => a.id ≠ b.id :=
      List.pairwise_map.mp (List.nodup_append.mp h.nodup).1
    exact (s.store.ordered.and hne).imp fun hab => Nat.lt_of_le_of_ne hab.1 hab.2
  refine infix_pair_iff (hstrict.filter _) ?_ ?_ hlt
  · exact Store.mem_profileRows.mpr ⟨huser, rfl⟩
  · exact Store.mem_profileRows.mpr ⟨hassistant, rfl⟩

/-- A commit keeps the pairs exactly when it is no overlap. -/
theorem paired_commit (h : WellFormed s) (hpaired : Paired s) {n : Nat} {recorded : Recorded τ}
    (htx : s.transactions[n]? = some (.assistantInserted recorded)) :
    Paired (State.mk ((s.store.insert recorded.userRow).insert recorded.assistantRow)
      (s.transactions.set n .ended) (s.recorded ++ [recorded])) ↔ Apart s recorded := by
  rw [paired_iff (wellFormed_step h (.committed htx))]
  have hold := (paired_iff h).mp hpaired
  constructor
  · intro hnew
    refine ⟨fun row hrow => ?_, fun earlier hearlier hprofile => ?_⟩
    · obtain ⟨hmem, hprofile⟩ := Store.mem_profileRows.mp hrow
      exact hnew recorded (by simp) row (by simp [hmem, hprofile])
    · have hbetween := hnew earlier (List.mem_append_left _ hearlier)
      exact ⟨hbetween recorded.userRow (by simp [hprofile, Recorded.userRow]),
        hbetween recorded.assistantRow (by simp [hprofile, Recorded.assistantRow])⟩
  · rintro ⟨hrows, hearlier⟩ other hother row hrow
    obtain ⟨hmem, hprofile⟩ := Store.mem_profileRows.mp hrow
    simp only [Store.mem_insert] at hmem
    rcases List.mem_append.mp hother with hother | hother
    · rcases hmem with rfl | rfl | hmem
      · exact (hearlier other hother hprofile.symm).2
      · exact (hearlier other hother hprofile.symm).1
      · exact hold other hother row (Store.mem_profileRows.mpr ⟨hmem, hprofile⟩)
    · obtain rfl := List.mem_singleton.mp hother
      rcases hmem with rfl | rfl | hmem
      · exact fun hbetween => Nat.lt_irrefl _ hbetween.2
      · exact fun hbetween => Nat.lt_irrefl _ hbetween.1
      · exact hrows row (Store.mem_profileRows.mpr ⟨hmem, hprofile⟩)

theorem paired_step (h : WellFormed s) (hpaired : Paired s) (hstep : Step s action s') :
    Paired s' ↔ Serial s action := by
  cases hstep with
  | began exchange now => exact iff_of_true hpaired fun _ _ heq => by cases heq
  | rolledBack hlt => exact iff_of_true hpaired fun _ _ heq => by cases heq
  | userInserted htx | assistantInserted htx =>
    refine iff_of_true hpaired fun n recorded heq htx' => ?_
    obtain rfl := Action.execute.inj heq
    cases htx.symm.trans htx'
  | committed htx =>
    rw [paired_commit h hpaired htx]
    refine ⟨fun hapart n recorded heq htx' => ?_, fun hserial => hserial _ _ rfl htx⟩
    obtain rfl := Action.execute.inj heq
    obtain rfl := Transaction.assistantInserted.inj (Option.some.inj (htx.symm.trans htx'))
    exact hapart

/-- In a run of any number of transactions the exchanges stay paired exactly when no exchange
is committed whose inserts overlap with those of another one of its profile. -/
theorem exchanges_paired_iff (h : WellFormed s) (hpaired : Paired s) {actions : List (Action τ)}
    (he : database.exec s actions = some (s', os)) :
    database.Always (fun s _ => Paired s) s [] actions ↔ database.Along Serial s actions :=
  Machine.always_iff_along (J := fun s _ => WellFormed s) (D := fun _ _ => True)
    (fun hJ _ hstep => wellFormed_step hJ (step_cases hstep))
    (fun hJ hI _ hstep => paired_step hJ hI (step_cases hstep))
    h hpaired (Machine.Along.free _ _) he

def sumExchange : ExchangeRecord Text := ⟨"дима".toList, "2+2".toList, "4".toList, 1⟩

def skyExchange : ExchangeRecord Text := ⟨"дима".toList, "небо".toList, "синее".toList, 1⟩

/-- Both transactions are open at once, the second inserts after the first. -/
def oneByOne : List (Action Text) :=
  [.begin sumExchange 0, .begin skyExchange 0, .execute 0, .execute 0, .execute 1, .execute 1,
    .execute 1, .execute 0]

theorem exchanges_paired_one_by_one : ∃ s' os, database.exec .empty oneByOne = some (s', os) ∧
    (database.Always (fun s _ => Paired s) .empty [] oneByOne ↔
      database.Along Serial .empty oneByOne) :=
  ⟨_, _, rfl, exchanges_paired_iff wellFormed_empty (fun _ hr => by cases hr) rfl⟩

/-- The inserts of two exchanges alternate: question, question, answer, answer. -/
theorem exchanges_interleave : ∃ s' os, database.exec .empty
    [.begin sumExchange 0, .begin skyExchange 0, .execute 0, .execute 1, .execute 0, .execute 1,
      .execute 0, .execute 1] = some (s', os) ∧
    (s'.store.recentMessages "дима".toList 4).map Row.content =
      ["2+2".toList, "небо".toList, "4".toList, "синее".toList] ∧ ¬ Paired s' := by
  refine ⟨_, _, rfl, rfl, fun hpaired => ?_⟩
  have hsum := hpaired ⟨sumExchange, 1, 3, 0⟩ List.mem_cons_self
  revert hsum
  decide

end AliceBridge.Core.Exchanges
