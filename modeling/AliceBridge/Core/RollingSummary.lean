import AliceBridge.Core.Summarize

/-! # The rolling summary and the messages it covers

A summarization reads the messages above the summary first and the summary to
go on from later, and its result replaces whatever summary there is by then.
`covered` is the mark it selected its messages above. The invariant of a task
says where a stored message of its profile can be: in the hands of the task, in
the text it goes on from, or above all it has. -/
namespace AliceBridge.Core.RollingSummary
open AliceBridge.Lib.Utf8 AliceBridge.Lib.Run AliceBridge.Core.Conversation
open AliceBridge.Core.Engine AliceBridge.Core.EngineSteps
open AliceBridge.Core.HouseEngine (CallId)
open AliceBridge.Core.Summarize (instruction_previous instruction_row)

/-- The messages folded into the summary of a profile, directly or through a previous one. -/
def foldedInto (store : Store Content) (profile : Text) : List MessageId :=
  ((store.summaries profile).map fun summary => summary.content.folded).getD []

/-- Every stored message lies above the summary of its profile or is folded into it. -/
def NoneDropped (store : Store Content) : Prop :=
  ∀ row ∈ store.rows,
    store.coversUntil row.profile < row.id ∨ row.id ∈ foldedInto store row.profile

instance (store : Store Content) : Decidable (NoneDropped store) :=
  inferInstanceAs (Decidable (∀ row ∈ store.rows, _))

/-! ## The condition -/

/-- The last message that a running summarization of the profile has selected. -/
def reach (profile : Text) : Summarizer → MessageId
  | .previous owner rows _ | .chatting owner rows _ =>
    if owner = profile then lastOfRows rows else 0
  | .upsert owner summary => if owner = profile then summary.coversUntilMessageId else 0
  | _ => 0

/-- The summary a task goes on from covers all the stored messages that the one it
selected above had covered. -/
def readsOn (store : Store Content) (ok : Bool) : Summarizer → Bool
  | .previous profile _ covered =>
    (store.profileRows profile).all fun row =>
      decide (row.id ≤ covered → row.id ≤ if ok then store.coversUntil profile else 0)
  | _ => true

/-- The messages that appear lie above the summary of their profile and above all that
its running summarizations have selected. -/
def commitsAbove (s : State) : Task → Bool
  | .recordCommit exchange userId assistantId _ =>
    [userId, assistantId].all fun id =>
      decide (s.shared.store.coversUntil exchange.profile < id) &&
        s.calls.all fun call : Call => decide (reach exchange.profile call.summarizer < id)
  | _ => true

def inOrder (s : State) : Action → Bool
  | .task c (.previousRead ok) =>
    (s.calls[c]?).all fun call : Call => readsOn s.shared.store ok call.summarizer
  | .task c (.recordCommitted outcome) =>
    !outcome.applies || (s.calls[c]?).all fun call : Call => commitsAbove s call.task
  | _ => true

/-! ## The invariant -/

/-- Where a stored message of the profile is, for a summarization under way. -/
def Accounts (store : Store Content) : Summarizer → Prop
  | .previous profile rows covered => ∀ row ∈ store.rows, row.profile = profile →
      row.id ≤ covered ∨ row.id ∈ rows.map Row.id ∨ lastOfRows rows < row.id
  | .chatting profile rows previous => ∀ row ∈ store.rows, row.profile = profile →
      row.id ∈ previous.folded ∨ row.id ∈ rows.map Row.id ∨ lastOfRows rows < row.id
  | .upsert profile summary => ∀ row ∈ store.rows, row.profile = profile →
      row.id ∈ summary.content.folded ∨ summary.coversUntilMessageId < row.id
  | _ => True

structure Invariant (s : State) : Prop where
  kept : NoneDropped s.shared.store
  positive : ∀ row ∈ s.shared.store.rows, 0 < row.id
  accounts : ∀ {c : CallId} {call : Call}, s.calls[c]? = some call →
    Accounts s.shared.store call.summarizer

variable {engine : Engine} {sh sh' : Shared} {s s' : State} {c : CallId} {call call' : Call}
  {e : Event} {a : Action} {os os' : List Obs} {store store' : Store Content} {profile : Text}
  {summarizer : Summarizer}

theorem Accounts.subset (h : Accounts store summarizer)
    (hrows : ∀ row ∈ store'.rows, row ∈ store.rows) : Accounts store' summarizer := by
  unfold Accounts at h ⊢
  split at h
  · exact fun row hrow => h row (hrows row hrow)
  · exact fun row hrow => h row (hrows row hrow)
  · exact fun row hrow => h row (hrows row hrow)
  · trivial

/-- A message above all that a task has selected does not concern it. -/
theorem Accounts.commit {exchange : ExchangeRecord Content} {userId assistantId : MessageId}
    {createdAt : Nat} (h : Accounts store summarizer)
    (habove : ∀ id ∈ [userId, assistantId], reach exchange.profile summarizer < id) :
    Accounts (store.commitExchange exchange userId assistantId createdAt) summarizer := by
  have hnew : ∀ row ∈ (store.commitExchange exchange userId assistantId createdAt).rows,
      row ∈ store.rows ∨ reach row.profile summarizer < row.id := by
    intro row hrow
    rcases Store.mem_commitExchange hrow with hrow | ⟨hprofile, ⟨hid, _⟩ | ⟨hid, _⟩⟩
    · exact .inl hrow
    · rw [hprofile, hid]
      exact .inr (habove _ (by simp))
    · rw [hprofile, hid]
      exact .inr (habove _ (by simp))
  unfold Accounts at h ⊢
  split at h
  · intro row hrow hprofile
    rcases hnew row hrow with hold | hreach
    · exact h row hold hprofile
    · exact .inr (.inr (by simpa [reach, hprofile] using hreach))
  · intro row hrow hprofile
    rcases hnew row hrow with hold | hreach
    · exact h row hold hprofile
    · exact .inr (.inr (by simpa [reach, hprofile] using hreach))
  · intro row hrow hprofile
    rcases hnew row hrow with hold | hreach
    · exact h row hold hprofile
    · exact .inr (by simpa [reach, hprofile] using hreach)
  · trivial

/-! ## The store -/

theorem NoneDropped.commit {exchange : ExchangeRecord Content} {userId assistantId : MessageId}
    {createdAt : Nat} (h : NoneDropped store)
    (habove : ∀ id ∈ [userId, assistantId], store.coversUntil exchange.profile < id) :
    NoneDropped (store.commitExchange exchange userId assistantId createdAt) := by
  intro row hrow
  rcases Store.mem_commitExchange hrow with hrow | ⟨hprofile, ⟨hid, _⟩ | ⟨hid, _⟩⟩
  · exact h row hrow
  · rw [hprofile, hid]
    exact .inl (habove _ (by simp))
  · rw [hprofile, hid]
    exact .inl (habove _ (by simp))

theorem NoneDropped.delete {owner : Text} {ids : List MessageId} {summary : Bool}
    (h : NoneDropped store) (hpositive : ∀ row ∈ store.rows, 0 < row.id) :
    NoneDropped (store.delete owner ids summary) := by
  intro row hrow
  have hold := (Store.mem_delete.mp hrow).1
  have hkept := h row hold
  by_cases hcleared : summary = true ∧ row.profile = owner
  · left
    rw [Store.coversUntil, Store.delete_summaries, if_pos hcleared]
    exact hpositive row hold
  · simpa only [Store.coversUntil, foldedInto, Store.delete_summaries, if_neg hcleared] using hkept

/-- What a finished summarization accounts for, its summary keeps. -/
theorem NoneDropped.upsert {owner : Text} {summary : Summary Content} (h : NoneDropped store)
    (haccounts : Accounts store (.upsert owner summary)) :
    NoneDropped (store.upsertSummary owner summary) := by
  intro row hrow
  by_cases hprofile : row.profile = owner
  · rcases haccounts row hrow hprofile with hfolded | habove
    · exact .inr (by simpa [foldedInto, Store.upsertSummary, hprofile] using hfolded)
    · exact .inl (by simpa [Store.coversUntil, Store.upsertSummary, hprofile] using habove)
  · have hkept := h row hrow
    simpa only [Store.coversUntil, foldedInto, Store.upsertSummary,
      Store.setSummary_other hprofile] using hkept

/-! ## The task -/

/-- The rows a task selects account for every stored message above the summary. -/
theorem accounts_select {keepLast : Nat} (hpositive : ∀ row ∈ store.rows, 0 < row.id) :
    Accounts store
      (.previous profile (store.unsummarized profile keepLast) (store.coversUntil profile)) := by
  intro row hrow hprofile
  rcases Store.unsummarized_spec keepLast hrow hprofile with h | h | h
  · exact .inl h
  · exact .inr (.inl (List.mem_map_of_mem h))
  · by_cases hmem : row.id ∈ (store.unsummarized profile keepLast).map Row.id
    · exact .inr (.inl hmem)
    · refine .inr (.inr (lastOfRows_lt.mpr ⟨hpositive row hrow, fun selected hselected => ?_⟩))
      have hne : selected.id ≠ row.id := fun heq => hmem (heq ▸ List.mem_map_of_mem hselected)
      exact Nat.lt_of_le_of_ne (h selected hselected) hne

/-- The summary a task goes on from accounts for what lies below its rows. -/
theorem accounts_previous {rows : List (Row Content)} {covered : MessageId} {ok : Bool}
    (hkept : NoneDropped store) (hpositive : ∀ row ∈ store.rows, 0 < row.id)
    (h : Accounts store (.previous profile rows covered))
    (hread : readsOn store ok (.previous profile rows covered) = true) :
    Accounts store (.chatting profile rows (previousContent store profile ok)) := by
  intro row hrow hprofile
  rcases h row hrow hprofile with hcovered | hselected
  · left
    have hmem : row ∈ store.profileRows profile := Store.mem_profileRows.mpr ⟨hrow, hprofile⟩
    have hbelow := of_decide_eq_true (List.all_eq_true.mp hread row hmem) hcovered
    cases ok with
    | false => exact absurd hbelow (Nat.not_le.mpr (hpositive row hrow))
    | true =>
      have hfolded : row.id ∈ foldedInto store profile := by
        rcases hkept row hrow with habove | hfolded
        · rw [hprofile] at habove
          exact absurd hbelow (Nat.not_le.mpr habove)
        · rwa [hprofile] at hfolded
      unfold foldedInto at hfolded
      unfold previousContent
      cases hsummary : store.summaries profile with
      | none =>
        rw [hsummary] at hfolded
        cases hfolded
      | some summary =>
        rw [hsummary] at hfolded
        exact hfolded
  · exact .inr hselected

/-- A new summary counts as folded what its request told: what the previous text stands for,
and its messages. -/
theorem folded_told (previous : Content) (rows : List (Row Content)) (text : Text) :
    (rollingSummary previous rows text).content.folded = previous.folded ++ rows.map Row.id ∧
      previous.text <:+: (instruction previous rows).text ∧
      ∀ row ∈ rows, transcript [row] <:+: (instruction previous rows).text :=
  ⟨rfl, instruction_previous, fun _ h => instruction_row h⟩

theorem accounts_summarized {rows : List (Row Content)} {previous : Content} {text : Text}
    (h : Accounts store (.chatting profile rows previous)) :
    Accounts store (.upsert profile (rollingSummary previous rows text)) := by
  intro row hrow hprofile
  have hfolded := (folded_told previous rows text).1
  rcases h row hrow hprofile with h | h | h
  · exact .inl (hfolded ▸ List.mem_append_left _ h)
  · exact .inl (hfolded ▸ List.mem_append_right _ h)
  · exact .inr h

/-! ## One step -/

/-- What the condition says of a commit. -/
theorem commitsAbove_spec {exchange : ExchangeRecord Content} {userId assistantId : MessageId}
    {createdAt : Nat}
    (h : commitsAbove s (.recordCommit exchange userId assistantId createdAt) = true)
    {id : MessageId} (hid : id ∈ [userId, assistantId]) :
    s.shared.store.coversUntil exchange.profile < id ∧
      ∀ call ∈ s.calls, reach exchange.profile call.summarizer < id := by
  have hboth := Bool.and_eq_true_iff.mp (List.all_eq_true.mp h id hid)
  refine ⟨of_decide_eq_true hboth.1, fun call hcall => ?_⟩
  exact of_decide_eq_true (List.all_eq_true.mp hboth.2 call hcall)

theorem store_step (hI : Invariant s) (hcall : s.calls[c]? = some call)
    (hC : inOrder s (.task c e) = true) (h : StoreStep s.shared call e sh') :
    NoneDropped sh'.store ∧ (∀ row ∈ sh'.store.rows, 0 < row.id) ∧
      ∀ {c' : CallId} {other : Call}, s.calls[c']? = some other →
        Accounts sh'.store other.summarizer := by
  cases h with
  | unchanged hrows hsummaries =>
    refine ⟨?_, hrows ▸ hI.positive,
      fun hother => (hI.accounts hother).subset (hrows ▸ fun _ h => h)⟩
    simpa only [NoneDropped, Store.coversUntil, foldedInto, hrows, hsummaries] using hI.kept
  | @recorded exchange userId assistantId createdAt outcome he happlies htask hstore =>
    subst he
    have hcommit : commitsAbove s (.recordCommit exchange userId assistantId createdAt) = true := by
      simpa [inOrder, happlies, hcall, htask] using hC
    rw [hstore]
    refine ⟨hI.kept.commit fun id hid => (commitsAbove_spec hcommit hid).1, fun row hrow => ?_,
      fun hother => ?_⟩
    · rcases Store.mem_commitExchange hrow with hrow | ⟨_, ⟨hid, _⟩ | ⟨hid, _⟩⟩
      · exact hI.positive row hrow
      · rw [hid]
        exact Nat.zero_lt_of_lt (commitsAbove_spec hcommit (by simp)).1
      · rw [hid]
        exact Nat.zero_lt_of_lt (commitsAbove_spec hcommit (by simp)).1
    · refine (hI.accounts hother).commit fun id hid => ?_
      exact (commitsAbove_spec hcommit hid).2 _ (List.mem_of_getElem? hother)
  | deleted _ hstore =>
    rw [hstore]
    refine ⟨hI.kept.delete hI.positive, fun row hrow => ?_, fun hother => ?_⟩
    · exact hI.positive row (Store.mem_delete.mp hrow).1
    · exact (hI.accounts hother).subset fun row hrow => (Store.mem_delete.mp hrow).1
  | upserted hsummarizer hstore =>
    have haccounts := hI.accounts hcall
    rw [hsummarizer] at haccounts
    rw [hstore]
    exact ⟨hI.kept.upsert haccounts, hI.positive, fun hother => (hI.accounts hother).subset
      fun _ hrow => hrow⟩

/-- The summarization of the call that moved, when its old state accounts for the new store. -/
theorem summarizer_step (hI : Invariant s) (hcall : s.calls[c]? = some call)
    (hC : inOrder s (.task c e) = true) (haccounts : Accounts sh'.store call.summarizer)
    (h : CallStep engine s.shared c call e sh' call' os) : Accounts sh'.store call'.summarizer := by
  cases h with
  | request h => cases h <;> exact haccounts
  | task h =>
    cases h with
    | summarizerSpawned _ => trivial
    | _ => exact haccounts
  | summarizer h =>
    cases h with
    | selected _ => exact accounts_select hI.positive
    | @previousRead _ _ _ ok hsummarizer =>
      have hread : readsOn s.shared.store ok call.summarizer = true := by
        simpa [inOrder, hcall] using hC
      rw [hsummarizer] at haccounts hread
      exact accounts_previous hI.kept hI.positive haccounts hread
    | summarized hsummarizer =>
      rw [hsummarizer] at haccounts
      exact accounts_summarized haccounts
    | _ => trivial

theorem invariant_step (hI : Invariant s) (hC : inOrder s a = true)
    (h : (machine engine).step s a = some (s', os)) : Invariant s' := by
  cases step_cases h with
  | idle _ _ hshared hcalls =>
    have hstore : s'.shared.store = s.shared.store := by rw [hshared]
    refine ⟨hstore ▸ hI.kept, hstore ▸ hI.positive, fun hcall => ?_⟩
    rcases hcalls hcall with hcall | ⟨userId, utterance, rfl⟩
    · exact hstore ▸ hI.accounts hcall
    · trivial
  | moved ha hcall _ hstep hothers =>
    subst ha
    obtain ⟨hkept, hpositive, haccounts⟩ := store_step hI hcall hC (callStep_store hstep)
    refine ⟨hkept, hpositive, fun hother => ?_⟩
    rcases hothers hother with ⟨rfl, rfl⟩ | ⟨_, hother⟩
    · exact summarizer_step hI hcall hC (haccounts hcall) hstep
    · exact haccounts hother

/-- In every run in which each summarization goes on from a summary that covers what the
one it selected above had covered, and each exchange appears above what its profile's
summary and running summarizations cover, no stored message is dropped. -/
theorem summary_drops_nothing {as : List Action}
    (h : (machine engine).exec (initial engine) as = some (s, os))
    (hC : (machine engine).Along (fun s a => inOrder s a = true) (initial engine) as) :
    NoneDropped s.shared.store := by
  have hinitial : Invariant (initial engine) := by
    refine ⟨fun row hrow => ?_, fun row hrow => ?_, fun hcall => ?_⟩
    · cases hrow
    · cases hrow
    · cases hcall
  have hrun : Invariant s := Machine.exec_state_invariant invariant_step hinitial hC h
  exact hrun.kept

/-- Two exchanges, each summarized before the next. -/
def orderlyRun : List Action :=
  exchange 0 ['q'] ['a'] ++ selection 0 ++ tasks 0 [.previousRead true] ++ compression 0 ['s'] ++
    exchange 1 ['q'] ['a'] ++ selection 1 ++ tasks 1 [.previousRead true] ++ compression 1 ['s']

theorem orderlyRun_runs :
    ((machine fixture).exec (initial fixture) orderlyRun).isSome = true ∧
      (machine fixture).Along (fun s a => inOrder s a = true) (initial fixture) orderlyRun := by
  decide +kernel

theorem summary_drops_nothing_orderly : ∃ r,
    (machine fixture).exec (initial fixture) orderlyRun = some r ∧
      NoneDropped r.1.shared.store := by
  obtain ⟨hruns, horder⟩ := orderlyRun_runs
  obtain ⟨r, hr⟩ := Option.isSome_iff_exists.mp hruns
  exact ⟨r, hr, summary_drops_nothing hr horder⟩

/-- The first summarization ends between the two reads of the third and sets the
summary back, and the third goes on from it. -/
def staleRun : List Action :=
  exchange 0 ['q'] ['a'] ++ selection 0 ++ tasks 0 [.previousRead true] ++
    exchange 1 ['q'] ['a'] ++ selection 1 ++ tasks 1 [.previousRead true] ++ compression 1 ['s'] ++
    exchange 2 ['q'] ['a'] ++ selection 2 ++ compression 0 ['t'] ++ tasks 2 [.previousRead true] ++
    compression 2 ['r']

theorem staleRun_drops :
    ((machine fixture).exec (initial fixture) staleRun).map
      (fun r => decide (NoneDropped r.1.shared.store)) = some false := by decide +kernel

theorem stale_summary_drops : ¬ ∀ as s os,
    (machine fixture).exec (initial fixture) as = some (s, os) → NoneDropped s.shared.store := by
  intro h
  obtain ⟨⟨s, os⟩, hr, hdrops⟩ := Option.map_eq_some_iff.mp staleRun_drops
  exact of_decide_eq_false hdrops (h staleRun s os hr)

end AliceBridge.Core.RollingSummary
