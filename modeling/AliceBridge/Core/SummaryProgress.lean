import AliceBridge.Core.Summarize

/-! # Every message is summarized once

Exchanges, clears and summarizations one after another, of any profiles and with any
failures. What has been folded since the last clear is the beginning of the messages of the
profile, up to the mark of its summary; how far it lags behind is bounded by the window of
the last summarization that did not fail. -/
namespace AliceBridge.Core.SummaryProgress
open AliceBridge.Lib.Utf8 AliceBridge.Lib.Run AliceBridge.Core.Conversation
open AliceBridge.Core.Engine AliceBridge.Core.Summarize
open AliceBridge.Core.HouseEngine (Outcome)

/-! ## The calls -/

/-- How far a recording comes, and the ids that others draw before each of its own. -/
structure Recording where
  userInserted : Bool
  assistantInserted : Bool
  committed : Outcome
  skipped : Nat
  skipped' : Nat
deriving DecidableEq

def skip (store : Store Content) (n : Nat) : Store Content :=
  { store with lastId := store.lastId + n }

def recordExchange (store : Store Content) (exchange : ExchangeRecord Content) (createdAt : Nat)
    (recording : Recording) : Store Content :=
  let store := skip store recording.skipped
  if !recording.userInserted then store
  else
    let userId := store.drawId.lastId
    let store := skip store.drawId recording.skipped'
    if !recording.assistantInserted then store
    else
      let assistantId := store.drawId.lastId
      if recording.committed.applies then
        store.drawId.commitExchange exchange userId assistantId createdAt
      else store.drawId

/-- `clear_profile`, if its transaction is committed. -/
def clearProfile (store : Store Content) (profile : Text) (cleared : Bool) : Store Content :=
  if cleared then
    store.delete profile (clearedIds store profile) (store.summaries profile).isSome
  else store

inductive Action where
  | record (exchange : ExchangeRecord Content) (createdAt : Nat) (recording : Recording)
  | clear (profile : Text) (cleared : Bool)
  | summarize (profile : Text) (keepLast : Nat) (answers : Answers)
deriving DecidableEq

/-- A clear that took effect, and a summary that was stored, with the window of the call, the
request that was answered, the rows folded into it and all messages of the profile. -/
inductive Obs where
  | cleared (profile : Text)
  | folded (profile : Text) (keepLast : Nat) (request : Content)
      (rows messages : List (Row Content))
deriving DecidableEq

/-- What a summarization shows of a summary it stored. -/
def shown (profile : Text) (keepLast : Nat) (messages : List (Row Content))
    (call : Summarized) : List Obs :=
  match call.request, call.folded with
  | some request, some rows => [.folded profile keepLast request rows messages]
  | _, _ => []

def step (store : Store Content) : Action → Option (Store Content × List Obs)
  | .record exchange createdAt recording =>
    some (recordExchange store exchange createdAt recording, [])
  | .clear profile cleared =>
    some (clearProfile store profile cleared, if cleared then [.cleared profile] else [])
  | .summarize profile keepLast answers =>
    let call := maybeSummarize store profile keepLast answers
    some (call.store, shown profile keepLast (store.profileRows profile) call)

def machine : Machine (Store Content) Action Obs := ⟨step⟩

/-- The window is at least 1. -/
def windowed : Action → Bool
  | .summarize _ keepLast _ => decide (0 < keepLast)
  | _ => true

/-! ## What has been folded -/

def Obs.fold (profile : Text) (rows : List (Row Content)) : Obs → List (Row Content)
  | .cleared owner => if owner = profile then [] else rows
  | .folded owner _ _ more _ => if owner = profile then rows ++ more else rows

/-- The rows folded since the last clear, in the order they were. -/
def foldedSince (profile : Text) (os : List Obs) : List (Row Content) :=
  os.foldl (Obs.fold profile) []

/-- The id of the last row, 0 without one. -/
def endsAt (rows : List (Row Content)) : MessageId := (rows.getLast?.map Row.id).getD 0

/-- The messages older than the newest `keepLast` that are outside the summary. -/
def lagging (store : Store Content) (profile : Text) (keepLast : Nat) : List (Row Content) :=
  let rows := store.profileRows profile
  (rows.take (rows.length - keepLast)).filter fun row => store.coversUntil profile < row.id

/-- When it is stored, a summary has folded in the next messages after those before it, which
its request tells one by one, and the newest `keepLast` are left. -/
def Next (before : List Obs) : Obs → Prop
  | .cleared _ => True
  | .folded profile keepLast request rows messages =>
    (∃ newest, messages = foldedSince profile before ++ rows ++ newest ∧
      newest.length = keepLast) ∧ ∀ row ∈ rows, transcript [row] <:+: request.text

/-! ## The order of the ids -/

section Store

variable {store : Store Content} {row : Row Content} {rows : List (Row Content)}
  {profile other : Text} {exchange : ExchangeRecord Content} {createdAt : Nat}
  {recording : Recording} {keepLast : Nat} {answers : Answers}

/-- Ids ascend in the table, and none is above the last one drawn. -/
structure Ordered (store : Store Content) : Prop where
  strict : store.rows.Pairwise fun a b => a.id < b.id
  drawn : ∀ row ∈ store.rows, row.id ≤ store.lastId

theorem insert_last (h : ∀ row' ∈ store.rows, row'.id < row.id) :
    (store.insert row).rows = store.rows ++ [row] := by
  have hlast : ∀ rows : List (Row Content), (∀ row' ∈ rows, row'.id < row.id) →
      rows.orderedInsert Row.before row = rows ++ [row] := by
    intro rows h
    induction rows with
    | nil => rfl
    | cons first rows ih =>
      rw [List.forall_mem_cons] at h
      have hlater : ¬ row.before first := Nat.not_le_of_lt h.1
      rw [List.orderedInsert_of_not_le _ _ hlater, ih h.2, List.cons_append]
  exact hlast store.rows h

/-- The messages of an exchange with new ids come after all that are there. -/
theorem commitExchange_rows {userId assistantId : MessageId}
    (h : ∀ row ∈ store.rows, row.id < userId) (hlt : userId < assistantId) :
    ∃ user assistant, user.id = userId ∧ assistant.id = assistantId ∧
      (store.commitExchange exchange userId assistantId createdAt).rows =
        store.rows ++ [user, assistant] := by
  refine ⟨⟨userId, exchange.profile, .user, exchange.userText, 0, createdAt⟩,
    ⟨assistantId, exchange.profile, .assistant, exchange.assistantText, exchange.costMicros,
      createdAt⟩, rfl, rfl, ?_⟩
  unfold Store.commitExchange
  rw [insert_last, insert_last h, List.append_assoc]
  · rfl
  · intro row hrow
    rcases Store.mem_insert.mp hrow with rfl | hrow
    · exact hlt
    · exact Nat.lt_trans (h row hrow) hlt

/-- New messages have ids above the last one drawn before. -/
structure Appends (store store' : Store Content) (new : List (Row Content)) : Prop where
  rows : store'.rows = store.rows ++ new
  strict : new.Pairwise fun a b => a.id < b.id
  above : ∀ row ∈ new, store.lastId < row.id ∧ row.id ≤ store'.lastId
  last : store.lastId ≤ store'.lastId

theorem recordExchange_appends (h : Ordered store) :
    ∃ new, Appends store (recordExchange store exchange createdAt recording) new := by
  have hskipped : store.lastId ≤ (skip store recording.skipped).lastId := Nat.le_add_right ..
  have huser : store.lastId < (skip store recording.skipped).drawId.lastId :=
    Nat.lt_succ_of_le hskipped
  have hskipped' : (skip store recording.skipped).drawId.lastId ≤
      (skip (skip store recording.skipped).drawId recording.skipped').lastId :=
    Nat.le_add_right ..
  have hassistant : (skip store recording.skipped).drawId.lastId <
      (skip (skip store recording.skipped).drawId recording.skipped').drawId.lastId :=
    Nat.lt_succ_of_le hskipped'
  have hnone {store' : Store Content} (hrows : store'.rows = store.rows)
      (hlast : store.lastId ≤ store'.lastId) : ∃ new, Appends store store' new :=
    ⟨[], by rw [hrows, List.append_nil], .nil, fun _ hrow => absurd hrow List.not_mem_nil, hlast⟩
  unfold recordExchange
  simp only
  split
  · exact hnone rfl hskipped
  split
  · exact hnone rfl (Nat.le_of_lt (Nat.lt_of_lt_of_le huser hskipped'))
  split
  · obtain ⟨user, assistant, huserId, hassistantId, hrows⟩ := commitExchange_rows
      (fun row hrow => Nat.lt_of_le_of_lt (h.drawn row hrow) huser) hassistant
    refine ⟨[user, assistant], hrows, ?_, ?_, Nat.le_of_lt (Nat.lt_trans huser hassistant)⟩
    · simpa [huserId, hassistantId] using hassistant
    · intro row hrow
      simp only [List.mem_cons, List.not_mem_nil, or_false] at hrow
      rcases hrow with rfl | rfl
      · rw [huserId]
        exact ⟨huser, Nat.le_of_lt hassistant⟩
      · rw [hassistantId]
        exact ⟨Nat.lt_trans huser hassistant, Nat.le_refl _⟩
  · exact hnone rfl (Nat.le_of_lt (Nat.lt_trans huser hassistant))

theorem recordExchange_summaries :
    (recordExchange store exchange createdAt recording).summaries = store.summaries := by
  unfold recordExchange
  simp only
  split
  · rfl
  split
  · rfl
  split <;> rfl

theorem Ordered.append (h : Ordered store) {store' : Store Content} {new : List (Row Content)}
    (hnew : Appends store store' new) : Ordered store' where
  strict := by
    rw [hnew.rows, List.pairwise_append]
    refine ⟨h.strict, hnew.strict, fun row hrow row' hrow' => ?_⟩
    exact Nat.lt_of_le_of_lt (h.drawn row hrow) (hnew.above row' hrow').1
  drawn := by
    rw [hnew.rows]
    intro row hrow
    rcases List.mem_append.mp hrow with hrow | hrow
    · exact Nat.le_trans (h.drawn row hrow) hnew.last
    · exact (hnew.above row hrow).2

/-- A clear takes the messages and the summary of its profile, and nothing of another. -/
theorem clearProfile_spec (h : Ordered store) :
    (clearProfile store profile true).rows = store.rows.filter (fun row => row.profile ≠ profile) ∧
      (clearProfile store profile true).lastId = store.lastId ∧
      ∀ other, (clearProfile store profile true).summaries other =
        if other = profile then none else store.summaries other := by
  refine ⟨?_, ?_, fun other => ?_⟩
  · have hrows : (clearProfile store profile true).rows =
        store.rows.filter fun row => !(clearedIds store profile).contains row.id := by
      unfold clearProfile Store.delete
      cases (store.summaries profile).isSome <;> rfl
    rw [hrows]
    refine List.filter_congr fun row hrow => ?_
    have hcleared : row.id ∈ clearedIds store profile ↔ row.profile = profile := by
      constructor
      · intro hid
        obtain ⟨row', hrow', hid⟩ := List.mem_map.mp hid
        obtain ⟨hmem, hprofile⟩ := Store.mem_profileRows.mp hrow'
        have hne : (store.rows.map Row.id).Nodup :=
          List.pairwise_map.mpr (h.strict.imp fun hlt => Nat.ne_of_lt hlt)
        exact List.inj_on_of_nodup_map hne hmem hrow hid ▸ hprofile
      · intro hprofile
        exact List.mem_map_of_mem (Store.mem_profileRows.mpr ⟨hrow, hprofile⟩)
    simp [hcleared]
  · unfold clearProfile Store.delete
    cases (store.summaries profile).isSome <;> rfl
  · unfold clearProfile
    simp only [if_true, Store.delete_summaries]
    by_cases hother : other = profile
    · subst hother
      cases store.summaries other <;> simp
    · simp [hother]

/-! ## The part that is folded -/

theorem endsAt_concat (rows : List (Row Content)) (row : Row Content) :
    endsAt (rows ++ [row]) = row.id := by
  simp [endsAt]

theorem le_endsAt (h : rows.Pairwise fun a b => a.id < b.id) (hrow : row ∈ rows) :
    row.id ≤ endsAt rows := by
  rcases List.eq_nil_or_concat' rows with rfl | ⟨front, last, rfl⟩
  · cases hrow
  · rw [endsAt_concat]
    rcases List.mem_append.mp hrow with hrow | hrow
    · exact Nat.le_of_lt ((List.pairwise_append.mp h).2.2 row hrow last List.mem_cons_self)
    · rw [List.mem_singleton.mp hrow]

theorem endsAt_append (folded : List (Row Content)) (h : rows ≠ []) :
    endsAt (folded ++ rows) = endsAt rows := by
  obtain ⟨front, last, rfl⟩ := (List.eq_nil_or_concat' rows).resolve_left h
  rw [← List.append_assoc, endsAt_concat, endsAt_concat]

theorem endsAt_lt {id : MessageId} (hne : rows ≠ []) (h : ∀ row ∈ rows, row.id < id) :
    endsAt rows < id := by
  obtain ⟨front, last, rfl⟩ := (List.eq_nil_or_concat' rows).resolve_left hne
  rw [endsAt_concat]
  exact h last (by simp)

theorem endsAt_le {n : Nat} (h : ∀ row ∈ rows, row.id ≤ n) : endsAt rows ≤ n := by
  rcases List.eq_nil_or_concat' rows with rfl | ⟨front, last, rfl⟩
  · exact Nat.zero_le n
  · rw [endsAt_concat]
    exact h last (by simp)

theorem lastOfRows_eq_endsAt (h : rows.Pairwise fun a b => a.id < b.id) :
    lastOfRows rows = endsAt rows := by
  rcases List.eq_nil_or_concat' rows with rfl | ⟨front, last, rfl⟩
  · rfl
  · rw [endsAt_concat]
    have hmax : ((front ++ [last]).map Row.id).max? = some last.id := by
      rw [List.max?_eq_some_iff]
      refine ⟨by simp, fun id hid => ?_⟩
      obtain ⟨row, hrow, rfl⟩ := List.mem_map.mp hid
      exact endsAt_concat front last ▸ le_endsAt h hrow
    rw [lastOfRows, hmax]
    rfl

end Store

/-! ## Runs -/

section Runs

variable {store store' : Store Content} {profile : Text} {os os' : List Obs} {o : Obs}
  {action : Action} {keepLast : Nat} {answers : Answers} {rest : List (Row Content)}

/-- What has been folded is the beginning of the messages, up to the mark of the summary. -/
structure Split (store : Store Content) (profile : Text) (folded rest : List (Row Content)) :
    Prop where
  messages : store.profileRows profile = folded ++ rest
  covers : store.coversUntil profile = endsAt folded
  above : ∀ row ∈ rest, store.coversUntil profile < row.id

structure Progress (store : Store Content) (os : List Obs) : Prop where
  ordered : Ordered store
  split : ∀ profile, ∃ rest, Split store profile (foldedSince profile os) rest
  next : Each Next os

theorem Ordered.profileRows (h : Ordered store) (profile : Text) :
    (store.profileRows profile).Pairwise fun a b => a.id < b.id := h.strict.filter _

/-- The rows outside the summary are those that have not been folded. -/
theorem Split.outside {folded : List (Row Content)} (h : Split store profile folded rest)
    (ho : Ordered store) :
    (∀ row ∈ folded, ¬ store.coversUntil profile < row.id) ∧
      store.unsummarized profile keepLast = rest.take (rest.length - keepLast) ∧
      lagging store profile keepLast = store.unsummarized profile keepLast := by
  have hstrict := ho.profileRows profile
  rw [h.messages] at hstrict
  have hfolded : ∀ row ∈ folded, ¬ store.coversUntil profile < row.id := fun row hrow =>
    Nat.not_lt_of_le (h.covers ▸ le_endsAt (List.pairwise_append.mp hstrict).1 hrow)
  have hnone : ∀ n, (folded.take n).filter (fun row => store.coversUntil profile < row.id) = [] :=
    fun n => List.filter_eq_nil_iff.mpr fun row hrow => by
      simpa using Nat.le_of_not_lt (hfolded row (List.mem_of_mem_take hrow))
  have hall : ∀ n, (rest.take n).filter (fun row => store.coversUntil profile < row.id) =
      rest.take n := fun n => List.filter_eq_self.mpr fun row hrow => by
    simpa using h.above row (List.mem_of_mem_take hrow)
  have hselected : store.unsummarized profile keepLast = rest.take (rest.length - keepLast) := by
    have hrest := hall rest.length
    have hnil := hnone folded.length
    rw [List.take_length] at hrest hnil
    unfold Store.unsummarized
    rw [h.messages, List.filter_append, hnil, hrest, List.nil_append]
  refine ⟨hfolded, hselected, ?_⟩
  have hlength : (folded ++ rest).length - keepLast - folded.length = rest.length - keepLast := by
    rw [List.length_append]
    omega
  unfold lagging
  dsimp only
  rw [hselected, h.messages, List.take_append, List.filter_append, hnone, hlength, hall,
    List.nil_append]

theorem Split.covers_le {folded : List (Row Content)} (h : Split store profile folded rest)
    (ho : Ordered store) : store.coversUntil profile ≤ store.lastId := by
  rw [h.covers]
  refine endsAt_le fun row hrow => ho.drawn row ?_
  have hmem : row ∈ store.profileRows profile := h.messages ▸ List.mem_append_left _ hrow
  exact (Store.mem_profileRows.mp hmem).1

theorem foldedSince_concat : foldedSince profile (os ++ [o]) =
    o.fold profile (foldedSince profile os) := by
  simp [foldedSince]

/-- A recording leaves the summaries behind by its messages. -/
theorem progress_record (h : Progress store os) {exchange : ExchangeRecord Content}
    {createdAt : Nat} {recording : Recording} :
    Progress (recordExchange store exchange createdAt recording) os := by
  obtain ⟨new, hnew⟩ := @recordExchange_appends store exchange createdAt recording h.ordered
  refine ⟨h.ordered.append hnew, fun profile => ?_, h.next⟩
  obtain ⟨rest, hsplit⟩ := h.split profile
  have hcovers : (recordExchange store exchange createdAt recording).coversUntil profile =
      store.coversUntil profile := by
    rw [Store.coversUntil, recordExchange_summaries, Store.coversUntil]
  refine ⟨rest ++ new.filter (fun row => row.profile == profile), ?_, ?_, ?_⟩
  · rw [Store.profileRows, hnew.rows, List.filter_append, ← Store.profileRows, hsplit.messages,
      List.append_assoc]
  · rw [hcovers, hsplit.covers]
  · rw [hcovers]
    intro row hrow
    rcases List.mem_append.mp hrow with hrow | hrow
    · exact hsplit.above row hrow
    · exact Nat.lt_of_le_of_lt (hsplit.covers_le h.ordered)
        (hnew.above row (List.mem_filter.mp hrow).1).1

/-- A clear begins anew with its profile. -/
theorem progress_clear (h : Progress store os) :
    Progress (clearProfile store profile true) (os ++ [.cleared profile]) := by
  obtain ⟨hrows, hlast, hsummaries⟩ := @clearProfile_spec store profile h.ordered
  refine ⟨⟨?_, ?_⟩, fun other => ?_, h.next.concat trivial⟩
  · rw [hrows]
    exact h.ordered.strict.filter _
  · rw [hrows, hlast]
    exact fun row hrow => h.ordered.drawn row (List.mem_filter.mp hrow).1
  · rw [foldedSince_concat]
    by_cases hother : other = profile
    · subst hother
      refine ⟨[], ?_, ?_, fun row hrow => by cases hrow⟩
      · simp only [Store.profileRows, hrows, List.filter_filter, Obs.fold]
        simp
      · rw [Store.coversUntil, hsummaries, if_pos rfl]
        simp [Obs.fold, endsAt]
    · obtain ⟨rest, hsplit⟩ := h.split other
      have hcovers : (clearProfile store profile true).coversUntil other =
          store.coversUntil other := by
        rw [Store.coversUntil, hsummaries, if_neg hother, Store.coversUntil]
      have hfold : Obs.fold other (foldedSince other os) (.cleared profile) =
          foldedSince other os := if_neg (Ne.symm hother)
      refine ⟨rest, ?_, ?_, ?_⟩
      · rw [hfold, ← hsplit.messages]
        unfold Store.profileRows
        rw [hrows, List.filter_filter]
        refine List.filter_congr fun row _ => ?_
        by_cases hrow : row.profile = other
        · simp [hrow, hother]
        · simp [hrow]
      · rw [hfold, hcovers, hsplit.covers]
      · rw [hcovers]
        exact hsplit.above

/-- A summary that is stored folds in all but the newest messages. -/
theorem progress_fold (h : Progress store os) (hwindow : 0 < keepLast)
    (hmany : keepLast ≤ (store.unsummarized profile keepLast).length) {summary : Summary Content}
    (hsummary : summary.coversUntilMessageId =
      lastOfRows (store.unsummarized profile keepLast)) (previous : Content) :
    Progress (store.upsertSummary profile summary)
      (os ++ [.folded profile keepLast
        (instruction previous (store.unsummarized profile keepLast))
        (store.unsummarized profile keepLast) (store.profileRows profile)]) := by
  obtain ⟨rest, hsplit⟩ := h.split profile
  obtain ⟨-, hselected, -⟩ := @Split.outside store profile keepLast rest _ hsplit h.ordered
  rw [hselected] at hmany hsummary ⊢
  have hmessages : store.profileRows profile = foldedSince profile os ++
      rest.take (rest.length - keepLast) ++ rest.drop (rest.length - keepLast) := by
    rw [List.append_assoc, List.take_append_drop, hsplit.messages]
  refine ⟨⟨h.ordered.strict, h.ordered.drawn⟩, fun other => ?_,
    h.next.concat ⟨⟨_, hmessages, ?_⟩, fun row hrow => instruction_row hrow⟩⟩
  · rw [foldedSince_concat]
    by_cases hother : other = profile
    · subst hother
      have hfold : Obs.fold other (foldedSince other os) (.folded other keepLast
          (instruction previous (rest.take (rest.length - keepLast)))
          (rest.take (rest.length - keepLast)) (store.profileRows other)) =
            foldedSince other os ++ rest.take (rest.length - keepLast) := if_pos rfl
      have hne : rest.take (rest.length - keepLast) ≠ [] :=
        List.ne_nil_of_length_pos (Nat.lt_of_lt_of_le hwindow hmany)
      have hstrict : (rest.take (rest.length - keepLast) ++
          rest.drop (rest.length - keepLast)).Pairwise fun a b => a.id < b.id := by
        rw [List.take_append_drop]
        have hrows := h.ordered.profileRows other
        rw [hsplit.messages] at hrows
        exact (List.pairwise_append.mp hrows).2.1
      obtain ⟨htaken, -, hbefore⟩ := List.pairwise_append.mp hstrict
      have hcovers : (store.upsertSummary other summary).coversUntil other =
          endsAt (rest.take (rest.length - keepLast)) := by
        rw [← lastOfRows_eq_endsAt htaken, ← hsummary]
        simp [Store.coversUntil, Store.upsertSummary]
      refine ⟨rest.drop (rest.length - keepLast), ?_, ?_, fun row hrow => ?_⟩
      · rw [hfold]
        exact hmessages
      · rw [hfold, hcovers, endsAt_append _ hne]
      · rw [hcovers]
        exact endsAt_lt hne fun row' hrow' => hbefore row' hrow' row hrow
    · obtain ⟨rest', hsplit'⟩ := h.split other
      have hfold : Obs.fold other (foldedSince other os) (.folded profile keepLast
          (instruction previous (rest.take (rest.length - keepLast)))
          (rest.take (rest.length - keepLast)) (store.profileRows profile)) =
            foldedSince other os := if_neg (Ne.symm hother)
      have hcovers : (store.upsertSummary profile summary).coversUntil other =
          store.coversUntil other := by
        rw [Store.coversUntil, Store.upsertSummary, Store.setSummary_other hother,
          Store.coversUntil]
      refine ⟨rest', ?_, ?_, ?_⟩
      · rw [hfold]
        exact hsplit'.messages
      · rw [hfold, hcovers, hsplit'.covers]
      · rw [hcovers]
        exact hsplit'.above
  · rw [List.length_take] at hmany
    rw [List.length_drop]
    omega

theorem progress_step (h : Progress store os) (hwindow : windowed action = true)
    (hstep : machine.step store action = some (store', os')) : Progress store' (os ++ os') := by
  cases action with
  | record exchange createdAt recording =>
    obtain ⟨rfl, rfl⟩ := Prod.mk.inj (Option.some.inj hstep)
    rw [List.append_nil]
    exact progress_record h
  | clear profile cleared =>
    obtain ⟨rfl, rfl⟩ := Prod.mk.inj (Option.some.inj hstep)
    cases cleared with
    | true => exact progress_clear h
    | false => exact (List.append_nil os).symm ▸ h
  | summarize profile keepLast answers =>
    obtain ⟨rfl, rfl⟩ := Prod.mk.inj (Option.some.inj hstep)
    cases hstops : stops store profile keepLast answers with
    | true =>
      obtain ⟨hstore, hfolded⟩ := maybeSummarize_stops hstops
      have hshown : shown profile keepLast (store.profileRows profile)
          (maybeSummarize store profile keepLast answers) = [] := by
        simp [shown, hfolded]
      rw [hstore, hshown, List.append_nil]
      exact h
    | false =>
      obtain ⟨text, -, hmany, hcall⟩ := maybeSummarize_writes hstops
      rw [hcall]
      exact progress_fold h (by simpa [windowed] using hwindow) hmany rfl _

theorem progress_empty : Progress Store.empty [] where
  ordered := ⟨.nil, fun _ hrow => by cases hrow⟩
  split := fun _ => ⟨[], rfl, rfl, fun _ hrow => by cases hrow⟩
  next := .nil

/-- After a call that met no failure fewer messages lag behind than its window has. -/
theorem lagging_lt (h : Progress store os) (hwindow : 0 < keepLast)
    (hsucceed : answers.succeed = true) :
    (lagging (maybeSummarize store profile keepLast answers).store profile keepLast).length <
      keepLast := by
  obtain ⟨rest, hsplit⟩ := h.split profile
  obtain ⟨-, hselected, hlagging⟩ := @Split.outside store profile keepLast rest _ hsplit h.ordered
  cases hstops : stops store profile keepLast answers with
  | true =>
    rw [(maybeSummarize_stops hstops).1, hlagging]
    obtain ⟨⟨⟨hread, -⟩, htext⟩, hup⟩ : ((answers.selected = true ∧ answers.previousRead = true) ∧
        answers.summarized.isSome = true) ∧ answers.upserted = .ok := by
      simpa [Answers.succeed] using hsucceed
    obtain ⟨text, htext⟩ := Option.isSome_iff_exists.mp htext
    simpa [stops, hread, htext, hup, Outcome.applies] using hstops
  | false =>
    obtain ⟨text, -, hmany, hcall⟩ := maybeSummarize_writes hstops
    rw [hcall]
    have hnew := progress_fold h hwindow hmany (show (rollingSummary
      (previousContent store profile answers.previousRead) (store.unsummarized profile keepLast)
      text).coversUntilMessageId = _ from rfl)
      (previousContent store profile answers.previousRead)
    obtain ⟨rest', hsplit'⟩ := hnew.split profile
    obtain ⟨-, hselected', hlagging'⟩ :=
      @Split.outside _ profile keepLast rest' _ hsplit' hnew.ordered
    -- what is left of the messages after the fold are the newest
    have hrest : rest = store.unsummarized profile keepLast ++ rest' := by
      have hmessages := hsplit'.messages
      rw [foldedSince_concat, Obs.fold, if_pos rfl, List.append_assoc] at hmessages
      exact List.append_cancel_left (hsplit.messages.symm.trans hmessages)
    have hlength : rest'.length ≤ keepLast := by
      have htaken := congrArg List.length hselected
      have hall := congrArg List.length hrest
      rw [List.length_take] at htaken
      rw [List.length_append] at hall
      omega
    rw [hlagging', hselected', Nat.sub_eq_zero_of_le hlength]
    exact hwindow

end Runs

/-- In every run of calls with windows of at least 1: what has been folded into the summary of
a profile is the beginning of its messages, up to the mark; every folding goes on where the one
before it ended, with a request that tells its messages, and leaves the newest; and after a
call without failures fewer messages lag behind than its window has. -/
theorem summarized_once_in_order {actions : List Action} {store : Store Content} {os : List Obs}
    (hwindows : ∀ action ∈ actions, windowed action = true)
    (he : machine.exec Store.empty actions = some (store, os)) :
    (∀ profile, ∃ rest, store.profileRows profile = foldedSince profile os ++ rest ∧
      store.coversUntil profile = endsAt (foldedSince profile os)) ∧
    Each Next os ∧
    ∀ profile keepLast answers, 0 < keepLast → answers.succeed = true →
      (lagging (maybeSummarize store profile keepLast answers).store profile keepLast).length <
        keepLast := by
  have h : Progress store ([] ++ os) :=
    Machine.exec_invariant Progress (fun h hwindow hstep => progress_step h hwindow hstep)
      progress_empty (Machine.Along.of_forall hwindows) he
  refine ⟨fun profile => ?_, h.next, fun profile keepLast answers hwindow hsucceed =>
    lagging_lt h hwindow hsucceed⟩
  obtain ⟨rest, hsplit⟩ := h.split profile
  exact ⟨rest, hsplit.messages, hsplit.covers⟩

/-- Two exchanges and a summarization with a window of one message. -/
def twoExchanges : List Action :=
  [.record ⟨"дима".toList, .fresh "2+2".toList, .fresh "4".toList, 0⟩ 0 ⟨true, true, .ok, 0, 0⟩,
    .record ⟨"дима".toList, .fresh "3+3".toList, .fresh "6".toList, 0⟩ 0 ⟨true, true, .ok, 0, 1⟩,
    .summarize "дима".toList 1 ⟨true, true, some "Суммы.".toList, .ok⟩]

theorem summarized_once_in_two_exchanges : ∃ store os,
    machine.exec Store.empty twoExchanges = some (store, os) ∧
      (∃ rest, store.profileRows "дима".toList = foldedSince "дима".toList os ++ rest ∧
        store.coversUntil "дима".toList = endsAt (foldedSince "дима".toList os)) ∧
      Each Next os := by
  obtain ⟨hfolded, hnext, -⟩ := summarized_once_in_order
    (show ∀ action ∈ twoExchanges, windowed action = true by decide) rfl
  exact ⟨_, _, rfl, hfolded _, hnext⟩

end AliceBridge.Core.SummaryProgress
