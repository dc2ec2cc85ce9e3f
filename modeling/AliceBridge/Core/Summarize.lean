import AliceBridge.Core.EngineSteps

/-! # One summarization

A call of `maybe_summarize` that nothing interrupts, with what the store and the model
answered. Of its steps that can fail only the read of the previous summary does not end it:
an empty text stands for what could not be read. -/
namespace AliceBridge.Core.Summarize
open AliceBridge.Lib.Utf8 AliceBridge.Core.Conversation AliceBridge.Core.Engine
open AliceBridge.Core.HouseEngine (Outcome CallId)

/-- Which operations succeeded, and the text of the model. -/
structure Answers where
  selected : Bool
  previousRead : Bool
  summarized : Option Text
  upserted : Outcome
deriving DecidableEq

/-- No operation failed. -/
def Answers.succeed (answers : Answers) : Bool :=
  answers.selected && answers.previousRead && answers.summarized.isSome &&
    answers.upserted == .ok

/-- What the call did: the store it left, the request it sent, and the rows that the stored
summary has folded in. -/
structure Summarized where
  store : Store Content
  request : Option Content
  folded : Option (List (Row Content))

def maybeSummarize (store : Store Content) (profile : Text) (keepLast : Nat) (answers : Answers) :
    Summarized :=
  let pending := store.unsummarized profile keepLast
  if !answers.selected || decide (pending.length < keepLast) then ⟨store, none, none⟩
  else
    let previous := previousContent store profile answers.previousRead
    let request := instruction previous pending
    match answers.summarized with
    | none => ⟨store, some request, none⟩
    | some text =>
      if answers.upserted.applies then
        ⟨store.upsertSummary profile (rollingSummary previous pending text), some request,
          some pending⟩
      else ⟨store, some request, none⟩

/-! ## The same steps in the engine -/

def Answers.events (answers : Answers) : List Event :=
  [.keepLast, .selected answers.selected, .previousRead answers.previousRead,
    .summarized answers.summarized, .upserted answers.upserted]

/-- The steps of a summarization one after the other, as far as they go. -/
def uninterrupted (engine : Engine) (c : CallId) : List Event → Shared → Call → Shared × List Obs
  | [], sh, _ => (sh, [])
  | e :: events, sh, call =>
    match summarizerStep engine sh c call e with
    | none => (sh, [])
    | some (sh', call', os) =>
      let (sh'', os') := uninterrupted engine c events sh' call'
      (sh'', os ++ os')

/-- The call is what the engine does when no other step comes between its own. -/
theorem uninterrupted_eq {engine : Engine} {c : CallId} {sh : Shared} {call : Call}
    {profile : Text} (h : call.summarizer = .keepLast profile) (answers : Answers) :
    uninterrupted engine c answers.events sh call =
      ({ sh with
        store := (maybeSummarize sh.store profile (sh.dialogue.window engine.config)
          answers).store },
        (maybeSummarize sh.store profile (sh.dialogue.window engine.config)
          answers).request.toList.map (.summarizing c profile)) := by
  obtain ⟨selected, previousRead, summarized, upserted⟩ := answers
  unfold Answers.events maybeSummarize
  simp only [uninterrupted, summarizerStep, h]
  cases selected with
  | false => simp
  | true =>
    by_cases hfew : (sh.store.unsummarized profile (sh.dialogue.window engine.config)).length <
        sh.dialogue.window engine.config
    · simp [hfew, Nat.not_le_of_lt hfew]
    · have hmany := Nat.le_of_not_lt hfew
      cases summarized with
      | none => simp [hfew, hmany]
      | some text => cases upserted.applies <;> simp [hfew, hmany]

/-! ## What a call leaves -/

section Call

variable {store : Store Content} {profile : Text} {keepLast : Nat} {answers : Answers}
  {old : Summary Content} {row : Row Content} {rows : List (Row Content)} {previous : Content}

/-- The call ends before it writes. -/
def stops (store : Store Content) (profile : Text) (keepLast : Nat) (answers : Answers) : Bool :=
  !answers.selected || decide ((store.unsummarized profile keepLast).length < keepLast) ||
    answers.summarized.isNone || !answers.upserted.applies

theorem maybeSummarize_stops (h : stops store profile keepLast answers = true) :
    (maybeSummarize store profile keepLast answers).store = store ∧
      (maybeSummarize store profile keepLast answers).folded = none := by
  unfold stops at h
  unfold maybeSummarize
  dsimp only
  split
  · exact ⟨rfl, rfl⟩
  next hgo =>
    cases htext : answers.summarized with
    | none => exact ⟨rfl, rfl⟩
    | some text =>
      have hfails : answers.upserted.applies = false := by simpa [htext, hgo] using h
      simp [hfails]

theorem maybeSummarize_writes (h : stops store profile keepLast answers = false) :
    ∃ text, answers.summarized = some text ∧
      keepLast ≤ (store.unsummarized profile keepLast).length ∧
      maybeSummarize store profile keepLast answers =
        ⟨store.upsertSummary profile (rollingSummary
            (previousContent store profile answers.previousRead)
            (store.unsummarized profile keepLast) text),
          some (instruction (previousContent store profile answers.previousRead)
            (store.unsummarized profile keepLast)),
          some (store.unsummarized profile keepLast)⟩ := by
  simp only [stops, Bool.or_eq_false_iff, Bool.not_eq_false', decide_eq_false_iff_not,
    Nat.not_lt] at h
  obtain ⟨⟨⟨hselected, hmany⟩, htext⟩, hup⟩ := h
  obtain ⟨text, htext⟩ := Option.isSome_iff_exists.mp (Option.isNone_eq_false_iff.mp htext)
  exact ⟨text, htext, hmany, by simp [maybeSummarize, hselected, hmany, htext, hup]⟩

/-! ## Damage -/

/-- The texts that a row of `summaries` has. -/
def sameSummary (new old : Summary Content) : Bool :=
  new.content.text = old.content.text && new.coversUntilMessageId = old.coversUntilMessageId

/-- The stored summary is the old one, or it was made by a request with the whole old text and
every message of the profile from the old mark up to the new one. -/
def Undamaged (store : Store Content) (profile : Text) (old : Summary Content)
    (call : Summarized) : Prop :=
  ∃ new, call.store.summaries profile = some new ∧ (sameSummary new old = true ∨
    ∃ request ∈ call.request, old.content.text <:+: request.text ∧
      ∀ row ∈ store.profileRows profile, old.coversUntilMessageId < row.id →
        row.id ≤ new.coversUntilMessageId → transcript [row] <:+: request.text)

/-- The read succeeds or the call ends early. Otherwise what is written is the old row by
chance, or the old text occurs in a request without it. -/
def Keeps (store : Store Content) (profile : Text) (old : Summary Content) (keepLast : Nat)
    (answers : Answers) : Prop :=
  stops store profile keepLast answers = true ∨ answers.previousRead = true ∨
    (answers.summarized = some old.content.text ∧
      lastOfRows (store.unsummarized profile keepLast) = old.coversUntilMessageId) ∨
    old.content.text <:+:
      (instruction (Content.fresh []) (store.unsummarized profile keepLast)).text

theorem instruction_previous : previous.text <:+: (instruction previous rows).text := by
  unfold instruction
  simp only [List.append_assoc]
  exact (List.prefix_append ..).isInfix.trans (List.suffix_append ..).isInfix

theorem instruction_row (h : row ∈ rows) :
    transcript [row] <:+: (instruction previous rows).text := by
  obtain ⟨before, after, rfl⟩ := List.append_of_mem h
  have hrow : transcript [row] <:+: transcript (before ++ row :: after) := by
    simp only [transcript, List.flatMap_append, List.flatMap_cons, List.flatMap_nil,
      List.append_nil]
    exact (List.prefix_append ..).isInfix.trans (List.suffix_append ..).isInfix
  exact hrow.trans (List.suffix_append ..).isInfix

/-- Of the messages above the summary those up to the last selected one are selected. -/
theorem mem_unsummarized_of_le (hkey : (store.rows.map Row.id).Nodup)
    (hrow : row ∈ store.profileRows profile) (habove : store.coversUntil profile < row.id)
    (hle : row.id ≤ lastOfRows (store.unsummarized profile keepLast)) :
    row ∈ store.unsummarized profile keepLast := by
  obtain ⟨hmem, hprofile⟩ := Store.mem_profileRows.mp hrow
  rcases Store.unsummarized_spec keepLast hmem hprofile with hcovered | hselected | hlater
  · exact absurd hcovered (Nat.not_le_of_lt habove)
  · exact hselected
  · unfold lastOfRows at hle
    cases hmax : ((store.unsummarized profile keepLast).map Row.id).max? with
    | none =>
      rw [hmax] at hle
      exact absurd hle (Nat.not_le_of_lt (Nat.zero_lt_of_lt habove))
    | some last =>
      obtain ⟨hlast, -⟩ := List.max?_eq_some_iff.mp hmax
      obtain ⟨other, hother, rfl⟩ := List.mem_map.mp hlast
      rw [hmax] at hle
      have hsame : other.id = row.id := Nat.le_antisymm (hlater other hother) hle
      have heq := List.inj_on_of_nodup_map hkey (Store.mem_unsummarized hother).1 hmem hsame
      exact heq ▸ hother

end Call

/-- A summarization that writes damages the memory exactly when the summary could not be read. -/
theorem summary_undamaged_iff {store : Store Content} {profile : Text} {old : Summary Content}
    (hkey : (store.rows.map Row.id).Nodup) (hold : store.summaries profile = some old)
    (keepLast : Nat) (answers : Answers) :
    Undamaged store profile old (maybeSummarize store profile keepLast answers) ↔
      Keeps store profile old keepLast answers := by
  cases hstops : stops store profile keepLast answers with
  | true =>
    refine iff_of_true ⟨old, ?_, .inl (by simp [sameSummary])⟩ (.inl hstops)
    rw [(maybeSummarize_stops hstops).1, hold]
  | false =>
    obtain ⟨text, htext, -, hcall⟩ := maybeSummarize_writes hstops
    have hcovers : store.coversUntil profile = old.coversUntilMessageId := by
      simp [Store.coversUntil, hold]
    have hrows {request : Content} {previous : Content}
        (hrequest : request = instruction previous (store.unsummarized profile keepLast)) :
        ∀ row ∈ store.profileRows profile, old.coversUntilMessageId < row.id →
          row.id ≤ lastOfRows (store.unsummarized profile keepLast) →
            transcript [row] <:+: request.text := by
      intro row hrow habove hle
      rw [hrequest]
      exact instruction_row (mem_unsummarized_of_le hkey hrow (hcovers ▸ habove) hle)
    rw [hcall]
    unfold Undamaged Keeps
    rw [hstops, htext]
    simp only [Store.upsertSummary, Store.setSummary_self, Option.some.injEq, exists_eq_left',
      Option.mem_some_iff, Bool.false_eq_true, false_or]
    cases answers.previousRead with
    | true =>
      refine iff_of_true (.inr ⟨?_, hrows rfl⟩) (.inl rfl)
      have hprevious : previousContent store profile true = old.content := by
        simp [previousContent, hold]
      rw [hprevious]
      exact instruction_previous
    | false =>
      have hsame : sameSummary (rollingSummary (previousContent store profile false)
          (store.unsummarized profile keepLast) text) old = true ↔ text = old.content.text ∧
            lastOfRows (store.unsummarized profile keepLast) = old.coversUntilMessageId := by
        rw [sameSummary, Bool.and_eq_true, decide_eq_true_iff, decide_eq_true_iff]
        rfl
      rw [hsame]
      simp only [Bool.false_eq_true, false_or]
      exact or_congr_right ⟨fun h => h.1, fun h => ⟨h, hrows rfl⟩⟩

/-- A profile with a summary and two messages above it. -/
def remembered : Store Content where
  rows := [⟨3, "дима".toList, .user, .fresh "2+2".toList, 0, 0⟩,
    ⟨4, "дима".toList, .assistant, .fresh "4".toList, 0, 0⟩]
  summaries := fun _ => some ⟨.fresh "Дима любит чай.".toList, 2⟩
  lastId := 4
  ordered := by decide

theorem summary_undamaged_remembered : Undamaged remembered "дима".toList
    ⟨.fresh "Дима любит чай.".toList, 2⟩
    (maybeSummarize remembered "дима".toList 1
      ⟨true, false, some "Дима считает.".toList, .err false⟩) :=
  (summary_undamaged_iff (by decide) rfl 1 _).mpr (.inl rfl)

/-- The read fails, the rest succeeds: what was known of the profile is gone. -/
theorem unread_summary_is_lost : ¬ Undamaged remembered "дима".toList
    ⟨.fresh "Дима любит чай.".toList, 2⟩
    (maybeSummarize remembered "дима".toList 1
      ⟨true, false, some "Дима считает.".toList, .ok⟩) := by
  rintro ⟨new, hnew, hsame | ⟨request, hrequest, htext, -⟩⟩
  · obtain rfl := Option.some.inj hnew
    revert hsame
    decide +kernel
  · obtain rfl := Option.some.inj hrequest
    revert htext
    decide +kernel

end AliceBridge.Core.Summarize
