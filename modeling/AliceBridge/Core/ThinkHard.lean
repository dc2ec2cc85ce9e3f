import AliceBridge.Core.Commands

/-! # A question after a think-hard phrase

The same question asked plainly and after one of the phrases that call for the smart model. -/
namespace AliceBridge.Core.ThinkHard
open AliceBridge.Lib.Utf8 AliceBridge.Lib.Words AliceBridge.Core.Family
open AliceBridge.Core.Commands

/-- What the speech recognition puts between the phrase and the question. -/
def separators : List Text := [" ".toList, ", ".toList]

section Parse

variable {roster : FamilyRoster} {modes : List Mode} {phrase separator question text norm : Text}

/-- A plain question passed every branch of the parser, and is kept as it was said. -/
theorem parse_plain (h : parse question roster modes = .ask text false) :
    text = trim question ∧ normalize question ≠ [] ∧ modelSwitch (normalize question) = none := by
  unfold parse at h
  simp only at h
  split at h
  · cases h
  next hne =>
    rw [List.isEmpty_iff] at hne
    split at h
    · cases h
    split at h
    · cases h
    split at h
    · cases h
    split at h
    · cases h
    next hswitch =>
      split at h
      · cases h
      split at h
      · cases h
      · exact ⟨(Parsed.ask.inj h).1.symm, hne, hswitch⟩

/-- The normal form of a phrase and a question. -/
theorem normalize_phrase (hphrase : phrase ∈ thinkHardPhrases) (hsep : separator ∈ separators)
    (hne : normalize question ≠ []) :
    normalize (phrase ++ separator ++ question) = phrase ++ ' ' :: normalize question := by
  have happend {said : Text} (hlowered : said.all isLowered = true)
      (hnormal : normalize said = phrase) (hsaid : phrase ≠ []) :
      normalize (said ++ ' ' :: question) = phrase ++ ' ' :: normalize question := by
    rw [normalize_append hlowered (hnormal ▸ hsaid) hne, hnormal]
  have hspoken : ∀ phrase ∈ thinkHardPhrases, phrase ≠ [] ∧
      (phrase.all isLowered = true ∧ normalize phrase = phrase) ∧
      (phrase ++ [',']).all isLowered = true ∧ normalize (phrase ++ [',']) = phrase := by
    decide +kernel
  obtain ⟨hsaid, hblank, hcomma⟩ := hspoken phrase hphrase
  simp only [separators, List.mem_cons, List.not_mem_nil, or_false] at hsep
  rcases hsep with rfl | rfl
  · rw [List.append_assoc]
    exact happend hblank.1 hblank.2 hsaid
  · have hcut : phrase ++ ", ".toList ++ question = (phrase ++ [',']) ++ ' ' :: question := by
      simp
    rw [hcut]
    exact happend hcomma.1 hcomma.2 hsaid

/-- The words of a phrase are the beginning of no command, and no phrase that switches the
model begins among them. -/
theorem phrase_is_no_command (hphrase : phrase ∈ thinkHardPhrases) :
    introduced roster (phrase ++ ' ' :: norm) = none ∧ wholePhrase (phrase ++ ' ' :: norm) = none ∧
      windowSize (phrase ++ ' ' :: norm) = none ∧
      modelSwitch (phrase ++ ' ' :: norm) = modelSwitch norm := by
  simp only [thinkHardPhrases, List.mem_cons, List.not_mem_nil, or_false] at hphrase
  rcases hphrase with rfl | rfl | rfl
  · exact ⟨rfl, rfl, rfl, rfl⟩
  · exact ⟨rfl, rfl, rfl, rfl⟩
  · exact ⟨rfl, rfl, rfl, rfl⟩

/-- What follows the phrase is the question, as it was normalized. -/
theorem thinkHard_phrase (hphrase : phrase ∈ thinkHardPhrases) (hne : normalize question ≠ []) :
    thinkHard text (phrase ++ ' ' :: normalize question) = some (normalize question) := by
  have hrest : (if (trim (' ' :: normalize question)).isEmpty then trim text
      else trim (' ' :: normalize question)) = normalize question := by
    have htrim : trim (' ' :: normalize question) = normalize question := trim_normalize question
    rw [htrim, if_neg (by simpa [List.isEmpty_iff] using hne)]
  simp only [thinkHardPhrases, List.mem_cons, List.not_mem_nil, or_false] at hphrase
  rcases hphrase with rfl | rfl | rfl
  · exact congrArg some hrest
  · exact congrArg some hrest
  · exact congrArg some hrest

end Parse

/-- Asked after a phrase, the question is the same exactly when it was said in its
normal form. -/
theorem think_hard_same_question_iff {roster : FamilyRoster} {modes : List Mode}
    {phrase separator question text : Text}
    (hplain : parse question roster modes = .ask text false) (hphrase : phrase ∈ thinkHardPhrases)
    (hsep : separator ∈ separators)
    (hmodes : ∀ mode ∈ modes,
      triggered mode (normalize (phrase ++ separator ++ question)) = false) :
    parse (phrase ++ separator ++ question) roster modes = .ask text true ↔
      normalize question = trim question := by
  obtain ⟨rfl, hne, hswitch⟩ := parse_plain hplain
  rw [normalize_phrase hphrase hsep hne] at hmodes
  obtain ⟨hintroduced, hwhole, hwindow, hmodel⟩ :=
    @phrase_is_no_command roster phrase (normalize question) hphrase
  have hmode : modes.find? (fun mode => triggered mode (phrase ++ ' ' :: normalize question)) =
      none := by
    simpa using hmodes
  have hparse : parse (phrase ++ separator ++ question) roster modes =
      .ask (normalize question) true := by
    unfold parse
    simp only [normalize_phrase hphrase hsep hne, hintroduced, hwhole, hwindow, hmodel, hswitch,
      hmode, thinkHard_phrase hphrase hne]
    rw [if_neg (by simp)]
  rw [hparse, Parsed.ask.injEq, and_iff_left rfl]

def oneMember : FamilyRoster := ⟨[⟨"Дима".toList, [], none, .adult, []⟩], ⟨0, Nat.zero_lt_one⟩⟩

/-- A question that is in its normal form. -/
theorem think_hard_same_sky :
    parse ("подумай крепко".toList ++ ", ".toList ++ "почему небо синее".toList) oneMember [] =
      .ask "почему небо синее".toList true := by
  have hplain : parse "почему небо синее".toList oneMember [] =
      .ask "почему небо синее".toList false := by
    decide +kernel
  refine (think_hard_same_question_iff hplain ?_ ?_ ?_).mpr ?_
  · decide
  · decide
  · exact fun mode hmode => absurd hmode List.not_mem_nil
  · decide +kernel

/-- A sum asked plainly keeps its signs; asked after a phrase, it is two numbers. -/
theorem think_hard_loses_the_sum :
    parse "Сколько будет 5 + 3?".toList oneMember [] =
        .ask "Сколько будет 5 + 3?".toList false ∧
      parse ("подумай крепко".toList ++ " ".toList ++ "Сколько будет 5 + 3?".toList) oneMember [] ≠
        .ask "Сколько будет 5 + 3?".toList true := by
  decide +kernel

end AliceBridge.Core.ThinkHard
