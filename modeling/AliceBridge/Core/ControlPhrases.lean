import AliceBridge.Core.Commands

/-! # Control phrases as whole words

The parser compares texts, not words: a phrase that ends or begins in the middle of a longer
word is found too. Triggers of modes are the exception, they end at a blank. -/
namespace AliceBridge.Core.ControlPhrases
open AliceBridge.Lib.Utf8 AliceBridge.Lib.Words AliceBridge.Core.Family
open AliceBridge.Core.Commands

def windowPhrases : List Text := ["помни последние".toList, "запоминай последние".toList]

def smartPhrases : List Text := ["умную модель".toList, "умная модель".toList]

def fastPhrases : List Text :=
  ["быструю модель".toList, "быстрая модель".toList, "модель на быструю".toList]

/-! ## Words -/

/-- The words of one of the phrases follow each other somewhere. -/
def Said (phrases words : List Text) : Prop := ∃ phrase ∈ phrases, splitWhitespace phrase <:+: words

/-- The utterance begins with the words of one of the phrases. -/
def Opens (phrases words : List Text) : Prop := ∃ phrase ∈ phrases, splitWhitespace phrase <+: words

/-- After the words of a phrase one is this number. -/
def Sized (words : List Text) (n : Nat) : Prop :=
  ∃ phrase ∈ windowPhrases, ∃ rest, words = splitWhitespace phrase ++ rest ∧
    ∃ word ∈ rest, parseUsize word = some n

/-- The utterance begins with the words of a trigger of the mode. -/
def Calls (mode : Mode) (words : List Text) : Prop :=
  ∃ trigger ∈ mode.triggers, normalWords trigger ≠ [] ∧ normalWords trigger <+: words

/-- The words are there that this result of the parser asks for. -/
def Recognized (utterance : Text) (modes : List Mode) : Parsed → Prop
  | .command .useSmartModel => Said smartPhrases (normalWords utterance)
  | .command .useFastModel => Said fastPhrases (normalWords utterance)
  | .command (.setWindow n) => Sized (normalWords utterance) n
  | .command (.enterMode name) =>
    ∃ mode ∈ modes, mode.name = name ∧ Calls mode (normalWords utterance)
  | .ask _ true => Opens thinkHardPhrases (normalWords utterance)
  | _ => True

/-- No introduction, no phrase that is the whole utterance, and the words of no control phrase. -/
structure Ordinary (utterance : Text) (roster : FamilyRoster) (modes : List Mode) : Prop where
  spoken : normalize utterance ≠ []
  introduced : introduced roster (normalize utterance) = none
  whole : wholePhrase (normalize utterance) = none
  window : ∀ n, ¬ Sized (normalWords utterance) n
  smart : ¬ Said smartPhrases (normalWords utterance)
  fast : ¬ Said fastPhrases (normalWords utterance)
  mode : ∀ mode ∈ modes, ¬ Calls mode (normalWords utterance)
  thinkHard : ¬ Opens thinkHardPhrases (normalWords utterance)

structure WholeWords (utterance : Text) (roster : FamilyRoster) (modes : List Mode) : Prop where
  recognized : Recognized utterance modes (parse utterance roster modes)
  ordinary : Ordinary utterance roster modes →
    parse utterance roster modes = .ask (trim utterance) false

/-! ## Characters -/

/-- The text begins with the phrase, and a blank or nothing follows. -/
def startsAtWord (phrase norm : Text) : Bool := (phrase ++ [' ']).isPrefixOf (norm ++ [' '])

/-- The phrase occurs with a blank or nothing on both sides. -/
def containsAtWord (phrase norm : Text) : Bool :=
  contains (' ' :: (phrase ++ [' '])) (' ' :: (norm ++ [' ']))

/-- The first test that succeeds finds a phrase with no letter or digit next to it. -/
def bounded (utterance : Text) (roster : FamilyRoster) (modes : List Mode) : Bool :=
  let norm := normalize utterance
  if norm.isEmpty || (introduced roster norm).isSome || (wholePhrase norm).isSome then true
  else if (windowSize norm).isSome then windowPhrases.any fun phrase => startsAtWord phrase norm
  else if smartPhrases.any fun phrase => contains phrase norm then
    smartPhrases.any fun phrase => containsAtWord phrase norm
  else if fastPhrases.any fun phrase => contains phrase norm then
    fastPhrases.any fun phrase => containsAtWord phrase norm
  else if modes.any fun mode => triggered mode norm then true
  else if thinkHardPhrases.any fun phrase => phrase.isPrefixOf norm then
    thinkHardPhrases.any fun phrase => startsAtWord phrase norm
  else true

section Phrases

variable {utterance phrase : Text} {phrases : List Text} {n : Nat}

/-- The phrase is a text of words with single blanks between them. -/
def IsPhrase (phrase : Text) : Prop :=
  splitWhitespace phrase ≠ [] ∧ joinWords (splitWhitespace phrase) = phrase

theorem phrases_are_phrases : ∀ phrase ∈ windowPhrases ++ smartPhrases ++ fastPhrases ++
    thinkHardPhrases, IsPhrase phrase := by
  unfold IsPhrase
  decide +kernel

theorem startsAtWord_iff (h : IsPhrase phrase) :
    startsAtWord phrase (normalize utterance) = true ↔
      splitWhitespace phrase <+: normalWords utterance := by
  unfold startsAtWord
  rw [List.isPrefixOf_iff_prefix, normalize_eq]
  conv_lhs => rw [← h.2]
  exact joinWords_prefix_iff h.1 (fun _ hword => (mem_splitWhitespace hword).1)
    fun _ => normalWords_isWord

theorem containsAtWord_iff (h : IsPhrase phrase) :
    containsAtWord phrase (normalize utterance) = true ↔
      splitWhitespace phrase <:+: normalWords utterance := by
  unfold containsAtWord
  rw [contains_eq_true, normalize_eq]
  conv_lhs => rw [← h.2]
  exact joinWords_infix_iff h.1 (fun _ hword => (mem_splitWhitespace hword).1)
    fun _ => normalWords_isWord

theorem opens_iff (h : ∀ phrase ∈ phrases, IsPhrase phrase) :
    Opens phrases (normalWords utterance) ↔
      (phrases.any fun phrase => startsAtWord phrase (normalize utterance)) = true := by
  rw [List.any_eq_true]
  exact exists_congr fun phrase =>
    and_congr_right fun hphrase => (startsAtWord_iff (h _ hphrase)).symm

theorem said_iff (h : ∀ phrase ∈ phrases, IsPhrase phrase) :
    Said phrases (normalWords utterance) ↔
      (phrases.any fun phrase => containsAtWord phrase (normalize utterance)) = true := by
  rw [List.any_eq_true]
  exact exists_congr fun phrase => and_congr_right fun hphrase =>
    (containsAtWord_iff (h _ hphrase)).symm

end Phrases

/-! ## The tests of the parser -/

/-- A command that is no control phrase of these. -/
def isFixed : Command → Bool
  | .setWindow _ | .useSmartModel | .useFastModel | .enterMode _ => false
  | _ => true

/-- The branch of the parser: whether the phrase it tests for stands at
word boundaries, and its result. -/
inductive Branch (utterance : Text) (roster : FamilyRoster) (modes : List Mode) :
    Bool → Parsed → Prop where
  | fixed {command : Command} (hcommand : isFixed command = true)
      (hearly : normalize utterance = [] ∨ introduced roster (normalize utterance) ≠ none ∨
        wholePhrase (normalize utterance) ≠ none) :
      Branch utterance roster modes true (.command command)
  | window {n : Nat} (h : windowSize (normalize utterance) = some n) :
      Branch utterance roster modes
        (windowPhrases.any fun phrase => startsAtWord phrase (normalize utterance))
        (.command (.setWindow n))
  | smart :
      Branch utterance roster modes
        (smartPhrases.any fun phrase => containsAtWord phrase (normalize utterance))
        (.command .useSmartModel)
  | fast :
      Branch utterance roster modes
        (fastPhrases.any fun phrase => containsAtWord phrase (normalize utterance))
        (.command .useFastModel)
  | mode {mode : Mode} (hmem : mode ∈ modes) (h : triggered mode (normalize utterance) = true)
      (hne : normalize utterance ≠ []) :
      Branch utterance roster modes true (.command (.enterMode mode.name))
  | thinkHard (text : Text) :
      Branch utterance roster modes
        (thinkHardPhrases.any fun phrase => startsAtWord phrase (normalize utterance))
        (.ask text true)
  | plain : Branch utterance roster modes true (.ask (trim utterance) false)

section Tests

variable {utterance norm : Text} {roster : FamilyRoster} {modes : List Mode} {mode : Mode}
  {command : Command}

theorem wholePhrase_fixed (h : wholePhrase norm = some command) : isFixed command = true := by
  unfold wholePhrase at h
  split_ifs at h <;>
  · obtain rfl := Option.some.inj h
    rfl

theorem modelSwitch_eq (norm : Text) : modelSwitch norm =
    if smartPhrases.any fun phrase => contains phrase norm then some .useSmartModel
    else if fastPhrases.any fun phrase => contains phrase norm then some .useFastModel
    else none := by
  simp only [modelSwitch, smartPhrases, fastPhrases, List.any_cons, List.any_nil, Bool.or_false,
    Bool.or_assoc]

theorem thinkHard_isSome : (thinkHard utterance norm).isSome =
    thinkHardPhrases.any fun phrase => phrase.isPrefixOf norm := by
  unfold thinkHard
  rw [List.isSome_findSome?]
  congr 1
  funext phrase
  rw [Option.isSome_map]
  unfold stripPrefix
  split
  · next h => exact h.symm
  · next h => exact (Bool.eq_false_iff.mpr h).symm

theorem parse_branch : Branch utterance roster modes (bounded utterance roster modes)
    (parse utterance roster modes) := by
  unfold parse bounded
  simp only [modelSwitch_eq, ← @thinkHard_isSome utterance]
  cases hempty : (normalize utterance).isEmpty with
  | true => exact .fixed rfl (.inl (List.isEmpty_iff.mp hempty))
  | false =>
  cases hintro : introduced roster (normalize utterance) with
  | some profile => exact .fixed rfl (.inr (.inl (by simp [hintro])))
  | none =>
  cases hwhole : wholePhrase (normalize utterance) with
  | some command => exact .fixed (wholePhrase_fixed hwhole) (.inr (.inr (by simp [hwhole])))
  | none =>
  cases hwindow : windowSize (normalize utterance) with
  | some n => exact .window hwindow
  | none =>
  cases smartPhrases.any fun phrase => contains phrase (normalize utterance) with
  | true => exact .smart
  | false =>
  cases fastPhrases.any fun phrase => contains phrase (normalize utterance) with
  | true => exact .fast
  | false =>
  cases hfind : modes.find? fun mode => triggered mode (normalize utterance) with
  | some mode =>
    have hmem := List.mem_of_find?_eq_some hfind
    have htriggered : triggered mode (normalize utterance) = true := by
      simpa using List.find?_some hfind
    have hany : (modes.any fun mode => triggered mode (normalize utterance)) = true :=
      List.any_eq_true.mpr ⟨mode, hmem, htriggered⟩
    simp only [hany]
    exact .mode hmem htriggered (by simpa [List.isEmpty_iff] using hempty)
  | none =>
    have hany : (modes.any fun mode => triggered mode (normalize utterance)) = false := by
      simpa using hfind
    simp only [hany]
    cases thinkHard utterance (normalize utterance) with
    | some text => exact .thinkHard text
    | none => exact .plain

/-- A mode is entered by the words of one of its triggers. -/
theorem calls_of_triggered (hne : normalize utterance ≠ [])
    (h : triggered mode (normalize utterance) = true) : Calls mode (normalWords utterance) := by
  obtain ⟨trigger, hmem, htest⟩ := List.any_eq_true.mp h
  have hwords : normalWords trigger ≠ [] := by
    intro hempty
    rw [normalize_eq_nil.mpr hempty] at htest
    rcases Bool.or_eq_true_iff.mp htest with heq | hprefix
    · exact hne (by simpa using heq)
    · obtain ⟨rest, hrest⟩ := List.isPrefixOf_iff_prefix.mp hprefix
      have hspoken : ∀ word ∈ normalWords utterance, IsWord word := fun _ => normalWords_isWord
      rcases joinWords_ends hspoken with hnil | hends
      · exact hne hnil
      · obtain ⟨⟨c, tail, hhead, hc⟩, -⟩ := hends
        rw [← normalize_eq, ← hrest] at hhead
        obtain ⟨rfl, -⟩ := List.cons.inj hhead
        exact absurd hc (by decide)
  refine ⟨trigger, hmem, hwords, ?_⟩
  refine (joinWords_prefix_iff hwords (fun _ => normalWords_isWord)
    fun _ => normalWords_isWord).mp ?_
  rw [← normalize_eq, ← normalize_eq]
  rcases Bool.or_eq_true_iff.mp htest with heq | hprefix
  · rw [beq_iff_eq.mp heq]
  · exact (List.isPrefixOf_iff_prefix.mp hprefix).trans (List.prefix_append ..)

/-- The number is searched among all words, but those of the phrase are no numbers. -/
theorem sized_iff {n : Nat} (h : windowSize (normalize utterance) = some n) :
    Sized (normalWords utterance) n ↔
      (windowPhrases.any fun phrase => startsAtWord phrase (normalize utterance)) = true := by
  have hphrases : ∀ phrase ∈ windowPhrases, IsPhrase phrase := fun phrase hphrase =>
    phrases_are_phrases phrase (by simp [hphrase])
  rw [← opens_iff hphrases]
  refine exists_congr fun phrase => and_congr_right fun hphrase => ?_
  refine ⟨fun ⟨rest, heq, _⟩ => ⟨rest, heq.symm⟩, fun ⟨rest, heq⟩ => ⟨rest, heq.symm, ?_⟩⟩
  have hfind : (normalWords utterance).findSome? parseUsize = some n := by
    unfold windowSize at h
    split at h
    · rwa [normalize_eq, splitWhitespace_joinWords fun _ => normalWords_isWord] at h
    · cases h
  have hnone : ∀ phrase ∈ windowPhrases, (splitWhitespace phrase).findSome? parseUsize = none := by
    decide +kernel
  rw [← heq, List.findSome?_append, hnone phrase hphrase, Option.none_or] at hfind
  exact List.exists_of_findSome?_eq_some hfind

theorem recognized_iff {atWords : Bool} {parsed : Parsed}
    (h : Branch utterance roster modes atWords parsed) :
    Recognized utterance modes parsed ↔ atWords = true := by
  cases h with
  | @fixed command hcommand hearly =>
    refine iff_of_true ?_ rfl
    cases command <;> trivial
  | window h => exact sized_iff h
  | smart => exact said_iff fun _ h => phrases_are_phrases _ (by simp [h])
  | fast => exact said_iff fun _ h => phrases_are_phrases _ (by simp [h])
  | mode hmem h hne => exact iff_of_true ⟨_, hmem, rfl, calls_of_triggered hne h⟩ rfl
  | thinkHard text => exact opens_iff fun _ h => phrases_are_phrases _ (by simp [h])
  | plain => exact iff_of_true trivial rfl

/-- An ordinary question has the words of no other result. -/
theorem ordinary_plain {atWords : Bool} {parsed : Parsed}
    (h : Branch utterance roster modes atWords parsed)
    (hrecognized : Recognized utterance modes parsed) (ho : Ordinary utterance roster modes) :
    parsed = .ask (trim utterance) false := by
  cases h with
  | fixed hcommand hearly =>
    rcases hearly with hempty | hintroduced | hwhole
    · exact absurd hempty ho.spoken
    · exact absurd ho.introduced hintroduced
    · exact absurd ho.whole hwhole
  | window h => exact absurd hrecognized (ho.window _)
  | smart => exact absurd hrecognized ho.smart
  | fast => exact absurd hrecognized ho.fast
  | mode hmem h hne => exact absurd (calls_of_triggered hne h) (ho.mode _ hmem)
  | thinkHard text => exact absurd hrecognized ho.thinkHard
  | plain => rfl

end Tests

/-- Control phrases are recognized as whole words exactly when the first test of the parser
that succeeds finds its phrase with no letter or digit next to it. -/
theorem whole_words_iff (utterance : Text) (roster : FamilyRoster) (modes : List Mode) :
    WholeWords utterance roster modes ↔ bounded utterance roster modes = true := by
  constructor
  · intro h
    exact (recognized_iff parse_branch).mp h.recognized
  · intro h
    have hrecognized := (recognized_iff parse_branch).mpr h
    exact ⟨hrecognized, ordinary_plain parse_branch hrecognized⟩

theorem WholeWords.smart {utterance : Text} {roster : FamilyRoster} {modes : List Mode}
    (h : WholeWords utterance roster modes)
    (hparse : parse utterance roster modes = .command .useSmartModel) :
    Said smartPhrases (normalWords utterance) := by
  have hrecognized := h.recognized
  rw [hparse] at hrecognized
  exact hrecognized

def oneAdult : FamilyRoster := ⟨[⟨"Дима".toList, [], none, .adult, []⟩], ⟨0, Nat.zero_lt_one⟩⟩

/-- A question about a model that is not clever switches to the clever model. -/
theorem foolish_model_switches :
    parse "Расскажи про неумную модель".toList oneAdult [] = .command .useSmartModel ∧
      ¬ WholeWords "Расскажи про неумную модель".toList oneAdult [] := by
  have hparse : parse "Расскажи про неумную модель".toList oneAdult [] =
      .command .useSmartModel := by
    decide +kernel
  have hwords : ¬ Said smartPhrases (normalWords "Расскажи про неумную модель".toList) := by
    unfold Said
    decide +kernel
  exact ⟨hparse, fun h => hwords (h.smart hparse)⟩

end AliceBridge.Core.ControlPhrases
