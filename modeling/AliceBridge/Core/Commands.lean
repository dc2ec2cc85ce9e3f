import AliceBridge.Core.Family

/-! # Control phrases of the legacy engine

`parse` decides whether an utterance is a command or a question. It compares
the normalized utterance with fixed phrases, in the order of the source. -/
namespace AliceBridge.Core.Commands
open AliceBridge.Lib.Unicode AliceBridge.Lib.Utf8 AliceBridge.Lib.Words AliceBridge.Core.Family

inductive Command where
  | introduce (name : Text)
  | forget
  | setWindow (n : Nat)
  | useSmartModel
  | useFastModel
  | usageStats
  | whoAmI
  | enterMode (name : Text)
  | exitMode
  | help
deriving DecidableEq, Repr

inductive Parsed where
  | command (command : Command)
  | ask (text : Text) (thinkHard : Bool)
deriving DecidableEq, Repr

def foldYo (c : Char) : Char := if c = 'ё' then 'е' else c

/-- Lowercased, `ё` folded to `е`, punctuation dropped, whitespace collapsed. -/
def normalize (text : Text) : Text :=
  joinWords (splitWhitespace (((toLowercase text).map foldYo).map
    fun c => if isAlphanumeric c then c else ' '))

def introductions : List Text :=
  ["это ".toList, "я ".toList, "меня зовут ".toList, "говорит ".toList]

def thinkHardPhrases : List Text :=
  ["подумай как следует".toList, "подумай хорошенько".toList, "подумай крепко".toList]

/-- The phrases that must be the whole utterance. -/
def wholePhrase (norm : Text) : Option Command :=
  if norm ∈ ["забудь".toList, "забудь все".toList, "сбрось контекст".toList,
      "начни сначала".toList] then some .forget
  else if norm ∈ ["сколько потратили".toList, "сколько мы потратили".toList,
      "статистика".toList, "расходы".toList] then some .usageStats
  else if norm ∈ ["кто я".toList, "с кем ты говоришь".toList] then some .whoAmI
  else if norm ∈ ["хватит".toList, "выйди из режима".toList, "обычный режим".toList] then
    some .exitMode
  else if norm ∈ ["помощь".toList, "справка".toList, "что ты умеешь".toList] then some .help
  else none

def introduced (roster : FamilyRoster) (norm : Text) : Option Profile :=
  introductions.findSome? fun phrase => (stripPrefix phrase norm).bind roster.findByAlias

/-- The window size after "помни последние": the first word that is a number. -/
def windowSize (norm : Text) : Option Nat :=
  if "помни последние".toList.isPrefixOf norm || "запоминай последние".toList.isPrefixOf norm then
    (splitWhitespace norm).findSome? parseUsize
  else none

def modelSwitch (norm : Text) : Option Command :=
  if contains "умную модель".toList norm || contains "умная модель".toList norm then
    some .useSmartModel
  else if contains "быструю модель".toList norm || contains "быстрая модель".toList norm ||
      contains "модель на быструю".toList norm then
    some .useFastModel
  else none

def triggered (mode : Mode) (norm : Text) : Bool :=
  mode.triggers.any fun trigger =>
    let trigger := normalize trigger
    norm == trigger || (trigger ++ [' ']).isPrefixOf norm

/-- The question after a think-hard phrase; the whole utterance when nothing follows. -/
def thinkHard (utterance norm : Text) : Option Text :=
  thinkHardPhrases.findSome? fun phrase =>
    (stripPrefix phrase norm).map fun rest =>
      if (trim rest).isEmpty then trim utterance else trim rest

def parse (utterance : Text) (roster : FamilyRoster) (modes : List Mode) : Parsed :=
  let norm := normalize utterance
  if norm.isEmpty then .command .help
  else match introduced roster norm with
  | some profile => .command (.introduce profile.name)
  | none =>
    match wholePhrase norm with
    | some command => .command command
    | none =>
      match windowSize norm with
      | some n => .command (.setWindow n)
      | none =>
        match modelSwitch norm with
        | some command => .command command
        | none =>
          match modes.find? fun mode => triggered mode norm with
          | some mode => .command (.enterMode mode.name)
          | none =>
            match thinkHard utterance norm with
            | some text => .ask text true
            | none => .ask (trim utterance) false

/-! ## Introductions -/

section Introductions

variable {roster : FamilyRoster} {modes : List Mode} {utterance norm name : Text}

theorem wholePhrase_ne_introduce : wholePhrase norm ≠ some (.introduce name) := by
  unfold wholePhrase
  split_ifs <;> simp

theorem modelSwitch_ne_introduce : modelSwitch norm ≠ some (.introduce name) := by
  unfold modelSwitch
  split_ifs <;> simp

/-- The parser introduces only whom the roster finds. -/
theorem parse_introduce_iff : parse utterance roster modes = .command (.introduce name) ↔
    ∃ profile, introduced roster (normalize utterance) = some profile ∧ profile.name = name := by
  unfold parse
  simp only
  split
  next hempty =>
    rw [List.isEmpty_iff] at hempty
    rw [hempty]
    refine iff_of_false (fun h => by cases h) ?_
    rintro ⟨profile, hprofile, -⟩
    cases hprofile
  next =>
    split
    next profile hprofile => simp [hprofile]
    next hnone =>
      refine iff_of_false (fun h => ?_) (by simp [hnone])
      split at h
      next command hcommand =>
        obtain rfl := Parsed.command.inj h
        exact wholePhrase_ne_introduce hcommand
      next =>
        split at h
        · cases h
        split at h
        next command hcommand =>
          obtain rfl := Parsed.command.inj h
          exact modelSwitch_ne_introduce hcommand
        next =>
          split at h
          · cases h
          split at h <;> cases h

/-- After an introducing phrase the rest is looked up. -/
theorem introduced_phrase {phrase : Text} (h : phrase ∈ introductions) :
    introduced roster (phrase ++ norm) = roster.findByAlias norm := by
  simp only [introductions, List.mem_cons, List.not_mem_nil, or_false] at h
  have hfound {pat : Text} : (stripPrefix pat (pat ++ norm)).bind roster.findByAlias =
      roster.findByAlias norm := by
    rw [stripPrefix_eq_some.mpr rfl]
    rfl
  unfold introduced introductions
  rcases h with rfl | rfl | rfl | rfl <;>
  · simp only [List.findSome?_cons, hfound]
    cases roster.findByAlias norm <;> rfl

end Introductions

/-! ## The normal form -/

section NormalForm

variable {text word phrase : Text} {c : Char}

/-- The words that `normalize` joins. -/
def normalWords (text : Text) : List Text :=
  splitWhitespace (((toLowercase text).map foldYo).map fun c => if isAlphanumeric c then c else ' ')

theorem normalize_eq (text : Text) : normalize text = joinWords (normalWords text) := rfl

theorem normalWords_isWord (h : word ∈ normalWords text) : IsWord word :=
  (mem_splitWhitespace h).1

theorem normalize_eq_nil : normalize text = [] ↔ normalWords text = [] := by
  rw [normalize_eq]
  refine ⟨fun h => ?_, fun h => by rw [h]; rfl⟩
  have hsplit : splitWhitespace (joinWords (normalWords text)) = normalWords text :=
    splitWhitespace_joinWords fun _ => normalWords_isWord
  rw [h] at hsplit
  exact hsplit.symm

/-- A character that normalization leaves as it is, once lowered. -/
def isPlain (c : Char) : Bool := isAlphanumeric c && c != 'ё'

theorem normalWords_plain (h : word ∈ normalWords text) (hc : c ∈ word) : isPlain c = true := by
  obtain ⟨hword, hchars⟩ := mem_splitWhitespace h
  have hspace := hword.2 c hc
  obtain ⟨folded, hfolded, rfl⟩ := List.mem_map.mp (hchars c hc)
  obtain ⟨lowered, -, rfl⟩ := List.mem_map.mp hfolded
  split at hspace
  · next halnum =>
    have hyo : foldYo lowered ≠ 'ё' := by
      unfold foldYo
      split
      · decide
      · next h => exact h
    simp [isPlain, halnum, hyo]
  · exact absurd hspace (by decide)

theorem isPlain_fixed (h : isPlain c = true) :
    (if isAlphanumeric (foldYo c) then foldYo c else ' ') = c := by
  simp only [isPlain, Bool.and_eq_true, bne_iff_ne, ne_eq] at h
  have hfold : foldYo c = c := if_neg h.2
  rw [hfold, if_pos h.1]

/-- A text that is lowered to a normal form has that normal form. -/
theorem normalWords_of_lowered {lowered : Text} (h : toLowercase lowered = normalize text) :
    normalWords lowered = normalWords text := by
  have hfixed : ((normalize text).map foldYo).map
      (fun c => if isAlphanumeric c then c else ' ') = normalize text := by
    rw [List.map_map]
    refine (List.map_congr_left fun c hc => ?_).trans (List.map_id _)
    rcases mem_joinWords hc with rfl | ⟨word, hword, hc⟩
    · rfl
    · exact isPlain_fixed (normalWords_plain hword hc)
  unfold normalWords
  rw [h, hfixed]
  exact splitWhitespace_joinWords fun _ => normalWords_isWord

theorem trim_normalize (text : Text) : trim (normalize text) = normalize text :=
  trim_joinWords fun _ => normalWords_isWord

/-- The words of a phrase in small letters come before those of the rest. -/
theorem normalWords_append (h : phrase.all isLowered = true) (rest : Text) :
    normalWords (phrase ++ ' ' :: rest) = normalWords phrase ++ normalWords rest := by
  have hblank : isWhitespace (if isAlphanumeric (foldYo ' ') then foldYo ' ' else ' ') = true := by
    decide
  unfold normalWords
  rw [toLowercase_lowered h, toLowercase_of_lowered h]
  simp only [List.map_append, List.map_cons]
  exact splitWhitespace_append hblank ..

theorem normalize_append (h : phrase.all isLowered = true) {rest : Text}
    (hphrase : normalize phrase ≠ []) (hrest : normalize rest ≠ []) :
    normalize (phrase ++ ' ' :: rest) = normalize phrase ++ ' ' :: normalize rest := by
  rw [ne_eq, normalize_eq_nil] at hphrase hrest
  rw [normalize_eq, normalWords_append h, joinWords_append hphrase hrest]
  rfl

end NormalForm

end AliceBridge.Core.Commands
