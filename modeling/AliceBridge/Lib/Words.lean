import Mathlib.Data.List.Infix
import Mathlib.Data.Nat.Digits.Defs
import AliceBridge.Lib.Utf8

/-! # Words of a Rust `str`

The methods that take a text apart into words and look for one text in another,
as the standard library documents them. -/
namespace AliceBridge.Lib.Words
open AliceBridge.Lib.Utf8

/-- `str::split_whitespace`. -/
def splitWhitespace (text : Text) : List Text :=
  (text.splitOnP isWhitespace).filter fun word => !word.isEmpty

/-- `words.join(" ")`. -/
def joinWords (words : List Text) : Text := [' '].intercalate words

/-! ## Words and their join -/

/-- What a text is split into: no white space, and not empty. -/
def IsWord (word : Text) : Prop := word ≠ [] ∧ ∀ c ∈ word, isWhitespace c = false

section Joins

variable {text word : Text} {words : List Text}

theorem mem_splitOnP {α : Type} {p : α → Bool} {xs piece : List α} (h : piece ∈ xs.splitOnP p) :
    ∀ x ∈ piece, p x = false ∧ x ∈ xs := by
  induction xs generalizing piece with
  | nil =>
    obtain rfl := List.mem_singleton.mp (List.splitOnP_nil ▸ h)
    exact fun x hx => absurd hx List.not_mem_nil
  | cons x xs ih =>
    have hlater {piece : List α} (h : piece ∈ xs.splitOnP p) :
        ∀ y ∈ piece, p y = false ∧ y ∈ x :: xs :=
      fun y hy => ⟨(ih h y hy).1, List.mem_cons_of_mem _ (ih h y hy).2⟩
    rw [List.splitOnP_cons_eq_if_modifyHead] at h
    split at h
    next =>
      rcases List.mem_cons.mp h with rfl | h
      · exact fun y hy => absurd hy List.not_mem_nil
      · exact hlater h
    next hx =>
      obtain ⟨first, others, hsplit⟩ := List.exists_cons_of_ne_nil (List.splitOnP_ne_nil p xs)
      rw [hsplit, List.modifyHead_cons] at h
      rcases List.mem_cons.mp h with rfl | h
      · refine List.forall_mem_cons.mpr ⟨⟨Bool.eq_false_iff.mpr hx, List.mem_cons_self⟩, ?_⟩
        exact hlater (hsplit ▸ List.mem_cons_self)
      · exact hlater (hsplit ▸ List.mem_cons_of_mem _ h)

theorem mem_splitWhitespace (h : word ∈ splitWhitespace text) :
    IsWord word ∧ ∀ c ∈ word, c ∈ text := by
  obtain ⟨hpiece, hne⟩ := List.mem_filter.mp h
  have hchars := mem_splitOnP hpiece
  exact ⟨⟨by simpa using hne, fun c hc => (hchars c hc).1⟩, fun c hc => (hchars c hc).2⟩

/-- White space separates the words before it from those after it. -/
theorem splitWhitespace_append {sep : Char} (h : isWhitespace sep = true) (a b : Text) :
    splitWhitespace (a ++ sep :: b) = splitWhitespace a ++ splitWhitespace b := by
  unfold splitWhitespace
  rw [List.splitOnP_append_cons _ _ h, List.filter_append]

theorem splitWhitespace_word (h : IsWord word) : splitWhitespace word = [word] := by
  unfold splitWhitespace
  rw [List.splitOnP_eq_singleton h.2]
  simp [h.1]

@[simp] theorem joinWords_singleton (word : Text) : joinWords [word] = word :=
  List.intercalate_singleton

theorem joinWords_cons {rest : List Text} (h : rest ≠ []) :
    joinWords (word :: rest) = word ++ ' ' :: joinWords rest := by
  unfold joinWords
  rw [List.intercalate_cons_of_ne_nil h, List.append_assoc, List.singleton_append]

theorem joinWords_append {rest : List Text} (hwords : words ≠ []) (hrest : rest ≠ []) :
    joinWords (words ++ rest) = joinWords words ++ ' ' :: joinWords rest := by
  induction words with
  | nil => exact absurd rfl hwords
  | cons word words ih =>
    rw [List.cons_append]
    by_cases hwords : words = []
    · subst hwords
      rw [List.nil_append, joinWords_cons hrest, joinWords_singleton]
    · have happend : words ++ rest ≠ [] := by simp [hwords]
      rw [joinWords_cons happend, ih hwords, joinWords_cons hwords, List.append_assoc,
        List.cons_append]

/-- Words that are joined are split again. -/
theorem splitWhitespace_joinWords (h : ∀ word ∈ words, IsWord word) :
    splitWhitespace (joinWords words) = words := by
  induction words with
  | nil => rfl
  | cons word words ih =>
    rw [List.forall_mem_cons] at h
    by_cases hwords : words = []
    · subst hwords
      rw [joinWords_singleton, splitWhitespace_word h.1]
    · have hblank : isWhitespace ' ' = true := by decide
      rw [joinWords_cons hwords, splitWhitespace_append hblank, splitWhitespace_word h.1,
        ih h.2, List.singleton_append]

theorem mem_joinWords {c : Char} (h : c ∈ joinWords words) :
    c = ' ' ∨ ∃ word ∈ words, c ∈ word := by
  induction words with
  | nil => cases h
  | cons word words ih =>
    by_cases hwords : words = []
    · subst hwords
      rw [joinWords_singleton] at h
      exact .inr ⟨word, List.mem_cons_self, h⟩
    · rw [joinWords_cons hwords, List.mem_append, List.mem_cons] at h
      rcases h with h | rfl | h
      · exact .inr ⟨word, List.mem_cons_self, h⟩
      · exact .inl rfl
      · refine (ih h).imp_right ?_
        rintro ⟨other, hother, hc⟩
        exact ⟨other, List.mem_cons_of_mem _ hother, hc⟩

theorem joinWords_ends (h : ∀ word ∈ words, IsWord word) :
    joinWords words = [] ∨
      (∃ c rest, joinWords words = c :: rest ∧ isWhitespace c = false) ∧
        ∃ front c, joinWords words = front ++ [c] ∧ isWhitespace c = false := by
  induction words with
  | nil => exact .inl rfl
  | cons word words ih =>
    rw [List.forall_mem_cons] at h
    obtain ⟨⟨hne, hchars⟩, hrest⟩ := h
    obtain ⟨c, tail, rfl⟩ := List.exists_cons_of_ne_nil hne
    have hc := hchars c List.mem_cons_self
    right
    by_cases hwords : words = []
    · subst hwords
      rw [joinWords_singleton]
      refine ⟨⟨c, tail, rfl, hc⟩, (c :: tail).dropLast, (c :: tail).getLast hne, ?_, ?_⟩
      · exact (List.dropLast_append_getLast hne).symm
      · exact hchars _ (List.getLast_mem hne)
    · rw [joinWords_cons hwords]
      refine ⟨⟨c, _, rfl, hc⟩, ?_⟩
      rcases ih hrest with hnil | ⟨-, front, last, hjoin, hlast⟩
      · have hempty := splitWhitespace_joinWords hrest
        rw [hnil] at hempty
        exact absurd hempty.symm hwords
      · exact ⟨(c :: tail) ++ ' ' :: front, last, by simp [hjoin], hlast⟩

/-- Joined words have no white space around them. -/
theorem trim_joinWords (h : ∀ word ∈ words, IsWord word) :
    trim (joinWords words) = joinWords words := by
  unfold trim
  rcases joinWords_ends h with hnil | ⟨⟨c, rest, hhead, hc⟩, front, last, hjoin, hlast⟩
  · rw [hnil]
    rfl
  · rw [hhead, List.dropWhile_cons_of_neg (by simp [hc]), ← hhead, hjoin,
      List.rdropWhile_concat_neg _ _ _ (by simp [hlast])]

/-- A join begins with other words, each followed by a blank, exactly when its words do. -/
theorem joinWords_prefix_iff {first : List Text} (hne : first ≠ [])
    (hfirst : ∀ word ∈ first, IsWord word) (hwords : ∀ word ∈ words, IsWord word) :
    joinWords first ++ [' '] <+: joinWords words ++ [' '] ↔ first <+: words := by
  constructor
  · rintro ⟨rest, heq⟩
    have hsplit := congrArg splitWhitespace heq
    have hblank : isWhitespace ' ' = true := by decide
    rw [List.append_assoc, List.singleton_append, splitWhitespace_append hblank,
      splitWhitespace_append hblank, splitWhitespace_joinWords hfirst,
      splitWhitespace_joinWords hwords] at hsplit
    exact ⟨splitWhitespace rest, hsplit.trans (List.append_nil _)⟩
  · rintro ⟨rest, rfl⟩
    by_cases hrest : rest = []
    · rw [hrest, List.append_nil]
    · exact ⟨joinWords rest ++ [' '], by simp [joinWords_append hne hrest]⟩

/-- The same in the midst of a join, with a blank before the first word too. -/
theorem joinWords_infix_iff {inner : List Text} (hne : inner ≠ [])
    (hinner : ∀ word ∈ inner, IsWord word) (hwords : ∀ word ∈ words, IsWord word) :
    ' ' :: (joinWords inner ++ [' ']) <:+: ' ' :: (joinWords words ++ [' ']) ↔
      inner <:+: words := by
  have hblank : isWhitespace ' ' = true := by decide
  constructor
  · rintro ⟨before, after, heq⟩
    have hsplit := congrArg splitWhitespace heq
    have hleft : before ++ ' ' :: (joinWords inner ++ [' ']) ++ after =
        before ++ ' ' :: (joinWords inner ++ ' ' :: after) := by simp
    have hright : ' ' :: (joinWords words ++ [' ']) = [] ++ ' ' :: (joinWords words ++ ' ' :: []) :=
      rfl
    rw [hleft, hright] at hsplit
    simp only [splitWhitespace_append hblank, splitWhitespace_joinWords hinner,
      splitWhitespace_joinWords hwords] at hsplit
    exact ⟨splitWhitespace before, splitWhitespace after, by simpa [splitWhitespace] using hsplit⟩
  · rintro ⟨before, after, rfl⟩
    have hlater : inner ++ after ≠ [] := by simp [hne]
    have hprefix := (joinWords_prefix_iff hne hinner fun word hword => hwords word (by
      rw [List.append_assoc]
      exact List.mem_append_right _ hword)).mpr (List.prefix_append inner after)
    refine List.infix_iff_prefix_suffix.mpr ⟨_, (List.prefix_cons_inj ' ').mpr hprefix, ?_⟩
    by_cases hbefore : before = []
    · rw [hbefore, List.nil_append]
    · refine ⟨' ' :: joinWords before, ?_⟩
      rw [List.append_assoc before, joinWords_append hbefore hlater]
      simp

end Joins

/-! ## Text in text -/

/-- `str::strip_prefix`. -/
def stripPrefix (pat text : Text) : Option Text :=
  if pat.isPrefixOf text then some (text.drop pat.length) else none

theorem stripPrefix_eq_some {pat text rest : Text} :
    stripPrefix pat text = some rest ↔ text = pat ++ rest := by
  unfold stripPrefix
  rw [Option.ite_none_right_eq_some, List.isPrefixOf_iff_prefix, Option.some.injEq]
  constructor
  · rintro ⟨⟨tail, rfl⟩, rfl⟩
    rw [List.drop_left]
  · rintro rfl
    exact ⟨List.prefix_append .., List.drop_left⟩

/-- `str::contains`. -/
def contains (pat text : Text) : Bool := text.tails.any fun tail => pat.isPrefixOf tail

theorem contains_eq_true {pat text : Text} : contains pat text = true ↔ pat <:+: text := by
  unfold contains
  simp only [List.any_eq_true, List.mem_tails, List.isPrefixOf_iff_prefix]
  exact (exists_congr fun _ => and_comm).trans List.infix_iff_prefix_suffix.symm

/-- `Path::is_absolute` on Unix. -/
def isAbsolute (path : Text) : Bool := path.head? == some '/'

/-- `char::is_ascii_alphanumeric`. -/
def isAsciiAlphanumeric (c : Char) : Bool :=
  let n := c.toNat
  (48 ≤ n && n ≤ 57) || (65 ≤ n && n ≤ 90) || (97 ≤ n && n ≤ 122)

theorem isAsciiAlphanumeric_iff {c : Char} : isAsciiAlphanumeric c = true ↔
    '0' ≤ c ∧ c ≤ '9' ∨ 'A' ≤ c ∧ c ≤ 'Z' ∨ 'a' ≤ c ∧ c ≤ 'z' := by
  have hle (a b : Char) : a ≤ b ↔ a.toNat ≤ b.toNat := UInt32.le_iff_toNat_le
  simp only [isAsciiAlphanumeric, Bool.or_eq_true, Bool.and_eq_true, decide_eq_true_eq, hle,
    or_assoc]
  rfl

def digitValue (c : Char) : Nat := c.toNat - 48

/-- `word.parse::<usize>()`: an optional `+` and decimal digits, within 64 bits. -/
def parseUsize (word : Text) : Option Nat :=
  let digits := (stripPrefix ['+'] word).getD word
  if digits.isEmpty || !digits.all Char.isDigit then none
  else
    let value := digits.foldl (fun n c => 10 * n + digitValue c) 0
    if value < 2 ^ 64 then some value else none

/-- A number in decimal. -/
def decimal (n : Nat) : Text := Nat.toDigits 10 n

/-- `{:0width}` of a number that is not negative. -/
def padded (width n : Nat) : Text := List.replicate (width - (decimal n).length) '0' ++ decimal n

/-! ## Numerals -/

/-- Decimal digits, the units last, and the number they write. -/
def Spells (text : Text) (n : Nat) : Prop :=
  ∃ digits : List Nat, digits ≠ [] ∧ (∀ digit ∈ digits, digit < 10) ∧
    text = digits.map Nat.digitChar ∧ n = Nat.ofDigits 10 digits.reverse

/-- Digits after a sign or none, and the number they write. -/
inductive Numeral : Text → Int → Prop
  | plain {text : Text} {n : Nat} : Spells text n → Numeral text n
  | plus {text : Text} {n : Nat} : Spells text n → Numeral ('+' :: text) n
  | minus {text : Text} {n : Nat} : Spells text n → Numeral ('-' :: text) (-n)

theorem digitValue_digitChar {digit : Nat} (h : digit < 10) :
    digitValue (Nat.digitChar digit) = digit :=
  Nat.toNat_digitChar_sub_48_of_lt_ten h

theorem digitValue_lt {c : Char} (h : c.isDigit = true) : digitValue c < 10 := by
  have hle : c.toNat ≤ 57 := by
    simp only [Char.isDigit, Bool.and_eq_true, decide_eq_true_eq] at h
    exact UInt32.le_iff_toNat_le.mp h.2
  unfold digitValue
  omega

theorem digitChar_digitValue {c : Char} (h : c.isDigit = true) :
    Nat.digitChar (digitValue c) = c := by
  refine Char.toNat_inj.mp ?_
  rw [Nat.toNat_digitChar_of_lt_ten (digitValue_lt h)]
  have hle : 48 ≤ c.toNat := by
    simp only [Char.isDigit, Bool.and_eq_true, decide_eq_true_eq] at h
    exact UInt32.le_iff_toNat_le.mp h.1
  unfold digitValue
  omega

/-- Reading the digits from the left gives the number. -/
theorem foldl_digits {digits : List Nat} (h : ∀ digit ∈ digits, digit < 10) :
    (digits.map Nat.digitChar).foldl (fun n c => 10 * n + (digitValue c : Int)) 0 =
      (Nat.ofDigits 10 digits.reverse : Nat) := by
  induction digits using List.reverseRecOn with
  | nil => rfl
  | append_singleton digits digit ih =>
    have hdigit := digitValue_digitChar (h digit (by simp))
    rw [List.map_append, List.foldl_append, ih fun d hd => h d (List.mem_append_left _ hd),
      List.reverse_append, List.reverse_singleton, List.singleton_append, Nat.ofDigits_cons]
    simp only [List.map_cons, List.map_nil, List.foldl_cons, List.foldl_nil, hdigit]
    push_cast
    omega

/-- The text is digits, one at least, and reading them gives the number. -/
theorem Spells.read {text : Text} {n : Nat} (h : Spells text n) : text ≠ [] ∧
    (∀ c ∈ text, c.isDigit = true) ∧
      text.foldl (fun n c => 10 * n + (digitValue c : Int)) 0 = n := by
  obtain ⟨digits, hne, hdigits, rfl, rfl⟩ := h
  refine ⟨by simpa using hne, fun c hc => ?_, foldl_digits hdigits⟩
  obtain ⟨digit, hdigit, rfl⟩ := List.mem_map.mp hc
  simpa [Nat.isDigit_digitChar] using hdigits digit hdigit

/-- Digits write some number. -/
theorem exists_spells {text : Text} (hne : text ≠ []) (h : ∀ c ∈ text, c.isDigit = true) :
    ∃ n, Spells text n := by
  refine ⟨_, text.map digitValue, by simpa using hne, fun digit hdigit => ?_, ?_, rfl⟩
  · obtain ⟨c, hc, rfl⟩ := List.mem_map.mp hdigit
    exact digitValue_lt (h c hc)
  · rw [List.map_map]
    refine List.ext_getElem (by simp) fun i hi _ => ?_
    simpa using (digitChar_digitValue (h _ (List.getElem_mem hi))).symm

theorem not_spells_cons {c : Char} {text : Text} {n : Nat} (h : c.isDigit = false) :
    ¬ Spells (c :: text) n := by
  intro hspells
  have hdigit := hspells.read.2.1 c List.mem_cons_self
  rw [h] at hdigit
  cases hdigit

theorem numeral_minus {text : Text} {n : Int} :
    Numeral ('-' :: text) n ↔ ∃ m : Nat, Spells text m ∧ n = -m := by
  constructor
  · intro h
    cases h with
    | plain h => exact absurd h (not_spells_cons rfl)
    | minus h => exact ⟨_, h, rfl⟩
  · rintro ⟨m, h, rfl⟩
    exact .minus h

theorem numeral_plus {text : Text} {n : Int} :
    Numeral ('+' :: text) n ↔ ∃ m : Nat, Spells text m ∧ n = m := by
  constructor
  · intro h
    cases h with
    | plain h => exact absurd h (not_spells_cons rfl)
    | plus h => exact ⟨_, h, rfl⟩
  · rintro ⟨m, h, rfl⟩
    exact .plus h

theorem numeral_unsigned {text : Text} {n : Int} (hminus : ¬ ['-'] <+: text)
    (hplus : ¬ ['+'] <+: text) : Numeral text n ↔ ∃ m : Nat, Spells text m ∧ n = m := by
  constructor
  · intro h
    cases h with
    | plain h => exact ⟨_, h, rfl⟩
    | plus h => exact absurd ⟨_, rfl⟩ hplus
    | minus h => exact absurd ⟨_, rfl⟩ hminus
  · rintro ⟨m, h, rfl⟩
    exact .plain h

end AliceBridge.Lib.Words
