import Mathlib.Algebra.GroupWithZero.Nat
import Mathlib.Data.List.DropRight
import AliceBridge.Lib.Unicode

/-! # Rust `str` as scalar values with byte offsets

A `str` is the list of its Unicode scalar values. Offsets are UTF-8 byte
offsets, as the Rust methods return them, and slicing off a character boundary
has no result: that is the panic of `&text[..i]`. `splitAt_byteLen` is the only
fact about slicing the users of this file need: an offset that is the byte
length of a prefix cuts exactly there. -/
namespace AliceBridge.Lib.Utf8
open AliceBridge.Lib.Unicode

abbrev Text := List Char

/-- `str::len`. -/
def byteLen (text : Text) : Nat := (text.map Char.utf8Size).sum

@[simp] theorem byteLen_nil : byteLen [] = 0 := rfl
@[simp] theorem byteLen_cons (c : Char) (text : Text) :
    byteLen (c :: text) = c.utf8Size + byteLen text := rfl
@[simp] theorem byteLen_append (a b : Text) : byteLen (a ++ b) = byteLen a + byteLen b := by
  simp [byteLen]

/-- `text.split_at(i)`: no result off a character boundary. -/
def splitAt? : Text → Nat → Option (Text × Text)
  | text, 0 => some ([], text)
  | [], _ + 1 => none
  | c :: rest, i + 1 =>
    if c.utf8Size ≤ i + 1 then
      (splitAt? rest (i + 1 - c.utf8Size)).map fun p => (c :: p.1, p.2)
    else none

/-- `&text[..i]`. -/
def sliceTo (text : Text) (i : Nat) : Option Text := (splitAt? text i).map Prod.fst

/-- `&text[i..]`. -/
def sliceFrom (text : Text) (i : Nat) : Option Text := (splitAt? text i).map Prod.snd

theorem splitAt_byteLen (a b : Text) : splitAt? (a ++ b) (byteLen a) = some (a, b) := by
  induction a with
  | nil => cases b <;> rfl
  | cons c a ih =>
    have hc := c.utf8Size_pos
    obtain ⟨n, hn⟩ : ∃ n, byteLen (c :: a) = n + 1 := ⟨c.utf8Size + byteLen a - 1, by simp; omega⟩
    have hle : c.utf8Size ≤ n + 1 := by rw [← hn]; simp
    have hsub : n + 1 - c.utf8Size = byteLen a := by rw [← hn]; simp
    rw [hn, List.cons_append, splitAt?, if_pos hle, hsub, ih]
    rfl

theorem sliceTo_byteLen (a b : Text) : sliceTo (a ++ b) (byteLen a) = some a := by
  simp [sliceTo, splitAt_byteLen]

theorem sliceFrom_byteLen (a b : Text) : sliceFrom (a ++ b) (byteLen a) = some b := by
  simp [sliceFrom, splitAt_byteLen]

/-! ## Character offsets -/

def charIndicesFrom : Nat → Text → List (Nat × Char)
  | _, [] => []
  | i, c :: rest => (i, c) :: charIndicesFrom (i + c.utf8Size) rest

/-- `str::char_indices`. -/
def charIndices (text : Text) : List (Nat × Char) := charIndicesFrom 0 text

theorem charIndicesFrom_getElem? (start : Nat) (text : Text) (n : Nat) :
    (charIndicesFrom start text)[n]? =
      (text[n]?).map fun c => (start + byteLen (text.take n), c) := by
  induction text generalizing start n with
  | nil => simp [charIndicesFrom]
  | cons c rest ih =>
    cases n with
    | zero => simp [charIndicesFrom]
    | succ n => simp [charIndicesFrom, ih, Nat.add_assoc]

/-- The offset of the `n`-th character is the byte length of the `n` before it. -/
theorem charIndices_getElem? (text : Text) (n : Nat) :
    (charIndices text)[n]? = (text[n]?).map fun c => (byteLen (text.take n), c) := by
  simp [charIndices, charIndicesFrom_getElem?]

/-- Every entry of `char_indices` sits at a boundary inside the text. -/
theorem charIndices_mem {text : Text} {i : Nat} {c : Char} (h : (i, c) ∈ charIndices text) :
    ∃ a b, text = a ++ c :: b ∧ byteLen a = i := by
  obtain ⟨n, hn⟩ := List.mem_iff_getElem?.mp h
  rw [charIndices_getElem?] at hn
  obtain ⟨d, hd, he⟩ := Option.map_eq_some_iff.mp hn
  obtain ⟨rfl, rfl⟩ := Prod.mk.injEq .. ▸ he
  obtain ⟨hlt, hget⟩ := List.getElem?_eq_some_iff.mp hd
  refine ⟨text.take n, text.drop (n + 1), ?_, rfl⟩
  rw [← hget, ← List.drop_eq_getElem_cons hlt, List.take_append_drop]

def rfindFrom (pat : Text) : Nat → Text → Option Nat
  | i, [] => if pat.isEmpty then some i else none
  | i, c :: rest =>
    match rfindFrom pat (i + c.utf8Size) rest with
    | some j => some j
    | none => if pat.isPrefixOf (c :: rest) then some i else none

/-- `text.rfind(pat)` for a string pattern: the offset of the last occurrence. -/
def rfind (pat text : Text) : Option Nat := rfindFrom pat 0 text

theorem rfindFrom_spec {pat : Text} :
    ∀ {text : Text} {start j : Nat}, rfindFrom pat start text = some j →
      ∃ a b, text = a ++ pat ++ b ∧ start + byteLen a = j
  | [], start, j, h => by
    simp only [rfindFrom, List.isEmpty_iff, Option.ite_none_right_eq_some, Option.some.injEq] at h
    exact ⟨[], [], by simp [h.1], by simp [h.2]⟩
  | c :: rest, start, j, h => by
    simp only [rfindFrom] at h
    split at h
    · next k hk =>
      obtain rfl := Option.some.inj h
      obtain ⟨a, b, hr, hj⟩ := rfindFrom_spec hk
      exact ⟨c :: a, b, by simp [hr], by simp only [byteLen_cons]; omega⟩
    · simp only [Option.ite_none_right_eq_some, Option.some.injEq, List.isPrefixOf_iff_prefix] at h
      obtain ⟨⟨b, hb⟩, rfl⟩ := h
      exact ⟨[], b, by simp [hb], by simp⟩

/-- A match of `rfind` cuts the text at character boundaries. -/
theorem rfind_spec {pat text : Text} {j : Nat} (h : rfind pat text = some j) :
    ∃ a b, text = a ++ pat ++ b ∧ byteLen a = j := by
  obtain ⟨a, b, ht, hj⟩ := rfindFrom_spec h
  exact ⟨a, b, ht, by simpa using hj⟩

/-- `char_indices().rev().find(p)`. -/
def rfindChar (p : Nat × Char → Bool) (text : Text) : Option (Nat × Char) :=
  (charIndices text).reverse.find? p

theorem rfindChar_spec {p : Nat × Char → Bool} {text : Text} {i : Nat} {c : Char}
    (h : rfindChar p text = some (i, c)) :
    p (i, c) = true ∧ ∃ a b, text = a ++ c :: b ∧ byteLen a = i :=
  ⟨List.find?_some h, charIndices_mem (by simpa using List.mem_of_find?_eq_some h)⟩

theorem charIndicesFrom_chars (start : Nat) (text : Text) :
    (charIndicesFrom start text).map Prod.snd = text := by
  induction text generalizing start with
  | nil => rfl
  | cons c rest ih => rw [charIndicesFrom, List.map_cons, ih]

/-- The entry found is the last one that matches. -/
theorem rfindChar_last {p : Char → Bool} {text : Text} {i : Nat} {c : Char}
    (h : rfindChar (fun entry => p entry.2) text = some (i, c)) :
    p c = true ∧ ∃ a b, text = a ++ c :: b ∧ byteLen a = i ∧ ∀ x ∈ b, p x = false := by
  obtain ⟨hp, later, earlier, hreverse, hlater⟩ := List.find?_eq_some_iff_append.mp h
  have hentries : charIndices text = earlier.reverse ++ (i, c) :: later.reverse := by
    rw [← List.reverse_reverse (charIndices text), hreverse]
    simp
  have htext : text = earlier.reverse.map Prod.snd ++ c :: later.reverse.map Prod.snd := by
    rw [← charIndicesFrom_chars 0 text, ← charIndices, hentries]
    simp
  refine ⟨hp, earlier.reverse.map Prod.snd, later.reverse.map Prod.snd, htext, ?_, ?_⟩
  · have hoffset := charIndices_getElem? text earlier.length
    have hentry : (charIndices text)[earlier.length]? = some (i, c) := by simp [hentries]
    have hchar : text[earlier.length]? = some c := by rw [htext]; simp
    have htake : text.take earlier.length = earlier.reverse.map Prod.snd := by
      rw [htext]
      exact List.take_left' (by simp)
    rw [hentry, hchar, Option.map_some, htake] at hoffset
    exact (Prod.mk.inj (Option.some.inj hoffset)).1.symm
  · intro x hx
    obtain ⟨entry, hentry, rfl⟩ := List.mem_map.mp hx
    simpa using hlater entry (List.mem_reverse.mp hentry)

/-- Nothing is found exactly when nothing matches. -/
theorem rfindChar_none {p : Char → Bool} {text : Text}
    (h : rfindChar (fun entry => p entry.2) text = none) : ∀ x ∈ text, p x = false := by
  intro x hx
  rw [← charIndicesFrom_chars 0 text] at hx
  obtain ⟨entry, hentry, rfl⟩ := List.mem_map.mp hx
  simpa using List.find?_eq_none.mp h entry (List.mem_reverse.mpr hentry)

/-! ## Character classes -/

/-- `char::is_whitespace`: the Unicode property `White_Space`. -/
def isWhitespace (c : Char) : Bool :=
  let n := c.toNat
  (9 ≤ n && n ≤ 13) || n == 0x20 || n == 0x85 || n == 0xA0 || n == 0x1680 ||
    (0x2000 ≤ n && n ≤ 0x200A) || n == 0x2028 || n == 0x2029 || n == 0x202F || n == 0x205F ||
    n == 0x3000

/-- White space is neither a letter nor a digit. -/
theorem isAlphanumeric_whitespace {c : Char} (h : isWhitespace c = true) :
    isAlphanumeric c = false := by
  have hcodes : ∀ n ∈ [9, 10, 11, 12, 13, 0x20, 0x85, 0xA0, 0x1680, 0x2000, 0x2001, 0x2002,
      0x2003, 0x2004, 0x2005, 0x2006, 0x2007, 0x2008, 0x2009, 0x200A, 0x2028, 0x2029, 0x202F,
      0x205F, 0x3000], inRanges alphanumericRanges n = false := by
    decide +kernel
  refine hcodes c.toNat ?_
  simp only [isWhitespace, Bool.or_eq_true, Bool.and_eq_true, decide_eq_true_eq,
    beq_iff_eq] at h
  simp only [List.mem_cons, List.not_mem_nil, or_false]
  omega

/-- `str::trim_end_matches`. -/
def trimEndMatches (p : Char → Bool) (text : Text) : Text := text.rdropWhile p

theorem trimEndMatches_prefix (p : Char → Bool) (text : Text) : trimEndMatches p text <+: text :=
  List.rdropWhile_prefix p text

/-- What is trimmed off matches. -/
theorem trimEndMatches_append (p : Char → Bool) (text : Text) :
    ∃ trimmed, text = trimEndMatches p text ++ trimmed ∧ ∀ c ∈ trimmed, p c = true := by
  refine ⟨text.rtakeWhile p, ?_, fun c hc => List.mem_rtakeWhile_imp hc⟩
  unfold trimEndMatches List.rdropWhile List.rtakeWhile
  rw [← List.reverse_append, List.takeWhile_append_dropWhile, List.reverse_reverse]

/-- `str::trim`. -/
def trim (text : Text) : Text := (text.dropWhile isWhitespace).rdropWhile isWhitespace

/-- Past the characters that case ignores, the text begins with a cased one. -/
def caseIgnorableThenCased (text : Text) : Bool :=
  (text.dropWhile isCaseIgnorable).head?.any isCased

/-- The lowercase of a text that comes after `before`, which is in reverse. `Σ` is lowered
to the final letter at the end of a word. -/
def lowercaseFrom : Text → Text → Text
  | _, [] => []
  | before, c :: rest =>
    (if c = 'Σ' then
      [if caseIgnorableThenCased before && !caseIgnorableThenCased rest then 'ς' else 'σ']
    else toLowercaseChar c) ++ lowercaseFrom (c :: before) rest

/-- `str::to_lowercase`. -/
def toLowercase (text : Text) : Text := lowercaseFrom [] text

/-- Of what stands before a blank, the case of the rest does not depend. -/
theorem lowercaseFrom_blank (before more text : Text) :
    lowercaseFrom (before ++ ' ' :: more) text = lowercaseFrom before text := by
  induction text generalizing before with
  | nil => rfl
  | cons c rest ih =>
    have hbefore : caseIgnorableThenCased (before ++ ' ' :: more) =
        caseIgnorableThenCased before := by
      have hignorable : isCaseIgnorable ' ' = false := by decide
      have hcased : isCased ' ' = false := by decide
      unfold caseIgnorableThenCased
      rw [List.dropWhile_append]
      split
      · next hall =>
        rw [List.isEmpty_iff.mp hall, List.dropWhile_cons_of_neg (by simp [hignorable])]
        exact hcased
      · next hsome =>
        rw [List.head?_append_of_ne_nil _ (by simpa [List.isEmpty_iff] using hsome)]
    have hrest := ih (c :: before)
    rw [List.cons_append] at hrest
    rw [lowercaseFrom, lowercaseFrom, hbefore, hrest]

/-- A character that is its own lowercase. -/
def isLowered (c : Char) : Bool := c != 'Σ' && toLowercaseChar c == [c]

theorem lowercaseFrom_lowered {text : Text} (h : text.all isLowered = true) (before more : Text) :
    lowercaseFrom before (text ++ more) = text ++ lowercaseFrom (text.reverse ++ before) more := by
  induction text generalizing before with
  | nil => rfl
  | cons c rest ih =>
    rw [List.all_cons, Bool.and_eq_true] at h
    obtain ⟨hc, hrest⟩ := h
    simp only [isLowered, Bool.and_eq_true, bne_iff_ne, ne_eq, beq_iff_eq] at hc
    rw [List.cons_append, lowercaseFrom, if_neg hc.1, hc.2, ih hrest]
    simp

/-- The words before a blank are lowered by themselves, and so is the rest. -/
theorem toLowercase_lowered {text : Text} (h : text.all isLowered = true) (more : Text) :
    toLowercase (text ++ ' ' :: more) = text ++ ' ' :: toLowercase more := by
  have hblank : [' '].all isLowered = true := by decide
  unfold toLowercase
  rw [lowercaseFrom_lowered h, List.append_nil]
  have hcons := lowercaseFrom_lowered hblank text.reverse more
  rw [List.singleton_append, List.reverse_singleton, List.singleton_append] at hcons
  rw [hcons, List.singleton_append, ← List.nil_append (' ' :: text.reverse), lowercaseFrom_blank]

theorem toLowercase_of_lowered {text : Text} (h : text.all isLowered = true) :
    toLowercase text = text := by
  have := lowercaseFrom_lowered h [] []
  rwa [List.append_nil, lowercaseFrom, List.append_nil] at this

end AliceBridge.Lib.Utf8
