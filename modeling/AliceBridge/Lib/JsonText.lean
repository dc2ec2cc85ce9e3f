import Mathlib.Data.List.Sort
import AliceBridge.Lib.Json
import AliceBridge.Lib.Words

/-! # JSON texts

`serde_json`'s compact printer and its parser, on the characters of a `str`: every
byte they look at is ASCII. An object is a map, kept in the order of its names; a
name that comes twice has its last value. The two conversions between a float and
its text are parameters.

The round trip holds for the values without floats whose numbers the types of the printer
allow (`CanonicalNumber`) and that are nested no deeper than the parser goes. Objects
come back as the maps they stand for (`normal`). -/
namespace AliceBridge.Lib.JsonText
open AliceBridge.Lib.Utf8 AliceBridge.Lib.Words AliceBridge.Lib.Json

/-- `f64` to the shortest text and back; a number out of range has no bits. -/
structure Floats where
  print : Nat → Text
  read : Text → Option Nat

/-- For values without floats, and for a reader that refuses them. -/
def noFloats : Floats := ⟨fun _ => [], fun _ => none⟩

/-! ## Strings -/

def hexDigit (n : Nat) : Char := Nat.digitChar n

def hexValue (c : Char) : Option Nat :=
  if '0' ≤ c ∧ c ≤ '9' then some (c.toNat - 48)
  else if 'a' ≤ c ∧ c ≤ 'f' then some (c.toNat - 87)
  else if 'A' ≤ c ∧ c ≤ 'F' then some (c.toNat - 55)
  else none

/-- The two character escapes of the printer: a character and its letter. -/
def escapeLetters : List (Char × Char) :=
  [('"', '"'), ('\\', '\\'), ('\x08', 'b'), ('\t', 't'), ('\n', 'n'), ('\x0c', 'f'), ('\r', 'r')]

def escapeLetter (c : Char) : Option Char := escapeLetters.lookup c

/-- `format_escaped_str` on one character. -/
def escape (c : Char) : Text :=
  match escapeLetter c with
  | some letter => ['\\', letter]
  | none =>
    if c.toNat < 32 then ['\\', 'u', '0', '0', hexDigit (c.toNat / 16), hexDigit (c.toNat % 16)]
    else [c]

def printString (s : Text) : Text := '"' :: s.flatMap escape ++ ['"']

/-- The character a letter stands for after a backslash; `u` is not among them. -/
def unescapeLetter (letter : Char) : Option Char :=
  if letter = '"' then some '"'
  else if letter = '\\' then some '\\'
  else if letter = '/' then some '/'
  else if letter = 'b' then some '\x08'
  else if letter = 'f' then some '\x0c'
  else if letter = 'n' then some '\n'
  else if letter = 'r' then some '\r'
  else if letter = 't' then some '\t'
  else none

def hexFour (a b c d : Char) : Option Nat := do
  let a ← hexValue a
  let b ← hexValue b
  let c ← hexValue c
  let d ← hexValue d
  some (((16 * a + b) * 16 + c) * 16 + d)

/-- `parse_unicode_escape` after `\u`: the character and how many characters it took. -/
def unicodeEscape : Text → Option (Char × Nat)
  | a :: b :: c :: d :: rest => do
    let n ← hexFour a b c d
    if 0xDC00 ≤ n ∧ n < 0xE000 then none
    else if 0xD800 ≤ n ∧ n < 0xDC00 then
      -- the first half of a pair: the second must follow at once
      match rest with
      | '\\' :: 'u' :: a :: b :: c :: d :: _ => do
        let m ← hexFour a b c d
        if 0xDC00 ≤ m ∧ m < 0xE000 then
          some (Char.ofNat (0x10000 + (n - 0xD800) * 0x400 + (m - 0xDC00)), 10)
        else none
      | _ => none
    else some (Char.ofNat n, 4)
  | _ => none

/-- `parse_escape` after the backslash. -/
def parseEscape : Text → Option (Char × Nat)
  | [] => none
  | letter :: rest =>
    match unescapeLetter letter with
    | some c => some (c, 1)
    | none =>
      if letter = 'u' then (unicodeEscape rest).map fun p => (p.1, p.2 + 1)
      else none

/-- A string after its opening quote and after `skip` characters that an escape
took: its characters and what follows the closing quote. -/
def stringTail : Nat → Text → Option (Text × Text)
  | _, [] => none
  | skip + 1, _ :: rest => stringTail skip rest
  | 0, c :: rest =>
    if c = '"' then some ([], rest)
    else if c = '\\' then
      match parseEscape rest with
      | some (d, taken) => (stringTail taken rest).map fun p => (d :: p.1, p.2)
      | none => none
    else if c.toNat < 32 then none
    else (stringTail 0 rest).map fun p => (c :: p.1, p.2)

theorem unescapeLetter_escapeLetter {c letter : Char} (h : escapeLetter c = some letter) :
    unescapeLetter letter = some c := by
  have hall : ∀ p ∈ escapeLetters, unescapeLetter p.2 = some p.1 := by decide
  obtain ⟨before, after, htable, _⟩ := List.lookup_eq_some_iff.mp h
  exact hall (c, letter) (htable ▸ by simp)

/-- The four digits of a control character. -/
theorem hexFour_control : ∀ n : Fin 32,
    hexFour '0' '0' (hexDigit (n.val / 16)) (hexDigit (n.val % 16)) = some n.val := by
  decide

theorem stringTail_skip (taken rest : Text) :
    stringTail taken.length (taken ++ rest) = stringTail 0 rest := by
  induction taken with
  | nil => rfl
  | cons c taken ih => exact ih

theorem stringTail_escape (c : Char) (rest : Text) :
    stringTail 0 (escape c ++ rest) = (stringTail 0 rest).map fun p => (c :: p.1, p.2) := by
  unfold escape
  split
  next letter h =>
    have hescape : parseEscape (letter :: rest) = some (c, 1) := by
      simp [parseEscape, unescapeLetter_escapeLetter h]
    simp [stringTail, hescape]
  next h =>
    split
    next hlt =>
      let digits := ['u', '0', '0', hexDigit (c.toNat / 16), hexDigit (c.toNat % 16)]
      have hescape : parseEscape (digits ++ rest) = some (c, 5) := by
        have hfour := hexFour_control ⟨c.toNat, hlt⟩
        have hu : unescapeLetter 'u' = none := by decide
        have hlow : ¬ 0xDC00 ≤ c.toNat := by omega
        have hhigh : ¬ 0xD800 ≤ c.toNat := by omega
        simp [digits, parseEscape, unicodeEscape, hu, hfour, hlow, hhigh]
      have hskip : stringTail 5 (digits ++ rest) = stringTail 0 rest := stringTail_skip digits rest
      show stringTail 0 ('\\' :: (digits ++ rest)) = _
      simp [stringTail, hescape, hskip]
    next hge =>
      have hquote : c ≠ '"' := by
        rintro rfl
        exact absurd h (by decide)
      have hslash : c ≠ '\\' := by
        rintro rfl
        exact absurd h (by decide)
      simp [stringTail, hquote, hslash, hge]

/-- A printed string is read back, whatever follows it. -/
theorem stringTail_print (s rest : Text) :
    stringTail 0 (s.flatMap escape ++ '"' :: rest) = some (s, rest) := by
  induction s with
  | nil => rfl
  | cons c s ih =>
    rw [List.flatMap_cons, List.append_assoc, stringTail_escape, ih]
    rfl

/-! ## The printer -/

/-- `,` between the texts. -/
def commas : List Text → Text
  | [] => []
  | [text] => text
  | text :: texts => text ++ ',' :: commas texts

section Printer
variable (floats : Floats)

def printNumber : Number → Text
  | .posInt n => decimal n
  | .negInt n => if n < 0 then '-' :: decimal n.natAbs else decimal n.natAbs
  | .float bits => floats.print bits

mutual
/-- `serde_json::to_string` of a value. -/
def print : Value → Text
  | .null => ['n', 'u', 'l', 'l']
  | .bool true => ['t', 'r', 'u', 'e']
  | .bool false => ['f', 'a', 'l', 's', 'e']
  | .number n => printNumber floats n
  | .string s => printString s
  | .array items => '[' :: commas (printItems items) ++ [']']
  | .object fields => '{' :: commas (printFields fields) ++ ['}']

def printItems : List Value → List Text
  | [] => []
  | item :: items => print item :: printItems items

def printFields : List (Text × Value) → List Text
  | [] => []
  | (name, value) :: fields => (printString name ++ ':' :: print value) :: printFields fields
end

end Printer

/-! ## Numbers -/

/-- One digit, or several of which the first is not zero. -/
def integerDigits (digits : Text) : Bool :=
  match digits with
  | [] => false
  | [_] => true
  | first :: _ => first ≠ '0'

/-- A point with its digits, if there is a point, and what follows. -/
def fraction : Text → Option (Text × Text)
  | '.' :: rest =>
    let digits := rest.takeWhile Char.isDigit
    if digits.isEmpty then none else some ('.' :: digits, rest.dropWhile Char.isDigit)
  | rest => some ([], rest)

def exponentSign : Text → Text × Text
  | '+' :: rest => (['+'], rest)
  | '-' :: rest => (['-'], rest)
  | rest => ([], rest)

/-- An exponent with its digits, if there is one, and what follows. -/
def exponent : Text → Option (Text × Text)
  | [] => some ([], [])
  | e :: rest =>
    if e = 'e' ∨ e = 'E' then
      let (sign, rest) := exponentSign rest
      let digits := rest.takeWhile Char.isDigit
      if digits.isEmpty then none else some (e :: (sign ++ digits), rest.dropWhile Char.isDigit)
    else some ([], e :: rest)

def u64Max : Nat := 2 ^ 64 - 1

/-- An integer without fraction and exponent, if it is one of 64 bits; `-0` is not. -/
def smallInteger (negative : Bool) (n : Nat) : Option Number :=
  if negative then
    if 0 < n ∧ n ≤ 2 ^ 63 then some (.negInt (-(n : Int))) else none
  else if n ≤ u64Max then some (.posInt n)
  else none

section Parser
variable (floats : Floats)

/-- `parse_any_number`: the number and what follows it. -/
def number (text : Text) : Option (Number × Text) := do
  let negative := text.head? = some '-'
  let unsigned := if negative then text.tail else text
  let digits := unsigned.takeWhile Char.isDigit
  if !integerDigits digits then none
  let (frac, rest) ← fraction (unsigned.dropWhile Char.isDigit)
  let (exp, rest) ← exponent rest
  let integer := if frac.isEmpty && exp.isEmpty then
    smallInteger negative (Nat.ofDigitChars 10 digits 0) else none
  match integer with
  | some n => some (n, rest)
  | none =>
    let sign := if negative then ['-'] else []
    (floats.read (sign ++ digits ++ frac ++ exp)).map fun bits => (.float bits, rest)

/-! ## The parser -/

def isBlank (c : Char) : Bool := c = ' ' || c = '\n' || c = '\t' || c = '\r'

def skipBlanks (text : Text) : Text := text.dropWhile isBlank

/-- The rest of a word whose first letter was read. -/
def keyword (letters : Text) (value : Value) (text : Text) : Option (Value × Text) :=
  if letters.isPrefixOf text then some (value, text.drop letters.length) else none

/-- `BTreeMap::insert`. -/
def insertField (name : Text) (value : Value) : List (Text × Value) → List (Text × Value)
  | [] => [(name, value)]
  | field :: fields =>
    if name = field.1 then (name, value) :: fields
    else if name < field.1 then (name, value) :: field :: fields
    else field :: insertField name value fields

/-- The map that the fields are inserted into one after the other. -/
def collectFields (fields : List (Text × Value)) : List (Text × Value) :=
  fields.foldl (fun map field => insertField field.1 field.2 map) []

mutual
/-- `deserialize_any` for a `Value`: the value and what follows it. `depth` is how
many arrays and objects may still be opened. -/
def value : Nat → Nat → Text → Option (Value × Text)
  | 0, _, _ => none
  | fuel + 1, depth, text =>
    match skipBlanks text with
    | [] => none
    | c :: rest =>
      if c = 'n' then keyword ['u', 'l', 'l'] .null rest
      else if c = 't' then keyword ['r', 'u', 'e'] (.bool true) rest
      else if c = 'f' then keyword ['a', 'l', 's', 'e'] (.bool false) rest
      else if c = '"' then (stringTail 0 rest).map fun p => (.string p.1, p.2)
      else if c = '[' then
        if depth = 0 then none
        else if (skipBlanks rest).head? = some ']' then some (.array [], (skipBlanks rest).tail)
        else (items fuel (depth - 1) rest).map fun p => (.array p.1, p.2)
      else if c = '{' then
        if depth = 0 then none
        else if (skipBlanks rest).head? = some '}' then some (.object [], (skipBlanks rest).tail)
        else (fields fuel (depth - 1) rest).map fun p => (.object (collectFields p.1), p.2)
      else (number floats (c :: rest)).map fun p => (.number p.1, p.2)

/-- The elements up to the closing bracket, of which there is at least one. -/
def items : Nat → Nat → Text → Option (List Value × Text)
  | 0, _, _ => none
  | fuel + 1, depth, text =>
    match value fuel depth text with
    | none => none
    | some (item, rest) =>
      match skipBlanks rest with
      | [] => none
      | c :: rest =>
        if c = ']' then some ([item], rest)
        else if c = ',' then (items fuel depth rest).map fun p => (item :: p.1, p.2)
        else none

/-- The fields up to the closing brace, of which there is at least one. -/
def fields : Nat → Nat → Text → Option (List (Text × Value) × Text)
  | 0, _, _ => none
  | fuel + 1, depth, text =>
    match skipBlanks text with
    | [] => none
    | quote :: rest =>
      if quote = '"' then
        match stringTail 0 rest with
        | none => none
        | some (name, rest) =>
          match skipBlanks rest with
          | [] => none
          | colon :: rest =>
            if colon = ':' then
              match value fuel depth rest with
              | none => none
              | some (v, rest) =>
                match skipBlanks rest with
                | [] => none
                | c :: rest =>
                  if c = '}' then some ([(name, v)], rest)
                  else if c = ',' then (fields fuel depth rest).map fun p => ((name, v) :: p.1, p.2)
                  else none
            else none
      else none
end

/-- Arrays and objects may be nested this deep: `remaining_depth` starts at 128
and may not reach zero. -/
def maxNesting : Nat := 127

/-- `serde_json::from_str::<Value>`; every call takes a character or is followed by
one that does, so that the fuel is enough. -/
def parse (text : Text) : Option Value :=
  match value floats (2 * text.length + 1) maxNesting text with
  | some (v, rest) => if (skipBlanks rest).isEmpty then some v else none
  | none => none

end Parser

/-! ## Round trip -/

/-- Nothing of a number may follow it. -/
def NumberEnd (rest : Text) : Prop :=
  ∀ c ∈ rest.head?, c.isDigit = false ∧ c ≠ '.' ∧ c ≠ 'e' ∧ c ≠ 'E'

theorem NumberEnd.nil : NumberEnd [] := by
  intro c h
  cases h

theorem NumberEnd.cons {c : Char} (h : c = ',' ∨ c = ']' ∨ c = '}') (rest : Text) :
    NumberEnd (c :: rest) := by
  intro d hd
  obtain rfl := Option.some.inj hd
  rcases h with rfl | rfl | rfl <;> decide

theorem NumberEnd.takeWhile {digits rest : Text} (h : ∀ c ∈ digits, c.isDigit = true)
    (hrest : NumberEnd rest) :
    (digits ++ rest).takeWhile Char.isDigit = digits ∧
      (digits ++ rest).dropWhile Char.isDigit = rest := by
  have hstop : rest.takeWhile Char.isDigit = [] ∧ rest.dropWhile Char.isDigit = rest := by
    cases rest with
    | nil => exact ⟨rfl, rfl⟩
    | cons c rest => simp [(hrest c rfl).1]
  rw [List.takeWhile_append_of_pos h, List.dropWhile_append_of_pos h, hstop.1, hstop.2,
    List.append_nil]
  exact ⟨rfl, rfl⟩

theorem decimal_digits (n : Nat) : ∀ c ∈ decimal n, c.isDigit = true := by
  intro c hc
  exact Nat.isDigit_of_mem_toDigits (by decide) (by decide) hc

/-- A number in decimal does not begin with a zero unless it is zero. -/
theorem decimal_head {n : Nat} (h : 0 < n) : (decimal n).head? ≠ some '0' := by
  induction n using Nat.strongRecOn with
  | _ n ih =>
    unfold decimal at ih ⊢
    by_cases hlt : n < 10
    · rw [Nat.toDigits_of_lt_base hlt]
      have hdigit : ∀ d : Fin 10, 0 < d.val → Nat.digitChar d.val ≠ '0' := by decide
      simpa using hdigit ⟨n, hlt⟩ h
    · have hne : Nat.toDigits 10 (n / 10) ≠ [] := Nat.toDigits_ne_nil
      rw [Nat.toDigits_of_base_le (by decide) (by omega), List.head?_append_of_ne_nil _ hne]
      exact ih (n / 10) (by omega) (by omega)

theorem integerDigits_decimal (n : Nat) : integerDigits (decimal n) = true := by
  have hne : decimal n ≠ [] := Nat.toDigits_ne_nil
  by_cases hn : n = 0
  · subst hn
    decide
  · have hhead := decimal_head (Nat.pos_of_ne_zero hn)
    unfold integerDigits
    split
    next h => exact absurd h hne
    · rfl
    next h => simpa [h] using hhead

/-- The numbers a `serde_json::Number` can hold, but no float. -/
def CanonicalNumber : Number → Prop
  | .posInt n => n ≤ u64Max
  | .negInt n => n < 0 ∧ -((2 ^ 63 : Nat) : Int) ≤ n
  | .float _ => False

theorem decimal_head_digit {n : Nat} {c : Char} {rest : Text} (h : decimal n = c :: rest) :
    c.isDigit = true :=
  decimal_digits n c (h ▸ List.mem_cons_self)

theorem number_decimal {floats : Floats} {negative : Bool} {n : Nat} {result : Number} {rest : Text}
    (hresult : smallInteger negative n = some result) (hrest : NumberEnd rest) :
    number floats ((if negative then ['-'] else []) ++ decimal n ++ rest) =
      some (result, rest) := by
  have hhead : ((if negative then ['-'] else []) ++ decimal n ++ rest).head? = some '-' ↔
      negative = true := by
    cases negative with
    | true => simp
    | false =>
      obtain ⟨c, digits, hdigits⟩ := List.exists_cons_of_ne_nil
        (show decimal n ≠ [] from Nat.toDigits_ne_nil)
      have hc := decimal_head_digit hdigits
      simp only [hdigits]
      constructor
      · intro h
        obtain rfl := Option.some.inj h
        exact absurd hc (by decide)
      · intro h
        cases h
  have hunsigned : (if negative then
      ((if negative then ['-'] else []) ++ decimal n ++ rest).tail
      else (if negative then ['-'] else []) ++ decimal n ++ rest) = decimal n ++ rest := by
    cases negative <;> rfl
  obtain ⟨htake, hdrop⟩ := hrest.takeWhile (decimal_digits n)
  have hfraction : fraction rest = some ([], rest) := by
    unfold fraction
    split
    next rest => exact absurd rfl (hrest '.' rfl).2.1
    · rfl
  have hexponent : exponent rest = some ([], rest) := by
    cases rest with
    | nil => rfl
    | cons c rest =>
      obtain ⟨_, _, he, hE⟩ := hrest c rfl
      simp [exponent, he, hE]
  have hvalue : Nat.ofDigitChars 10 (decimal n) 0 = n := Nat.ofDigitChars_ten_toDigits
  unfold number
  simp only [hhead, Bool.decide_eq_true, hunsigned, htake, hdrop,
    integerDigits_decimal]
  simp [hfraction, hexponent, hvalue, hresult]

mutual
/-- Every number of the value is one of these. -/
def Numbers (P : Number → Prop) : Value → Prop
  | .number n => P n
  | .array items => NumbersItems P items
  | .object fields => NumbersFields P fields
  | _ => True

def NumbersItems (P : Number → Prop) : List Value → Prop
  | [] => True
  | item :: items => Numbers P item ∧ NumbersItems P items

def NumbersFields (P : Number → Prop) : List (Text × Value) → Prop
  | [] => True
  | (_, value) :: fields => Numbers P value ∧ NumbersFields P fields
end

mutual
/-- The value with its objects as the maps they are. -/
def normal : Value → Value
  | .array items => .array (normalItems items)
  | .object fields => .object (collectFields (normalFields fields))
  | value => value

def normalItems : List Value → List Value
  | [] => []
  | item :: items => normal item :: normalItems items

def normalFields : List (Text × Value) → List (Text × Value)
  | [] => []
  | (name, value) :: fields => (name, normal value) :: normalFields fields
end

mutual
/-- How many arrays and objects are open at the deepest place. -/
def nesting : Value → Nat
  | .array items => nestingItems items + 1
  | .object fields => nestingFields fields + 1
  | _ => 0

def nestingItems : List Value → Nat
  | [] => 0
  | item :: items => max (nesting item) (nestingItems items)

def nestingFields : List (Text × Value) → Nat
  | [] => 0
  | (_, value) :: fields => max (nesting value) (nestingFields fields)
end

section RoundTrip
variable {floats : Floats}

/-- A printed value begins with its own character, neither blank nor closing. -/
theorem print_head {v : Value} (h : Numbers CanonicalNumber v) :
    ∃ c rest, print floats v = c :: rest ∧ isBlank c = false ∧ c ≠ ']' ∧ c ≠ '}' := by
  have hdecimal (n : Nat) : ∃ c rest, decimal n = c :: rest ∧ isBlank c = false ∧ c ≠ ']' ∧
      c ≠ '}' := by
    obtain ⟨c, rest, hdigits⟩ := List.exists_cons_of_ne_nil
      (show decimal n ≠ [] from Nat.toDigits_ne_nil)
    have hc := decimal_head_digit hdigits
    refine ⟨c, rest, hdigits, ?_, ?_, ?_⟩
    · rw [Bool.eq_false_iff]
      intro hblank
      simp only [isBlank, Bool.or_eq_true, decide_eq_true_eq] at hblank
      rcases hblank with ((rfl | rfl) | rfl) | rfl <;> exact absurd hc (by decide)
    · rintro rfl
      exact absurd hc (by decide)
    · rintro rfl
      exact absurd hc (by decide)
  cases v with
  | null => exact ⟨'n', _, rfl, by decide⟩
  | bool b => cases b <;> exact ⟨_, _, rfl, by decide⟩
  | string s => exact ⟨'"', _, rfl, by decide⟩
  | array items => exact ⟨'[', _, by rw [print]; rfl, by decide⟩
  | object fields => exact ⟨'{', _, by rw [print]; rfl, by decide⟩
  | number n =>
    cases n with
    | posInt n => exact hdecimal n
    | negInt n =>
      have hneg : n < 0 := h.1
      exact ⟨'-', _, by rw [print, printNumber, if_pos hneg], by decide⟩
    | float bits => exact h.elim

theorem skipBlanks_cons {c : Char} (h : isBlank c = false) (rest : Text) :
    skipBlanks (c :: rest) = c :: rest := by
  simp [skipBlanks, h]

/-- The text of a number is no word, string, array or object. -/
theorem value_number {fuel depth : Nat} {n : Number} (h : CanonicalNumber n) {rest : Text}
    (hrest : NumberEnd rest) :
    value floats (fuel + 1) depth (printNumber floats n ++ rest) = some (.number n, rest) := by
  have hfirst : ∀ c tail, printNumber floats n ++ rest = c :: tail →
      (c.isDigit = true ∨ c = '-') := by
    intro c tail heq
    cases n with
    | posInt n =>
      obtain ⟨d, digits, hdigits⟩ := List.exists_cons_of_ne_nil
        (show decimal n ≠ [] from Nat.toDigits_ne_nil)
      rw [printNumber, hdigits] at heq
      obtain ⟨rfl, _⟩ := List.cons.inj heq
      exact .inl (decimal_head_digit hdigits)
    | negInt n =>
      rw [printNumber, if_pos h.1] at heq
      exact .inr (List.cons.inj heq).1.symm
    | float bits => exact h.elim
  have hnumber : number floats (printNumber floats n ++ rest) = some (n, rest) := by
    cases n with
    | posInt n =>
      have hsmall : smallInteger false n = some (.posInt n) := by
        have hn : n ≤ u64Max := h
        simp [smallInteger, hn]
      exact number_decimal hsmall hrest
    | negInt n =>
      have hsmall : smallInteger true n.natAbs = some (.negInt n) := by
        obtain ⟨hneg, hge⟩ := h
        have hpos : 0 < n.natAbs := by omega
        have hle : n.natAbs ≤ 2 ^ 63 := by omega
        have habs : -(n.natAbs : Int) = n := by omega
        rw [smallInteger, if_pos rfl, if_pos ⟨hpos, hle⟩, habs]
      rw [printNumber, if_pos h.1]
      exact number_decimal hsmall hrest
    | float bits => exact h.elim
  cases htext : printNumber floats n ++ rest with
  | nil =>
    rw [htext] at hnumber
    cases hnumber
  | cons c tail =>
    have hc := hfirst c tail htext
    have hne : ∀ d : Char, d.isDigit = false → d ≠ '-' → c ≠ d := by
      rintro d hd hminus rfl
      rcases hc with hc | hc
      · rw [hd] at hc
        cases hc
      · exact hminus hc
    have hblank : isBlank c = false := by
      simp only [isBlank, Bool.or_eq_false_iff, decide_eq_false_iff_not]
      exact ⟨⟨⟨hne ' ' rfl (by decide), hne '\n' rfl (by decide)⟩, hne '\t' rfl (by decide)⟩,
        hne '\r' rfl (by decide)⟩
    rw [value, skipBlanks_cons hblank]
    simp only [hne 'n' rfl (by decide), hne 't' rfl (by decide), hne 'f' rfl (by decide),
      hne '"' rfl (by decide), hne '[' rfl (by decide), hne '{' rfl (by decide), if_false]
    rw [← htext, hnumber]
    rfl

theorem commas_cons {text : Text} {texts : List Text} (h : texts ≠ []) :
    commas (text :: texts) = text ++ ',' :: commas texts := by
  cases texts with
  | nil => exact absurd rfl h
  | cons other texts => rfl

/-- An array with elements is what its elements are, one level up. -/
theorem value_array {fuel depth : Nat} {body : Text} {c : Char} {tail : Text}
    (hbody : body = c :: tail) (hblank : isBlank c = false) (hclose : c ≠ ']') :
    value floats (fuel + 1) (depth + 1) ('[' :: body) =
      (items floats fuel depth body).map fun p => (.array p.1, p.2) := by
  subst hbody
  simp [value, skipBlanks_cons (show isBlank '[' = false from rfl), skipBlanks_cons hblank, hclose]

theorem value_object {fuel depth : Nat} {body : Text} {c : Char} {tail : Text}
    (hbody : body = c :: tail) (hblank : isBlank c = false) (hclose : c ≠ '}') :
    value floats (fuel + 1) (depth + 1) ('{' :: body) =
      (fields floats fuel depth body).map fun p => (.object (collectFields p.1), p.2) := by
  subst hbody
  simp [value, skipBlanks_cons (show isBlank '{' = false from rfl), skipBlanks_cons hblank, hclose]

/-- Nothing is opened at depth zero. -/
theorem value_zero {fuel : Nat} {body : Text} {c : Char} (h : c = '[' ∨ c = '{') :
    value floats (fuel + 1) 0 (c :: body) = none := by
  rcases h with rfl | rfl
  · simp [value, skipBlanks_cons (show isBlank '[' = false from rfl)]
  · simp [value, skipBlanks_cons (show isBlank '{' = false from rfl)]

mutual
/-- A printed value is read back, with its objects as maps, when it is nested no deeper than
the parser goes, and only then. The fuel counts two for each character. -/
theorem value_print (fuel depth : Nat) (v : Value) (rest : Text) (h : Numbers CanonicalNumber v)
    (hrest : NumberEnd rest) (hfuel : 2 * (print floats v).length ≤ fuel) :
    value floats fuel depth (print floats v ++ rest) =
      if nesting v ≤ depth then some (normal v, rest) else none := by
  obtain ⟨fuel, rfl⟩ : ∃ n, fuel = n + 1 := by
    obtain ⟨c, tail, hprint, _⟩ := @print_head floats v h
    rw [hprint, List.length_cons] at hfuel
    exact ⟨fuel - 1, by omega⟩
  match v, h with
  | .null, _ => simp [print, value, skipBlanks, isBlank, keyword, nesting, normal]
  | .bool true, _ => simp [print, value, skipBlanks, isBlank, keyword, nesting, normal]
  | .bool false, _ => simp [print, value, skipBlanks, isBlank, keyword, nesting, normal]
  | .number n, h =>
    have hnumber : CanonicalNumber n := h
    have hzero : nesting (.number n) ≤ depth := Nat.zero_le depth
    rw [if_pos hzero, print, value_number hnumber hrest, normal]
    all_goals simp
  | .string s, _ =>
    rw [print, printString, value]
    simp [skipBlanks, isBlank, stringTail_print, nesting, normal]
  | .array [], _ =>
    cases depth with
    | zero => exact (value_zero (.inl rfl)).trans (by simp [nesting])
    | succ depth => simp [print, printItems, commas, value, skipBlanks, isBlank, nesting,
        nestingItems, normal, normalItems]
  | .object [], _ =>
    cases depth with
    | zero => exact (value_zero (.inr rfl)).trans (by simp [nesting])
    | succ depth => simp [print, printFields, commas, value, skipBlanks, isBlank, nesting,
        nestingFields, normal, normalFields, collectFields]
  | .array (item :: list), h =>
    have hitems : NumbersItems CanonicalNumber (item :: list) := h
    rw [print, List.cons_append, List.cons_append, List.append_assoc, List.singleton_append]
    cases depth with
    | zero => rw [value_zero (.inl rfl), if_neg (by simp [nesting])]
    | succ depth =>
      obtain ⟨c, tail, hhead, hblank, hclose, _⟩ := @print_head floats item hitems.1
      have hbody : ∃ tail,
          commas (printItems floats (item :: list)) ++ ']' :: rest = c :: tail := by
        rw [printItems, hhead]
        cases printItems floats list <;> exact ⟨_, rfl⟩
      obtain ⟨tail', hbody⟩ := hbody
      have hlen : 2 * (commas (printItems floats (item :: list))).length + 1 ≤ fuel := by
        simp only [print, List.length_cons, List.length_append] at hfuel
        omega
      rw [value_array hbody hblank hclose, items_print fuel depth item list rest hitems hlen]
      by_cases hdeep : nestingItems (item :: list) ≤ depth
      · simp [hdeep, nesting, normal]
      · simp [hdeep, nesting]
  | .object ((name, v) :: list), h =>
    have hfields : NumbersFields CanonicalNumber ((name, v) :: list) := h
    rw [print, List.cons_append, List.cons_append, List.append_assoc, List.singleton_append]
    cases depth with
    | zero => rw [value_zero (.inr rfl), if_neg (by simp [nesting])]
    | succ depth =>
      have hbody : ∃ tail, commas (printFields floats ((name, v) :: list)) ++ '}' :: rest =
          '"' :: tail := by
        rw [printFields, printString]
        cases printFields floats list <;> exact ⟨_, rfl⟩
      obtain ⟨tail', hbody⟩ := hbody
      have hlen : 2 * (commas (printFields floats ((name, v) :: list))).length + 1 ≤ fuel := by
        simp only [print, List.length_cons, List.length_append] at hfuel
        omega
      rw [value_object hbody (by decide) (by decide),
        fields_print fuel depth name v list rest hfields hlen]
      by_cases hdeep : nestingFields ((name, v) :: list) ≤ depth
      · simp [hdeep, nesting, normal]
      · simp [hdeep, nesting]

theorem items_print (fuel depth : Nat) (item : Value) (list : List Value) (rest : Text)
    (h : NumbersItems CanonicalNumber (item :: list))
    (hfuel : 2 * (commas (printItems floats (item :: list))).length + 1 ≤ fuel) :
    items floats fuel depth (commas (printItems floats (item :: list)) ++ ']' :: rest) =
      if nestingItems (item :: list) ≤ depth then some (normalItems (item :: list), rest)
      else none := by
  obtain ⟨fuel, rfl⟩ : ∃ n, fuel = n + 1 := ⟨fuel - 1, by omega⟩
  match list, h with
  | [], h =>
    have hvalue := value_print fuel depth item (']' :: rest) h.1 (.cons (.inr (.inl rfl)) _)
      (by simpa [printItems, commas] using hfuel)
    simp only [printItems, commas, items, hvalue, nestingItems, Nat.max_zero]
    by_cases hdeep : nesting item ≤ depth
    · simp [hdeep, normalItems, skipBlanks_cons (show isBlank ']' = false from rfl)]
    · simp [hdeep]
  | next :: list, h =>
    have htexts : printItems floats (next :: list) ≠ [] := by simp [printItems]
    have hsplit : commas (printItems floats (item :: next :: list)) =
        print floats item ++ ',' :: commas (printItems floats (next :: list)) := by
      rw [printItems, commas_cons htexts]
    rw [hsplit, List.length_append, List.length_cons] at hfuel
    have hvalue := value_print fuel depth item
      (',' :: (commas (printItems floats (next :: list)) ++ ']' :: rest)) h.1 (.cons (.inl rfl) _)
      (by omega)
    have hitems := items_print fuel depth next list rest h.2 (by omega)
    rw [hsplit, List.append_assoc, List.cons_append, items, hvalue, nestingItems]
    by_cases hdeep : nesting item ≤ depth
    · simp only [hdeep, if_true, skipBlanks_cons (show isBlank ',' = false from rfl), hitems,
        sup_le_iff, true_and]
      by_cases hmore : nestingItems (next :: list) ≤ depth
      · simp [hmore, normalItems]
      · simp [hmore]
    · simp [hdeep]

theorem fields_print (fuel depth : Nat) (name : Text) (v : Value) (list : List (Text × Value))
    (rest : Text) (h : NumbersFields CanonicalNumber ((name, v) :: list))
    (hfuel : 2 * (commas (printFields floats ((name, v) :: list))).length + 1 ≤ fuel) :
    fields floats fuel depth (commas (printFields floats ((name, v) :: list)) ++ '}' :: rest) =
      if nestingFields ((name, v) :: list) ≤ depth then
        some (normalFields ((name, v) :: list), rest)
      else none := by
  obtain ⟨fuel, rfl⟩ : ∃ n, fuel = n + 1 := ⟨fuel - 1, by omega⟩
  -- the name, then the value up to the character that follows it
  have hname (after : Text) (c : Char) (hlen : 2 * (print floats v).length ≤ fuel)
      (hc : c = ',' ∨ c = '}') :
      fields floats (fuel + 1) depth ((printString name ++ ':' :: print floats v) ++ c :: after) =
        if nesting v ≤ depth then
          if c = '}' then some ([(name, normal v)], after)
          else (fields floats fuel depth after).map fun p => ((name, normal v) :: p.1, p.2)
        else none := by
    have hstring : stringTail 0
        (name.flatMap escape ++ '"' :: ':' :: (print floats v ++ c :: after)) =
          some (name, ':' :: (print floats v ++ c :: after)) := stringTail_print _ _
    have hvalue := value_print fuel depth v (c :: after) h.1
      (.cons (hc.imp_right .inr) _) hlen
    have hblank : isBlank c = false := by
      rcases hc with rfl | rfl <;> rfl
    simp only [printString, List.cons_append, List.append_assoc, List.nil_append, fields,
      skipBlanks_cons (show isBlank '"' = false from rfl), if_true, hstring,
      skipBlanks_cons (show isBlank ':' = false from rfl), hvalue]
    by_cases hdeep : nesting v ≤ depth
    · rcases hc with rfl | rfl <;> simp [hdeep, skipBlanks_cons hblank]
    · simp [hdeep]
  match list, h with
  | [], h =>
    have hlen : 2 * (print floats v).length ≤ fuel := by
      simp only [printFields, commas, List.length_append, List.length_cons] at hfuel
      omega
    simp only [printFields, commas]
    rw [hname rest '}' hlen (.inr rfl)]
    simp [nestingFields, normalFields]
  | (other, w) :: list, h =>
    have htexts : printFields floats ((other, w) :: list) ≠ [] := by simp [printFields]
    have hsplit : commas (printFields floats ((name, v) :: (other, w) :: list)) =
        (printString name ++ ':' :: print floats v) ++
          ',' :: commas (printFields floats ((other, w) :: list)) := by
      rw [printFields, commas_cons htexts]
    rw [hsplit] at hfuel
    simp only [List.length_append, List.length_cons] at hfuel
    have hfields := fields_print fuel depth other w list rest h.2 (by omega)
    have hnesting : nestingFields ((name, v) :: (other, w) :: list) =
        max (nesting v) (nestingFields ((other, w) :: list)) := rfl
    rw [hsplit, List.append_assoc, List.cons_append, hname _ ',' (by omega) (.inl rfl), hfields,
      hnesting]
    by_cases hdeep : nesting v ≤ depth
    · by_cases hmore : nestingFields ((other, w) :: list) ≤ depth
      · simp [hdeep, hmore, normalFields]
      · simp [hdeep, hmore]
    · simp [hdeep]
end

/-- What is printed is parsed as the maps it stands for, unless it is nested too deeply.
Blanks after it are left out. -/
theorem parse_print {v : Value} (h : Numbers CanonicalNumber v) {blanks : Text}
    (hblanks : ∀ c ∈ blanks, isBlank c = true) :
    parse floats (print floats v ++ blanks) =
      if nesting v ≤ maxNesting then some (normal v) else none := by
  have hend : NumberEnd blanks := by
    intro c hc
    have hblank := hblanks c (List.mem_of_mem_head? hc)
    simp only [isBlank, Bool.or_eq_true, decide_eq_true_eq] at hblank
    rcases hblank with ((rfl | rfl) | rfl) | rfl <;> decide
  have hskip : skipBlanks blanks = [] := by
    rw [skipBlanks, List.dropWhile_eq_nil_iff]
    exact hblanks
  have hvalue := @value_print floats (2 * (print floats v ++ blanks).length + 1) maxNesting v
    blanks h hend (by rw [List.length_append]; omega)
  rw [parse, hvalue]
  by_cases hdeep : nesting v ≤ maxNesting
  · simp [hdeep, hskip]
  · simp [hdeep]

end RoundTrip

end AliceBridge.Lib.JsonText
