import AliceBridge.Lib.Utf8

/-! # UTF-8 bytes of a `str`

`as_bytes` and `String::from_utf8` over the encoder and the validating decoder of
Lean's own strings. -/
namespace AliceBridge.Lib.Bytes
open AliceBridge.Lib.Utf8

abbrev Bytes := List UInt8

/-- `str::as_bytes`. -/
def encode (text : Text) : Bytes := text.flatMap String.utf8EncodeChar

/-- `String::from_utf8`: no result on bytes that are not UTF-8. -/
def decode (bytes : Bytes) : Option Text := bytes.toByteArray.utf8Decode?.map Array.toList

@[simp] theorem encode_nil : encode [] = [] := rfl
@[simp] theorem encode_cons (c : Char) (text : Text) :
    encode (c :: text) = String.utf8EncodeChar c ++ encode text := rfl
@[simp] theorem encode_append (a b : Text) : encode (a ++ b) = encode a ++ encode b :=
  List.flatMap_append

/-- The bytes of a text are decoded to it. -/
theorem decode_encode (text : Text) : decode (encode text) = some text := by
  have h : (encode text).toByteArray = text.utf8Encode := rfl
  simp [decode, h]

theorem encode_injective : Function.Injective encode := fun a b h =>
  Option.some.inj (by rw [← decode_encode a, h, decode_encode b])

theorem or_high {high b : UInt8} (h : 128 ≤ high) (x : UInt8) (hb : b < 128) : b ≠ x ||| high := by
  rintro rfl
  rw [UInt8.lt_iff_toNat_lt, UInt8.toNat_or] at hb
  have hle : high.toNat ≤ x.toNat ||| high.toNat := Nat.right_le_or
  have h128 : (128 : UInt8).toNat ≤ high.toNat := UInt8.le_iff_toNat_le.mp h
  omega

/-- A byte below 128 belongs to a character of its own. -/
theorem mem_utf8EncodeChar {c : Char} {b : UInt8} (hb : b < 128)
    (h : b ∈ String.utf8EncodeChar c) : String.utf8EncodeChar c = [b] := by
  rcases Char.utf8Size_eq c with hs | hs | hs | hs
  · rw [String.utf8EncodeChar_eq_singleton hs] at h ⊢
    rw [List.mem_singleton.mp h]
  · rw [String.utf8EncodeChar_eq_cons_cons hs] at h
    simp [or_high (show (128 : UInt8) ≤ 0xc0 by decide) _ hb,
      or_high (show (128 : UInt8) ≤ 0x80 by decide) _ hb] at h
  · rw [String.utf8EncodeChar_eq_cons_cons_cons hs] at h
    simp [or_high (show (128 : UInt8) ≤ 0xe0 by decide) _ hb,
      or_high (show (128 : UInt8) ≤ 0x80 by decide) _ hb] at h
  · rw [String.utf8EncodeChar_eq_cons_cons_cons_cons hs] at h
    simp [or_high (show (128 : UInt8) ≤ 0xf0 by decide) _ hb,
      or_high (show (128 : UInt8) ≤ 0x80 by decide) _ hb] at h

/-- An ASCII byte occurs among the bytes of a text where its character does. -/
theorem mem_encode_ascii {c : Char} {b : UInt8} {text : Text} (hb : b < 128)
    (hc : String.utf8EncodeChar c = [b]) : b ∈ encode text ↔ c ∈ text := by
  constructor
  · intro h
    obtain ⟨d, hd, hmem⟩ := List.mem_flatMap.mp h
    have hone : encode [d] = encode [c] := by
      simp [hc, mem_utf8EncodeChar hb hmem]
    obtain rfl := List.singleton_inj.mp (encode_injective hone)
    exact hd
  · intro h
    exact List.mem_flatMap.mpr ⟨c, h, hc ▸ List.mem_singleton_self b⟩

/-! ## Lines -/

def newline : UInt8 := 10

/-- The bytes up to the first newline, with it, and what follows. -/
def takeLine : Bytes → Bytes × Bytes
  | [] => ([], [])
  | b :: rest => if b = newline then ([b], rest) else (b :: (takeLine rest).1, (takeLine rest).2)

/-- All lines; the last one may have no newline. -/
def lines : Bytes → List Bytes
  | [] => []
  | b :: rest =>
    if b = newline then [b] :: lines rest
    else
      match lines rest with
      | [] => [[b]]
      | line :: more => (b :: line) :: more

/-- The first line and the lines of what follows it. -/
theorem lines_takeLine {bytes : Bytes} (h : bytes ≠ []) :
    lines bytes = (takeLine bytes).1 :: lines (takeLine bytes).2 := by
  induction bytes with
  | nil => exact absurd rfl h
  | cons b rest ih =>
    by_cases hb : b = newline
    · simp [lines, takeLine, hb]
    · cases rest with
      | nil => simp [lines, takeLine, hb]
      | cons c rest =>
        rw [lines, if_neg hb, takeLine, if_neg hb, ih (List.cons_ne_nil _ _)]

/-- A line without a newline is the last one. -/
theorem takeLine_last {bytes : Bytes} (h : newline ∉ (takeLine bytes).1) :
    takeLine bytes = (bytes, []) := by
  induction bytes with
  | nil => rfl
  | cons b rest ih =>
    by_cases hb : b = newline
    · simp [takeLine, hb] at h
    · rw [takeLine, if_neg hb] at h ⊢
      rw [ih (fun hmem => h (List.mem_cons_of_mem _ hmem))]

theorem takeLine_line {line rest : Bytes} (h : newline ∉ line) :
    takeLine (line ++ newline :: rest) = (line ++ [newline], rest) := by
  induction line with
  | nil => simp [takeLine]
  | cons b line ih =>
    obtain ⟨hb, hline⟩ := not_or.mp (List.mem_cons.not.mp h)
    rw [List.cons_append, takeLine, if_neg (Ne.symm hb), ih hline]
    rfl

/-- Texts without newlines, each on a line, are the first lines. -/
theorem lines_flatMap {texts : List Bytes} (h : ∀ text ∈ texts, newline ∉ text) (rest : Bytes) :
    lines (texts.flatMap (fun text => text ++ [newline]) ++ rest) =
      texts.map (fun text => text ++ [newline]) ++ lines rest := by
  induction texts with
  | nil => rfl
  | cons text texts ih =>
    obtain ⟨htext, htexts⟩ := List.forall_mem_cons.mp h
    have hsplit : (text :: texts).flatMap (fun text => text ++ [newline]) ++ rest =
        text ++ newline :: (texts.flatMap (fun text => text ++ [newline]) ++ rest) := by simp
    rw [hsplit, lines_takeLine (by simp), takeLine_line htext, ih htexts]
    rfl

end AliceBridge.Lib.Bytes
