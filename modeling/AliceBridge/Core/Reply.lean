import AliceBridge.Lib.Utf8

/-! # Splitting a long answer into spoken parts

The splitter of `reply.rs`. `splitIntoChunks` follows the loop with its byte
offsets: a slice off a character boundary, or running out of fuel, has no
result. `Chunks` is the same greedy partition as a relation, and for a positive
limit the loop computes it, so the shaper's `split` is a total function. -/
namespace AliceBridge.Core.Reply
open AliceBridge.Lib.Utf8

/-- `CONTINUATION_SUFFIX`: a space and `Продолжать?`. -/
def continuationSuffix : Text :=
  [' ', 'П', 'р', 'о', 'д', 'о', 'л', 'ж', 'а', 'т', 'ь', '?']

structure ShapedReply where
  spoken : Text
  remaining : List Text
deriving DecidableEq, Repr

/-- `goOn` is the source's `Continue`. -/
inductive ContinuationDecision where
  | goOn
  | stop
  | empty
deriving DecidableEq, Repr

/-- The six refusals of `from_utterance`. -/
def refusals : List Text :=
  [['н', 'е', 'т'],
   ['н', 'е', ' ', 'н', 'а', 'д', 'о'],
   ['н', 'е', ' ', 'п', 'р', 'о', 'д', 'о', 'л', 'ж', 'а', 'й'],
   ['х', 'в', 'а', 'т', 'и', 'т'],
   ['с', 'т', 'о', 'п'],
   ['о', 'т', 'м', 'е', 'н', 'а']]

def trailing (c : Char) : Bool := isWhitespace c || ['.', '!', '?', ',', ';', ':', '…'].contains c

def ContinuationDecision.fromUtterance (text : Text) : ContinuationDecision :=
  let normalized := toLowercase (trimEndMatches trailing (trim text))
  if normalized.isEmpty then .empty
  else if refusals.contains normalized then .stop
  else .goOn

example : ContinuationDecision.fromUtterance ['Н', 'е', ' ', 'н', 'а', 'д', 'о', '!'] = .stop := by
  decide

/-! ## The cut -/

def preferredSplit (pfx : Text) : Option Nat :=
  let sentence := match rfindChar (fun p => ['.', '!', '?', '…'].contains p.2) pfx with
    | some (index, character) => some (index + character.utf8Size)
    | none => (rfindChar (fun p => decide (p.1 > 0) && isWhitespace p.2) pfx).map Prod.fst
  match rfind ['\n', '\n'] pfx with
  | some index => if index + 2 > 0 then some (index + 2) else sentence
  | none => sentence

/-- Whatever rule applies, the cut is a boundary and not at the start. -/
theorem preferredSplit_spec {pfx : Text} {i : Nat} (h : preferredSplit pfx = some i) :
    ∃ a b, pfx = a ++ b ∧ a ≠ [] ∧ byteLen a = i := by
  have newline : byteLen ['\n', '\n'] = 2 := by decide
  unfold preferredSplit at h
  cases hr : rfind ['\n', '\n'] pfx with
  | some index =>
    obtain ⟨a, b, hp, ha⟩ := rfind_spec hr
    simp only [hr, gt_iff_lt, Nat.zero_lt_succ, if_true, Option.some.injEq] at h
    exact ⟨a ++ ['\n', '\n'], b, hp, by simp, by rw [byteLen_append, newline, ha, h]⟩
  | none =>
    simp only [hr] at h
    cases hs : rfindChar (fun p => ['.', '!', '?', '…'].contains p.2) pfx with
    | some q =>
      obtain ⟨index, c⟩ := q
      obtain ⟨_, a, b, hp, ha⟩ := rfindChar_spec hs
      simp only [hs, Option.some.injEq] at h
      refine ⟨a ++ [c], b, by simp [hp], by simp, ?_⟩
      rw [byteLen_append, ha, ← h, byteLen_cons, byteLen_nil, Nat.add_zero]
    | none =>
      simp only [hs] at h
      obtain ⟨⟨index, c⟩, hw, rfl⟩ := Option.map_eq_some_iff.mp h
      obtain ⟨hpos, a, b, hp, ha⟩ := rfindChar_spec hw
      simp only [Bool.and_eq_true, decide_eq_true_eq] at hpos
      refine ⟨a, c :: b, hp, ?_, ha⟩
      rintro rfl
      simp only [byteLen_nil] at ha
      omega

/-- One round of the loop of `split_into_chunks`: the chunk and the text left. -/
def nextCut (limit : Nat) (text : Text) : Option (Text × Text) := do
  let exactEnd := ((charIndices text)[limit]?.map Prod.fst).getD (byteLen text)
  let pfx ← sliceTo text exactEnd
  let splitAt := (preferredSplit pfx).getD exactEnd
  let chunk ← sliceTo text splitAt
  let rest ← sliceFrom text splitAt
  return (chunk, rest)

/-- A round on a text over the limit never slices inside a character, makes
progress and keeps to the limit. -/
theorem nextCut_spec {limit : Nat} {text : Text} (hpos : 0 < limit) (hlong : limit < text.length) :
    ∃ chunk rest, nextCut limit text = some (chunk, rest) ∧ text = chunk ++ rest ∧
      chunk ≠ [] ∧ chunk.length ≤ limit := by
  obtain ⟨a, b, htext, hlen⟩ : ∃ a b, text = a ++ b ∧ a.length = limit :=
    ⟨text.take limit, text.drop limit, (List.take_append_drop ..).symm,
      by rw [List.length_take]; omega⟩
  have hend : ((charIndices text)[limit]?.map Prod.fst).getD (byteLen text) = byteLen a := by
    rw [charIndices_getElem?, List.getElem?_eq_getElem hlong]
    simp [htext, ← hlen]
  have hne : a ≠ [] := by
    rintro rfl
    simp at hlen
    omega
  have hpfx : sliceTo text (byteLen a) = some a := by rw [htext, sliceTo_byteLen]
  cases hs : preferredSplit a with
  | none =>
    refine ⟨a, b, ?_, htext, hne, by omega⟩
    have hrest : sliceFrom text (byteLen a) = some b := by rw [htext, sliceFrom_byteLen]
    simp [nextCut, hend, hpfx, hs, hrest]
  | some i =>
    obtain ⟨u, v, ha, hu, rfl⟩ := preferredSplit_spec hs
    have hcut : text = u ++ (v ++ b) := by rw [htext, ha, List.append_assoc]
    refine ⟨u, v ++ b, ?_, hcut, hu, ?_⟩
    · have hto : sliceTo text (byteLen u) = some u := by rw [hcut, sliceTo_byteLen]
      have hfrom : sliceFrom text (byteLen u) = some (v ++ b) := by rw [hcut, sliceFrom_byteLen]
      simp [nextCut, hend, hpfx, hs, hto, hfrom]
    · have : a.length = u.length + v.length := by rw [ha, List.length_append]
      omega

/-! ## The loop -/

def splitLoop (limit : Nat) : Nat → Text → List Text → Option (List Text)
  | 0, _, _ => none
  | fuel + 1, text, chunks =>
    if text.length > limit then
      (nextCut limit text).bind fun (chunk, rest) => splitLoop limit fuel rest (chunks ++ [chunk])
    else if !text.isEmpty || chunks.isEmpty then some (chunks ++ [text])
    else some chunks

def splitIntoChunks (text : Text) (limit : Nat) : Option (List Text) :=
  splitLoop limit (text.length + 1) text []

/-- The greedy partition the loop computes. -/
inductive Chunks (limit : Nat) : Text → List Text → Prop
  | last {text : Text} : text.length ≤ limit → Chunks limit text [text]
  | cut {text chunk rest : Text} {chunks : List Text} : limit < text.length →
      nextCut limit text = some (chunk, rest) → Chunks limit rest chunks →
      Chunks limit text (chunk :: chunks)

theorem Chunks.det {limit : Nat} {text : Text} {a b : List Text} (ha : Chunks limit text a)
    (hb : Chunks limit text b) : a = b := by
  induction ha generalizing b with
  | last h =>
    cases hb with
    | last _ => rfl
    | cut h' _ _ => omega
  | cut h hc _ ih =>
    cases hb with
    | last h' => omega
    | cut _ hc' hr =>
      obtain ⟨rfl, rfl⟩ := Prod.mk.injEq .. ▸ Option.some.inj (hc.symm.trans hc')
      rw [ih hr]

theorem Chunks.total {limit : Nat} (hpos : 0 < limit) (text : Text) :
    ∃ chunks, Chunks limit text chunks := by
  induction hn : text.length using Nat.strongRecOn generalizing text with
  | _ n ih =>
    by_cases hlong : limit < text.length
    · obtain ⟨chunk, rest, hc, ht, hne, _⟩ := nextCut_spec hpos hlong
      have hshorter : rest.length < n := by
        have := List.length_pos_iff.mpr hne
        rw [← hn, ht, List.length_append]
        omega
      obtain ⟨chunks, hr⟩ := ih rest.length hshorter rest rfl
      exact ⟨_, .cut hlong hc hr⟩
    · exact ⟨_, .last (by omega)⟩

theorem Chunks.ne_nil {limit : Nat} {text : Text} {chunks : List Text}
    (h : Chunks limit text chunks) : chunks ≠ [] := by cases h <;> simp

theorem splitLoop_of_chunks {limit : Nat} (hpos : 0 < limit) {text : Text} {chunks : List Text}
    (h : Chunks limit text chunks) : ∀ (fuel : Nat) (acc : List Text), text.length < fuel →
      (text ≠ [] ∨ acc = []) → splitLoop limit fuel text acc = some (acc ++ chunks) := by
  induction h with
  | @last text hle =>
    intro fuel acc hf hacc
    obtain ⟨fuel, rfl⟩ : ∃ k, fuel = k + 1 := ⟨fuel - 1, by omega⟩
    have : (!text.isEmpty || acc.isEmpty) = true := by
      rcases hacc with h | h <;> simp [h]
    simp [splitLoop, this, Nat.not_lt.mpr hle]
  | @cut text chunk rest chunks hlong hc _ ih =>
    intro fuel acc hf _
    obtain ⟨fuel, rfl⟩ : ∃ k, fuel = k + 1 := ⟨fuel - 1, by omega⟩
    obtain ⟨chunk', rest', hc', ht, hne, hle⟩ := nextCut_spec hpos hlong
    obtain ⟨rfl, rfl⟩ := Prod.mk.injEq .. ▸ Option.some.inj (hc.symm.trans hc')
    have hlen : text.length = chunk.length + rest.length := by rw [ht, List.length_append]
    have hchunk := List.length_pos_iff.mpr hne
    have hrest : rest ≠ [] := by
      rintro rfl
      simp at hlen
      omega
    rw [splitLoop, if_pos hlong, hc, Option.bind_some]
    simpa using ih fuel (acc ++ [chunk]) (by omega) (.inl hrest)

/-- For a positive limit the loop neither panics nor runs out of fuel. -/
theorem splitIntoChunks_iff {limit : Nat} (hpos : 0 < limit) {text : Text} {chunks : List Text} :
    splitIntoChunks text limit = some chunks ↔ Chunks limit text chunks := by
  obtain ⟨cs, h⟩ := Chunks.total hpos text
  have hrun : splitIntoChunks text limit = some cs := by
    simpa [splitIntoChunks] using
      splitLoop_of_chunks hpos h (text.length + 1) [] (Nat.lt_succ_self _) (.inr rfl)
  rw [hrun, Option.some.injEq]
  exact ⟨fun he => he ▸ h, fun h' => h.det h'⟩

theorem splitIntoChunks_isSome {limit : Nat} (hpos : 0 < limit) (text : Text) :
    (splitIntoChunks text limit).isSome := by
  obtain ⟨cs, h⟩ := Chunks.total hpos text
  rw [(splitIntoChunks_iff hpos).mpr h]
  rfl

/-! ## What the partition keeps -/

theorem Chunks.flatten {limit : Nat} (hpos : 0 < limit) {text : Text} {chunks : List Text}
    (h : Chunks limit text chunks) : chunks.flatten = text := by
  induction h with
  | last _ => simp
  | cut hlong hc _ ih =>
    obtain ⟨chunk, rest, hc', ht, _⟩ := nextCut_spec hpos hlong
    obtain ⟨rfl, rfl⟩ := Prod.mk.injEq .. ▸ Option.some.inj (hc.symm.trans hc')
    rw [List.flatten_cons, ih, ht]

theorem Chunks.length_le {limit : Nat} (hpos : 0 < limit) {text : Text} {chunks : List Text}
    (h : Chunks limit text chunks) : ∀ chunk ∈ chunks, chunk.length ≤ limit := by
  induction h with
  | last hle => simpa using hle
  | cut hlong hc _ ih =>
    obtain ⟨chunk, rest, hc', _, _, hle⟩ := nextCut_spec hpos hlong
    obtain ⟨rfl, rfl⟩ := Prod.mk.injEq .. ▸ Option.some.inj (hc.symm.trans hc')
    exact List.forall_mem_cons.mpr ⟨hle, ih⟩

theorem Chunks.mem_ne_nil {limit : Nat} (hpos : 0 < limit) {text : Text} {chunks : List Text}
    (h : Chunks limit text chunks) (hne : text ≠ []) : ∀ chunk ∈ chunks, chunk ≠ [] := by
  induction h with
  | last _ => simpa using hne
  | cut hlong hc _ ih =>
    obtain ⟨chunk, rest, hc', ht, hchunk, hle⟩ := nextCut_spec hpos hlong
    obtain ⟨rfl, rfl⟩ := Prod.mk.injEq .. ▸ Option.some.inj (hc.symm.trans hc')
    refine List.forall_mem_cons.mpr ⟨hchunk, ih ?_⟩
    rintro rfl
    rw [ht, List.append_nil] at hlong
    omega

/-- Joining all chunks but the first and splitting again gives them back. -/
theorem Chunks.tail {limit : Nat} (hpos : 0 < limit) {text chunk : Text} {chunks : List Text}
    (h : Chunks limit text (chunk :: chunks)) (hne : chunks ≠ []) :
    Chunks limit chunks.flatten chunks ∧ chunk ≠ [] ∧ chunks.flatten ≠ [] := by
  cases h with
  | last _ => exact absurd rfl hne
  | cut hlong hc hr =>
    obtain ⟨_, rest, hc', ht, hchunk, hle⟩ := nextCut_spec hpos hlong
    obtain ⟨rfl, rfl⟩ := Prod.mk.injEq .. ▸ Option.some.inj (hc.symm.trans hc')
    rw [hr.flatten hpos]
    refine ⟨hr, hchunk, ?_⟩
    rintro rfl
    simp only [ht, List.append_nil] at hlong
    omega

/-! ## The shaper -/

/-- A shaper exists only with room for the question: the assertion of `new`. -/
structure ReplyShaper where
  limit : Nat
  room : continuationSuffix.length < limit

/-- `ReplyShaper::new`; no result is the failed assertion. -/
def ReplyShaper.new (limit : Nat) : Option ReplyShaper :=
  if room : limit > continuationSuffix.length then some ⟨limit, room⟩ else none

def ReplyShaper.contentLimit (shaper : ReplyShaper) : Nat :=
  shaper.limit - continuationSuffix.length

theorem ReplyShaper.contentLimit_pos (shaper : ReplyShaper) : 0 < shaper.contentLimit :=
  Nat.sub_pos_of_lt shaper.room

/-- The chunks `split` iterates over, panic free by `splitIntoChunks_isSome`. -/
def ReplyShaper.chunks (shaper : ReplyShaper) (text : Text) : List Text :=
  (splitIntoChunks text shaper.contentLimit).get
    (splitIntoChunks_isSome shaper.contentLimit_pos text)

def ReplyShaper.split (shaper : ReplyShaper) (text : Text) : ShapedReply :=
  let chunks := shaper.chunks text
  let first := chunks.headD []
  let remaining := chunks.tail
  { spoken := if remaining.isEmpty then first else first ++ continuationSuffix
    remaining := remaining }

/-- What a shaped reply says of the answer: the spoken text without the question
`split` adds when chunks remain. -/
def ShapedReply.content (shaped : ShapedReply) : Text :=
  if shaped.remaining.isEmpty then shaped.spoken
  else shaped.spoken.take (shaped.spoken.length - continuationSuffix.length)

/-- The part of the answer left for later. -/
def ShapedReply.rest (shaped : ShapedReply) : Text := shaped.remaining.flatten

theorem ReplyShaper.chunks_spec (shaper : ReplyShaper) (text : Text) :
    Chunks shaper.contentLimit text (shaper.chunks text) :=
  (splitIntoChunks_iff shaper.contentLimit_pos).mp (Option.some_get _).symm

theorem ReplyShaper.chunks_eq {shaper : ReplyShaper} {text : Text} {chunks : List Text}
    (h : Chunks shaper.contentLimit text chunks) : shaper.chunks text = chunks :=
  (shaper.chunks_spec text).det h

/-- All that `split` does: a text within the content limit is spoken whole,
a longer one loses a nonempty first chunk and keeps the others. -/
theorem ReplyShaper.split_cases (shaper : ReplyShaper) (text : Text) :
    (text.length ≤ shaper.contentLimit ∧ shaper.split text = ⟨text, []⟩) ∨
    (shaper.contentLimit < text.length ∧ ∃ chunk remaining,
      shaper.split text = ⟨chunk ++ continuationSuffix, remaining⟩ ∧ remaining ≠ [] ∧
      chunk ≠ [] ∧ chunk.length ≤ shaper.contentLimit ∧ chunk ++ remaining.flatten = text ∧
      shaper.chunks remaining.flatten = remaining) := by
  have h := shaper.chunks_spec text
  have hpos := shaper.contentLimit_pos
  have hflat := h.flatten hpos
  have hle := h.length_le hpos
  unfold ReplyShaper.split
  generalize shaper.chunks text = chunks at h hflat hle
  cases h with
  | last hshort => exact .inl ⟨hshort, by simp⟩
  | @cut _ chunk rest chunks hlong hc hr =>
    have hne := hr.ne_nil
    obtain ⟨htail, hchunk, _⟩ := (Chunks.cut hlong hc hr).tail hpos hne
    exact .inr ⟨hlong, chunk, chunks, by simp [hne], hne, hchunk, hle _ (by simp), hflat,
      chunks_eq htail⟩

theorem ReplyShaper.split_content (shaper : ReplyShaper) (text : Text) :
    (shaper.split text).content ++ (shaper.split text).rest = text := by
  rcases shaper.split_cases text with ⟨_, h⟩ | ⟨_, chunk, remaining, h, hne, _, _, hflat, _⟩
  · simp [h, ShapedReply.content, ShapedReply.rest]
  · simp [h, hne, ShapedReply.content, ShapedReply.rest, hflat]

/-! ## What is spoken whole -/

theorem ReplyShaper.new_limit {limit : Nat} {shaper : ReplyShaper}
    (h : ReplyShaper.new limit = some shaper) : shaper.limit = limit := by
  unfold ReplyShaper.new at h
  split at h
  · obtain rfl := Option.some.inj h
    rfl
  · cases h

/-- Room for the question is kept also where no question follows. -/
theorem ReplyShaper.split_whole (shaper : ReplyShaper) (text : Text) :
    shaper.split text = ⟨text, []⟩ ↔ text.length + continuationSuffix.length ≤ shaper.limit := by
  have room := shaper.room
  rcases shaper.split_cases text with ⟨hshort, hsplit⟩ | ⟨hlong, _, remaining, hsplit, hne, _⟩
  · unfold ReplyShaper.contentLimit at hshort
    exact iff_of_true hsplit (by omega)
  · unfold ReplyShaper.contentLimit at hlong
    refine iff_of_false (fun hwhole => ?_) (by omega)
    rw [hsplit] at hwhole
    exact hne (ShapedReply.mk.inj hwhole).2

/-- A text is spoken whole, and the rest of an answer in one last part, exactly when it
leaves room for the question. -/
theorem spoken_whole_iff {limit : Nat} {shaper : ReplyShaper}
    (hnew : ReplyShaper.new limit = some shaper) (text : Text) :
    (shaper.split text = ⟨text, []⟩ ↔ text.length + continuationSuffix.length ≤ limit) ∧
      ((shaper.split text).rest ≠ [] →
        ((shaper.split text).remaining = [(shaper.split text).rest] ∧
            shaper.split (shaper.split text).rest = ⟨(shaper.split text).rest, []⟩ ↔
          (shaper.split text).rest.length + continuationSuffix.length ≤ limit)) := by
  obtain rfl := ReplyShaper.new_limit hnew
  refine ⟨shaper.split_whole text, fun hrest => ?_⟩
  rw [shaper.split_whole]
  refine and_iff_right_of_imp fun hfits => ?_
  rcases shaper.split_cases text with ⟨_, hsplit⟩ | ⟨_, _, remaining, hsplit, _, _, _, _, hchunks⟩
  · simp [hsplit, ShapedReply.rest] at hrest
  · have hlast : shaper.chunks remaining.flatten = [remaining.flatten] := by
      refine shaper.chunks_eq (.last ?_)
      simp only [hsplit, ShapedReply.rest] at hfits
      unfold ReplyShaper.contentLimit
      omega
    simp only [hsplit, ShapedReply.rest]
    exact hchunks.symm.trans hlast

theorem spoken_whole_iff_short :
    (ReplyShaper.mk 850 (by decide)).split "Да".toList = ⟨"Да".toList, []⟩ := by
  have hnew : ReplyShaper.new 850 = some ⟨850, by decide⟩ := rfl
  exact (spoken_whole_iff hnew "Да".toList).1.mpr (by decide)

/-- With limit 13 an answer of two characters is asked about. -/
theorem short_answer_cut : ¬ ∀ limit shaper (text : Text), ReplyShaper.new limit = some shaper →
    text.length ≤ limit → shaper.split text = ⟨text, []⟩ := by
  intro hall
  have hwhole := hall 13 ⟨13, by decide⟩ ['a', 'b'] rfl (by decide)
  exact absurd ((ReplyShaper.split_whole _ _).mp hwhole) (by decide)

end AliceBridge.Core.Reply
