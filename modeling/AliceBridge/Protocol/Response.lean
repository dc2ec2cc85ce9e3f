import AliceBridge.Lib.Utf8

/-! # The webhook reply

`response.rs`: the reply envelope and the clipping of its text. A slice off a
character boundary would be a panic, so `clipToLimit` is partial. `Clipped` says
what is left of a text beyond the limit: up to its last sentence mark within the
limit, or up to its last white space there, or all of it up to the limit. -/
namespace AliceBridge.Protocol.Response
open AliceBridge.Lib.Unicode AliceBridge.Lib.Utf8

def maxTextLen : Nat := 1024

structure SkillResponse where
  text : Text
  tts : Option Text
  endSession : Bool
deriving DecidableEq, Repr

structure WebhookResponse where
  response : SkillResponse
  version : Text
deriving DecidableEq, Repr

def clipToLimit (text : Text) : Option Text :=
  if text.length ≤ maxTextLen then some text
  else
    let cut := text.take maxTextLen
    match rfindChar (fun p => ['.', '!', '?'].contains p.2) cut with
    | some (pos, _) => sliceTo cut (pos + 1)
    | none =>
      match rfindChar (fun p => isWhitespace p.2) cut with
      | some (pos, _) => (sliceTo cut pos).map fun head => trimEndMatches isWhitespace head ++ ['…']
      | none => some cut

def WebhookResponse.build (text : Text) (endSession : Bool) : Option WebhookResponse :=
  (clipToLimit text).map fun text =>
    { response := { text := text, tts := some text, endSession := endSession }
      version := ['1', '.', '0'] }

def WebhookResponse.say (text : Text) : Option WebhookResponse := WebhookResponse.build text false

def WebhookResponse.sayAndClose (text : Text) : Option WebhookResponse :=
  WebhookResponse.build text true

theorem clipToLimit_short {text : Text} (h : text.length ≤ maxTextLen) :
    clipToLimit text = some text := if_pos h

theorem WebhookResponse.say_short {text : Text} (h : text.length ≤ maxTextLen) :
    WebhookResponse.say text =
      some { response := { text := text, tts := some text, endSession := false }
             version := ['1', '.', '0'] } := by
  rw [say, build, clipToLimit_short h]
  rfl

/-! ## What is clipped -/

/-- The characters at which `clip_to_limit` ends a text. -/
def isSentenceMark (c : Char) : Bool := ['.', '!', '?'].contains c

theorem isSentenceMark_ascii {c : Char} (h : isSentenceMark c = true) : c.utf8Size = 1 := by
  simp only [isSentenceMark, List.contains_eq_mem, List.mem_cons, List.not_mem_nil, or_false,
    decide_eq_true_eq] at h
  rcases h with rfl | rfl | rfl <;> decide

/-- What is left of a text whose characters within the limit are `cut`. -/
inductive Clipped (cut : Text) : Text → Prop
  | sentence {before after : Text} {mark : Char} : cut = before ++ mark :: after →
      isSentenceMark mark = true → (∀ c ∈ after, isSentenceMark c = false) →
      Clipped cut (before ++ [mark])
  | words {before after : Text} {blank : Char} : (∀ c ∈ cut, isSentenceMark c = false) →
      cut = before ++ blank :: after → isWhitespace blank = true →
      Clipped cut (trimEndMatches isWhitespace before ++ ['…'])
  | hard : (∀ c ∈ cut, isSentenceMark c = false) → (∀ c ∈ cut, isWhitespace c = false) →
      Clipped cut cut

section Clipping

variable {text cut clipped : Text}

/-- Every cut falls on a character boundary. -/
theorem clipToLimit_long (h : maxTextLen < text.length) :
    ∃ clipped, clipToLimit text = some clipped ∧ Clipped (text.take maxTextLen) clipped := by
  unfold clipToLimit
  rw [if_neg (Nat.not_le.mpr h)]
  generalize text.take maxTextLen = cut
  simp only
  split
  · next pos mark hfound =>
    obtain ⟨hmark, before, after, rfl, rfl, hafter⟩ := rfindChar_last hfound
    have hpos : byteLen before + 1 = byteLen (before ++ [mark]) := by
      simp [isSentenceMark_ascii hmark]
    refine ⟨before ++ [mark], ?_, .sentence rfl hmark hafter⟩
    rw [hpos, List.append_cons]
    exact sliceTo_byteLen ..
  · next hnone =>
    have hmarks := rfindChar_none hnone
    split
    · next pos blank hfound =>
      obtain ⟨hblank, before, after, rfl, rfl, -⟩ := rfindChar_last hfound
      exact ⟨_, by rw [sliceTo_byteLen]; rfl, .words hmarks rfl hblank⟩
    · next hnone => exact ⟨cut, rfl, .hard hmarks (rfindChar_none hnone)⟩

/-- A prefix of the text, or a trimmed one with an ellipsis, and no longer than the cut. -/
theorem Clipped.spec (h : Clipped cut clipped) : clipped.length ≤ cut.length ∧
    (clipped <+: cut ∨
      ∃ head, head <+: cut ∧ clipped = trimEndMatches isWhitespace head ++ ['…']) := by
  cases h with
  | @sentence before after mark hcut hmark hafter =>
    have hprefix : before ++ [mark] <+: cut := ⟨after, by rw [hcut]; simp⟩
    have hlength := hprefix.length_le
    exact ⟨hlength, .inl hprefix⟩
  | @words before after blank hmarks hcut hblank =>
    refine ⟨?_, .inr ⟨before, ⟨blank :: after, hcut.symm⟩, rfl⟩⟩
    have hhead := trimEndMatches_prefix isWhitespace before
    have htrimmed := hhead.length_le
    rw [hcut]
    simp only [List.length_append, List.length_cons, List.length_nil]
    omega
  | hard => exact ⟨Nat.le_refl _, .inl (List.prefix_refl _)⟩

end Clipping

/-- Every text has a reply, of at most 1024 characters and spoken as it is shown: the text
itself within the limit, a prefix of it or a trimmed prefix and an ellipsis beyond. -/
theorem reply_within_limit (text : Text) : ∃ clipped,
    WebhookResponse.say text = some ⟨⟨clipped, some clipped, false⟩, ['1', '.', '0']⟩ ∧
      WebhookResponse.sayAndClose text = some ⟨⟨clipped, some clipped, true⟩, ['1', '.', '0']⟩ ∧
      clipped.length ≤ maxTextLen ∧ (text.length ≤ maxTextLen → clipped = text) ∧
      (maxTextLen < text.length → clipped <+: text ∨
        ∃ head, head <+: text ∧ clipped = trimEndMatches isWhitespace head ++ ['…']) ∧
      clipToLimit clipped = some clipped := by
  have hreplies {clipped : Text} (hclip : clipToLimit text = some clipped) (endSession : Bool) :
      WebhookResponse.build text endSession =
        some ⟨⟨clipped, some clipped, endSession⟩, ['1', '.', '0']⟩ := by
    rw [WebhookResponse.build, hclip]
    rfl
  by_cases hshort : text.length ≤ maxTextLen
  · have hclip := clipToLimit_short hshort
    exact ⟨text, hreplies hclip false, hreplies hclip true, hshort, fun _ => rfl,
      fun hlong => absurd hshort (Nat.not_le.mpr hlong), hclip⟩
  · obtain ⟨clipped, hclip, hclipped⟩ := clipToLimit_long (Nat.not_le.mp hshort)
    obtain ⟨hlength, hparts⟩ := hclipped.spec
    have hlimit : clipped.length ≤ maxTextLen := hlength.trans (List.length_take_le ..)
    have hprefix := List.take_prefix maxTextLen text
    refine ⟨clipped, hreplies hclip false, hreplies hclip true, hlimit,
      fun h => absurd h hshort, fun _ => ?_, clipToLimit_short hlimit⟩
    rcases hparts with hcut | ⟨head, hhead, heq⟩
    · exact .inl (hcut.trans hprefix)
    · exact .inr ⟨head, hhead.trans hprefix, heq⟩

/-! ## Cuts between words -/

/-- What was kept of the text, less an ellipsis, ends before a character that is neither a
letter nor a digit. -/
def CutBetweenWords (text clipped : Text) : Prop :=
  ∃ kept rest, text = kept ++ rest ∧ (clipped = kept ∨ clipped = kept ++ ['…']) ∧
    ∀ c ∈ rest.head?, isAlphanumeric c = false

/-- Neither a letter nor a digit follows the last sentence mark within the limit. -/
def MarkEndsWord (text : Text) : Prop :=
  ∀ before mark after, text.take maxTextLen = before ++ mark :: after →
    isSentenceMark mark = true → (∀ c ∈ after, isSentenceMark c = false) →
    ∀ c ∈ (after ++ text.drop maxTextLen).head?, isAlphanumeric c = false

/-- Two cuts at a last match are the same cut. -/
theorem last_match_unique {p : Char → Bool} {before before' after after' : Text} {c c' : Char}
    (h : before ++ c :: after = before' ++ c' :: after') (hc : p c = true) (hc' : p c' = true)
    (hafter : ∀ x ∈ after, p x = false) (hafter' : ∀ x ∈ after', p x = false) :
    before = before' ∧ c = c' ∧ after = after' := by
  have hno {c : Char} {xs : Text} (hc : p c = true) (hxs : ∀ x ∈ xs, p x = false) : c ∉ xs := by
    intro hmem
    rw [hxs c hmem] at hc
    cases hc
  rcases List.append_eq_append_iff.mp h with ⟨more, rfl, hrest⟩ | ⟨more, rfl, hrest⟩
  · cases more with
    | nil =>
      obtain ⟨rfl, rfl⟩ := List.cons.inj hrest
      exact ⟨by simp, rfl, rfl⟩
    | cons x more =>
      obtain ⟨rfl, rfl⟩ := List.cons.inj hrest
      exact absurd (by simp) (hno hc' hafter)
  · cases more with
    | nil =>
      obtain ⟨rfl, rfl⟩ := List.cons.inj hrest
      exact ⟨by simp, rfl, rfl⟩
    | cons x more =>
      obtain ⟨rfl, rfl⟩ := List.cons.inj hrest
      exact absurd (by simp) (hno hc hafter')

/-- A text beyond the limit that has white space within it is cut between words exactly when
neither a letter nor a digit follows the last sentence mark within the limit. -/
theorem clip_between_words_iff {text : Text} (hlong : maxTextLen < text.length)
    (hblank : (text.take maxTextLen).any isWhitespace = true) :
    (∃ clipped, clipToLimit text = some clipped ∧ CutBetweenWords text clipped) ↔
      MarkEndsWord text := by
  obtain ⟨clipped, hclip, hclipped⟩ := clipToLimit_long hlong
  have hwhole := List.take_append_drop maxTextLen text
  rw [hclip]
  simp only [Option.some.injEq, exists_eq_left']
  generalize hcut : text.take maxTextLen = cut at hclipped hblank hwhole
  cases hclipped with
  | @sentence before after mark hsplit hmark hafter =>
    have hnext : CutBetweenWords text (before ++ [mark]) ↔
        ∀ c ∈ (after ++ text.drop maxTextLen).head?, isAlphanumeric c = false := by
      have htext : text = (before ++ [mark]) ++ (after ++ text.drop maxTextLen) := by
        conv_lhs => rw [← hwhole, hsplit]
        simp
      constructor
      · rintro ⟨kept, rest, hkept, rfl | hellipsis, hrest⟩
        · rwa [List.append_cancel_left (htext.symm.trans hkept)]
        · obtain ⟨-, hdots⟩ := List.append_inj' hellipsis rfl
          obtain rfl := List.singleton_inj.mp hdots
          exact absurd hmark (by decide)
      · exact fun hrest => ⟨_, _, htext, .inl rfl, hrest⟩
    rw [hnext]
    constructor
    · intro hrest before' mark' after' hsplit' hmark' hafter'
      rw [hcut, hsplit] at hsplit'
      obtain ⟨-, -, rfl⟩ := last_match_unique hsplit' hmark hmark' hafter hafter'
      exact hrest
    · exact fun hends => hends before mark after (hcut.trans hsplit) hmark hafter
  | @words before after blank hmarks hsplit hblank =>
    refine iff_of_true ?_ fun before' mark after' hsplit' hmark => ?_
    · obtain ⟨trimmed, htrim, htrimmed⟩ := trimEndMatches_append isWhitespace before
      refine ⟨_, trimmed ++ blank :: after ++ text.drop maxTextLen, ?_, .inr rfl, ?_⟩
      · conv_lhs => rw [← hwhole, hsplit, htrim]
        simp
      · cases trimmed with
        | nil => simpa using isAlphanumeric_whitespace hblank
        | cons c trimmed => simpa using isAlphanumeric_whitespace (htrimmed c List.mem_cons_self)
    · rw [hcut] at hsplit'
      rw [hmarks mark (by simp [hsplit'])] at hmark
      cases hmark
  | hard _ hblanks =>
    obtain ⟨c, hc, hwhite⟩ := List.any_eq_true.mp hblank
    rw [hblanks c hc] at hwhite
    cases hwhite

theorem clip_between_words_prose : ∃ clipped,
    clipToLimit (List.replicate 200 "слово ".toList).flatten = some clipped ∧
      CutBetweenWords (List.replicate 200 "слово ".toList).flatten clipped := by
  refine (clip_between_words_iff (by decide +kernel) (by decide +kernel)).mpr ?_
  intro before mark after hsplit hmark
  have hnone : ((List.replicate 200 "слово ".toList).flatten.take maxTextLen).all
      (fun c => !isSentenceMark c) = true := by
    decide +kernel
  have hmem := List.all_eq_true.mp hnone mark (by rw [hsplit]; simp)
  rw [hmark] at hmem
  cases hmem

/-- Words, and a number at the limit. -/
def numberAtLimit : Text := (List.replicate 170 "слово ".toList).flatten ++ "3.14 это".toList

/-- The point of the number is taken for the end of a sentence. -/
theorem clip_cuts_number : maxTextLen < numberAtLimit.length ∧
    (numberAtLimit.take maxTextLen).any isWhitespace = true ∧
    ¬ ∃ clipped, clipToLimit numberAtLimit = some clipped ∧
      CutBetweenWords numberAtLimit clipped := by
  refine ⟨by decide +kernel, by decide +kernel, ?_⟩
  rintro ⟨clipped, hclip, kept, rest, htext, hkept, hrest⟩
  have hclipped : clipToLimit numberAtLimit = some (numberAtLimit.take 1022) := by
    decide +kernel
  obtain rfl := Option.some.inj (hclipped.symm.trans hclip)
  rcases hkept with rfl | hkept
  · have hnext : (numberAtLimit.drop 1022).head? = some '1' := by decide +kernel
    obtain rfl := List.append_cancel_left ((List.take_append_drop 1022 _).trans htext)
    have hletter := hrest '1' hnext
    revert hletter
    decide
  · have hlast : (numberAtLimit.take 1022).getLast? = some '.' := by decide +kernel
    rw [hkept, List.getLast?_concat] at hlast
    revert hlast
    decide

end AliceBridge.Protocol.Response
