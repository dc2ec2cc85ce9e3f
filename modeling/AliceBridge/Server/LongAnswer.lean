import AliceBridge.Core.HouseServe
import AliceBridge.Server.Config
import AliceBridge.Server.Routes

/-! # A long answer, from the configuration to the webhook

An answer is shaped once and the rest of it is stored; every continuing request
joins what is stored and shapes it again. `splitSteps` is the conversation the
chunks of the answer suggest. The engine holds exactly this conversation, since
a greedy split of joined chunks gives the same chunks (`following_splitSteps`),
whether the answer came within its deadline (`delivered_fresh`) or was stored as
Ready (`delivered_ready`). -/
namespace AliceBridge.Server.LongAnswer
open AliceBridge.Lib.Utf8 AliceBridge.Core.Reply AliceBridge.Core.Household
open AliceBridge.Core.HouseEngine AliceBridge.Core.HouseServe
open AliceBridge.Protocol.Response AliceBridge.Server.Config AliceBridge.Server.Routes

/-- One step per part: it says the part, asks when parts remain, and stores these. -/
def splitSteps : List Text → List (HouseholdReply × Slots)
  | [] => []
  | part :: rest =>
    (.say (if rest.isEmpty then part else part ++ continuationSuffix),
      Slots.empty.saveContinuation rest) :: splitSteps rest

/-- The answer of a turn that met its deadline, and the requests after it. -/
def conversation (shaper : ReplyShaper) (house : HouseContext) (input : HouseholdInput)
    (text : Text) (inputs : List HouseholdInput) : Option (List (HouseholdReply × Slots)) :=
  (serveFrom shaper input none 1 (.shapeAndSave house.id text .fresh) Slots.empty).map fun served =>
    served :: following shaper house inputs served.2

@[simp] theorem splitSteps_length (parts : List Text) :
    (splitSteps parts).length = parts.length := by
  induction parts with
  | nil => rfl
  | cons part rest ih => simp [splitSteps, ih]

theorem splitSteps_getElem? (parts : List Text) (k : Nat) :
    (splitSteps parts)[k]? = parts[k]?.map fun part =>
      (.say (if (parts.drop (k + 1)).isEmpty then part else part ++ continuationSuffix),
        Slots.empty.saveContinuation (parts.drop (k + 1))) := by
  induction parts generalizing k with
  | nil => simp [splitSteps]
  | cons part rest ih =>
    cases k with
    | zero => simp [splitSteps]
    | succ k => simp [splitSteps, ih]

section Deliver

variable {shaper : ReplyShaper} {house : HouseContext} {input : HouseholdInput}

/-- Splitting the joined chunks says the first of them and stores the others. -/
theorem split_flatten {part : Text} {rest : List Text}
    (h : Chunks shaper.contentLimit (part :: rest).flatten (part :: rest)) :
    shaper.split (part :: rest).flatten =
      ⟨if rest.isEmpty then part else part ++ continuationSuffix, rest⟩ := by
  rw [ReplyShaper.split, ReplyShaper.chunks_eq h]
  rfl

theorem following_nothing (inputs : List HouseholdInput) :
    following shaper house inputs Slots.empty = [] := by
  cases inputs <;> rfl

/-- Whatever stands behind one chunk of a partition is its own partition. -/
theorem chunks_rest {part : Text} {rest : List Text}
    (h : Chunks shaper.contentLimit (part :: rest).flatten (part :: rest)) (hne : rest ≠ []) :
    Chunks shaper.contentLimit rest.flatten rest :=
  (h.tail shaper.contentLimit_pos hne).1

theorem following_splitSteps : ∀ {parts : List Text} {inputs : List HouseholdInput},
    (parts ≠ [] → Chunks shaper.contentLimit parts.flatten parts) →
    (∀ i ∈ inputs, Continuing i) → parts.length ≤ inputs.length →
    following shaper house inputs (Slots.empty.saveContinuation parts) = splitSteps parts
  | [], inputs, _, _, _ => following_nothing inputs
  | part :: rest, [], _, _, hlen => by simp at hlen
  | part :: rest, input :: inputs, hchunks, hall, hlen => by
    have h := hchunks (by simp)
    have hcont : (Slots.empty.saveContinuation (part :: rest)).continuation = some (part :: rest) :=
      rfl
    have hserve : serve shaper house input none (Slots.empty.saveContinuation (part :: rest)) =
        some (.say (if rest.isEmpty then part else part ++ continuationSuffix),
          Slots.empty.saveContinuation rest) := by
      rw [serve_continuation hcont (hall input (by simp)), split_flatten h]
      rfl
    have hrest : following shaper house inputs (Slots.empty.saveContinuation rest) =
        splitSteps rest :=
      following_splitSteps (chunks_rest h) (fun i hi => hall i (List.mem_cons_of_mem _ hi))
        (by simpa using hlen)
    have hstored : hasStored (Slots.empty.saveContinuation (part :: rest)) = true := rfl
    simp only [following, hstored, if_true, hserve, hrest, splitSteps]

/-- The chunks of a text, as the head and the rest of their list. -/
theorem chunks_cons (shaper : ReplyShaper) (text : Text) :
    ∃ part rest, shaper.chunks text = part :: rest ∧ (part :: rest).flatten = text ∧
      Chunks shaper.contentLimit (part :: rest).flatten (part :: rest) := by
  have h := shaper.chunks_spec text
  obtain ⟨part, rest, hc⟩ := List.exists_cons_of_ne_nil h.ne_nil
  have hflat := h.flatten shaper.contentLimit_pos
  rw [hc] at h hflat
  exact ⟨part, rest, hc, hflat, hflat ▸ h⟩

theorem delivered_fresh {text : Text} {inputs : List HouseholdInput}
    (hall : ∀ i ∈ inputs, Continuing i) (hlen : (shaper.chunks text).length ≤ inputs.length) :
    conversation shaper house input text inputs = some (splitSteps (shaper.chunks text)) := by
  obtain ⟨part, rest, hc, hflat, h⟩ := chunks_cons shaper text
  rw [hc] at hlen ⊢
  have hrest :
      following shaper house inputs (Slots.empty.saveContinuation rest) = splitSteps rest :=
    following_splitSteps (chunks_rest h) hall (by rw [List.length_cons] at hlen; omega)
  have hsplit := split_flatten h
  rw [hflat] at hsplit
  simp [conversation, serveFrom, slotStep, outcomeOf, hsplit, hrest, splitSteps]

theorem delivered_ready {text : Text} {inputs : List HouseholdInput}
    (hall : ∀ i ∈ inputs, Continuing i) (hlen : (shaper.chunks text).length ≤ inputs.length) :
    following shaper house inputs ⟨.ready text, none⟩ = splitSteps (shaper.chunks text) := by
  obtain ⟨part, rest, hc, hflat, h⟩ := chunks_cons shaper text
  rw [hc] at hlen ⊢
  cases inputs with
  | nil => simp at hlen
  | cons input inputs =>
    have hrest : following shaper house inputs (Slots.empty.saveContinuation rest) =
        splitSteps rest :=
      following_splitSteps (chunks_rest h) (fun i hi => hall i (List.mem_cons_of_mem _ hi))
        (by simpa using hlen)
    have hsplit := split_flatten h
    rw [hflat] at hsplit
    have hslots : (Slots.saveContinuation ⟨.ready text, none⟩ rest).clearPending =
        Slots.empty.saveContinuation rest := by
      cases rest <;> rfl
    have hstored : hasStored ⟨.ready text, none⟩ = true := rfl
    have hserve : serve shaper house input none ⟨.ready text, none⟩ =
        some (.say (if rest.isEmpty then part else part ++ continuationSuffix),
          Slots.empty.saveContinuation rest) := by
      have hpending : (Slots.mk (.ready text) none).pending = .ready text := rfl
      rw [serve_ready rfl hpending, hsplit, hslots]
    simp only [following, hstored, if_true, hserve, hrest, splitSteps]

/-- What stands behind any chunk is its own partition. -/
theorem chunks_drop {parts : List Text} (h : Chunks shaper.contentLimit parts.flatten parts)
    {k : Nat} (hk : k < parts.length) :
    shaper.chunks (parts.drop k).flatten = parts.drop k := by
  induction k generalizing parts with
  | zero => exact ReplyShaper.chunks_eq h
  | succ k ih =>
    cases parts with
    | nil => simp at hk
    | cons part rest =>
      have hk' : k < rest.length := by simpa using hk
      exact ih (chunks_rest h (List.ne_nil_of_length_pos (by omega))) hk'

end Deliver

/-- Step `k` of a conversation about an answer that was cut into `parts`. -/
structure StepOf (shaper : ReplyShaper) (parts : List Text) (k : Nat) (part spoken : Text)
    (slots : Slots) : Prop where
  question : spoken = if k + 1 < parts.length then part ++ continuationSuffix else part
  fits : spoken.length ≤ shaper.limit ∧ shaper.limit ≤ maxTextLen
  unclipped : clipToLimit spoken = some spoken
  webhook : ∃ webhook, householdResponse (.say spoken) = some webhook ∧
    webhook.response.text = spoken ∧ webhook.response.tts = some spoken
  saved : slots.continuation = if k + 1 < parts.length then some (parts.drop (k + 1)) else none
  resplit : k + 1 < parts.length → shaper.chunks (parts.drop (k + 1)).flatten = parts.drop (k + 1)

theorem stepOf {shaper : ReplyShaper} (hlimit : shaper.limit ≤ maxTextLen) {parts : List Text}
    (h : Chunks shaper.contentLimit parts.flatten parts) {k : Nat} {part : Text}
    (hpart : parts[k]? = some part) :
    StepOf shaper parts k part
      (if (parts.drop (k + 1)).isEmpty then part else part ++ continuationSuffix)
      (Slots.empty.saveContinuation (parts.drop (k + 1))) := by
  have hempty : (parts.drop (k + 1)).isEmpty = decide (¬ k + 1 < parts.length) := by
    rw [Bool.eq_iff_iff]
    simp
  have hfits : (if (parts.drop (k + 1)).isEmpty then part else part ++ continuationSuffix).length ≤
      shaper.limit := by
    have room := shaper.room
    have hle := h.length_le shaper.contentLimit_pos part (List.mem_of_getElem? hpart)
    simp only [ReplyShaper.contentLimit] at hle
    split
    · omega
    · rw [List.length_append]
      omega
  have hshort := Nat.le_trans hfits hlimit
  refine ⟨?_, ⟨hfits, hlimit⟩, clipToLimit_short hshort,
    ⟨_, WebhookResponse.say_short hshort, rfl, rfl⟩, ?_, chunks_drop h⟩
  · by_cases hk : k + 1 < parts.length <;> simp [hempty, hk]
  · rw [Slots.saveContinuation_continuation]
    by_cases hk : k + 1 < parts.length <;> simp [hempty, hk]

/-- Under an accepted household configuration an answer is delivered without
loss: the engine exists, the parts make up the answer, and the requests after
the first part get exactly one part each until none is left, both for an answer
within the deadline and for one stored as Ready. -/
theorem long_answer_delivered {ε : Type} {parse : Text → Except ε AppConfig} {toml : Text}
    {config : AppConfig} (hconfig : AppConfig.fromToml parse toml = .ok config)
    (hmode : config.runtime.mode = .householdCodex) (house : HouseContext)
    (input : HouseholdInput) (text : Text) :
    ∃ engine, (config.buildHouseholdEngine : Except (ConfigError ε) _) = .ok (some engine) ∧
      engine.shaper.limit = config.runtime.chunkLimit ∧
      ∃ parts : List Text, parts ≠ [] ∧ parts.flatten = text ∧
      (text ≠ [] → ∀ part ∈ parts, part ≠ []) ∧
      ∀ inputs : List HouseholdInput, (∀ i ∈ inputs, Continuing i) → parts.length ≤ inputs.length →
        ∃ conv, conversation engine.shaper house input text inputs = some conv ∧
          following engine.shaper house inputs ⟨.ready text, none⟩ = conv ∧
          conv.length = parts.length ∧
          ∀ k part, parts[k]? = some part → ∃ spoken slots, conv[k]? = some (.say spoken, slots) ∧
            StepOf engine.shaper parts k part spoken slots := by
  obtain ⟨room, hmax⟩ := fromToml_chunkLimit hconfig hmode
  refine ⟨_, buildHouseholdEngine_some hmode room, rfl, ?_⟩
  generalize hshaper : (⟨config.runtime.chunkLimit, room⟩ : ReplyShaper) = shaper
  have hlimit : shaper.limit ≤ maxTextLen := by
    rw [← hshaper]
    exact Nat.le_trans hmax (by decide)
  have h := shaper.chunks_spec text
  have hpos := shaper.contentLimit_pos
  have hflat := h.flatten hpos
  refine ⟨shaper.chunks text, h.ne_nil, hflat, h.mem_ne_nil hpos, fun inputs hall hlen =>
    ⟨_, delivered_fresh hall hlen, delivered_ready hall hlen, splitSteps_length _, ?_⟩⟩
  intro k part hpart
  have hstep := splitSteps_getElem? (shaper.chunks text) k
  rw [hpart, Option.map_some] at hstep
  exact ⟨_, _, hstep, stepOf hlimit (by rwa [hflat]) hpart⟩

/-- A household configuration with the smallest chunks that are accepted. -/
def sampleConfig : AppConfig :=
  { runtime :=
      { mode := .householdCodex
        codexSocket := some ['/', 's']
        codexCwdRoot := some ['/', 'c']
        permissionProfilePrefix := ['h']
        chunkLimit := 13
        homeyEnabled := false }
    defaults := { profile := ['p'], contextWindow := 8, replyBudgetMs := 2800 }
    providers := [['o']]
    models := { fast := ⟨['o'], ['m']⟩, smart := ⟨['o'], ['m']⟩ }
    profiles := [⟨['p'], [], none, "adult".toList, []⟩]
    modes := [] }

theorem long_answer_delivered_sample :
    ∃ engine, (sampleConfig.buildHouseholdEngine : Except (ConfigError Unit) _) =
        .ok (some engine) ∧ engine.shaper.limit = 13 ∧
      ∃ parts : List Text, parts ≠ [] ∧ parts.flatten = ['Д', 'а', '.'] := by
  have hvalid : AppConfig.fromToml (fun _ => Except.ok sampleConfig) [] =
      (.ok sampleConfig : Except (ConfigError Unit) AppConfig) := rfl
  obtain ⟨engine, hbuild, hlimit, parts, hne, hflat, _⟩ :=
    long_answer_delivered hvalid rfl ⟨1, ['Д'], none, ['h']⟩ ⟨⟨['u'], ['a']⟩, ['?'], false⟩
      ['Д', 'а', '.']
  exact ⟨engine, hbuild, hlimit, parts, hne, hflat⟩

end AliceBridge.Server.LongAnswer
