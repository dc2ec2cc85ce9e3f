import Mathlib.Data.List.Flatten
import AliceBridge.Runtime.Session

/-! # What a turn says

The laws of a turn that ends well: its speech is its own deltas, the messages'
tool calls are the house's, and no unverified mutation is claimed. -/
namespace AliceBridge.Runtime.Speech
open AliceBridge.Lib.Utf8 AliceBridge.Lib.Json AliceBridge.Lib.Program
open AliceBridge.Core.Household AliceBridge.Runtime.Protocol AliceBridge.Runtime.Client
open AliceBridge.Runtime.Codex AliceBridge.Runtime.Wire AliceBridge.Runtime.Collector
open AliceBridge.Runtime.Session

def isDelta (message : Value) : Bool :=
  decide ((methodOf message).bind Value.asStr = some agentMessageDelta) && (idOf message).isNone

/-- The text of a delta, and nothing for any other message. -/
def deltaOf (message : Value) : Text :=
  if isDelta message then (stringAt message ["params", "delta"]).getD [] else []

/-- The deltas in the order they came. -/
def speech (messages : List Value) : Text := messages.flatMap deltaOf

def Unconfirmed (message : Value) : Prop := IsMutation message ∧ ¬ Confirmed message

/-! ## The messages before the completion -/

section Messages

variable {threadId turnId : Text} {homeyConnector : Option Text} {message : Value}

theorem isDelta_iff : isDelta message = true ↔ IsNotification agentMessageDelta message := by
  unfold isDelta
  rw [isNotification_asStr, Bool.and_eq_true, decide_eq_true_iff, Option.isNone_iff_eq_none]

theorem notification_unique {method method' : Text} (h : IsNotification method message)
    (h' : IsNotification method' message) : method = method' :=
  Value.string.inj (Option.some.inj (h.1.symm.trans h'.1))

theorem deltaOf_other {method : Text} (h : IsNotification method message)
    (hmethod : method ≠ agentMessageDelta) : deltaOf message = [] := by
  have hdelta : isDelta message = false := by
    rw [Bool.eq_false_iff]
    intro hdelta
    exact hmethod (notification_unique h (isDelta_iff.mp hdelta))
  unfold deltaOf
  rw [if_neg (by rw [hdelta]; exact Bool.false_ne_true)]

theorem unconfirmed_method {method : Text} (h : IsNotification method message)
    (hmethod : method ≠ itemCompleted) : ¬ Unconfirmed message :=
  fun hbad => hmethod (notification_unique h hbad.1.1)

theorem observed_brings {unverified : Bool} (hitem : IsNotification itemCompleted message)
    (h : Observed threadId turnId homeyConnector message unverified) :
    unverified = true ↔ Unconfirmed message := by
  cases h with
  | plain _ hplain =>
    constructor
    · intro hfalse
      cases hfalse
    · intro hbad
      exact absurd hbad.1.2.1 hplain
  | @reading tool _ _ _ htool hreading =>
    have hother : tool ≠ setDeviceCapability := by
      intro hset
      rw [hset] at hreading
      exact absurd hreading (by decide)
    constructor
    · intro hfalse
      cases hfalse
    · intro hbad
      exact absurd (Option.some.inj (htool.symm.trans hbad.1.2.2)) hother
  | mutation _ hcall _ htool hconfirmed =>
    rw [← Bool.not_eq_false, hconfirmed]
    constructor
    · intro hbad
      exact ⟨⟨hitem, hcall, htool⟩, hbad⟩
    · intro hbad
      exact hbad.2

/-- The speech that a tolerated message brings, and whether it is an unconfirmed mutation. -/
theorem tolerated_brings {text : Text} {unverified : Bool}
    (h : Tolerated threadId turnId homeyConnector message text unverified) :
    text = deltaOf message ∧ (unverified = true ↔ Unconfirmed message) := by
  cases h with
  | declined hid =>
    have hnotification {method : Text} : ¬ IsNotification method message := by
      intro h
      rw [h.2] at hid
      cases hid
    constructor
    · have hdelta : isDelta message = false :=
        Bool.eq_false_iff.mpr fun hdelta => hnotification (isDelta_iff.mp hdelta)
      unfold deltaOf
      rw [if_neg (by rw [hdelta]; exact Bool.false_ne_true)]
    · exact iff_of_false Bool.false_ne_true fun hbad => hnotification hbad.1.1
  | delta hdelta _ htext =>
    constructor
    · unfold deltaOf
      rw [if_pos (isDelta_iff.mpr hdelta), htext]
      rfl
    · exact iff_of_false Bool.false_ne_true (unconfirmed_method hdelta (by decide))
  | item hitem hobserved =>
    exact ⟨(deltaOf_other hitem (by decide)).symm, observed_brings hitem hobserved⟩
  | other hother hdelta hitem =>
    exact ⟨(deltaOf_other hother hdelta).symm,
      iff_of_false Bool.false_ne_true (unconfirmed_method hother hitem)⟩

/-! ## A whole turn -/

/-- A turn is tolerated messages and its completion; these decide what it says. -/
structure TurnOf (threadId turnId : Text) (homeyConnector : Option Text) (collected : Collected)
    (before : List Value) (completion : Value) (text : Text) : Prop where
  tolerated : ∀ message ∈ before, ∃ delta unverified,
    Tolerated threadId turnId homeyConnector message delta unverified
  completes : Completes threadId turnId completion
  unconfirmed : (collected.unverifiedHomeyMutation = true ∨
    ∃ message ∈ before, Unconfirmed message) → text = unconfirmed
  spoken : collected.unverifiedHomeyMutation = false →
    (∀ message ∈ before, ¬ Unconfirmed message) →
    text = collected.assistantText ++ speech before ∧ text ≠ []

theorem gathers_turn {collected : Collected} {messages : List Value} {text : Text}
    (h : Gathers threadId turnId homeyConnector collected messages text) :
    ∃ before completion, messages = before ++ [completion] ∧
      TurnOf threadId turnId homeyConnector collected before completion text := by
  induction h with
  | done hcompletes hsays =>
    refine ⟨[], _, rfl, by simp, hcompletes, ?_, ?_⟩
    · intro hbad
      cases hsays with
      | unconfirmed => rfl
      | spoken hverified =>
        rw [hverified] at hbad
        simp at hbad
    · intro hverified _
      cases hsays with
      | unconfirmed hunverified =>
        rw [hverified] at hunverified
        cases hunverified
      | spoken _ htext => exact ⟨by simp [speech], htext⟩
  | @more collected message messages delta text unverified htolerated _ ih =>
    obtain ⟨before, completion, rfl, hturn⟩ := ih
    obtain ⟨hdelta, hunverified⟩ := tolerated_brings htolerated
    refine ⟨message :: before, completion, rfl, ?_, hturn.completes, ?_, ?_⟩
    · intro other hother
      cases hother with
      | head => exact ⟨delta, unverified, htolerated⟩
      | tail _ hother => exact hturn.tolerated other hother
    · intro hbad
      refine hturn.unconfirmed ?_
      rw [Bool.or_eq_true]
      rcases hbad with hbad | ⟨other, hother, hbad⟩
      · exact .inl (.inl hbad)
      · cases hother with
        | head => exact .inl (.inr (hunverified.mpr hbad))
        | tail _ hother => exact .inr ⟨other, hother, hbad⟩
    · intro hverified hgood
      have hmessage : unverified = false := by
        rw [← Bool.not_eq_true, hunverified]
        exact hgood message List.mem_cons_self
      obtain ⟨htext, hne⟩ := hturn.spoken (by rw [hverified, hmessage]; rfl)
        fun other hother => hgood other (List.mem_cons_of_mem _ hother)
      refine ⟨?_, hne⟩
      rw [htext, hdelta, List.append_assoc]
      rfl

theorem turn_gathers {collected : Collected} {before : List Value} {completion : Value}
    (htolerated : ∀ message ∈ before, ∃ delta unverified,
      Tolerated threadId turnId homeyConnector message delta unverified)
    (hcompletes : Completes threadId turnId completion)
    (hspeech : collected.unverifiedHomeyMutation = true ∨
      (∃ message ∈ before, Unconfirmed message) ∨
      collected.assistantText ++ speech before ≠ []) :
    ∃ text, Gathers threadId turnId homeyConnector collected (before ++ [completion]) text := by
  induction before generalizing collected with
  | nil =>
    cases hverified : collected.unverifiedHomeyMutation with
    | true => exact ⟨_, .done hcompletes (.unconfirmed hverified)⟩
    | false =>
      rw [hverified] at hspeech
      have htext : collected.assistantText ≠ [] := by simpa [speech] using hspeech
      exact ⟨_, .done hcompletes (.spoken hverified htext)⟩
  | cons message before ih =>
    obtain ⟨delta, unverified, hmessage⟩ := htolerated message List.mem_cons_self
    obtain ⟨hdelta, hunverified⟩ := tolerated_brings hmessage
    have hrest : (collected.unverifiedHomeyMutation || unverified) = true ∨
        (∃ message ∈ before, Unconfirmed message) ∨
        collected.assistantText ++ delta ++ speech before ≠ [] := by
      rw [Bool.or_eq_true, List.append_assoc, hdelta]
      rcases hspeech with hbad | ⟨other, hother, hbad⟩ | htext
      · exact .inl (.inl hbad)
      · cases hother with
        | head => exact .inl (.inr (hunverified.mpr hbad))
        | tail _ hother => exact .inr (.inl ⟨other, hother, hbad⟩)
      · exact .inr (.inr htext)
    have hbefore := fun other hother => htolerated other (List.mem_cons_of_mem _ hother)
    obtain ⟨text, hgathers⟩ := @ih ⟨collected.assistantText ++ delta,
      collected.unverifiedHomeyMutation || unverified⟩ hbefore hrest
    exact ⟨text, .more hmessage hgathers⟩

end Messages

/-! ## The laws -/

section Laws

variable {transport : Transport} {threadId turnId : Text} {homeyConnector : Option Text}

/-- A collection that ends well is one turn out of the available messages. -/
theorem collectTurn_turn {text : Text} {c c' : JsonRpcClient}
    (h : Runs (collectTurn transport threadId turnId homeyConnector) c (.ok text) c') :
    ∃ es before completion, c'.log = c.log ++ es ∧ consumed es = before ++ [completion] ∧
      consumed es <+: available c ∧
      TurnOf threadId turnId homeyConnector ⟨[], false⟩ before completion text := by
  obtain ⟨es, hlog, hprefix, hgathers⟩ := collectTurn_gathers h
  obtain ⟨before, completion, hconsumed, hturn⟩ := gathers_turn hgathers
  exact ⟨es, before, completion, hlog, hconsumed, hprefix, hturn⟩

end Laws

/-- The model's words are never returned over an unverified device mutation, wherever
among the turn's messages it was. -/
theorem mutations_verified {runtime : CodexRuntime} {transport : Transport}
    {house : HouseContext} {incoming : Incoming} {threadId utterance text : Text}
    (h : (outcome (runtime.turnWith transport house threadId utterance) incoming).1 = .ok text)
    (htext : text ≠ unconfirmed) :
    ∀ message ∈ consumed
      (outcome (runtime.turnWith transport house threadId utterance) incoming).2.log,
      IsMutation message → Confirmed message := by
  have hruns := outcome_runs (runtime.turnWith transport house threadId utterance) incoming
  rw [h] at hruns
  rcases turnWith_session hruns with ⟨hr, -⟩ | ⟨connector, -, hsession⟩
  · cases hr
  · cases hsession with
    | unopened hr => cases hr
    | unstarted hr => cases hr
    | started hopening hexchange hlog hcollect =>
      obtain ⟨es, before, completion, hlog', hconsumed, -, hturn⟩ := collectTurn_turn hcollect
      rw [hlog', hlog, consumed_append, consumed_append, (opening_sent hopening).2,
        exchange_consumed hexchange, hconsumed]
      intro message hmessage hmutation
      by_contra hbad
      rw [List.nil_append, List.nil_append, List.mem_append, List.mem_singleton] at hmessage
      rcases hmessage with hmessage | rfl
      · exact htext (hturn.unconfirmed (.inr ⟨message, hmessage, hmutation, hbad⟩))
      · exact absurd (notification_unique hmutation.1 hturn.completes.notification) (by decide)

/-! A short turn, as the peer could send it. -/

def ofTurn (method : Text) (fields : List (Text × Value)) : Value :=
  .object [("method".toList, .string method), ("params".toList, .object
    ([("threadId".toList, .string "t".toList), ("turnId".toList, .string "u".toList)] ++ fields))]

def someDelta : Value := ofTurn agentMessageDelta [("delta".toList, .string "ok".toList)]

def someCall (fields : List (Text × Value)) : Value :=
  ofTurn itemCompleted [("item".toList,
    .object (("type".toList, .string "mcpToolCall".toList) :: fields))]

def someCompletion : Value :=
  .object [("method".toList, .string turnCompleted), ("params".toList, .object [
    ("threadId".toList, .string "t".toList),
    ("turn".toList, .object [("id".toList, .string "u".toList),
      ("status".toList, .string "completed".toList)])])]

def verifiedCall : Value :=
  someCall [("server".toList, .string "homey-1".toList),
    ("tool".toList, .string setDeviceCapability),
    ("status".toList, .string "completed".toList),
    ("result".toList, .object [("structuredContent".toList,
      .object [("verified".toList, .bool true)])])]

def response (id : Nat) (result : Value) : Value :=
  .object [("id".toList, .ofNat id), ("result".toList, result)]

def resumedThread : Value :=
  .object [
    ("thread".toList, .object [("id".toList, .string "t".toList)]),
    ("activePermissionProfile".toList, .object [("id".toList, .string "p1".toList)]),
    ("sandbox".toList, .object [("type".toList, .string "readOnly".toList)])]

/-- The call is notified before `turn/start` is answered. -/
def verifiedTurn : Incoming :=
  [.ok (response 1 (.object [])), .ok (response 2 resumedThread), .ok verifiedCall,
    .ok (response 3 (.object [("turn".toList, .object [("id".toList, .string "u".toList)])])),
    .ok someDelta, .ok someCompletion]

def someRuntime : CodexRuntime :=
  ⟨⟨"/s".toList, "/h".toList, "p".toList, true⟩, rfl, rfl, rfl⟩

def someHouse : HouseContext := ⟨1, [], none, "homey-1".toList⟩

theorem mutations_verified_buffered :
    verifiedCall ∈ consumed (outcome (someRuntime.turnWith accepting someHouse "t".toList
      "hi".toList) verifiedTurn).2.log ∧ Confirmed verifiedCall := by
  have hmem : verifiedCall ∈ consumed (outcome (someRuntime.turnWith accepting someHouse
      "t".toList "hi".toList) verifiedTurn).2.log := List.mem_cons_self
  have hspoken : (outcome (someRuntime.turnWith accepting someHouse "t".toList "hi".toList)
      verifiedTurn).1 = .ok "ok".toList := rfl
  exact ⟨hmem, mutations_verified hspoken (by decide) verifiedCall hmem ⟨⟨rfl, rfl⟩, rfl, rfl⟩⟩

/-- A delta, item or completion that is not this turn's, or lacks its fields. -/
inductive Misplaced (threadId turnId : Text) (message : Value) : Prop
  | delta : IsNotification agentMessageDelta message →
      ¬ (OfTurn threadId turnId message ∧
        ∃ text, stringAt message ["params", "delta"] = some text) →
      Misplaced threadId turnId message
  | item : IsNotification itemCompleted message → ¬ OfTurn threadId turnId message →
      Misplaced threadId turnId message
  | completion : IsNotification turnCompleted message → ¬ Completes threadId turnId message →
      Misplaced threadId turnId message

theorem tolerated_placed {threadId turnId : Text} {homeyConnector : Option Text}
    {message : Value} {text : Text} {unverified : Bool}
    (h : Tolerated threadId turnId homeyConnector message text unverified) :
    ¬ Misplaced threadId turnId message := by
  intro hbad
  cases h with
  | declined hid =>
    cases hbad with
    | delta hn | item hn | completion hn =>
      rw [hn.2] at hid
      cases hid
  | delta hdelta hturn htext =>
    cases hbad with
    | delta _ hbad => exact hbad ⟨hturn, _, htext⟩
    | item hn | completion hn => exact absurd (notification_unique hdelta hn) (by decide)
  | item hitem hobserved =>
    have hturn : OfTurn threadId turnId message := by
      cases hobserved <;> assumption
    cases hbad with
    | item _ hbad => exact hbad hturn
    | delta hn | completion hn => exact absurd (notification_unique hitem hn) (by decide)
  | other hother hdelta hitem hcompleted =>
    cases hbad with
    | delta hn => exact hdelta (notification_unique hother hn)
    | item hn => exact hitem (notification_unique hother hn)
    | completion hn => exact hcompleted (notification_unique hother hn)

theorem completes_placed {threadId turnId : Text} {message : Value}
    (h : Completes threadId turnId message) : ¬ Misplaced threadId turnId message := by
  intro hbad
  cases hbad with
  | delta hn | item hn => exact absurd (notification_unique h.notification hn) (by decide)
  | completion _ hbad => exact hbad h

theorem delta_of_turn {threadId turnId : Text} {homeyConnector : Option Text} {message : Value}
    {text : Text} {unverified : Bool} (hdelta : isDelta message = true)
    (h : Tolerated threadId turnId homeyConnector message text unverified) :
    OfTurn threadId turnId message ∧
      stringAt message ["params", "delta"] = some (deltaOf message) := by
  have hn := isDelta_iff.mp hdelta
  have hplaced := tolerated_placed h
  by_cases hturn : OfTurn threadId turnId message ∧
      ∃ text, stringAt message ["params", "delta"] = some text
  · obtain ⟨hof, text, htext⟩ := hturn
    unfold deltaOf
    rw [if_pos hdelta, htext]
    exact ⟨hof, rfl⟩
  · exact absurd (.delta hn hturn) hplaced

/-- A text other than the fixed phrase is the deltas of this turn, in the order they came,
before this turn's completion; without that completion, or with a misplaced message among
those consumed, the collection fails. -/
theorem speech_of_this_turn (transport : Transport) (threadId turnId : Text)
    (homeyConnector : Option Text) (client : JsonRpcClient) :
    let result := (collectTurn transport threadId turnId homeyConnector).exec client
    (∀ text, result.1 = .ok text → text ≠ unconfirmed →
      ∃ es before completion, result.2.log = client.log ++ es ∧
        consumed es = before ++ [completion] ∧ consumed es <+: available client ∧
        text ≠ [] ∧ text = speech before ∧ Completes threadId turnId completion ∧
        ∀ message ∈ before, isDelta message = true → OfTurn threadId turnId message ∧
          stringAt message ["params", "delta"] = some (deltaOf message)) ∧
    ((∀ message ∈ available client, ¬ Completes threadId turnId message) →
      result.1.isOk = false) ∧
    ∃ es, result.2.log = client.log ++ es ∧
      ((∃ message ∈ consumed es, Misplaced threadId turnId message) → result.1.isOk = false) := by
  intro result
  have hruns : Runs (collectTurn transport threadId turnId homeyConnector) client result.1
      result.2 := rfl
  refine ⟨?_, ?_, ?_⟩
  · intro text hok htext
    rw [hok] at hruns
    obtain ⟨es, before, completion, hlog, hconsumed, hprefix, hturn⟩ := collectTurn_turn hruns
    have hgood : ∀ message ∈ before, ¬ Unconfirmed message :=
      fun message hmessage hbad => htext (hturn.unconfirmed (.inr ⟨message, hmessage, hbad⟩))
    obtain ⟨hspeech, hne⟩ := hturn.spoken rfl hgood
    refine ⟨es, before, completion, hlog, hconsumed, hprefix, hne, hspeech, hturn.completes, ?_⟩
    intro message hmessage hdelta
    obtain ⟨delta, unverified, htolerated⟩ := hturn.tolerated message hmessage
    exact delta_of_turn hdelta htolerated
  · intro hnone
    cases hr : result.1 with
    | error e => rfl
    | ok text =>
      rw [hr] at hruns
      obtain ⟨es, before, completion, -, hconsumed, hprefix, hturn⟩ := collectTurn_turn hruns
      have hmem : completion ∈ available client := hprefix.subset (by simp [hconsumed])
      exact absurd hturn.completes (hnone completion hmem)
  · cases hr : result.1 with
    | error e =>
      obtain ⟨-, es, hlog, -⟩ := mute_collectTurn _ _ _ _ trivial hruns
      exact ⟨es, hlog, fun _ => rfl⟩
    | ok text =>
      rw [hr] at hruns
      obtain ⟨es, before, completion, hlog, hconsumed, -, hturn⟩ := collectTurn_turn hruns
      refine ⟨es, hlog, ?_⟩
      intro ⟨message, hmessage, hbad⟩
      rw [hconsumed, List.mem_append, List.mem_singleton] at hmessage
      rcases hmessage with hmessage | rfl
      · obtain ⟨delta, unverified, htolerated⟩ := hturn.tolerated message hmessage
        exact absurd hbad (tolerated_placed htolerated)
      · exact absurd hbad (completes_placed hturn.completes)

/-! ## The tools of a turn -/

def allowedTools : List Text := setDeviceCapability :: readingTools

/-- A completed tool call, as the collector takes it into account. -/
def IsCall (message : Value) : Prop := IsNotification itemCompleted message ∧ IsToolCall message

/-- The call was one of the house's own allowed tools. -/
def OwnCall (homeyConnector : Option Text) (message : Value) : Prop :=
  (∃ connector, homeyConnector = some connector ∧ serverOf message = some connector) ∧
    ∃ tool ∈ allowedTools, toolOf message = some tool

/-- No turn over these messages is completed, with something to say, after a tool call. -/
def CallFree (threadId turnId : Text) (messages : List Value) : Prop :=
  ∀ before completion rest, messages = before ++ completion :: rest →
    (∀ message ∈ before, ∃ delta unverified,
      Tolerated threadId turnId none message delta unverified) →
    Completes threadId turnId completion →
    (speech before ≠ [] ∨ ∃ message ∈ before, Unconfirmed message) →
    ∀ message ∈ before, ¬ IsCall message

theorem tolerated_call {threadId turnId : Text} {homeyConnector : Option Text} {message : Value}
    {text : Text} {unverified : Bool}
    (h : Tolerated threadId turnId homeyConnector message text unverified)
    (hcall : IsCall message) :
    serverOf message = homeyConnector ∧ ∃ tool ∈ allowedTools, toolOf message = some tool := by
  obtain ⟨hitem, hcall⟩ := hcall
  cases h with
  | declined hid =>
    rw [hitem.2] at hid
    cases hid
  | delta hn => exact absurd (notification_unique hitem hn) (by decide)
  | other hn _ hother => exact absurd (notification_unique hn hitem) hother
  | item _ hobserved =>
    cases hobserved with
    | plain _ hplain => exact absurd hcall hplain
    | reading _ _ hserver htool hreading =>
      have hmem := List.contains_iff_mem.mp hreading
      exact ⟨hserver, _, List.mem_cons_of_mem _ hmem, htool⟩
    | mutation _ _ hserver htool => exact ⟨hserver, _, List.mem_cons_self, htool⟩

/-- Every tool call of a successful turn is the house's own, exactly when Homey is
configured, or no call comes before the completion of a turn. -/
theorem calls_own_iff (threadId turnId : Text) (homeyConnector : Option Text)
    (client : JsonRpcClient) :
    (∀ transport text client' es,
      Runs (collectTurn transport threadId turnId homeyConnector) client (.ok text) client' →
      client'.log = client.log ++ es →
      ∀ message ∈ consumed es, IsCall message → OwnCall homeyConnector message) ↔
    homeyConnector ≠ none ∨ CallFree threadId turnId (available client) := by
  constructor
  · intro hlaw
    by_cases hnone : homeyConnector = none
    · subst hnone
      refine .inr ?_
      intro before completion rest hsplit htolerated hcompletes hspeech message hmessage hcall
      obtain ⟨text, hgathers⟩ := @turn_gathers _ _ _ ⟨[], false⟩ _ _ htolerated hcompletes
        (.inr hspeech.symm)
      have hprefix : before ++ [completion] <+: available client := by
        rw [hsplit]
        exact ⟨rest, by simp⟩
      obtain ⟨es, client', hruns, hlog, hconsumed⟩ := gathers_collectTurn hgathers hprefix
      have hmem : message ∈ consumed es := by
        rw [hconsumed]
        exact List.mem_append_left _ hmessage
      obtain ⟨⟨_, hconnector, _⟩, -⟩ := hlaw accepting text client' es hruns hlog message hmem hcall
      cases hconnector
    · exact .inl hnone
  · intro hcondition transport text client' es hruns hlog message hmessage hcall
    obtain ⟨es', before, completion, hlog', hconsumed, hprefix, hturn⟩ := collectTurn_turn hruns
    obtain rfl := List.append_cancel_left (hlog.symm.trans hlog')
    rw [hconsumed, List.mem_append, List.mem_singleton] at hmessage
    rcases hmessage with hmessage | rfl
    · obtain ⟨delta, unverified, htolerated⟩ := hturn.tolerated message hmessage
      obtain ⟨hserver, htool⟩ := tolerated_call htolerated hcall
      cases homeyConnector with
      | some connector => exact ⟨⟨connector, rfl, hserver⟩, htool⟩
      | none =>
        have hfree := hcondition.resolve_left (not_not.mpr rfl)
        obtain ⟨rest, hrest⟩ := hprefix
        rw [hconsumed, List.append_assoc] at hrest
        have hspeech : speech before ≠ [] ∨ ∃ message ∈ before, Unconfirmed message := by
          by_cases hbad : ∃ message ∈ before, Unconfirmed message
          · exact .inr hbad
          · have hgood : ∀ message ∈ before, ¬ Unconfirmed message :=
              fun other hother hunconfirmed => hbad ⟨other, hother, hunconfirmed⟩
            obtain ⟨htext, hne⟩ := hturn.spoken rfl hgood
            exact .inl fun hempty => hne (htext.trans hempty)
        exact absurd hcall
          (hfree before completion rest hrest.symm hturn.tolerated hturn.completes hspeech message
            hmessage)
    · exact absurd (notification_unique hcall.1 hturn.completes.notification) (by decide)

def serverlessCall : Value := someCall [("tool".toList, .string "get_device_state".toList)]

def serverlessTurn : Incoming := [.ok serverlessCall, .ok someDelta, .ok someCompletion]

/-- Without Homey, a call that names no server is compared with no connector, and passes. -/
theorem serverless_call_passes :
    ¬ ∀ (transport : Transport) (threadId turnId : Text) (homeyConnector : Option Text)
      (client client' : JsonRpcClient) (text : Text) (es : List Event),
      Runs (collectTurn transport threadId turnId homeyConnector) client (.ok text) client' →
      client'.log = client.log ++ es →
      ∀ message ∈ consumed es, IsCall message → OwnCall homeyConnector message := by
  intro hlaw
  have hown := hlaw accepting "t".toList "u".toList none (.connect serverlessTurn) _ "ok".toList _
    rfl rfl serverlessCall List.mem_cons_self ⟨⟨rfl, rfl⟩, rfl⟩
  obtain ⟨⟨_, hconnector, _⟩, -⟩ := hown
  cases hconnector

/-! ## The final message -/

/-- The item a delta belongs to. -/
def itemOf (message : Value) : Option Text := stringAt message ["params", "itemId"]

/-- The item of the last delta: a turn ends with its final message. -/
def finalItem (messages : List Value) : Option (Option Text) :=
  (messages.filter isDelta).getLast?.map itemOf

/-- The deltas of the final message alone. -/
def finalSpeech (messages : List Value) : Text :=
  speech (messages.filter fun message => decide (some (itemOf message) = finalItem messages))

theorem speech_filter_length (p : Value → Bool) (messages : List Value) :
    (speech (messages.filter p)).length ≤ (speech messages).length :=
  (List.filter_sublist.flatMap deltaOf).length_le

/-- A part of the messages speaks for all of them when the others are silent. -/
theorem speech_filter_iff (p : Value → Bool) (messages : List Value) :
    speech messages = speech (messages.filter p) ↔
      ∀ message ∈ messages, p message = false → deltaOf message = [] := by
  induction messages with
  | nil => simp [speech]
  | cons message messages ih =>
    have hcons : speech (message :: messages) = deltaOf message ++ speech messages := rfl
    rw [List.forall_mem_cons, ← ih, hcons]
    cases hp : p message with
    | true =>
      have hfilter : speech ((message :: messages).filter p) =
          deltaOf message ++ speech (messages.filter p) := by
        rw [List.filter_cons_of_pos hp]
        rfl
      rw [hfilter, List.append_cancel_left_eq]
      simp
    | false =>
      rw [List.filter_cons_of_neg (by simp [hp])]
      constructor
      · intro hsame
        have hlength := congrArg List.length hsame
        have hle := speech_filter_length p messages
        rw [List.length_append] at hlength
        have hsilent : deltaOf message = [] := List.length_eq_zero_iff.mp (by omega)
        rw [hsilent, List.nil_append] at hsame
        exact ⟨fun _ => hsilent, hsame⟩
      · intro ⟨hsilent, hrest⟩
        rw [hsilent rfl, List.nil_append, hrest]

/-- The words of the model are those of its final message exactly when its other
messages brought no text. -/
theorem final_message_spoken_iff {transport : Transport} {threadId turnId text : Text}
    {homeyConnector : Option Text} {client client' : JsonRpcClient} {es : List Event}
    (h : Runs (collectTurn transport threadId turnId homeyConnector) client (.ok text) client')
    (hlog : client'.log = client.log ++ es)
    (hmodel : ∀ message ∈ consumed es, ¬ Unconfirmed message) :
    text = finalSpeech (consumed es) ↔ ∀ message ∈ consumed es,
      some (itemOf message) ≠ finalItem (consumed es) → deltaOf message = [] := by
  obtain ⟨es', before, completion, hlog', hconsumed, -, hturn⟩ := collectTurn_turn h
  obtain rfl := List.append_cancel_left (hlog.symm.trans hlog')
  have htext : text = speech (consumed es) := by
    have hbefore := fun message hmessage =>
      hmodel message (by rw [hconsumed]; exact List.mem_append_left _ hmessage)
    have hsilent : deltaOf completion = [] :=
      deltaOf_other hturn.completes.notification (by decide)
    rw [(hturn.spoken rfl hbefore).1, hconsumed]
    simp [speech, hsilent]
  rw [htext]
  unfold finalSpeech
  rw [speech_filter_iff]
  simp only [decide_eq_false_iff_not, ne_eq]

def itemDelta (item delta : Text) : Value :=
  ofTurn agentMessageDelta [("itemId".toList, .string item), ("delta".toList, .string delta)]

theorem itemDelta_model (item delta : Text) : ¬ Unconfirmed (itemDelta item delta) := by
  have hdelta : IsNotification agentMessageDelta (itemDelta item delta) := ⟨rfl, rfl⟩
  exact unconfirmed_method hdelta (by decide)

theorem someCompletion_model : ¬ Unconfirmed someCompletion := by
  have hcompletion : IsNotification turnCompleted someCompletion := ⟨rfl, rfl⟩
  exact unconfirmed_method hcompletion (by decide)

/-- A collection of these messages for thread "t" and turn "u". -/
def collection (messages : List Value) : Except CodexRuntimeError Text × JsonRpcClient :=
  (collectTurn accepting "t".toList "u".toList none).exec (.connect (messages.map .ok))

def singleTurn : List Value := [itemDelta "i".toList "ok".toList, someCompletion]

theorem final_message_spoken_iff_single :
    (collection singleTurn).1 = .ok "ok".toList ∧
      "ok".toList = finalSpeech (consumed (collection singleTurn).2.log) := by
  have hruns : Runs (collectTurn accepting "t".toList "u".toList none)
      (.connect (singleTurn.map .ok)) (.ok "ok".toList) (collection singleTurn).2 := rfl
  refine ⟨rfl, (final_message_spoken_iff hruns rfl ?_).mpr ?_⟩
  · intro message hmessage
    rcases List.mem_pair.mp hmessage with rfl | rfl
    · exact itemDelta_model _ _
    · exact someCompletion_model
  · intro message hmessage hother
    rcases List.mem_pair.mp hmessage with rfl | rfl
    · exact absurd rfl hother
    · rfl

/-- The words before a tool call, and the answer after it. -/
def twoMessages : List Value :=
  [itemDelta "i".toList "a".toList, itemDelta "j".toList "b".toList, someCompletion]

theorem both_messages_spoken :
    ¬ ∀ (transport : Transport) (threadId turnId : Text) (homeyConnector : Option Text)
      (client client' : JsonRpcClient) (text : Text) (es : List Event),
      Runs (collectTurn transport threadId turnId homeyConnector) client (.ok text) client' →
      client'.log = client.log ++ es → (∀ message ∈ consumed es, ¬ Unconfirmed message) →
      text = finalSpeech (consumed es) := by
  intro hlaw
  have hmodel : ∀ message ∈ twoMessages, ¬ Unconfirmed message := by
    intro message hmessage
    rcases List.mem_cons.mp hmessage with rfl | hmessage
    · exact itemDelta_model _ _
    · rcases List.mem_pair.mp hmessage with rfl | rfl
      · exact itemDelta_model _ _
      · exact someCompletion_model
  have hfinal := hlaw accepting "t".toList "u".toList none (.connect (twoMessages.map .ok))
    (collection twoMessages).2 "ab".toList (collection twoMessages).2.log rfl rfl hmodel
  exact absurd hfinal (by decide)

end AliceBridge.Runtime.Speech
