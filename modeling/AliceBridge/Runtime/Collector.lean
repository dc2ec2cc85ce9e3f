import AliceBridge.Runtime.Wire

/-! # What a turn's speech is made of

The loop of `collect_turn` as a relation (`Gathers`), and from it the law of a
successful turn: all messages before its completion were tolerated, and what
it says is their deltas, or the fixed phrase after an unverified mutation. -/
namespace AliceBridge.Runtime.Collector
open AliceBridge.Lib.Utf8 AliceBridge.Lib.Json AliceBridge.Lib.Program
open AliceBridge.Runtime.Protocol AliceBridge.Runtime.Client AliceBridge.Runtime.Codex
open AliceBridge.Runtime.Wire

/-! ## Messages of a turn -/

/-- A notification of this method. -/
def IsNotification (method : Text) (message : Value) : Prop :=
  methodOf message = some (.string method) ∧ idOf message = none

def OfTurn (threadId turnId : Text) (message : Value) : Prop :=
  stringAt message ["params", "threadId"] = some threadId ∧
    stringAt message ["params", "turnId"] = some turnId

def IsToolCall (message : Value) : Prop :=
  stringAt message ["params", "item", "type"] = some "mcpToolCall".toList

def serverOf (message : Value) : Option Text := stringAt message ["params", "item", "server"]

def toolOf (message : Value) : Option Text := stringAt message ["params", "item", "tool"]

def Confirmed (message : Value) : Prop :=
  stringAt message ["params", "item", "status"] = some "completed".toList ∧
    boolAt message ["params", "item", "result", "structuredContent", "verified"] = some true

/-- A completed call of the mutating tool. -/
def IsMutation (message : Value) : Prop :=
  IsNotification itemCompleted message ∧ IsToolCall message ∧
    toolOf message = some setDeviceCapability

/-- The turn is over, and it is this one. -/
structure Completes (threadId turnId : Text) (message : Value) : Prop where
  notification : IsNotification turnCompleted message
  thread : stringAt message ["params", "threadId"] = some threadId
  turn : stringAt message ["params", "turn", "id"] = some turnId
  status : stringAt message ["params", "turn", "status"] = some "completed".toList

/-- A completed item that is let through, and whether it is an unverified mutation. -/
inductive Observed (threadId turnId : Text) (homeyConnector : Option Text) (message : Value) :
    Bool → Prop
  | plain : OfTurn threadId turnId message → ¬ IsToolCall message →
      Observed threadId turnId homeyConnector message false
  | reading {tool : Text} : OfTurn threadId turnId message → IsToolCall message →
      serverOf message = homeyConnector → toolOf message = some tool →
      readingTools.contains tool = true → Observed threadId turnId homeyConnector message false
  | mutation {unverified : Bool} : OfTurn threadId turnId message → IsToolCall message →
      serverOf message = homeyConnector → toolOf message = some setDeviceCapability →
      (unverified = false ↔ Confirmed message) →
      Observed threadId turnId homeyConnector message unverified

/-- A message the loop goes on after, with the speech it brings and whether it is
an unverified mutation. -/
inductive Tolerated (threadId turnId : Text) (homeyConnector : Option Text) (message : Value) :
    Text → Bool → Prop
  | declined {id : Value} {method : Text} : idOf message = some id →
      methodOf message = some (.string method) → approvals.contains method = true →
      Tolerated threadId turnId homeyConnector message [] false
  | delta {text : Text} : IsNotification agentMessageDelta message →
      OfTurn threadId turnId message → stringAt message ["params", "delta"] = some text →
      Tolerated threadId turnId homeyConnector message text false
  | item {unverified : Bool} : IsNotification itemCompleted message →
      Observed threadId turnId homeyConnector message unverified →
      Tolerated threadId turnId homeyConnector message [] unverified
  | other {method : Text} : IsNotification method message → method ≠ agentMessageDelta →
      method ≠ itemCompleted → method ≠ turnCompleted →
      Tolerated threadId turnId homeyConnector message [] false

section Checks

variable {threadId turnId : Text} {homeyConnector : Option Text} {message : Value}

theorem requireTurn_ok : requireTurn message threadId turnId = .ok () ↔
    OfTurn threadId turnId message := by
  unfold requireTurn OfTurn protocolError
  split
  · next h =>
    simp only [reduceCtorEq, false_iff, not_and_or]
    exact h
  · next h =>
    rw [not_or, not_not, not_not] at h
    exact iff_of_true rfl h

theorem requireCompletedTurn_ok : requireCompletedTurn message threadId turnId = .ok () ↔
    stringAt message ["params", "threadId"] = some threadId ∧
      stringAt message ["params", "turn", "id"] = some turnId ∧
      stringAt message ["params", "turn", "status"] = some "completed".toList := by
  unfold requireCompletedTurn protocolError
  split
  · next h =>
    simp only [reduceCtorEq, false_iff, not_and_or]
    exact h
  · next h =>
    rw [not_or, not_or, not_not, not_not, not_not] at h
    exact iff_of_true rfl h

theorem confirmed_iff :
    (!(callCompleted message && callVerified message)) = false ↔ Confirmed message := by
  rw [Bool.not_eq_false', Bool.and_eq_true]
  refine and_congr decide_eq_true_iff ?_
  unfold callVerified
  generalize boolAt message _ = verified
  cases verified with
  | none => simp
  | some verified => simp

/-- `observe_homey_tool` passes what is `Observed`, and nothing else. -/
theorem observeHomeyTool_ok {before after : Bool} :
    observeHomeyTool message threadId turnId homeyConnector before = .ok after ↔
      ∃ unverified, Observed threadId turnId homeyConnector message unverified ∧
        after = (before || unverified) := by
  constructor
  · intro h
    unfold observeHomeyTool at h
    cases hturn : requireTurn message threadId turnId with
    | error e =>
      rw [hturn] at h
      cases h
    | ok _ =>
      have hof := requireTurn_ok.mp hturn
      rw [hturn] at h
      simp only [bind, Except.bind] at h
      split at h
      · next hplain => exact ⟨false, .plain hof hplain, by simpa using (Except.ok.inj h).symm⟩
      · next hcall =>
        have hcall : IsToolCall message := not_not.mp hcall
        split at h
        · cases h
        · next hserver =>
          have hserver : serverOf message = homeyConnector := not_not.mp hserver
          split at h
          · cases h
          · next tool htool =>
            split at h
            · next hreading =>
              refine ⟨false, .reading hof hcall hserver htool hreading, ?_⟩
              simpa using (Except.ok.inj h).symm
            · split at h
              · next hset =>
                refine ⟨_, .mutation hof hcall hserver (hset ▸ htool) ?_, (Except.ok.inj h).symm⟩
                exact confirmed_iff
              · cases h
  · intro ⟨unverified, hobserved, hafter⟩
    have hof : OfTurn threadId turnId message := by
      cases hobserved <;> assumption
    unfold observeHomeyTool
    rw [requireTurn_ok.mpr hof]
    show (if _ then _ else _) = _
    cases hobserved with
    | plain _ hplain =>
      unfold IsToolCall at hplain
      rw [if_pos hplain, hafter, Bool.or_false]
      rfl
    | reading _ hcall hserver htool hreading =>
      unfold IsToolCall at hcall
      unfold serverOf at hserver
      unfold toolOf at htool
      rw [if_neg (not_not.mpr hcall), if_neg (not_not.mpr hserver), htool]
      simp only [if_pos hreading, hafter, Bool.or_false]
      rfl
    | mutation _ hcall hserver htool hconfirmed =>
      unfold IsToolCall at hcall
      unfold serverOf at hserver
      unfold toolOf at htool
      rw [if_neg (not_not.mpr hcall), if_neg (not_not.mpr hserver), htool]
      have hset : readingTools.contains setDeviceCapability = false := by decide
      have hflag : (!(callCompleted message && callVerified message)) = unverified :=
        Bool.eq_iff_iff.mpr (not_iff_not.mp (by simpa using confirmed_iff.trans hconfirmed.symm))
      simp only [hset, hflag, hafter]
      rfl

end Checks

/-! ## One message -/

/-- What a completed turn says: its text, unless a mutation was not verified. -/
inductive Says : Collected → Text → Prop
  | unconfirmed {collected : Collected} : collected.unverifiedHomeyMutation = true →
      Says collected unconfirmed
  | spoken {collected : Collected} : collected.unverifiedHomeyMutation = false →
      collected.assistantText ≠ [] → Says collected collected.assistantText

/-- What one message does to the collection. -/
inductive Takes (threadId turnId : Text) (homeyConnector : Option Text) (collected : Collected)
    (message : Value) : Progress → Prop
  | more {text : Text} {unverified : Bool} :
      Tolerated threadId turnId homeyConnector message text unverified →
      Takes threadId turnId homeyConnector collected message
        (.more ⟨collected.assistantText ++ text, collected.unverifiedHomeyMutation || unverified⟩)
  | done {text : Text} : Completes threadId turnId message → Says collected text →
      Takes threadId turnId homeyConnector collected message (.done text)

/-- The messages a turn took into its collection. -/
def consumed (log : List Event) : List Value :=
  log.filterMap fun event => match event with
    | .consumed message => some message
    | _ => none

section Consumed

variable (message : Value) (es es' : List Event)

@[simp] theorem consumed_nil : consumed [] = [] := rfl

@[simp] theorem consumed_append : consumed (es ++ es') = consumed es ++ consumed es' :=
  List.filterMap_append

@[simp] theorem consumed_wrote : consumed (.wrote message :: es) = consumed es := rfl

@[simp] theorem consumed_read : consumed (.read message :: es) = consumed es := rfl

@[simp] theorem consumed_consumed :
    consumed (.consumed message :: es) = message :: consumed es := rfl

end Consumed

section Notifications

variable {threadId turnId : Text} {homeyConnector : Option Text} {collected : Collected}
  {message : Value} {progress : Progress}

theorem isNotification_asStr {method : Text} :
    IsNotification method message ↔
      (methodOf message).bind Value.asStr = some method ∧ idOf message = none := by
  unfold IsNotification
  rw [Value.bind_asStr_eq_some]

theorem collectNotification_takes (hid : idOf message = none)
    (h : collectNotification threadId turnId homeyConnector collected message = .ok progress) :
    Takes threadId turnId homeyConnector collected message progress := by
  unfold collectNotification at h
  cases hmethod : (methodOf message).bind Value.asStr with
  | none =>
    rw [hmethod] at h
    cases h
  | some method =>
    have hnotification : IsNotification method message := isNotification_asStr.mpr ⟨hmethod, hid⟩
    rw [hmethod] at h
    simp only at h
    split at h
    · next hdelta =>
      subst hdelta
      cases hturn : requireTurn message threadId turnId with
      | error e =>
        rw [hturn] at h
        cases h
      | ok _ =>
        rw [hturn] at h
        cases htext : stringAt message ["params", "delta"] with
        | none =>
          simp only [bind, Except.bind, htext] at h
          cases h
        | some text =>
          simp only [bind, Except.bind, htext] at h
          obtain rfl := Except.ok.inj h
          have htolerated : Tolerated threadId turnId homeyConnector message text false :=
            .delta hnotification (requireTurn_ok.mp hturn) htext
          simpa using Takes.more htolerated
    · next hdelta =>
      split at h
      · next hitem =>
        subst hitem
        cases hobserve : observeHomeyTool message threadId turnId homeyConnector
            collected.unverifiedHomeyMutation with
        | error e =>
          rw [hobserve] at h
          cases h
        | ok unverified =>
          rw [hobserve] at h
          obtain rfl := Except.ok.inj h
          obtain ⟨unverified, hobserved, rfl⟩ := observeHomeyTool_ok.mp hobserve
          have htolerated := Tolerated.item hnotification hobserved
          simpa using Takes.more htolerated
      · next hitem =>
        split at h
        · next hcompleted =>
          subst hcompleted
          cases hturn : requireCompletedTurn message threadId turnId with
          | error e =>
            rw [hturn] at h
            cases h
          | ok _ =>
            obtain ⟨hthread, hturnId, hstatus⟩ := requireCompletedTurn_ok.mp hturn
            have hcompletes : Completes threadId turnId message :=
              ⟨hnotification, hthread, hturnId, hstatus⟩
            rw [hturn] at h
            simp only [bind, Except.bind] at h
            split at h
            · next hunverified =>
              obtain rfl := Except.ok.inj h
              exact .done hcompletes (.unconfirmed hunverified)
            · next hverified =>
              split at h
              · cases h
              · next htext =>
                obtain rfl := Except.ok.inj h
                exact .done hcompletes (.spoken (by simpa using hverified) (by simpa using htext))
        · next hcompleted =>
          obtain rfl := Except.ok.inj h
          have htolerated : Tolerated threadId turnId homeyConnector message [] false :=
            .other hnotification hdelta hitem hcompleted
          simpa using Takes.more htolerated

theorem takes_collectNotification (hid : idOf message = none)
    (h : Takes threadId turnId homeyConnector collected message progress) :
    collectNotification threadId turnId homeyConnector collected message = .ok progress := by
  unfold collectNotification
  cases h with
  | more htolerated =>
    cases htolerated with
    | declined hsome => exact absurd (hid.symm.trans hsome) (by simp)
    | delta hnotification hturn htext =>
      rw [(isNotification_asStr.mp hnotification).1, requireTurn_ok.mpr hturn]
      simp only [↓reduceIte, htext, Bool.or_false]
      rfl
    | item hnotification hobserved =>
      rw [(isNotification_asStr.mp hnotification).1, observeHomeyTool_ok.mpr ⟨_, hobserved, rfl⟩]
      have hmethod : itemCompleted ≠ agentMessageDelta := by decide
      simp only [if_neg hmethod, ↓reduceIte, List.append_nil]
      rfl
    | other hnotification hdelta hitem hcompleted =>
      rw [(isNotification_asStr.mp hnotification).1]
      simp only [if_neg hdelta, if_neg hitem, if_neg hcompleted, List.append_nil, Bool.or_false]
      rfl
  | done hcompletes hsays =>
    obtain ⟨hnotification, hthread, hturn, hstatus⟩ := hcompletes
    have hdelta : turnCompleted ≠ agentMessageDelta := by decide
    have hitem : turnCompleted ≠ itemCompleted := by decide
    rw [(isNotification_asStr.mp hnotification).1,
      requireCompletedTurn_ok.mpr ⟨hthread, hturn, hstatus⟩]
    simp only [if_neg hdelta, if_neg hitem, ↓reduceIte]
    show (if _ then _ else _) = _
    cases hsays with
    | unconfirmed hunverified =>
      rw [if_pos hunverified]
      rfl
    | spoken hverified htext =>
      rw [if_neg (by simp [hverified]), if_neg (by simpa using htext)]
      rfl

end Notifications

section Messages

variable {transport : Transport} {threadId turnId : Text} {homeyConnector : Option Text}
  {collected : Collected} {message : Value} {progress : Progress} {c c' : JsonRpcClient}

theorem served_consumed {r : Except CodexRuntimeError Unit} {es : List Event}
    (h : Served transport message r es) : consumed es = [] := by
  cases h <;> rfl

/-- A message the loop passes is one it `Takes`; it is no further one that it consumes. -/
theorem collectMessage_takes
    (h : Runs (collectMessage transport threadId turnId homeyConnector collected message) c
      (.ok progress) c') :
    Takes threadId turnId homeyConnector collected message progress ∧
      ∃ es, c'.log = c.log ++ es ∧ consumed es = [] := by
  unfold collectMessage at h
  split at h
  · next hrequest =>
    rw [Bool.and_eq_true] at hrequest
    rcases Runs.bind_iff.mp h with ⟨_, c₁, hserve, hpure⟩ | ⟨_, _, hfail⟩
    · obtain ⟨hprogress, rfl⟩ := Runs.pure_iff.mp hpure
      obtain rfl := Except.ok.inj hprogress
      obtain ⟨es, hserved, rfl⟩ := handle_runs hrequest.2 hserve
      refine ⟨?_, es, rfl, served_consumed hserved⟩
      cases hserved with
      | declined hid hmethod happroval =>
        have htolerated : Tolerated threadId turnId homeyConnector message [] false :=
          .declined hid hmethod happroval
        simpa using Takes.more htolerated
    · cases hfail
  · next hrequest =>
    obtain ⟨hresult, rfl⟩ := check_runs h
    have hmethod : (methodOf message).isSome = true := by
      cases hm : methodOf message with
      | some method => rfl
      | none =>
        unfold collectNotification at hresult
        rw [hm] at hresult
        cases hresult
    have hid : idOf message = none := by simpa [hmethod] using hrequest
    exact ⟨collectNotification_takes hid hresult.symm, [], by simp, rfl⟩

/-- A transport that accepts every write. -/
def accepting : Transport := fun _ _ => none

theorem handle_accepting {id : Value} {method : Text} (hid : idOf message = some id)
    (hmethod : methodOf message = some (.string method))
    (happroval : approvals.contains method = true) :
    Runs (handleServerRequest accepting message) c (.ok ())
      (logged (.wrote (declineMessage id)) c) := by
  unfold handleServerRequest
  simp only [hid, Value.bind_asStr_eq_some.mpr hmethod, if_pos happroval]
  exact Runs.get_bind.mpr (Runs.modify_iff.mpr ⟨rfl, rfl⟩)

theorem takes_collectMessage (c : JsonRpcClient)
    (h : Takes threadId turnId homeyConnector collected message progress) :
    ∃ c', Runs (collectMessage accepting threadId turnId homeyConnector collected message) c
      (.ok progress) c' := by
  unfold collectMessage
  cases hid : idOf message with
  | none =>
    rw [if_neg (by simp), takes_collectNotification hid h]
    exact ⟨c, Runs.pure_iff.mpr ⟨rfl, rfl⟩⟩
  | some id =>
    cases h with
    | done hcompletes => exact absurd (hcompletes.notification.2.symm.trans hid) (by simp)
    | more htolerated =>
      cases htolerated with
      | declined hsome hmethod happroval =>
        rw [if_pos (by simp [hmethod]), List.append_nil, Bool.or_false]
        exact ⟨_, Runs.bind_iff.mpr
          (.inl ⟨(), _, handle_accepting hsome hmethod happroval, Runs.pure_iff.mpr ⟨rfl, rfl⟩⟩)⟩
      | delta hnotification | item hnotification | other hnotification =>
        exact absurd (hnotification.2.symm.trans hid) (by simp)

end Messages

/-! ## The whole loop -/

/-- A turn: messages are taken up to its completion, and then it says the text. -/
inductive Gathers (threadId turnId : Text) (homeyConnector : Option Text) :
    Collected → List Value → Text → Prop
  | done {collected : Collected} {message : Value} {text : Text} :
      Completes threadId turnId message → Says collected text →
      Gathers threadId turnId homeyConnector collected [message] text
  | more {collected : Collected} {message : Value} {messages : List Value} {delta text : Text}
      {unverified : Bool} : Tolerated threadId turnId homeyConnector message delta unverified →
      Gathers threadId turnId homeyConnector ⟨collected.assistantText ++ delta,
        collected.unverifiedHomeyMutation || unverified⟩ messages text →
      Gathers threadId turnId homeyConnector collected (message :: messages) text

/-- The messages the loop can take, up to a failed read. -/
def messagesOf : List Source → List Value
  | [] => []
  | .buffered message :: rest | .live (.ok message) :: rest => message :: messagesOf rest
  | .live (.error _) :: _ => []

section Loop

variable {transport : Transport} {threadId turnId : Text} {homeyConnector : Option Text}
  {collected : Collected} {sources : List Source} {text : Text} {c c' : JsonRpcClient}

theorem takeSource_runs {source : Source} (rest : List Source)
    {r : Except CodexRuntimeError Value} (h : Runs (takeSource source) c r c') :
    match r with
    | .ok message => messagesOf (source :: rest) = message :: messagesOf rest ∧
        ∃ es, c'.log = c.log ++ es ∧ consumed es = []
    | .error _ => c'.log = c.log ∧ messagesOf (source :: rest) = [] := by
  cases source with
  | buffered message =>
    rw [takeSource, Runs.modify_bind] at h
    obtain ⟨rfl, rfl⟩ := Runs.pure_iff.mp h
    exact ⟨rfl, [], by simp, rfl⟩
  | live result =>
    cases result with
    | error error =>
      rw [takeSource, Runs.modify_bind] at h
      obtain ⟨rfl, rfl⟩ := Runs.throw_iff.mp h
      exact ⟨rfl, rfl⟩
    | ok message =>
      rw [takeSource, Runs.modify_bind] at h
      obtain ⟨rfl, rfl⟩ := Runs.pure_iff.mp h
      exact ⟨rfl, [.read message], rfl, rfl⟩

/-- A successful collection consumes exactly the messages of one turn, in the order they came. -/
theorem collectLoop_gathers
    (h : Runs (collectLoop transport threadId turnId homeyConnector sources collected) c
      (.ok text) c') :
    ∃ es, c'.log = c.log ++ es ∧ consumed es <+: messagesOf sources ∧
      Gathers threadId turnId homeyConnector collected (consumed es) text := by
  induction sources generalizing c collected with
  | nil => cases (Runs.throw_iff.mp h).1
  | cons source rest ih =>
    rcases Runs.bind_iff.mp h with ⟨message, c₁, htake, hrest⟩ | ⟨_, _, hfail⟩
    · obtain ⟨hmessage, es₁, hlog₁, hes₁⟩ := takeSource_runs rest htake
      rw [Runs.modify_bind] at hrest
      rcases Runs.bind_iff.mp hrest with ⟨progress, c₂, hcollect, hrest⟩ | ⟨_, _, hfail⟩
      · obtain ⟨htakes, es₂, hlog₂, hes₂⟩ := collectMessage_takes hcollect
        have hconsumed (es : List Event) :
            consumed (es₁ ++ [.consumed message] ++ es₂ ++ es) = message :: consumed es := by
          simp [hes₁, hes₂]
        cases htakes with
        | more htolerated =>
          obtain ⟨es₃, hlog₃, hprefix, hgathers⟩ := ih hrest
          refine ⟨es₁ ++ [.consumed message] ++ es₂ ++ es₃, ?_, ?_, ?_⟩
          · rw [hlog₃, hlog₂]
            simp [logged, hlog₁]
          · rw [hconsumed, hmessage]
            exact List.prefix_cons_inj _ |>.mpr hprefix
          · rw [hconsumed]
            exact .more htolerated hgathers
        | done hcompletes hsays =>
          obtain ⟨htext, rfl⟩ := Runs.pure_iff.mp hrest
          obtain rfl := Except.ok.inj htext
          refine ⟨es₁ ++ [.consumed message] ++ es₂ ++ [], ?_, ?_, ?_⟩
          · rw [hlog₂]
            simp [logged, hlog₁]
          · rw [hconsumed, hmessage]
            exact ⟨_, rfl⟩
          · rw [hconsumed]
            exact .done hcompletes hsays
      · cases hfail
    · cases hfail

theorem takeSource_ok {message : Value} {messages : List Value}
    (h : messagesOf sources = message :: messages) :
    ∃ source rest, sources = source :: rest ∧ messages = messagesOf rest ∧
      ∀ c, ∃ c', Runs (takeSource source) c (.ok message) c' := by
  match sources, h with
  | .buffered first :: rest, h =>
    obtain ⟨rfl, rfl⟩ := List.cons.inj h
    exact ⟨_, rest, rfl, rfl, fun c =>
      ⟨_, Runs.modify_bind.mpr (Runs.pure_iff.mpr ⟨rfl, rfl⟩)⟩⟩
  | .live (.ok first) :: rest, h =>
    obtain ⟨rfl, rfl⟩ := List.cons.inj h
    exact ⟨_, rest, rfl, rfl, fun c =>
      ⟨_, Runs.modify_bind.mpr (Runs.pure_iff.mpr ⟨rfl, rfl⟩)⟩⟩
  | .live (.error _) :: _, h => cases h

/-- One round of the loop on a message that it passes. -/
theorem takes_round {message : Value} {messages : List Value} {progress : Progress}
    (hsources : messagesOf sources = message :: messages)
    (htakes : Takes threadId turnId homeyConnector collected message progress)
    (c : JsonRpcClient) :
    ∃ rest es c₁, messages = messagesOf rest ∧ c₁.log = c.log ++ es ∧ consumed es = [message] ∧
      ∀ r c', Runs (match progress with
          | .more collected =>
            collectLoop accepting threadId turnId homeyConnector rest collected
          | .done text => pure text) c₁ r c' →
        Runs (collectLoop accepting threadId turnId homeyConnector sources collected) c r c' := by
  obtain ⟨source, rest, rfl, hrest, htake⟩ := takeSource_ok hsources
  obtain ⟨c₁, htake⟩ := htake c
  obtain ⟨c₂, hcollect⟩ := takes_collectMessage (logged (.consumed message) c₁) htakes
  obtain ⟨-, es₁, hlog₁, hes₁⟩ := takeSource_runs rest htake
  obtain ⟨-, es₂, hlog₂, hes₂⟩ := collectMessage_takes hcollect
  refine ⟨rest, es₁ ++ [.consumed message] ++ es₂, c₂, hrest, ?_, ?_, ?_⟩
  · rw [hlog₂]
    simp [logged, hlog₁]
  · simp [hes₁, hes₂]
  · intro r c' hnext
    refine Runs.bind_iff.mpr (.inl ⟨_, c₁, htake, ?_⟩)
    refine Runs.modify_bind.mpr ?_
    exact Runs.bind_iff.mpr (.inl ⟨_, c₂, hcollect, hnext⟩)

/-- Every such turn is one that a collection takes, when the writes go through. -/
theorem gathers_collectLoop {messages : List Value}
    (h : Gathers threadId turnId homeyConnector collected messages text)
    (hsources : messages <+: messagesOf sources) (c : JsonRpcClient) :
    ∃ es c', Runs (collectLoop accepting threadId turnId homeyConnector sources collected) c
      (.ok text) c' ∧ c'.log = c.log ++ es ∧ consumed es = messages := by
  induction h generalizing c sources with
  | done hcompletes hsays =>
    obtain ⟨later, hlater⟩ := hsources
    obtain ⟨rest, es, c₁, -, hlog, hes, hround⟩ :=
      takes_round hlater.symm (.done hcompletes hsays) c
    exact ⟨es, c₁, hround _ _ (Runs.pure_iff.mpr ⟨rfl, rfl⟩), hlog, hes⟩
  | more htolerated _ ih =>
    obtain ⟨later, hlater⟩ := hsources
    obtain ⟨rest, es, c₁, hrest, hlog, hes, hround⟩ :=
      takes_round hlater.symm (.more htolerated) c
    obtain ⟨es', c', hloop, hlog', hes'⟩ := ih ⟨later, hrest⟩ c₁
    refine ⟨es ++ es', c', hround _ _ hloop, ?_, ?_⟩
    · rw [hlog', hlog, List.append_assoc]
    · rw [consumed_append, hes, hes']
      rfl

end Loop

/-! ## A whole collection -/

section Collect

variable {transport : Transport} {threadId turnId : Text} {homeyConnector : Option Text}
  {text : Text} {c c' : JsonRpcClient}

/-- The messages a client has buffered and can still read. -/
def available (client : JsonRpcClient) : List Value := messagesOf client.sources

theorem collectTurn_gathers
    (h : Runs (collectTurn transport threadId turnId homeyConnector) c (.ok text) c') :
    ∃ es, c'.log = c.log ++ es ∧ consumed es <+: available c ∧
      Gathers threadId turnId homeyConnector ⟨[], false⟩ (consumed es) text := by
  exact collectLoop_gathers (Runs.get_bind.mp h)

theorem gathers_collectTurn {messages : List Value}
    (h : Gathers threadId turnId homeyConnector ⟨[], false⟩ messages text)
    (havailable : messages <+: available c) :
    ∃ es c', Runs (collectTurn accepting threadId turnId homeyConnector) c (.ok text) c' ∧
      c'.log = c.log ++ es ∧ consumed es = messages := by
  obtain ⟨es, c', hloop, hlog⟩ := gathers_collectLoop h havailable c
  exact ⟨es, c', Runs.get_bind.mpr hloop, hlog⟩

end Collect

end AliceBridge.Runtime.Collector
