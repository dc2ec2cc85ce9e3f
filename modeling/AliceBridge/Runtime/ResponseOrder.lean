import AliceBridge.Runtime.Speech

/-! # When the answer to `turn/start` comes

Messages before the answer go through the loop of `request`, which serves the
server's requests and buffers the rest; messages after it go through the loop of
`collect_turn`. Both loops are stated by what they serve (`Serves`) and gather, and
neither depends on where the answer stood. -/
namespace AliceBridge.Runtime.ResponseOrder
open AliceBridge.Lib.Utf8 AliceBridge.Lib.Json AliceBridge.Lib.Program
open AliceBridge.Core.Household AliceBridge.Runtime.Protocol AliceBridge.Runtime.Client
open AliceBridge.Runtime.Codex AliceBridge.Runtime.Wire AliceBridge.Runtime.Collector
open AliceBridge.Runtime.Session AliceBridge.Runtime.Speech

section Written

variable (message : Value) (es es' : List Event)

@[simp] theorem written_nil : written [] = [] := rfl

@[simp] theorem written_append : written (es ++ es') = written es ++ written es' :=
  List.filterMap_append

@[simp] theorem written_wrote : written (.wrote message :: es) = message :: written es := rfl

@[simp] theorem written_read : written (.read message :: es) = written es := rfl

@[simp] theorem written_consumed : written (.consumed message :: es) = written es := rfl

@[simp] theorem written_map (messages : List Value) :
    written (messages.map .wrote) = messages := by
  induction messages with
  | nil => rfl
  | cons message messages ih => simp [ih]

end Written

/-- Whether a write fails depends on what was written before, not on what was read. -/
def Blind (transport : Transport) : Prop :=
  ∀ log log' message, written log = written log' → transport log message = transport log' message

/-! ## Serving requests -/

/-- The answer to a server request that is let through. -/
def answerTo (message : Value) : Option Value :=
  if isServerRequest message then (idOf message).map declineMessage else none

def Approval (message : Value) : Prop :=
  ∃ id method, idOf message = some id ∧ methodOf message = some (.string method) ∧
    approvals.contains method = true

/-- After these messages were written: a server request is an approval, and its answer
can be written. -/
def Passes (transport : Transport) (earlier : List Value) (message : Value) : Prop :=
  ∀ reply, answerTo message = some reply →
    Approval message ∧ transport (earlier.map .wrote) reply = none

/-- All server requests among the messages pass, one after the other. -/
def Serves (transport : Transport) : List Value → List Value → Prop
  | _, [] => True
  | earlier, message :: messages => Passes transport earlier message ∧
      Serves transport (earlier ++ (answerTo message).toList) messages

def answersTo (messages : List Value) : List Value := messages.filterMap answerTo

def notificationsOf (messages : List Value) : List Value :=
  messages.filter fun message => !isServerRequest message

section Serving

variable {transport : Transport} {earlier : List Value} {message : Value}

theorem answersTo_cons (message : Value) (messages : List Value) :
    answersTo (message :: messages) = (answerTo message).toList ++ answersTo messages := by
  unfold answersTo
  rw [List.filterMap_cons]
  cases answerTo message <;> rfl

@[simp] theorem answersTo_append (a b : List Value) :
    answersTo (a ++ b) = answersTo a ++ answersTo b :=
  List.filterMap_append

theorem answerTo_notification (h : isServerRequest message = false) : answerTo message = none := by
  unfold answerTo
  rw [if_neg (by rw [h]; exact Bool.false_ne_true)]

theorem answerTo_request {id : Value} (h : isServerRequest message = true)
    (hid : idOf message = some id) : answerTo message = some (declineMessage id) := by
  unfold answerTo
  rw [if_pos h, hid]
  rfl

theorem passes_notification (h : isServerRequest message = false) :
    Passes transport earlier message := by
  intro reply hreply
  rw [answerTo_notification h] at hreply
  cases hreply

theorem serves_append {a b : List Value} :
    Serves transport earlier (a ++ b) ↔
      Serves transport earlier a ∧ Serves transport (earlier ++ answersTo a) b := by
  induction a generalizing earlier with
  | nil => simp [Serves, answersTo]
  | cons message a ih =>
    rw [List.cons_append, Serves, Serves, ih, answersTo_cons, List.append_assoc, and_assoc]

theorem notificationsOf_request (a : List Value)
    (h : isServerRequest message = true) : notificationsOf (message :: a) = notificationsOf a :=
  List.filter_cons_of_neg (by simp [h])

theorem notificationsOf_notification (a : List Value)
    (h : isServerRequest message = false) :
    notificationsOf (message :: a) = message :: notificationsOf a :=
  List.filter_cons_of_pos (by simp [h])

theorem serves_notifications {a b : List Value} :
    Serves transport earlier (notificationsOf a ++ b) ↔ Serves transport earlier b := by
  induction a with
  | nil => rfl
  | cons message a ih =>
    cases h : isServerRequest message with
    | true =>
      rw [notificationsOf_request a h, ih]
    | false =>
      rw [notificationsOf_notification a h, List.cons_append, Serves, answerTo_notification h,
        Option.toList_none, List.append_nil, ih]
      exact and_iff_right (passes_notification h)

theorem answersTo_notifications (a : List Value) : answersTo (notificationsOf a) = [] := by
  refine List.filterMap_eq_nil_iff.mpr fun message hmessage => ?_
  have hplain := (List.mem_filter.mp hmessage).2
  exact answerTo_notification (by simpa using hplain)

theorem approvals_of_serves {messages : List Value} (h : Serves transport earlier messages) :
    ∀ message ∈ messages, isServerRequest message = true → Approval message := by
  induction messages generalizing earlier with
  | nil => simp
  | cons first messages ih =>
    obtain ⟨hpasses, hrest⟩ := h
    intro message hmessage hrequest
    rcases List.mem_cons.mp hmessage with rfl | hmessage
    swap
    · exact ih hrest message hmessage hrequest
    · have hid : (idOf message).isSome = true := (Bool.and_eq_true_iff.mp hrequest).2
      obtain ⟨id, hid⟩ := Option.isSome_iff_exists.mp hid
      exact (hpasses _ (answerTo_request hrequest hid)).1

end Serving

/-! ## One message -/

/-- A message was served. -/
def answered (message : Value) (client : JsonRpcClient) : JsonRpcClient :=
  { client with log := client.log ++ (answerTo message).toList.map .wrote }

section Steps

variable {transport : Transport} {threadId turnId : Text} {homeyConnector : Option Text}
  {collected : Collected} {message : Value} {progress : Progress} {c c' : JsonRpcClient}

theorem writeMessage_ok_iff : Runs (writeMessage transport message) c (.ok ()) c' ↔
    transport c.log message = none ∧ c' = logged (.wrote message) c := by
  rw [writeMessage, Runs.get_bind]
  cases ht : transport c.log message with
  | some e => simp only [Runs.throw_iff, reduceCtorEq, false_and]
  | none => simp only [Runs.modify_iff, true_and]

theorem blind_written (hblind : Blind transport) (log : List Event) (message : Value) :
    transport ((written log).map .wrote) message = transport log message :=
  hblind _ _ message (written_map _)

theorem handle_ok_iff (hblind : Blind transport) (hrequest : isServerRequest message = true) :
    Runs (handleServerRequest transport message) c (.ok ()) c' ↔
      Passes transport (written c.log) message ∧ c' = answered message c := by
  obtain ⟨-, hid⟩ := Bool.and_eq_true_iff.mp hrequest
  obtain ⟨id, hid⟩ := Option.isSome_iff_exists.mp hid
  have hanswer := answerTo_request hrequest hid
  have hanswered : answered message c = logged (.wrote (declineMessage id)) c := by
    unfold answered
    rw [hanswer]
    rfl
  have hpasses : Passes transport (written c.log) message ↔
      Approval message ∧ transport c.log (declineMessage id) = none := by
    unfold Passes
    rw [hanswer]
    simp only [Option.some.injEq, forall_eq', blind_written hblind]
  unfold handleServerRequest
  rw [hpasses, hanswered, hid]
  cases hmethod : (methodOf message).bind Value.asStr with
  | none =>
    simp only [Runs.throw_iff, reduceCtorEq, false_and, false_iff]
    rintro ⟨⟨⟨_, method, _, hstring, _⟩, _⟩, _⟩
    rw [hstring] at hmethod
    cases hmethod
  | some method =>
    have hstring := Value.bind_asStr_eq_some.mp hmethod
    have happroval : Approval message ↔ approvals.contains method = true := by
      constructor
      · rintro ⟨_, method', _, hstring', hcontains⟩
        rw [hstring] at hstring'
        obtain rfl := Value.string.inj (Option.some.inj hstring')
        exact hcontains
      · intro hcontains
        exact ⟨id, method, hid, hstring, hcontains⟩
    rw [happroval]
    by_cases hcontains : approvals.contains method = true
    · simp only [if_pos hcontains, writeMessage_ok_iff, and_assoc]
      exact (and_iff_right hcontains).symm
    · simp only [if_neg hcontains]
      constructor
      · intro h
        rcases Runs.bind_iff.mp h with ⟨_, _, _, hthrow⟩ | ⟨_, _, hfail⟩
        · cases (Runs.throw_iff.mp hthrow).1
        · cases hfail
      · rintro ⟨⟨h, _⟩, _⟩
        exact absurd h hcontains

theorem tolerated_request {text : Text} {unverified : Bool}
    (h : Tolerated threadId turnId homeyConnector message text unverified)
    (hrequest : isServerRequest message = true) : text = [] ∧ unverified = false := by
  obtain ⟨-, hid⟩ := Bool.and_eq_true_iff.mp hrequest
  cases h with
  | declined => exact ⟨rfl, rfl⟩
  | delta hn | item hn | other hn =>
    rw [hn.2] at hid
    cases hid

theorem takes_request (hrequest : isServerRequest message = true) :
    Takes threadId turnId homeyConnector collected message progress ↔
      Approval message ∧ progress = .more collected := by
  obtain ⟨-, hid⟩ := Bool.and_eq_true_iff.mp hrequest
  constructor
  · intro h
    cases h with
    | done hcompletes =>
      rw [hcompletes.notification.2] at hid
      cases hid
    | more htolerated =>
      obtain ⟨rfl, rfl⟩ := tolerated_request htolerated hrequest
      rw [List.append_nil, Bool.or_false]
      refine ⟨?_, rfl⟩
      cases htolerated with
      | declined hid hmethod happroval => exact ⟨_, _, hid, hmethod, happroval⟩
      | delta hn | item hn | other hn =>
        rw [hn.2] at hid
        cases hid
  · rintro ⟨⟨id, method, hid, hmethod, happroval⟩, hprogress⟩
    have htolerated : Tolerated threadId turnId homeyConnector message [] false :=
      .declined hid hmethod happroval
    have htakes : Takes threadId turnId homeyConnector collected message
        (.more ⟨collected.assistantText ++ [], collected.unverifiedHomeyMutation || false⟩) :=
      .more htolerated
    rwa [List.append_nil, Bool.or_false, ← hprogress] at htakes

theorem notification_idOf (h : isServerRequest message = false)
    (hmethod : (methodOf message).isSome = true) : idOf message = none := by
  simpa [isServerRequest, hmethod] using h

theorem takes_method (h : Takes threadId turnId homeyConnector collected message progress) :
    (methodOf message).isSome = true := by
  have hsome {method : Text} (hm : methodOf message = some (.string method)) :
      (methodOf message).isSome = true := by rw [hm]; rfl
  cases h with
  | done hcompletes => exact hsome hcompletes.notification.1
  | more htolerated =>
    cases htolerated with
    | declined _ hmethod => exact hsome hmethod
    | delta hn | item hn | other hn => exact hsome hn.1

/-- A message of the loop is one it takes, served before the next. -/
theorem collectMessage_ok_iff (hblind : Blind transport) :
    Runs (collectMessage transport threadId turnId homeyConnector collected message) c
        (.ok progress) c' ↔
      Takes threadId turnId homeyConnector collected message progress ∧
        Passes transport (written c.log) message ∧ c' = answered message c := by
  unfold collectMessage
  cases hrequest : isServerRequest message with
  | true =>
    have hsplit : ((methodOf message).isSome && (idOf message).isSome) = true := hrequest
    rw [if_pos hsplit, takes_request hrequest]
    constructor
    · intro h
      rcases Runs.bind_iff.mp h with ⟨_, c₁, hserve, hpure⟩ | ⟨_, _, hfail⟩
      · obtain ⟨hprogress, rfl⟩ := Runs.pure_iff.mp hpure
        obtain ⟨hpasses, hc⟩ := (handle_ok_iff hblind hrequest).mp hserve
        obtain ⟨-, hid⟩ := Bool.and_eq_true_iff.mp hrequest
        obtain ⟨id, hid⟩ := Option.isSome_iff_exists.mp hid
        have happroval := (hpasses _ (answerTo_request hrequest hid)).1
        exact ⟨⟨happroval, Except.ok.inj hprogress⟩, hpasses, hc⟩
      · cases hfail
    · rintro ⟨⟨_, hprogress⟩, hserved⟩
      have hserve := (handle_ok_iff hblind hrequest).mpr hserved
      refine Runs.bind_iff.mpr (.inl ⟨(), c', hserve, Runs.pure_iff.mpr ⟨?_, rfl⟩⟩)
      rw [hprogress]
  | false =>
    have hsplit : ¬ ((methodOf message).isSome && (idOf message).isSome) = true :=
      fun hsome => Bool.false_ne_true (hrequest.symm.trans hsome)
    have hanswered : answered message c = c := by
      unfold answered
      rw [answerTo_notification hrequest]
      simp
    rw [if_neg hsplit, hanswered]
    constructor
    · intro h
      obtain ⟨hresult, rfl⟩ := check_runs h
      have hmethod : (methodOf message).isSome = true := by
        cases hm : methodOf message with
        | some method => rfl
        | none =>
          unfold collectNotification at hresult
          rw [hm] at hresult
          cases hresult
      have hid := notification_idOf hrequest hmethod
      exact ⟨collectNotification_takes hid hresult.symm, passes_notification hrequest, rfl⟩
    · rintro ⟨htakes, _, hc⟩
      have hid := notification_idOf hrequest (takes_method htakes)
      rw [takes_collectNotification hid htakes]
      exact Runs.pure_iff.mpr ⟨rfl, hc⟩

end Steps

/-! ## The loop of `request` -/

section Waiting

variable {transport : Transport} {c c' : JsonRpcClient} {id : Nat}

/-- What the wait logs for the messages before the answer. -/
def waiting (messages : List Value) : List Event :=
  messages.flatMap fun message => .read message :: (answerTo message).toList.map .wrote

@[simp] theorem written_waiting (messages : List Value) :
    written (waiting messages) = answersTo messages := by
  induction messages with
  | nil => rfl
  | cons message messages ih =>
    have hcons : waiting (message :: messages) =
        .read message :: ((answerTo message).toList.map .wrote ++ waiting messages) := rfl
    rw [hcons, written_read, written_append, written_map, ih, answersTo_cons]

/-- The wait went through these messages and the answer. -/
def waited (messages : List Value) (response : Value) (rest : Incoming)
    (client : JsonRpcClient) : JsonRpcClient :=
  { incoming := rest
    nextId := client.nextId
    notifications := client.notifications ++ notificationsOf messages
    log := client.log ++ waiting messages ++ [.read response] }

theorem written_received (message : Value) (rest : Incoming) :
    written (received message rest c).log = written c.log := by
  simp [received]

theorem written_answered (message : Value) :
    written (answered message c).log = written c.log ++ (answerTo message).toList := by
  simp [answered]

section Waited

variable {message response : Value} {messages : List Value} {rest later : Incoming}

theorem waited_request (h : isServerRequest message = true) :
    waited messages response rest (answered message (received message later c)) =
      waited (message :: messages) response rest c := by
  simp [waited, answered, received, waiting, notificationsOf_request messages h]

theorem waited_notification (h : isServerRequest message = false) :
    waited messages response rest { received message later c with
        notifications := (received message later c).notifications ++ [message] } =
      waited (message :: messages) response rest c := by
  simp [waited, received, waiting, notificationsOf_notification messages h,
    answerTo_notification h]

end Waited

/-- The wait ends well when the requests before the answer pass and the answer is one. -/
theorem awaitResponse_ok_iff (hblind : Blind transport) {messages : List Value}
    {response result : Value} {rest : Incoming}
    (hmethods : ∀ message ∈ messages, (methodOf message).isSome = true)
    (hresponse : methodOf response = none) :
    Runs (awaitResponse transport id (messages.map .ok ++ .ok response :: rest)) c
        (.ok result) c' ↔
      Serves transport (written c.log) messages ∧ responseResult id response = .ok result ∧
        c' = waited messages response rest c := by
  induction messages generalizing c with
  | nil =>
    have hwaited : waited [] response rest c = received response rest c := by
      simp [waited, received, waiting, notificationsOf]
    rw [List.map_nil, List.nil_append, awaitResponse, Runs.modify_bind, hwaited,
      if_neg (by rw [hresponse]; exact Bool.false_ne_true)]
    constructor
    · intro h
      obtain ⟨hresult, hc⟩ := check_runs h
      exact ⟨trivial, hresult.symm, hc⟩
    · rintro ⟨_, hresult, hc⟩
      rw [hresult]
      exact Runs.pure_iff.mpr ⟨rfl, hc⟩
  | cons message messages ih =>
    have hmethod := hmethods message List.mem_cons_self
    have hrest := fun other hother => hmethods other (List.mem_cons_of_mem _ hother)
    rw [List.map_cons, List.cons_append, awaitResponse, Runs.modify_bind, if_pos hmethod, Serves]
    cases hrequest : isServerRequest message with
    | true =>
      have hid : (idOf message).isSome = true := (Bool.and_eq_true_iff.mp hrequest).2
      have hlog := written_received (c := c) message (messages.map .ok ++ .ok response :: rest)
      rw [if_pos hid, ← waited_request hrequest, ← hlog]
      constructor
      · intro h
        rcases Runs.bind_iff.mp h with ⟨_, c₁, hserve, hawait⟩ | ⟨_, _, hfail⟩
        · obtain ⟨hpasses, rfl⟩ := (handle_ok_iff hblind hrequest).mp hserve
          obtain ⟨hserves, hdone⟩ := (ih hrest).mp hawait
          rw [written_answered] at hserves
          exact ⟨⟨hpasses, hserves⟩, hdone⟩
        · cases hfail
      · rintro ⟨⟨hpasses, hserves⟩, hdone⟩
        have hserve := (handle_ok_iff hblind hrequest).mpr ⟨hpasses, rfl⟩
        refine Runs.bind_iff.mpr (.inl ⟨(), _, hserve, (ih hrest).mpr ⟨?_, hdone⟩⟩)
        rw [written_answered]
        exact hserves
    | false =>
      have hid : (idOf message).isSome = false :=
        Option.isSome_eq_false_iff.mpr (by rw [notification_idOf hrequest hmethod]; rfl)
      rw [if_neg (by rw [hid]; exact Bool.false_ne_true), Runs.modify_bind, ih hrest,
        ← waited_notification hrequest, answerTo_notification hrequest, Option.toList_none,
        List.append_nil, and_iff_right (passes_notification hrequest)]
      rw [written_received]

end Waiting

/-! ## The loop of `collect_turn` -/

/-- Messages of which the last, and no other, notifies the end of a turn. -/
inductive Closing : List Value → Prop
  | last {message : Value} : IsNotification turnCompleted message → Closing [message]
  | more {message : Value} {messages : List Value} : ¬ IsNotification turnCompleted message →
      Closing messages → Closing (message :: messages)

section Loop

variable {transport : Transport} {threadId turnId text : Text} {homeyConnector : Option Text}
  {collected : Collected} {messages : List Value} {c : JsonRpcClient}

theorem request_not_completion {message : Value} (h : isServerRequest message = true) :
    ¬ IsNotification turnCompleted message := by
  intro hn
  obtain ⟨-, hid⟩ := Bool.and_eq_true_iff.mp h
  rw [hn.2] at hid
  cases hid

theorem closing_cons {message : Value} :
    Closing (message :: messages) ↔ IsNotification turnCompleted message ∧ messages = [] ∨
      ¬ IsNotification turnCompleted message ∧ Closing messages := by
  constructor
  · intro h
    cases h with
    | last hn => exact .inl ⟨hn, rfl⟩
    | more hn hrest => exact .inr ⟨hn, hrest⟩
  · rintro (⟨hn, rfl⟩ | ⟨hn, hrest⟩)
    · exact .last hn
    · exact .more hn hrest

theorem closing_notifications {a b : List Value} (h : Closing (a ++ b)) :
    Closing (notificationsOf a ++ b) := by
  induction a with
  | nil => exact h
  | cons message a ih =>
    cases hrequest : isServerRequest message with
    | true =>
      rw [notificationsOf_request a hrequest]
      rcases closing_cons.mp h with ⟨hn, _⟩ | ⟨_, hrest⟩
      · exact absurd hn (request_not_completion hrequest)
      · exact ih hrest
    | false =>
      rw [notificationsOf_notification a hrequest]
      rcases closing_cons.mp h with ⟨hn, hnil⟩ | ⟨hn, hrest⟩
      · obtain ⟨rfl, rfl⟩ := List.append_eq_nil_iff.mp hnil
        exact .last hn
      · exact .more hn (ih hrest)

theorem gathers_cons {message : Value} (hn : ¬ IsNotification turnCompleted message) :
    Gathers threadId turnId homeyConnector collected (message :: messages) text ↔
      ∃ delta unverified, Tolerated threadId turnId homeyConnector message delta unverified ∧
        Gathers threadId turnId homeyConnector ⟨collected.assistantText ++ delta,
          collected.unverifiedHomeyMutation || unverified⟩ messages text := by
  constructor
  · intro h
    cases h with
    | done hcompletes => exact absurd hcompletes.notification hn
    | more htolerated hrest => exact ⟨_, _, htolerated, hrest⟩
  · rintro ⟨_, _, htolerated, hrest⟩
    exact .more htolerated hrest

theorem gathers_request {message : Value} (hrequest : isServerRequest message = true)
    (happroval : Approval message) :
    Gathers threadId turnId homeyConnector collected (message :: messages) text ↔
      Gathers threadId turnId homeyConnector collected messages text := by
  have hsame : (⟨collected.assistantText ++ [],
      collected.unverifiedHomeyMutation || false⟩ : Collected) = collected := by
    rw [List.append_nil, Bool.or_false]
  rw [gathers_cons (request_not_completion hrequest)]
  constructor
  · rintro ⟨_, _, htolerated, hrest⟩
    obtain ⟨rfl, rfl⟩ := tolerated_request htolerated hrequest
    rwa [hsame] at hrest
  · intro hrest
    obtain ⟨id, method, hid, hmethod, hcontains⟩ := happroval
    exact ⟨[], false, .declined hid hmethod hcontains, by rwa [hsame]⟩

/-- Approvals add nothing to what a turn gathers. -/
theorem gathers_notifications {a b : List Value} (hclosing : Closing (a ++ b))
    (happrovals : ∀ message ∈ a, isServerRequest message = true → Approval message) :
    Gathers threadId turnId homeyConnector collected (notificationsOf a ++ b) text ↔
      Gathers threadId turnId homeyConnector collected (a ++ b) text := by
  induction a generalizing collected with
  | nil => rfl
  | cons message a ih =>
    have hothers := fun other hother => happrovals other (List.mem_cons_of_mem _ hother)
    cases hrequest : isServerRequest message with
    | true =>
      have happroval := happrovals message List.mem_cons_self hrequest
      rw [notificationsOf_request a hrequest, List.cons_append, gathers_request hrequest happroval]
      rcases closing_cons.mp hclosing with ⟨hn, _⟩ | ⟨_, hrest⟩
      · exact absurd hn (request_not_completion hrequest)
      · exact ih hrest hothers
    | false =>
      rw [notificationsOf_notification a hrequest]
      rcases closing_cons.mp hclosing with ⟨_, hnil⟩ | ⟨hn, hrest⟩
      · obtain ⟨rfl, rfl⟩ := List.append_eq_nil_iff.mp hnil
        rfl
      · rw [List.cons_append, List.cons_append, gathers_cons hn, gathers_cons hn]
        simp only [ih hrest hothers]

theorem takeSource_ok_iff {message : Value} {sources : List Source}
    (h : messagesOf sources = message :: messages) :
    ∃ source rest, sources = source :: rest ∧ messages = messagesOf rest ∧
      ∀ c : JsonRpcClient, ∃ c₁, written c₁.log = written c.log ∧
        ∀ r c', Runs (takeSource source) c r c' ↔ r = .ok message ∧ c' = c₁ := by
  match sources, h with
  | .buffered first :: rest, h =>
    obtain ⟨rfl, rfl⟩ := List.cons.inj h
    refine ⟨_, rest, rfl, rfl, fun c => ?_⟩
    refine ⟨{ c with notifications := c.notifications.tail }, rfl, fun r c' => ?_⟩
    rw [takeSource, Runs.modify_bind, Runs.pure_iff]
  | .live (.ok first) :: rest, h =>
    obtain ⟨rfl, rfl⟩ := List.cons.inj h
    refine ⟨_, rest, rfl, rfl, fun c => ?_⟩
    refine ⟨received first c.incoming.tail c, written_received _ _, fun r c' => ?_⟩
    rw [takeSource, Runs.modify_bind, Runs.pure_iff]
  | .live (.error _) :: _, h => cases h

/-- One round of the loop that does not fail. -/
theorem collectLoop_round (hblind : Blind transport) {message : Value} {sources : List Source}
    (hsources : messagesOf sources = message :: messages) (collected : Collected) (text : Text)
    (c : JsonRpcClient) :
    ∃ rest c₁, messages = messagesOf rest ∧
      written c₁.log = written c.log ++ (answerTo message).toList ∧
      ∀ c', Runs (collectLoop transport threadId turnId homeyConnector sources collected) c
          (.ok text) c' ↔
        Passes transport (written c.log) message ∧
          ((∃ next, Takes threadId turnId homeyConnector collected message (.more next) ∧
              Runs (collectLoop transport threadId turnId homeyConnector rest next) c₁
                (.ok text) c') ∨
            Takes threadId turnId homeyConnector collected message (.done text) ∧ c' = c₁) := by
  obtain ⟨source, rest, rfl, hrest, htake⟩ := takeSource_ok_iff hsources
  obtain ⟨c₁, hlog, htake⟩ := htake c
  have hconsumed : written (logged (.consumed message) c₁).log = written c.log := by
    simp [logged, hlog]
  refine ⟨rest, answered message (logged (.consumed message) c₁), hrest, ?_, fun c' => ?_⟩
  · rw [written_answered, hconsumed]
  constructor
  · intro h
    rcases Runs.bind_iff.mp h with ⟨taken, _, htaken, h⟩ | ⟨_, _, hfail⟩
    swap
    · cases hfail
    obtain ⟨hmessage, rfl⟩ := (htake _ _).mp htaken
    obtain rfl := Except.ok.inj hmessage
    rw [Runs.modify_bind] at h
    rcases Runs.bind_iff.mp h with ⟨progress, _, hcollect, h⟩ | ⟨_, _, hfail⟩
    swap
    · cases hfail
    obtain ⟨htakes, hpasses, rfl⟩ := (collectMessage_ok_iff hblind).mp hcollect
    rw [hconsumed] at hpasses
    refine ⟨hpasses, ?_⟩
    cases progress with
    | more next => exact .inl ⟨next, htakes, h⟩
    | done said =>
      obtain ⟨hsaid, rfl⟩ := Runs.pure_iff.mp h
      obtain rfl := Except.ok.inj hsaid
      exact .inr ⟨htakes, rfl⟩
  · rintro ⟨hpasses, hprogress⟩
    rw [← hconsumed] at hpasses
    refine Runs.bind_iff.mpr (.inl ⟨message, c₁, (htake _ _).mpr ⟨rfl, rfl⟩, ?_⟩)
    rw [Runs.modify_bind]
    rcases hprogress with ⟨next, htakes, h⟩ | ⟨htakes, rfl⟩
    · have hcollect := (collectMessage_ok_iff hblind).mpr ⟨htakes, hpasses, rfl⟩
      exact Runs.bind_iff.mpr (.inl ⟨_, _, hcollect, h⟩)
    · have hcollect := (collectMessage_ok_iff hblind).mpr ⟨htakes, hpasses, rfl⟩
      exact Runs.bind_iff.mpr (.inl ⟨_, _, hcollect, Runs.pure_iff.mpr ⟨rfl, rfl⟩⟩)

theorem tolerated_not_completion {message : Value} {delta : Text} {unverified : Bool}
    (h : Tolerated threadId turnId homeyConnector message delta unverified) :
    ¬ IsNotification turnCompleted message := by
  intro hn
  cases h with
  | declined hid =>
    rw [hn.2] at hid
    cases hid
  | delta hother | item hother => exact absurd (notification_unique hn hother) (by decide)
  | other hother _ _ hcompleted => exact hcompleted (notification_unique hother hn)

/-- A collection of messages that end with the turn: it gathers them all, and serves the
requests among them. -/
theorem collectLoop_ok_iff (hblind : Blind transport) {sources : List Source}
    {later earlier : List Value} (hclosing : Closing messages)
    (hsources : messagesOf sources = messages ++ later) :
    (∃ c', Runs (collectLoop transport threadId turnId homeyConnector sources collected) c
        (.ok text) c' ∧ written c'.log = earlier) ↔
      Gathers threadId turnId homeyConnector collected messages text ∧
        Serves transport (written c.log) messages ∧
        earlier = written c.log ++ answersTo messages := by
  induction hclosing generalizing sources collected c with
  | @last message hn =>
    obtain ⟨rest, c₁, -, hlog, hround⟩ := collectLoop_round hblind hsources collected text c
    have hgathers : Gathers threadId turnId homeyConnector collected [message] text ↔
        Takes threadId turnId homeyConnector collected message (.done text) := by
      constructor
      · intro h
        cases h with
        | done hcompletes hsays => exact .done hcompletes hsays
        | more htolerated => exact absurd hn (tolerated_not_completion htolerated)
      · intro h
        cases h with
        | done hcompletes hsays => exact .done hcompletes hsays
    rw [hgathers, Serves, Serves, and_true, answersTo_cons]
    constructor
    · rintro ⟨c', hruns, hearlier⟩
      obtain ⟨hpasses, ⟨_, htakes, _⟩ | ⟨htakes, rfl⟩⟩ := (hround c').mp hruns
      · cases htakes with
        | more htolerated => exact absurd hn (tolerated_not_completion htolerated)
      · refine ⟨htakes, hpasses, ?_⟩
        rw [← hearlier, hlog]
        simp [answersTo]
    · rintro ⟨htakes, hpasses, hearlier⟩
      refine ⟨c₁, (hround c₁).mpr ⟨hpasses, .inr ⟨htakes, rfl⟩⟩, ?_⟩
      rw [hearlier, hlog]
      simp [answersTo]
  | @more message messages hn hclosing ih =>
    obtain ⟨rest, c₁, hrest, hlog, hround⟩ := collectLoop_round hblind hsources collected text c
    rw [gathers_cons hn, Serves, answersTo_cons, ← List.append_assoc, ← hlog]
    constructor
    · rintro ⟨c', hruns, hearlier⟩
      obtain ⟨hpasses, ⟨next, htakes, hloop⟩ | ⟨htakes, -⟩⟩ := (hround c').mp hruns
      · obtain ⟨hgathers, hserves, hwritten⟩ := (ih hrest.symm).mp ⟨c', hloop, hearlier⟩
        cases htakes with
        | more htolerated => exact ⟨⟨_, _, htolerated, hgathers⟩, ⟨hpasses, hserves⟩, hwritten⟩
      · cases htakes with
        | done hcompletes => exact absurd hcompletes.notification hn
    · rintro ⟨⟨delta, unverified, htolerated, hgathers⟩, ⟨hpasses, hserves⟩, hwritten⟩
      obtain ⟨c', hloop, hearlier⟩ := (ih hrest.symm).mpr ⟨hgathers, hserves, hwritten⟩
      exact ⟨c', (hround c').mpr ⟨hpasses, .inl ⟨_, .more htolerated, hloop⟩⟩, hearlier⟩

end Loop

/-! ## The rest of a turn -/

section Turn

variable (transport : Transport) (threadId utterance : Text)

/-- `turn_with` from its `turn/start` on. -/
def startTurn (homeyConnector : Option Text) : Rpc Text := do
  let started ← request transport turnStart (turnStartParams threadId utterance)
  let turnId ← check (requiredString started ["turn", "id"] "turn/start response has no turn id")
  collectTurn transport threadId turnId homeyConnector

/-- `turn_with` up to its `turn/start`; the result is the connector of the house. -/
def openTurn (runtime : CodexRuntime) (house : HouseContext) : Rpc (Option Text) :=
  if threadId.isEmpty then throw (.protocol "thread id is empty".toList)
  else if house.id ≤ 0 then throw (.invalidConfig "house id must be positive".toList)
  else do
    let homeyConnector ← check (runtime.homeyConnector house)
    initializeClient transport
    let resumed ← request transport threadResume
      (threadResumeParams threadId (runtime.permissions house) homeyConnector)
    check (validatePermissionResult resumed (some (runtime.permissions house)))
    let resumedId ← check
      (requiredString resumed ["thread", "id"] "thread/resume response has no thread id")
    if resumedId ≠ threadId then
      throw (.protocol "thread/resume returned a different thread".toList)
    else return homeyConnector

theorem turnWith_eq (runtime : CodexRuntime) (house : HouseContext) :
    runtime.turnWith transport house threadId utterance =
      openTurn transport threadId runtime house >>= startTurn transport threadId utterance := by
  unfold CodexRuntime.turnWith openTurn
  split
  · rfl
  split
  · rfl
  simp only [bind_assoc]
  refine bind_congr fun _ => bind_congr fun _ => bind_congr fun _ => bind_congr fun _ =>
    bind_congr fun resumedId => ?_
  split
  · rfl
  · rw [pure_bind]
    rfl

end Turn

/-! ## Input that is not read yet -/

/-- The same connection with more to come. -/
def feed (later : Incoming) (client : JsonRpcClient) : JsonRpcClient :=
  { client with incoming := client.incoming ++ later }

/-- A program that ended well does not look at what it left unread. -/
def Framed {α : Type} (m : Rpc α) : Prop :=
  ∀ later c a c', Runs m c (.ok a) c' → Runs m (feed later c) (.ok a) (feed later c')

section Frames

variable {α β : Type} {transport : Transport}

theorem Framed.throw (error : CodexRuntimeError) : Framed (throw error : Rpc α) := by
  intro later c a c' h
  cases (Runs.throw_iff.mp h).1

theorem Framed.pure (a : α) : Framed (pure a : Rpc α) := by
  intro later c a' c' h
  obtain ⟨ha, rfl⟩ := Runs.pure_iff.mp h
  exact Runs.pure_iff.mpr ⟨ha, rfl⟩

theorem Framed.bind {m : Rpc α} {f : α → Rpc β} (hm : Framed m) (hf : ∀ a, Framed (f a)) :
    Framed (m >>= f) := by
  intro later c b c' h
  rcases Runs.bind_iff.mp h with ⟨a, c₁, h₁, h₂⟩ | ⟨_, _, hfail⟩
  · exact Runs.bind_iff.mpr (.inl ⟨a, _, hm later _ _ _ h₁, hf a later _ _ _ h₂⟩)
  · cases hfail

theorem framed_check (result : Except CodexRuntimeError α) : Framed (check result) := by
  cases result with
  | ok a => exact .pure a
  | error error => exact .throw error

theorem framed_writeMessage (message : Value) : Framed (writeMessage transport message) := by
  intro later c _ c' h
  obtain ⟨haccepted, rfl⟩ := writeMessage_ok_iff.mp h
  exact writeMessage_ok_iff.mpr ⟨haccepted, rfl⟩

theorem framed_handle (message : Value) : Framed (handleServerRequest transport message) := by
  unfold handleServerRequest
  cases idOf message with
  | none => exact .throw _
  | some id =>
    cases (methodOf message).bind Value.asStr with
    | none => exact .throw _
    | some method =>
      simp only
      split
      · exact framed_writeMessage _
      · exact .bind (framed_writeMessage _) fun _ => .throw _

theorem awaitResponse_feed {id : Nat} {reads : Incoming} {c c' : JsonRpcClient} {result : Value}
    (later : Incoming) (h : Runs (awaitResponse transport id reads) c (.ok result) c') :
    Runs (awaitResponse transport id (reads ++ later)) (feed later c) (.ok result)
      (feed later c') := by
  induction reads generalizing c with
  | nil => cases (Runs.throw_iff.mp h).1
  | cons read rest ih =>
    cases read with
    | error error =>
      rw [awaitResponse, Runs.modify_bind] at h
      cases (Runs.throw_iff.mp h).1
    | ok message =>
      rw [awaitResponse, Runs.modify_bind] at h
      rw [List.cons_append, awaitResponse, Runs.modify_bind]
      have hreceived : received message (rest ++ later) (feed later c) =
          feed later (received message rest c) := rfl
      rw [hreceived]
      by_cases hmethod : (methodOf message).isSome = true
      · rw [if_pos hmethod] at h ⊢
        by_cases hid : (idOf message).isSome = true
        · rw [if_pos hid] at h ⊢
          rcases Runs.bind_iff.mp h with ⟨_, c₁, hserve, hrest⟩ | ⟨_, _, hfail⟩
          · have hserved := framed_handle message later _ _ _ hserve
            exact Runs.bind_iff.mpr (.inl ⟨_, _, hserved, ih hrest⟩)
          · cases hfail
        · rw [if_neg hid, Runs.modify_bind] at h ⊢
          exact ih h
      · rw [if_neg hmethod] at h ⊢
        exact framed_check _ later _ _ _ h

theorem framed_request (method : Text) (params : Value) :
    Framed (request transport method params) := by
  intro later c result c' h
  rw [request, Runs.get_bind, Runs.modify_bind] at h ⊢
  rcases Runs.bind_iff.mp h with ⟨_, c₁, hwrite, hawait⟩ | ⟨_, _, hfail⟩
  · have hwritten := framed_writeMessage _ later _ _ _ hwrite
    exact Runs.bind_iff.mpr (.inl ⟨_, _, hwritten, awaitResponse_feed later hawait⟩)
  · cases hfail

theorem framed_openTurn (threadId : Text) (runtime : CodexRuntime) (house : HouseContext) :
    Framed (openTurn transport threadId runtime house) := by
  unfold openTurn
  split
  · exact .throw _
  split
  · exact .throw _
  refine .bind (framed_check _) fun connector => ?_
  refine .bind (.bind (framed_request _ _) fun _ => framed_writeMessage _) fun _ => ?_
  refine .bind (framed_request _ _) fun resumed => ?_
  refine .bind (framed_check _) fun _ => .bind (framed_check _) fun resumedId => ?_
  split
  · exact .throw _
  · exact .pure _

end Frames

/-! ## The order of the answer -/

/-- These messages open the thread: it is resumed and confirmed, all of them are read, and
no notification is buffered. -/
def Opens (transport : Transport) (runtime : CodexRuntime) (house : HouseContext)
    (threadId : Text) (opening : Incoming) : Prop :=
  ∃ homeyConnector client,
    Runs (openTurn transport threadId runtime house) (.connect opening) (.ok homeyConnector)
      client ∧ client.incoming = [] ∧ client.notifications = []

section Order

variable {transport : Transport} {runtime : CodexRuntime} {house : HouseContext}
  {threadId utterance text : Text} {homeyConnector : Option Text}

theorem messagesOf_sources (buffered messages : List Value) (later : Incoming) :
    messagesOf (buffered.map Source.buffered ++
        (messages.map Except.ok ++ later).map Source.live) =
      buffered ++ messages ++ messagesOf (later.map .live) := by
  induction buffered with
  | nil =>
    induction messages with
    | nil => rfl
    | cons message messages ih => exact congrArg (message :: ·) ih
  | cons message buffered ih => exact congrArg (message :: ·) ih

/-- The client has written a request of its own. -/
def requested (message : Value) (client : JsonRpcClient) : JsonRpcClient :=
  { client with nextId := client.nextId + 1, log := client.log ++ [.wrote message] }

theorem request_ok_iff (hblind : Blind transport) {c c' : JsonRpcClient} {a : List Value}
    {response params result : Value} {method : Text} {rest : Incoming}
    (hincoming : c.incoming = a.map .ok ++ .ok response :: rest)
    (hmethods : ∀ message ∈ a, (methodOf message).isSome = true)
    (hresponse : methodOf response = none) :
    let message := requestMessage c.nextId method params
    Runs (request transport method params) c (.ok result) c' ↔
      transport c.log message = none ∧ Serves transport (written c.log ++ [message]) a ∧
        responseResult c.nextId response = .ok result ∧
        c' = waited a response rest (requested message c) := by
  intro message
  rw [request, Runs.get_bind, Runs.modify_bind]
  have hlog : written (requested message c).log = written c.log ++ [message] := by
    simp [requested]
  constructor
  · intro h
    rcases Runs.bind_iff.mp h with ⟨_, c₁, hwrite, hawait⟩ | ⟨_, _, hfail⟩
    · obtain ⟨haccepted, rfl⟩ := writeMessage_ok_iff.mp hwrite
      rw [hincoming] at hawait
      obtain ⟨hserves, hdone⟩ := (awaitResponse_ok_iff hblind hmethods hresponse).mp hawait
      exact ⟨haccepted, hlog ▸ hserves, hdone⟩
    · cases hfail
  · rintro ⟨haccepted, hserves, hdone⟩
    rw [← hlog] at hserves
    have hawait := (awaitResponse_ok_iff hblind hmethods hresponse).mpr ⟨hserves, hdone⟩
    rw [← hincoming] at hawait
    refine Runs.bind_iff.mpr (.inl ⟨(), requested message c, ?_, hawait⟩)
    exact writeMessage_ok_iff.mpr ⟨haccepted, rfl⟩

/-- What a turn comes to does not say where the answer stood. -/
theorem startTurn_ok_iff (hblind : Blind transport) {c : JsonRpcClient} {a b earlier : List Value}
    {response message : Value} {later : Incoming}
    (hmessage : message = requestMessage c.nextId turnStart (turnStartParams threadId utterance))
    (hnotifications : c.notifications = [])
    (hincoming : c.incoming = a.map .ok ++ .ok response :: (b.map .ok ++ later))
    (hmethods : ∀ message ∈ a, (methodOf message).isSome = true)
    (hresponse : methodOf response = none) (hclosing : Closing (a ++ b)) :
    (∃ c', Runs (startTurn transport threadId utterance homeyConnector) c (.ok text) c' ∧
        written c'.log = earlier) ↔
      transport c.log message = none ∧
        ∃ started turnId, responseResult c.nextId response = .ok started ∧
          requiredString started ["turn", "id"] "turn/start response has no turn id" =
            .ok turnId ∧
          Gathers threadId turnId homeyConnector ⟨[], false⟩ (a ++ b) text ∧
          Serves transport (written c.log ++ [message]) (a ++ b) ∧
          earlier = written c.log ++ [message] ++ answersTo (a ++ b) := by
  subst hmessage
  set message := requestMessage c.nextId turnStart (turnStartParams threadId utterance)
  let c₁ := waited a response (b.map .ok ++ later) (requested message c)
  have hsources : messagesOf c₁.sources =
      notificationsOf a ++ b ++ messagesOf (later.map .live) := by
    rw [← messagesOf_sources]
    unfold JsonRpcClient.sources
    simp [c₁, waited, requested, hnotifications]
  have hlog : written c₁.log = written c.log ++ [message] ++ answersTo a := by
    simp [c₁, waited, requested]
  have hcollect (turnId : Text)
      (ha : Serves transport (written c.log ++ [message]) a) :
      (∃ c', Runs (collectTurn transport threadId turnId homeyConnector) c₁ (.ok text) c' ∧
          written c'.log = earlier) ↔
        Gathers threadId turnId homeyConnector ⟨[], false⟩ (a ++ b) text ∧
          Serves transport (written c.log ++ [message]) (a ++ b) ∧
          earlier = written c.log ++ [message] ++ answersTo (a ++ b) := by
    have hloop := @collectLoop_ok_iff _ threadId turnId text homeyConnector ⟨[], false⟩ _ c₁
      hblind _ _ earlier (closing_notifications hclosing) hsources
    rw [gathers_notifications hclosing (approvals_of_serves ha), serves_notifications, hlog,
      answersTo_append, answersTo_notifications, List.nil_append,
      List.append_assoc _ _ (answersTo b), ← answersTo_append] at hloop
    rw [serves_append, and_iff_right ha, ← hloop]
    simp only [collectTurn, Runs.get_bind]
  constructor
  · rintro ⟨c', hruns, hearlier⟩
    rcases Runs.bind_iff.mp hruns with ⟨started, _, hrequest, hruns⟩ | ⟨_, _, hfail⟩
    swap
    · cases hfail
    obtain ⟨haccepted, hserves, hstarted, rfl⟩ :=
      (request_ok_iff hblind hincoming hmethods hresponse).mp hrequest
    rcases check_bind hruns with ⟨turnId, hturnId, hruns⟩ | ⟨hfail, _⟩
    · exact ⟨haccepted, started, turnId, hstarted, hturnId,
        (hcollect turnId hserves).mp ⟨c', hruns, hearlier⟩⟩
    · cases hfail
  · rintro ⟨haccepted, started, turnId, hstarted, hturnId, hgathers, hserves, hearlier⟩
    have ha := (serves_append.mp hserves).1
    obtain ⟨c', hruns, hlog'⟩ := (hcollect turnId ha).mpr ⟨hgathers, hserves, hearlier⟩
    have hrequest := (request_ok_iff hblind hincoming hmethods hresponse).mpr
      ⟨haccepted, ha, hstarted, rfl⟩
    refine ⟨c', Runs.bind_iff.mpr (.inl ⟨started, c₁, hrequest, ?_⟩), hlog'⟩
    rw [hturnId]
    exact Runs.bind_iff.mpr (.inl ⟨turnId, c₁, Runs.pure_iff.mpr ⟨rfl, rfl⟩, hruns⟩)

/-- After the opening a turn goes on from where the opening left the client. -/
theorem turnWith_opened {opening rest : Incoming} {client c' : JsonRpcClient}
    {r : Except CodexRuntimeError Text}
    (hopen : Runs (openTurn transport threadId runtime house) (.connect opening)
      (.ok homeyConnector) client) :
    Runs (runtime.turnWith transport house threadId utterance) (.connect (opening ++ rest)) r c' ↔
      Runs (startTurn transport threadId utterance homeyConnector) (feed rest client) r c' := by
  have hfed : Runs (openTurn transport threadId runtime house) (.connect (opening ++ rest))
      (.ok homeyConnector) (feed rest client) :=
    framed_openTurn threadId runtime house rest _ _ _ hopen
  rw [turnWith_eq]
  constructor
  · intro h
    rcases Runs.bind_iff.mp h with ⟨connector, c₁, hopened, hrest⟩ | ⟨_, hfail, _⟩
    · obtain ⟨hconnector, rfl⟩ := Prod.mk.inj (hfed.symm.trans hopened)
      obtain rfl := Except.ok.inj hconnector
      exact hrest
    · cases (Prod.mk.inj (hfed.symm.trans hfail)).1
  · intro h
    exact Runs.bind_iff.mpr (.inl ⟨_, _, hfed, h⟩)

theorem outcome_ok_iff {m : Rpc Text} {incoming : Incoming} {earlier : List Value} :
    (outcome m incoming).1 = .ok text ∧ written (outcome m incoming).2.log = earlier ↔
      ∃ c', Runs m (.connect incoming) (.ok text) c' ∧ written c'.log = earlier := by
  constructor
  · rintro ⟨hok, hlog⟩
    exact ⟨_, hok ▸ outcome_runs m incoming, hlog⟩
  · rintro ⟨c', hruns, hlog⟩
    have hsame := Prod.mk.inj ((outcome_runs m incoming).symm.trans hruns)
    rw [hsame.1, hsame.2]
    exact ⟨rfl, hlog⟩

end Order

/-- Whether a turn's messages come before the answer to `turn/start` or after it, the turn
succeeds with the same text, and then the same messages were written. -/
theorem response_order_immaterial {transport : Transport} (hblind : Blind transport)
    {runtime : CodexRuntime} {house : HouseContext} {threadId utterance : Text}
    {opening : Incoming} (hopens : Opens transport runtime house threadId opening)
    {ns a b : List Value} {response : Value} (hsplit : ns = a ++ b)
    (hmethods : ∀ message ∈ ns, (methodOf message).isSome = true) (hclosing : Closing ns)
    (hresponse : methodOf response = none) (later : Incoming) (text : Text) :
    let turn (incoming : Incoming) :=
      outcome (runtime.turnWith transport house threadId utterance) (opening ++ incoming)
    let late := turn (a.map .ok ++ .ok response :: (b.map .ok ++ later))
    let early := turn (.ok response :: (ns.map .ok ++ later))
    (late.1 = .ok text ↔ early.1 = .ok text) ∧
      (late.1 = .ok text → written late.2.log = written early.2.log) := by
  intro turn late early
  subst hsplit
  obtain ⟨homeyConnector, client, hopen, hread, hbuffered⟩ := hopens
  have hincoming (rest : Incoming) : (feed rest client).incoming = rest := by
    simp [feed, hread]
  have hsame (earlier : List Value) :
      late.1 = .ok text ∧ written late.2.log = earlier ↔
        early.1 = .ok text ∧ written early.2.log = earlier := by
    rw [outcome_ok_iff, outcome_ok_iff]
    simp only [turnWith_opened hopen]
    have hlate := @startTurn_ok_iff transport threadId utterance text homeyConnector hblind
      (feed _ client) a b earlier response _ later rfl hbuffered (hincoming _)
      (fun message hmessage => hmethods message (List.mem_append_left b hmessage)) hresponse
      hclosing
    have hearly := @startTurn_ok_iff transport threadId utterance text homeyConnector hblind
      (feed _ client) [] (a ++ b) earlier response _ later rfl hbuffered (hincoming _)
      (fun message hmessage => absurd hmessage List.not_mem_nil) hresponse hclosing
    exact hlate.trans hearly.symm
  constructor
  · constructor
    · intro hlate
      exact ((hsame _).mp ⟨hlate, rfl⟩).1
    · intro hearly
      exact ((hsame _).mpr ⟨hearly, rfl⟩).1
  · intro hlate
    exact ((hsame _).mp ⟨hlate, rfl⟩).2.symm

theorem blind_accepting : Blind accepting := fun _ _ _ _ => rfl

/-- The messages up to the resumed thread. -/
def someOpening : Incoming := [.ok (response 1 (.object [])), .ok (response 2 resumedThread)]

def startedTurn : Value :=
  response 3 (.object [("turn".toList, .object [("id".toList, .string "u".toList)])])

def someTurn (messages : List Value) : Except CodexRuntimeError Text × JsonRpcClient :=
  outcome (someRuntime.turnWith accepting someHouse "t".toList "hi".toList)
    (someOpening ++ messages.map .ok)

/-- A verified call and the delta, the one before the answer and the other after it. -/
theorem response_order_immaterial_verified :
    (someTurn [verifiedCall, startedTurn, someDelta, someCompletion]).1 = .ok "ok".toList ∧
      written (someTurn [verifiedCall, startedTurn, someDelta, someCompletion]).2.log =
        written (someTurn [startedTurn, verifiedCall, someDelta, someCompletion]).2.log := by
  have hopens : Opens accepting someRuntime someHouse "t".toList someOpening :=
    ⟨_, _, rfl, rfl, rfl⟩
  have hmethods : ∀ message ∈ [verifiedCall, someDelta, someCompletion],
      (methodOf message).isSome = true := by
    simp only [List.forall_mem_cons]
    exact ⟨rfl, rfl, rfl, List.forall_mem_nil _⟩
  have hclosing : Closing [verifiedCall, someDelta, someCompletion] := by
    refine .more ?_ (.more ?_ (.last ⟨rfl, rfl⟩))
    · exact fun hn => absurd (notification_unique hn ⟨rfl, rfl⟩) (by decide)
    · exact fun hn => absurd (notification_unique hn ⟨rfl, rfl⟩) (by decide)
  have hsplit : [verifiedCall, someDelta, someCompletion] =
      [verifiedCall] ++ [someDelta, someCompletion] := rfl
  refine ⟨rfl, (response_order_immaterial blind_accepting hopens hsplit hmethods hclosing ?_ []
    "ok".toList).2 rfl⟩
  rfl

end AliceBridge.Runtime.ResponseOrder
