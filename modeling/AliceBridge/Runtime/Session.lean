import AliceBridge.Runtime.Collector

/-! # The order of a session

What the client sends of its own, and when: the utterance goes out once, after
the handshake and after the thread was resumed and confirmed. -/
namespace AliceBridge.Runtime.Session
open AliceBridge.Lib.Utf8 AliceBridge.Lib.Json AliceBridge.Lib.Program
open AliceBridge.Core.Household AliceBridge.Runtime.Protocol AliceBridge.Runtime.Client
open AliceBridge.Runtime.Codex AliceBridge.Runtime.Wire AliceBridge.Runtime.Collector

/-- The requests and notifications that the client wrote; a reply has no method. -/
def sent (log : List Event) : List Value :=
  log.filterMap fun event => match event with
    | .wrote message => if (methodOf message).isSome then some message else none
    | _ => none

@[simp] theorem sent_nil : sent [] = [] := rfl

@[simp] theorem sent_append (es es' : List Event) : sent (es ++ es') = sent es ++ sent es' :=
  List.filterMap_append

@[simp] theorem sent_read (message : Value) (es : List Event) :
    sent (.read message :: es) = sent es := rfl

theorem sent_wrote {message : Value} (h : (methodOf message).isSome = true) (es : List Event) :
    sent (.wrote message :: es) = message :: sent es := by
  simp [sent, h]

theorem sent_reply {message : Value} (h : methodOf message = none) (es : List Event) :
    sent (.wrote message :: es) = sent es := by
  simp [sent, h]

/-- The number of a request. -/
def requestIds (log : List Event) : List Nat :=
  (sent log).filterMap fun message => (idOf message).bind Value.asU64

/-! ## One request -/

/-- A request with the answer that its result is from. -/
inductive Exchange (id : Nat) (method : Text) (params result : Value) : List Event → Prop
  | mk {waiting : List Event} {ns : List Value} {answer : Value} : Waits waiting ns →
      Answers id answer result → Exchange id method params result
        (.wrote (requestMessage id method params) :: (waiting ++ [.read answer]))

/-- Events of a part that failed, with at most these messages sent. -/
structure Failed (messages : List Value) (es : List Event) : Prop where
  sent : sent es <+: messages
  consumed : consumed es = []

/-- Events that begin with this message, and send no other. -/
structure Sends (message : Value) (es : List Event) : Prop where
  first : ∃ rest, es = .wrote message :: rest ∧ sent rest = [] ∧ consumed rest = []
  isOwn : (methodOf message).isSome = true

section Requests

variable {transport : Transport} {c c' : JsonRpcClient}

theorem sends_sent {message : Value} {es : List Event} (h : Sends message es) :
    sent es = [message] ∧ consumed es = [] := by
  obtain ⟨⟨rest, rfl, hsent, hconsumed⟩, hown⟩ := h
  exact ⟨by rw [sent_wrote hown, hsent], hconsumed⟩

theorem sends_failed {message : Value} {es : List Event} (h : es = [] ∨ Sends message es) :
    Failed [message] es := by
  rcases h with rfl | h
  · exact ⟨List.nil_prefix, rfl⟩
  · exact ⟨⟨[], by rw [List.append_nil, (sends_sent h).1]⟩, (sends_sent h).2⟩

theorem served_sent {message : Value} {r : Except CodexRuntimeError Unit} {es : List Event}
    (h : Served transport message r es) : sent es = [] := by
  cases h with
  | declined | rejected => exact sent_reply (by simp) []
  | untyped | unwritten => rfl

theorem waits_sent {es : List Event} {ns : List Value} (h : Waits es ns) : sent es = [] := by
  induction h with
  | nil => rfl
  | buffered _ _ _ ih => exact ih
  | declined _ _ _ _ ih =>
    rw [sent_read, sent_reply (by simp), ih]

theorem waits_consumed {es : List Event} {ns : List Value} (h : Waits es ns) :
    consumed es = [] := by
  induction h with
  | nil => rfl
  | buffered _ _ _ ih => exact ih
  | declined _ _ _ _ ih => exact ih

theorem ends_sent {id : Nat} {r : Except CodexRuntimeError Value} {es : List Event}
    (h : Ends transport id r es) : sent es = [] ∧ consumed es = [] := by
  cases h with
  | answered | refused | closed => exact ⟨rfl, rfl⟩
  | unserved _ hserved =>
    rw [sent_read, consumed_read]
    exact ⟨served_sent hserved, served_consumed hserved⟩

variable {id : Nat} {method : Text} {params result : Value}

theorem exchange_sends {es : List Event} (h : Exchange id method params result es) :
    Sends (requestMessage id method params) es := by
  obtain ⟨hw, -⟩ := h
  refine ⟨⟨_, rfl, ?_, ?_⟩, by simp⟩
  · rw [sent_append, waits_sent hw]
    rfl
  · rw [consumed_append, waits_consumed hw]
    rfl

theorem exchange_sent {es : List Event} (h : Exchange id method params result es) :
    sent es = [requestMessage id method params] :=
  (sends_sent (exchange_sends h)).1

theorem exchange_consumed {es : List Event} (h : Exchange id method params result es) :
    consumed es = [] :=
  (sends_sent (exchange_sends h)).2

theorem failed_after {messages before : List Value} {es es' : List Event}
    (h : Failed messages es') (hes : sent es = before ∧ consumed es = []) :
    Failed (before ++ messages) (es ++ es') := by
  constructor
  · rw [sent_append, hes.1]
    exact (List.prefix_append_right_inj before).mpr h.sent
  · rw [consumed_append, hes.2, h.consumed]
    rfl

/-- A request is one exchange, or fails having sent nothing else. -/
theorem request_exchange {r : Except CodexRuntimeError Value}
    (h : Runs (request transport method params) c r c') :
    c'.nextId = c.nextId + 1 ∧ ∃ es, c'.log = c.log ++ es ∧ match r with
      | .ok result => Exchange c.nextId method params result es
      | .error _ => es = [] ∨ Sends (requestMessage c.nextId method params) es := by
  obtain ⟨hnext, ⟨_, rfl, -, hlog⟩ | ⟨es, ns, tail, hw, hend, -, hlog⟩⟩ := request_runs h
  · exact ⟨hnext, [], by rw [hlog, List.append_nil], .inl rfl⟩
  · refine ⟨hnext, _, hlog, ?_⟩
    cases r with
    | ok result =>
      cases hend with
      | answered hanswers => exact .mk hw hanswers
    | error error =>
      obtain ⟨hsent, hconsumed⟩ := ends_sent hend
      refine .inr ⟨⟨_, rfl, ?_, ?_⟩, by simp⟩
      · rw [sent_append, waits_sent hw, hsent]
        rfl
      · rw [consumed_append, waits_consumed hw, hconsumed]
        rfl

theorem notify_sends {r : Except CodexRuntimeError Unit}
    (h : Runs (notify transport method) c r c') :
    c'.nextId = c.nextId ∧ ∃ es, c'.log = c.log ++ es ∧ match r with
      | .ok _ => es = [.wrote (notificationMessage method)]
      | .error _ => es = [] := by
  rcases writeMessage_runs h with ⟨_, _, rfl, rfl⟩ | ⟨rfl, rfl⟩
  · exact ⟨rfl, [], by simp, rfl⟩
  · exact ⟨rfl, _, rfl, rfl⟩

end Requests

/-! ## Opening a thread -/

theorem requiredString_ok {result : Value} {pointer : List String} {message : String}
    {text : Text} (h : requiredString result pointer message = .ok text) :
    stringAt result pointer = some text := by
  unfold requiredString at h
  cases hs : stringAt result pointer with
  | some _ =>
    rw [hs] at h
    exact congrArg some (Except.ok.inj h)
  | none =>
    rw [hs] at h
    cases h

/-- A result that passes names exactly the expected permission profile. -/
theorem validatePermissionResult_ok {result : Value} {expected : Text}
    (h : validatePermissionResult result (some expected) = .ok ()) :
    stringAt result ["activePermissionProfile", "id"] = some expected := by
  unfold validatePermissionResult at h
  cases hs : stringAt result ["activePermissionProfile", "id"] with
  | none =>
    rw [hs] at h
    cases h
  | some profile =>
    simp only [hs] at h
    split at h
    · cases h
    · next hprofile =>
      simp only [Option.any_some, decide_eq_true_eq, not_not] at hprofile
      rw [hprofile]

/-- The handshake: `initialize` was answered, and `initialized` written. -/
inductive Greeted (id : Nat) : List Event → Prop
  | mk {es : List Event} {result : Value} :
      Exchange id initializeMethod initializeParams result es →
      Greeted id (es ++ [.wrote (notificationMessage initialized)])

def greetings (id : Nat) : List Value :=
  [requestMessage id initializeMethod initializeParams, notificationMessage initialized]

theorem greeted_sent {id : Nat} {es : List Event} (h : Greeted id es) :
    sent es = greetings id ∧ consumed es = [] := by
  obtain ⟨hexchange⟩ := h
  constructor
  · rw [sent_append, exchange_sent hexchange, sent_wrote (by simp)]
    rfl
  · rw [consumed_append, exchange_consumed hexchange]
    rfl

theorem initializeClient_greets {transport : Transport} {c c' : JsonRpcClient}
    {r : Except CodexRuntimeError Unit} (h : Runs (initializeClient transport) c r c') :
    c'.nextId = c.nextId + 1 ∧ ∃ es, c'.log = c.log ++ es ∧ match r with
      | .ok _ => Greeted c.nextId es
      | .error _ => Failed (greetings c.nextId) es := by
  rcases Runs.bind_iff.mp h with ⟨result, c₁, hrequest, hnotify⟩ | ⟨e, hrequest, rfl⟩
  · obtain ⟨hnext, es, hlog, hexchange⟩ := request_exchange hrequest
    obtain ⟨hsame, es', hlog', hnotified⟩ := notify_sends hnotify
    refine ⟨hsame.trans hnext, es ++ es', by rw [hlog', hlog, List.append_assoc], ?_⟩
    cases r with
    | ok _ =>
      obtain rfl := hnotified
      exact .mk hexchange
    | error _ =>
      obtain rfl := hnotified
      rw [List.append_nil]
      refine ⟨?_, exchange_consumed hexchange⟩
      rw [exchange_sent hexchange]
      exact List.prefix_append _ _
  · obtain ⟨hnext, es, hlog, hfailed⟩ := request_exchange hrequest
    obtain ⟨hsent, hconsumed⟩ := sends_failed hfailed
    exact ⟨hnext, es, hlog, hsent.trans (List.prefix_append _ _), hconsumed⟩

/-- What comes before a turn: the handshake, and the thread resumed and confirmed. -/
inductive Opening (threadId permissions : Text) (homeyConnector : Option Text) :
    List Event → Prop
  | mk {greeting resuming : List Event} {resumed : Value} : Greeted 1 greeting →
      Exchange 2 threadResume (threadResumeParams threadId permissions homeyConnector) resumed
        resuming →
      stringAt resumed ["thread", "id"] = some threadId →
      stringAt resumed ["activePermissionProfile", "id"] = some permissions →
      Opening threadId permissions homeyConnector (greeting ++ resuming)

def openings (threadId permissions : Text) (homeyConnector : Option Text) : List Value :=
  greetings 1 ++
    [requestMessage 2 threadResume (threadResumeParams threadId permissions homeyConnector)]

section Turns

variable {runtime : CodexRuntime} {transport : Transport} {house : HouseContext}
  {threadId utterance : Text} {homeyConnector : Option Text}

theorem opening_sent {permissions : Text} {es : List Event}
    (h : Opening threadId permissions homeyConnector es) :
    sent es = openings threadId permissions homeyConnector ∧ consumed es = [] := by
  obtain ⟨hgreeted, hexchange, -, -⟩ := h
  constructor
  · rw [sent_append, (greeted_sent hgreeted).1, exchange_sent hexchange]
    rfl
  · rw [consumed_append, (greeted_sent hgreeted).2, exchange_consumed hexchange]
    rfl

/-- The request that carries an utterance. -/
def turnMessage (threadId utterance : Text) : Value :=
  requestMessage 3 turnStart (turnStartParams threadId utterance)

/-- How far a turn came: no further than its opening, to its `turn/start`, or into the
collection. -/
inductive TurnSession (transport : Transport) (threadId utterance permissions : Text)
    (homeyConnector : Option Text) (r : Except CodexRuntimeError Text) (c' : JsonRpcClient) : Prop
  | unopened : r.isOk = false → Failed (openings threadId permissions homeyConnector) c'.log →
      TurnSession transport threadId utterance permissions homeyConnector r c'
  | unstarted {opening es : List Event} : r.isOk = false →
      Opening threadId permissions homeyConnector opening →
      Sends (turnMessage threadId utterance) es → c'.log = opening ++ es →
      TurnSession transport threadId utterance permissions homeyConnector r c'
  | started {opening es : List Event} {result : Value} {turnId : Text} {c : JsonRpcClient} :
      Opening threadId permissions homeyConnector opening →
      Exchange 3 turnStart (turnStartParams threadId utterance) result es →
      c.log = opening ++ es →
      Runs (collectTurn transport threadId turnId homeyConnector) c r c' →
      TurnSession transport threadId utterance permissions homeyConnector r c'

theorem check_bind {α β : Type} {result : Except CodexRuntimeError α} {f : α → Rpc β}
    {c c' : JsonRpcClient} {r : Except CodexRuntimeError β}
    (h : Runs (check result >>= f) c r c') :
    (∃ a, result = .ok a ∧ Runs (f a) c r c') ∨ r.isOk = false ∧ c' = c := by
  rcases Runs.bind_iff.mp h with ⟨a, c₁, hcheck, hrest⟩ | ⟨e, hcheck, rfl⟩
  · obtain ⟨hresult, rfl⟩ := check_runs hcheck
    exact .inl ⟨a, hresult.symm, hrest⟩
  · exact .inr ⟨rfl, (check_runs hcheck).2⟩

theorem turnWith_session {incoming : Incoming} {r : Except CodexRuntimeError Text}
    {c' : JsonRpcClient}
    (h : Runs (runtime.turnWith transport house threadId utterance) (.connect incoming) r c') :
    r.isOk = false ∧ c'.log = [] ∨
      ∃ homeyConnector, runtime.homeyConnector house = .ok homeyConnector ∧
        TurnSession transport threadId utterance (runtime.permissions house) homeyConnector r
          c' := by
  unfold CodexRuntime.turnWith at h
  split at h
  · obtain ⟨rfl, rfl⟩ := Runs.throw_iff.mp h
    exact .inl ⟨rfl, rfl⟩
  split at h
  · obtain ⟨rfl, rfl⟩ := Runs.throw_iff.mp h
    exact .inl ⟨rfl, rfl⟩
  rcases check_bind h with ⟨connector, hconnector, h⟩ | ⟨hr, rfl⟩
  swap
  · exact .inl ⟨hr, rfl⟩
  refine .inr ⟨connector, hconnector, ?_⟩
  rcases Runs.bind_iff.mp h with ⟨_, c₁, hgreet, h⟩ | ⟨e, hgreet, rfl⟩
  swap
  · obtain ⟨-, es, hlog, hsent, hconsumed⟩ := initializeClient_greets hgreet
    have hlog : c'.log = es := hlog
    exact .unopened rfl (hlog ▸ ⟨hsent.trans (List.prefix_append _ _), hconsumed⟩)
  obtain ⟨hnext₁, greeting, hlog₁, hgreeted⟩ := initializeClient_greets hgreet
  have hlog₁ : c₁.log = greeting := hlog₁
  have hnext₁ : c₁.nextId = 2 := hnext₁
  rcases Runs.bind_iff.mp h with ⟨resumed, c₂, hresume, h⟩ | ⟨e, hresume, rfl⟩
  swap
  · obtain ⟨-, es, hlog, hfailed⟩ := request_exchange hresume
    rw [hnext₁] at hfailed
    exact .unopened rfl
      (hlog.trans (by rw [hlog₁]) ▸ failed_after (sends_failed hfailed) (greeted_sent hgreeted))
  obtain ⟨hnext₂, resuming, hlog₂, hresumed⟩ := request_exchange hresume
  rw [hnext₁] at hnext₂ hresumed
  have hopened : Failed (openings threadId (runtime.permissions house) connector) c₂.log := by
    rw [hlog₂, hlog₁]
    exact failed_after (sends_failed (.inr (exchange_sends hresumed))) (greeted_sent hgreeted)
  rcases check_bind h with ⟨_, hpermissions, h⟩ | ⟨hr, rfl⟩
  swap
  · exact .unopened hr hopened
  rcases check_bind h with ⟨resumedId, hid, h⟩ | ⟨hr, rfl⟩
  swap
  · exact .unopened hr hopened
  split at h
  · obtain ⟨rfl, rfl⟩ := Runs.throw_iff.mp h
    exact .unopened rfl hopened
  next hsame =>
  obtain rfl := not_not.mp hsame
  have hopening : Opening resumedId (runtime.permissions house) connector (greeting ++ resuming) :=
    .mk hgreeted hresumed (requiredString_ok hid) (validatePermissionResult_ok hpermissions)
  have hlog₂ : c₂.log = greeting ++ resuming := by rw [hlog₂, hlog₁]
  rcases Runs.bind_iff.mp h with ⟨started, c₃, hstart, h⟩ | ⟨e, hstart, rfl⟩
  swap
  · obtain ⟨-, es, hlog, hfailed⟩ := request_exchange hstart
    rw [hnext₂] at hfailed
    rcases hfailed with rfl | hsends
    · exact .unopened rfl (hlog.trans (List.append_nil _) ▸ hopened)
    · exact .unstarted rfl hopening hsends (hlog.trans (by rw [hlog₂]))
  obtain ⟨-, es, hlog₃, hstarted⟩ := request_exchange hstart
  rw [hnext₂] at hstarted
  have hlog₃ : c₃.log = greeting ++ resuming ++ es := by rw [hlog₃, hlog₂]
  rcases check_bind h with ⟨turnId, hturn, h⟩ | ⟨hr, rfl⟩
  · exact .started hopening hstarted hlog₃ h
  · exact .unstarted hr hopening (exchange_sends hstarted) hlog₃

end Turns

/-! ## The laws of a session -/

/-- The MCP servers that a message configures. -/
def enabledServers (message : Value) : List Text :=
  match message.pointer (path ["params", "config", "mcp_servers"]) with
  | some (.object fields) => fields.map Prod.fst
  | _ => []

/-- The validated connector of the house, when Homey is enabled. -/
structure OwnConnector (runtime : CodexRuntime) (house : HouseContext) (server : Text) : Prop where
  enabled : runtime.config.homeyEnabled = true
  own : server = house.homeyConnectorId
  valid : validHomeyConnector server = true

structure Orderly (runtime : CodexRuntime) (house : HouseContext) (log : List Event) : Prop where
  ids : ∃ n, requestIds log = List.range' 1 n
  servers : ∀ message ∈ sent log, ∀ server ∈ enabledServers message,
    OwnConnector runtime house server

section Laws

variable {runtime : CodexRuntime} {transport : Transport} {house : HouseContext}
  {threadId utterance : Text} {homeyConnector : Option Text}

theorem homeyConnector_own {server : Text}
    (h : runtime.homeyConnector house = .ok (some server)) :
    OwnConnector runtime house server := by
  unfold CodexRuntime.homeyConnector at h
  split at h
  · cases h
  · next henabled =>
    split at h
    · next hvalid =>
      obtain rfl := Option.some.inj (Except.ok.inj h)
      exact ⟨by simpa using henabled, rfl, hvalid⟩
    · cases h

theorem isolated_servers (homeyConnector : Option Text) :
    (isolatedHouseConfig homeyConnector).get "mcp_servers".toList =
      homeyConnector.map fun connector =>
        .object [(connector, .object [("enabled".toList, .bool true)])] := by
  cases homeyConnector <;> rfl

theorem servers_of_config {id : Nat} {method server : Text} {params : Value}
    (hconfig : params.get "config".toList = none ∨
      params.get "config".toList = some (isolatedHouseConfig homeyConnector))
    (hserver : server ∈ enabledServers (requestMessage id method params)) :
    homeyConnector = some server := by
  have hparams : (requestMessage id method params).get "params".toList = some params := by
    simp [requestMessage, Value.get_object_cons]
  unfold enabledServers path at hserver
  rw [List.map_cons, Value.pointer_cons, hparams, Option.bind_some, List.map_cons,
    Value.pointer_cons] at hserver
  rcases hconfig with hconfig | hconfig
  · rw [hconfig] at hserver
    cases hserver
  · rw [hconfig, Option.bind_some, List.map_cons, Value.pointer_cons, isolated_servers] at hserver
    cases homeyConnector with
    | none => cases hserver
    | some connector => exact congrArg some (List.mem_singleton.mp hserver).symm

/-- All that a session may send, in order. -/
theorem orderly_of_sent {messages : List Value} {log : List Event} {n : Nat}
    (hlog : sent log <+: messages)
    (hids : (messages.filterMap fun message => (idOf message).bind Value.asU64) =
      List.range' 1 n)
    (hservers : ∀ message ∈ messages, ∀ server ∈ enabledServers message,
      OwnConnector runtime house server) :
    Orderly runtime house log := by
  constructor
  · have hprefix := hlog.filterMap fun message => (idOf message).bind Value.asU64
    rw [hids] at hprefix
    have hlength : (requestIds log).length ≤ n :=
      hprefix.length_le.trans_eq List.length_range'
    refine ⟨(requestIds log).length, (List.prefix_iff_eq_take.mp hprefix).trans ?_⟩
    exact List.take_range'_of_length_ge hlength
  · intro message hmessage
    exact hservers message (hlog.subset hmessage)

theorem greetings_servers {id : Nat} {message : Value} (hmessage : message ∈ greetings id) :
    enabledServers message = [] := by
  simp only [greetings, List.mem_cons, List.not_mem_nil, or_false] at hmessage
  rcases hmessage with rfl | rfl
  · simp [enabledServers, path, requestMessage, initializeParams, Value.get_object_cons]
  · simp [enabledServers, path, notificationMessage, Value.get_object_cons]

/-- A handshake, a request that configures the thread, and one that does not. -/
theorem session_orderly {connector : Option Text} {log : List Event}
    {method : Text} {params : Value} {later : List Value}
    (hconnector : runtime.homeyConnector house = .ok connector)
    (hconfig : params.get "config".toList = some (isolatedHouseConfig connector))
    (hlater : later = [] ∨ ∃ threadId utterance, later = [turnMessage threadId utterance])
    (hlog : sent log <+: greetings 1 ++ [requestMessage 2 method params] ++ later) :
    Orderly runtime house log := by
  refine orderly_of_sent (n := 2 + later.length) hlog ?_ ?_
  · rcases hlater with rfl | ⟨threadId, utterance, rfl⟩ <;>
      simp [greetings, turnMessage, idOf, requestMessage, notificationMessage,
        Value.get_object_cons] <;> rfl
  · intro message hmessage server hserver
    rw [List.mem_append, List.mem_append, List.mem_singleton] at hmessage
    rcases hmessage with (hmessage | rfl) | hmessage
    · rw [greetings_servers hmessage] at hserver
      cases hserver
    · obtain rfl := servers_of_config (.inr hconfig) hserver
      exact homeyConnector_own hconnector
    · rcases hlater with rfl | ⟨threadId, utterance, rfl⟩
      · cases hmessage
      · obtain rfl := List.mem_singleton.mp hmessage
        have hplain : (turnStartParams threadId utterance).get "config".toList = none := by
          simp [turnStartParams, Value.get_object_cons]
        have hnone : (none : Option Text) = some server := servers_of_config (.inl hplain) hserver
        cases hnone

theorem startThreadWith_orderly {instructions : Text} {incoming : Incoming}
    {r : Except CodexRuntimeError Text} {c' : JsonRpcClient}
    (h : Runs (runtime.startThreadWith transport house instructions) (.connect incoming) r c') :
    Orderly runtime house c'.log := by
  have hempty {log : List Event} (hlog : log = []) : Orderly runtime house log :=
    hlog ▸ ⟨⟨0, rfl⟩, fun message hmessage => by cases hmessage⟩
  unfold CodexRuntime.startThreadWith at h
  split at h
  · obtain ⟨rfl, rfl⟩ := Runs.throw_iff.mp h
    exact hempty rfl
  rcases check_bind h with ⟨connector, hconnector, h⟩ | ⟨hr, rfl⟩
  swap
  · exact hempty rfl
  have hconfig : (threadStartParams (joinPath runtime.config.cwdRoot (decimal house.id))
      (runtime.permissions house) instructions connector).get "config".toList =
        some (isolatedHouseConfig connector) := by
    simp [threadStartParams, Value.get_object_cons]
  suffices hlog : Failed (greetings 1 ++ [requestMessage 2 threadStart (threadStartParams
      (joinPath runtime.config.cwdRoot (decimal house.id)) (runtime.permissions house)
      instructions connector)]) c'.log from
    session_orderly hconnector hconfig (.inl rfl) (by rw [List.append_nil]; exact hlog.sent)
  rcases Runs.bind_iff.mp h with ⟨_, c₁, hgreet, h⟩ | ⟨e, hgreet, rfl⟩
  · obtain ⟨hnext₁, greeting, hlog₁, hgreeted⟩ := initializeClient_greets hgreet
    have hlog₁ : c₁.log = greeting := hlog₁
    have hnext₁ : c₁.nextId = 2 := hnext₁
    rcases Runs.bind_iff.mp h with ⟨result, c₂, hstart, h⟩ | ⟨e, hstart, rfl⟩
    · obtain ⟨-, es, hlog₂, hstarted⟩ := request_exchange hstart
      have hsame : c'.log = c₂.log := by
        rcases check_bind h with ⟨_, -, h⟩ | ⟨-, rfl⟩
        · rw [(check_runs h).2]
        · rfl
      rw [hsame, hlog₂, hlog₁, ← hnext₁]
      exact failed_after (sends_failed (.inr (exchange_sends hstarted))) (greeted_sent hgreeted)
    · obtain ⟨-, es, hlog, hfailed⟩ := request_exchange hstart
      rw [hlog, hlog₁, ← hnext₁]
      exact failed_after (sends_failed hfailed) (greeted_sent hgreeted)
  · obtain ⟨-, es, hlog, hsent, hconsumed⟩ := initializeClient_greets hgreet
    have hlog : c'.log = es := hlog
    exact hlog ▸ ⟨hsent.trans (List.prefix_append _ _), hconsumed⟩

/-- Programs that write replies only. -/
abbrev Mute {α : Type} (m : Rpc α) : Prop :=
  Emits JsonRpcClient.log (fun _ => True) (fun _ es => sent es = []) m

theorem composes_mute : Composes (fun _ es => sent es = []) where
  nil _ := rfl
  append h h' := by rw [sent_append, h, h']; rfl

theorem mute_takeSource (source : Source) : Mute (takeSource source) := by
  intro c r c' hI h
  refine ⟨trivial, ?_⟩
  cases source with
  | buffered message =>
    rw [takeSource, Runs.modify_bind] at h
    obtain ⟨-, rfl⟩ := Runs.pure_iff.mp h
    exact ⟨[], by simp, rfl⟩
  | live result =>
    cases result with
    | error error =>
      rw [takeSource, Runs.modify_bind] at h
      obtain ⟨-, rfl⟩ := Runs.throw_iff.mp h
      exact ⟨[], by simp, rfl⟩
    | ok message =>
      rw [takeSource, Runs.modify_bind] at h
      obtain ⟨-, rfl⟩ := Runs.pure_iff.mp h
      exact ⟨[.read message], rfl, rfl⟩

theorem mute_collectMessage (turnId : Text) (collected : Collected) (message : Value) :
    Mute (collectMessage transport threadId turnId homeyConnector collected message) := by
  unfold collectMessage
  split
  · next hrequest =>
    refine .bind composes_mute ?_ fun _ => .pure composes_mute _
    intro c r c' hI h
    rw [Bool.and_eq_true] at hrequest
    obtain ⟨es, hserved, rfl⟩ := handle_runs hrequest.2 h
    exact ⟨trivial, es, rfl, served_sent hserved⟩
  · intro c r c' hI h
    obtain ⟨-, rfl⟩ := check_runs h
    exact ⟨trivial, [], by simp, rfl⟩

theorem mute_collectLoop (turnId : Text) (sources : List Source) (collected : Collected) :
    Mute (collectLoop transport threadId turnId homeyConnector sources collected) := by
  induction sources generalizing collected with
  | nil => exact .throw composes_mute _
  | cons source rest ih =>
    refine .bind composes_mute (mute_takeSource source) fun message => ?_
    refine .bind composes_mute ?_ fun _ => ?_
    · intro c r c' hI h
      obtain ⟨-, rfl⟩ := Runs.modify_iff.mp h
      exact ⟨trivial, [.consumed message], rfl, rfl⟩
    · refine .bind composes_mute (mute_collectMessage turnId collected message) fun progress => ?_
      cases progress with
      | more collected => exact ih collected
      | done text => exact .pure composes_mute text

theorem mute_collectTurn (turnId : Text) :
    Mute (collectTurn transport threadId turnId homeyConnector) :=
  .bind composes_mute (.get composes_mute) fun _ => mute_collectLoop turnId _ _

theorem mem_sent {message : Value} {es : List Event}
    (hmethod : (methodOf message).isSome = true) (h : Event.wrote message ∈ es) :
    message ∈ sent es := by
  unfold sent
  refine List.mem_filterMap.mpr ⟨_, h, ?_⟩
  simp [hmethod]

/-- The utterance is not among the messages that open a thread. -/
theorem openings_method {permissions : Text} {connector : Option Text} {message : Value}
    (hmessage : message ∈ openings threadId permissions connector) :
    methodOf message ≠ some (.string turnStart) := by
  simp only [openings, greetings, List.mem_append, List.mem_cons, List.not_mem_nil,
    or_false] at hmessage
  have hdiffers {method : Text} (h : method ≠ turnStart) :
      some (Value.string method) ≠ some (.string turnStart) :=
    fun hsame => h (Value.string.inj (Option.some.inj hsame))
  rcases hmessage with (rfl | rfl) | rfl
  · rw [requestMessage_method]
    exact hdiffers (by decide)
  · rw [notificationMessage_method]
    exact hdiffers (by decide)
  · rw [requestMessage_method]
    exact hdiffers (by decide)

theorem turn_log {r : Except CodexRuntimeError Text} {c' : JsonRpcClient} {permissions : Text}
    (h : TurnSession transport threadId utterance permissions homeyConnector r c') :
    sent c'.log <+: openings threadId permissions homeyConnector ∨
      ∃ opening rest, Opening threadId permissions homeyConnector opening ∧
        c'.log = opening ++ .wrote (turnMessage threadId utterance) :: rest ∧ sent rest = [] := by
  cases h with
  | unopened _ hfailed => exact .inl hfailed.sent
  | unstarted _ hopening hsends hlog =>
    obtain ⟨rest, rfl, hrest, -⟩ := hsends.first
    exact .inr ⟨_, rest, hopening, hlog, hrest⟩
  | started hopening hexchange hlog hcollect =>
    obtain ⟨rest, rfl, hrest, -⟩ := (exchange_sends hexchange).first
    obtain ⟨-, es, hlog', hes⟩ := mute_collectTurn _ _ _ _ trivial hcollect
    refine .inr ⟨_, rest ++ es, hopening, ?_, ?_⟩
    · rw [hlog', hlog, List.append_assoc]
      rfl
    · rw [sent_append, hrest, hes]
      rfl

/-- Where a `turn/start` was written, the thread had been opened, and no other is. -/
theorem turn_written {log before after : List Event} {message : Value} {permissions : Text}
    (h : sent log <+: openings threadId permissions homeyConnector ∨
      ∃ opening rest, Opening threadId permissions homeyConnector opening ∧
        log = opening ++ .wrote (turnMessage threadId utterance) :: rest ∧ sent rest = [])
    (hlog : log = before ++ .wrote message :: after)
    (hmethod : methodOf message = some (.string turnStart)) :
    Opening threadId permissions homeyConnector before ∧
      message = turnMessage threadId utterance ∧
      ∀ other ∈ sent (before ++ after), methodOf other ≠ some (.string turnStart) := by
  have hown : (methodOf message).isSome = true := by rw [hmethod]; rfl
  rcases h with hsent | ⟨opening, rest, hopening, hsplit, hrest⟩
  · have hmem : message ∈ sent log := mem_sent hown (by simp [hlog])
    exact absurd hmethod (openings_method (hsent.subset hmem))
  · have hbefore : Event.wrote message ∉ opening := by
      intro hmem
      have hmem := mem_sent hown hmem
      rw [(opening_sent hopening).1] at hmem
      exact openings_method hmem hmethod
    have hafter : Event.wrote message ∉ rest := by
      intro hmem
      have hmem := mem_sent hown hmem
      rw [hrest] at hmem
      cases hmem
    obtain ⟨rfl, hturn, rfl⟩ :=
      (List.append_cons_inj_of_notMem hbefore hafter).mp (hsplit.symm.trans hlog)
    refine ⟨hopening, (Event.wrote.inj hturn).symm, ?_⟩
    intro other hother
    rw [sent_append, hrest, List.append_nil, (opening_sent hopening).1] at hother
    exact openings_method hother

theorem turn_orderly {r : Except CodexRuntimeError Text} {c' : JsonRpcClient}
    (hconnector : runtime.homeyConnector house = .ok homeyConnector)
    (h : TurnSession transport threadId utterance (runtime.permissions house) homeyConnector r
      c') : Orderly runtime house c'.log := by
  have hconfig : (threadResumeParams threadId (runtime.permissions house) homeyConnector).get
      "config".toList = some (isolatedHouseConfig homeyConnector) := by
    simp [threadResumeParams, Value.get_object_cons]
  suffices hsent : sent c'.log <+: openings threadId (runtime.permissions house)
      homeyConnector ++ [turnMessage threadId utterance] from
    session_orderly hconnector hconfig (.inr ⟨threadId, utterance, rfl⟩) hsent
  rcases turn_log h with hsent | ⟨opening, rest, hopening, hlog, hrest⟩
  · exact hsent.trans (List.prefix_append _ _)
  · refine ⟨[], ?_⟩
    rw [List.append_nil, hlog, sent_append, sent_wrote (by simp [turnMessage]), hrest,
      (opening_sent hopening).1]

end Laws

/-- An utterance is written only into its own, confirmed thread, and at most once; every
session numbers its requests from one and enables no connector but the house's; and every
result comes from the answer to its own request. -/
theorem utterance_in_confirmed_thread (runtime : CodexRuntime) (transport : Transport)
    (house : HouseContext) (incoming : Incoming) :
    (∀ threadId utterance,
      let log := (outcome (runtime.turnWith transport house threadId utterance) incoming).2.log
      Orderly runtime house log ∧
        ∀ before message after, log = before ++ .wrote message :: after →
          methodOf message = some (.string turnStart) →
          (∃ homeyConnector, runtime.homeyConnector house = .ok homeyConnector ∧
            Opening threadId (runtime.permissions house) homeyConnector before) ∧
          message = turnMessage threadId utterance ∧
          ∀ other ∈ sent (before ++ after), methodOf other ≠ some (.string turnStart)) ∧
    (∀ instructions, Orderly runtime house
      (outcome (runtime.startThreadWith transport house instructions) incoming).2.log) ∧
    ∀ method params client result client',
      Runs (request transport method params) client (.ok result) client' →
      ∃ waiting answer, client'.log = client.log ++
          .wrote (requestMessage client.nextId method params) :: (waiting ++ [.read answer]) ∧
        Answers client.nextId answer result := by
  refine ⟨?_, fun instructions => startThreadWith_orderly (outcome_runs _ incoming), ?_⟩
  · intro threadId utterance
    rcases turnWith_session (outcome_runs (runtime.turnWith transport house threadId utterance)
      incoming) with ⟨-, hlog⟩ | ⟨connector, hconnector, hsession⟩
    · simp only [hlog]
      refine ⟨⟨⟨0, rfl⟩, fun message hmessage => by cases hmessage⟩, ?_⟩
      intro before message after hsplit
      simp at hsplit
    · refine ⟨turn_orderly hconnector hsession, ?_⟩
      intro before message after hsplit hmethod
      obtain ⟨hopening, hrest⟩ := turn_written (turn_log hsession) hsplit hmethod
      exact ⟨⟨connector, hconnector, hopening⟩, hrest⟩
  · intro method params client result client' h
    obtain ⟨-, es, hlog, -, hanswers⟩ := request_exchange h
    exact ⟨_, _, hlog, hanswers⟩

end AliceBridge.Runtime.Session
