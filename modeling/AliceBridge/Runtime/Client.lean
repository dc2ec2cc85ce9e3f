import AliceBridge.Lib.Program
import AliceBridge.Runtime.Protocol

/-! # The JSON-RPC client

`JsonRpcClient` of `client.rs` over one connection. What the peer sends is the
list of results its `read_message` calls have; an exhausted list is the end of
the stream. `Transport` decides which writes fail. The client keeps a log of
what it wrote, read, and took into the collection of a turn. -/
namespace AliceBridge.Runtime.Client
open AliceBridge.Lib.Utf8 AliceBridge.Lib.Json AliceBridge.Lib.Program
open AliceBridge.Runtime.Protocol

inductive CodexRuntimeError where
  | invalidConfig (message : Text)
  | transport
  | endOfStream
  | invalidMessage
  | messageTooLarge
  | server (code : Int)
  | protocol (message : Text)
  | forbiddenRequest
deriving DecidableEq, Repr

inductive Event where
  | wrote (message : Value)
  | read (message : Value)
  | consumed (message : Value)

/-- The messages written to the server. -/
def written (log : List Event) : List Value :=
  log.filterMap fun event => match event with
    | .wrote message => some message
    | _ => none

/-- The error of a write, if it fails; it may depend on all that went before. -/
abbrev Transport := List Event → Value → Option CodexRuntimeError

abbrev Incoming := List (Except CodexRuntimeError Value)

structure JsonRpcClient where
  incoming : Incoming
  nextId : Nat
  notifications : List Value
  log : List Event

/-- A client on a new connection. -/
def JsonRpcClient.connect (incoming : Incoming) : JsonRpcClient :=
  { incoming := incoming
    nextId := 1
    notifications := []
    log := [] }

abbrev Rpc := Prog JsonRpcClient CodexRuntimeError

/-- The checks of a message, which read no state. -/
def check {α : Type} (result : Except CodexRuntimeError α) : Rpc α := MonadExcept.ofExcept result

def protocolError {α : Type} (message : String) : Except CodexRuntimeError α :=
  .error (.protocol message.toList)

def methodOf (message : Value) : Option Value := message.get "method".toList

def idOf (message : Value) : Option Value := message.get "id".toList

/-! ## Writing and reading -/

def logged (event : Event) (client : JsonRpcClient) : JsonRpcClient :=
  { client with log := client.log ++ [event] }

def writeMessage (transport : Transport) (message : Value) : Rpc Unit := do
  let client ← get
  match transport client.log message with
  | some error => throw error
  | none => modify (logged (.wrote message))

/-- A message has come in; `rest` is what is still to come. -/
def received (message : Value) (rest : Incoming) (client : JsonRpcClient) : JsonRpcClient :=
  { client with incoming := rest, log := client.log ++ [.read message] }

def requestMessage (id : Nat) (method : Text) (params : Value) : Value :=
  .object [("id".toList, .ofNat id), ("method".toList, .string method), ("params".toList, params)]

def notificationMessage (method : Text) : Value := .object [("method".toList, .string method)]

/-- `notify` without parameters, as its only call has it. -/
def notify (transport : Transport) (method : Text) : Rpc Unit :=
  writeMessage transport (notificationMessage method)

def declineMessage (id : Value) : Value :=
  .object [("id".toList, id),
    ("result".toList, .object [("decision".toList, .string "decline".toList)])]

def rejectMessage (id : Value) : Value :=
  .object [("id".toList, id),
    ("error".toList, .object [
      ("code".toList, .number (.negInt (-32601))),
      ("message".toList, .string "method not allowed".toList)])]

/-- The two server requests that are declined; all others are rejected. -/
def approvals : List Text :=
  ["item/commandExecution/requestApproval".toList, "item/fileChange/requestApproval".toList]

def handleServerRequest (transport : Transport) (message : Value) : Rpc Unit :=
  match idOf message with
  | none => throw (.protocol "server request has no id".toList)
  | some id =>
    match (methodOf message).bind Value.asStr with
    | none => throw (.protocol "server request has no method".toList)
    | some method =>
      if approvals.contains method then writeMessage transport (declineMessage id)
      else do
        writeMessage transport (rejectMessage id)
        throw .forbiddenRequest

/-! ## Requests -/

/-- The result of the message that answers the request `id`. -/
def responseResult (id : Nat) (message : Value) : Except CodexRuntimeError Value :=
  if (idOf message).bind Value.asU64 ≠ some id then
    protocolError "response id does not match the request"
  else
    match message.get "error".toList with
    | some error => .error (.server (((error.get "code".toList).bind Value.asI64).getD (-1)))
    | none =>
      match message.get "result".toList with
      | some result => .ok result
      | none => protocolError "response has no result"

/-- The loop of `request`. -/
def awaitResponse (transport : Transport) (id : Nat) : Incoming → Rpc Value
  | [] => throw .endOfStream
  | .error error :: rest => do
    modify fun client => { client with incoming := rest }
    throw error
  | .ok message :: rest => do
    modify (received message rest)
    if (methodOf message).isSome then
      if (idOf message).isSome then
        handleServerRequest transport message
        awaitResponse transport id rest
      else
        modify fun client => { client with notifications := client.notifications ++ [message] }
        awaitResponse transport id rest
    else check (responseResult id message)

def request (transport : Transport) (method : Text) (params : Value) : Rpc Value := do
  let client ← get
  modify fun client => { client with nextId := client.nextId + 1 }
  writeMessage transport (requestMessage client.nextId method params)
  awaitResponse transport client.nextId client.incoming

/-! ## Collecting a turn -/

def path (tokens : List String) : List Text := tokens.map String.toList

/-- `pointer(..).and_then(Value::as_str)`. -/
def stringAt (value : Value) (tokens : List String) : Option Text :=
  (value.pointer (path tokens)).bind Value.asStr

/-- `pointer(..).and_then(Value::as_bool)`. -/
def boolAt (value : Value) (tokens : List String) : Option Bool :=
  (value.pointer (path tokens)).bind Value.asBool

def requireTurn (message : Value) (threadId turnId : Text) : Except CodexRuntimeError Unit :=
  if stringAt message ["params", "threadId"] ≠ some threadId ∨
      stringAt message ["params", "turnId"] ≠ some turnId then
    protocolError "notification belongs to another thread or turn"
  else .ok ()

def requireCompletedTurn (message : Value) (threadId turnId : Text) :
    Except CodexRuntimeError Unit :=
  if stringAt message ["params", "threadId"] ≠ some threadId ∨
      stringAt message ["params", "turn", "id"] ≠ some turnId ∨
      stringAt message ["params", "turn", "status"] ≠ some "completed".toList then
    protocolError "turn completed with mismatched identity or status"
  else .ok ()

/-- The tools that only read. -/
def readingTools : List Text := ["list_attention_items".toList, "get_device_state".toList]

def setDeviceCapability : Text := "set_device_capability".toList

/-- The local `completed` of `observe_homey_tool`. -/
def callCompleted (message : Value) : Bool :=
  stringAt message ["params", "item", "status"] = some "completed".toList

/-- The local `verified` of `observe_homey_tool`. -/
def callVerified (message : Value) : Bool :=
  (boolAt message ["params", "item", "result", "structuredContent", "verified"]).getD false

/-- `observe_homey_tool`; the result is the new `unverified_mutation`. -/
def observeHomeyTool (message : Value) (threadId turnId : Text) (homeyConnector : Option Text)
    (unverifiedMutation : Bool) : Except CodexRuntimeError Bool := do
  requireTurn message threadId turnId
  if stringAt message ["params", "item", "type"] ≠ some "mcpToolCall".toList then
    return unverifiedMutation
  else if stringAt message ["params", "item", "server"] ≠ homeyConnector then
    throw .forbiddenRequest
  else
    match stringAt message ["params", "item", "tool"] with
    | none => protocolError "MCP item has no tool name"
    | some tool =>
      if readingTools.contains tool then return unverifiedMutation
      else if tool = setDeviceCapability then
        return unverifiedMutation || !(callCompleted message && callVerified message)
      else throw .forbiddenRequest

/-- The speech for a turn with an unverified mutation. -/
def unconfirmed : Text := "Не получилось подтвердить изменение устройства.".toList

structure Collected where
  assistantText : Text
  unverifiedHomeyMutation : Bool

/-- The loop goes on, or the turn is over. -/
inductive Progress where
  | more (collected : Collected)
  | done (text : Text)

/-- A notification in the loop of `collect_turn`. -/
def collectNotification (threadId turnId : Text) (homeyConnector : Option Text)
    (collected : Collected) (message : Value) : Except CodexRuntimeError Progress :=
  match (methodOf message).bind Value.asStr with
  | none => protocolError "unexpected response while waiting for turn"
  | some method =>
    if method = agentMessageDelta then do
      requireTurn message threadId turnId
      match stringAt message ["params", "delta"] with
      | none => protocolError "agent delta has no text"
      | some delta =>
        return .more { collected with assistantText := collected.assistantText ++ delta }
    else if method = itemCompleted then do
      let unverified ← observeHomeyTool message threadId turnId homeyConnector
        collected.unverifiedHomeyMutation
      return .more { collected with unverifiedHomeyMutation := unverified }
    else if method = turnCompleted then do
      requireCompletedTurn message threadId turnId
      if collected.unverifiedHomeyMutation then return .done unconfirmed
      else if collected.assistantText.isEmpty then
        protocolError "completed turn has no assistant text"
      else return .done collected.assistantText
    else return .more collected

def collectMessage (transport : Transport) (threadId turnId : Text)
    (homeyConnector : Option Text) (collected : Collected) (message : Value) : Rpc Progress := do
  if (methodOf message).isSome && (idOf message).isSome then
    handleServerRequest transport message
    return .more collected
  else check (collectNotification threadId turnId homeyConnector collected message)

/-- What the loop takes next: a buffered notification, or the next read. -/
inductive Source where
  | buffered (message : Value)
  | live (result : Except CodexRuntimeError Value)

/-- All the loop can take. It buffers nothing itself, so the queue comes first and
then the connection. -/
def JsonRpcClient.sources (client : JsonRpcClient) : List Source :=
  client.notifications.map .buffered ++ client.incoming.map .live

/-- `notifications.pop_front()`, or else `read_message`. -/
def takeSource : Source → Rpc Value
  | .buffered message => do
    modify fun client => { client with notifications := client.notifications.tail }
    return message
  | .live (.error error) => do
    modify fun client => { client with incoming := client.incoming.tail }
    throw error
  | .live (.ok message) => do
    modify fun client => received message client.incoming.tail client
    return message

/-- The loop of `collect_turn`. -/
def collectLoop (transport : Transport) (threadId turnId : Text) (homeyConnector : Option Text) :
    List Source → Collected → Rpc Text
  | [], _ => throw .endOfStream
  | source :: rest, collected => do
    let message ← takeSource source
    modify (logged (.consumed message))
    match ← collectMessage transport threadId turnId homeyConnector collected message with
    | .more collected => collectLoop transport threadId turnId homeyConnector rest collected
    | .done text => return text

def collectTurn (transport : Transport) (threadId turnId : Text) (homeyConnector : Option Text) :
    Rpc Text := do
  let client ← get
  collectLoop transport threadId turnId homeyConnector client.sources ⟨[], false⟩

end AliceBridge.Runtime.Client
