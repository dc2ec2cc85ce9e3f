import AliceBridge.Lib.Json

/-! # The webhook request

`request.rs`: the structs of a webhook call and their derived `Deserialize`, on the tree of
a body. A struct is read from an object, whose fields may stand in any order, or from an
array of its fields in theirs. The values of names it does not know are not looked at. -/
namespace AliceBridge.Protocol.Request
open AliceBridge.Lib.Utf8 AliceBridge.Lib.Json

structure Meta where
  locale : Text
  timezone : Text
  clientId : Text
deriving DecidableEq, Repr

structure AccountUser where
  userId : Text
deriving DecidableEq, Repr

structure Application where
  applicationId : Text
deriving DecidableEq, Repr

structure Session where
  messageId : Nat
  sessionId : Text
  skillId : Text
  new : Bool
  user : Option AccountUser
  application : Application
deriving DecidableEq, Repr

inductive RequestKind where
  | simpleUtterance
  | buttonPressed
  | other
deriving DecidableEq, Repr

structure UserRequest where
  command : Text
  originalUtterance : Text
  kind : RequestKind
deriving DecidableEq, Repr

structure WebhookRequest where
  metadata : Meta
  session : Session
  request : UserRequest
  version : Text
deriving DecidableEq, Repr

/-! ## Structs -/

/-- What the fields of a struct are read from. -/
abbrev Slots := Text → Option Value

def Slots.put (slots : Slots) (name : Text) (value : Value) : Slots :=
  fun other => if other = name then some value else slots other

/-- `visit_map`: a second value of a field is an error. -/
def visitMap (names : List Text) : Slots → List (Text × Value) → Option Slots
  | slots, [] => some slots
  | slots, (name, value) :: fields =>
    if names.contains name then
      if (slots name).isSome then none else visitMap names (slots.put name value) fields
    else visitMap names slots fields

/-- `visit_seq`; an item after the last field is an error. -/
def visitSeq (names : List Text) (items : List Value) : Option Slots :=
  if items.length ≤ names.length then some fun name => (names.zip items).lookup name else none

def deserializeStruct (names : List Text) : Value → Option Slots
  | .object fields => visitMap names (fun _ => none) fields
  | .array items => visitSeq names items
  | _ => none

/-- `#[serde(default)]`. -/
def withDefault {α : Type} (read : Value → Option α) (default : α) : Option Value → Option α
  | some value => read value
  | none => some default

/-- `Option`: `null` is none. -/
def readOption {α : Type} (read : Value → Option α) : Value → Option (Option α)
  | .null => some none
  | value => (read value).map some

def RequestKind.named (name : Text) : RequestKind :=
  if name = "SimpleUtterance".toList then .simpleUtterance
  else if name = "ButtonPressed".toList then .buttonPressed
  else .other

/-- A unit variant is its name, or an object of its name with `null`. -/
def RequestKind.read : Value → Option RequestKind
  | .string name => some (.named name)
  | .object [(name, .null)] => some (.named name)
  | _ => none

def Meta.names : List Text := ["locale".toList, "timezone".toList, "client_id".toList]

def Meta.read (value : Value) : Option Meta := do
  let slots ← deserializeStruct Meta.names value
  let locale ← (slots "locale".toList).bind Value.asStr
  let timezone ← (slots "timezone".toList).bind Value.asStr
  let clientId ← withDefault Value.asStr [] (slots "client_id".toList)
  return { locale, timezone, clientId }

def AccountUser.names : List Text := ["user_id".toList]

def AccountUser.read (value : Value) : Option AccountUser := do
  let slots ← deserializeStruct AccountUser.names value
  let userId ← (slots "user_id".toList).bind Value.asStr
  return { userId }

def Application.names : List Text := ["application_id".toList]

def Application.read (value : Value) : Option Application := do
  let slots ← deserializeStruct Application.names value
  let applicationId ← (slots "application_id".toList).bind Value.asStr
  return { applicationId }

def Session.names : List Text :=
  ["message_id".toList, "session_id".toList, "skill_id".toList, "new".toList, "user".toList,
    "application".toList]

def Session.read (value : Value) : Option Session := do
  let slots ← deserializeStruct Session.names value
  let messageId ← (slots "message_id".toList).bind Value.asU64
  let sessionId ← (slots "session_id".toList).bind Value.asStr
  let skillId ← (slots "skill_id".toList).bind Value.asStr
  let new ← (slots "new".toList).bind Value.asBool
  let user ← withDefault (readOption AccountUser.read) none (slots "user".toList)
  let application ← (slots "application".toList).bind Application.read
  return { messageId, sessionId, skillId, new, user, application }

def UserRequest.names : List Text :=
  ["command".toList, "original_utterance".toList, "type".toList]

def UserRequest.read (value : Value) : Option UserRequest := do
  let slots ← deserializeStruct UserRequest.names value
  let command ← withDefault Value.asStr [] (slots "command".toList)
  let originalUtterance ← withDefault Value.asStr [] (slots "original_utterance".toList)
  let kind ← (slots "type".toList).bind RequestKind.read
  return { command, originalUtterance, kind }

def WebhookRequest.names : List Text :=
  ["meta".toList, "session".toList, "request".toList, "version".toList]

def WebhookRequest.read (value : Value) : Option WebhookRequest := do
  let slots ← deserializeStruct WebhookRequest.names value
  let metadata ← (slots "meta".toList).bind Meta.read
  let session ← (slots "session".toList).bind Session.read
  let request ← (slots "request".toList).bind UserRequest.read
  let version ← (slots "version".toList).bind Value.asStr
  return { metadata, session, request, version }

end AliceBridge.Protocol.Request
