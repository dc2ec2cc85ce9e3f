import AliceBridge.Lib.Json

/-! # Messages of the app-server protocol

The method names and parameters of `protocol.rs`. -/
namespace AliceBridge.Runtime.Protocol
open AliceBridge.Lib.Utf8 AliceBridge.Lib.Json

def initializeMethod : Text := "initialize".toList
def initialized : Text := "initialized".toList
def threadStart : Text := "thread/start".toList
def threadResume : Text := "thread/resume".toList
def turnStart : Text := "turn/start".toList
def agentMessageDelta : Text := "item/agentMessage/delta".toList
def itemCompleted : Text := "item/completed".toList
def turnCompleted : Text := "turn/completed".toList

/-- `CARGO_PKG_VERSION` of the workspace. -/
def packageVersion : Text := "0.1.0".toList

def initializeParams : Value :=
  .object [
    ("clientInfo".toList, .object [
      ("name".toList, .string "alice-household-bridge".toList),
      ("version".toList, .string packageVersion)]),
    ("capabilities".toList, .object [("experimentalApi".toList, .bool true)])]

/-- The configuration of a thread: everything off but the house's own connector. -/
def isolatedHouseConfig (homeyConnector : Option Text) : Value :=
  .object ([
    ("features".toList, .object [
      ("shell_tool".toList, .bool false),
      ("unified_exec".toList, .bool false),
      ("skill_mcp_dependency_install".toList, .bool false)]),
    ("tools".toList, .object [("web_search".toList, .bool false)]),
    ("apps".toList, .object [("_default".toList, .object [("enabled".toList, .bool false)])])] ++
    match homeyConnector with
    | some connector =>
      [("mcp_servers".toList, .object [(connector, .object [("enabled".toList, .bool true)])])]
    | none => [])

def threadStartParams (cwd permissions instructions : Text) (homeyConnector : Option Text) :
    Value :=
  .object [
    ("cwd".toList, .string cwd),
    ("permissions".toList, .string permissions),
    ("developerInstructions".toList, .string instructions),
    ("approvalPolicy".toList, .string "never".toList),
    ("ephemeral".toList, .bool false),
    ("config".toList, isolatedHouseConfig homeyConnector)]

def threadResumeParams (threadId permissions : Text) (homeyConnector : Option Text) : Value :=
  .object [
    ("threadId".toList, .string threadId),
    ("permissions".toList, .string permissions),
    ("approvalPolicy".toList, .string "never".toList),
    ("config".toList, isolatedHouseConfig homeyConnector)]

def turnStartParams (threadId utterance : Text) : Value :=
  .object [
    ("threadId".toList, .string threadId),
    ("input".toList, .array [
      .object [("type".toList, .string "text".toList), ("text".toList, .string utterance)]])]

end AliceBridge.Runtime.Protocol
