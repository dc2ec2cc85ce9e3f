import AliceBridge.Lib.Words
import AliceBridge.Runtime.Client
import AliceBridge.Core.Household

/-! # The Codex runtime

`CodexRuntime` of `lib.rs`: one connection a call, on which `start_thread_with`
and `turn_with` speak the protocol. Paths are UTF-8 texts. -/
namespace AliceBridge.Runtime.Codex
open AliceBridge.Lib.Utf8 AliceBridge.Lib.Json AliceBridge.Lib.Program
open AliceBridge.Lib.Words (isAbsolute isAsciiAlphanumeric)
open AliceBridge.Core.Household AliceBridge.Runtime.Protocol AliceBridge.Runtime.Client

structure CodexRuntimeConfig where
  socketPath : Text
  cwdRoot : Text
  permissionProfilePrefix : Text
  homeyEnabled : Bool
deriving DecidableEq, Repr

def validPrefix (text : Text) : Bool :=
  !text.isEmpty && text.all fun c => isAsciiAlphanumeric c || c == '-'

/-- A runtime has a configuration that `new` accepted. -/
structure CodexRuntime where
  config : CodexRuntimeConfig
  socketAbsolute : isAbsolute config.socketPath = true
  cwdAbsolute : isAbsolute config.cwdRoot = true
  prefixValid : validPrefix config.permissionProfilePrefix = true

def CodexRuntime.new (config : CodexRuntimeConfig) : Except CodexRuntimeError CodexRuntime :=
  if hs : isAbsolute config.socketPath = true then
    if hc : isAbsolute config.cwdRoot = true then
      if hp : validPrefix config.permissionProfilePrefix = true then .ok ⟨config, hs, hc, hp⟩
      else .error (.invalidConfig "permission profile prefix is invalid".toList)
    else .error (.invalidConfig "house cwd root must be absolute".toList)
  else .error (.invalidConfig "socket path must be absolute".toList)

/-- `i64::to_string`. -/
def decimal (n : Int) : Text :=
  if n < 0 then '-' :: Nat.toDigits 10 n.natAbs else Nat.toDigits 10 n.natAbs

/-- `Path::join` with a relative name. -/
def joinPath (root name : Text) : Text :=
  if root.isEmpty || root.getLast? == some '/' then root ++ name else root ++ '/' :: name

def connectorPrefix : Text := "homey-".toList

def validHomeyConnector (connector : Text) : Bool :=
  connectorPrefix.isPrefixOf connector &&
    connector.all fun c => isAsciiAlphanumeric c || c == '-' || c == '_'

def requiredString (result : Value) (pointer : List String) (message : String) :
    Except CodexRuntimeError Text :=
  match stringAt result pointer with
  | some text => .ok text
  | none => protocolError message

def validatePermissionResult (result : Value) (expectedProfile : Option Text) :
    Except CodexRuntimeError Unit :=
  match stringAt result ["activePermissionProfile", "id"] with
  | none => protocolError "app-server did not activate a permission profile"
  | some profile =>
    if expectedProfile.any fun expected => decide (expected ≠ profile) then
      protocolError "app-server activated a different permission profile"
    else if stringAt result ["sandbox", "type"] ≠ some "readOnly".toList ∨
        (boolAt result ["sandbox", "networkAccess"]).getD false then
      protocolError "permission profile is not read-only and network-isolated"
    else .ok ()

/-- `initialize` of a client. -/
def initializeClient (transport : Transport) : Rpc Unit := do
  let _ ← request transport initializeMethod initializeParams
  notify transport initialized

namespace CodexRuntime

variable (runtime : CodexRuntime) (transport : Transport) (house : HouseContext)

def homeyConnector : Except CodexRuntimeError (Option Text) :=
  if !runtime.config.homeyEnabled then .ok none
  else if validHomeyConnector house.homeyConnectorId then .ok (some house.homeyConnectorId)
  else .error (.invalidConfig "Homey connector id is invalid".toList)

def permissions : Text := runtime.config.permissionProfilePrefix ++ decimal house.id

def startThreadWith (instructions : Text) : Rpc Text :=
  if house.id ≤ 0 then throw (.invalidConfig "house id must be positive".toList)
  else do
    let homeyConnector ← check (runtime.homeyConnector house)
    initializeClient transport
    let cwd := joinPath runtime.config.cwdRoot (decimal house.id)
    let permissions := runtime.permissions house
    let result ← request transport threadStart
      (threadStartParams cwd permissions instructions homeyConnector)
    check (validatePermissionResult result (some permissions))
    check (requiredString result ["thread", "id"] "thread/start response has no thread id")

def turnWith (threadId utterance : Text) : Rpc Text :=
  if threadId.isEmpty then throw (.protocol "thread id is empty".toList)
  else if house.id ≤ 0 then throw (.invalidConfig "house id must be positive".toList)
  else do
    let homeyConnector ← check (runtime.homeyConnector house)
    initializeClient transport
    let permissions := runtime.permissions house
    let resumed ← request transport threadResume
      (threadResumeParams threadId permissions homeyConnector)
    check (validatePermissionResult resumed (some permissions))
    let resumedId ← check
      (requiredString resumed ["thread", "id"] "thread/resume response has no thread id")
    if resumedId ≠ threadId then
      throw (.protocol "thread/resume returned a different thread".toList)
    else do
      let started ← request transport turnStart (turnStartParams threadId utterance)
      let turnId ← check
        (requiredString started ["turn", "id"] "turn/start response has no turn id")
      collectTurn transport threadId turnId homeyConnector

end CodexRuntime

end AliceBridge.Runtime.Codex
