import AliceBridge.Core.Reply
import AliceBridge.Core.Household
import AliceBridge.Lib.Run

/-! # The household engine as a machine

`HouseholdEngine::respond` cut at its awaits. A call is the request task with
the two tasks it may detach: the work (`tokio::spawn` of the Codex turn, which
owns the house lock) and the watcher of a late result. `Pc` names the next
store operation of the request with the locals it needs; an event is one
operation of one of the three tasks, with the outcome the store, the runtime or
the clock chose. Any order of events of any number of calls is a run.

A failed store operation may or may not have taken effect (`Outcome.err`). The
deadline may fire at any point of the wait, also when the work has just
finished. `try_lock_owned` and `tokio::spawn` are one step: nothing between them
is seen by another task. The clock and the encryption of the stored texts are
not modelled. -/
namespace AliceBridge.Core.HouseEngine
open AliceBridge.Lib.Utf8 AliceBridge.Lib.Run AliceBridge.Core.Reply AliceBridge.Core.Household

structure HouseholdInput where
  identity : SurfaceIdentity
  utterance : Text
  newSession : Bool
deriving DecidableEq, Repr

inductive HouseholdReply where
  | say (text : Text)
  | refuse
  | pairing (code : Text)
  | busy
  | internalError
deriving DecidableEq, Repr

def stillThinking : Text := "Я ещё думаю. Спросите меня через несколько секунд.".toList
def greeting : Text := "Здравствуйте. Чем помочь?".toList
def stopped : Text := "Хорошо.".toList
def askAgain : Text := "Скажите, продолжать?".toList

/-- The texts `respond` says without the runtime. -/
def fixedPhrases : List Text := [stillThinking, greeting, stopped, askAgain]

/-- The engine: its shaper and the `homey_enabled` of its configuration. -/
structure HouseholdEngine where
  shaper : ReplyShaper
  homeyEnabled : Bool

abbrev CallId := Nat
abbrev LockId := Nat

/-- The result of a store operation; `applied` tells whether a failed one took
effect nevertheless. -/
inductive Outcome where
  | ok
  | err (applied : Bool)
deriving DecidableEq, Repr

def Outcome.applies : Outcome → Bool
  | .ok => true
  | .err applied => applied

/-- What `resolve_surface` answers; the row of a bound house is read from the store. -/
inductive Resolution where
  | bound (house : HouseId)
  | pairingRequired (spokenCode : Text)
  | unauthorized
  | failed
deriving DecidableEq, Repr

/-- Which branch of `respond` called `shape_and_save`. -/
inductive Source where
  | continuation
  | ready
  | fresh
deriving DecidableEq, Repr

/-- Where the request stands: its next operation and the locals it still needs. -/
inductive Pc where
  | resolveSurface
  | takeContinuation (house : HouseContext)
  | saveBack (houseId : HouseId) (chunks : List Text)
  | shapeAndSave (houseId : HouseId) (text : Text) (source : Source)
  | clearReady (houseId : HouseId) (text : Text)
  | pollPending (house : HouseContext)
  | lockEntry (house : HouseContext)
  | tryLock (house : HouseContext) (lock : LockId)
  | awaitWork
  | markThinking
  | spawnWatcher
  | replied (reply : HouseholdReply)
deriving DecidableEq, Repr

inductive WorkPc where
  | spawned
  | startThread
  | saveThreadId (threadId : Text)
  | turn (threadId : Text)
  | finished (text : Option Text)
  | dropped
deriving DecidableEq, Repr

/-- The guard lives in the task's future, from its creation to its end. -/
def WorkPc.holdsGuard : WorkPc → Bool
  | .spawned | .startThread | .saveThreadId _ | .turn _ => true
  | .finished _ | .dropped => false

/-- A `start_thread` or `turn` call is in progress. -/
def WorkPc.inCall : WorkPc → Bool
  | .startThread | .turn _ => true
  | _ => false

structure Work where
  house : HouseContext
  lock : LockId
  utterance : Text
  instructions : Text
  aborting : Bool
  pc : WorkPc
deriving DecidableEq, Repr

inductive Watcher where
  | joining
  | saveReady (text : Text)
  | clearPending
  | done
deriving DecidableEq, Repr

structure Call where
  input : HouseholdInput
  pc : Pc
  work : Option Work
  watcher : Option Watcher
deriving DecidableEq, Repr

def Call.app (call : Call) : Text := call.input.identity.applicationId

/-- What the tasks share: the store and the lock map with its mutexes. -/
structure Shared where
  store : Store
  locks : HouseId → Option LockId
  locked : LockId → Bool
  nextLock : LockId

def Shared.slots (sh : Shared) (house : HouseId) (app : Text) : Slots := sh.store.slots house app

def Shared.setSlots (sh : Shared) (house : HouseId) (app : Text) (slots : Slots) : Shared :=
  { sh with store := sh.store.setSlots house app slots }

@[simp] theorem Shared.setSlots_self (sh : Shared) (house : HouseId) (app : Text)
    (slots : Slots) : (sh.setSlots house app slots).slots house app = slots :=
  Store.setSlots_self ..

theorem Shared.setSlots_other {sh : Shared} {house h : HouseId} {app a : Text} {slots : Slots}
    (hne : ¬ (h = house ∧ a = app)) : (sh.setSlots house app slots).slots h a = sh.slots h a :=
  Store.setSlots_other hne

def Shared.setLocked (sh : Shared) (lock : LockId) (held : Bool) : Shared :=
  { sh with locked := fun l => if l = lock then held else sh.locked l }

structure State where
  shared : Shared
  calls : List Call

inductive Event where
  | resolve (resolution : Resolution)
  | slot (outcome : Outcome)
  | lockEntry
  | tryLock
  | joined
  | deadline
  | mark (outcome : Outcome)
  | spawnWatcher
  | workBegin
  | threadStarted (threadId : Option Text)
  | threadSaved (outcome : Outcome)
  | turned (text : Option Text)
  | panic
  | cancelled
  | watcherJoined
  | watcherStore (outcome : Outcome)
deriving DecidableEq, Repr

inductive Action where
  | arrive (input : HouseholdInput)
  | task (call : CallId) (event : Event)
  | expirePending (house : HouseId) (app : Text)
  | expireContinuation (house : HouseId) (app : Text)
deriving DecidableEq, Repr

/-- What a run shows. `touched` is a task reading or writing the entries of a
surface, `shaped` a `shape_and_save` that stored its chunks, `spoke` the reply
made of one. -/
inductive Obs where
  | touched (call : CallId) (house : HouseId) (app : Text)
  | startThread (call : CallId) (house : HouseId) (instructions : Text)
  | threadStarted (call : CallId) (house : HouseId) (threadId : Text)
  | turn (call : CallId) (house : HouseId) (threadId utterance : Text)
  | answer (call : CallId) (house : HouseId) (app text : Text)
  | shaped (call : CallId) (house : HouseId) (app : Text) (source : Source) (text : Text)
  | spoke (call : CallId) (house : HouseId) (app : Text) (source : Source) (text : Text)
  | refused (call : CallId) (house : HouseId) (app : Text) (chunks : List Text)
  | reply (call : CallId) (app : Text) (house : Option HouseId) (reply : HouseholdReply)
deriving DecidableEq, Repr

/-! ## The request on the slots of its surface -/

/-- `answer_continuation` up to its store operation. -/
def answerContinuation (houseId : HouseId) (utterance : Text) (chunks : List Text) : Pc :=
  match ContinuationDecision.fromUtterance utterance with
  | .stop => .replied (.say stopped)
  | .empty => .saveBack houseId chunks
  | .goOn => .shapeAndSave houseId chunks.flatten .continuation

/-- `respond` after an empty `poll_pending`. -/
def afterPoll (input : HouseholdInput) (house : HouseContext) : Pc :=
  if input.newSession && (trim input.utterance).isEmpty then .replied (.say greeting)
  else .lockEntry house

/-- The house of the request's next slot operation. -/
def Pc.slotHouse : Pc → Option HouseId
  | .takeContinuation house | .pollPending house => some house.id
  | .saveBack houseId _ | .shapeAndSave houseId _ _ | .clearReady houseId _ => some houseId
  | _ => none

/-- The slot operation of a request, and where `respond` goes with its result. -/
def slotStep (shaper : ReplyShaper) (input : HouseholdInput) (slots : Slots) :
    Pc → Outcome → Option (Pc × Slots)
  | .takeContinuation house, .ok =>
    match slots.continuation with
    | some chunks =>
      some (answerContinuation house.id input.utterance chunks, slots.clearContinuation)
    | none => some (.pollPending house, slots)
  | .takeContinuation _, .err applied =>
    some (.replied .internalError, if applied then slots.clearContinuation else slots)
  | .saveBack _ chunks, .ok => some (.replied (.say askAgain), slots.saveContinuation chunks)
  | .saveBack _ chunks, .err applied =>
    some (.replied .internalError, if applied then slots.saveContinuation chunks else slots)
  | .shapeAndSave houseId text source, .ok =>
    let shaped := shaper.split text
    match source with
    | .ready => some (.clearReady houseId text, slots.saveContinuation shaped.remaining)
    | _ => some (.replied (.say shaped.spoken), slots.saveContinuation shaped.remaining)
  | .shapeAndSave _ text _, .err applied =>
    some (.replied .internalError,
      if applied then slots.saveContinuation (shaper.split text).remaining else slots)
  | .clearReady _ text, .ok => some (.replied (.say (shaper.split text).spoken), slots.clearPending)
  | .clearReady _ _, .err applied =>
    some (.replied .internalError, if applied then slots.clearPending else slots)
  | .pollPending house, .ok =>
    match slots.pending with
    | .ready text => some (.shapeAndSave house.id text .ready, slots)
    | .thinking => some (.replied (.say stillThinking), slots)
    | .none => some (afterPoll input house, slots)
  | .pollPending _, .err _ => some (.replied .internalError, slots)
  | _, _ => none

/-- What a slot operation that succeeded shows besides the access itself. -/
def slotObs (c : CallId) (app : Text) (input : HouseholdInput) (slots : Slots) :
    Pc → Outcome → List Obs
  | .takeContinuation house, .ok =>
    match slots.continuation with
    | some chunks =>
      if ContinuationDecision.fromUtterance input.utterance = .stop then
        [.refused c house.id app chunks]
      else []
    | none => []
  | .shapeAndSave houseId text .ready, .ok => [.shaped c houseId app .ready text]
  | .shapeAndSave houseId text source, .ok =>
    [.shaped c houseId app source text, .spoke c houseId app source text]
  | .clearReady houseId text, .ok => [.spoke c houseId app .ready text]
  | _, _ => []

/-- The reply a request ends with. -/
def replyObs (c : CallId) (app : Text) (house : Option HouseId) : Pc → List Obs
  | .replied reply => [.reply c app house reply]
  | _ => []

/-! ## The steps of the three tasks -/

def requestStep (engine : HouseholdEngine) (sh : Shared) (c : CallId) (call : Call) :
    Event → Option (Shared × Call × List Obs)
  | .resolve resolution =>
    match call.pc, resolution with
    | .resolveSurface, .bound house =>
      (sh.store.houses house).map fun row =>
        (sh, { call with pc := .takeContinuation (row.context house) }, [])
    | .resolveSurface, .pairingRequired code =>
      some (sh, { call with pc := .replied (.pairing code) },
        [.reply c call.app none (.pairing code)])
    | .resolveSurface, .unauthorized =>
      some (sh, { call with pc := .replied .refuse }, [.reply c call.app none .refuse])
    | .resolveSurface, .failed =>
      some (sh, { call with pc := .replied .internalError },
        [.reply c call.app none .internalError])
    | _, _ => none
  | .slot outcome => do
    let house ← call.pc.slotHouse
    let slots := sh.slots house call.app
    let (pc, slots') ← slotStep engine.shaper call.input slots call.pc outcome
    some (sh.setSlots house call.app slots', { call with pc := pc },
      .touched c house call.app ::
        (slotObs c call.app call.input slots call.pc outcome ++ replyObs c call.app house pc))
  | .lockEntry =>
    match call.pc with
    | .lockEntry house =>
      match sh.locks house.id with
      | some lock => some (sh, { call with pc := .tryLock house lock }, [])
      | none =>
        some ({ sh with
          locks := fun h => if h = house.id then some sh.nextLock else sh.locks h
          nextLock := sh.nextLock + 1 },
          { call with pc := .tryLock house sh.nextLock }, [])
    | _ => none
  | .tryLock =>
    match call.pc with
    | .tryLock house lock =>
      if sh.locked lock then
        some (sh, { call with pc := .replied .busy }, [.reply c call.app house.id .busy])
      else
        some (sh.setLocked lock true,
          { call with
            pc := .awaitWork
            work := some
              { house := house
                lock := lock
                utterance := call.input.utterance
                instructions := buildHouseInstructions house engine.homeyEnabled
                aborting := false
                pc := .spawned } }, [])
    | _ => none
  | .joined =>
    match call.pc, call.work with
    | .awaitWork, some work =>
      match work.pc with
      | .finished (some text) =>
        some (sh, { call with pc := .shapeAndSave work.house.id text .fresh }, [])
      | .finished none | .dropped =>
        some (sh, { call with pc := .replied .internalError },
          [.reply c call.app work.house.id .internalError])
      | _ => none
    | _, _ => none
  | .deadline =>
    match call.pc with
    | .awaitWork => some (sh, { call with pc := .markThinking }, [])
    | _ => none
  | .mark outcome =>
    match call.pc, call.work with
    | .markThinking, some work =>
      let house := work.house.id
      let slots := sh.slots house call.app
      let sh' := sh.setSlots house call.app (if outcome.applies then slots.markThinking else slots)
      match outcome with
      | .ok => some (sh', { call with pc := .spawnWatcher }, [.touched c house call.app])
      | .err _ =>
        some (sh', { call with
          pc := .replied .internalError
          work := some { work with aborting := true } },
          [.touched c house call.app, .reply c call.app house .internalError])
    | _, _ => none
  | .spawnWatcher =>
    match call.pc, call.work with
    | .spawnWatcher, some work =>
      some (sh, { call with pc := .replied (.say stillThinking), watcher := some .joining },
        [.reply c call.app work.house.id (.say stillThinking)])
    | _, _ => none
  | _ => none

/-- The end of the work task drops its guard. -/
def release (sh : Shared) (work : Work) : Shared := sh.setLocked work.lock false

def workStep (sh : Shared) (c : CallId) (app : Text) (work : Work) :
    Event → Option (Shared × Work × List Obs)
  | .workBegin =>
    match work.pc, work.house.codexThreadId with
    | .spawned, some threadId =>
      some (sh, { work with pc := .turn threadId },
        [.turn c work.house.id threadId work.utterance])
    | .spawned, none =>
      some (sh, { work with pc := .startThread },
        [.startThread c work.house.id work.instructions])
    | _, _ => none
  | .threadStarted result =>
    match work.pc, result with
    | .startThread, some threadId =>
      some (sh, { work with pc := .saveThreadId threadId },
        [.threadStarted c work.house.id threadId])
    | .startThread, none => some (release sh work, { work with pc := .finished none }, [])
    | _, _ => none
  | .threadSaved outcome =>
    match work.pc with
    | .saveThreadId threadId =>
      match sh.store.saveThreadId work.house.id threadId, outcome with
      | some store, .ok =>
        some ({ sh with store := store }, { work with pc := .turn threadId },
          [.turn c work.house.id threadId work.utterance])
      | some store, .err true =>
        some (release { sh with store := store } work, { work with pc := .finished none }, [])
      | _, _ => some (release sh work, { work with pc := .finished none }, [])
    | _ => none
  | .turned result =>
    match work.pc, result with
    | .turn _, some text =>
      some (release sh work, { work with pc := .finished (some text) },
        [.answer c work.house.id app text])
    | .turn _, none => some (release sh work, { work with pc := .finished none }, [])
    | _, _ => none
  | .panic =>
    if work.pc.holdsGuard then some (release sh work, { work with pc := .dropped }, []) else none
  | .cancelled =>
    if work.aborting && work.pc.holdsGuard then
      some (release sh work, { work with pc := .dropped }, [])
    else none
  | _ => none

def watcherStep (sh : Shared) (c : CallId) (app : Text) (work : Work) (watcher : Watcher) :
    Event → Option (Shared × Watcher × List Obs)
  | .watcherJoined =>
    match watcher, work.pc with
    | .joining, .finished (some text) => some (sh, .saveReady text, [])
    | .joining, .finished none | .joining, .dropped => some (sh, .clearPending, [])
    | _, _ => none
  | .watcherStore outcome =>
    let house := work.house.id
    let slots := sh.slots house app
    match watcher with
    | .saveReady text =>
      some (sh.setSlots house app (if outcome.applies then slots.saveReady text else slots), .done,
        [.touched c house app])
    | .clearPending =>
      some (sh.setSlots house app (if outcome.applies then slots.clearPending else slots), .done,
        [.touched c house app])
    | _ => none
  | _ => none

def taskStep (engine : HouseholdEngine) (sh : Shared) (c : CallId) (call : Call) (e : Event) :
    Option (Shared × Call × List Obs) :=
  match e with
  | .workBegin | .threadStarted _ | .threadSaved _ | .turned _ | .panic | .cancelled => do
    let work ← call.work
    let (sh', work', os) ← workStep sh c call.app work e
    some (sh', { call with work := some work' }, os)
  | .watcherJoined | .watcherStore _ => do
    let work ← call.work
    let watcher ← call.watcher
    let (sh', watcher', os) ← watcherStep sh c call.app work watcher e
    some (sh', { call with watcher := some watcher' }, os)
  | _ => requestStep engine sh c call e

def step (engine : HouseholdEngine) (s : State) : Action → Option (State × List Obs)
  | .arrive input =>
    some ({ s with calls := s.calls ++ [⟨input, .resolveSurface, none, none⟩] }, [])
  | .task c e => do
    let call ← s.calls[c]?
    let (sh, call', os) ← taskStep engine s.shared c call e
    some ({ shared := sh, calls := s.calls.set c call' }, os)
  | .expirePending house app =>
    let slots := s.shared.slots house app
    some ({ s with shared := s.shared.setSlots house app slots.clearPending }, [])
  | .expireContinuation house app =>
    let slots := s.shared.slots house app
    some ({ s with shared := s.shared.setSlots house app slots.clearContinuation }, [])

def machine (engine : HouseholdEngine) : Machine State Action Obs := ⟨step engine⟩

/-- One bridge process: no calls yet, no lock created. -/
def initial (store : Store) : State :=
  { shared := { store := store, locks := fun _ => none, locked := fun _ => false, nextLock := 0 }
    calls := [] }

/-- A store with one house and nothing stored for its surfaces. -/
def fixture (house : HouseId) (row : HouseRow) : Store :=
  { houses := fun h => if h = house then some row else none
    slots := fun _ _ => Slots.empty }

end AliceBridge.Core.HouseEngine
