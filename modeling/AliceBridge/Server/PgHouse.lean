import AliceBridge.Server.Access
import AliceBridge.Server.TemporaryState

/-! # The household engine over PostgreSQL

`HouseholdEngine::respond` with `PgHouseholdStore` as its store: the tasks of
`HouseEngine` on the tables, on rows that are sealed and expire. A call resolves
its surface statement by statement, every other store operation is one statement,
and between any two of them the owner may command, other calls may go on and time
may pass. An event names what is chosen outside: whether the database fails, what is
drawn, and what the runtime answers.

What a run shows is what the engine shows (`Obs`), what `Access` says of commands, and
which call resolved its surface to what. -/
namespace AliceBridge.Server.PgHouse
open AliceBridge.Lib AliceBridge.Lib.Utf8 AliceBridge.Lib.Run AliceBridge.Core.Reply
open AliceBridge.Core.Household AliceBridge.Core.HouseEngine AliceBridge.Server.HouseStore
open AliceBridge.Server.StateCrypto AliceBridge.Server.TemporaryState

variable {δ : Type}

/-- The database, the clock of its server and the locks of the process. -/
structure PgShared (δ : Type) where
  db : Db δ
  temp : TempDb
  clock : Nat
  locks : HouseId → Option LockId
  locked : LockId → Bool
  nextLock : LockId

/-- A call of `respond`; while it resolves its surface, the statement that is next. -/
structure PgCall where
  call : Call
  resolve : Option ResolvePc

structure PgState (δ : Type) where
  shared : PgShared δ
  calls : List PgCall

inductive PgEvent where
  | statement (fails : Bool) (draw : Fin 1000000)
  | slot (outcome : Outcome) (nonce : Nonce)
  | mark (outcome : Outcome)
  | threadSaved (outcome : Outcome)
  | watcherStore (outcome : Outcome) (nonce : Nonce)
  | local (event : Event)

inductive PgAction (δ : Type) where
  | arrive (input : HouseholdInput)
  | task (call : CallId) (event : PgEvent)
  | command (command : Access.Action δ)

inductive Seen where
  | house (o : Obs)
  | commanded (e : Access.Event)
  | resolved (c : CallId) (identity : SurfaceIdentity) (time : Nat)
      (result : Except HouseholdStoreError HouseStore.SurfaceResolution)

def Seen.house? : Seen → Option Obs
  | .house o => some o
  | _ => none

/-- What it is to `Access`, which does not know the calls apart. -/
def Seen.access? : Seen → Option Access.Event
  | .house _ => none
  | .commanded e => some e
  | .resolved _ identity time result => some (.resolved identity time result)

/-! ## Steps that leave the store alone -/

/-- An event of a task that is no store operation. -/
def storeless : Event → Bool
  | .lockEntry | .tryLock | .joined | .deadline | .spawnWatcher => true
  | .workBegin | .threadStarted _ | .turned _ | .panic | .cancelled | .watcherJoined => true
  | _ => false

/-- The shared state of the tasks over some store. -/
def PgShared.over (sh : PgShared δ) (store : Store) : Shared where
  store := store
  locks := sh.locks
  locked := sh.locked
  nextLock := sh.nextLock

def PgShared.setLocks (sh : PgShared δ) (shared : Shared) : PgShared δ :=
  { sh with locks := shared.locks, locked := shared.locked, nextLock := shared.nextLock }

def noStore : Store := ⟨fun _ => none, fun _ _ => Slots.empty⟩

/-! ## `save_thread_id` -/

/-- The `WHERE` of the update: no thread yet, or this one. -/
def threadFree (houseId : HouseId) (threadId : Text) (house : House) : Bool :=
  house.id = houseId &&
    (house.row.codexThreadId = none || house.row.codexThreadId = some threadId)

def withThread (threadId : Text) (house : House) : House :=
  { house with row := { house.row with codexThreadId := some threadId } }

@[simp] theorem withThread_id (threadId : Text) (house : House) :
    (withThread threadId house).id = house.id := rfl

def setThread (db : Db δ) (houseId : HouseId) (threadId : Text) : Db δ :=
  { db with
    houses := db.houses.update (threadFree houseId threadId) (withThread threadId)
      (withThread_id threadId) }

/-- The conditional update of `houses`; no row affected is an error. -/
def saveThreadId (outcome : Outcome) (db : Db δ) (houseId : HouseId) (threadId : Text) :
    Db δ × Except HouseholdStoreError Unit :=
  match outcome with
  | .err applied => (if applied then setThread db houseId threadId else db, .error dbError)
  | .ok =>
    if db.houses.rows.any (threadFree houseId threadId) then
      (setThread db houseId threadId, .ok ())
    else (db, .error differentThread)

section
variable (aead : Aead) (cipher : StateCipher)

/-! ## The request on the tables -/

/-- The store operation of a request on the entries of its surface, where `respond`
goes with its result, and what that shows. -/
def pgSlotStep (shaper : ReplyShaper) (c : CallId) (input : HouseholdInput) (outcome : Outcome)
    (nonce : Nonce) (now : Nat) (surface : Bool) (temp : TempDb) :
    Pc → Option (TempDb × Pc × List Obs)
  | .takeContinuation house =>
    let app := input.identity.applicationId
    let r := takeContinuation aead cipher outcome now temp house.id app
    match r.2 with
    | .ok (some chunks) =>
      some (r.1, answerContinuation house.id input.utterance chunks,
        if ContinuationDecision.fromUtterance input.utterance = .stop then
          [.refused c house.id app chunks]
        else [])
    | .ok none => some (r.1, .pollPending house, [])
    | .error _ => some (r.1, .replied .internalError, [])
  | .saveBack houseId chunks =>
    let r := saveContinuation aead cipher outcome nonce now surface temp houseId
      input.identity.applicationId chunks
    match r.2 with
    | .ok _ => some (r.1, .replied (.say askAgain), [])
    | .error _ => some (r.1, .replied .internalError, [])
  | .shapeAndSave houseId text source =>
    let app := input.identity.applicationId
    let shaped := shaper.split text
    let r := saveContinuation aead cipher outcome nonce now surface temp houseId app
      shaped.remaining
    match r.2 with
    | .error _ => some (r.1, .replied .internalError, [])
    | .ok _ =>
      match source with
      | .ready => some (r.1, .clearReady houseId text, [.shaped c houseId app .ready text])
      | _ =>
        some (r.1, .replied (.say shaped.spoken),
          [.shaped c houseId app source text, .spoke c houseId app source text])
  | .clearReady houseId text =>
    let app := input.identity.applicationId
    let r := clearPending outcome temp houseId app
    match r.2 with
    | .ok _ =>
      some (r.1, .replied (.say (shaper.split text).spoken), [.spoke c houseId app .ready text])
    | .error _ => some (r.1, .replied .internalError, [])
  | .pollPending house =>
    match pollPending aead cipher outcome now temp house.id input.identity.applicationId with
    | .ok (.ready text) => some (temp, .shapeAndSave house.id text .ready, [])
    | .ok .thinking => some (temp, .replied (.say stillThinking), [])
    | .ok .none => some (temp, afterPoll input house, [])
    | .error _ => some (temp, .replied .internalError, [])
  | _ => none

/-- Where `respond` goes with the result of `resolve_surface`. -/
def afterResolve : Except HouseholdStoreError HouseStore.SurfaceResolution → Pc
  | .ok (.bound house) => .takeContinuation house
  | .ok (.pairingRequired code) => .replied (.pairing code)
  | .ok .unauthorized => .replied .refuse
  | .error _ => .replied .internalError

/-! ## The steps of the three tasks -/

def pgTaskStep (mac : Text → δ) (engine : HouseholdEngine) (sh : PgShared δ) (c : CallId)
    (call : PgCall) : PgEvent → Option (PgShared δ × PgCall × List Seen)
  | .statement fails draw =>
    match call.call.pc, call.resolve with
    | .resolveSurface, some pc =>
      let identity := call.call.input.identity
      let r := resolveStatement mac fails draw sh.clock sh.db identity pc
      match r.2 with
      | .query pc => some ({ sh with db := r.1 }, { call with resolve := some pc }, [])
      | .return result =>
        some ({ sh with db := r.1 },
          { call := { call.call with pc := afterResolve result }, resolve := none },
          .resolved c identity sh.clock result ::
            (replyObs c call.call.app none (afterResolve result)).map .house)
    | _, _ => none
  | .slot outcome nonce => do
    let house ← call.call.pc.slotHouse
    let surface := surfaceExists sh.db house call.call.app
    let (temp, pc, os) ← pgSlotStep aead cipher engine.shaper c call.call.input outcome nonce
      sh.clock surface sh.temp call.call.pc
    some ({ sh with temp := temp }, { call with call := { call.call with pc := pc } },
      (.touched c house call.call.app :: (os ++ replyObs c call.call.app house pc)).map .house)
  | .mark outcome =>
    match call.call.pc, call.call.work with
    | .markThinking, some work =>
      let house := work.house.id
      let app := call.call.app
      let r := markThinking outcome sh.clock (surfaceExists sh.db house app) sh.temp house app
      match r.2 with
      | .ok _ =>
        some ({ sh with temp := r.1 }, { call with call := { call.call with pc := .spawnWatcher } },
          [.house (.touched c house app)])
      | .error _ =>
        some ({ sh with temp := r.1 },
          { call with call := { call.call with
              pc := .replied .internalError
              work := some { work with aborting := true } } },
          [.house (.touched c house app), .house (.reply c app house .internalError)])
    | _, _ => none
  | .threadSaved outcome => do
    let work ← call.call.work
    match work.pc with
    | .saveThreadId threadId =>
      let r := saveThreadId outcome sh.db work.house.id threadId
      match r.2 with
      | .ok _ =>
        some ({ sh with db := r.1 },
          { call with call := { call.call with work := some { work with pc := .turn threadId } } },
          [.house (.turn c work.house.id threadId work.utterance)])
      | .error _ =>
        some (({ sh with db := r.1 }).setLocks (release (sh.over noStore) work),
          { call with call := { call.call with work := some { work with pc := .finished none } } },
          [])
    | _ => none
  | .watcherStore outcome nonce => do
    let work ← call.call.work
    let watcher ← call.call.watcher
    let house := work.house.id
    let app := call.call.app
    let done : PgCall := { call with call := { call.call with watcher := some .done } }
    match watcher with
    | .saveReady text =>
      let r := saveReady aead cipher outcome nonce sh.clock (surfaceExists sh.db house app) sh.temp
        house app text
      some ({ sh with temp := r.1 }, done, [.house (.touched c house app)])
    | .clearPending =>
      let r := clearPending outcome sh.temp house app
      some ({ sh with temp := r.1 }, done, [.house (.touched c house app)])
    | _ => none
  | .local event =>
    if storeless event then
      (taskStep engine (sh.over noStore) c call.call event).map fun r =>
        (sh.setLocks r.1, { call with call := r.2.1 }, r.2.2.map .house)
    else none

/-- The commands of the owner and the passing of time. -/
def ownerCommand : Access.Action δ → Bool
  | .resolveSurface _ | .statement .. => false
  | _ => true

def pgStep [DecidableEq δ] (mac : Text → δ) (engine : HouseholdEngine) (s : PgState δ) :
    PgAction δ → Option (PgState δ × List Seen)
  | .arrive input =>
    some ({ s with calls := s.calls ++
      [⟨⟨input, .resolveSurface, none, none⟩, some .selectBound⟩] }, [])
  | .task c e => do
    let call ← s.calls[c]?
    let (sh, call', os) ← pgTaskStep aead cipher mac engine s.shared c call e
    some ({ shared := sh, calls := s.calls.set c call' }, os)
  | .command command =>
    if ownerCommand command then
      (Access.step mac ⟨s.shared.db, s.shared.clock, []⟩ command).map fun r =>
        ({ s with shared := { s.shared with db := r.1.db, clock := r.1.clock } },
          r.2.map .commanded)
    else none

def pgMachine [DecidableEq δ] (mac : Text → δ) (engine : HouseholdEngine) :
    Machine (PgState δ) (PgAction δ) Seen :=
  ⟨pgStep aead cipher mac engine⟩

end

/-- The process starts on whatever the tables hold. -/
def PgState.start (db : Db δ) (temp : TempDb) (clock : Nat) : PgState δ where
  shared :=
    { db := db
      temp := temp
      clock := clock
      locks := fun _ => none
      locked := fun _ => false
      nextLock := 0 }
  calls := []

/-! ## One evening -/

/-- A cipher that changes nothing. -/
def plainAead : Aead where
  encrypt := fun _ _ plaintext => some plaintext
  decrypt := fun _ _ ciphertext => some ciphertext

theorem plainAead_lawful : plainAead.Lawful where
  decrypt_encrypt := fun h => congrArg some (Option.some.inj h).symm

def zeroCipher : StateCipher := ⟨⟨List.replicate keyBytes 0, rfl⟩, currentKeyVersion⟩
def zeroNonce : Nonce := ⟨List.replicate nonceBytes 0, rfl⟩

def someDraw : Fin 1000000 := ⟨7, Nat.le_of_ble_eq_true rfl⟩

/-- A member is told a code, and the owner approves it. -/
def pairedEvening : List (PgAction Text) :=
  [.command (.createHouse ['h'] ['c']), .command (.addMember 1 ['u'] .member),
    .arrive ⟨⟨['u'], ['a']⟩, ['?'], false⟩, .task 0 (.statement false someDraw),
    .task 0 (.statement false someDraw), .task 0 (.statement false someDraw),
    .task 0 (.statement false someDraw),
    .command (.tick 10),
    .command (.approvePairing 1 ['0', '0', '0', '0', '0', '7']
      [⟨1, some 1, ['u'], ['a'], HouseStore.pairingText ['u'] ['a'] ['0', '0', '0', '0', '0', '7'],
        600000000, none⟩] fun _ => false)]

/-- The member asks, and nothing is stored at the surface. -/
def asking (c : CallId) : List (PgAction Text) :=
  [.arrive ⟨⟨['u'], ['a']⟩, ['?'], false⟩, .task c (.statement false someDraw),
    .task c (.slot .ok zeroNonce), .task c (.slot .ok zeroNonce), .task c (.local .lockEntry)]

/-- The work of the call starts a thread. -/
def starting (c : CallId) (threadId : Text) : List (PgAction Text) :=
  [.task c (.local .tryLock), .task c (.local .workBegin),
    .task c (.local (.threadStarted (some threadId))), .task c (.threadSaved .ok)]

/-- The turn is answered, and the request speaks. -/
def answering (c : CallId) (text : Text) : List (PgAction Text) :=
  [.task c (.local (.turned (some text))), .task c (.local .joined),
    .task c (.slot .ok zeroNonce)]

def evening : List (PgAction Text) :=
  pairedEvening ++ asking 1 ++ starting 1 ['t'] ++ answering 1 ['!']

end AliceBridge.Server.PgHouse
