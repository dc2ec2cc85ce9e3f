import AliceBridge.Server.PgIntegrity
import AliceBridge.Server.PgProgress

/-! # A call fails only by itself

Whatever happens to the other calls, a call whose own statements are executed and whose own
turn is answered is not answered with an internal error: the rows it names are there, the
texts it reads can be opened. One thing can still come in between. A house that had no
thread when the call resolved it, so that the call started one, may have got another one
before the call stores its own, and then that is refused (`Outrun`). -/
namespace AliceBridge.Server.PgHealth
open AliceBridge.Lib AliceBridge.Lib.Utf8 AliceBridge.Lib.Bytes AliceBridge.Lib.Run
open AliceBridge.Core.Reply AliceBridge.Core.Household AliceBridge.Core.HouseEngine
open AliceBridge.Core.HouseSteps AliceBridge.Core.HouseCalls AliceBridge.Server.HouseStore
open AliceBridge.Server.StateCrypto AliceBridge.Server.TemporaryState AliceBridge.Server.PgHouse
open AliceBridge.Server.PgRefinement AliceBridge.Server.PgAccess AliceBridge.Server.PgIntegrity
open AliceBridge.Server.PgProgress
open AliceBridge.Lib.Run.Machine (took_last)
open AliceBridge.Server.Resolution (mem_memberships)

variable {δ : Type} {aead : Aead} {cipher : StateCipher}

/-! ## Statements that are executed -/

section Statements

variable {temp : TempDb} {now : Nat} {houseId : HouseId} {app : Text}

/-- What a statement with these chunks seals. -/
def sealedChunks (chunks : List Text) : Option Bytes :=
  if chunks.isEmpty then none else some (encode (chunksText chunks))

/-- The cipher takes the text, whatever nonce is drawn. -/
def Takes (aead : Aead) (cipher : StateCipher) (text : Option Bytes) : Prop :=
  ∀ plaintext, text = some plaintext →
    ∀ nonce, (aead.encrypt cipher.key nonce plaintext).isSome = true

/-- Every text of the tables can be opened. -/
def Opens (aead : Aead) (cipher : StateCipher) (temp : TempDb) : Prop :=
  Rows (fun row => ∃ reply, row.status.read aead cipher = .ok reply)
    (fun row => ∃ chunks, readContinuation aead cipher row.payload = .ok chunks) temp

theorem pollPending_executed (h : Opens aead cipher temp) :
    ∃ reply, pollPending aead cipher .ok now temp houseId app = .ok reply := by
  unfold pollPending
  cases hlive : temp.livePending now houseId app with
  | none => exact ⟨_, rfl⟩
  | some row =>
    have hfind := (Option.filter_eq_some_iff.mp hlive).1
    exact h.pending row (Table.find?_eq_some.mp hfind).1

theorem takeContinuation_executed (h : Opens aead cipher temp) :
    ∃ taken, (takeContinuation aead cipher .ok now temp houseId app).2 = .ok taken := by
  unfold takeContinuation
  cases hlive : temp.liveContinuation now houseId app with
  | none => exact ⟨_, rfl⟩
  | some row =>
    have hfind := (Option.filter_eq_some_iff.mp hlive).1
    obtain ⟨chunks, hchunks⟩ := h.continuations row (Table.find?_eq_some.mp hfind).1
    exact ⟨some chunks, by simp [hchunks, Except.map]⟩

theorem saveContinuation_executed {nonce : Nonce} {chunks : List Text}
    (h : Takes aead cipher (sealedChunks chunks)) :
    (saveContinuation aead cipher .ok nonce now true temp houseId app chunks).2 = .ok () := by
  unfold saveContinuation
  split
  · rfl
  next hempty =>
    have htaken := h _ (if_neg hempty) nonce
    obtain ⟨ciphertext, hencrypt⟩ := Option.isSome_iff_exists.mp htaken
    simp [StateCipher.seal, hencrypt, written]

/-- What the next statement of a request seals. -/
def pcSealed (shaper : ReplyShaper) : Pc → Option Bytes
  | .saveBack _ chunks => sealedChunks chunks
  | .shapeAndSave _ text _ => sealedChunks (shaper.split text).remaining
  | _ => none

theorem answerContinuation_ne (id : HouseId) (utterance : Text) (chunks : List Text) :
    answerContinuation id utterance chunks ≠ .replied .internalError := by
  unfold answerContinuation
  split <;> simp

theorem afterPoll_ne (input : HouseholdInput) (house : HouseContext) :
    afterPoll input house ≠ .replied .internalError := by
  unfold afterPoll
  split <;> simp

theorem pgSlotStep_executed {shaper : ReplyShaper} {c : CallId} {input : HouseholdInput}
    {nonce : Nonce} {pc pc' : Pc} {temp' : TempDb} {os : List Obs}
    (hopens : Opens aead cipher temp) (htakes : Takes aead cipher (pcSealed shaper pc))
    (h : pgSlotStep aead cipher shaper c input .ok nonce now true temp pc =
      some (temp', pc', os)) : pc' ≠ .replied .internalError := by
  cases pc with
  | takeContinuation house =>
    obtain ⟨taken, htaken⟩ := @takeContinuation_executed aead cipher temp now house.id
      input.identity.applicationId hopens
    simp only [pgSlotStep, htaken] at h
    cases taken with
    | none =>
      obtain ⟨-, rfl, -⟩ := by simpa using h
      simp
    | some chunks =>
      obtain ⟨-, rfl, -⟩ := by simpa using h
      exact answerContinuation_ne _ _ _
  | pollPending house =>
    obtain ⟨reply, hreply⟩ := @pollPending_executed aead cipher temp now house.id
      input.identity.applicationId hopens
    simp only [pgSlotStep, hreply] at h
    cases reply with
    | ready text | thinking =>
      obtain ⟨-, rfl, -⟩ := by simpa using h
      simp
    | none =>
      obtain ⟨-, rfl, -⟩ := by simpa using h
      exact afterPoll_ne _ _
  | shapeAndSave house text source =>
    have hsaved := @saveContinuation_executed aead cipher temp now house
      input.identity.applicationId nonce (shaper.split text).remaining htakes
    simp only [pgSlotStep, hsaved] at h
    cases source <;>
    · obtain ⟨-, rfl, -⟩ := by simpa using h
      simp
  | saveBack house chunks =>
    have hsaved := @saveContinuation_executed aead cipher temp now house
      input.identity.applicationId nonce chunks htakes
    simp only [pgSlotStep, hsaved] at h
    obtain ⟨-, rfl, -⟩ := by simpa using h
    simp
  | clearReady house text =>
    simp only [pgSlotStep, clearPending, written] at h
    obtain ⟨-, rfl, -⟩ := by simpa using h
    simp
  | _ => cases h

end Statements

/-! ## One call -/

/-- The house as the resolution returned it, where a request goes on with it. -/
def pcContext : Pc → Option HouseContext
  | .takeContinuation house | .pollPending house | .lockEntry house | .tryLock house _ =>
    some house
  | _ => none

/-- The request or its work still has what the resolution returned. -/
def Carries (call : Call) (house : HouseContext) : Prop :=
  pcContext call.pc = some house ∨ ∃ work, call.work = some work ∧ work.house = house

/-- The work is about to start a thread or to store the one it started. -/
def startsThread : WorkPc → Bool
  | .startThread | .saveThreadId _ => true
  | _ => false

/-- The work is about to store the thread it started for a house that was resolved without
one (`known`), and now the house has another one. -/
structure Late (c : CallId) (known : HouseContext → Prop) (db : Db δ) (call : Call)
    (seen : List Seen) (work : Work) (threadId other : Text) : Prop where
  running : call.work = some work
  saving : work.pc = .saveThreadId threadId
  started : .house (.threadStarted c work.house.id threadId) ∈ seen
  resolved : known work.house
  free : work.house.codexThreadId = none
  taken : ∃ house, db.houses.find? work.house.id = some house ∧
    house.row.codexThreadId = some other
  differs : other ≠ threadId

/-- The work ended without a text. -/
def Lost : WorkPc → Prop
  | .finished none | .dropped => True
  | _ => False

/-- What a call may rely on while nothing fails that is its own. `known` is what its
resolution returned, `outrun` says that the thread it started came too late. -/
structure Well (c : CallId) (known : HouseContext → Prop) (outrun : Prop) (db : Db δ)
    (call : PgCall) (seen : List Seen) : Prop where
  surface : ∀ houseId, Concerns call.call houseId →
    surfaceExists db houseId call.call.app = true
  scope : ∀ houseId, call.resolve = some (.insertRequest (some houseId)) →
    db.memberExists houseId call.call.input.identity.userId = true
  carried : ∀ house, Carries call.call house → known house
  steady : ∀ work, call.call.work = some work → work.aborting = false
  free : ∀ work, call.call.work = some work → startsThread work.pc = true →
    work.house.codexThreadId = none
  started : ∀ work threadId, call.call.work = some work → work.pc = .saveThreadId threadId →
    .house (.threadStarted c work.house.id threadId) ∈ seen
  answered : call.call.pc = .replied .internalError → outrun
  worked : ∀ work, call.call.work = some work → Lost work.pc → outrun

variable {known known' : HouseContext → Prop} {outrun outrun' : Prop}

/-- The call does not move, and the tables and the run grow. -/
theorem Well.mono {c : CallId} {db db' : Db δ} {call : PgCall} {seen : List Seen}
    (h : Well c known outrun db call seen) (hknown : ∀ house, known house → known' house)
    (houtrun : outrun → outrun') (hgrows : Grows db db') (more : List Seen) :
    Well c known' outrun' db' call (seen ++ more) where
  surface houseId hc := hgrows.surfaceExists (h.surface houseId hc)
  scope houseId hc := hgrows.keeps.memberExists (h.scope houseId hc)
  carried house hc := hknown house (h.carried house hc)
  steady := h.steady
  free := h.free
  started work threadId hwork hpc := List.mem_append_left _ (h.started work threadId hwork hpc)
  answered hpc := houtrun (h.answered hpc)
  worked work hwork hlost := houtrun (h.worked work hwork hlost)

/-- The same with nothing more to know. -/
theorem Well.grow {c : CallId} {db db' : Db δ} {call : PgCall} {seen : List Seen}
    (h : Well c known outrun db call seen) (hgrows : Grows db db') (more : List Seen) :
    Well c known outrun db' call (seen ++ more) :=
  h.mono (fun _ hk => hk) (fun ho => ho) hgrows more

/-- The request moves on to something that is no error. -/
theorem Well.goes {c : CallId} {db : Db δ} {call : PgCall} {seen : List Seen} {pc : Pc}
    (h : Well c known outrun db call seen) (hpc : pc ≠ .replied .internalError)
    (hconcerns : ∀ houseId, Concerns { call.call with pc := pc } houseId →
      Concerns call.call houseId)
    (hcarries : ∀ house, Carries { call.call with pc := pc } house → Carries call.call house) :
    Well c known outrun db { call with call := { call.call with pc := pc } } seen where
  surface houseId hc := h.surface houseId (hconcerns houseId hc)
  scope := h.scope
  carried house hc := h.carried house (hcarries house hc)
  steady := h.steady
  free := h.free
  started := h.started
  answered hanswered := absurd hanswered hpc
  worked := h.worked

/-- The work goes on with its house. -/
theorem Well.works {c : CallId} {db : Db δ} {call : PgCall} {seen : List Seen} {work work' : Work}
    (h : Well c known outrun db call seen) (hwork : call.call.work = some work)
    (hhouse : work'.house = work.house) (haborting : work'.aborting = work.aborting)
    (hfree : startsThread work'.pc = true → work'.house.codexThreadId = none)
    (hstarted : ∀ threadId, work'.pc = .saveThreadId threadId →
      .house (.threadStarted c work'.house.id threadId) ∈ seen)
    (hlost : Lost work'.pc → outrun) :
    Well c known outrun db { call with call := { call.call with work := some work' } } seen where
  surface houseId hc := by
    refine h.surface houseId ?_
    rcases hc with hc | ⟨_, ⟨rfl⟩, hid⟩
    · exact .inl hc
    · exact .inr ⟨work, hwork, hhouse ▸ hid⟩
  scope := h.scope
  carried house hc := by
    refine h.carried house ?_
    rcases hc with hc | ⟨_, ⟨rfl⟩, hcontext⟩
    · exact .inl hc
    · exact .inr ⟨work, hwork, hhouse.symm.trans hcontext⟩
  steady := by
    rintro _ ⟨rfl⟩
    exact haborting.trans (h.steady work hwork)
  free := by
    rintro _ ⟨rfl⟩
    exact hfree
  started := by
    rintro _ threadId ⟨rfl⟩
    exact hstarted threadId
  answered := h.answered
  worked := by
    rintro _ ⟨rfl⟩
    exact hlost

/-! ## Its steps -/

section Statements

variable {mac : Text → δ} {draw : Fin 1000000} {now : Nat} {db : Db δ}
  {identity : SurfaceIdentity} {pc : ResolvePc}

/-- The scope of a request is read from the memberships. -/
theorem resolveStatement_scope {houseId : HouseId}
    (h : (resolveStatement mac false draw now db identity pc).2 =
      .query (.insertRequest (some houseId))) :
    db.memberExists houseId identity.userId = true := by
  cases pc with
  | selectBound | selectApplication =>
    simp only [resolveStatement, Bool.false_eq_true, if_false] at h
    split at h <;> simp at h
  | selectMemberships =>
    simp only [resolveStatement, Bool.false_eq_true, if_false] at h
    split at h
    next => simp at h
    next only hmemberships =>
      obtain rfl : only = houseId := by simpa using h
      exact mem_memberships (by rw [hmemberships]; exact List.mem_cons_self)
    next => simp at h
  | insertRequest scope =>
    simp only [resolveStatement, Bool.false_eq_true, if_false] at h
    split at h <;> simp at h

/-- A resolution whose statements are executed is no error. -/
theorem resolveStatement_executed {result : Except HouseholdStoreError SurfaceResolution}
    (hscope : ∀ houseId, pc = .insertRequest (some houseId) →
      db.memberExists houseId identity.userId = true)
    (h : (resolveStatement mac false draw now db identity pc).2 = .return result) :
    ∃ answer, result = .ok answer := by
  cases pc with
  | selectBound | selectApplication | selectMemberships =>
    simp only [resolveStatement, Bool.false_eq_true, if_false] at h
    split at h <;> first
      | exact ⟨_, (Next.return.inj h).symm⟩
      | cases h
  | insertRequest scope =>
    have hmember : (scope.all fun houseId => db.memberExists houseId identity.userId) = true := by
      cases scope with
      | none => rfl
      | some houseId => exact hscope houseId rfl
    simp only [resolveStatement, Bool.false_eq_true, if_false, Db.upsertPairing, hmember,
      if_true] at h
    exact ⟨_, (Next.return.inj h).symm⟩

/-- The surface of a house that was resolved exists. -/
theorem bound_surfaceExists {house : HouseContext} (h : db.bound identity = some house) :
    surfaceExists db house.id identity.applicationId = true := by
  obtain ⟨surface, hmem, _, _, happ, _, hhouse, _⟩ := Db.bound_spec h
  exact surfaceExists_iff.mpr ⟨surface, hmem, happ, hhouse⟩

end Statements

section Steps

variable {engine : HouseholdEngine} {mac : Text → δ} {sh sh' : PgShared δ} {c : CallId}
  {call call' : PgCall} {seen more : List Seen}

theorem taskStep_carries {shared shared' : Shared} {call call₁ : Call} {e : Event} {os : List Obs}
    (h : TaskStep engine shared c call e shared' call₁ os) (hlocal : storeless e = true) :
    ∀ house, Carries call₁ house → Carries call house := by
  intro house hc
  cases h with
  | bound | unbound | slot | marked | markFailed | saved | saveFailed | readySaved
  | pendingCleared => cases hlocal
  | lockFound | lockMade | busy | locked | deadline | watch | watcherText | watcherLost
  | joinedText | joinedLost => grind [Carries, pcContext]
  | turnKnown | startCalled | started | answered | runtimeFailed | dropped =>
    grind [Carries]

/-- A store operation of a request goes on with the house it had. -/
theorem pgSlotStep_carries (hlawful : aead.Lawful) {shaper : ReplyShaper} {input : HouseholdInput}
    {outcome : Outcome} {nonce : Nonce} {now : Nat} {surface : Bool} {temp temp' : TempDb}
    {pc pc' : Pc} {os : List Obs} {houseId : HouseId} (hhouse : pc.slotHouse = some houseId)
    (h : pgSlotStep aead cipher shaper c input outcome nonce now surface temp pc =
      some (temp', pc', os)) :
    ∀ house, pcContext pc' = some house → pcContext pc = some house := by
  obtain ⟨seen, slots', hslot, -, -⟩ := pgSlotStep_slotStep hlawful hhouse h
  cases slotStep_sound hslot with
  | taken =>
    unfold answerContinuation
    split <;> simp [pcContext]
  | polledNone =>
    unfold afterPoll
    split <;> simp [pcContext]
  | nothingTaken => exact fun _ hc => hc
  | failed | savedBack | shaped | shapedReady | cleared | polledReady | polledThinking =>
    simp [pcContext]

/-- Only a resolution gives a call a house. -/
theorem pgTaskStep_carries (hlawful : aead.Lawful) {e : PgEvent}
    (hno : ∀ fails draw, e ≠ .statement fails draw)
    (h : pgTaskStep aead cipher mac engine sh c call e = some (sh', call', more)) :
    ∀ house, Carries call'.call house → Carries call.call house := by
  cases e with
  | statement fails draw => exact absurd rfl (hno fails draw)
  | slot outcome nonce =>
    simp only [pgTaskStep] at h
    obtain ⟨houseId, hhouse, h⟩ := Option.bind_eq_some_iff.mp h
    obtain ⟨⟨temp', pc', os⟩, hslot, h⟩ := Option.bind_eq_some_iff.mp h
    obtain ⟨-, hrest⟩ := Prod.mk.inj (Option.some.inj h)
    obtain ⟨rfl, -⟩ := Prod.mk.inj hrest
    rintro house (hc | hwork)
    · exact .inl (pgSlotStep_carries hlawful hhouse hslot house hc)
    · exact .inr hwork
  | mark outcome =>
    simp only [pgTaskStep] at h
    split at h
    next work hpc hwork =>
      split at h <;>
      · obtain ⟨-, hrest⟩ := Prod.mk.inj (Option.some.inj h)
        obtain ⟨rfl, -⟩ := Prod.mk.inj hrest
        intro house hc
        grind [Carries, pcContext]
    next => cases h
  | threadSaved outcome =>
    simp only [pgTaskStep] at h
    obtain ⟨work, hwork, h⟩ := Option.bind_eq_some_iff.mp h
    split at h
    · split at h <;>
      · obtain ⟨-, hrest⟩ := Prod.mk.inj (Option.some.inj h)
        obtain ⟨rfl, -⟩ := Prod.mk.inj hrest
        intro house hc
        grind [Carries]
    · cases h
  | watcherStore outcome nonce =>
    simp only [pgTaskStep] at h
    obtain ⟨work, hwork, h⟩ := Option.bind_eq_some_iff.mp h
    obtain ⟨watcher, _, h⟩ := Option.bind_eq_some_iff.mp h
    split at h
    case h_3 => cases h
    all_goals
      obtain ⟨-, hrest⟩ := Prod.mk.inj (Option.some.inj h)
      obtain ⟨rfl, -⟩ := Prod.mk.inj hrest
      exact fun _ hc => hc
  | «local» e =>
    simp only [pgTaskStep] at h
    split at h
    next hlocal =>
      obtain ⟨⟨shared, call₁, os⟩, hstep, h⟩ := Option.map_eq_some_iff.mp h
      obtain ⟨-, hrest⟩ := Prod.mk.inj h
      obtain ⟨rfl, -⟩ := Prod.mk.inj hrest
      exact taskStep_carries (taskStep_sound hstep) hlocal
    next => cases h

/-- What a resolution returned, it read in the tables. -/
theorem pgTaskStep_resolved {e : PgEvent} {identity : SurfaceIdentity} {time : Nat}
    {house : HouseContext}
    (h : pgTaskStep aead cipher mac engine sh c call e = some (sh', call', more))
    (hmem : .resolved c identity time (.ok (.bound house)) ∈ more) :
    time = sh.clock ∧ ∃ row, sh.db.houses.find? house.id = some row ∧
      row.row.codexThreadId = house.codexThreadId := by
  by_cases hstatement : ∃ fails draw, e = .statement fails draw
  case neg =>
    have hno : ∀ fails draw, e ≠ .statement fails draw :=
      fun fails draw he => hstatement ⟨fails, draw, he⟩
    obtain ⟨_, _, os, rfl, _⟩ := pgTaskStep_concerns hno h
    obtain ⟨_, _, heq⟩ := List.mem_map.mp hmem
    cases heq
  obtain ⟨fails, draw, rfl⟩ := hstatement
  simp only [pgTaskStep] at h
  split at h
  next pc _ _ =>
    generalize hresult : resolveStatement mac fails draw sh.clock sh.db
      call.call.input.identity pc = r at h
    split at h
    next =>
      obtain ⟨-, hrest⟩ := Prod.mk.inj (Option.some.inj h)
      obtain ⟨-, rfl⟩ := Prod.mk.inj hrest
      cases hmem
    next result hnext =>
      obtain ⟨-, hrest⟩ := Prod.mk.inj (Option.some.inj h)
      obtain ⟨-, rfl⟩ := Prod.mk.inj hrest
      rcases List.mem_cons.mp hmem with heq | hmem
      · obtain ⟨-, -, rfl, rfl⟩ := Seen.resolved.inj heq
        rcases resolveStatement_cases mac hresult with ⟨-, -, hbound⟩ | ⟨_, _, hpairing, _⟩
        · obtain ⟨row, hfind, hcontext⟩ := bound_row (hbound house hnext).2
          exact ⟨rfl, row, hfind, congrArg HouseContext.codexThreadId hcontext⟩
        · cases hnext.symm.trans hpairing
      · obtain ⟨_, _, heq⟩ := List.mem_map.mp hmem
        cases heq
  next => cases h

/-- The outcome of the resolution gives the request a surface that exists. -/
theorem well_statement {draw : Fin 1000000} (hkeys : ForeignKeys sh.db)
    (hwell : Well c known outrun sh.db call seen)
    (h : pgTaskStep aead cipher mac engine sh c call (.statement false draw) =
      some (sh', call', more))
    (hresolved : ∀ identity time house,
      .resolved c identity time (.ok (.bound house)) ∈ more → known house) :
    Well c known outrun sh'.db call' (seen ++ more) := by
  simp only [pgTaskStep] at h
  split at h
  next pc hpc hresolve =>
    generalize hresult : resolveStatement mac false draw sh.clock sh.db
      call.call.input.identity pc = r at h
    have hgrows : Grows sh.db r.1 := hresult ▸ (statement_keys hkeys).grows
    split at h
    next pc' hnext =>
      obtain ⟨rfl, hrest⟩ := Prod.mk.inj (Option.some.inj h)
      obtain ⟨rfl, rfl⟩ := Prod.mk.inj hrest
      refine { hwell.grow hgrows [] with scope := fun houseId hscope => ?_ }
      obtain rfl := Option.some.inj hscope
      exact hgrows.keeps.memberExists (resolveStatement_scope (hresult ▸ hnext))
    next result hnext =>
      obtain ⟨rfl, hrest⟩ := Prod.mk.inj (Option.some.inj h)
      obtain ⟨rfl, rfl⟩ := Prod.mk.inj hrest
      have hscope : ∀ houseId, pc = .insertRequest (some houseId) →
          sh.db.memberExists houseId call.call.input.identity.userId = true :=
        fun houseId hscope => hwell.scope houseId (hresolve.trans (congrArg some hscope))
      obtain ⟨answer, rfl⟩ := resolveStatement_executed hscope (hresult ▸ hnext)
      have hwell' := hwell.grow hgrows (.resolved c call.call.input.identity sh.clock
        (.ok answer) :: (replyObs c call.call.app none (afterResolve (.ok answer))).map .house)
      refine { hwell' with
        surface := fun houseId hc => ?_
        scope := by simp
        carried := fun house hc => ?_
        answered := by cases answer <;> simp [afterResolve] }
      · rcases hc with hc | hwork
        · cases answer with
          | bound house =>
            obtain rfl := Option.some.inj hc
            rcases resolveStatement_cases mac hresult with ⟨-, -, hbound⟩ | ⟨_, _, hpairing, _⟩
            · exact hgrows.surfaceExists (bound_surfaceExists (hbound house hnext).2)
            · cases hnext.symm.trans hpairing
          | pairingRequired code => cases hc
          | unauthorized => cases hc
        · exact hwell'.surface houseId (.inr hwork)
      · rcases hc with hc | hwork
        · cases answer with
          | bound house =>
            obtain rfl := Option.some.inj hc
            exact hresolved _ _ house List.mem_cons_self
          | pairingRequired code => cases hc
          | unauthorized => cases hc
        · exact hwell'.carried house (.inr hwork)
  next => cases h

/-- A step of the request or of its work that is no statement. -/
theorem well_local {e : Event} {shared shared' : Shared} {call₁ : Call} {os : List Obs}
    (hwell : Well c known outrun sh.db call seen) (hlocal : storeless e = true)
    (hsound : sound (.local e) = true)
    (h : TaskStep engine shared c call.call e shared' call₁ os) :
    Well c known outrun sh.db { call with call := call₁ } (seen ++ os.map .house) := by
  obtain ⟨hinput, hconcerns, -⟩ := taskStep_concerns h hlocal
  have happ : call₁.app = call.call.app := by rw [Call.app, hinput, Call.app]
  have hwell' := hwell.grow (.refl _) (os.map Seen.house)
  have hsurface : ∀ houseId, Concerns call₁ houseId →
      surfaceExists sh.db houseId call₁.app = true := by
    intro houseId hc
    rw [happ]
    exact hwell'.surface houseId (hconcerns houseId hc)
  have hscope : ∀ houseId, call.resolve = some (.insertRequest (some houseId)) →
      sh.db.memberExists houseId call₁.input.identity.userId = true := by
    rw [hinput]
    exact hwell'.scope
  have hcarried : ∀ house, Carries call₁ house → known house :=
    fun house hc => hwell'.carried house (taskStep_carries h hlocal house hc)
  cases h with
  | bound | unbound | slot | marked | markFailed | saved | saveFailed | readySaved
  | pendingCleared => cases hlocal
  | lockFound | lockMade | busy | deadline | watch | joinedText =>
    exact ⟨hsurface, hscope, hcarried, hwell'.steady, hwell'.free, hwell'.started, by simp,
      hwell'.worked⟩
  | joinedLost hpc hwork hlost =>
    refine ⟨hsurface, hscope, hcarried, hwell'.steady, hwell'.free, hwell'.started, fun _ => ?_,
      hwell'.worked⟩
    refine hwell'.worked _ hwork ?_
    rcases hlost with hlost | hlost <;> rw [hlost] <;> trivial
  | @locked house lock work hpc _ _ _ _ haborting hspawned =>
    refine ⟨hsurface, hscope, hcarried, ?_, ?_, ?_, by simp, ?_⟩
    · rintro _ ⟨rfl⟩
      exact haborting
    · rintro _ ⟨rfl⟩ hstarts
      rw [hspawned] at hstarts
      cases hstarts
    · rintro _ threadId ⟨rfl⟩ hsaving
      rw [hspawned] at hsaving
      cases hsaving
    · rintro _ ⟨rfl⟩ hlost
      rw [hspawned] at hlost
      exact hlost.elim
  | turnKnown hwork | answered hwork =>
    exact hwell'.works hwork rfl rfl (fun h => by cases h) (fun _ h => by cases h) False.elim
  | startCalled hwork _ hnone =>
    exact hwell'.works hwork rfl rfl (fun _ => hnone) (fun _ h => by cases h) False.elim
  | started hwork hpc =>
    have hfree := hwell'.free _ hwork (by rw [hpc]; rfl)
    refine hwell'.works hwork rfl rfl (fun _ => hfree) (fun threadId hsaving => ?_) False.elim
    obtain rfl := WorkPc.saveThreadId.inj hsaving
    exact List.mem_append_right _ List.mem_cons_self
  | runtimeFailed hwork _ hevent =>
    rcases hevent with rfl | rfl <;> cases hsound
  | dropped hwork _ hevent =>
    rcases hevent with rfl | ⟨rfl, haborting⟩
    · cases hsound
    · rw [hwell.steady _ hwork] at haborting
      cases haborting
  | watcherText | watcherLost =>
    exact ⟨hsurface, hscope, hcarried, hwell'.steady, hwell'.free, hwell'.started,
      hwell'.answered, hwell'.worked⟩

/-- `save_thread_id` refuses only a thread that came too late. -/
theorem saveThreadId_refused {db : Db δ} {houseId : HouseId} {threadId : Text} {house : House}
    {error : HouseholdStoreError} (hfind : db.houses.find? houseId = some house)
    (h : (saveThreadId .ok db houseId threadId).2 = .error error) :
    ∃ other, house.row.codexThreadId = some other ∧ other ≠ threadId := by
  simp only [saveThreadId] at h
  split at h
  · cases h
  next hany =>
    obtain ⟨hmem, hid⟩ := Table.find?_eq_some.mp hfind
    have hfree : threadFree houseId threadId house ≠ true :=
      fun hfree => hany (List.any_eq_true.mpr ⟨house, hmem, hfree⟩)
    cases hthread : house.row.codexThreadId with
    | none => simp [threadFree, hid, hthread] at hfree
    | some other =>
      refine ⟨other, rfl, ?_⟩
      rintro rfl
      simp [threadFree, hid, hthread] at hfree

/-- Every step of a call that is sound leaves it well. -/
theorem well_task (hlawful : aead.Lawful) {e : PgEvent} (hintact : Intact aead cipher sh)
    (hwell : Well c known outrun sh.db call seen) (hsound : sound e = true)
    (htakes : Takes aead cipher (pcSealed engine.shaper call.call.pc))
    (h : pgTaskStep aead cipher mac engine sh c call e = some (sh', call', more))
    (hknown : ∀ house, known house → known' house) (houtrun : outrun → outrun')
    (hresolved : ∀ identity time house,
      .resolved c identity time (.ok (.bound house)) ∈ more → known' house)
    (hlate : ∀ work threadId other, e = .threadSaved .ok →
      Late c known sh.db call.call seen work threadId other → outrun') :
    Well c known' outrun' sh'.db call' (seen ++ more) := by
  have hconcerns (hno : ∀ fails draw, e ≠ .statement fails draw) :=
    (pgTaskStep_concerns hno h).2.1
  have hcarries (hno : ∀ fails draw, e ≠ .statement fails draw) :=
    pgTaskStep_carries hlawful hno h
  have hsame : Well c known' outrun' sh.db call seen := by
    simpa using hwell.mono hknown houtrun (.refl _) []
  have hwell' := hsame.grow (.refl _) more
  cases e with
  | statement fails draw =>
    cases fails with
    | true => cases hsound
    | false => exact well_statement hintact.keys hsame h hresolved
  | slot outcome nonce =>
    have hback := hconcerns (by simp)
    have hback' := hcarries (by simp)
    obtain rfl : outcome = .ok := by simpa [sound] using hsound
    simp only [pgTaskStep] at h
    obtain ⟨houseId, hhouse, h⟩ := Option.bind_eq_some_iff.mp h
    obtain ⟨⟨temp', pc', os⟩, hslot, h⟩ := Option.bind_eq_some_iff.mp h
    obtain ⟨rfl, hrest⟩ := Prod.mk.inj (Option.some.inj h)
    obtain ⟨rfl, rfl⟩ := Prod.mk.inj hrest
    rw [hwell.surface houseId (.inl (slotHouse_pcHouse hhouse))] at hslot
    have hopens : Opens aead cipher sh.temp :=
      ⟨fun row hmem => (hintact.pending row hmem).2.2,
        fun row hmem => (hintact.continuations row hmem).2.2⟩
    exact hwell'.goes (pgSlotStep_executed hopens htakes hslot) hback hback'
  | mark outcome =>
    have hback := hconcerns (by simp)
    have hback' := hcarries (by simp)
    obtain rfl : outcome = .ok := by simpa [sound] using hsound
    simp only [pgTaskStep] at h
    split at h
    next work hpc hwork =>
      have hexists := hwell.surface work.house.id (.inr ⟨work, hwork, rfl⟩)
      simp only [hexists, markThinking, written, if_true] at h
      obtain ⟨rfl, hrest⟩ := Prod.mk.inj (Option.some.inj h)
      obtain ⟨rfl, rfl⟩ := Prod.mk.inj hrest
      exact hwell'.goes (by simp) hback hback'
    next => cases h
  | threadSaved outcome =>
    obtain rfl : outcome = .ok := by simpa [sound] using hsound
    simp only [pgTaskStep] at h
    obtain ⟨work, hwork, h⟩ := Option.bind_eq_some_iff.mp h
    split at h
    next threadId hpc =>
      have hkeys := saveThreadId_keys .ok work.house.id threadId hintact.keys
      have hexists := hwell.surface work.house.id (.inr ⟨work, hwork, rfl⟩)
      obtain ⟨house, hfind⟩ := hintact.keys.houseOfSurface hexists
      split at h
      · obtain ⟨rfl, hrest⟩ := Prod.mk.inj (Option.some.inj h)
        obtain ⟨rfl, rfl⟩ := Prod.mk.inj hrest
        exact (hsame.grow hkeys.grows _).works hwork rfl rfl (fun h => by cases h)
          (fun _ h => by cases h) False.elim
      next error hrefused =>
        obtain ⟨rfl, hrest⟩ := Prod.mk.inj (Option.some.inj h)
        obtain ⟨rfl, rfl⟩ := Prod.mk.inj hrest
        obtain ⟨other, hother, hne⟩ := saveThreadId_refused hfind hrefused
        -- the house was resolved without a thread, and now it has another one
        have hthread : Late c known sh.db call.call seen work threadId other :=
          { running := hwork
            saving := hpc
            started := hwell.started work threadId hwork hpc
            resolved := hwell.carried work.house (.inr ⟨work, hwork, rfl⟩)
            free := hwell.free work hwork (by rw [hpc]; rfl)
            taken := ⟨house, hfind, hother⟩
            differs := hne }
        exact (hsame.grow hkeys.grows []).works hwork rfl rfl (fun h => by cases h)
          (fun _ h => by cases h) fun _ => hlate work threadId other rfl hthread
    next => cases h
  | watcherStore outcome nonce =>
    have hback := hconcerns (by simp)
    have hback' := hcarries (by simp)
    simp only [pgTaskStep] at h
    obtain ⟨work, hwork, h⟩ := Option.bind_eq_some_iff.mp h
    obtain ⟨watcher, _, h⟩ := Option.bind_eq_some_iff.mp h
    split at h
    case h_3 => cases h
    all_goals
      obtain ⟨rfl, hrest⟩ := Prod.mk.inj (Option.some.inj h)
      obtain ⟨rfl, rfl⟩ := Prod.mk.inj hrest
      exact ⟨fun id hc => hwell'.surface id (hback id hc), hwell'.scope,
        fun house hc => hwell'.carried house (hback' house hc), hwell'.steady, hwell'.free,
        hwell'.started, hwell'.answered, hwell'.worked⟩
  | «local» e =>
    simp only [pgTaskStep] at h
    split at h
    next hlocal =>
      obtain ⟨⟨shared, call₁, os⟩, hstep, h⟩ := Option.map_eq_some_iff.mp h
      obtain ⟨rfl, hrest⟩ := Prod.mk.inj h
      obtain ⟨rfl, rfl⟩ := Prod.mk.inj hrest
      exact well_local hsame hlocal hsound (taskStep_sound hstep)
    next => cases h

/-- The replies a step of a call shows are its own, and it ends with them. -/
def OwnReplies (c : CallId) (call : PgCall) (seen : List Seen) : Prop :=
  ∀ c' app house reply, .house (.reply c' app house reply) ∈ seen →
    c' = c ∧ call.call.pc = .replied reply

theorem ownReplies_of {c : CallId} {call : PgCall} {os : List Obs}
    (h : ∀ c' app house reply, .reply c' app house reply ∈ os →
      c' = c ∧ call.call.pc = .replied reply) : OwnReplies c call (os.map .house) := by
  intro c' app house reply hmem
  obtain ⟨o, ho, heq⟩ := List.mem_map.mp hmem
  obtain rfl := Seen.house.inj heq
  exact h c' app house reply ho

theorem mem_replyObs {c' : CallId} {app app' : Text} {house house' : Option HouseId}
    {reply : HouseholdReply} {pc : Pc}
    (h : .reply c' app' house' reply ∈ replyObs c app house pc) :
    c' = c ∧ pc = .replied reply := by
  unfold replyObs at h
  split at h
  · obtain ⟨rfl, -, -, rfl⟩ := by simpa using h
    exact ⟨rfl, rfl⟩
  · cases h

theorem pgSlotStep_silent {shaper : ReplyShaper} {input : HouseholdInput} {outcome : Outcome}
    {nonce : Nonce} {now : Nat} {surface : Bool} {temp temp' : TempDb} {pc pc' : Pc}
    {os : List Obs}
    (h : pgSlotStep aead cipher shaper c input outcome nonce now surface temp pc =
      some (temp', pc', os)) :
    ∀ c' app house reply, .reply c' app house reply ∉ os := by
  cases pc with
  | takeContinuation house =>
    simp only [pgSlotStep] at h
    split at h
    next =>
      obtain ⟨-, -, rfl⟩ := by simpa using h
      split <;> simp
    all_goals
      obtain ⟨-, -, rfl⟩ := by simpa using h
      simp
  | pollPending house =>
    simp only [pgSlotStep] at h
    split at h <;>
    · obtain ⟨-, -, rfl⟩ := by simpa using h
      simp
  | shapeAndSave house text source =>
    simp only [pgSlotStep] at h
    split at h
    · obtain ⟨-, -, rfl⟩ := by simpa using h
      simp
    · split at h <;>
      · obtain ⟨-, -, rfl⟩ := by simpa using h
        simp
  | saveBack house chunks | clearReady house text =>
    simp only [pgSlotStep] at h
    split at h <;>
    · obtain ⟨-, -, rfl⟩ := by simpa using h
      simp
  | _ => cases h

theorem taskStep_replies {shared shared' : Shared} {call call₁ : Call} {e : Event} {os : List Obs}
    (h : TaskStep engine shared c call e shared' call₁ os) (hlocal : storeless e = true) :
    ∀ c' app house reply, .reply c' app house reply ∈ os → c' = c ∧ call₁.pc = .replied reply := by
  cases h with
  | bound | unbound | slot | marked | markFailed | saved | saveFailed | readySaved
  | pendingCleared => cases hlocal
  | busy | joinedLost | watch =>
    intro c' app house reply hmem
    obtain ⟨rfl, -, -, rfl⟩ := by simpa using hmem
    exact ⟨rfl, rfl⟩
  | lockFound | lockMade | locked | joinedText | deadline | turnKnown | startCalled | started
  | answered | runtimeFailed | dropped | watcherText | watcherLost => simp

theorem pgTaskStep_replies {e : PgEvent}
    (h : pgTaskStep aead cipher mac engine sh c call e = some (sh', call', more)) :
    OwnReplies c call' more := by
  cases e with
  | statement fails draw =>
    simp only [pgTaskStep] at h
    split at h
    next =>
      split at h
      next =>
        obtain ⟨rfl, hrest⟩ := Prod.mk.inj (Option.some.inj h)
        obtain ⟨rfl, rfl⟩ := Prod.mk.inj hrest
        intro c' app house reply hmem
        cases hmem
      next =>
        obtain ⟨rfl, hrest⟩ := Prod.mk.inj (Option.some.inj h)
        obtain ⟨rfl, rfl⟩ := Prod.mk.inj hrest
        intro c' app house reply hmem
        rcases List.mem_cons.mp hmem with heq | hmem
        · cases heq
        · exact ownReplies_of (fun _ _ _ _ => mem_replyObs) c' app house reply hmem
    next => cases h
  | slot outcome nonce =>
    simp only [pgTaskStep] at h
    obtain ⟨houseId, hhouse, h⟩ := Option.bind_eq_some_iff.mp h
    obtain ⟨⟨temp', pc', os⟩, hslot, h⟩ := Option.bind_eq_some_iff.mp h
    obtain ⟨rfl, hrest⟩ := Prod.mk.inj (Option.some.inj h)
    obtain ⟨rfl, rfl⟩ := Prod.mk.inj hrest
    refine ownReplies_of fun c' app house reply hmem => ?_
    rcases List.mem_cons.mp hmem with heq | hmem
    · cases heq
    · rcases List.mem_append.mp hmem with hmem | hmem
      · exact absurd hmem (pgSlotStep_silent hslot c' app house reply)
      · exact mem_replyObs hmem
  | mark outcome =>
    simp only [pgTaskStep] at h
    split at h
    next =>
      split at h <;>
      · obtain ⟨rfl, hrest⟩ := Prod.mk.inj (Option.some.inj h)
        obtain ⟨rfl, rfl⟩ := Prod.mk.inj hrest
        intro c' app house reply hmem
        simp_all
    next => cases h
  | threadSaved outcome =>
    simp only [pgTaskStep] at h
    obtain ⟨work, hwork, h⟩ := Option.bind_eq_some_iff.mp h
    split at h
    · split at h <;>
      · obtain ⟨rfl, hrest⟩ := Prod.mk.inj (Option.some.inj h)
        obtain ⟨rfl, rfl⟩ := Prod.mk.inj hrest
        intro c' app house reply hmem
        simp at hmem
    · cases h
  | watcherStore outcome nonce =>
    simp only [pgTaskStep] at h
    obtain ⟨work, hwork, h⟩ := Option.bind_eq_some_iff.mp h
    obtain ⟨watcher, _, h⟩ := Option.bind_eq_some_iff.mp h
    split at h
    case h_3 => cases h
    all_goals
      obtain ⟨rfl, hrest⟩ := Prod.mk.inj (Option.some.inj h)
      obtain ⟨rfl, rfl⟩ := Prod.mk.inj hrest
      intro c' app house reply hmem
      simp at hmem
  | «local» e =>
    simp only [pgTaskStep] at h
    split at h
    next hlocal =>
      obtain ⟨⟨shared, call₁, os⟩, hstep, h⟩ := Option.map_eq_some_iff.mp h
      obtain ⟨rfl, hrest⟩ := Prod.mk.inj h
      obtain ⟨rfl, rfl⟩ := Prod.mk.inj hrest
      exact ownReplies_of (taskStep_replies (taskStep_sound hstep) hlocal)
    next => cases h

end Steps

/-! ## Runs -/

/-- Nothing of the call's own fails in this step. -/
def soundFor (c : CallId) : PgAction δ → Bool
  | .task c' e => c' ≠ c || sound e
  | _ => true

/-- And the cipher takes what the call seals in it. -/
structure Healthy (aead : Aead) (cipher : StateCipher) (engine : HouseholdEngine) (c : CallId)
    (s : PgState δ) (a : PgAction δ) : Prop where
  sound : soundFor c a = true
  takes : ∀ e call, a = .task c e → s.calls[c]? = some call →
    Takes aead cipher (pcSealed engine.shaper call.call.pc)

/-- A step of the run was the end of the resolution of the call: it returned the house, with
the thread the house then had. -/
def Resolved (M : Machine (PgState δ) (PgAction δ) Seen) (start : PgState δ)
    (acts : List (PgAction δ)) (c : CallId) (house : HouseContext) : Prop :=
  ∃ s before e s' more identity, M.Took start acts s before (.task c e) ∧
    M.step s (.task c e) = some (s', more) ∧
    .resolved c identity s.shared.clock (.ok (.bound house)) ∈ more ∧
    ∃ row, s.shared.db.houses.find? house.id = some row ∧
      row.row.codexThreadId = house.codexThreadId

/-- The thread the call started came too late: when the call resolved its house this had no
thread, and later, when the call stored the thread it had started, it had another one. -/
def Outrun (M : Machine (PgState δ) (PgAction δ) Seen) (start : PgState δ)
    (acts : List (PgAction δ)) (c : CallId) : Prop :=
  ∃ earlier later s before call work threadId other,
    acts = earlier ++ .task c (.threadSaved .ok) :: later ∧
    M.exec start earlier = some (s, before) ∧ s.calls[c]? = some call ∧
    Late c (Resolved M start earlier c) s.shared.db call.call before work threadId other

section Histories

variable {M : Machine (PgState δ) (PgAction δ) Seen} {start : PgState δ}
  {acts : List (PgAction δ)} {c : CallId}

theorem Resolved.mono {house : HouseContext} (h : Resolved M start acts c house)
    (later : List (PgAction δ)) : Resolved M start (acts ++ later) c house := by
  obtain ⟨s, before, e, s', more, identity, htook, hrest⟩ := h
  exact ⟨s, before, e, s', more, identity, htook.mono later, hrest⟩

theorem Outrun.mono (h : Outrun M start acts c) (more : List (PgAction δ)) :
    Outrun M start (acts ++ more) c := by
  obtain ⟨earlier, later, s, before, call, work, threadId, other, rfl, hrest⟩ := h
  exact ⟨earlier, later ++ more, s, before, call, work, threadId, other, by simp, hrest⟩

end Histories

/-- The tables are intact, the call is well, and it got no internal error. -/
structure CallWell (aead : Aead) (cipher : StateCipher)
    (M : Machine (PgState δ) (PgAction δ) Seen) (start : PgState δ) (c : CallId)
    (acts : List (PgAction δ)) (s : PgState δ) (seen : List Seen) : Prop where
  tables : Intact aead cipher s.shared
  call : ∀ call, s.calls[c]? = some call →
    Well c (Resolved M start acts c) (Outrun M start acts c) s.shared.db call seen
  replied : ∀ app house, .house (.reply c app house .internalError) ∈ seen →
    Outrun M start acts c

section Runs

variable [DecidableEq δ] {engine : HouseholdEngine} {mac : Text → δ} {s s' start : PgState δ}
  {a : PgAction δ} {c : CallId} {acts : List (PgAction δ)} {seen more : List Seen}

theorem callWell_step (hlawful : aead.Lawful)
    (he : (pgMachine aead cipher mac engine).exec start acts = some (s, seen))
    (hs : CallWell aead cipher (pgMachine aead cipher mac engine) start c acts s seen)
    (hhealthy : Healthy aead cipher engine c s a)
    (hstep : (pgMachine aead cipher mac engine).step s a = some (s', more)) :
    CallWell aead cipher (pgMachine aead cipher mac engine) start c (acts ++ [a]) s'
      (seen ++ more) := by
  have hmoves := step_moves hlawful hs.tables.keys hstep
  have hgrows := hmoves.tables.grows
  have htables := hs.tables.moves hmoves
  have hresolved := fun (house : HouseContext)
      (h : Resolved (pgMachine aead cipher mac engine) start acts c house) => h.mono [a]
  have houtrun := fun (h : Outrun (pgMachine aead cipher mac engine) start acts c) => h.mono [a]
  have hreplied := fun app house hmem => houtrun (hs.replied app house hmem)
  have hothers : ∀ call, s.calls[c]? = some call →
      Well c (Resolved (pgMachine aead cipher mac engine) start (acts ++ [a]) c)
        (Outrun (pgMachine aead cipher mac engine) start (acts ++ [a]) c) s'.shared.db call
        (seen ++ more) :=
    fun call hcall => (hs.call call hcall).mono hresolved houtrun hgrows more
  have h := hstep
  dsimp only [pgMachine] at h
  cases a with
  | arrive input =>
    obtain ⟨rfl, rfl⟩ := Prod.mk.inj (Option.some.inj h)
    refine ⟨htables, fun call hcall => ?_, fun app house hmem => ?_⟩
    · rw [List.getElem?_append] at hcall
      split at hcall
      · exact hothers call hcall
      · obtain rfl := List.mem_singleton.mp (List.mem_of_getElem? hcall)
        constructor <;> simp [Concerns, pcHouse, Carries, pcContext]
    · rw [List.append_nil] at hmem
      exact hreplied app house hmem
  | command command =>
    simp only [pgStep] at h
    split at h
    next howner =>
      obtain ⟨r, hr, h⟩ := Option.map_eq_some_iff.mp h
      obtain ⟨rfl, rfl⟩ := Prod.mk.inj h
      refine ⟨htables, hothers, fun app house hmem => ?_⟩
      rcases List.mem_append.mp hmem with hmem | hmem
      · exact hreplied app house hmem
      · obtain ⟨event, _, heq⟩ := List.mem_map.mp hmem
        cases heq
    next => cases h
  | task c' e =>
    simp only [pgStep] at h
    obtain ⟨call, hcall, h⟩ := Option.bind_eq_some_iff.mp h
    obtain ⟨⟨sh', call', os⟩, htask, h⟩ := Option.bind_eq_some_iff.mp h
    obtain ⟨rfl, rfl⟩ := Prod.mk.inj (Option.some.inj h)
    have hown := pgTaskStep_replies htask
    by_cases hc : c' = c
    · subst hc
      have hsound : sound e = true := by simpa [soundFor] using hhealthy.sound
      have htakes := hhealthy.takes e call rfl hcall
      have hwell := well_task hlawful hs.tables (hs.call call hcall) hsound htakes htask hresolved
        houtrun
        (fun identity time house hmem => by
          obtain ⟨rfl, hrow⟩ := pgTaskStep_resolved htask hmem
          exact ⟨s, seen, e, _, _, identity, took_last _ he, hstep, hmem, hrow⟩)
        (fun work threadId other hsave hlate => by
          subst hsave
          exact ⟨acts, [], s, seen, call, work, threadId, other, rfl, he, hcall, hlate⟩)
      refine ⟨htables, fun other hother => ?_, fun app house hmem => ?_⟩
      · obtain ⟨hlt, _⟩ := List.getElem?_eq_some_iff.mp hcall
        rw [List.getElem?_set_self hlt] at hother
        obtain rfl := Option.some.inj hother
        exact hwell
      · rcases List.mem_append.mp hmem with hmem | hmem
        · exact hreplied app house hmem
        · exact hwell.answered (hown _ app house _ hmem).2
    · refine ⟨htables, fun other hother => ?_, fun app house hmem => ?_⟩
      · rw [List.getElem?_set_ne hc] at hother
        exact hothers other hother
      · rcases List.mem_append.mp hmem with hmem | hmem
        · exact hreplied app house hmem
        · exact absurd (hown _ app house _ hmem).1.symm hc

/-- In a run from empty tables a call whose own statements are executed and whose own turn is
answered is answered with an internal error only if the thread it started was outrun by
another one. -/
theorem healthy_call_answered (hlawful : aead.Lawful) {clock : Nat}
    (hhealthy : (pgMachine aead cipher mac engine).Along (Healthy aead cipher engine c)
      (.start Db.empty TempDb.empty clock) acts)
    (he : (pgMachine aead cipher mac engine).exec (.start Db.empty TempDb.empty clock) acts =
      some (s, seen)) {app : Text} {house : Option HouseId}
    (hreply : .house (.reply c app house .internalError) ∈ seen) :
    Outrun (pgMachine aead cipher mac engine) (.start Db.empty TempDb.empty clock) acts c := by
  have hstart : CallWell aead cipher (pgMachine aead cipher mac engine)
      (.start Db.empty TempDb.empty clock) c []
      (PgState.start (Db.empty : Db δ) TempDb.empty clock) [] :=
    ⟨.empty clock, by simp [PgState.start], by simp⟩
  have hrun := Machine.exec_invariant_run
    (CallWell aead cipher (pgMachine aead cipher mac engine)
      (.start Db.empty TempDb.empty clock) c)
    (fun hexec hs hC h => callWell_step hlawful hexec hs hC h) rfl hstart hhealthy he
  simp only [List.nil_append] at hrun
  exact hrun.replied app house hreply

theorem takes_plainAead (cipher : StateCipher) (text : Option Bytes) :
    Takes plainAead cipher text := fun _ _ _ => rfl

/-- Two requests of one home ask at once; the second finds a thread it does not know of. -/
def twoAtOnce : List (PgAction Text) :=
  pairedEvening ++ asking 1 ++ asking 2 ++ starting 1 ['t'] ++ answering 1 ['!'] ++
    starting 2 ['x'] ++ [.task 2 (.local .joined)]

theorem healthy_call_answered_twoAtOnce :
    ∃ s seen, (pgMachine plainAead zeroCipher (id : Text → Text) ⟨⟨850, by decide⟩, false⟩).exec
        (.start Db.empty TempDb.empty 0) twoAtOnce = some (s, seen) ∧
      Outrun (pgMachine plainAead zeroCipher id ⟨⟨850, by decide⟩, false⟩)
        (.start Db.empty TempDb.empty 0) twoAtOnce 2 := by
  have hrun : ((pgMachine plainAead zeroCipher (id : Text → Text) ⟨⟨850, by decide⟩, false⟩).exec
      (.start Db.empty TempDb.empty 0) twoAtOnce).map (fun r => decide
        (Obs.reply 2 ['a'] (some 1) .internalError ∈ r.2.filterMap Seen.house?)) =
      some true := by decide +kernel
  obtain ⟨⟨s, seen⟩, hexec, hreply⟩ := Option.map_eq_some_iff.mp hrun
  obtain ⟨x, hmem, hx⟩ := List.mem_filterMap.mp (of_decide_eq_true hreply)
  have hsound : ∀ a ∈ twoAtOnce, soundFor 2 a = true := by decide
  have hhealthy : (pgMachine plainAead zeroCipher (id : Text → Text)
      ⟨⟨850, by decide⟩, false⟩).Along (Healthy plainAead zeroCipher ⟨⟨850, by decide⟩, false⟩ 2)
        (.start Db.empty TempDb.empty 0) twoAtOnce :=
    (Machine.Along.of_forall hsound).mono fun _ _ h =>
      ⟨h, fun _ _ _ _ => takes_plainAead _ _⟩
  cases x with
  | commanded | resolved => cases hx
  | house o =>
    obtain rfl := Option.some.inj hx
    exact ⟨s, seen, hexec, healthy_call_answered plainAead_lawful hhealthy hexec hmem⟩

end Runs

end AliceBridge.Server.PgHealth
