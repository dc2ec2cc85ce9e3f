import AliceBridge.Core.HouseSteps
import AliceBridge.Server.PgHouse

/-! # What a call does to a house it was let into

In a run of the bridge over PostgreSQL a call speaks for, reads or writes a house only
after its own `resolve_surface` returned that house (`Vouched`), and that rests on the
commands of the owner up to there (`Access.Accounted`), whatever the owner, other calls
and the clock do in between. -/
namespace AliceBridge.Server.PgAccess
open AliceBridge.Lib AliceBridge.Lib.Utf8 AliceBridge.Lib.Run AliceBridge.Core.Reply
open AliceBridge.Core.Household AliceBridge.Core.HouseEngine AliceBridge.Core.HouseSteps
open AliceBridge.Server.HouseStore AliceBridge.Server.StateCrypto
open AliceBridge.Server.TemporaryState AliceBridge.Server.PgHouse
open AliceBridge.Server.Access (codesDiffer_id)

variable {δ : Type} {aead : Aead} {cipher : StateCipher}

/-! ## The houses of a call -/

/-- The house of the next operation of a request. -/
def pcHouse : Pc → Option HouseId
  | .takeContinuation house | .pollPending house | .lockEntry house | .tryLock house _ =>
    some house.id
  | .saveBack houseId _ | .shapeAndSave houseId _ _ | .clearReady houseId _ => some houseId
  | _ => none

/-- A call is about to touch the house, itself or through its work. -/
def Concerns (call : Call) (houseId : HouseId) : Prop :=
  pcHouse call.pc = some houseId ∨ ∃ work, call.work = some work ∧ work.house.id = houseId

/-- What a call did, and to which house. -/
def obsHouse : Obs → Option (CallId × HouseId)
  | .touched c houseId _ | .startThread c houseId _ | .threadStarted c houseId _
  | .turn c houseId _ _ | .answer c houseId _ _ | .shaped c houseId _ _ _
  | .spoke c houseId _ _ _ | .refused c houseId _ _ => some (c, houseId)
  | .reply c _ house _ => house.map fun houseId => (c, houseId)

/-- Every observation is one of this call about a house it concerns. -/
def OfCall (c : CallId) (call : Call) (os : List Obs) : Prop :=
  ∀ o ∈ os, ∀ c' houseId, obsHouse o = some (c', houseId) → c' = c ∧ Concerns call houseId

theorem slotHouse_pcHouse {pc : Pc} {houseId : HouseId} (h : pc.slotHouse = some houseId) :
    pcHouse pc = some houseId := by
  cases pc <;> simp_all [Pc.slotHouse, pcHouse]

theorem replyObs_house {c c' : CallId} {app : Text} {house : Option HouseId} {pc : Pc} {o : Obs}
    {houseId : HouseId} (ho : o ∈ replyObs c app house pc) (h : obsHouse o = some (c', houseId)) :
    c' = c ∧ house = some houseId := by
  unfold replyObs at ho
  split at ho
  · obtain rfl := List.mem_singleton.mp ho
    simp only [obsHouse, Option.map_eq_some_iff, Prod.mk.injEq] at h
    obtain ⟨_, rfl, rfl, rfl⟩ := h
    exact ⟨rfl, rfl⟩
  · cases ho

/-- A task step that is no resolution stays with the houses of its call. -/
theorem taskStep_concerns {engine : HouseholdEngine} {sh sh' : Shared} {c : CallId}
    {call call' : Call} {e : Event} {os : List Obs}
    (h : TaskStep engine sh c call e sh' call' os) (hlocal : storeless e = true) :
    call'.input = call.input ∧ (∀ houseId, Concerns call' houseId → Concerns call houseId) ∧
      OfCall c call os := by
  cases h with
  | bound | unbound | slot | marked | markFailed | saved | saveFailed | readySaved
  | pendingCleared => cases hlocal
  | lockFound | lockMade | busy | deadline | watch | watcherText | watcherLost | joinedLost =>
    refine ⟨rfl, fun id hc => ?_, fun o ho c' id hobs => ?_⟩
    · grind [Concerns, pcHouse]
    · grind [Concerns, pcHouse, obsHouse]
  | locked | joinedText =>
    refine ⟨rfl, fun id hc => ?_, by simp [OfCall]⟩
    grind [Concerns, pcHouse]
  | turnKnown | startCalled | started | answered | runtimeFailed | dropped =>
    refine ⟨rfl, fun id hc => ?_, fun o ho c' id hobs => ?_⟩
    · grind [Concerns, pcHouse]
    · grind [Concerns, obsHouse]

section Steps

variable {engine : HouseholdEngine} {mac : Text → δ} {sh sh' : PgShared δ} {c : CallId}
  {call call' : PgCall} {seen : List Seen}

/-- A store operation of a request stays with its house. -/
theorem pgSlotStep_concerns {shaper : ReplyShaper} {input : HouseholdInput} {outcome : Outcome}
    {nonce : Nonce} {now : Nat} {surface : Bool} {temp temp' : TempDb} {pc pc' : Pc}
    {os : List Obs} {houseId : HouseId} (hhouse : pc.slotHouse = some houseId)
    (h : pgSlotStep aead cipher shaper c input outcome nonce now surface temp pc =
      some (temp', pc', os)) :
    (∀ id, pcHouse pc' = some id → id = houseId) ∧
      ∀ o ∈ os, ∀ c' id, obsHouse o = some (c', id) → c' = c ∧ id = houseId := by
  cases pc with
  | takeContinuation house =>
    simp only [pgSlotStep] at h
    split at h
    next chunks _ =>
      obtain ⟨rfl, rfl, rfl⟩ := by simpa using h
      refine ⟨fun id hid => ?_, ?_⟩
      · unfold answerContinuation at hid
        split at hid <;> simp_all [pcHouse, Pc.slotHouse]
      · split <;> simp_all [obsHouse, Pc.slotHouse]
    all_goals
      obtain ⟨rfl, rfl, rfl⟩ := by simpa using h
      simp_all [pcHouse, Pc.slotHouse]
  | pollPending house =>
    simp only [pgSlotStep] at h
    split at h
    all_goals
      obtain ⟨rfl, rfl, rfl⟩ := by simpa using h
      refine ⟨fun id hid => ?_, by simp⟩
    next => simp_all [pcHouse, Pc.slotHouse]
    next => simp_all [pcHouse, Pc.slotHouse]
    next =>
      unfold afterPoll at hid
      split at hid <;> simp_all [pcHouse, Pc.slotHouse]
    next => simp_all [pcHouse, Pc.slotHouse]
  | shapeAndSave house text source =>
    simp only [pgSlotStep] at h
    split at h
    · obtain ⟨rfl, rfl, rfl⟩ := by simpa using h
      simp_all [pcHouse, Pc.slotHouse]
    · split at h <;>
      · obtain ⟨rfl, rfl, rfl⟩ := by simpa using h
        simp_all [pcHouse, Pc.slotHouse, obsHouse]
  | saveBack house chunks =>
    simp only [pgSlotStep] at h
    split at h <;>
    · obtain ⟨rfl, rfl, rfl⟩ := by simpa using h
      simp_all [pcHouse, Pc.slotHouse, obsHouse]
  | clearReady house text =>
    simp only [pgSlotStep] at h
    split at h <;>
    · obtain ⟨rfl, rfl, rfl⟩ := by simpa using h
      simp_all [pcHouse, Pc.slotHouse, obsHouse]
  | _ => cases hhouse

/-- A step of a call that is no resolution stays with its houses. -/
theorem pgTaskStep_concerns {e : PgEvent} (hno : ∀ fails draw, e ≠ .statement fails draw)
    (h : pgTaskStep aead cipher mac engine sh c call e = some (sh', call', seen)) :
    call'.call.input = call.call.input ∧
      (∀ houseId, Concerns call'.call houseId → Concerns call.call houseId) ∧
      ∃ os, seen = os.map Seen.house ∧ OfCall c call.call os := by
  cases e with
  | statement fails draw => exact absurd rfl (hno fails draw)
  | slot outcome nonce =>
    simp only [pgTaskStep] at h
    obtain ⟨houseId, hhouse, h⟩ := Option.bind_eq_some_iff.mp h
    obtain ⟨⟨temp', pc', os⟩, hslot, h⟩ := Option.bind_eq_some_iff.mp h
    obtain ⟨rfl, hrest⟩ := Prod.mk.inj (Option.some.inj h)
    obtain ⟨rfl, rfl⟩ := Prod.mk.inj hrest
    obtain ⟨hpc, hos⟩ := pgSlotStep_concerns hhouse hslot
    have hconcerns : Concerns call.call houseId := .inl (slotHouse_pcHouse hhouse)
    refine ⟨rfl, fun id hc => ?_, _, rfl, fun o ho c' id hobs => ?_⟩
    · rcases hc with hc | hwork
      · exact hpc id hc ▸ hconcerns
      · exact .inr hwork
    · rcases List.mem_cons.mp ho with rfl | ho
      · obtain ⟨rfl, rfl⟩ : c = c' ∧ houseId = id := by simpa [obsHouse] using hobs
        exact ⟨rfl, hconcerns⟩
      · rcases List.mem_append.mp ho with ho | ho
        · obtain ⟨rfl, rfl⟩ := hos o ho c' id hobs
          exact ⟨rfl, hconcerns⟩
        · obtain ⟨rfl, hid⟩ := replyObs_house ho hobs
          exact ⟨rfl, Option.some.inj hid ▸ hconcerns⟩
  | mark outcome =>
    simp only [pgTaskStep] at h
    split at h
    next work hpc hwork =>
      split at h <;>
      · obtain ⟨rfl, hrest⟩ := Prod.mk.inj (Option.some.inj h)
        obtain ⟨rfl, rfl⟩ := Prod.mk.inj hrest
        refine ⟨rfl, fun id hc => ?_, ?_⟩
        · grind [Concerns, pcHouse]
        · first
          | exact ⟨[_], rfl, by grind [OfCall, Concerns, obsHouse]⟩
          | exact ⟨[_, _], rfl, by grind [OfCall, Concerns, obsHouse]⟩
    next => cases h
  | threadSaved outcome =>
    simp only [pgTaskStep] at h
    obtain ⟨work, hwork, h⟩ := Option.bind_eq_some_iff.mp h
    split at h
    next threadId hpc =>
      split at h
      · obtain ⟨rfl, hrest⟩ := Prod.mk.inj (Option.some.inj h)
        obtain ⟨rfl, rfl⟩ := Prod.mk.inj hrest
        refine ⟨rfl, fun id hc => ?_, [_], rfl, ?_⟩
        · grind [Concerns, pcHouse]
        · grind [OfCall, Concerns, obsHouse]
      · obtain ⟨rfl, hrest⟩ := Prod.mk.inj (Option.some.inj h)
        obtain ⟨rfl, rfl⟩ := Prod.mk.inj hrest
        refine ⟨rfl, fun id hc => ?_, [], rfl, by simp [OfCall]⟩
        grind [Concerns, pcHouse]
    next => cases h
  | watcherStore outcome nonce =>
    simp only [pgTaskStep] at h
    obtain ⟨work, hwork, h⟩ := Option.bind_eq_some_iff.mp h
    obtain ⟨watcher, _, h⟩ := Option.bind_eq_some_iff.mp h
    split at h
    case h_3 => cases h
    all_goals
      obtain ⟨rfl, hrest⟩ := Prod.mk.inj (Option.some.inj h)
      obtain ⟨rfl, rfl⟩ := Prod.mk.inj hrest
      refine ⟨rfl, fun id hc => hc, [_], rfl, ?_⟩
      grind [OfCall, Concerns, obsHouse]
  | «local» e =>
    simp only [pgTaskStep] at h
    split at h
    next hlocal =>
      obtain ⟨⟨shared, call'', os⟩, hstep, h⟩ := Option.map_eq_some_iff.mp h
      obtain ⟨rfl, hrest⟩ := Prod.mk.inj h
      obtain ⟨rfl, rfl⟩ := Prod.mk.inj hrest
      obtain ⟨hinput, hback, hos⟩ := taskStep_concerns (taskStep_sound hstep) hlocal
      exact ⟨hinput, hback, os, rfl, hos⟩
    next => cases h

/-- A resolution that returns a house is what lets its call concern it. -/
theorem statement_concerns {fails : Bool} {draw : Fin 1000000}
    (h : pgTaskStep aead cipher mac engine sh c call (.statement fails draw) =
      some (sh', call', seen)) :
    call'.call.input = call.call.input ∧
      (∀ houseId, Concerns call'.call houseId → Concerns call.call houseId ∨
        ∃ house, .resolved c call.call.input.identity sh.clock (.ok (.bound house)) ∈ seen ∧
          house.id = houseId) ∧
      ∀ x ∈ seen, ∀ o, x.house? = some o → obsHouse o = none := by
  simp only [pgTaskStep] at h
  split at h
  next pc hpc _ =>
    split at h
    · obtain ⟨rfl, hrest⟩ := Prod.mk.inj (Option.some.inj h)
      obtain ⟨rfl, rfl⟩ := Prod.mk.inj hrest
      exact ⟨rfl, fun id hc => .inl hc, by simp⟩
    next result _ =>
      obtain ⟨rfl, hrest⟩ := Prod.mk.inj (Option.some.inj h)
      obtain ⟨rfl, rfl⟩ := Prod.mk.inj hrest
      refine ⟨rfl, fun id hc => ?_, fun x hx o ho => ?_⟩
      · rcases hc with hc | hwork
        · cases result with
          | error e => cases hc
          | ok answer =>
            cases answer with
            | bound house => exact .inr ⟨house, List.mem_cons_self, Option.some.inj hc⟩
            | pairingRequired code => cases hc
            | unauthorized => cases hc
        · exact .inl (.inr hwork)
      · rcases List.mem_cons.mp hx with rfl | hx
        · cases ho
        · obtain ⟨o', ho', rfl⟩ := List.mem_map.mp hx
          obtain rfl := Option.some.inj ho
          cases hobs : obsHouse o' with
          | none => rfl
          | some p => exact absurd (replyObs_house ho' hobs).2 (by simp)
  next => cases h

end Steps

/-! ## Runs -/

/-- The resolution of the call returned the house. -/
def Vouched (seen : List Seen) (c : CallId) (identity : SurfaceIdentity) (houseId : HouseId) :
    Prop :=
  ∃ time house, .resolved c identity time (.ok (.bound house)) ∈ seen ∧ house.id = houseId

theorem Vouched.mono {seen more : List Seen} {c : CallId} {identity : SurfaceIdentity}
    {houseId : HouseId} (h : Vouched seen c identity houseId) :
    Vouched (seen ++ more) c identity houseId := by
  obtain ⟨time, house, hmem, hid⟩ := h
  exact ⟨time, house, List.mem_append_left _ hmem, hid⟩

/-- Who the calls are for, in the order they arrived. -/
def identities (s : PgState δ) : List SurfaceIdentity :=
  s.calls.map fun call => call.call.input.identity

/-- What an observation of a call rests on. -/
def Rests (callers : List SurfaceIdentity) (before : List Seen) (x : Seen) : Prop :=
  ∀ o c houseId, x.house? = some o → obsHouse o = some (c, houseId) →
    ∃ identity, callers[c]? = some identity ∧ Vouched before c identity houseId

structure CallsVouched (s : PgState δ) (seen : List Seen) : Prop where
  calls : ∀ {c : CallId} {call : PgCall} {houseId : HouseId}, s.calls[c]? = some call →
    Concerns call.call houseId → Vouched seen c call.call.input.identity houseId
  shown : Each (Rests (identities s)) seen

theorem Rests.mono {callers : List SurfaceIdentity} {before : List Seen} {x : Seen}
    (h : Rests callers before x) (more : List SurfaceIdentity) (after : List Seen) :
    Rests (callers ++ more) (before ++ after) x := by
  intro o c houseId ho hobs
  obtain ⟨identity, hcaller, hvouched⟩ := h o c houseId ho hobs
  refine ⟨identity, ?_, hvouched.mono⟩
  rw [List.getElem?_append_left (List.getElem?_eq_some_iff.mp hcaller).1, hcaller]

theorem Rests.silent {callers : List SurfaceIdentity} {before : List Seen} {x : Seen}
    (h : ∀ o, x.house? = some o → obsHouse o = none) : Rests callers before x := by
  intro o c houseId ho hobs
  rw [h o ho] at hobs
  cases hobs

theorem saveThreadId_tables (outcome : Outcome) (db : Db δ) (houseId : HouseId) (threadId : Text) :
    (saveThreadId outcome db houseId threadId).1.members = db.members ∧
      (saveThreadId outcome db houseId threadId).1.surfaces = db.surfaces ∧
      (saveThreadId outcome db houseId threadId).1.requests = db.requests := by
  unfold saveThreadId
  split
  · split <;> exact ⟨rfl, rfl, rfl⟩
  · split <;> exact ⟨rfl, rfl, rfl⟩

section Runs

variable [DecidableEq δ] {engine : HouseholdEngine} {mac : Text → δ} {s s' : PgState δ}
  {a : PgAction δ} {seen more : List Seen}

omit [DecidableEq δ] in
theorem CallsVouched.quiet (h : CallsVouched s seen) (hcalls : s'.calls = s.calls)
    (hmore : ∀ x ∈ more, x.house? = none) : CallsVouched s' (seen ++ more) where
  calls hcall hconcerns := (h.calls (hcalls ▸ hcall) hconcerns).mono
  shown := by
    have hsame : identities s' = identities s := by rw [identities, hcalls, identities]
    rw [hsame]
    refine h.shown.append (fun before o x hrests => ?_) fun x hx => .silent fun o ho => ?_
    · simpa using hrests.mono [] [x]
    · rw [hmore x hx] at ho
      cases ho

omit [DecidableEq δ] in
/-- A step of one call. -/
theorem CallsVouched.task {sh' : PgShared δ} {c : CallId} {call call' : PgCall}
    (h : CallsVouched s seen) (hcall : s.calls[c]? = some call)
    (hinput : call'.call.input = call.call.input)
    (hconcerns : ∀ houseId, Concerns call'.call houseId →
      Vouched (seen ++ more) c call.call.input.identity houseId)
    (hmore : ∀ x ∈ more, Rests (identities s) seen x) :
    CallsVouched ⟨sh', s.calls.set c call'⟩ (seen ++ more) := by
  have hsame : identities ⟨sh', s.calls.set c call'⟩ = identities s := by
    obtain ⟨hlt, rfl⟩ := List.getElem?_eq_some_iff.mp hcall
    simp only [identities, List.map_set, hinput]
    rw [← List.getElem_map fun call : PgCall => call.call.input.identity, List.set_getElem_self]
    simpa using hlt
  constructor
  · intro c' other houseId hother hc
    rw [List.getElem?_set] at hother
    split at hother
    next heq =>
      subst heq
      split at hother
      · obtain rfl := Option.some.inj hother
        rw [hinput]
        exact hconcerns houseId hc
      · cases hother
    next => exact (h.calls hother hc).mono
  · rw [hsame]
    refine h.shown.append (fun before o x hrests => ?_) hmore
    simpa using hrests.mono [] [x]

theorem callsVouched_step (h : CallsVouched s seen)
    (hstep : (pgMachine aead cipher mac engine).step s a = some (s', more)) :
    CallsVouched s' (seen ++ more) := by
  dsimp only [pgMachine] at hstep
  cases a with
  | arrive input =>
    obtain ⟨rfl, rfl⟩ := Prod.mk.inj (Option.some.inj hstep)
    rw [List.append_nil]
    constructor
    · intro c call houseId hcall hconcerns
      rw [List.getElem?_append] at hcall
      split at hcall
      · exact h.calls hcall hconcerns
      · -- a call that has just arrived concerns no house
        obtain rfl := List.mem_singleton.mp (List.mem_of_getElem? hcall)
        simp [Concerns, pcHouse] at hconcerns
    · have hmore : identities ⟨s.shared, s.calls ++
          [⟨⟨input, .resolveSurface, none, none⟩, some .selectBound⟩]⟩ =
            identities s ++ [input.identity] := by
        simp [identities]
      rw [hmore]
      refine h.shown.mono fun before x hrests => ?_
      simpa using hrests.mono [input.identity] []
  | command command =>
    simp only [pgStep] at hstep
    split at hstep
    · obtain ⟨r, _, hr⟩ := Option.map_eq_some_iff.mp hstep
      obtain ⟨rfl, rfl⟩ := Prod.mk.inj hr
      refine h.quiet rfl fun x hx => ?_
      obtain ⟨e, _, rfl⟩ := List.mem_map.mp hx
      rfl
    · cases hstep
  | task c e =>
    simp only [pgStep] at hstep
    obtain ⟨call, hcall, hstep⟩ := Option.bind_eq_some_iff.mp hstep
    obtain ⟨⟨sh', call', os⟩, htask, hr⟩ := Option.bind_eq_some_iff.mp hstep
    obtain ⟨rfl, rfl⟩ := Prod.mk.inj (Option.some.inj hr)
    by_cases hstatement : ∃ fails draw, e = .statement fails draw
    · obtain ⟨fails, draw, rfl⟩ := hstatement
      obtain ⟨hinput, hconcerns, hsilent⟩ := statement_concerns htask
      refine h.task hcall hinput (fun houseId hc => ?_) fun x hx => .silent (hsilent x hx)
      rcases hconcerns houseId hc with hc | ⟨house, hmem, hid⟩
      · exact (h.calls hcall hc).mono
      · exact ⟨_, house, List.mem_append_right _ hmem, hid⟩
    · have hno : ∀ fails draw, e ≠ .statement fails draw :=
        fun fails draw he => hstatement ⟨fails, draw, he⟩
      obtain ⟨hinput, hback, obs, rfl, hos⟩ := pgTaskStep_concerns hno htask
      refine h.task hcall hinput (fun houseId hc => (h.calls hcall (hback _ hc)).mono) ?_
      intro x hx o c' houseId ho hobs
      obtain ⟨o', ho', rfl⟩ := List.mem_map.mp hx
      obtain rfl := Option.some.inj ho
      obtain ⟨rfl, hc⟩ := hos _ ho' c' houseId hobs
      exact ⟨call.call.input.identity, by simp [identities, hcall], h.calls hcall hc⟩

/-! ## The owner's commands -/

/-- The tables are read off the commands and resolutions so far. -/
def TablesAccounted (mac : Text → δ) (s : PgState δ) (seen : List Seen) : Prop :=
  Access.Accounted mac ⟨s.shared.db, s.shared.clock, []⟩ (seen.filterMap Seen.access?)

theorem filterMap_access (es : List Access.Event) :
    (es.map Seen.commanded).filterMap Seen.access? = es := by
  simp [List.filterMap_map, Function.comp_def, Seen.access?]

theorem filterMap_access_house (os : List Obs) :
    (os.map Seen.house).filterMap Seen.access? = [] := by
  simp [List.filterMap_map, Function.comp_def, Seen.access?]

omit [DecidableEq δ] in
/-- The columns the account does not read. -/
theorem accounted_houses {db db' : Db δ} {clock : Nat} {events : List Access.Event}
    (h : Access.Accounted mac ⟨db, clock, []⟩ events) (hmembers : db'.members = db.members)
    (hsurfaces : db'.surfaces = db.surfaces) (hrequests : db'.requests = db.requests) :
    Access.Accounted mac ⟨db', clock, []⟩ events where
  member := hmembers ▸ h.member
  request := hrequests ▸ h.request
  surface := hsurfaces ▸ h.surface
  justified := h.justified

omit [DecidableEq δ] in
theorem accounted_task {sh sh' : PgShared δ} {c : CallId} {call call' : PgCall} {e : PgEvent}
    {events : List Access.Event} (h : Access.Accounted mac ⟨sh.db, sh.clock, []⟩ events)
    (hstep : pgTaskStep aead cipher mac engine sh c call e = some (sh', call', more)) :
    Access.Accounted mac ⟨sh'.db, sh'.clock, []⟩ (events ++ more.filterMap Seen.access?) := by
  by_cases hstatement : ∃ fails draw, e = .statement fails draw
  · obtain ⟨fails, draw, rfl⟩ := hstatement
    simp only [pgTaskStep] at hstep
    split at hstep
    next pc _ _ =>
      have hnext := Access.accounted_statement h
        (Prod.mk.eta (p := resolveStatement mac fails draw sh.clock sh.db
          call.call.input.identity pc)).symm
      split at hstep
      next pc' hquery =>
        obtain ⟨rfl, hrest⟩ := Prod.mk.inj (Option.some.inj hstep)
        obtain ⟨rfl, rfl⟩ := Prod.mk.inj hrest
        simpa [hquery, Access.returned] using hnext
      next result hreturn =>
        obtain ⟨rfl, hrest⟩ := Prod.mk.inj (Option.some.inj hstep)
        obtain ⟨rfl, rfl⟩ := Prod.mk.inj hrest
        have hseen : (Seen.resolved c call.call.input.identity sh.clock result ::
            (replyObs c call.call.app none (afterResolve result)).map Seen.house).filterMap
              Seen.access? = [.resolved call.call.input.identity sh.clock result] := by
          rw [List.filterMap_cons, filterMap_access_house]
          rfl
        rw [hseen]
        simpa [hreturn, Access.returned] using hnext
    next => cases hstep
  · have hno : ∀ fails draw, e ≠ .statement fails draw :=
      fun fails draw he => hstatement ⟨fails, draw, he⟩
    obtain ⟨_, _, os, rfl, _⟩ := pgTaskStep_concerns hno hstep
    rw [filterMap_access_house, List.append_nil]
    cases e with
    | statement fails draw => exact absurd rfl (hno fails draw)
    | threadSaved outcome =>
      simp only [pgTaskStep] at hstep
      obtain ⟨work, _, hstep⟩ := Option.bind_eq_some_iff.mp hstep
      split at hstep
      next threadId _ =>
        obtain ⟨hmembers, hsurfaces, hrequests⟩ :=
          saveThreadId_tables outcome sh.db work.house.id threadId
        split at hstep <;>
        · obtain ⟨rfl, _⟩ := Prod.mk.inj (Option.some.inj hstep)
          exact accounted_houses h hmembers hsurfaces hrequests
      next => cases hstep
    | slot outcome nonce =>
      simp only [pgTaskStep] at hstep
      obtain ⟨_, _, hstep⟩ := Option.bind_eq_some_iff.mp hstep
      obtain ⟨_, _, hstep⟩ := Option.bind_eq_some_iff.mp hstep
      obtain ⟨rfl, _⟩ := Prod.mk.inj (Option.some.inj hstep)
      exact h
    | mark outcome =>
      simp only [pgTaskStep] at hstep
      split at hstep
      · split at hstep <;>
        · obtain ⟨rfl, _⟩ := Prod.mk.inj (Option.some.inj hstep)
          exact h
      · cases hstep
    | watcherStore outcome nonce =>
      simp only [pgTaskStep] at hstep
      obtain ⟨_, _, hstep⟩ := Option.bind_eq_some_iff.mp hstep
      obtain ⟨_, _, hstep⟩ := Option.bind_eq_some_iff.mp hstep
      split at hstep
      case h_3 => cases hstep
      all_goals
        obtain ⟨rfl, _⟩ := Prod.mk.inj (Option.some.inj hstep)
        exact h
    | «local» e =>
      simp only [pgTaskStep] at hstep
      split at hstep
      · obtain ⟨_, _, hstep⟩ := Option.map_eq_some_iff.mp hstep
        obtain ⟨rfl, _⟩ := Prod.mk.inj hstep
        exact h
      · cases hstep

theorem accounted_step (hmac : Access.CodesDiffer mac) (h : TablesAccounted mac s seen)
    (hstep : (pgMachine aead cipher mac engine).step s a = some (s', more)) :
    TablesAccounted mac s' (seen ++ more) := by
  unfold TablesAccounted at h ⊢
  rw [List.filterMap_append]
  dsimp only [pgMachine] at hstep
  cases a with
  | arrive input =>
    obtain ⟨rfl, rfl⟩ := Prod.mk.inj (Option.some.inj hstep)
    simpa using h
  | command command =>
    simp only [pgStep] at hstep
    split at hstep
    · obtain ⟨r, hr, heq⟩ := Option.map_eq_some_iff.mp hstep
      obtain ⟨rfl, rfl⟩ := Prod.mk.inj heq
      rw [filterMap_access]
      exact (Access.accounted_step hmac h hr).frame rfl (Nat.le_refl _)
    · cases hstep
  | task c e =>
    simp only [pgStep] at hstep
    obtain ⟨call, _, hstep⟩ := Option.bind_eq_some_iff.mp hstep
    obtain ⟨⟨sh', call', os⟩, htask, heq⟩ := Option.bind_eq_some_iff.mp hstep
    obtain ⟨rfl, rfl⟩ := Prod.mk.inj (Option.some.inj heq)
    exact accounted_task h htask

/-- In a run from empty tables, whatever a call reads, writes, starts or says of a house,
its own resolution returned that house before, to a user who was then a member added last, on an
application whose last code the owner approved for the house and did not disable since. -/
theorem house_touched_only_granted (hmac : Access.CodesDiffer mac) {temp : TempDb}
    {acts : List (PgAction δ)}
    (he : (pgMachine aead cipher mac engine).exec (.start Db.empty temp 0) acts = some (s, seen)) :
    ∀ before o after c houseId, seen = before ++ .house o :: after →
      obsHouse o = some (c, houseId) →
      ∃ call earlier time house later, s.calls[c]? = some call ∧
        before = earlier ++
          .resolved c call.call.input.identity time (.ok (.bound house)) :: later ∧
        house.id = houseId ∧
        Access.lastMember houseId call.call.input.identity.userId
          (earlier.filterMap Seen.access?) = some .add ∧
        Access.Granted houseId call.call.input.identity.applicationId
          call.call.input.identity.userId (earlier.filterMap Seen.access?) := by
  intro before o after c houseId hsplit hobs
  have hinit : CallsVouched (PgState.start Db.empty temp 0 : PgState δ) [] :=
    ⟨by simp [PgState.start], Each.nil⟩
  have hvouched := Machine.exec_invariant_free CallsVouched callsVouched_step hinit he
  have haccounted : TablesAccounted mac s seen :=
    Machine.exec_invariant_free (TablesAccounted mac) (accounted_step hmac)
      (show TablesAccounted mac (PgState.start Db.empty temp 0) [] from
        Access.accounted_start.frame rfl (Nat.le_refl _)) he
  obtain ⟨identity, hcaller, time, house, hmem, rfl⟩ :=
    hvouched.shown before (.house o) after hsplit o c houseId rfl hobs
  obtain ⟨call, hcall, rfl⟩ : ∃ call, s.calls[c]? = some call ∧
      call.call.input.identity = identity := by
    simpa [identities, Option.map_eq_some_iff] using hcaller
  obtain ⟨earlier, later, rfl⟩ := List.append_of_mem hmem
  have hevents : seen.filterMap Seen.access? = earlier.filterMap Seen.access? ++
      .resolved call.call.input.identity time (.ok (.bound house)) ::
        (later ++ Seen.house o :: after).filterMap Seen.access? := by
    rw [hsplit]
    simp [List.filterMap_append, Seen.access?]
  obtain ⟨hmember, hgranted⟩ := haccounted.justified _ _ _ hevents
  exact ⟨call, earlier, time, house, later, hcall, rfl, rfl, hmember, hgranted⟩

theorem house_touched_only_granted_evening :
    ∃ s before c houseId call earlier time house later,
      (pgMachine plainAead zeroCipher (id : Text → Text) ⟨⟨850, by decide⟩, false⟩).exec
        (.start Db.empty TempDb.empty 0) evening =
          some (s, before ++ [.house (.reply c ['a'] (some houseId) (.say ['!']))]) ∧
      s.calls[c]? = some call ∧
      before = earlier ++
        .resolved c call.call.input.identity time (.ok (.bound house)) :: later ∧
      Access.Granted houseId call.call.input.identity.applicationId
        call.call.input.identity.userId (earlier.filterMap Seen.access?) := by
  have hrun : ((pgMachine plainAead zeroCipher (id : Text → Text) ⟨⟨850, by decide⟩, false⟩).exec
      (.start Db.empty TempDb.empty 0) evening).map
        (fun r => (r.2.getLast?.bind Seen.house?)) =
      some (some (.reply 1 ['a'] (some 1) (.say ['!']))) := by decide +kernel
  obtain ⟨⟨s, seen⟩, hexec, hlast⟩ := Option.map_eq_some_iff.mp hrun
  obtain ⟨last, hlast, hhouse⟩ := Option.bind_eq_some_iff.mp hlast
  obtain ⟨before, rfl⟩ := List.getLast?_eq_some_iff.mp hlast
  cases last with
  | commanded | resolved => cases hhouse
  | house o =>
    obtain rfl := Option.some.inj hhouse
    obtain ⟨call, earlier, time, house, later, hcall, hsplit, _, _, hgranted⟩ :=
      house_touched_only_granted codesDiffer_id hexec before _ [] 1 1 rfl rfl
    exact ⟨s, before, 1, 1, call, earlier, time, house, later, hexec, hcall, hsplit, hgranted⟩

end Runs

end AliceBridge.Server.PgAccess
