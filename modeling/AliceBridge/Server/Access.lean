import AliceBridge.Lib.Run
import AliceBridge.Server.HouseStore

/-! # Who may speak to a house

Commands of the owner run against the database while any number of
`resolve_surface` calls are between two of their statements. A command and an
approval are one step, a call is one step a statement, and time passes between
steps. The events say what was commanded and what was answered; an answer with a
code issues that code.

The invariant (`Accounted`) reads the tables off the events: an enabled member was
added last, a request carries the code issued last for its application, and an
enabled surface was granted (`Granted`). -/
namespace AliceBridge.Server.Access
open AliceBridge.Lib AliceBridge.Lib.Utf8 AliceBridge.Lib.Run AliceBridge.Core.Household
open AliceBridge.Server.HouseStore

variable {δ : Type}

/-! ## The machine -/

inductive MemberCommand where
  | add
  | disable
deriving DecidableEq, Repr

inductive Event where
  | member (houseId : HouseId) (userId : Text) (command : MemberCommand)
  | surfaceDisabled (applicationId : Text)
  | approve (houseId : HouseId) (code : Text) (time : Nat)
      (result : Except HouseholdStoreError Bool)
  | resolved (identity : SurfaceIdentity) (time : Nat)
      (result : Except HouseholdStoreError SurfaceResolution)

inductive Action (δ : Type) where
  | createHouse (name homeyConnector : Text)
  | addMember (houseId : HouseId) (userId : Text) (role : Role)
  | disableMember (houseId : HouseId) (userId : Text)
  | disableSurface (applicationId : Text)
  | approvePairing (houseId : HouseId) (code : Text) (fetched : List (PairingRequest δ))
      (fails : ApproveOp → Bool)
  | resolveSurface (identity : SurfaceIdentity)
  | statement (call : Nat) (fails : Bool) (draw : Fin 1000000)
  | tick (elapsed : Nat)

/-- A call of `resolve_surface`; no program counter after it returned. -/
structure Call where
  identity : SurfaceIdentity
  pc : Option ResolvePc
deriving DecidableEq, Repr

structure State (δ : Type) where
  db : Db δ
  clock : Nat
  calls : List Call

def State.start : State δ := ⟨Db.empty, 0, []⟩

def returned (identity : SurfaceIdentity) (time : Nat) : Next → List Event
  | .query _ => []
  | .return result => [.resolved identity time result]

/-- A command that fails changes nothing. -/
def commanded (s : State δ) (db : Option (Db δ)) (events : List Event) : State δ × List Event :=
  match db with
  | some db => ({ s with db := db }, events)
  | none => (s, [])

def step [DecidableEq δ] (mac : Text → δ) (s : State δ) : Action δ → Option (State δ × List Event)
  | .createHouse name homeyConnector => some (commanded s (s.db.createHouse name homeyConnector) [])
  | .addMember houseId userId role =>
    some (commanded s (s.db.addMember houseId userId role) [.member houseId userId .add])
  | .disableMember houseId userId =>
    some (commanded s (some (s.db.disableMember houseId userId)) [.member houseId userId .disable])
  | .disableSurface applicationId =>
    some (commanded s (some (s.db.disableSurface applicationId)) [.surfaceDisabled applicationId])
  | .approvePairing houseId code fetched fails =>
    -- the order in which the rows come is the database's
    if fetched.Perm (s.db.liveRequests s.clock houseId) then
      let r := approvePairing mac fails fetched s.clock s.db houseId code
      some ({ s with db := r.1 }, [.approve houseId code s.clock r.2])
    else none
  | .resolveSurface identity =>
    some ({ s with calls := s.calls ++ [⟨identity, some .selectBound⟩] }, [])
  | .statement call fails draw =>
    match s.calls[call]? with
    | some ⟨identity, some pc⟩ =>
      let r := resolveStatement mac fails draw s.clock s.db identity pc
      some ({ s with db := r.1, calls := s.calls.set call ⟨identity, r.2.pc⟩ },
        returned identity s.clock r.2)
    | _ => none
  | .tick elapsed => some ({ s with clock := s.clock + elapsed }, [])

def machine [DecidableEq δ] (mac : Text → δ) : Machine (State δ) (Action δ) Event := ⟨step mac⟩

/-! ## What the events say -/

def memberCommand (houseId : HouseId) (userId : Text) : Event → Option MemberCommand
  | .member h u command => if h = houseId ∧ u = userId then some command else none
  | _ => none

/-- The latest member command for this house and user. -/
def lastMember (houseId : HouseId) (userId : Text) : List Event → Option MemberCommand :=
  lastOf (memberCommand houseId userId)

structure Issue where
  userId : Text
  code : Text
  time : Nat
deriving DecidableEq, Repr

def issue (applicationId : Text) : Event → Option Issue
  | .resolved identity time (.ok (.pairingRequired code)) =>
    if identity.applicationId = applicationId then some ⟨identity.userId, code, time⟩ else none
  | _ => none

/-- The code issued last for this application. -/
def lastIssue (applicationId : Text) : List Event → Option Issue :=
  lastOf (issue applicationId)

/-- An approval for this house succeeded with the code that was then the last
one issued for the application, to this user and within its lifetime, and no
command disabled the surface since. -/
def Granted (houseId : HouseId) (applicationId userId : Text) (events : List Event) : Prop :=
  ∃ before after code time issued,
    events = before ++ .approve houseId code time (.ok true) :: after ∧
    lastIssue applicationId before = some ⟨userId, code, issued⟩ ∧
    issued ≤ time ∧ time ≤ issued + pairingTtlSeconds * microseconds ∧
    .surfaceDisabled applicationId ∉ after

theorem Granted.concat {houseId : HouseId} {applicationId userId : Text} {events : List Event}
    {e : Event} (h : Granted houseId applicationId userId events)
    (he : e ≠ .surfaceDisabled applicationId) :
    Granted houseId applicationId userId (events ++ [e]) := by
  obtain ⟨before, after, code, time, issued, rfl, hissue, hle, hlive, hno⟩ := h
  refine ⟨before, after ++ [e], code, time, issued, by simp, hissue, hle, hlive, ?_⟩
  simp [hno, he.symm]

/-! ## The invariant -/

/-- What an answer with a house rests on. -/
def Justified (events : List Event) : Event → Prop
  | .resolved identity _ (.ok (.bound house)) =>
    lastMember house.id identity.userId events = some .add ∧
      Granted house.id identity.applicationId identity.userId events
  | _ => True

/-- The code of a request is the last one issued for its application. -/
def Issued (mac : Text → δ) (clock : Nat) (events : List Event) (request : PairingRequest δ) :
    Prop :=
  ∃ code time, sixDigits code = true ∧
    request.codeHash = mac (pairingText request.userId request.applicationId code) ∧
    lastIssue request.applicationId events = some ⟨request.userId, code, time⟩ ∧
    request.expiresAt = time + pairingTtlSeconds * microseconds ∧ time ≤ clock

structure Accounted (mac : Text → δ) (s : State δ) (events : List Event) : Prop where
  member : ∀ member ∈ s.db.members.rows, member.enabled = true →
    lastMember member.houseId member.userId events = some .add
  request : ∀ request ∈ s.db.requests.table.rows, Issued mac s.clock events request
  surface : ∀ surface ∈ s.db.surfaces.rows, surface.enabled = true →
    Granted surface.houseId surface.applicationId surface.userId events
  justified : Each Justified events

/-- An event that neither commands a member, nor issues a code, nor disables a
surface changes nothing of what the tables are read off. -/
structure Neutral (e : Event) : Prop where
  member : ∀ houseId userId, memberCommand houseId userId e = none
  issue : ∀ applicationId, issue applicationId e = none
  surface : ∀ applicationId, e ≠ .surfaceDisabled applicationId

variable {mac : Text → δ} {s s' : State δ} {events : List Event}

theorem Issued.concat {clock : Nat} {request : PairingRequest δ} {e : Event}
    (h : Issued mac clock events request) (he : issue request.applicationId e = none) :
    Issued mac clock (events ++ [e]) request := by
  obtain ⟨code, time, hsix, hhash, hlast, hexpires, hle⟩ := h
  exact ⟨code, time, hsix, hhash, by simpa [lastIssue, he] using hlast, hexpires, hle⟩

theorem Accounted.event {e : Event} (h : Accounted mac s events) (he : Neutral e)
    (hj : Justified events e) : Accounted mac s (events ++ [e]) where
  member member hmem henabled := by
    simpa [lastMember, he.member] using h.member member hmem henabled
  request request hmem := (h.request request hmem).concat (he.issue _)
  surface surface hmem henabled := (h.surface surface hmem henabled).concat (he.surface _)
  justified := h.justified.concat hj

theorem Accounted.frame (h : Accounted mac s events) (hdb : s'.db = s.db)
    (hclock : s.clock ≤ s'.clock) :
    Accounted mac s' events where
  member := hdb ▸ h.member
  request request hmem := by
    obtain ⟨code, time, hsix, hhash, hlast, hexpires, hle⟩ := h.request request (hdb ▸ hmem)
    exact ⟨code, time, hsix, hhash, hlast, hexpires, Nat.le_trans hle hclock⟩
  surface := hdb ▸ h.surface
  justified := h.justified

/-! ## Commands -/

theorem accounted_createHouse {name homeyConnector : Text} {db : Db δ} (h : Accounted mac s events)
    (hdb : s.db.createHouse name homeyConnector = some db) :
    Accounted mac { s with db := db } events := by
  obtain ⟨houses, _, rfl⟩ := Option.map_eq_some_iff.mp hdb
  exact ⟨h.member, h.request, h.surface, h.justified⟩

theorem accounted_addMember {houseId : HouseId} {userId : Text} {role : Role} {db : Db δ}
    (h : Accounted mac s events) (hdb : s.db.addMember houseId userId role = some db) :
    Accounted mac { s with db := db } (events ++ [.member houseId userId .add]) := by
  unfold Db.addMember at hdb
  split at hdb
  next =>
    obtain rfl := Option.some.inj hdb
    refine ⟨fun member hmem henabled => ?_, fun request hmem => (h.request request hmem).concat rfl,
      fun surface hmem henabled => (h.surface surface hmem henabled).concat (by simp),
      h.justified.concat trivial⟩
    simp only [lastMember, lastOf_concat, memberCommand]
    split
    · rfl
    next hne =>
      rcases Table.mem_upsert.mp hmem with ⟨hold, _⟩ | ⟨rfl, _⟩ | ⟨old, _, hkey, rfl⟩
      · exact h.member member hold henabled
      · exact absurd ⟨rfl, rfl⟩ hne
      · obtain ⟨rfl, rfl⟩ := Prod.mk.injEq .. ▸ hkey
        exact absurd ⟨rfl, rfl⟩ hne
  next => cases hdb

theorem accounted_disableMember {houseId : HouseId} {userId : Text} (h : Accounted mac s events) :
    Accounted mac { s with db := s.db.disableMember houseId userId }
      (events ++ [.member houseId userId .disable]) := by
  refine ⟨fun member hmem henabled => ?_, fun request hmem => (h.request request hmem).concat rfl,
    fun surface hmem henabled => (h.surface surface hmem henabled).concat (by simp),
    h.justified.concat trivial⟩
  dsimp only [Db.disableMember] at hmem
  obtain ⟨old, hold, rfl⟩ := Table.mem_update.mp hmem
  by_cases hkey : old.key = (houseId, userId)
  · simp [hkey] at henabled
  · have hne : ¬ (houseId = old.houseId ∧ userId = old.userId) := by
      rintro ⟨rfl, rfl⟩
      exact hkey rfl
    simp only [hkey, decide_false, Bool.false_eq_true, if_false] at henabled ⊢
    simpa [lastMember, memberCommand, hne] using h.member old hold henabled

theorem accounted_disableSurface {applicationId : Text} (h : Accounted mac s events) :
    Accounted mac { s with db := s.db.disableSurface applicationId }
      (events ++ [.surfaceDisabled applicationId]) := by
  refine ⟨fun member hmem henabled => ?_,
    fun request hmem => (h.request request hmem).concat rfl, fun surface hmem henabled => ?_,
    h.justified.concat trivial⟩
  · simpa [lastMember, memberCommand] using h.member member hmem henabled
  · dsimp only [Db.disableSurface] at hmem
    obtain ⟨old, hold, rfl⟩ := Table.mem_update.mp hmem
    by_cases happ : old.applicationId = applicationId
    · simp [happ] at henabled
    · simp only [happ, decide_false, Bool.false_eq_true, if_false] at henabled ⊢
      refine (h.surface old hold henabled).concat fun he => happ ?_
      exact (Event.surfaceDisabled.inj he).symm

/-! ## Approvals -/

/-- Codes of one user and application have different MACs. -/
def CodesDiffer (mac : Text → δ) : Prop :=
  ∀ userId applicationId code code', sixDigits code = true → sixDigits code' = true →
    mac (pairingText userId applicationId code) = mac (pairingText userId applicationId code') →
      code = code'

theorem neutral_approve {houseId : HouseId} {code : Text} {time : Nat}
    {result : Except HouseholdStoreError Bool} : Neutral (.approve houseId code time result) :=
  ⟨fun _ _ => rfl, fun _ => rfl, by simp⟩

/-- A live request whose MAC matches makes a successful approval a grant. -/
theorem Issued.granted [DecidableEq δ] {request : PairingRequest δ} {houseId : HouseId}
    {code : Text} {now : Nat} (hmac : CodesDiffer mac) (h : Issued mac now events request)
    (hsix : sixDigits code = true) (hmatch : pairingCodeMatches mac request code = true)
    (hlive : request.live now houseId = true) :
    Granted houseId request.applicationId request.userId
      (events ++ [.approve houseId code now (.ok true)]) := by
  obtain ⟨code', time, hsix', hhash, hlast, hexpires, hle⟩ := h
  have hmac' : request.codeHash = mac (pairingText request.userId request.applicationId code) := by
    simpa [pairingCodeMatches] using hmatch
  obtain rfl : code' = code := hmac _ _ _ _ hsix' hsix (hhash.symm.trans hmac')
  have hnow : now < request.expiresAt := by
    simp only [PairingRequest.live, Bool.and_eq_true, decide_eq_true_eq] at hlive
    exact hlive.2
  exact ⟨events, [], code', now, time, rfl, hlast, hle, by omega, by simp⟩

theorem accounted_approved [DecidableEq δ] {houseId : HouseId} {code : Text}
    {fetched : List (PairingRequest δ)} {fails : ApproveOp → Bool} {db : Db δ}
    (hmac : CodesDiffer mac) (h : Accounted mac s events)
    (hfetched : fetched.Perm (s.db.liveRequests s.clock houseId))
    (hok : approvePairing mac fails fetched s.clock s.db houseId code = (db, .ok true)) :
    Accounted mac { s with db := db } (events ++ [.approve houseId code s.clock (.ok true)]) := by
  obtain ⟨request, hreq, bound, hsix, hmatch, _, hbind, rfl⟩ := approvePairing_ok mac hok
  obtain ⟨hrow, hlive⟩ := List.mem_filter.mp (hfetched.mem_iff.mp hreq)
  obtain ⟨surfaces, hsurfaces, rfl⟩ := Option.map_eq_some_iff.mp hbind
  obtain ⟨rfl, hwhere⟩ := Table.upsertWhere_spec hsurfaces
  have hevent := h.event (e := .approve houseId code s.clock (.ok true)) neutral_approve trivial
  have hgranted := (h.request request hrow).granted hmac hsix hmatch hlive
  refine ⟨hevent.member, fun r hmem => ?_, fun surface hmem henabled => ?_, hevent.justified⟩
  · dsimp only [PairingRequests.approve] at hmem
    obtain ⟨old, hold, rfl⟩ := Table.mem_update.mp hmem
    have hissued := hevent.request old hold
    split
    · exact hissued
    · exact hissued
  · rcases Table.mem_upsert.mp hmem with ⟨hold, _⟩ | ⟨rfl, _⟩ | ⟨old, hold, hkey, rfl⟩
    · exact hevent.surface surface hold henabled
    · exact hgranted
    · have hsame := hwhere old hold hkey
      simp only [Bool.and_eq_true, decide_eq_true_eq] at hsame
      obtain ⟨rfl, huser⟩ := hsame
      simpa only [hkey, huser] using hgranted

/-! ## Calls -/

theorem accounted_issued {identity : SurfaceIdentity} {houseId : Option HouseId} {code : Text}
    {db : Db δ} (h : Accounted mac s events) (hsix : sixDigits code = true)
    (hdb : s.db.upsertPairing s.clock houseId identity
      (mac (pairingText identity.userId identity.applicationId code)) = some db) :
    Accounted mac { s with db := db }
      (events ++ [.resolved identity s.clock (.ok (.pairingRequired code))]) := by
  unfold Db.upsertPairing at hdb
  split at hdb
  next =>
    obtain rfl := Option.some.inj hdb
    refine ⟨fun member hmem henabled => ?_, fun request hmem => ?_,
      fun surface hmem henabled => (h.surface surface hmem henabled).concat (by simp),
      h.justified.concat trivial⟩
    · simpa [lastMember, memberCommand] using h.member member hmem henabled
    · dsimp only [PairingRequests.upsert] at hmem
      rcases Table.mem_upsert.mp hmem with ⟨hold, hne⟩ | ⟨rfl, _⟩ | ⟨old, _, hkey, rfl⟩
      · exact (h.request request hold).concat (by simpa [issue] using Ne.symm hne)
      · exact ⟨code, s.clock, hsix, rfl, by simp [lastIssue, issue], rfl, Nat.le_refl _⟩
      · have hkey' : old.applicationId = identity.applicationId := hkey
        exact ⟨code, s.clock, hsix, by rw [hkey'], by simp [lastIssue, issue, hkey'], rfl,
          Nat.le_refl _⟩
  next => cases hdb

/-- A house is returned only from a member, a surface and a house row, all
enabled. -/
theorem Accounted.justify {identity : SurfaceIdentity} {house : HouseContext} {time : Nat}
    (h : Accounted mac s events) (hbound : s.db.bound identity = some house) :
    Justified events (.resolved identity time (.ok (.bound house))) := by
  obtain ⟨surface, hs, member, hm, happ, huser, hhouse, hse, hkey, hme⟩ := Db.bound_spec hbound
  obtain ⟨hmh, hmu⟩ := Prod.mk.injEq .. ▸ hkey
  have hmember := h.member member hm hme
  have hsurface := h.surface surface hs hse
  rw [hmh, hmu] at hmember
  rw [hhouse, happ, huser] at hsurface
  exact ⟨hmember, hsurface⟩

theorem accounted_statement {identity : SurfaceIdentity} {pc : ResolvePc} {next : Next}
    {fails : Bool} {draw : Fin 1000000} {db : Db δ} (h : Accounted mac s events)
    (hstep : resolveStatement mac fails draw s.clock s.db identity pc = (db, next)) :
    Accounted mac { s with db := db } (events ++ returned identity s.clock next) := by
  rcases resolveStatement_cases mac hstep with ⟨rfl, hcode, hbound⟩ | ⟨houseId, _, rfl, hdb⟩
  · cases next with
    | query pc => simpa [returned] using h
    | «return» result =>
      refine h.event ⟨fun _ _ => rfl, fun applicationId => ?_, by simp⟩ ?_
      · unfold issue
        split
        next heq =>
          simp only [Event.resolved.injEq] at heq
          exact absurd (by rw [heq.2.2]) (hcode _)
        next => rfl
      · cases result with
        | error _ => trivial
        | ok resolution =>
          cases resolution with
          | bound house => exact h.justify (hbound house rfl).2
          | pairingRequired _ => trivial
          | unauthorized => trivial
  · exact accounted_issued h (sixDigits_spokenCode draw) hdb

/-! ## Surfaces stay with their house and user -/

/-- Every surface of `db` is in `db'` with the same house and user. -/
def SurfacesKept (db db' : Db δ) : Prop :=
  ∀ surface ∈ db.surfaces.rows, ∃ surface' ∈ db'.surfaces.rows,
    (surface'.applicationId, surface'.houseId, surface'.userId) =
      (surface.applicationId, surface.houseId, surface.userId)

theorem SurfacesKept.of_eq {db db' : Db δ} (h : db'.surfaces = db.surfaces) :
    SurfacesKept db db' := fun surface hmem => ⟨surface, h ▸ hmem, rfl⟩

theorem SurfacesKept.trans {db db₁ db₂ : Db δ} (h : SurfacesKept db db₁)
    (h' : SurfacesKept db₁ db₂) : SurfacesKept db db₂ := by
  intro surface hmem
  obtain ⟨surface₁, hmem₁, heq₁⟩ := h surface hmem
  obtain ⟨surface₂, hmem₂, heq₂⟩ := h' surface₁ hmem₁
  exact ⟨surface₂, hmem₂, heq₂.trans heq₁⟩

theorem kept_approvePairing [DecidableEq δ] {fails : ApproveOp → Bool}
    {fetched : List (PairingRequest δ)} {now : Nat} {db db' : Db δ} {houseId : HouseId}
    {code : Text} {result : Except HouseholdStoreError Bool}
    (h : approvePairing mac fails fetched now db houseId code = (db', result)) :
    SurfacesKept db db' := by
  by_cases hok : result = .ok true
  · subst hok
    obtain ⟨request, _, bound, _, _, _, hbind, rfl⟩ := approvePairing_ok mac h
    obtain ⟨surfaces, hsurfaces, rfl⟩ := Option.map_eq_some_iff.mp hbind
    obtain ⟨rfl, _⟩ := Table.upsertWhere_spec hsurfaces
    exact fun surface hmem => Table.column_upsert (fun _ => rfl) hmem
  · exact .of_eq (by rw [approvePairing_unchanged mac h hok])

theorem kept_statement {identity : SurfaceIdentity} {pc : ResolvePc} {fails : Bool}
    {draw : Fin 1000000} {now : Nat} {db db' : Db δ} {next : Next}
    (h : resolveStatement mac fails draw now db identity pc = (db', next)) :
    SurfacesKept db db' := by
  rcases resolveStatement_cases mac h with ⟨rfl, _⟩ | ⟨_, _, _, hdb⟩
  · exact .of_eq rfl
  · unfold Db.upsertPairing at hdb
    split at hdb
    next => exact .of_eq (by rw [← Option.some.inj hdb])
    next => cases hdb

/-! ## Steps and runs -/

theorem accounted_start : Accounted mac (State.start : State δ) [] where
  member := by simp [State.start, Db.empty, Table.empty]
  request := by simp [State.start, Db.empty, PairingRequests.empty, Table.empty]
  surface := by simp [State.start, Db.empty, Table.empty]
  justified := Each.nil

section
variable [DecidableEq δ] {a : Action δ} {os : List Event}

theorem kept_step (h : (machine mac).step s a = some (s', os)) : SurfacesKept s.db s'.db := by
  dsimp only [machine] at h
  cases a with
  | createHouse name homeyConnector =>
    cases hdb : s.db.createHouse name homeyConnector with
    | none =>
      obtain ⟨rfl, _⟩ := by simpa [step, commanded, hdb] using h
      exact .of_eq rfl
    | some db =>
      obtain ⟨rfl, _⟩ := by simpa [step, commanded, hdb] using h
      obtain ⟨houses, _, rfl⟩ := Option.map_eq_some_iff.mp hdb
      exact .of_eq rfl
  | addMember houseId userId role =>
    cases hdb : s.db.addMember houseId userId role with
    | none =>
      obtain ⟨rfl, _⟩ := by simpa [step, commanded, hdb] using h
      exact .of_eq rfl
    | some db =>
      obtain ⟨rfl, _⟩ := by simpa [step, commanded, hdb] using h
      unfold Db.addMember at hdb
      split at hdb
      next => exact .of_eq (by rw [← Option.some.inj hdb])
      next => cases hdb
  | disableMember houseId userId =>
    obtain ⟨rfl, _⟩ := by simpa [step, commanded] using h
    exact .of_eq rfl
  | disableSurface applicationId =>
    obtain ⟨rfl, _⟩ := by simpa [step, commanded] using h
    intro surface hmem
    dsimp only [Db.disableSurface]
    exact Table.column_update (fun _ => rfl) hmem
  | approvePairing houseId code fetched fails =>
    simp only [step] at h
    split at h
    · obtain ⟨rfl, _⟩ := Prod.mk.injEq .. ▸ Option.some.inj h
      exact kept_approvePairing rfl
    · cases h
  | resolveSurface identity | tick elapsed =>
    obtain ⟨rfl, _⟩ := Prod.mk.injEq .. ▸ Option.some.inj h
    exact .of_eq rfl
  | statement call fails draw =>
    simp only [step] at h
    split at h
    · obtain ⟨rfl, _⟩ := Prod.mk.injEq .. ▸ Option.some.inj h
      exact kept_statement rfl
    · cases h

theorem accounted_step (hmac : CodesDiffer mac) (hs : Accounted mac s events)
    (h : (machine mac).step s a = some (s', os)) : Accounted mac s' (events ++ os) := by
  dsimp only [machine] at h
  cases a with
  | createHouse name homeyConnector =>
    cases hdb : s.db.createHouse name homeyConnector with
    | none =>
      obtain ⟨rfl, rfl⟩ := by simpa [step, commanded, hdb] using h
      simpa using hs
    | some db =>
      obtain ⟨rfl, rfl⟩ := by simpa [step, commanded, hdb] using h
      simpa using accounted_createHouse hs hdb
  | addMember houseId userId role =>
    cases hdb : s.db.addMember houseId userId role with
    | none =>
      obtain ⟨rfl, rfl⟩ := by simpa [step, commanded, hdb] using h
      simpa using hs
    | some db =>
      obtain ⟨rfl, rfl⟩ := by simpa [step, commanded, hdb] using h
      exact accounted_addMember hs hdb
  | disableMember houseId userId =>
    obtain ⟨rfl, rfl⟩ := by simpa [step, commanded] using h
    exact accounted_disableMember hs
  | disableSurface applicationId =>
    obtain ⟨rfl, rfl⟩ := by simpa [step, commanded] using h
    exact accounted_disableSurface hs
  | approvePairing houseId code fetched fails =>
    simp only [step] at h
    split at h
    next hperm =>
      obtain ⟨rfl, rfl⟩ := Prod.mk.injEq .. ▸ Option.some.inj h
      by_cases hok : (approvePairing mac fails fetched s.clock s.db houseId code).2 = .ok true
      · rw [hok]
        exact accounted_approved hmac hs hperm (Prod.ext rfl hok)
      · have hsame : (approvePairing mac fails fetched s.clock s.db houseId code).1 = s.db :=
          approvePairing_unchanged mac rfl hok
        rw [hsame]
        exact hs.event neutral_approve trivial
    next => cases h
  | resolveSurface identity =>
    obtain ⟨rfl, rfl⟩ := Prod.mk.injEq .. ▸ Option.some.inj h
    rw [List.append_nil]
    exact hs.frame rfl (Nat.le_refl _)
  | tick elapsed =>
    obtain ⟨rfl, rfl⟩ := Prod.mk.injEq .. ▸ Option.some.inj h
    rw [List.append_nil]
    exact hs.frame rfl (Nat.le_add_right _ _)
  | statement call fails draw =>
    simp only [step] at h
    split at h
    · obtain ⟨rfl, rfl⟩ := Prod.mk.injEq .. ▸ Option.some.inj h
      exact (accounted_statement hs rfl).frame rfl (Nat.le_refl _)
    · cases h

theorem accounted_run {actions : List (Action δ)} (hmac : CodesDiffer mac)
    (h : (machine mac).exec State.start actions = some (s, os)) : Accounted mac s os :=
  Machine.exec_invariant_free (Accounted mac) (accounted_step hmac) accounted_start h

theorem kept_run {actions : List (Action δ)}
    (h : (machine mac).exec s actions = some (s', os)) : SurfacesKept s.db s'.db :=
  Machine.exec_invariant_free (fun t _ => SurfacesKept s.db t.db)
    (fun hk hstep => hk.trans (kept_step hstep)) (.of_eq rfl) h

end

/-- Who is let into a house was added last, holds a surface the owner approved
with the code issued last, and that surface was not disabled since; surfaces keep
their house and user; an approval that does not return `true` writes nothing. -/
theorem access_granted [DecidableEq δ] (mac : Text → δ) (hmac : CodesDiffer mac) :
    (∀ actions s events, (machine mac).exec State.start actions = some (s, events) →
      ∀ before identity time house after,
        events = before ++ .resolved identity time (.ok (.bound house)) :: after →
        lastMember house.id identity.userId before = some .add ∧
          Granted house.id identity.applicationId identity.userId before) ∧
    (∀ actions s s' events, (machine mac).exec s actions = some (s', events) →
      SurfacesKept s.db s'.db) ∧
    ∀ fails fetched now db houseId code db' result,
      approvePairing mac fails fetched now db houseId code = (db', result) →
        result ≠ .ok true → db' = db := by
  refine ⟨fun actions s events hexec before identity time house after heq => ?_,
    fun actions s s' events hexec => kept_run hexec,
    fun fails fetched now db houseId code db' result h hresult =>
      approvePairing_unchanged mac h hresult⟩
  exact (accounted_run hmac hexec).justified before _ after heq

/-- A member asks, is told a code, the owner approves it, and the member is let in. -/
def pairing : List (Action Text) :=
  [.createHouse ['h'] ['c'], .addMember 1 ['u'] .member, .resolveSurface ⟨['u'], ['a']⟩,
    .statement 0 false 7, .statement 0 false 7, .statement 0 false 7, .tick 5,
    .statement 0 false 7, .tick 5,
    .approvePairing 1 ['0', '0', '0', '0', '0', '7']
      [⟨1, some 1, ['u'], ['a'], pairingText ['u'] ['a'] ['0', '0', '0', '0', '0', '7'], 600000005,
        none⟩] fun _ => false,
    .resolveSurface ⟨['u'], ['a']⟩, .statement 1 false 0]

/-- The texts themselves as their MACs. -/
theorem codesDiffer_id : CodesDiffer (id : Text → Text) := by
  intro userId applicationId code code' _ _ h
  simpa [pairingText] using h

theorem access_granted_pairing :
    ∃ before, ((machine (id : Text → Text)).exec State.start pairing).map Prod.snd =
        some (before ++ [.resolved ⟨['u'], ['a']⟩ 10 (.ok (.bound ⟨1, ['h'], none, ['c']⟩))]) ∧
      lastMember 1 ['u'] before = some .add ∧ Granted 1 ['a'] ['u'] before := by
  have hrun : ((machine (id : Text → Text)).exec State.start pairing).map Prod.snd =
      some ([.member 1 ['u'] .add,
        .resolved ⟨['u'], ['a']⟩ 5 (.ok (.pairingRequired ['0', '0', '0', '0', '0', '7'])),
        .approve 1 ['0', '0', '0', '0', '0', '7'] 10 (.ok true)] ++
        [.resolved ⟨['u'], ['a']⟩ 10 (.ok (.bound ⟨1, ['h'], none, ['c']⟩))]) := rfl
  obtain ⟨⟨s, events⟩, hexec, rfl⟩ := Option.map_eq_some_iff.mp hrun
  exact ⟨_, hrun, (access_granted id codesDiffer_id).1 pairing s _ hexec _ _ _ _ [] rfl⟩

end AliceBridge.Server.Access
