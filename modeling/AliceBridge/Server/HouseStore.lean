import Mathlib.Data.List.Sort
import AliceBridge.Lib.Table
import AliceBridge.Core.Household

/-! # Homes, members, surfaces and pairings

The tables of `0002_household.sql` that decide who may speak to a house, the SQL
statements of `house_store_pg.rs` and `bridge-admin.rs` on them, and the two
operations made of several statements: `approve_pairing`, a transaction, and
`resolve_surface`, which is none. Times are microseconds. A statement that fails
changes nothing, and so does a transaction that is not committed.

The MAC of a text under the key of the deployment is a parameter. -/
namespace AliceBridge.Server.HouseStore
open AliceBridge.Lib AliceBridge.Lib.Utf8 AliceBridge.Core.Household

/-! ## The tables -/

structure House where
  id : HouseId
  row : HouseRow
  enabled : Bool
deriving DecidableEq, Repr

inductive Role where
  | owner
  | member
deriving DecidableEq, Repr

structure HouseMember where
  houseId : HouseId
  userId : Text
  role : Role
  enabled : Bool
deriving DecidableEq, Repr

def HouseMember.key (member : HouseMember) : HouseId × Text := (member.houseId, member.userId)

structure Surface where
  applicationId : Text
  houseId : HouseId
  userId : Text
  enabled : Bool
deriving DecidableEq, Repr

structure PairingRequest (δ : Type) where
  id : Int
  houseId : Option HouseId
  userId : Text
  applicationId : Text
  codeHash : δ
  expiresAt : Nat
  approvedAt : Option Nat
deriving DecidableEq, Repr

variable {δ : Type}

/-- `pairing_requests` and the sequence of its ids: `application_id` is unique
and so are the ids. -/
structure PairingRequests (δ : Type) where
  table : Table (PairingRequest.applicationId : PairingRequest δ → Text)
  nextId : Int
  idsBelow : ∀ request ∈ table.rows, request.id < nextId
  idsNodup : (table.rows.map PairingRequest.id).Nodup

structure Db (δ : Type) where
  houses : Table House.id
  nextHouse : HouseId
  members : Table HouseMember.key
  surfaces : Table Surface.applicationId
  requests : PairingRequests δ

def PairingRequests.empty : PairingRequests δ where
  table := Table.empty
  nextId := 1
  idsBelow := by simp [Table.empty]
  idsNodup := List.nodup_nil

/-- The schema as the migration leaves it. -/
def Db.empty : Db δ where
  houses := Table.empty
  nextHouse := 1
  members := Table.empty
  surfaces := Table.empty
  requests := PairingRequests.empty

/-! ## Commands of `bridge-admin` -/

def Db.createHouse (db : Db δ) (name homeyConnector : Text) : Option (Db δ) :=
  (db.houses.insert? ⟨db.nextHouse, ⟨name, none, homeyConnector⟩, true⟩).map fun houses =>
    { db with houses := houses, nextHouse := db.nextHouse + 1 }

/-- Fails on a house that does not exist. -/
def Db.addMember (db : Db δ) (houseId : HouseId) (userId : Text) (role : Role) : Option (Db δ) :=
  if (db.houses.find? houseId).isSome then
    some { db with
      members := db.members.upsert ⟨houseId, userId, role, true⟩
        (fun member => { member with role := role, enabled := true }) fun _ => rfl }
  else none

def Db.disableMember (db : Db δ) (houseId : HouseId) (userId : Text) : Db δ :=
  { db with
    members := db.members.update (fun member => member.key = (houseId, userId))
      (fun member => { member with enabled := false }) fun _ => rfl }

def Db.disableSurface (db : Db δ) (applicationId : Text) : Db δ :=
  { db with
    surfaces := db.surfaces.update (fun surface => surface.applicationId = applicationId)
      (fun surface => { surface with enabled := false }) fun _ => rfl }

/-! ## Queries -/

def Db.houseEnabled (db : Db δ) (houseId : HouseId) : Bool :=
  (db.houses.find? houseId).any House.enabled

/-- The row a foreign key on `house_members` asks for. -/
def Db.memberExists (db : Db δ) (houseId : HouseId) (userId : Text) : Bool :=
  (db.members.find? (houseId, userId)).isSome

/-- The membership check of `approve_pairing`. -/
def Db.membershipExists (db : Db δ) (houseId : HouseId) (userId : Text) : Bool :=
  (db.members.find? (houseId, userId)).any HouseMember.enabled && db.houseEnabled houseId

/-- The first query of `resolve_surface`: surface, member and house, all enabled. -/
def Db.bound (db : Db δ) (identity : SurfaceIdentity) : Option HouseContext :=
  match db.surfaces.find? identity.applicationId with
  | none => none
  | some surface =>
    if surface.userId = identity.userId ∧ surface.enabled = true ∧
        (db.members.find? (surface.houseId, surface.userId)).any HouseMember.enabled then
      match db.houses.find? surface.houseId with
      | some house => if house.enabled then some (house.row.context house.id) else none
      | none => none
    else none

theorem Db.bound_spec {db : Db δ} {identity : SurfaceIdentity} {context : HouseContext}
    (h : db.bound identity = some context) :
    ∃ surface ∈ db.surfaces.rows, ∃ member ∈ db.members.rows,
      surface.applicationId = identity.applicationId ∧ surface.userId = identity.userId ∧
        surface.houseId = context.id ∧ surface.enabled = true ∧
        member.key = (context.id, identity.userId) ∧ member.enabled = true := by
  unfold Db.bound at h
  split at h
  · cases h
  next surface hsurface =>
  split at h
  next hrow =>
    obtain ⟨huser, henabled, hmember⟩ := hrow
    obtain ⟨member, hfind, hmenabled⟩ := (Option.any_eq_true ..).mp hmember
    split at h
    next house hhouse =>
      split at h
      · obtain rfl := Option.some.inj h
        obtain ⟨hs, happ⟩ := Table.find?_eq_some.mp hsurface
        obtain ⟨hm, hkey⟩ := Table.find?_eq_some.mp hfind
        obtain ⟨_, hid⟩ := Table.find?_eq_some.mp hhouse
        refine ⟨surface, hs, member, hm, happ, huser, hid.symm, henabled, ?_, hmenabled⟩
        rw [hkey, huser, HouseRow.context_id, hid]
      · cases h
    next => cases h
  next => cases h

def Db.applicationExists (db : Db δ) (applicationId : Text) : Bool :=
  (db.surfaces.find? applicationId).isSome

/-- The houses of a user in ascending order, two at most. -/
def Db.memberships (db : Db δ) (userId : Text) : List HouseId :=
  (((db.members.rows.filter fun member =>
    member.userId = userId && member.enabled && db.houseEnabled member.houseId).map
      HouseMember.houseId).insertionSort (· ≤ ·)).take 2

/-- The requests an owner of this house may approve now. -/
def PairingRequest.live (request : PairingRequest δ) (now : Nat) (houseId : HouseId) : Bool :=
  (request.houseId = some houseId || request.houseId = none) && request.approvedAt = none &&
    now < request.expiresAt

def Db.liveRequests (db : Db δ) (now : Nat) (houseId : HouseId) : List (PairingRequest δ) :=
  db.requests.table.rows.filter fun request => request.live now houseId

/-! ## Writes of the two operations -/

/-- `PAIRING_TTL_SECONDS`. -/
def pairingTtlSeconds : Nat := 600

def microseconds : Nat := 1000000

/-- The upsert of `create_pairing_request`: an application keeps its one row, and
the row its id. -/
def PairingRequests.upsert (requests : PairingRequests δ) (houseId : Option HouseId)
    (userId applicationId : Text) (codeHash : δ) (expiresAt : Nat) : PairingRequests δ where
  table := requests.table.upsert
    ⟨requests.nextId, houseId, userId, applicationId, codeHash, expiresAt, none⟩
    (fun request => { request with
      houseId := houseId
      userId := userId
      codeHash := codeHash
      expiresAt := expiresAt
      approvedAt := none }) fun _ => rfl
  nextId := requests.nextId + 1
  idsBelow := by
    intro request hmem
    rcases Table.mem_upsert.mp hmem with ⟨hold, _⟩ | ⟨rfl, _⟩ | ⟨old, hold, _, rfl⟩
    · have := requests.idsBelow _ hold
      omega
    · exact Int.lt_succ requests.nextId
    · have := requests.idsBelow _ hold
      exact Int.lt_trans this (Int.lt_succ requests.nextId)
  idsNodup := by
    refine Table.upsert_column_nodup (fun _ => rfl) (fun hmem => ?_) requests.idsNodup
    obtain ⟨old, hold, heq⟩ := List.mem_map.mp hmem
    exact absurd heq (Int.ne_of_lt (requests.idsBelow _ hold))

/-- The last statement of `approve_pairing`. -/
def PairingRequests.approve (requests : PairingRequests δ) (id : Int) (houseId : HouseId)
    (now : Nat) : PairingRequests δ where
  table := requests.table.update (fun request => request.id = id)
    (fun request => { request with houseId := some houseId, approvedAt := some now }) fun _ => rfl
  nextId := requests.nextId
  idsBelow := by
    intro request hmem
    obtain ⟨old, hold, rfl⟩ := Table.mem_update.mp hmem
    have := requests.idsBelow _ hold
    split <;> exact this
  idsNodup := Table.update_column_nodup (fun _ => rfl) requests.idsNodup

/-- Fails on a scope that is no membership of the user. -/
def Db.upsertPairing (db : Db δ) (now : Nat) (houseId : Option HouseId)
    (identity : SurfaceIdentity) (codeHash : δ) : Option (Db δ) :=
  if houseId.all fun house => db.memberExists house identity.userId then
    some { db with
      requests := db.requests.upsert houseId identity.userId identity.applicationId codeHash
        (now + pairingTtlSeconds * microseconds) }
  else none

/-- The surface of an approved request is inserted or enabled again; the row of
another house or user is not touched and there is no result. -/
def Db.bindSurface (db : Db δ) (applicationId : Text) (houseId : HouseId) (userId : Text) :
    Option (Db δ) :=
  (db.surfaces.upsertWhere ⟨applicationId, houseId, userId, true⟩
    (fun surface => surface.houseId = houseId && surface.userId = userId)
    (fun surface => { surface with enabled := true }) fun _ => rfl).map fun surfaces =>
      { db with surfaces := surfaces }

/-! ## Codes -/

/-- Six ASCII digits: `code.len() == 6` counts bytes. -/
def sixDigits (code : Text) : Bool :=
  byteLen code = 6 && code.all fun c => '0' ≤ c && c ≤ '9'

/-- `format!("{:06}", …)` of a number below a million. -/
def spokenCode (draw : Fin 1000000) : Text :=
  [100000, 10000, 1000, 100, 10, 1].map fun place => Nat.digitChar (draw.val / place % 10)

/-- What `pairing_code_hash` and `pairing_code_matches` feed to the MAC. -/
def pairingText (userId applicationId code : Text) : Text :=
  [userId, applicationId, code].flatMap fun value => '\x00' :: value

theorem digitChar_ascii : ∀ d : Fin 10, (Nat.digitChar d).utf8Size = 1 ∧
    '0' ≤ Nat.digitChar d ∧ Nat.digitChar d ≤ '9' := by
  decide

theorem sixDigits_spokenCode (draw : Fin 1000000) : sixDigits (spokenCode draw) = true := by
  have hdigit (n : Nat) := digitChar_ascii ⟨n % 10, Nat.mod_lt n (by decide)⟩
  simp [sixDigits, spokenCode, byteLen, hdigit]

/-- `HouseholdStoreError`. -/
structure HouseholdStoreError where
  message : Text
deriving DecidableEq, Repr

def dbError : HouseholdStoreError := ⟨"household database operation failed".toList⟩

def boundElsewhere : HouseholdStoreError :=
  ⟨"application is already bound to another household".toList⟩

section
variable [DecidableEq δ] (mac : Text → δ)

def pairingCodeMatches (request : PairingRequest δ) (code : Text) : Bool :=
  request.codeHash = mac (pairingText request.userId request.applicationId code)

/-! ## `approve_pairing` -/

/-- The awaited operations of the transaction. -/
inductive ApproveOp where
  | begin
  | selectRequests
  | selectMembership
  | insertSurface
  | updateRequest
  | commit
  | rollback
deriving DecidableEq, Repr

/-- One transaction at the time `now`. `fetched` are the rows of its first query
in the order the database returns them, `fails` the operations that fail. It is
assumed that a `COMMIT` that fails has not taken effect. -/
def approvePairing (fails : ApproveOp → Bool) (fetched : List (PairingRequest δ)) (now : Nat)
    (db : Db δ) (houseId : HouseId) (code : Text) : Db δ × Except HouseholdStoreError Bool :=
  if !sixDigits code then (db, .ok false)
  else if fails .begin || fails .selectRequests then (db, .error dbError)
  else
    match fetched.find? fun request => pairingCodeMatches mac request code with
    | none => (db, if fails .rollback then .error dbError else .ok false)
    | some request =>
      if fails .selectMembership then (db, .error dbError)
      else if !db.membershipExists houseId request.userId then
        (db, if fails .rollback then .error dbError else .ok false)
      else if fails .insertSurface || !db.memberExists houseId request.userId then
        (db, .error dbError)
      else
        match db.bindSurface request.applicationId houseId request.userId with
        | none => (db, .error (if fails .rollback then dbError else boundElsewhere))
        | some bound =>
          if fails .updateRequest || fails .commit then (db, .error dbError)
          else ({ bound with requests := bound.requests.approve request.id houseId now }, .ok true)

/-- What an approval that returned `true` found and wrote. -/
theorem approvePairing_ok {fails : ApproveOp → Bool} {fetched : List (PairingRequest δ)}
    {now : Nat} {db db' : Db δ} {houseId : HouseId} {code : Text}
    (h : approvePairing mac fails fetched now db houseId code = (db', .ok true)) :
    ∃ request ∈ fetched, ∃ bound, sixDigits code = true ∧
      pairingCodeMatches mac request code = true ∧
      db.membershipExists houseId request.userId = true ∧
      db.bindSurface request.applicationId houseId request.userId = some bound ∧
      db' = { bound with requests := bound.requests.approve request.id houseId now } := by
  unfold approvePairing at h
  split at h
  · simp at h
  next hsix =>
  split at h
  · simp at h
  split at h
  · split at h <;> simp at h
  next request hfind =>
  split at h
  · simp at h
  split at h
  · split at h <;> simp at h
  next hmembership =>
  split at h
  · simp at h
  split at h
  · simp at h
  next bound hbind =>
  split at h
  · simp at h
  · obtain ⟨rfl, _⟩ := Prod.mk.injEq .. ▸ h
    exact ⟨request, List.mem_of_find?_eq_some hfind, bound, by simpa using hsix,
      by simpa using List.find?_some hfind, by simpa using hmembership, hbind, rfl⟩

/-- Without `true` nothing is written. -/
theorem approvePairing_unchanged {fails : ApproveOp → Bool} {fetched : List (PairingRequest δ)}
    {now : Nat} {db db' : Db δ} {houseId : HouseId} {code : Text}
    {result : Except HouseholdStoreError Bool}
    (h : approvePairing mac fails fetched now db houseId code = (db', result))
    (hresult : result ≠ .ok true) : db' = db := by
  unfold approvePairing at h
  split at h
  · exact (Prod.mk.inj h).1.symm
  split at h
  · exact (Prod.mk.inj h).1.symm
  split at h
  · exact (Prod.mk.inj h).1.symm
  split at h
  · exact (Prod.mk.inj h).1.symm
  split at h
  · exact (Prod.mk.inj h).1.symm
  split at h
  · exact (Prod.mk.inj h).1.symm
  split at h
  · exact (Prod.mk.inj h).1.symm
  split at h
  · exact (Prod.mk.inj h).1.symm
  · exact absurd (Prod.mk.inj h).2.symm hresult

end

/-! ## `resolve_surface` -/

inductive SurfaceResolution where
  | bound (house : HouseContext)
  | pairingRequired (spokenCode : Text)
  | unauthorized
deriving DecidableEq, Repr

/-- The statement a call executes next. -/
inductive ResolvePc where
  | selectBound
  | selectApplication
  | selectMemberships
  | insertRequest (houseId : Option HouseId)
deriving DecidableEq, Repr

/-- What follows a statement: another one or the result of the call. -/
inductive Next where
  | query (pc : ResolvePc)
  | return (result : Except HouseholdStoreError SurfaceResolution)

def Next.pc : Next → Option ResolvePc
  | .query pc => some pc
  | .return _ => none

section
variable (mac : Text → δ)

/-- One statement of the call of `identity`; `draw` is the code it draws, if it
gets to draw one. It is assumed that a statement that fails was not executed. -/
def resolveStatement (fails : Bool) (draw : Fin 1000000) (now : Nat) (db : Db δ)
    (identity : SurfaceIdentity) (pc : ResolvePc) : Db δ × Next :=
  if fails then (db, .return (.error dbError))
  else
    match pc with
    | .selectBound =>
      match db.bound identity with
      | some house => (db, .return (.ok (.bound house)))
      | none => (db, .query .selectApplication)
    | .selectApplication =>
      if db.applicationExists identity.applicationId then (db, .return (.ok .unauthorized))
      else (db, .query .selectMemberships)
    | .selectMemberships =>
      match db.memberships identity.userId with
      | [] => (db, .return (.ok .unauthorized))
      | [houseId] => (db, .query (.insertRequest (some houseId)))
      | _ => (db, .query (.insertRequest none))
    | .insertRequest houseId =>
      let code := spokenCode draw
      match db.upsertPairing now houseId identity
          (mac (pairingText identity.userId identity.applicationId code)) with
      | some db' => (db', .return (.ok (.pairingRequired code)))
      | none => (db, .return (.error dbError))

/-- Only the upsert writes, and only it returns a code; only the first query
returns a house, the one it found. -/
theorem resolveStatement_cases {fails : Bool} {draw : Fin 1000000} {now : Nat} {db db' : Db δ}
    {identity : SurfaceIdentity} {pc : ResolvePc} {next : Next}
    (h : resolveStatement mac fails draw now db identity pc = (db', next)) :
    (db' = db ∧ (∀ code, next ≠ .return (.ok (.pairingRequired code))) ∧
      ∀ house, next = .return (.ok (.bound house)) →
        pc = .selectBound ∧ db.bound identity = some house) ∨
    ∃ houseId, pc = .insertRequest houseId ∧
      next = .return (.ok (.pairingRequired (spokenCode draw))) ∧
      db.upsertPairing now houseId identity
        (mac (pairingText identity.userId identity.applicationId (spokenCode draw))) =
          some db' := by
  unfold resolveStatement at h
  split at h
  · obtain ⟨rfl, rfl⟩ := Prod.mk.injEq .. ▸ h
    exact .inl ⟨rfl, by simp, by simp⟩
  cases pc with
  | selectBound =>
    dsimp only at h
    split at h
    · obtain ⟨rfl, rfl⟩ := Prod.mk.injEq .. ▸ h
      exact .inl ⟨rfl, by simp, by simp_all⟩
    · obtain ⟨rfl, rfl⟩ := Prod.mk.injEq .. ▸ h
      exact .inl ⟨rfl, by simp, by simp⟩
  | selectApplication =>
    dsimp only at h
    split at h <;>
    · obtain ⟨rfl, rfl⟩ := Prod.mk.injEq .. ▸ h
      exact .inl ⟨rfl, by simp, by simp⟩
  | selectMemberships =>
    dsimp only at h
    split at h <;>
    · obtain ⟨rfl, rfl⟩ := Prod.mk.injEq .. ▸ h
      exact .inl ⟨rfl, by simp, by simp⟩
  | insertRequest houseId =>
    dsimp only at h
    split at h
    next hupsert =>
      obtain ⟨rfl, rfl⟩ := Prod.mk.injEq .. ▸ h
      exact .inr ⟨houseId, rfl, rfl, hupsert⟩
    · obtain ⟨rfl, rfl⟩ := Prod.mk.injEq .. ▸ h
      exact .inl ⟨rfl, by simp, by simp⟩

end
end AliceBridge.Server.HouseStore
