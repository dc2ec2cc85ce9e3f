import AliceBridge.Server.HouseStore

/-! # Requests that match one spoken code

An approval takes the first live request whose MAC matches, in whatever order the database
returns the rows, and asks only then whether that one may be approved. `outcome` is what it
does with the request it has found. -/
namespace AliceBridge.Server.Approval
open AliceBridge.Lib AliceBridge.Lib.Utf8 AliceBridge.Core.Household
open AliceBridge.Server.HouseStore

variable {δ : Type}

/-- No operation of the transaction fails. -/
def noFailure : ApproveOp → Bool := fun _ => false

/-- The user is an enabled member of the enabled house, and the application is not bound to
another house or user. -/
def approvable (db : Db δ) (houseId : HouseId) (request : PairingRequest δ) : Bool :=
  db.membershipExists houseId request.userId &&
    (db.surfaces.find? request.applicationId).all fun surface =>
      surface.houseId = houseId && surface.userId = request.userId

/-- What the approval does with the request. -/
def outcome (db : Db δ) (houseId : HouseId) (now : Nat) (request : PairingRequest δ) :
    Db δ × Except HouseholdStoreError Bool :=
  if db.membershipExists houseId request.userId then
    match db.bindSurface request.applicationId houseId request.userId with
    | none => (db, .error boundElsewhere)
    | some bound =>
      ({ bound with requests := bound.requests.approve request.id houseId now }, .ok true)
  else (db, .ok false)

section Outcome

variable {db : Db δ} {now : Nat} {houseId : HouseId} {request other : PairingRequest δ}

theorem bindSurface_isSome : (db.bindSurface request.applicationId houseId request.userId).isSome =
    (db.surfaces.find? request.applicationId).all fun surface =>
      surface.houseId = houseId && surface.userId = request.userId := by
  unfold Db.bindSurface Table.upsertWhere
  rw [Option.isSome_map]
  split
  · next h => exact h.symm
  · next h => exact (Bool.eq_false_iff.mpr h).symm

theorem outcome_approvable (h : approvable db houseId request = true) :
    ∃ bound, db.bindSurface request.applicationId houseId request.userId = some bound ∧
      outcome db houseId now request =
        ({ bound with requests := bound.requests.approve request.id houseId now }, .ok true) := by
  obtain ⟨hmember, hsurface⟩ := Bool.and_eq_true_iff.mp h
  rw [← bindSurface_isSome] at hsurface
  obtain ⟨bound, hbound⟩ := Option.isSome_iff_exists.mp hsurface
  refine ⟨bound, hbound, ?_⟩
  rw [outcome, if_pos hmember, hbound]

theorem outcome_refused (h : approvable db houseId request = false) :
    outcome db houseId now request =
      (db, if db.membershipExists houseId request.userId then .error boundElsewhere
        else .ok false) := by
  cases hmember : db.membershipExists houseId request.userId with
  | false => simp [outcome, hmember]
  | true =>
    unfold approvable at h
    rw [hmember, Bool.true_and, ← bindSurface_isSome, Option.isSome_eq_false_iff,
      Option.isNone_iff_eq_none] at h
    simp [outcome, hmember, h]

theorem mem_approve {requests : PairingRequests δ} {id : Int} :
    request ∈ (requests.approve id houseId now).table.rows ↔ ∃ old ∈ requests.table.rows,
      (if old.id = id then { old with houseId := some houseId, approvedAt := some now }
        else old) = request := by
  unfold PairingRequests.approve
  simp only [Table.mem_update, decide_eq_true_eq]

/-- Approvals of two live requests leave different tables. -/
theorem outcome_injective (h : request ∈ db.liveRequests now houseId)
    (hother : other ∈ db.liveRequests now houseId) (hok : approvable db houseId request = true)
    (hok' : approvable db houseId other = true)
    (heq : outcome db houseId now request = outcome db houseId now other) : request = other := by
  obtain ⟨bound, hbound, hleft⟩ := outcome_approvable hok
  obtain ⟨bound', hbound', hright⟩ := outcome_approvable hok'
  obtain ⟨surfaces, -, rfl⟩ := Option.map_eq_some_iff.mp hbound
  obtain ⟨surfaces', -, rfl⟩ := Option.map_eq_some_iff.mp hbound'
  rw [hleft, hright] at heq
  have hrows := congrArg (fun db : Db δ => db.requests.table.rows) (Prod.mk.inj heq).1
  obtain ⟨hrow, hlive⟩ := List.mem_filter.mp h
  obtain ⟨hrow', -⟩ := List.mem_filter.mp hother
  have happroved : { request with houseId := some houseId, approvedAt := some now } ∈
      (db.requests.approve request.id houseId now).table.rows :=
    mem_approve.mpr ⟨request, hrow, if_pos rfl⟩
  rw [hrows] at happroved
  obtain ⟨old, hold, hsame⟩ := mem_approve.mp happroved
  have hkey : old.applicationId = request.applicationId := by
    have happlication := congrArg PairingRequest.applicationId hsame
    rw [← happlication]
    split <;> rfl
  obtain rfl := db.requests.table.eq_of_key hold hrow hkey
  by_contra hne
  have hid : old.id ≠ other.id := fun hid =>
    hne (List.inj_on_of_nodup_map db.requests.idsNodup hrow hrow' hid)
  rw [if_neg hid] at hsame
  have hnone : old.approvedAt = none := by
    simp only [PairingRequest.live, Bool.and_eq_true, decide_eq_true_eq] at hlive
    exact hlive.1.2
  rw [hsame] at hnone
  cases hnone

/-- Only an approval returns `true`. -/
theorem outcome_differs (hok : approvable db houseId request = true)
    (hno : approvable db houseId other = false) :
    (outcome db houseId now request).2 ≠ (outcome db houseId now other).2 := by
  obtain ⟨bound, -, heq⟩ := outcome_approvable hok
  rw [heq, outcome_refused hno]
  cases db.membershipExists houseId other.userId <;> simp

end Outcome

/-! ## The order of the rows -/

variable [DecidableEq δ]

/-- The live requests that match the code. -/
def matching (mac : Text → δ) (db : Db δ) (now : Nat) (houseId : HouseId) (code : Text) :
    List (PairingRequest δ) :=
  (db.liveRequests now houseId).filter fun request => pairingCodeMatches mac request code

/-- What an approval does is the same in every order of the rows, and it succeeds if one of
the requests that match can be approved. -/
structure Fair (mac : Text → δ) (db : Db δ) (now : Nat) (houseId : HouseId) (code : Text) :
    Prop where
  order : ∀ {rows rows'}, rows.Perm (db.liveRequests now houseId) →
    rows'.Perm (db.liveRequests now houseId) →
      approvePairing mac noFailure rows now db houseId code =
        approvePairing mac noFailure rows' now db houseId code
  approves : ∀ {request}, request ∈ matching mac db now houseId code →
    approvable db houseId request = true → ∀ {rows}, rows.Perm (db.liveRequests now houseId) →
      (approvePairing mac noFailure rows now db houseId code).2 = .ok true

/-- Of two requests that match, neither can be approved and they are refused alike. -/
def Unambiguous (mac : Text → δ) (db : Db δ) (now : Nat) (houseId : HouseId) (code : Text) :
    Prop :=
  ∀ request ∈ matching mac db now houseId code, ∀ other ∈ matching mac db now houseId code,
    request ≠ other → approvable db houseId request = false ∧
      approvable db houseId other = false ∧
      db.membershipExists houseId request.userId = db.membershipExists houseId other.userId

section Order

variable {mac : Text → δ} {db : Db δ} {now : Nat} {houseId : HouseId} {code : Text}
  {request other : PairingRequest δ} {rows : List (PairingRequest δ)}

theorem approvePairing_outcome (hcode : sixDigits code = true) :
    approvePairing mac noFailure rows now db houseId code =
      ((rows.find? fun request => pairingCodeMatches mac request code).elim (db, .ok false)
        (outcome db houseId now)) := by
  unfold approvePairing outcome
  simp only [hcode, noFailure]
  cases rows.find? fun request => pairingCodeMatches mac request code with
  | none => rfl
  | some request =>
    cases hmember : db.membershipExists houseId request.userId with
    | false => simp [hmember]
    | true =>
      have hrow : db.memberExists houseId request.userId = true := by
        obtain ⟨henabled, -⟩ := Bool.and_eq_true_iff.mp hmember
        obtain ⟨member, hfind, -⟩ := (Option.any_eq_true ..).mp henabled
        rw [Db.memberExists, hfind]
        rfl
      simp only [Option.elim_some, hmember, hrow]
      cases db.bindSurface request.applicationId houseId request.userId <;> rfl

theorem mem_matching : request ∈ matching mac db now houseId code ↔
    request ∈ db.liveRequests now houseId ∧ pairingCodeMatches mac request code = true :=
  List.mem_filter

/-- The database may return any matching request first. -/
theorem first_of_matching (hcode : sixDigits code = true)
    (h : request ∈ matching mac db now houseId code) :
    ∃ rows, rows.Perm (db.liveRequests now houseId) ∧
      approvePairing mac noFailure rows now db houseId code = outcome db houseId now request := by
  obtain ⟨hlive, hmatch⟩ := mem_matching.mp h
  have hfirst : (request :: (db.liveRequests now houseId).erase request).find?
      (fun request => pairingCodeMatches mac request code) = some request :=
    List.find?_cons_of_pos hmatch
  refine ⟨_, (List.perm_cons_erase hlive).symm, ?_⟩
  rw [approvePairing_outcome hcode, hfirst]
  rfl

/-- In every order of the rows a request that matches is found if there is one. -/
theorem find_of_matching (hrows : rows.Perm (db.liveRequests now houseId)) :
    (∃ request ∈ matching mac db now houseId code,
      (rows.find? fun request => pairingCodeMatches mac request code) = some request) ∨
    matching mac db now houseId code = [] ∧
      (rows.find? fun request => pairingCodeMatches mac request code) = none := by
  cases hfind : rows.find? fun request => pairingCodeMatches mac request code with
  | some request =>
    have hmem := hrows.mem_iff.mp (List.mem_of_find?_eq_some hfind)
    exact .inl ⟨request, mem_matching.mpr ⟨hmem, by simpa using List.find?_some hfind⟩, rfl⟩
  | none =>
    refine .inr ⟨List.filter_eq_nil_iff.mpr fun request hmem => ?_, rfl⟩
    exact List.find?_eq_none.mp hfind request (hrows.mem_iff.mpr hmem)

/-- Requests that an unambiguous code matches come to the same. -/
theorem Unambiguous.outcome_eq (h : Unambiguous mac db now houseId code)
    (hrequest : request ∈ matching mac db now houseId code)
    (hother : other ∈ matching mac db now houseId code) :
    outcome db houseId now request = outcome db houseId now other := by
  by_cases heq : request = other
  · rw [heq]
  obtain ⟨hno, hno', hmember⟩ := h request hrequest other hother heq
  rw [outcome_refused hno, outcome_refused hno', hmember]

end Order

/-- Approvals are fair exactly when at most one live request matches the code, or all that
match are refused for one reason. -/
theorem approval_fair_iff {mac : Text → δ} {db : Db δ} {now : Nat} {houseId : HouseId}
    {code : Text} (hcode : sixDigits code = true) :
    Fair mac db now houseId code ↔ Unambiguous mac db now houseId code := by
  constructor
  · intro h request hrequest other hother hne
    obtain ⟨rows, hrows, hfirst⟩ := first_of_matching hcode hrequest
    obtain ⟨rows', hrows', hfirst'⟩ := first_of_matching hcode hother
    have heq := h.order hrows hrows'
    rw [hfirst, hfirst'] at heq
    have hlive := (mem_matching.mp hrequest).1
    have hlive' := (mem_matching.mp hother).1
    cases hok : approvable db houseId request <;> cases hok' : approvable db houseId other
    case true.true => exact absurd (outcome_injective hlive hlive' hok hok' heq) hne
    case true.false => exact absurd (congrArg Prod.snd heq) (outcome_differs hok hok')
    case false.true => exact absurd (congrArg Prod.snd heq).symm (outcome_differs hok' hok)
    case false.false =>
      refine ⟨rfl, rfl, ?_⟩
      rw [outcome_refused hok, outcome_refused hok'] at heq
      have hresult := (Prod.mk.inj heq).2
      cases hmember : db.membershipExists houseId request.userId <;>
        cases hmember' : db.membershipExists houseId other.userId <;>
        simp_all
  · intro h
    refine ⟨fun hrows hrows' => ?_, fun {request} hrequest hok {rows} hrows => ?_⟩
    · rw [approvePairing_outcome hcode, approvePairing_outcome hcode]
      obtain ⟨found, hfound, hfind⟩ | ⟨hempty, hfind⟩ := find_of_matching hrows <;>
        obtain ⟨found', hfound', hfind'⟩ | ⟨hempty', hfind'⟩ := find_of_matching hrows' <;>
        rw [hfind, hfind']
      · exact h.outcome_eq hfound hfound'
      · exact absurd hfound (hempty' ▸ List.not_mem_nil)
      · exact absurd hfound' (hempty ▸ List.not_mem_nil)
    · obtain ⟨found, hfound, hfind⟩ | ⟨hempty, -⟩ := find_of_matching hrows
      · rw [approvePairing_outcome hcode, hfind, Option.elim_some, h.outcome_eq hfound hrequest]
        obtain ⟨bound, -, heq⟩ := outcome_approvable hok
        rw [heq]
      · exact absurd hrequest (hempty ▸ List.not_mem_nil)

/-- A live request for the code of house 1. -/
def guestRequest : PairingRequest Text where
  id := 2
  houseId := some 1
  userId := "m".toList
  applicationId := "a".toList
  codeHash := pairingText "m".toList "a".toList "123456".toList
  expiresAt := 1
  approvedAt := none

/-- A request of a user of the houses 2 and 3 who drew the same code. -/
def strangerRequest : PairingRequest Text where
  id := 1
  houseId := none
  userId := "s".toList
  applicationId := "b".toList
  codeHash := pairingText "s".toList "b".toList "123456".toList
  expiresAt := 1
  approvedAt := none

/-- Three houses; the guest is a member of the first, the stranger of the others. -/
def colliding : Db Text where
  houses := ⟨[⟨1, ⟨[], none, []⟩, true⟩, ⟨2, ⟨[], none, []⟩, true⟩, ⟨3, ⟨[], none, []⟩, true⟩],
    by decide⟩
  nextHouse := 4
  members := ⟨[⟨1, "m".toList, .member, true⟩, ⟨2, "s".toList, .owner, true⟩,
    ⟨3, "s".toList, .owner, true⟩], by decide⟩
  surfaces := Table.empty
  requests := ⟨⟨[strangerRequest, guestRequest], by decide⟩, 3, by decide, by decide⟩

theorem approval_fair_iff_sole : Fair id colliding 0 2 "123456".toList :=
  (approval_fair_iff (by decide)).mpr (by unfold Unambiguous; decide)

/-- The owner of house 1 is told that the code is wrong, because the request of the stranger
is met first. -/
theorem collision_masks_guest : ¬ Fair id colliding 0 1 "123456".toList := fun h =>
  absurd (h.approves (show guestRequest ∈ _ by decide) (by decide) (.refl _)) (by decide)

end AliceBridge.Server.Approval
