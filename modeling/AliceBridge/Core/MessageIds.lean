import AliceBridge.Core.EngineFlow

/-! # No message id is used twice

An id belongs to the recording that drew it: while its transaction is open no
other holds it, and once recorded it is never recorded again. -/
namespace AliceBridge.Core.MessageIds
open AliceBridge.Lib.Utf8 AliceBridge.Lib.Run AliceBridge.Core.Conversation
open AliceBridge.Core.Engine AliceBridge.Core.EngineSteps AliceBridge.Core.EngineFlow
open AliceBridge.Core.HouseEngine (CallId)

/-- The ids of an open transaction of `record_exchange`. -/
def drawn : Task → List MessageId
  | .recordAssistant _ userId _ => [userId]
  | .recordCommit _ userId assistantId _ => [userId, assistantId]
  | _ => []

/-- What a step does to the ids of its call: those it still holds are old or newly
drawn, and it holds none while it records. -/
structure Draws (sh : Shared) (call : Call) (sh' : Shared) (call' : Call) (os : List Obs) :
    Prop where
  last : sh.store.lastId ≤ sh'.store.lastId
  held : ∀ id ∈ drawn call'.task,
    (id ∈ drawn call.task ∨ sh.store.lastId < id ∧ id ≤ sh'.store.lastId) ∧
      ∀ profile, recordedIds profile os = []
  recorded : ∀ profile, ∀ id ∈ recordedIds profile os, id ∈ drawn call.task

/-- The ids in use: none is above the last one drawn, and none is used twice. -/
structure Distinct (s : State) (os : List Obs) : Prop where
  recorded : ∀ {profile id}, id ∈ recordedIds profile os → id ≤ s.shared.store.lastId
  drawn : ∀ {c : CallId} {call : Call}, s.calls[c]? = some call → ∀ id ∈ drawn call.task,
    id ≤ s.shared.store.lastId ∧ ∀ profile, id ∉ recordedIds profile os
  apart : ∀ {c c' : CallId} {call other : Call}, c ≠ c' → s.calls[c]? = some call →
    s.calls[c']? = some other → ∀ id ∈ MessageIds.drawn call.task, id ∉ MessageIds.drawn other.task

variable {engine : Engine} {sh sh' : Shared} {s s' : State} {c : CallId} {call call' : Call}
  {e : Event} {a : Action} {os os' : List Obs}

theorem delete_lastId {store : Store Content} {owner : Text} {ids : List MessageId}
    {summary : Bool} : (store.delete owner ids summary).lastId = store.lastId := by
  cases summary <;> rfl

/-- A step that draws and records nothing. -/
theorem Draws.kept (hlast : sh'.store.lastId = sh.store.lastId)
    (hheld : ∀ id ∈ drawn call'.task, id ∈ drawn call.task)
    (hos : ∀ profile, recordedIds profile os = []) : Draws sh call sh' call' os where
  last := Nat.le_of_eq hlast.symm
  held := fun id hid => ⟨.inl (hheld id hid), hos⟩
  recorded := fun profile id hid => by
    rw [hos] at hid
    cases hid

theorem Draws.drew (hlast : sh'.store.lastId = sh.store.lastId + 1)
    (hheld : drawn call'.task = drawn call.task ++ [sh.store.lastId + 1]) :
    Draws sh call sh' call' [] where
  last := hlast ▸ Nat.le_succ _
  held := fun id hid => by
    rw [hheld] at hid
    refine ⟨?_, fun _ => rfl⟩
    rcases List.mem_append.mp hid with hid | hid
    · exact .inl hid
    · rw [List.mem_singleton.mp hid, hlast]
      exact .inr ⟨Nat.lt_succ_self _, Nat.le_refl _⟩
  recorded := fun _ _ hid => absurd hid List.not_mem_nil

theorem callStep_draws (h : CallStep engine sh c call e sh' call' os) :
    Draws sh call sh' call' os := by
  cases h with
  | request h =>
    cases h with
    | forgotten _ => exact .kept delete_lastId (fun _ h => h) fun _ => rfl
    | @forgetFailed _ _ _ applied _ =>
      cases applied
      · exact .kept rfl (fun _ h => h) fun _ => rfl
      · exact .kept delete_lastId (fun _ h => h) fun _ => rfl
    | spawned _ => exact .kept rfl (fun _ h => absurd h List.not_mem_nil) fun _ => rfl
    | _ => exact .kept rfl (fun _ h => h) fun _ => rfl
  | task h =>
    cases h with
    | userInserted htask | assistantInserted htask =>
      refine .drew rfl ?_
      rw [htask]
      rfl
    | @recorded exchange userId assistantId _ _ htask _ =>
      refine ⟨Nat.le_refl _, fun _ h => absurd h List.not_mem_nil, fun profile id hid => ?_⟩
      rw [htask]
      have hboth : id ∈ ofProfile exchange.profile profile [userId, assistantId] := by
        simpa [recordedIds, recordedBy] using hid
      exact (mem_ofProfile.mp hboth).2
    | completed _ =>
      refine .kept rfl (fun _ h => absurd h List.not_mem_nil) fun _ => ?_
      split <;> rfl
    | _ => exact .kept rfl (fun _ h => absurd h List.not_mem_nil) fun _ => rfl
  | summarizer h =>
    cases h with
    | @upserted _ _ outcome _ =>
      refine .kept ?_ (fun _ h => h) fun _ => rfl
      dsimp only
      split <;> rfl
    | _ => exact .kept rfl (fun _ h => h) fun _ => rfl

/-- The ids of another call stay apart from those of the call that moves. -/
theorem Draws.apart {other : Call} (h : Draws sh call sh' call' os)
    (hother : ∀ id ∈ drawn other.task, id ≤ sh.store.lastId)
    (hapart : ∀ id ∈ drawn other.task, id ∉ drawn call.task) :
    ∀ id ∈ drawn other.task, id ∉ drawn call'.task := by
  intro id hid hmoved
  rcases (h.held id hmoved).1 with hold | hnew
  · exact hapart id hid hold
  · exact absurd (hother id hid) (Nat.not_le.mpr hnew.1)

theorem distinct_idle (hI : Distinct s os) (hlast : s'.shared.store.lastId = s.shared.store.lastId)
    (hcalls : ∀ {c : CallId} {call : Call}, s'.calls[c]? = some call →
      s.calls[c]? = some call ∨ ∃ userId utterance, call = Call.new userId utterance) :
    Distinct s' os := by
  refine ⟨fun hid => hlast ▸ hI.recorded hid, fun hcall id hid => ?_,
    fun hne hcall hother id hid hid' => ?_⟩
  · rcases hcalls hcall with hcall | ⟨userId, utterance, rfl⟩
    · exact hlast ▸ hI.drawn hcall id hid
    · cases hid
  · rcases hcalls hcall with hcall | ⟨userId, utterance, rfl⟩
    · rcases hcalls hother with hother | ⟨userId, utterance, rfl⟩
      · exact hI.apart hne hcall hother id hid hid'
      · cases hid'
    · cases hid

theorem distinct_step (hI : Distinct s os) (h : (machine engine).step s a = some (s', os')) :
    Distinct s' (os ++ os') := by
  cases step_cases h with
  | idle hos _ hshared hcalls =>
    subst hos
    rw [List.append_nil]
    exact distinct_idle hI (by rw [hshared]) hcalls
  | @moved c call call' e _ hcall _ hstep hothers =>
    have hdraws := callStep_draws hstep
    have hnew {profile : Text} {id : MessageId} (hid : id ∈ recordedIds profile (os ++ os')) :
        id ∈ recordedIds profile os ∨ id ∈ drawn call.task := by
      rw [recordedIds_append] at hid
      exact (List.mem_append.mp hid).imp_right (hdraws.recorded profile id)
    refine ⟨fun hid => ?_, fun hother id hid => ?_, fun hne hfirst hsecond => ?_⟩
    · rcases hnew hid with hid | hid
      · exact Nat.le_trans (hI.recorded hid) hdraws.last
      · exact Nat.le_trans (hI.drawn hcall _ hid).1 hdraws.last
    · rcases hothers hother with ⟨rfl, rfl⟩ | ⟨hne, hother⟩
      · obtain ⟨hheld, hos⟩ := hdraws.held id hid
        have hfresh {profile : Text} :
            recordedIds profile (os ++ os') = recordedIds profile os := by
          rw [recordedIds_append, hos, List.append_nil]
        rcases hheld with hold | ⟨habove, hle⟩
        · obtain ⟨hle, hnot⟩ := hI.drawn hcall id hold
          exact ⟨Nat.le_trans hle hdraws.last, fun profile => hfresh ▸ hnot profile⟩
        · refine ⟨hle, fun profile hrecorded => ?_⟩
          rw [hfresh] at hrecorded
          exact absurd (hI.recorded hrecorded) (Nat.not_le.mpr habove)
      · obtain ⟨hle, hnot⟩ := hI.drawn hother id hid
        refine ⟨Nat.le_trans hle hdraws.last, fun profile hrecorded => ?_⟩
        rcases hnew hrecorded with hrecorded | hrecorded
        · exact hnot profile hrecorded
        · exact hI.apart hne hother hcall id hid hrecorded
    · have hbound {c' : CallId} {other : Call} (hother : s.calls[c']? = some other) :
          ∀ id ∈ drawn other.task, id ≤ s.shared.store.lastId :=
        fun id hid => (hI.drawn hother id hid).1
      rcases hothers hfirst with ⟨rfl, rfl⟩ | ⟨hne', hfirst⟩
      · rcases hothers hsecond with ⟨rfl, rfl⟩ | ⟨hne', hsecond⟩
        · exact absurd rfl hne
        · intro id hid hid'
          exact hdraws.apart (hbound hsecond) (hI.apart hne' hsecond hcall) id hid' hid
      · rcases hothers hsecond with ⟨rfl, rfl⟩ | ⟨_, hsecond⟩
        · exact hdraws.apart (hbound hfirst) (hI.apart hne' hfirst hcall)
        · exact hI.apart hne hfirst hsecond

theorem distinct_initial : Distinct (initial engine) [] := by
  refine ⟨fun hid => ?_, fun hcall => ?_, fun _ hcall => ?_⟩
  · cases hid
  · cases hcall
  · cases hcall

end AliceBridge.Core.MessageIds
