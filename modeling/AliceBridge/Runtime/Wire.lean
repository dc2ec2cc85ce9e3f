import AliceBridge.Runtime.Codex

/-! # What goes over the wire

The client's operations as the events they add to its log. While it waits for a
response it only buffers notifications and declines approvals (`Waits`), and the
wait ends in one of a few ways (`Ends`). -/
namespace AliceBridge.Runtime.Wire
open AliceBridge.Lib.Utf8 AliceBridge.Lib.Json AliceBridge.Lib.Program
open AliceBridge.Runtime.Protocol AliceBridge.Runtime.Client AliceBridge.Runtime.Codex

section Messages

variable (id : Nat) (value params : Value) (method : Text)

@[simp] theorem requestMessage_method :
    methodOf (requestMessage id method params) = some (.string method) := by
  simp [methodOf, requestMessage, Value.get_object_cons]

@[simp] theorem notificationMessage_method :
    methodOf (notificationMessage method) = some (.string method) := by
  simp [methodOf, notificationMessage, Value.get_object_cons]

@[simp] theorem declineMessage_method : methodOf (declineMessage value) = none := by
  simp [methodOf, declineMessage, Value.get_object_cons]

@[simp] theorem rejectMessage_method : methodOf (rejectMessage value) = none := by
  simp [methodOf, rejectMessage, Value.get_object_cons]

end Messages

/-! ## One operation -/

def isServerRequest (message : Value) : Bool := (methodOf message).isSome && (idOf message).isSome

/-- How a server request is served: the answer, and whether the call goes on. -/
inductive Served (transport : Transport) (message : Value) :
    Except CodexRuntimeError Unit → List Event → Prop
  | declined {id : Value} {method : Text} : idOf message = some id →
      methodOf message = some (.string method) → approvals.contains method = true →
      Served transport message (.ok ()) [.wrote (declineMessage id)]
  | rejected {id : Value} {method : Text} : idOf message = some id →
      methodOf message = some (.string method) → approvals.contains method = false →
      Served transport message (.error .forbiddenRequest) [.wrote (rejectMessage id)]
  | untyped {error : CodexRuntimeError} : (methodOf message).bind Value.asStr = none →
      Served transport message (.error error) []
  | unwritten {log : List Event} {reply : Value} {error : CodexRuntimeError} :
      transport log reply = some error → Served transport message (.error error) []

/-- The events while the client waits, and the notifications it buffers meanwhile. -/
inductive Waits : List Event → List Value → Prop
  | nil : Waits [] []
  | buffered {message : Value} {es : List Event} {ns : List Value} :
      (methodOf message).isSome = true → idOf message = none → Waits es ns →
      Waits (.read message :: es) (message :: ns)
  | declined {message id : Value} {method : Text} {es : List Event} {ns : List Value} :
      idOf message = some id → methodOf message = some (.string method) →
      approvals.contains method = true → Waits es ns →
      Waits (.read message :: .wrote (declineMessage id) :: es) ns

/-- The message answers the request `id` with `result`. -/
structure Answers (id : Nat) (message result : Value) : Prop where
  method : methodOf message = none
  id : (idOf message).bind Value.asU64 = some id
  noError : message.get "error".toList = none
  result : message.get "result".toList = some result

/-- How a wait ends. -/
inductive Ends (transport : Transport) (id : Nat) :
    Except CodexRuntimeError Value → List Event → Prop
  | answered {message result : Value} : Answers id message result →
      Ends transport id (.ok result) [.read message]
  | refused {message : Value} {error : CodexRuntimeError} : methodOf message = none →
      Ends transport id (.error error) [.read message]
  | closed {error : CodexRuntimeError} : Ends transport id (.error error) []
  | unserved {message : Value} {error : CodexRuntimeError} {es : List Event} :
      isServerRequest message = true → Served transport message (.error error) es →
      Ends transport id (.error error) (.read message :: es)

section Operations

variable {transport : Transport} {c c' : JsonRpcClient}

theorem writeMessage_runs {message : Value} {r : Except CodexRuntimeError Unit}
    (h : Runs (writeMessage transport message) c r c') :
    (∃ e, transport c.log message = some e ∧ r = .error e ∧ c' = c) ∨
      r = .ok () ∧ c' = logged (.wrote message) c := by
  rw [writeMessage, Runs.get_bind] at h
  cases ht : transport c.log message with
  | some e =>
    simp only [ht] at h
    exact .inl ⟨e, rfl, Runs.throw_iff.mp h⟩
  | none =>
    simp only [ht] at h
    exact .inr (Runs.modify_iff.mp h)

theorem handle_runs {message : Value} {r : Except CodexRuntimeError Unit}
    (hid : (idOf message).isSome = true)
    (h : Runs (handleServerRequest transport message) c r c') :
    ∃ es, Served transport message r es ∧ c' = { c with log := c.log ++ es } := by
  unfold handleServerRequest at h
  obtain ⟨id, hid⟩ := Option.isSome_iff_exists.mp hid
  simp only [hid] at h
  cases hmethod : (methodOf message).bind Value.asStr with
  | none =>
    simp only [hmethod] at h
    obtain ⟨rfl, rfl⟩ := Runs.throw_iff.mp h
    exact ⟨[], .untyped hmethod, by simp⟩
  | some method =>
    simp only [hmethod] at h
    have hstring := Value.bind_asStr_eq_some.mp hmethod
    by_cases happroval : approvals.contains method = true
    · rw [if_pos happroval] at h
      rcases writeMessage_runs h with ⟨e, hrefused, rfl, rfl⟩ | ⟨rfl, rfl⟩
      · exact ⟨[], .unwritten hrefused, by simp⟩
      · exact ⟨_, .declined hid hstring happroval, rfl⟩
    · rw [if_neg happroval] at h
      have hforeign := Bool.eq_false_iff.mpr happroval
      rcases Runs.bind_iff.mp h with ⟨_, c₁, hwrite, hthrow⟩ | ⟨e, hwrite, rfl⟩
      · obtain ⟨rfl, rfl⟩ := Runs.throw_iff.mp hthrow
        rcases writeMessage_runs hwrite with ⟨_, _, hr, _⟩ | ⟨_, rfl⟩
        · cases hr
        · exact ⟨_, .rejected hid hstring hforeign, rfl⟩
      · rcases writeMessage_runs hwrite with ⟨_, hrefused, hr, rfl⟩ | ⟨hr, _⟩
        · cases hr
          exact ⟨[], .unwritten hrefused, by simp⟩
        · cases hr

theorem responseResult_ok {id : Nat} {message result : Value} (hm : methodOf message = none)
    (h : responseResult id message = .ok result) : Answers id message result := by
  unfold responseResult at h
  split at h
  · cases h
  · next hid =>
    cases herror : message.get "error".toList with
    | some error =>
      simp only [herror] at h
      cases h
    | none =>
      simp only [herror] at h
      cases hresult : message.get "result".toList with
      | none =>
        simp only [hresult] at h
        cases h
      | some value =>
        simp only [hresult, Except.ok.injEq] at h
        exact ⟨hm, not_not.mp hid, herror, hresult.trans (congrArg some h)⟩

theorem check_runs {α : Type} {result : Except CodexRuntimeError α}
    {r : Except CodexRuntimeError α} (h : Runs (check result) c r c') : r = result ∧ c' = c := by
  cases result with
  | ok a => exact Runs.pure_iff.mp h
  | error e => exact Runs.throw_iff.mp h

/-- A wait is some events and an end. -/
theorem awaitResponse_runs {id : Nat} {reads : Incoming} {r : Except CodexRuntimeError Value}
    (h : Runs (awaitResponse transport id reads) c r c') :
    ∃ es ns tail, Waits es ns ∧ Ends transport id r tail ∧ c'.nextId = c.nextId ∧
      c'.notifications = c.notifications ++ ns ∧ c'.log = c.log ++ (es ++ tail) := by
  induction reads generalizing c with
  | nil =>
    obtain ⟨rfl, rfl⟩ := Runs.throw_iff.mp h
    exact ⟨[], [], [], .nil, .closed, rfl, by simp, by simp⟩
  | cons read rest ih =>
    cases read with
    | error error =>
      rw [awaitResponse, Runs.modify_bind] at h
      obtain ⟨rfl, rfl⟩ := Runs.throw_iff.mp h
      exact ⟨[], [], [], .nil, .closed, rfl, by simp, by simp⟩
    | ok message =>
      rw [awaitResponse, Runs.modify_bind] at h
      by_cases hm : (methodOf message).isSome = true
      · rw [if_pos hm] at h
        by_cases hid : (idOf message).isSome = true
        · rw [if_pos hid] at h
          have hrequest : isServerRequest message = true := by
            unfold isServerRequest
            rw [hm, hid]
            rfl
          rcases Runs.bind_iff.mp h with ⟨_, c₁, hserve, hnext⟩ | ⟨e, hserve, rfl⟩
          · obtain ⟨es, hserved, rfl⟩ := handle_runs hid hserve
            cases hserved with
            | declined hid hmethod happroval =>
              obtain ⟨es, ns, tail, hw, hend, hnext, hns, hlog⟩ := ih hnext
              refine ⟨_, ns, tail, .declined hid hmethod happroval hw, hend, hnext, hns, ?_⟩
              rw [hlog]
              simp [received]
          · obtain ⟨es, hserved, rfl⟩ := handle_runs hid hserve
            exact ⟨[], [], _, .nil, .unserved hrequest hserved, rfl, by simp [received],
              by simp [received]⟩
        · rw [if_neg hid, Runs.modify_bind] at h
          obtain ⟨es, ns, tail, hw, hend, hnext, hns, hlog⟩ := ih h
          refine ⟨_, _, tail, .buffered hm (by simpa using hid) hw, hend, hnext, ?_, ?_⟩
          · rw [hns]
            simp [received]
          · rw [hlog]
            simp [received]
      · rw [if_neg hm] at h
        obtain ⟨rfl, rfl⟩ := check_runs h
        have hnone : methodOf message = none := by simpa using hm
        refine ⟨[], [], [.read message], .nil, ?_, rfl, by simp [received], by simp [received]⟩
        cases hr : responseResult id message with
        | ok result => exact .answered (responseResult_ok hnone hr)
        | error error => exact .refused hnone

/-- A request is written, unless the transport refuses it, and then waited for. -/
theorem request_runs {method : Text} {params : Value} {r : Except CodexRuntimeError Value}
    (h : Runs (request transport method params) c r c') :
    c'.nextId = c.nextId + 1 ∧
      ((∃ error, r = .error error ∧ c'.notifications = c.notifications ∧ c'.log = c.log) ∨
      ∃ es ns tail, Waits es ns ∧ Ends transport c.nextId r tail ∧
        c'.notifications = c.notifications ++ ns ∧
        c'.log = c.log ++ (.wrote (requestMessage c.nextId method params) :: (es ++ tail))) := by
  rw [request, Runs.get_bind, Runs.modify_bind] at h
  rcases Runs.bind_iff.mp h with ⟨_, c₁, hwrite, hawait⟩ | ⟨error, hwrite, rfl⟩
  · rcases writeMessage_runs hwrite with ⟨_, _, hr, _⟩ | ⟨_, rfl⟩
    · cases hr
    · obtain ⟨es, ns, tail, hw, hend, hnext, hns, hlog⟩ := awaitResponse_runs hawait
      refine ⟨hnext, .inr ⟨es, ns, tail, hw, hend, hns, ?_⟩⟩
      rw [hlog]
      simp [logged]
  · rcases writeMessage_runs hwrite with ⟨_, _, _, rfl⟩ | ⟨hr, _⟩
    · exact ⟨rfl, .inl ⟨error, rfl, rfl, rfl⟩⟩
    · cases hr

end Operations

/-! ## Whole calls -/

/-- The buffer holds notifications only, as `request` fills it. -/
def Tidy (client : JsonRpcClient) : Prop := ∀ message ∈ client.notifications, idOf message = none

/-- Programs of the client by the events they add to its log. -/
abbrev Logs {α : Type} (P : Bool → List Event → Prop) (m : Rpc α) : Prop :=
  Emits JsonRpcClient.log Tidy P m

/-- A whole call has a connection of its own. -/
def outcome {α : Type} (m : Rpc α) (incoming : Incoming) :
    Except CodexRuntimeError α × JsonRpcClient :=
  m.exec (.connect incoming)

theorem outcome_runs {α : Type} (m : Rpc α) (incoming : Incoming) :
    Runs m (.connect incoming) (outcome m incoming).1 (outcome m incoming).2 := rfl

theorem tidy_connect (incoming : Incoming) : Tidy (JsonRpcClient.connect incoming) := by
  intro message hmessage
  cases hmessage

theorem waits_tidy {es : List Event} {ns : List Value} (h : Waits es ns) :
    ∀ message ∈ ns, idOf message = none := by
  induction h with
  | nil => simp
  | buffered _ hid _ ih =>
    intro message hmessage
    cases hmessage with
    | head => exact hid
    | tail _ hmessage => exact ih message hmessage
  | declined _ _ _ _ ih => exact ih

section Calls

variable {α : Type} {P : Bool → List Event → Prop} {transport : Transport}

theorem Logs.outcome {m : Rpc α} (hm : Logs P m) (incoming : Incoming) :
    P (outcome m incoming).1.isOk (outcome m incoming).2.log := by
  obtain ⟨-, es, hlog, hes⟩ := hm _ _ _ (tidy_connect incoming) (outcome_runs m incoming)
  rw [hlog]
  exact hes

theorem logs_check (hP : Composes P) (result : Except CodexRuntimeError α) :
    Logs P (check result) := by
  refine .quiet hP fun hI h => ?_
  obtain ⟨-, rfl⟩ := check_runs h
  exact ⟨hI, rfl⟩

theorem logs_startThreadWith (hP : Composes P)
    (hrequest : ∀ method params, Logs P (request transport method params))
    (hnotify : ∀ method, Logs P (notify transport method)) (runtime : CodexRuntime)
    (house : Core.Household.HouseContext) (instructions : Text) :
    Logs P (runtime.startThreadWith transport house instructions) := by
  unfold CodexRuntime.startThreadWith
  split
  · exact .throw hP _
  · refine .bind hP (logs_check hP _) fun connector => ?_
    refine .bind hP (.bind hP (hrequest _ _) fun _ => hnotify _) fun _ => ?_
    refine .bind hP (hrequest _ _) fun result => ?_
    exact .bind hP (logs_check hP _) fun _ => logs_check hP _

theorem logs_turnWith (hP : Composes P)
    (hrequest : ∀ method params, Logs P (request transport method params))
    (hnotify : ∀ method, Logs P (notify transport method))
    (hcollect : ∀ threadId turnId connector,
      Logs P (collectTurn transport threadId turnId connector))
    (runtime : CodexRuntime) (house : Core.Household.HouseContext) (threadId utterance : Text) :
    Logs P (runtime.turnWith transport house threadId utterance) := by
  unfold CodexRuntime.turnWith
  split
  · exact .throw hP _
  split
  · exact .throw hP _
  · refine .bind hP (logs_check hP _) fun connector => ?_
    refine .bind hP (.bind hP (hrequest _ _) fun _ => hnotify _) fun _ => ?_
    refine .bind hP (hrequest _ _) fun resumed => ?_
    refine .bind hP (logs_check hP _) fun _ => ?_
    refine .bind hP (logs_check hP _) fun resumedId => ?_
    split
    · exact .throw hP _
    · refine .bind hP (hrequest _ _) fun started => ?_
      exact .bind hP (logs_check hP _) fun turnId => hcollect _ _ _

end Calls

end AliceBridge.Runtime.Wire
