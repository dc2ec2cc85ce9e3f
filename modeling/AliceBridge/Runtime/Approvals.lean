import AliceBridge.Runtime.Collector

/-! # Server requests and their replies

Every server request is answered before anything else is read, and never with an
approval: by a decline, or by an error that ends the call. -/
namespace AliceBridge.Runtime.Approvals
open AliceBridge.Lib.Utf8 AliceBridge.Lib.Json AliceBridge.Lib.Program
open AliceBridge.Core.Household AliceBridge.Runtime.Protocol AliceBridge.Runtime.Client
open AliceBridge.Runtime.Codex AliceBridge.Runtime.Wire AliceBridge.Runtime.Collector

/-- What goes over the connection, in order: the log without its consumed messages. -/
def wire (log : List Event) : List Event :=
  log.filter fun event => match event with
    | .consumed _ => false
    | _ => true

/-- The reads and writes of a call, which went well (`ok`) or not. The client writes
requests and notifications of its own, and replies right after the request. -/
inductive Answered (ok : Bool) : List Event → Prop
  | nil : Answered ok []
  | own {message : Value} {es : List Event} : (methodOf message).isSome = true →
      Answered ok es → Answered ok (.wrote message :: es)
  | read {message : Value} {es : List Event} : isServerRequest message = false →
      Answered ok es → Answered ok (.read message :: es)
  | declined {message id : Value} {method : Text} {es : List Event} :
      idOf message = some id → methodOf message = some (.string method) →
      approvals.contains method = true → Answered ok es →
      Answered ok (.read message :: .wrote (declineMessage id) :: es)
  | rejected {message id : Value} {method : Text} : ok = false → idOf message = some id →
      methodOf message = some (.string method) → approvals.contains method = false →
      Answered ok [.read message, .wrote (rejectMessage id)]
  | untyped {message : Value} : ok = false → isServerRequest message = true →
      (methodOf message).bind Value.asStr = none → Answered ok [.read message]

/-- The law of a program's events. -/
def Replies (ok : Bool) (es : List Event) : Prop := Answered ok (wire es)

theorem Answered.append {ok : Bool} {es es' : List Event} (h : Answered true es)
    (h' : Answered ok es') : Answered ok (es ++ es') := by
  induction h with
  | nil => exact h'
  | own hmethod _ ih => exact .own hmethod ih
  | read hrequest _ ih => exact .read hrequest ih
  | declined hid hmethod happroval _ ih => exact .declined hid hmethod happroval ih
  | rejected hok | untyped hok => cases hok

theorem composes_replies : Composes Replies where
  nil _ := .nil
  append := by
    intro ok es es' h h'
    unfold Replies wire
    rw [List.filter_append]
    exact Answered.append h h'

/-! ## Waiting for a response -/

theorem waits_answered {ok : Bool} {es tail : List Event} {ns : List Value} (h : Waits es ns)
    (htail : Replies ok tail) : Replies ok (es ++ tail) := by
  induction h with
  | nil => exact htail
  | buffered _ hid _ ih =>
    refine Answered.read ?_ ih
    simp [isServerRequest, hid]
  | declined hid hmethod happroval _ ih => exact Answered.declined hid hmethod happroval ih

/-- Served after it was read, with nothing in between but its consumption. -/
theorem served_answered {message : Value} {r : Except CodexRuntimeError Unit} {es : List Event}
    (hrequest : isServerRequest message = true) (h : Served accepting message r es) :
    Answered r.isOk (.read message :: wire es) := by
  cases h with
  | declined hid hmethod happroval => exact .declined hid hmethod happroval .nil
  | rejected hid hmethod hforeign => exact .rejected rfl hid hmethod hforeign
  | untyped hmethod => exact .untyped rfl hrequest hmethod
  | unwritten hrefused => cases hrefused

theorem ends_answered {id : Nat} {r : Except CodexRuntimeError Value} {es : List Event}
    (h : Ends accepting id r es) : Replies r.isOk es := by
  cases h with
  | answered hanswers => exact Answered.read (by simp [isServerRequest, hanswers.method]) .nil
  | refused hmethod => exact Answered.read (by simp [isServerRequest, hmethod]) .nil
  | closed => exact .nil
  | unserved hrequest hserved => exact served_answered hrequest hserved

theorem logs_request (method : Text) (params : Value) :
    Logs Replies (request accepting method params) := by
  intro c r c' hI h
  obtain ⟨-, ⟨_, -, hns, hlog⟩ | ⟨es, ns, tail, hw, hend, hns, hlog⟩⟩ := request_runs h
  · refine ⟨?_, [], ?_, .nil⟩
    · unfold Tidy
      rw [hns]
      exact hI
    · rw [hlog, List.append_nil]
  · refine ⟨?_, _, hlog, ?_⟩
    · unfold Tidy
      rw [hns]
      intro message hmessage
      rcases List.mem_append.mp hmessage with hmessage | hmessage
      · exact hI message hmessage
      · exact waits_tidy hw message hmessage
    · exact Answered.own (by simp) (waits_answered hw (ends_answered hend))

theorem logs_notify (method : Text) : Logs Replies (notify accepting method) := by
  intro c r c' hI h
  rcases writeMessage_runs h with ⟨_, hrefused, _⟩ | ⟨rfl, rfl⟩
  · cases hrefused
  · exact ⟨hI, [.wrote (notificationMessage method)], rfl, Answered.own (by simp) .nil⟩

/-! ## Collecting a turn -/

section Collect

variable {threadId turnId : Text} {homeyConnector : Option Text}

/-- Only a server request makes the loop write, and then it is served. -/
theorem collectMessage_serves {collected : Collected} {message : Value} {c c' : JsonRpcClient}
    {r : Except CodexRuntimeError Progress}
    (h : Runs (collectMessage accepting threadId turnId homeyConnector collected message) c r
      c') :
    ∃ es, c' = { c with log := c.log ++ es } ∧
      if isServerRequest message then ∃ r', Served accepting message r' es ∧ r.isOk = r'.isOk
      else es = [] := by
  by_cases hrequest : isServerRequest message = true
  · change Runs (if isServerRequest message = true then _ else _) c r c' at h
    rw [if_pos hrequest] at h
    simp only [if_pos hrequest]
    have hid := (Bool.and_eq_true _ _ ▸ hrequest).2
    rcases Runs.bind_iff.mp h with ⟨_, c₁, hserve, hpure⟩ | ⟨e, hserve, rfl⟩
    · obtain ⟨rfl, rfl⟩ := Runs.pure_iff.mp hpure
      obtain ⟨es, hserved, rfl⟩ := handle_runs hid hserve
      exact ⟨es, rfl, _, hserved, rfl⟩
    · obtain ⟨es, hserved, rfl⟩ := handle_runs hid hserve
      exact ⟨es, rfl, _, hserved, rfl⟩
  · change Runs (if isServerRequest message = true then _ else _) c r c' at h
    rw [if_neg hrequest] at h
    simp only [if_neg hrequest]
    obtain ⟨-, rfl⟩ := check_runs h
    exact ⟨[], by simp, rfl⟩

/-- A message comes from the buffer, where there are no server requests, or is read. -/
theorem takeSource_tidy {source : Source} {c c' : JsonRpcClient}
    {r : Except CodexRuntimeError Value}
    (hsource : ∀ message, source = .buffered message → idOf message = none) (hI : Tidy c)
    (h : Runs (takeSource source) c r c') :
    Tidy c' ∧ ∃ es, c'.log = c.log ++ es ∧ match r with
      | .error _ => es = []
      | .ok message => es = [.read message] ∨ es = [] ∧ idOf message = none := by
  cases source with
  | buffered message =>
    rw [takeSource, Runs.modify_bind] at h
    obtain ⟨rfl, rfl⟩ := Runs.pure_iff.mp h
    exact ⟨fun m hm => hI m (List.mem_of_mem_tail hm), [], by simp, .inr ⟨rfl, hsource _ rfl⟩⟩
  | live result =>
    cases result with
    | error error =>
      rw [takeSource, Runs.modify_bind] at h
      obtain ⟨rfl, rfl⟩ := Runs.throw_iff.mp h
      exact ⟨hI, [], by simp, rfl⟩
    | ok message =>
      rw [takeSource, Runs.modify_bind] at h
      obtain ⟨rfl, rfl⟩ := Runs.pure_iff.mp h
      exact ⟨hI, [.read message], rfl, .inl rfl⟩

/-- A message is taken, consumed and dealt with. -/
theorem round_answered {message : Value} {r : Except CodexRuntimeError Progress}
    {taken served : List Event}
    (htaken : taken = [.read message] ∨ taken = [] ∧ idOf message = none)
    (hserved : if isServerRequest message then
        ∃ r', Served accepting message r' served ∧ r.isOk = r'.isOk
      else served = []) :
    Replies r.isOk (taken ++ .consumed message :: served) := by
  by_cases hrequest : isServerRequest message = true
  · rw [if_pos hrequest] at hserved
    obtain ⟨r', hserved, hr⟩ := hserved
    rcases htaken with rfl | ⟨-, hid⟩
    · rw [hr]
      show Answered _ (.read message :: wire served)
      exact served_answered hrequest hserved
    · simp [isServerRequest, hid] at hrequest
  · rw [if_neg hrequest] at hserved
    subst hserved
    rcases htaken with rfl | ⟨rfl, -⟩
    · exact Answered.read (by simpa using hrequest) .nil
    · exact .nil

theorem logs_collectLoop {sources : List Source}
    (hsources : ∀ message, .buffered message ∈ sources → idOf message = none)
    (collected : Collected) :
    Logs Replies (collectLoop accepting threadId turnId homeyConnector sources collected) := by
  induction sources generalizing collected with
  | nil => exact .throw composes_replies _
  | cons source rest ih =>
    have ih := ih fun message hmessage => hsources message (List.mem_cons_of_mem _ hmessage)
    have hsource : ∀ message, source = .buffered message → idOf message = none := by
      intro message hmessage
      exact hsources message (hmessage ▸ List.mem_cons_self)
    intro c r c' hI h
    rw [collectLoop] at h
    rcases Runs.bind_iff.mp h with ⟨message, c₁, htake, h⟩ | ⟨e, htake, rfl⟩
    · obtain ⟨hI₁, taken, hlog₁, htaken⟩ := takeSource_tidy hsource hI htake
      rw [Runs.modify_bind] at h
      rcases Runs.bind_iff.mp h with ⟨progress, c₂, hcollect, h⟩ | ⟨e, hcollect, rfl⟩
      · obtain ⟨served, rfl, hserved⟩ := collectMessage_serves hcollect
        have hround := round_answered htaken hserved
        have hI₂ : Tidy { logged (.consumed message) c₁ with
            log := (logged (.consumed message) c₁).log ++ served } := hI₁
        have hrest : Tidy c' ∧ ∃ es, c'.log = c₁.log ++ [.consumed message] ++ served ++ es ∧
            Replies r.isOk es := by
          cases progress with
          | more collected => exact ih collected _ r c' hI₂ h
          | done text => exact Emits.pure composes_replies text _ r c' hI₂ h
        obtain ⟨hI', es, hlog, hes⟩ := hrest
        refine ⟨hI', taken ++ .consumed message :: served ++ es, ?_, ?_⟩
        · rw [hlog]
          simp [hlog₁]
        · exact composes_replies.append hround hes
      · obtain ⟨served, rfl, hserved⟩ := collectMessage_serves hcollect
        refine ⟨hI₁, taken ++ .consumed message :: served, ?_, round_answered htaken hserved⟩
        simp [logged, hlog₁]
    · obtain ⟨hI₁, taken, hlog₁, rfl⟩ := takeSource_tidy hsource hI htake
      exact ⟨hI₁, [], hlog₁, .nil⟩

theorem logs_collectTurn :
    Logs Replies (collectTurn accepting threadId turnId homeyConnector) := by
  intro c r c' hI h
  rw [collectTurn, Runs.get_bind] at h
  refine logs_collectLoop ?_ _ c r c' hI h
  intro message hmessage
  rw [JsonRpcClient.sources, List.mem_append, List.mem_map, List.mem_map] at hmessage
  rcases hmessage with ⟨_, hmem, hbuffered⟩ | ⟨_, _, hlive⟩
  · obtain rfl := Source.buffered.inj hbuffered
    exact hI _ hmem
  · cases hlive

end Collect

/-- Over a whole call on a new connection: each server request is replied to at once,
by a decline or by the error that ends the call, and nothing else is a reply. -/
theorem never_approves (runtime : CodexRuntime) (house : HouseContext) (incoming : Incoming) :
    (∀ instructions,
      let result := outcome (runtime.startThreadWith accepting house instructions) incoming
      Answered result.1.isOk (wire result.2.log)) ∧
    ∀ threadId utterance,
      let result := outcome (runtime.turnWith accepting house threadId utterance) incoming
      Answered result.1.isOk (wire result.2.log) := by
  constructor
  · intro instructions
    exact (logs_startThreadWith composes_replies logs_request logs_notify runtime house
      instructions).outcome incoming
  · intro threadId utterance
    exact (logs_turnWith composes_replies logs_request logs_notify (fun _ _ _ => logs_collectTurn)
      runtime house threadId utterance).outcome incoming

end AliceBridge.Runtime.Approvals
