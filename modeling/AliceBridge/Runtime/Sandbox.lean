import AliceBridge.Runtime.ResponseOrder

/-! # The sandbox check

Both calls of the runtime open a thread the same way, and go on only with a result
that `validate_permission_result` passes. It reads `networkAccess` as a boolean and
takes every other value for false. -/
namespace AliceBridge.Runtime.Sandbox
open AliceBridge.Lib.Utf8 AliceBridge.Lib.Json AliceBridge.Lib.Program
open AliceBridge.Core.Household AliceBridge.Runtime.Protocol AliceBridge.Runtime.Client
open AliceBridge.Runtime.Codex AliceBridge.Runtime.Wire AliceBridge.Runtime.Collector
open AliceBridge.Runtime.Session AliceBridge.Runtime.Speech AliceBridge.Runtime.ResponseOrder

/-! ## What a result says -/

def networkAccess (value : Value) : Option Value :=
  value.pointer (path ["sandbox", "networkAccess"])

/-- The expected permission profile, and a read-only sandbox. -/
structure Confined (permissions : Text) (value : Value) : Prop where
  profile : stringAt value ["activePermissionProfile", "id"] = some permissions
  sandbox : stringAt value ["sandbox", "type"] = some "readOnly".toList

/-- Confined, and without a network. -/
structure Isolated (permissions : Text) (value : Value) : Prop
    extends Confined permissions value where
  network : networkAccess value = none ∨ networkAccess value = some (.bool false)

/-- The network access is left out or a boolean. -/
def Stated (value : Value) : Prop :=
  networkAccess value = none ∨ ∃ b, networkAccess value = some (.bool b)

section Results

variable {permissions : Text} {value : Value}

theorem validatePermissionResult_iff :
    validatePermissionResult value (some permissions) = .ok () ↔
      Confined permissions value ∧ networkAccess value ≠ some (.bool true) := by
  have hnetwork : (boolAt value ["sandbox", "networkAccess"]).getD false = true ↔
      networkAccess value = some (.bool true) := by
    unfold boolAt networkAccess
    cases value.pointer (path ["sandbox", "networkAccess"]) with
    | none => simp
    | some access => cases access <;> simp [Value.asBool]
  have hrejected {error : CodexRuntimeError} :
      ¬ (Except.error error : Except CodexRuntimeError Unit) = .ok () := by
    intro h
    cases h
  unfold validatePermissionResult protocolError
  cases hprofile : stringAt value ["activePermissionProfile", "id"] with
  | none =>
    refine iff_of_false hrejected fun h => ?_
    rw [h.1.profile] at hprofile
    cases hprofile
  | some profile =>
    simp only [Option.any_some, decide_eq_true_eq]
    split
    · next hother =>
      refine iff_of_false hrejected fun h => ?_
      rw [h.1.profile] at hprofile
      exact hother (Option.some.inj hprofile)
    · next hsame =>
      obtain rfl := not_not.mp hsame
      split
      · next hbad =>
        refine iff_of_false hrejected fun h => ?_
        exact hbad.elim (fun hkind => hkind h.1.sandbox) fun hopen => h.2 (hnetwork.mp hopen)
      · next hgood =>
        rw [not_or, not_not] at hgood
        exact iff_of_true rfl
          ⟨⟨hprofile, hgood.1⟩, fun hopen => hgood.2 (hnetwork.mpr hopen)⟩

/-- Of the values that pass, those with a stated network access are isolated. -/
theorem isolated_iff (h : validatePermissionResult value (some permissions) = .ok ()) :
    Isolated permissions value ↔ Stated value := by
  obtain ⟨hconfined, hopen⟩ := validatePermissionResult_iff.mp h
  constructor
  · intro hisolated
    exact hisolated.network.imp id fun hfalse => ⟨false, hfalse⟩
  · rintro (hnone | ⟨b, hb⟩)
    · exact ⟨hconfined, .inl hnone⟩
    · cases b with
      | false => exact ⟨hconfined, .inr hb⟩
      | true => exact absurd hb hopen

theorem requiredString_eq_ok {pointer : List String} {message : String} {text : Text} :
    requiredString value pointer message = .ok text ↔ stringAt value pointer = some text := by
  constructor
  · exact requiredString_ok
  · intro h
    unfold requiredString
    rw [h]

end Results

/-! ## The result of the second request -/

/-- The messages that came as answers. -/
def responses (log : List Event) : List Value :=
  log.filterMap fun event => match event with
    | .read message => if (methodOf message).isNone then some message else none
    | _ => none

/-- `thread/start` or `thread/resume`, the second request of a call, was answered with
this result. -/
def ThreadResult (log : List Event) (value : Value) : Prop :=
  ∃ answer, (responses log)[1]? = some answer ∧ Answers 2 answer value

@[simp] theorem responses_append (es es' : List Event) :
    responses (es ++ es') = responses es ++ responses es' :=
  List.filterMap_append

@[simp] theorem responses_wrote (message : Value) (es : List Event) :
    responses (.wrote message :: es) = responses es := rfl

theorem responses_other {message : Value} (h : (methodOf message).isSome = true)
    (es : List Event) : responses (.read message :: es) = responses es := by
  obtain ⟨method, hmethod⟩ := Option.isSome_iff_exists.mp h
  unfold responses
  rw [List.filterMap_cons_none (by simp [hmethod])]

theorem responses_answer {message : Value} (h : methodOf message = none) (es : List Event) :
    responses (.read message :: es) = message :: responses es := by
  simp [responses, h]

theorem responses_waits {es : List Event} {ns : List Value} (h : Waits es ns) :
    responses es = [] := by
  induction h with
  | nil => rfl
  | buffered hm _ _ ih => rw [responses_other hm, ih]
  | declined _ hm _ _ ih => rw [responses_other (by rw [hm]; rfl), responses_wrote, ih]

theorem responses_exchange {id : Nat} {method : Text} {params result : Value} {es : List Event}
    (h : Exchange id method params result es) :
    ∃ answer, responses es = [answer] ∧ Answers id answer result := by
  obtain ⟨hw, hanswers⟩ := h
  refine ⟨_, ?_, hanswers⟩
  rw [responses_wrote, responses_append, responses_waits hw, responses_answer hanswers.method]
  rfl

theorem responses_greeted {id : Nat} {es : List Event} (h : Greeted id es) :
    ∃ answer, responses es = [answer] := by
  obtain ⟨hexchange⟩ := h
  obtain ⟨answer, hanswer, -⟩ := responses_exchange hexchange
  exact ⟨answer, by rw [responses_append, hanswer, responses_wrote]; rfl⟩

theorem ThreadResult.append {log : List Event} {value : Value} (h : ThreadResult log value)
    (es : List Event) : ThreadResult (log ++ es) value := by
  obtain ⟨answer, hanswer, hanswers⟩ := h
  refine ⟨answer, ?_, hanswers⟩
  obtain ⟨hlt, -⟩ := List.getElem?_eq_some_iff.mp hanswer
  rw [responses_append, List.getElem?_append_left hlt, hanswer]

theorem ThreadResult.unique {log : List Event} {value value' : Value}
    (h : ThreadResult log value) (h' : ThreadResult log value') : value = value' := by
  obtain ⟨answer, hanswer, hanswers⟩ := h
  obtain ⟨answer', hanswer', hanswers'⟩ := h'
  obtain rfl := Option.some.inj (hanswer.symm.trans hanswer')
  exact Option.some.inj (hanswers.result.symm.trans hanswers'.result)

/-! ## Opening a thread -/

/-- What `start_thread_with` and `turn_with` share: the handshake, the request for the
thread, and the checks of its result. -/
def openThread (transport : Transport) (method : Text) (params : Value) (permissions : Text)
    (message : String) : Rpc Text := do
  initializeClient transport
  let result ← request transport method params
  check (validatePermissionResult result (some permissions))
  check (requiredString result ["thread", "id"] message)

section Opening

variable {transport : Transport} {runtime : CodexRuntime} {house : HouseContext}
  {threadId utterance instructions method permissions : Text} {params : Value} {message : String}

theorem startThreadWith_eq (hid : ¬ house.id ≤ 0) :
    runtime.startThreadWith transport house instructions =
      check (runtime.homeyConnector house) >>= fun homeyConnector =>
        openThread transport threadStart
          (threadStartParams (joinPath runtime.config.cwdRoot (decimal house.id))
            (runtime.permissions house) instructions homeyConnector)
          (runtime.permissions house) "thread/start response has no thread id" := by
  unfold CodexRuntime.startThreadWith
  rw [if_neg hid]
  rfl

theorem openTurn_eq (hthread : threadId ≠ []) (hid : ¬ house.id ≤ 0) :
    openTurn transport threadId runtime house =
      check (runtime.homeyConnector house) >>= fun homeyConnector =>
        openThread transport threadResume
          (threadResumeParams threadId (runtime.permissions house) homeyConnector)
          (runtime.permissions house) "thread/resume response has no thread id" >>= fun resumedId =>
        if resumedId ≠ threadId then
          throw (.protocol "thread/resume returned a different thread".toList)
        else pure homeyConnector := by
  unfold openTurn openThread
  rw [if_neg (by simpa using hthread), if_neg hid]
  simp only [bind_assoc]

/-- A thread that was opened has a result that passed. -/
theorem openThread_ok {incoming : Incoming} {opened : Text} {c : JsonRpcClient}
    (h : Runs (openThread transport method params permissions message) (.connect incoming)
      (.ok opened) c) :
    ∃ value, ThreadResult c.log value ∧
      validatePermissionResult value (some permissions) = .ok () ∧
      stringAt value ["thread", "id"] = some opened := by
  rcases Runs.bind_iff.mp h with ⟨_, c₁, hgreet, h⟩ | ⟨_, _, hfail⟩
  swap
  · cases hfail
  rcases Runs.bind_iff.mp h with ⟨value, c₂, hrequest, h⟩ | ⟨_, _, hfail⟩
  swap
  · cases hfail
  obtain ⟨hnext, greeting, hlog₁, hgreeted⟩ := initializeClient_greets hgreet
  obtain ⟨-, opening, hlog₂, hexchange⟩ := request_exchange hrequest
  obtain ⟨_, hvalid, h⟩ := (check_bind h).resolve_right (fun hfail => by cases hfail.1)
  obtain ⟨hid, rfl⟩ := check_runs h
  refine ⟨value, ?_, hvalid, requiredString_ok hid.symm⟩
  obtain ⟨answer₁, hanswer₁⟩ := responses_greeted hgreeted
  obtain ⟨answer₂, hanswer₂, hanswers⟩ := responses_exchange hexchange
  have hnext : c₁.nextId = 2 := hnext
  have hlog₁ : c₁.log = greeting := hlog₁
  rw [hnext] at hanswers
  refine ⟨answer₂, ?_, hanswers⟩
  rw [hlog₂, hlog₁, responses_append, hanswer₁, hanswer₂]
  rfl

/-- The handshake and the request, answered at once. -/
def answeredBy (value : Value) : Incoming :=
  [.ok (response 1 (.object [])), .ok (response 2 value)]

/-- A result that passes opens the thread. -/
theorem openThread_accepting {value : Value} {opened : Text}
    (hvalid : validatePermissionResult value (some permissions) = .ok ())
    (hid : stringAt value ["thread", "id"] = some opened) (method : Text) (params : Value)
    (message : String) :
    ∃ c, Runs (openThread accepting method params permissions message)
      (.connect (answeredBy value)) (.ok opened) c ∧ ThreadResult c.log value ∧
        c.incoming = [] := by
  let c₁ := ((initializeClient accepting).exec (.connect (answeredBy value))).2
  let c₂ := ((request accepting method params).exec c₁).2
  have hgreet : Runs (initializeClient accepting) (.connect (answeredBy value)) (.ok ()) c₁ := rfl
  have hrequest : Runs (request accepting method params) c₁ (.ok value) c₂ := rfl
  have hcheck : Runs (check (validatePermissionResult value (some permissions)) >>= fun _ =>
      check (requiredString value ["thread", "id"] message)) c₂ (.ok opened) c₂ := by
    rw [hvalid, requiredString_eq_ok.mpr hid]
    rfl
  have hvalue : ThreadResult c₂.log value := ⟨response 2 value, rfl, rfl, rfl, rfl, rfl⟩
  refine ⟨c₂, Runs.bind_iff.mpr (.inl ⟨(), c₁, hgreet, ?_⟩), hvalue, rfl⟩
  exact Runs.bind_iff.mpr (.inl ⟨value, c₂, hrequest, hcheck⟩)

end Opening

/-! ## Going on to a turn -/

/-- The runtime makes calls for this house. -/
def Calls (runtime : CodexRuntime) (house : HouseContext) : Prop :=
  0 < house.id ∧ (runtime.homeyConnector house).isOk = true

/-- A `turn/start` was written. -/
def TurnStarted (log : List Event) : Prop :=
  ∃ message ∈ sent log, methodOf message = some (.string turnStart)

section Turns

variable {transport : Transport} {runtime : CodexRuntime} {house : HouseContext}
  {threadId utterance instructions : Text}

theorem composes_unstarted : Composes (fun _ es => ¬ TurnStarted es) where
  nil _ := by simp [TurnStarted]
  append h h' := by
    rintro ⟨message, hmessage, hmethod⟩
    rw [sent_append, List.mem_append] at hmessage
    rcases hmessage with hmessage | hmessage
    · exact h ⟨message, hmessage, hmethod⟩
    · exact h' ⟨message, hmessage, hmethod⟩

theorem unstarted_request {method : Text} (params : Value) (hmethod : method ≠ turnStart) :
    Emits JsonRpcClient.log (fun _ => True) (fun _ es => ¬ TurnStarted es)
      (request transport method params) := by
  intro c r c' _ h
  obtain ⟨-, es, hlog, hes⟩ := request_exchange h
  refine ⟨trivial, es, hlog, ?_⟩
  have hsent : sent es <+: [requestMessage c.nextId method params] := by
    cases r with
    | ok result => exact (exchange_sent hes).symm ▸ List.prefix_rfl
    | error error => exact (sends_failed hes).sent
  rintro ⟨message, hmessage, hstart⟩
  obtain rfl := List.mem_singleton.mp (hsent.subset hmessage)
  rw [requestMessage_method] at hstart
  exact hmethod (Value.string.inj (Option.some.inj hstart))

theorem unstarted_notify {method : Text} (hmethod : method ≠ turnStart) :
    Emits JsonRpcClient.log (fun _ => True) (fun _ es => ¬ TurnStarted es)
      (notify transport method) := by
  intro c r c' _ h
  obtain ⟨-, es, hlog, hes⟩ := notify_sends h
  refine ⟨trivial, es, hlog, ?_⟩
  rintro ⟨message, hmessage, hstart⟩
  cases r with
  | error error =>
    rw [hes] at hmessage
    cases hmessage
  | ok _ =>
    rw [hes, sent_wrote (by simp)] at hmessage
    obtain rfl := List.mem_singleton.mp hmessage
    rw [notificationMessage_method] at hstart
    exact hmethod (Value.string.inj (Option.some.inj hstart))

theorem unstarted_check {α : Type} (result : Except CodexRuntimeError α) :
    Emits JsonRpcClient.log (fun _ => True) (fun _ es => ¬ TurnStarted es) (check result) := by
  refine .quiet composes_unstarted fun _ h => ?_
  obtain ⟨-, rfl⟩ := check_runs h
  exact ⟨trivial, rfl⟩

theorem unstarted_openTurn :
    Emits JsonRpcClient.log (fun _ => True) (fun _ es => ¬ TurnStarted es)
      (openTurn transport threadId runtime house) := by
  have hcomposes := composes_unstarted
  unfold openTurn
  split
  · exact .throw hcomposes _
  split
  · exact .throw hcomposes _
  refine .bind hcomposes (unstarted_check _) fun connector => ?_
  refine .bind hcomposes (.bind hcomposes (unstarted_request _ (by decide)) fun _ =>
    unstarted_notify (by decide)) fun _ => ?_
  refine .bind hcomposes (unstarted_request _ (by decide)) fun resumed => ?_
  refine .bind hcomposes (unstarted_check _) fun _ => ?_
  refine .bind hcomposes (unstarted_check _) fun resumedId => ?_
  split
  · exact .throw hcomposes _
  · exact .pure hcomposes _

theorem startTurn_grows {homeyConnector : Option Text} {c c' : JsonRpcClient}
    {r : Except CodexRuntimeError Text}
    (h : Runs (startTurn transport threadId utterance homeyConnector) c r c') :
    ∃ es, c'.log = c.log ++ es := by
  rcases Runs.bind_iff.mp h with ⟨started, c₁, hrequest, h⟩ | ⟨_, hrequest, _⟩
  · obtain ⟨-, es, hlog, -⟩ := request_exchange hrequest
    rcases check_bind h with ⟨turnId, -, hcollect⟩ | ⟨-, rfl⟩
    · obtain ⟨-, es', hlog', -⟩ := mute_collectTurn _ _ _ _ trivial hcollect
      exact ⟨es ++ es', by rw [hlog', hlog, List.append_assoc]⟩
    · exact ⟨es, hlog⟩
  · obtain ⟨-, es, hlog, -⟩ := request_exchange hrequest
    exact ⟨es, hlog⟩

theorem calls_of {homeyConnector : Option Text} (hid : ¬ house.id ≤ 0)
    (h : runtime.homeyConnector house = .ok homeyConnector) : Calls runtime house :=
  ⟨Int.not_le.mp hid, by rw [h]; rfl⟩

/-- A turn is started only in a thread whose result passed, and is its own. -/
theorem turnWith_started {incoming : Incoming} {r : Except CodexRuntimeError Text}
    {c' : JsonRpcClient}
    (h : Runs (runtime.turnWith transport house threadId utterance) (.connect incoming) r c')
    (hstarted : TurnStarted c'.log) :
    Calls runtime house ∧ threadId ≠ [] ∧ ∃ value, ThreadResult c'.log value ∧
      validatePermissionResult value (some (runtime.permissions house)) = .ok () ∧
      stringAt value ["thread", "id"] = some threadId := by
  rw [turnWith_eq] at h
  rcases Runs.bind_iff.mp h with ⟨homeyConnector, c₁, hopen, hrest⟩ | ⟨_, hopen, _⟩
  swap
  · obtain ⟨-, es, hlog, hes⟩ := unstarted_openTurn _ _ _ trivial hopen
    have hlog : c'.log = es := hlog
    exact absurd (hlog ▸ hstarted) hes
  obtain ⟨es, hlog⟩ := startTurn_grows hrest
  by_cases hthread : threadId = []
  · unfold openTurn at hopen
    rw [if_pos (by simp [hthread])] at hopen
    cases (Runs.throw_iff.mp hopen).1
  by_cases hid : house.id ≤ 0
  · unfold openTurn at hopen
    rw [if_neg (by simpa using hthread), if_pos hid] at hopen
    cases (Runs.throw_iff.mp hopen).1
  rw [openTurn_eq hthread hid] at hopen
  obtain ⟨connector, hconnector, hopen⟩ :=
    (check_bind hopen).resolve_right (fun hfail => by cases hfail.1)
  refine ⟨calls_of hid hconnector, hthread, ?_⟩
  rcases Runs.bind_iff.mp hopen with ⟨opened, c₂, hopened, hsame⟩ | ⟨_, _, hfail⟩
  swap
  · cases hfail
  obtain ⟨value, hvalue, hvalid, hopenedId⟩ := openThread_ok hopened
  split at hsame
  · cases (Runs.throw_iff.mp hsame).1
  · next hown =>
    obtain ⟨-, rfl⟩ := Runs.pure_iff.mp hsame
    exact ⟨value, hlog ▸ hvalue.append es, hvalid, not_not.mp hown ▸ hopenedId⟩

theorem startThreadWith_opened {incoming : Incoming} {opened : Text} {c' : JsonRpcClient}
    (h : Runs (runtime.startThreadWith transport house instructions) (.connect incoming)
      (.ok opened) c') :
    Calls runtime house ∧ ∃ value, ThreadResult c'.log value ∧
      validatePermissionResult value (some (runtime.permissions house)) = .ok () ∧
      stringAt value ["thread", "id"] = some opened := by
  by_cases hid : house.id ≤ 0
  · unfold CodexRuntime.startThreadWith at h
    rw [if_pos hid] at h
    cases (Runs.throw_iff.mp h).1
  rw [startThreadWith_eq hid] at h
  obtain ⟨connector, hconnector, h⟩ :=
    (check_bind h).resolve_right (fun hfail => by cases hfail.1)
  exact ⟨calls_of hid hconnector, openThread_ok h⟩

theorem homeyConnector_ok (h : Calls runtime house) :
    ∃ connector, runtime.homeyConnector house = .ok connector := by
  have hok := h.2
  cases hconnector : runtime.homeyConnector house with
  | ok connector => exact ⟨connector, rfl⟩
  | error error =>
    rw [hconnector] at hok
    cases hok

theorem startThreadWith_accepting {value : Value} {opened : Text} (hcalls : Calls runtime house)
    (hvalid : validatePermissionResult value (some (runtime.permissions house)) = .ok ())
    (hopened : stringAt value ["thread", "id"] = some opened) :
    ∃ c, Runs (runtime.startThreadWith accepting house instructions)
      (.connect (answeredBy value)) (.ok opened) c ∧ ThreadResult c.log value := by
  obtain ⟨connector, hconnector⟩ := homeyConnector_ok hcalls
  rw [startThreadWith_eq (Int.not_le.mpr hcalls.1), hconnector]
  obtain ⟨c, hopen, hvalue, -⟩ := openThread_accepting hvalid hopened threadStart
    (threadStartParams (joinPath runtime.config.cwdRoot (decimal house.id))
      (runtime.permissions house) instructions connector)
    "thread/start response has no thread id"
  exact ⟨c, hopen, hvalue⟩

theorem request_unanswered {method : Text} {params : Value} {c : JsonRpcClient}
    (h : c.incoming = []) :
    Runs (request accepting method params) c (.error .endOfStream)
      (requested (requestMessage c.nextId method params) c) := by
  let sending := requested (requestMessage c.nextId method params) c
  have hawait : Runs (awaitResponse accepting c.nextId c.incoming) sending
      (.error .endOfStream) sending := by
    rw [h]
    exact Runs.throw_iff.mpr ⟨rfl, rfl⟩
  rw [request, Runs.get_bind, Runs.modify_bind]
  exact Runs.bind_iff.mpr (.inl ⟨(), sending, writeMessage_ok_iff.mpr ⟨rfl, rfl⟩, hawait⟩)

/-- The turn goes on, and then finds no answer. -/
theorem turnWith_accepting {value : Value} (hcalls : Calls runtime house)
    (hthread : threadId ≠ [])
    (hvalid : validatePermissionResult value (some (runtime.permissions house)) = .ok ())
    (hopened : stringAt value ["thread", "id"] = some threadId) :
    ∃ r c, Runs (runtime.turnWith accepting house threadId utterance)
      (.connect (answeredBy value)) r c ∧ ThreadResult c.log value ∧ TurnStarted c.log := by
  obtain ⟨connector, hconnector⟩ := homeyConnector_ok hcalls
  obtain ⟨c, hopen, hvalue, hread⟩ := openThread_accepting hvalid hopened threadResume
    (threadResumeParams threadId (runtime.permissions house) connector)
    "thread/resume response has no thread id"
  let message := requestMessage c.nextId turnStart (turnStartParams threadId utterance)
  have hturn : Runs (openTurn accepting threadId runtime house) (.connect (answeredBy value))
      (.ok connector) c := by
    rw [openTurn_eq hthread (Int.not_le.mpr hcalls.1), hconnector]
    refine Runs.bind_iff.mpr (.inl ⟨connector, _, Runs.pure_iff.mpr ⟨rfl, rfl⟩, ?_⟩)
    refine Runs.bind_iff.mpr (.inl ⟨threadId, c, hopen, ?_⟩)
    rw [if_neg (not_not.mpr rfl)]
    exact Runs.pure_iff.mpr ⟨rfl, rfl⟩
  have hstart : Runs (startTurn accepting threadId utterance connector) c (.error .endOfStream)
      (requested message c) :=
    Runs.bind_iff.mpr (.inr ⟨_, request_unanswered hread, rfl⟩)
  have hstarted : TurnStarted (requested message c).log := by
    have hmethod : methodOf message = some (.string turnStart) := requestMessage_method ..
    refine ⟨message, ?_, hmethod⟩
    have hown : (methodOf message).isSome = true := by
      rw [hmethod]
      rfl
    simp [requested, sent_wrote hown]
  rw [turnWith_eq]
  exact ⟨_, _, Runs.bind_iff.mpr (.inl ⟨connector, c, hturn, hstart⟩), hvalue.append _, hstarted⟩

end Turns

/-! ## The law -/

/-- A thread is opened, and a turn goes on to `turn/start`, with an isolated result only,
exactly when the result states its network access or fails another check. -/
theorem isolated_only_iff (runtime : CodexRuntime) (house : HouseContext)
    (instructions threadId utterance : Text) (value : Value) :
    ((∀ transport incoming,
        let result := outcome (runtime.startThreadWith transport house instructions) incoming
        ThreadResult result.2.log value → result.1.isOk = true →
          Isolated (runtime.permissions house) value) ↔
      (Calls runtime house → Confined (runtime.permissions house) value →
        (stringAt value ["thread", "id"]).isSome = true → Stated value)) ∧
    ((∀ transport incoming,
        let result := outcome (runtime.turnWith transport house threadId utterance) incoming
        ThreadResult result.2.log value → TurnStarted result.2.log →
          Isolated (runtime.permissions house) value) ↔
      (Calls runtime house → Confined (runtime.permissions house) value → threadId ≠ [] →
        stringAt value ["thread", "id"] = some threadId → Stated value)) := by
  have hpasses (hconfined : Confined (runtime.permissions house) value)
      (hunstated : ¬ Stated value) :
      validatePermissionResult value (some (runtime.permissions house)) = .ok () :=
    validatePermissionResult_iff.mpr ⟨hconfined, fun hopen => hunstated (.inr ⟨true, hopen⟩)⟩
  refine ⟨⟨?_, ?_⟩, ⟨?_, ?_⟩⟩
  · intro hlaw hcalls hconfined hid
    by_contra hunstated
    have hvalid := hpasses hconfined hunstated
    obtain ⟨opened, hopened⟩ := Option.isSome_iff_exists.mp hid
    obtain ⟨c, hruns, hvalue⟩ := startThreadWith_accepting hcalls hvalid hopened
    have hout : outcome (runtime.startThreadWith accepting house instructions)
        (answeredBy value) = (.ok opened, c) := hruns
    have hisolated := hlaw accepting (answeredBy value)
    rw [hout] at hisolated
    exact hunstated ((isolated_iff hvalid).mp (hisolated hvalue rfl))
  · intro hcondition transport incoming result hvalue hok
    have hruns := outcome_runs (runtime.startThreadWith transport house instructions) incoming
    cases hr : result.1 with
    | error error =>
      rw [hr] at hok
      cases hok
    | ok opened =>
      obtain ⟨hcalls, value', hvalue', hvalid, hopened⟩ := startThreadWith_opened (hr ▸ hruns)
      obtain rfl := hvalue.unique hvalue'
      have hconfined := (validatePermissionResult_iff.mp hvalid).1
      exact (isolated_iff hvalid).mpr (hcondition hcalls hconfined (by rw [hopened]; rfl))
  · intro hlaw hcalls hconfined hthread hopened
    by_contra hunstated
    have hvalid := hpasses hconfined hunstated
    obtain ⟨r, c, hruns, hvalue, hstarted⟩ := turnWith_accepting hcalls hthread hvalid hopened
    have hout : outcome (runtime.turnWith accepting house threadId utterance)
        (answeredBy value) = (r, c) := hruns
    have hisolated := hlaw accepting (answeredBy value)
    rw [hout] at hisolated
    exact hunstated ((isolated_iff hvalid).mp (hisolated hvalue hstarted))
  · intro hcondition transport incoming result hvalue hstarted
    have hruns := outcome_runs (runtime.turnWith transport house threadId utterance) incoming
    obtain ⟨hcalls, hthread, value', hvalue', hvalid, hopened⟩ := turnWith_started hruns hstarted
    obtain rfl := hvalue.unique hvalue'
    have hconfined := (validatePermissionResult_iff.mp hvalid).1
    exact (isolated_iff hvalid).mpr (hcondition hcalls hconfined hthread hopened)

/-- A result that names its network access by a word. -/
def networkEnabled : Value :=
  .object [
    ("thread".toList, .object [("id".toList, .string "t".toList)]),
    ("activePermissionProfile".toList, .object [("id".toList, .string "p1".toList)]),
    ("sandbox".toList, .object [("type".toList, .string "readOnly".toList),
      ("networkAccess".toList, .string "enabled".toList)])]

theorem network_enabled_passes :
    ¬ ∀ (runtime : CodexRuntime) (transport : Transport) (house : HouseContext)
      (instructions : Text) (incoming : Incoming) (value : Value),
      let result := outcome (runtime.startThreadWith transport house instructions) incoming
      ThreadResult result.2.log value → result.1.isOk = true →
        Isolated (runtime.permissions house) value := by
  intro hlaw
  have hvalue : ThreadResult (outcome (someRuntime.startThreadWith accepting someHouse [])
      (answeredBy networkEnabled)).2.log networkEnabled :=
    ⟨response 2 networkEnabled, rfl, rfl, rfl, rfl, rfl⟩
  have hisolated := hlaw someRuntime accepting someHouse [] _ _ hvalue rfl
  rcases hisolated.network with hnone | hfalse
  · cases hnone
  · cases hfalse

end AliceBridge.Runtime.Sandbox
