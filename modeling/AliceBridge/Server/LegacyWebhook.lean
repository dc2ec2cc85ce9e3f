import AliceBridge.Core.EngineSteps
import AliceBridge.Server.Webhook

/-! # The webhook of the legacy engine

The route before the legacy engine. Whoever is not allowed leaves no trace in the engine,
a new session is greeted without it, and every other request gets the reply of its own
call, once. -/
namespace AliceBridge.Server.LegacyWebhook
open AliceBridge.Lib AliceBridge.Lib.Utf8 AliceBridge.Lib.Run AliceBridge.Lib.Gateway
open AliceBridge.Core.Engine AliceBridge.Core.EngineSteps
open AliceBridge.Core.HouseEngine (CallId)
open AliceBridge.Protocol.Request AliceBridge.Protocol.Response AliceBridge.Server.Webhook

/-- The calls of the engine, and what `handle` has returned to each of them. -/
def engineService (engine : Engine) :
    Service State Core.Engine.Action Obs (Text × Text) Text where
  machine := Core.Engine.machine engine
  arrive input := .arrive input.1 input.2
  brings
    | .arrive userId utterance => some (userId, utterance)
    | _ => none
  inputs s := s.calls.map fun call => (call.userId, call.utterance)
  answer s n := s.calls[n]?.bind fun call => call.pc.reply

def legacyMachine (engine : Engine) (webhookSecret : Text) (allowedUserIds : List Text) :
    Machine (Front State HttpRequest) (Gateway.Action HttpRequest Core.Engine.Action)
      (Gateway.Seen Obs (Option HttpResponse)) :=
  Gateway.machine (engineService engine) (legacyDoor webhookSecret allowedUserIds)

variable {engine : Engine}

/-! ## A reply is final -/

theorem callStep_reply {sh sh' : Shared} {c : CallId} {call call' : Call} {e : Event}
    {os : List Obs} (h : CallStep engine sh c call e sh' call' os) {reply : Text}
    (hreply : call.pc.reply = some reply) : call'.pc.reply = some reply := by
  cases h with
  | request h =>
    cases h with
    | moves hmoves =>
      cases hmoves with
      | clearFailed hpc =>
        -- a call that clears has not replied yet
        obtain hpc | ⟨_, hpc⟩ := hpc <;> simp [Pc.reply, hpc] at hreply
      | _ => simp_all [Pc.reply]
    | _ => simp_all [Pc.reply]
  | task h => cases h <;> exact hreply
  | summarizer h => cases h <;> exact hreply

theorem engineService_lawful : (engineService engine).Lawful where
  brings_arrive _ := rfl
  inputs_step := by
    intro s a s' os h
    dsimp only [engineService] at h ⊢
    cases a with
    | arrive userId utterance =>
      obtain ⟨rfl, _⟩ := by simpa [Core.Engine.machine, Core.Engine.step] using h
      simp [Call.new]
    | tick =>
      obtain ⟨rfl, _⟩ := by simpa [Core.Engine.machine, Core.Engine.step] using h
      simp
    | task c e =>
      obtain ⟨call, call', hcall, hcalls, hstep⟩ := step_task h
      obtain ⟨huser, hutterance⟩ := callStep_identity hstep
      rw [hcalls, Option.toList_none, List.append_nil]
      exact map_set_same hcall (Prod.ext huser hutterance)
  answer_step := by
    intro s a s' os n reply h hreply
    dsimp only [engineService] at h hreply ⊢
    obtain ⟨call, hcall, hreply⟩ := Option.bind_eq_some_iff.mp hreply
    obtain ⟨hlt, _⟩ := List.getElem?_eq_some_iff.mp hcall
    cases a with
    | arrive userId utterance =>
      obtain ⟨rfl, _⟩ := by simpa [Core.Engine.machine, Core.Engine.step] using h
      rw [List.getElem?_append_left hlt, hcall]
      exact hreply
    | tick =>
      obtain ⟨rfl, _⟩ := by simpa [Core.Engine.machine, Core.Engine.step] using h
      rw [hcall]
      exact hreply
    | task c e =>
      obtain ⟨mover, call', hmover, hcalls, hstep⟩ := step_task h
      rw [hcalls]
      by_cases hc : c = n
      · subst hc
        obtain rfl := Option.some.inj (hmover.symm.trans hcall)
        rw [List.getElem?_set_self hlt]
        exact callStep_reply hstep hreply
      · rw [List.getElem?_set_ne hc, hcall]
        exact hreply

/-! ## What the door says -/

def Allowed (allowedUserIds : List Text) (body : WebhookRequest) : Prop :=
  allowedUserIds = [] ∨ speaker body ∈ allowedUserIds

/-- A new session that says nothing. -/
def Opens (body : WebhookRequest) : Prop :=
  body.session.new = true ∧ trim body.request.originalUtterance = []

/-- What a request is answered with that comes in this place among the calls. -/
inductive Answered (webhookSecret : Text) (allowedUserIds : List Text) (s : State)
    (place : CallId) (request : HttpRequest) : HttpResponse → Prop
  | rejected : request.read = none →
      Answered webhookSecret allowedUserIds s place request .rejected
  | notFound {body : WebhookRequest} : request.read = some body →
      request.secret ≠ webhookSecret →
      Answered webhookSecret allowedUserIds s place request .notFound
  | refused {body : WebhookRequest} {response : WebhookResponse} : request.read = some body →
      request.secret = webhookSecret → ¬ Allowed allowedUserIds body →
      WebhookResponse.sayAndClose refusal = some response →
      Answered webhookSecret allowedUserIds s place request (.ok response)
  | greeted {body : WebhookRequest} {response : WebhookResponse} : request.read = some body →
      request.secret = webhookSecret → Allowed allowedUserIds body → Opens body →
      WebhookResponse.say Webhook.greeting = some response →
      Answered webhookSecret allowedUserIds s place request (.ok response)
  | replied {body : WebhookRequest} {call : Call} {reply : Text} {response : WebhookResponse} :
      request.read = some body → request.secret = webhookSecret → Allowed allowedUserIds body →
      ¬ Opens body → s.calls[place]? = some call →
      (call.userId, call.utterance) = legacyInput body → call.pc.reply = some reply →
      WebhookResponse.say reply = some response →
      Answered webhookSecret allowedUserIds s place request (.ok response)

section Door

variable {webhookSecret : Text} {allowedUserIds : List Text} {request : HttpRequest}

theorem allowed_iff {body : WebhookRequest} :
    (!allowedUserIds.isEmpty && !allowedUserIds.contains (speaker body)) = true ↔
      ¬ Allowed allowedUserIds body := by
  simp [Allowed]

theorem opens_iff {body : WebhookRequest} :
    (body.session.new && (trim body.request.originalUtterance).isEmpty) = true ↔ Opens body := by
  simp [Opens]

theorem legacyDoor_error {response : Option HttpResponse} {s : State} {place : CallId}
    (h : (legacyDoor webhookSecret allowedUserIds).accept request = .error response) :
    ∃ http, response = some http ∧
      Answered webhookSecret allowedUserIds s place request http ∧
      ∀ body, http = .ok body → Envelope body := by
  simp only [legacyDoor] at h
  split at h
  next answer hentry =>
    obtain rfl := Except.error.inj h
    refine ⟨answer, rfl, ?_⟩
    rcases entry_error hentry with ⟨hread, rfl⟩ | ⟨body, hread, hsecret, rfl⟩
    · exact ⟨.rejected hread, fun _ heq => by cases heq⟩
    · exact ⟨.notFound hread hsecret, fun _ heq => by cases heq⟩
  next body hentry =>
    obtain ⟨hread, hsecret⟩ := entry_ok.mp hentry
    split at h
    next houtside =>
      obtain rfl := Except.error.inj h
      obtain ⟨said, hclosed, henvelope⟩ := sayAndClose_envelope refusal
      exact ⟨.ok said, by rw [hclosed]; rfl,
        .refused hread hsecret (allowed_iff.mp houtside) hclosed, fun _ heq => henvelope.of_ok heq⟩
    next hinside =>
      have hallowed : Allowed allowedUserIds body := by
        by_contra hnot
        exact hinside (allowed_iff.mpr hnot)
      split at h
      next hopens =>
        obtain rfl := Except.error.inj h
        obtain ⟨said, hgreeting, henvelope⟩ := say_envelope Webhook.greeting
        exact ⟨.ok said, by rw [hgreeting]; rfl,
          .greeted hread hsecret hallowed (opens_iff.mp hopens) hgreeting,
          fun _ heq => henvelope.of_ok heq⟩
      next => cases h

theorem legacyDoor_ok {input : Text × Text}
    (h : (legacyDoor webhookSecret allowedUserIds).accept request = .ok input) :
    ∃ body, request.read = some body ∧ request.secret = webhookSecret ∧
      Allowed allowedUserIds body ∧ ¬ Opens body ∧ input = legacyInput body := by
  simp only [legacyDoor] at h
  split at h
  next => cases h
  next body hentry =>
    obtain ⟨hread, hsecret⟩ := entry_ok.mp hentry
    split at h
    next => cases h
    next hinside =>
      split at h
      next => cases h
      next hopens =>
        obtain rfl := Except.ok.inj h
        refine ⟨body, hread, hsecret, ?_, fun h => hopens (opens_iff.mpr h), rfl⟩
        by_contra hnot
        exact hinside (allowed_iff.mpr hnot)

end Door

/-! ## Runs -/

section Runs

variable {webhookSecret : Text} {allowedUserIds : List Text} {s : Front State HttpRequest}
  {seen : List (Gateway.Seen Obs (Option HttpResponse))}
  {acts : List (Gateway.Action HttpRequest Core.Engine.Action)}

theorem answered_of_serves {n : Nat} {response : Option HttpResponse}
    (h : Serves (engineService engine) (legacyDoor webhookSecret allowedUserIds) s n response) :
    ∃ request http, s.requests[n]? = some request ∧ response = some http ∧
      Answered webhookSecret allowedUserIds s.inside
        (place (legacyDoor webhookSecret allowedUserIds) (s.requests.take n)) request http ∧
      ∀ body, http = .ok body → Envelope body := by
  cases h with
  | @refused request _ hrequest haccept =>
    obtain ⟨http, hhttp, hanswered, henvelope⟩ := legacyDoor_error haccept
    exact ⟨request, http, hrequest, hhttp, hanswered, henvelope⟩
  | @answered request input reply hrequest haccept hinput hanswer =>
    obtain ⟨body, hread, hsecret, hallowed, hopens, rfl⟩ := legacyDoor_ok haccept
    obtain ⟨call, hcall, hreply⟩ := Option.bind_eq_some_iff.mp hanswer
    obtain ⟨said, hresponse, henvelope⟩ := say_envelope reply
    have hsame : (call.userId, call.utterance) = legacyInput body := by
      have hinputs : ((s.inside.calls.map fun call => (call.userId, call.utterance))[place
          (legacyDoor webhookSecret allowedUserIds) (s.requests.take n)]?) =
            some (legacyInput body) := hinput
      rw [List.getElem?_map, hcall] at hinputs
      exact Option.some.inj hinputs
    refine ⟨request, .ok said, hrequest, ?_,
      .replied hread hsecret hallowed hopens hcall hsame hreply hresponse,
      fun _ heq => henvelope.of_ok heq⟩
    simp [legacyDoor, hresponse]

/-- The engine runs as if only those had asked who bear the secret, are allowed and do not
just open a session; every request is answered at most once, by the route or with the reply
of its own call. -/
theorem outsiders_leave_no_trace
    (he : (legacyMachine engine webhookSecret allowedUserIds).exec (.open (initial engine)) acts =
      some (s, seen)) :
    (Core.Engine.machine engine).exec (initial engine)
        (acts.filterMap (handedOn (engineService engine)
          (legacyDoor webhookSecret allowedUserIds))) =
        some (s.inside, seen.filterMap Gateway.Seen.inside?) ∧
      (∀ call ∈ s.inside.calls, ∃ request ∈ acts.filterMap Gateway.Action.request?, ∃ body,
        request.read = some body ∧ request.secret = webhookSecret ∧
        Allowed allowedUserIds body ∧ ¬ Opens body ∧
        (call.userId, call.utterance) = legacyInput body) ∧
      (seen.filterMap Gateway.Seen.responder).Nodup ∧
      ∀ n response, .response n response ∈ seen → ∃ request http,
        (acts.filterMap Gateway.Action.request?)[n]? = some request ∧ response = some http ∧
        Answered webhookSecret allowedUserIds s.inside
          (place (legacyDoor webhookSecret allowedUserIds) (s.requests.take n)) request http ∧
        ∀ body, http = .ok body → Envelope body := by
  have hserved : Served (engineService engine) (legacyDoor webhookSecret allowedUserIds) s seen :=
    served engineService_lawful rfl he
  have hrequests := exec_requests he
  refine ⟨exec_inside he, fun call hcall => ?_, hserved.once, fun n response hresponse => ?_⟩
  · have hmem : (call.userId, call.utterance) ∈
        accepted (legacyDoor webhookSecret allowedUserIds) s.requests := by
      rw [← hserved.inputs]
      exact List.mem_map_of_mem hcall
    obtain ⟨request, hrequest, haccept⟩ := List.mem_filterMap.mp hmem
    have hok : (legacyDoor webhookSecret allowedUserIds).accept request =
        .ok (call.userId, call.utterance) := by
      cases hdoor : (legacyDoor webhookSecret allowedUserIds).accept request with
      | error response => simp [hdoor, Except.toOption] at haccept
      | ok input => simpa [hdoor, Except.toOption] using haccept
    obtain ⟨body, hread, hsecret, hallowed, hopens, hinput⟩ := legacyDoor_ok hok
    exact ⟨request, hrequests ▸ hrequest, body, hread, hsecret, hallowed, hopens, hinput⟩
  · obtain ⟨request, http, hrequest, hhttp, hanswered, henvelope⟩ :=
      answered_of_serves (hserved.responses hresponse)
    exact ⟨request, http, hrequests ▸ hrequest, hhttp, hanswered, henvelope⟩

/-- A stranger asks, and one who is allowed asks for help. -/
def strangerAndHelp : List (Gateway.Action HttpRequest Core.Engine.Action) :=
  [.request (postOf ['s'] ['x'] ['a'] ['?'] false),
    .request (postOf ['s'] ['u'] ['a'] "помощь".toList false),
    .inside (.task 0 .next), .inside (.task 0 .next), .respond 1]

theorem outsiders_leave_no_trace_help : ∃ s seen,
    (legacyMachine fixture ['s'] [['u']]).exec (.open (initial fixture)) strangerAndHelp =
      some (s, seen) ∧
    seen.filterMap Gateway.Seen.responder = [0, 1] ∧ s.inside.calls.length = 1 ∧
    (∀ call ∈ s.inside.calls, ∃ body, Allowed [['u']] body ∧ ¬ Opens body ∧
      (call.userId, call.utterance) = legacyInput body) ∧
    (seen.filterMap Gateway.Seen.responder).Nodup := by
  have hrun : ((legacyMachine fixture ['s'] [['u']]).exec (.open (initial fixture))
      strangerAndHelp).map (fun r => decide
        (r.2.filterMap Gateway.Seen.responder = [0, 1] ∧ r.1.inside.calls.length = 1)) =
      some true := by decide +kernel
  obtain ⟨⟨s, seen⟩, he, hend⟩ := Option.map_eq_some_iff.mp hrun
  obtain ⟨hresponders, hcalls⟩ := of_decide_eq_true hend
  obtain ⟨_, hallowed, honce, _⟩ := outsiders_leave_no_trace he
  refine ⟨s, seen, he, hresponders, hcalls, fun call hcall => ?_, honce⟩
  obtain ⟨_, _, body, _, _, hbody, hopens, hinput⟩ := hallowed call hcall
  exact ⟨body, hbody, hopens, hinput⟩

end Runs

end AliceBridge.Server.LegacyWebhook
