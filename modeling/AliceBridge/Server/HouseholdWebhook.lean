import AliceBridge.Server.PgAccess
import AliceBridge.Server.PgProgress
import AliceBridge.Server.Webhook

/-! # The webhook of the household

The route before the household engine over PostgreSQL. Every request gets one response and
no more, from the route or from its own call, and where a response may tell of a house the
account and the device it names were let into that house. -/
namespace AliceBridge.Server.HouseholdWebhook
open AliceBridge.Lib AliceBridge.Lib.Utf8 AliceBridge.Lib.Run AliceBridge.Lib.Gateway
open AliceBridge.Lib.JsonText AliceBridge.Core.Household AliceBridge.Core.HouseEngine
open AliceBridge.Core.HouseSteps AliceBridge.Protocol.Request AliceBridge.Protocol.Response
open AliceBridge.Server.HouseStore AliceBridge.Server.StateCrypto
open AliceBridge.Server.TemporaryState AliceBridge.Server.PgHouse AliceBridge.Server.PgAccess
open AliceBridge.Server.Access (codesDiffer_id)
open AliceBridge.Lib.Json (Value)
open AliceBridge.Server.PgProgress AliceBridge.Server.Routes AliceBridge.Server.Webhook

variable {δ : Type}

def replyOf : Pc → Option HouseholdReply
  | .replied reply => some reply
  | _ => none

theorem replyOf_eq_some {pc : Pc} {reply : HouseholdReply} :
    replyOf pc = some reply ↔ pc = .replied reply := by
  cases pc <;> simp [replyOf]

section
variable [DecidableEq δ] (aead : Aead) (cipher : StateCipher) (mac : Text → δ)
  (engine : HouseholdEngine)

/-- The calls of the engine, and what each of them has replied. -/
def pgService : Service (PgState δ) (PgAction δ) PgHouse.Seen HouseholdInput HouseholdReply where
  machine := pgMachine aead cipher mac engine
  arrive := .arrive
  brings
    | .arrive input => some input
    | _ => none
  inputs s := s.calls.map fun call => call.call.input
  answer s n := s.calls[n]?.bind fun call => replyOf call.call.pc

def webhookMachine (webhookSecret : Text) :
    Machine (Front (PgState δ) HttpRequest) (Gateway.Action HttpRequest (PgAction δ))
      (Gateway.Seen PgHouse.Seen (Option HttpResponse)) :=
  Gateway.machine (pgService aead cipher mac engine) (householdDoor webhookSecret)

end

variable {aead : Aead} {cipher : StateCipher} {mac : Text → δ} {engine : HouseholdEngine}

/-! ## A reply is final -/

section Steps

variable {sh sh' : PgShared δ} {c : CallId} {call call' : PgCall} {seen : List PgHouse.Seen}

theorem taskStep_replied {shared shared' : Shared} {call call' : Call} {e : Event}
    {os : List Obs} (h : TaskStep engine shared c call e shared' call' os)
    (hlocal : storeless e = true) {reply : HouseholdReply} (hpc : call.pc = .replied reply) :
    call'.pc = .replied reply := by
  cases h <;> first
    | exact hpc
    | cases hlocal; done
    | simp_all

theorem pgTaskStep_input {e : PgEvent}
    (h : pgTaskStep aead cipher mac engine sh c call e = some (sh', call', seen)) :
    call'.call.input = call.call.input := by
  by_cases hstatement : ∃ fails draw, e = .statement fails draw
  · obtain ⟨fails, draw, rfl⟩ := hstatement
    exact (statement_concerns h).1
  · exact (pgTaskStep_concerns (fun fails draw he => hstatement ⟨fails, draw, he⟩) h).1

theorem pgTaskStep_replied {e : PgEvent}
    (h : pgTaskStep aead cipher mac engine sh c call e = some (sh', call', seen))
    {reply : HouseholdReply} (hpc : call.call.pc = .replied reply) :
    call'.call.pc = .replied reply := by
  cases e with
  | statement fails draw => simp [pgTaskStep, hpc] at h
  | slot outcome nonce => simp [pgTaskStep, hpc, Pc.slotHouse] at h
  | mark outcome => simp [pgTaskStep, hpc] at h
  | threadSaved outcome =>
    simp only [pgTaskStep] at h
    obtain ⟨work, hwork, h⟩ := Option.bind_eq_some_iff.mp h
    split at h
    · split at h <;>
      · obtain ⟨rfl, hrest⟩ := Prod.mk.inj (Option.some.inj h)
        obtain ⟨rfl, rfl⟩ := Prod.mk.inj hrest
        exact hpc
    · cases h
  | watcherStore outcome nonce =>
    simp only [pgTaskStep] at h
    obtain ⟨work, hwork, h⟩ := Option.bind_eq_some_iff.mp h
    obtain ⟨watcher, _, h⟩ := Option.bind_eq_some_iff.mp h
    split at h
    case h_3 => cases h
    all_goals
      obtain ⟨rfl, hrest⟩ := Prod.mk.inj (Option.some.inj h)
      obtain ⟨rfl, rfl⟩ := Prod.mk.inj hrest
      exact hpc
  | «local» e =>
    simp only [pgTaskStep] at h
    split at h
    next hlocal =>
      obtain ⟨⟨shared, call'', os⟩, hstep, h⟩ := Option.map_eq_some_iff.mp h
      obtain ⟨rfl, hrest⟩ := Prod.mk.inj h
      obtain ⟨rfl, rfl⟩ := Prod.mk.inj hrest
      exact taskStep_replied (taskStep_sound hstep) hlocal hpc
    next => cases h

end Steps

theorem pgService_lawful [DecidableEq δ] : (pgService aead cipher mac engine).Lawful where
  brings_arrive _ := rfl
  inputs_step := by
    intro s a s' os h
    dsimp only [pgService, pgMachine] at h ⊢
    cases a with
    | arrive input =>
      obtain ⟨rfl, rfl⟩ := Prod.mk.inj (Option.some.inj h)
      simp
    | command command =>
      simp only [pgStep] at h
      split at h
      · obtain ⟨r, _, hr⟩ := Option.map_eq_some_iff.mp h
        obtain ⟨rfl, rfl⟩ := Prod.mk.inj hr
        simp
      · cases h
    | task c e =>
      simp only [pgStep] at h
      obtain ⟨call, hcall, h⟩ := Option.bind_eq_some_iff.mp h
      obtain ⟨⟨sh', call', os'⟩, htask, hr⟩ := Option.bind_eq_some_iff.mp h
      obtain ⟨rfl, rfl⟩ := Prod.mk.inj (Option.some.inj hr)
      rw [Option.toList_none, List.append_nil]
      exact map_set_same hcall (pgTaskStep_input htask)
  answer_step := by
    intro s a s' os n reply h hreply
    dsimp only [pgService, pgMachine] at h hreply ⊢
    obtain ⟨call, hcall, hreply⟩ := Option.bind_eq_some_iff.mp hreply
    have hpc := replyOf_eq_some.mp hreply
    obtain ⟨hlt, _⟩ := List.getElem?_eq_some_iff.mp hcall
    cases a with
    | arrive input =>
      obtain ⟨rfl, rfl⟩ := Prod.mk.inj (Option.some.inj h)
      rw [List.getElem?_append_left hlt, hcall]
      exact hreply
    | command command =>
      simp only [pgStep] at h
      split at h
      · obtain ⟨r, _, hr⟩ := Option.map_eq_some_iff.mp h
        obtain ⟨rfl, rfl⟩ := Prod.mk.inj hr
        rw [hcall]
        exact hreply
      · cases h
    | task c e =>
      simp only [pgStep] at h
      obtain ⟨mover, hmover, h⟩ := Option.bind_eq_some_iff.mp h
      obtain ⟨⟨sh', call', os'⟩, htask, hr⟩ := Option.bind_eq_some_iff.mp h
      obtain ⟨rfl, rfl⟩ := Prod.mk.inj (Option.some.inj hr)
      by_cases hc : c = n
      · subst hc
        obtain rfl := Option.some.inj (hmover.symm.trans hcall)
        rw [List.getElem?_set_self hlt]
        exact replyOf_eq_some.mpr (pgTaskStep_replied htask hpc)
      · rw [List.getElem?_set_ne hc, hcall]
        exact hreply

/-! ## What the door says -/

theorem householdDoor_error {webhookSecret : Text} {request : HttpRequest}
    {response : Option HttpResponse}
    (h : (householdDoor webhookSecret).accept request = .error response) :
    request.read = none ∧ response = some .rejected ∨
      (∃ body, request.read = some body ∧ request.secret ≠ webhookSecret ∧
        response = some .notFound) ∨
      ∃ body, request.read = some body ∧ request.secret = webhookSecret ∧
        body.session.user = none ∧
        response = (WebhookResponse.sayAndClose householdRefusal).map .ok := by
  simp only [householdDoor] at h
  split at h
  next answer hentry =>
    obtain rfl := Except.error.inj h
    rcases entry_error hentry with ⟨hread, rfl⟩ | ⟨body, hread, hsecret, rfl⟩
    · exact .inl ⟨hread, rfl⟩
    · exact .inr (.inl ⟨body, hread, hsecret, rfl⟩)
  next body hentry =>
    obtain ⟨hread, hsecret⟩ := entry_ok.mp hentry
    split at h
    next huser =>
      obtain rfl := Except.error.inj h
      exact .inr (.inr ⟨body, hread, hsecret, huser, rfl⟩)
    next => cases h

theorem householdDoor_ok {webhookSecret : Text} {request : HttpRequest}
    {input : HouseholdInput}
    (h : (householdDoor webhookSecret).accept request = .ok input) :
    ∃ body user, request.read = some body ∧ request.secret = webhookSecret ∧
      body.session.user = some user ∧ input = householdInput body user := by
  simp only [householdDoor] at h
  split at h
  next => cases h
  next body hentry =>
    obtain ⟨hread, hsecret⟩ := entry_ok.mp hentry
    split at h
    next => cases h
    next user huser =>
      obtain rfl := Except.ok.inj h
      exact ⟨body, user, hread, hsecret, huser, rfl⟩

/-! ## One response a request -/

/-- What a request is answered with that comes in this place among the calls. -/
inductive Answered (webhookSecret : Text) (s : PgState δ) (place : CallId)
    (request : HttpRequest) : HttpResponse → Prop
  | rejected : request.read = none → Answered webhookSecret s place request .rejected
  | notFound {body : WebhookRequest} : request.read = some body →
      request.secret ≠ webhookSecret → Answered webhookSecret s place request .notFound
  | stranger {body : WebhookRequest} {response : WebhookResponse} : request.read = some body →
      request.secret = webhookSecret → body.session.user = none →
      WebhookResponse.sayAndClose householdRefusal = some response →
      Answered webhookSecret s place request (.ok response)
  | replied {body : WebhookRequest} {user : AccountUser} {call : PgCall} {reply : HouseholdReply}
      {response : WebhookResponse} : request.read = some body →
      request.secret = webhookSecret → body.session.user = some user →
      s.calls[place]? = some call → call.call.input = householdInput body user →
      call.call.pc = .replied reply → householdResponse reply = some response →
      Answered webhookSecret s place request (.ok response)

section Runs

variable [DecidableEq δ] {webhookSecret : Text} {s : Front (PgState δ) HttpRequest}
  {seen : List (Gateway.Seen PgHouse.Seen (Option HttpResponse))}
  {db : Db δ} {temp : TempDb} {clock : Nat}
  {acts : List (Gateway.Action HttpRequest (PgAction δ))}

theorem served_requests
    (he : (webhookMachine aead cipher mac engine webhookSecret).exec
      (.open (.start db temp clock)) acts = some (s, seen)) :
    Served (pgService aead cipher mac engine) (householdDoor webhookSecret) s seen :=
  served pgService_lawful rfl he

/-- What serves a request is an answer to it, in an envelope. -/
theorem answered_of_serves {n : Nat} {response : Option HttpResponse}
    (h : Serves (pgService aead cipher mac engine) (householdDoor webhookSecret) s n response) :
    ∃ request http, s.requests[n]? = some request ∧ response = some http ∧
      Answered webhookSecret s.inside (place (householdDoor webhookSecret) (s.requests.take n))
        request http ∧ ∀ body, http = .ok body → Envelope body := by
  cases h with
  | @refused request _ hrequest haccept =>
    rcases householdDoor_error haccept with ⟨hread, rfl⟩ | ⟨body, hread, hsecret, rfl⟩ |
      ⟨body, hread, hsecret, huser, rfl⟩
    · exact ⟨request, _, hrequest, rfl, .rejected hread, fun _ heq => by cases heq⟩
    · exact ⟨request, _, hrequest, rfl, .notFound hread hsecret, fun _ heq => by cases heq⟩
    · obtain ⟨response, hclosed, henvelope⟩ := sayAndClose_envelope householdRefusal
      exact ⟨request, .ok response, hrequest, by rw [hclosed]; rfl,
        .stranger hread hsecret huser hclosed, fun _ heq => henvelope.of_ok heq⟩
  | @answered request input reply hrequest haccept hinput hanswer =>
    obtain ⟨body, user, hread, hsecret, huser, rfl⟩ := householdDoor_ok haccept
    obtain ⟨call, hcall, hreply⟩ := Option.bind_eq_some_iff.mp hanswer
    obtain ⟨response, hresponse, henvelope⟩ := householdResponse_envelope reply
    have hsame : call.call.input = householdInput body user := by
      have hinputs : ((s.inside.calls.map fun call => call.call.input)[place
          (householdDoor webhookSecret) (s.requests.take n)]?) =
            some (householdInput body user) := hinput
      rw [List.getElem?_map, hcall] at hinputs
      exact Option.some.inj hinputs
    refine ⟨request, .ok response, hrequest, ?_,
      .replied hread hsecret huser hcall hsame (replyOf_eq_some.mp hreply) hresponse,
      fun _ heq => henvelope.of_ok heq⟩
    simp [householdDoor, hresponse]

/-- Every request is answered at most once, by the route or with the reply of its own
call, and the text of the answer is read as that answer. -/
theorem one_response_each
    (he : (webhookMachine aead cipher mac engine webhookSecret).exec
      (.open (.start db temp clock)) acts = some (s, seen)) :
    s.requests = acts.filterMap Gateway.Action.request? ∧
      (seen.filterMap Gateway.Seen.responder).Nodup ∧
      ∀ n response, .response n response ∈ seen → ∃ request http,
        s.requests[n]? = some request ∧ response = some http ∧
        Answered webhookSecret s.inside (place (householdDoor webhookSecret) (s.requests.take n))
          request http ∧
        ∀ body, http = .ok body → Envelope body ∧ ∀ floats : Floats, ∃ value,
          parse floats (print floats (WebhookResponse.toJson body)) = some value ∧
            ReadsAs value body := by
  have hserved := served_requests he
  refine ⟨exec_requests he, hserved.once, fun n response hresponse => ?_⟩
  obtain ⟨request, http, hrequest, hhttp, hanswered, henvelope⟩ :=
    answered_of_serves (hserved.responses hresponse)
  exact ⟨request, http, hrequest, hhttp, hanswered, fun body heq =>
    ⟨henvelope body heq, fun floats => response_read_back floats body⟩⟩

/-! ## Every request in the end -/

/-- Where nothing ordinary is left to do, every request has had its response. -/
theorem all_answered_at_rest (hlawful : aead.Lawful)
    (he : (webhookMachine aead cipher mac engine webhookSecret).exec
      (.open (.start db temp clock)) acts = some (s, seen))
    (hcalls : ∀ c e, ordinary e = true →
      (webhookMachine aead cipher mac engine webhookSecret).step s (.inside (.task c e)) = none)
    (hresponses : ∀ n,
      (webhookMachine aead cipher mac engine webhookSecret).step s (.respond n) = none) :
    ∀ n < s.requests.length, ∃ response, .response n response ∈ seen := by
  have hinside := exec_inside he
  have hstuck : ∀ c e, ordinary e = true →
      (pgMachine aead cipher mac engine).step s.inside (.task c e) = none := by
    intro c e hordinary
    have hnone := hcalls c e hordinary
    simpa [webhookMachine, Gateway.machine, Gateway.step, pgService] using hnone
  obtain ⟨hrest, _⟩ := rests_of_stuck hlawful hinside hstuck
  have hanswers : ∀ call < ((pgService aead cipher mac engine).inputs s.inside).length,
      ((pgService aead cipher mac engine).answer s.inside call).isSome = true := by
    intro c hlt
    have hlt' : c < s.inside.calls.length := by simpa [pgService] using hlt
    obtain ⟨reply, hreply⟩ := (hrest s.inside.calls[c] (List.getElem_mem hlt')).replied
    simp [pgService, hlt', hreply, replyOf]
  intro n hn
  exact (served_requests he).all hanswers hresponses n (by simpa [Front.requests] using hn)

/-! ## Who hears of a house -/

/-- A reply that may tell of a house. -/
def Speaks : HouseholdReply → Prop
  | .say _ | .busy => True
  | _ => False

theorem taskStep_speaks {shared shared' : Shared} {c : CallId} {call call' : Call} {e : Event}
    {os : List Obs} (h : TaskStep engine shared c call e shared' call' os)
    (hlocal : storeless e = true) {reply : HouseholdReply} (hpc : call'.pc = .replied reply)
    (hspeaks : Speaks reply) : call.pc = .replied reply ∨ ∃ houseId, Concerns call houseId := by
  cases h with
  | bound | unbound | slot | marked | markFailed | saved | saveFailed | readySaved
  | pendingCleared => cases hlocal
  | busy hpc' => exact .inr ⟨_, .inl (by rw [hpc']; rfl)⟩
  | watch _ hwork => exact .inr ⟨_, .inr ⟨_, hwork, rfl⟩⟩
  | joinedLost =>
    obtain rfl := Pc.replied.inj hpc
    exact hspeaks.elim
  | lockFound | lockMade | locked | joinedText | deadline => cases hpc
  | turnKnown | startCalled | started | answered | runtimeFailed | dropped | watcherText
  | watcherLost => exact .inl hpc

omit [DecidableEq δ] in
/-- A call comes to speak where it concerns a house. -/
theorem pgTaskStep_speaks {sh sh' : PgShared δ} {c : CallId} {call call' : PgCall}
    {more : List PgHouse.Seen} {e : PgEvent}
    (h : pgTaskStep aead cipher mac engine sh c call e = some (sh', call', more))
    {reply : HouseholdReply} (hpc : call'.call.pc = .replied reply) (hspeaks : Speaks reply) :
    call.call.pc = .replied reply ∨ ∃ houseId, Concerns call.call houseId := by
  cases e with
  | statement fails draw =>
    simp only [pgTaskStep] at h
    split at h
    next =>
      split at h
      next =>
        obtain ⟨rfl, hrest⟩ := Prod.mk.inj (Option.some.inj h)
        obtain ⟨rfl, rfl⟩ := Prod.mk.inj hrest
        exact .inl hpc
      next result _ =>
        obtain ⟨rfl, hrest⟩ := Prod.mk.inj (Option.some.inj h)
        obtain ⟨rfl, rfl⟩ := Prod.mk.inj hrest
        have hafter : afterResolve result = .replied reply := hpc
        unfold afterResolve at hafter
        split at hafter
        · cases hafter
        all_goals
          obtain rfl := Pc.replied.inj hafter
          exact hspeaks.elim
    next => cases h
  | slot outcome nonce =>
    simp only [pgTaskStep] at h
    obtain ⟨houseId, hhouse, _⟩ := Option.bind_eq_some_iff.mp h
    exact .inr ⟨houseId, .inl (slotHouse_pcHouse hhouse)⟩
  | mark outcome =>
    simp only [pgTaskStep] at h
    split at h
    next =>
      split at h
      · obtain ⟨rfl, hrest⟩ := Prod.mk.inj (Option.some.inj h)
        obtain ⟨rfl, rfl⟩ := Prod.mk.inj hrest
        cases hpc
      · obtain ⟨rfl, hrest⟩ := Prod.mk.inj (Option.some.inj h)
        obtain ⟨rfl, rfl⟩ := Prod.mk.inj hrest
        obtain rfl := Pc.replied.inj hpc
        exact hspeaks.elim
    next => cases h
  | threadSaved outcome =>
    simp only [pgTaskStep] at h
    obtain ⟨work, hwork, h⟩ := Option.bind_eq_some_iff.mp h
    split at h
    · split at h <;>
      · obtain ⟨rfl, hrest⟩ := Prod.mk.inj (Option.some.inj h)
        obtain ⟨rfl, rfl⟩ := Prod.mk.inj hrest
        exact .inl hpc
    · cases h
  | watcherStore outcome nonce =>
    simp only [pgTaskStep] at h
    obtain ⟨work, hwork, h⟩ := Option.bind_eq_some_iff.mp h
    obtain ⟨watcher, _, h⟩ := Option.bind_eq_some_iff.mp h
    split at h
    case h_3 => cases h
    all_goals
      obtain ⟨rfl, hrest⟩ := Prod.mk.inj (Option.some.inj h)
      obtain ⟨rfl, rfl⟩ := Prod.mk.inj hrest
      exact .inl hpc
  | «local» e =>
    simp only [pgTaskStep] at h
    split at h
    next hlocal =>
      obtain ⟨⟨shared, call'', os⟩, hstep, h⟩ := Option.map_eq_some_iff.mp h
      obtain ⟨rfl, hrest⟩ := Prod.mk.inj h
      obtain ⟨rfl, rfl⟩ := Prod.mk.inj hrest
      exact taskStep_speaks (taskStep_sound hstep) hlocal hpc hspeaks
    next => cases h

/-- Whoever speaks was let into a house. -/
structure SpeakersVouched (s : PgState δ) (seen : List PgHouse.Seen) : Prop where
  vouched : CallsVouched s seen
  speakers : ∀ {c : CallId} {call : PgCall} {reply : HouseholdReply}, s.calls[c]? = some call →
    call.call.pc = .replied reply → Speaks reply →
    ∃ houseId, Vouched seen c call.call.input.identity houseId

theorem speakersVouched_step {s s' : PgState δ} {a : PgAction δ} {seen more : List PgHouse.Seen}
    (h : SpeakersVouched s seen)
    (hstep : (pgMachine aead cipher mac engine).step s a = some (s', more)) :
    SpeakersVouched s' (seen ++ more) := by
  refine ⟨callsVouched_step h.vouched hstep, fun {c call reply} hcall hpc hspeaks => ?_⟩
  have hkept : ∀ {c : CallId} {call : PgCall}, s.calls[c]? = some call →
      call.call.pc = .replied reply →
        ∃ houseId, Vouched (seen ++ more) c call.call.input.identity houseId := by
    intro c call hcall hpc
    obtain ⟨houseId, hvouched⟩ := h.speakers hcall hpc hspeaks
    exact ⟨houseId, hvouched.mono⟩
  dsimp only [pgMachine] at hstep
  cases a with
  | arrive input =>
    obtain ⟨rfl, rfl⟩ := Prod.mk.inj (Option.some.inj hstep)
    rw [List.getElem?_append] at hcall
    split at hcall
    · exact hkept hcall hpc
    · obtain rfl := List.mem_singleton.mp (List.mem_of_getElem? hcall)
      cases hpc
  | command command =>
    simp only [pgStep] at hstep
    split at hstep
    · obtain ⟨r, _, hr⟩ := Option.map_eq_some_iff.mp hstep
      obtain ⟨rfl, rfl⟩ := Prod.mk.inj hr
      exact hkept hcall hpc
    · cases hstep
  | task c' e =>
    simp only [pgStep] at hstep
    obtain ⟨mover, hmover, hstep⟩ := Option.bind_eq_some_iff.mp hstep
    obtain ⟨⟨sh', call', os⟩, htask, hr⟩ := Option.bind_eq_some_iff.mp hstep
    obtain ⟨rfl, rfl⟩ := Prod.mk.inj (Option.some.inj hr)
    obtain ⟨hlt, _⟩ := List.getElem?_eq_some_iff.mp hmover
    by_cases hc : c' = c
    · subst hc
      rw [List.getElem?_set_self hlt] at hcall
      obtain rfl := Option.some.inj hcall
      rw [pgTaskStep_input htask]
      rcases pgTaskStep_speaks htask hpc hspeaks with hpc' | ⟨houseId, hconcerns⟩
      · exact hkept hmover hpc'
      · exact ⟨houseId, (h.vouched.calls hmover hconcerns).mono⟩
    · rw [List.getElem?_set_ne hc] at hcall
      exact hkept hcall hpc

/-- A response that tells of no house. -/
inductive Discreet : HttpResponse → Prop
  | rejected : Discreet .rejected
  | notFound : Discreet .notFound
  | refusal {body : WebhookResponse} :
      WebhookResponse.sayAndClose householdRefusal = some body → Discreet (.ok body)
  | reply {reply : HouseholdReply} {body : WebhookResponse} : ¬ Speaks reply →
      householdResponse reply = some body → Discreet (.ok body)

/-- In a run from empty tables a response tells of no house, or its request bore the secret
and named an account and a device that its own call found let into a house: the account a
member added last, the device approved by the owner and not disabled since. -/
theorem only_granted_hear (hmac : Access.CodesDiffer mac)
    (he : (webhookMachine aead cipher mac engine webhookSecret).exec
      (.open (.start Db.empty temp 0)) acts = some (s, seen)) {n : Nat} {http : HttpResponse}
    (hresponse : .response n (some http) ∈ seen) :
    Discreet http ∨ ∃ request body user earlier time house later,
      s.requests[n]? = some request ∧ request.read = some body ∧
      request.secret = webhookSecret ∧ body.session.user = some user ∧
      seen.filterMap Gateway.Seen.inside? = earlier ++ .resolved
        (place (householdDoor webhookSecret) (s.requests.take n))
        ⟨user.userId, body.session.application.applicationId⟩ time (.ok (.bound house)) :: later ∧
      Access.lastMember house.id user.userId (earlier.filterMap PgHouse.Seen.access?) =
        some .add ∧
      Access.Granted house.id body.session.application.applicationId user.userId
        (earlier.filterMap PgHouse.Seen.access?) := by
  obtain ⟨request, _, hrequest, hhttp, hanswered, _⟩ :=
    answered_of_serves ((served_requests he).responses hresponse)
  obtain rfl := Option.some.inj hhttp
  cases hanswered with
  | rejected => exact .inl .rejected
  | notFound => exact .inl .notFound
  | stranger _ _ _ hclosed => exact .inl (.refusal hclosed)
  | @replied body user call reply response hread hsecret huser hcall hinput hpc hreply =>
    by_cases hspeaks : Speaks reply
    · have hinside := exec_inside he
      have hvouched : SpeakersVouched s.inside (seen.filterMap Gateway.Seen.inside?) :=
        Machine.exec_invariant_free SpeakersVouched speakersVouched_step
          ⟨⟨by simp [PgState.start, Front.open], Each.nil⟩,
            by simp [PgState.start, Front.open]⟩ hinside
      have haccounted : TablesAccounted mac s.inside (seen.filterMap Gateway.Seen.inside?) :=
        Machine.exec_invariant_free (TablesAccounted mac) (accounted_step hmac)
          (show TablesAccounted mac (PgState.start Db.empty temp 0) [] from
            Access.accounted_start.frame rfl (Nat.le_refl _)) hinside
      obtain ⟨houseId, time, house, hmem, _⟩ := hvouched.speakers hcall hpc hspeaks
      rw [hinput] at hmem
      obtain ⟨earlier, later, hsplit⟩ := List.append_of_mem hmem
      have hevents : (seen.filterMap Gateway.Seen.inside?).filterMap PgHouse.Seen.access? =
          earlier.filterMap PgHouse.Seen.access? ++
            .resolved (householdInput body user).identity time (.ok (.bound house)) ::
              later.filterMap PgHouse.Seen.access? := by
        rw [hsplit]
        simp [List.filterMap_append, PgHouse.Seen.access?]
      obtain ⟨hmember, hgranted⟩ := haccounted.justified _ _ _ hevents
      exact .inr ⟨request, body, user, earlier, time, house, later, hrequest, hread, hsecret,
        huser, hsplit, hmember, hgranted⟩
    · exact .inl (.reply hspeaks hreply)

end Runs

/-! ## An evening at the door -/

/-- The arrivals come as requests. -/
def atTheDoor (secret : Text) : PgAction Text → Gateway.Action HttpRequest (PgAction Text)
  | .arrive input => .request (postOf secret input.identity.userId input.identity.applicationId
      input.utterance input.newSession)
  | action => .inside action

/-- A request without the secret, and the two of the evening. -/
def eveningAtTheDoor : List (Gateway.Action HttpRequest (PgAction Text)) :=
  .request (postOf ['x'] ['u'] ['a'] ['?'] false) ::
    evening.map (atTheDoor ['s']) ++ [.respond 1, .respond 2]

def eveningMachine : Machine (Front (PgState Text) HttpRequest)
    (Gateway.Action HttpRequest (PgAction Text))
    (Gateway.Seen PgHouse.Seen (Option HttpResponse)) :=
  webhookMachine plainAead zeroCipher (id : Text → Text) ⟨⟨850, by decide⟩, false⟩ ['s']

/-- The reply of the evening. -/
def spokenReply : WebhookResponse := ⟨⟨['!'], some ['!'], false⟩, ['1', '.', '0']⟩

def responseOf : Gateway.Seen PgHouse.Seen (Option HttpResponse) →
    Option (Nat × Option HttpResponse)
  | .response n response => some (n, response)
  | .inside _ => none

theorem mem_responseOf {seen : List (Gateway.Seen PgHouse.Seen (Option HttpResponse))} {n : Nat}
    {response : Option HttpResponse} (h : (n, response) ∈ seen.filterMap responseOf) :
    .response n response ∈ seen := by
  obtain ⟨x, hmem, hx⟩ := List.mem_filterMap.mp h
  cases x with
  | inside o => cases hx
  | response m other =>
    obtain ⟨rfl, rfl⟩ := Prod.mk.inj (Option.some.inj hx)
    exact hmem

/-- How the evening ends: the responses, the steps left and the handlers waiting. -/
theorem eveningMachine_runs : ∃ s seen,
    eveningMachine.exec (.open (.start Db.empty TempDb.empty 0)) eveningAtTheDoor =
      some (s, seen) ∧
    .response 0 (some .notFound) ∈ seen ∧ .response 2 (some (.ok spokenReply)) ∈ seen ∧
    s.requests.length = 3 ∧ (∀ call ∈ s.inside.calls, rank call = 0) ∧
    ∀ handler ∈ s.handlers, handler.awaits = none := by
  have hrun : (eveningMachine.exec (.open (.start Db.empty TempDb.empty 0))
      eveningAtTheDoor).map (fun r => decide
        ((0, some .notFound) ∈ r.2.filterMap responseOf ∧
          (2, some (.ok spokenReply)) ∈ r.2.filterMap responseOf ∧
          r.1.requests.length = 3 ∧ (∀ call ∈ r.1.inside.calls, rank call = 0) ∧
          ∀ handler ∈ r.1.handlers, handler.awaits = none)) = some true := by decide +kernel
  obtain ⟨⟨s, seen⟩, he, hend⟩ := Option.map_eq_some_iff.mp hrun
  obtain ⟨hfirst, hlast, hlength, hranks, hhandlers⟩ := of_decide_eq_true hend
  exact ⟨s, seen, he, mem_responseOf hfirst, mem_responseOf hlast, hlength, hranks, hhandlers⟩

theorem one_response_each_evening : ∃ s seen,
    eveningMachine.exec (.open (.start Db.empty TempDb.empty 0)) eveningAtTheDoor =
      some (s, seen) ∧
    .response 2 (some (.ok spokenReply)) ∈ seen ∧
    (seen.filterMap Gateway.Seen.responder).Nodup ∧ Envelope spokenReply := by
  obtain ⟨s, seen, he, _, hlast, _⟩ := eveningMachine_runs
  obtain ⟨_, honce, heach⟩ := one_response_each he
  obtain ⟨_, http, _, hhttp, _, hbody⟩ := heach 2 _ hlast
  obtain rfl := Option.some.inj hhttp
  exact ⟨s, seen, he, hlast, honce, (hbody spokenReply rfl).1⟩

theorem all_answered_at_rest_evening : ∃ s seen,
    eveningMachine.exec (.open (.start Db.empty TempDb.empty 0)) eveningAtTheDoor =
      some (s, seen) ∧
    s.requests.length = 3 ∧ ∀ n < 3, ∃ response, .response n response ∈ seen := by
  obtain ⟨s, seen, he, _, _, hlength, hranks, hhandlers⟩ := eveningMachine_runs
  have hcalls : ∀ c e, ordinary e = true →
      eveningMachine.step s (.inside (.task c e)) = none := by
    intro c e _
    have hnone : (pgMachine plainAead zeroCipher (id : Text → Text)
        ⟨⟨850, by decide⟩, false⟩).step s.inside (.task c e) = none := no_step_left hranks c e
    simp [eveningMachine, webhookMachine, Gateway.machine, Gateway.step, pgService, hnone]
  have hall := all_answered_at_rest plainAead_lawful he hcalls (no_response_left hhandlers)
  exact ⟨s, seen, he, hlength, fun n hn => hall n (hlength ▸ hn)⟩

theorem only_granted_hear_evening : ∃ s seen,
    eveningMachine.exec (.open (.start Db.empty TempDb.empty 0)) eveningAtTheDoor =
      some (s, seen) ∧
    (Discreet (.ok spokenReply) ∨ ∃ request body user earlier time house later,
      s.requests[2]? = some request ∧ request.read = some body ∧
      request.secret = ['s'] ∧ body.session.user = some user ∧
      seen.filterMap Gateway.Seen.inside? = earlier ++ .resolved
        (place (householdDoor ['s']) (s.requests.take 2))
        ⟨user.userId, body.session.application.applicationId⟩ time (.ok (.bound house)) :: later ∧
      Access.lastMember house.id user.userId (earlier.filterMap PgHouse.Seen.access?) =
        some .add ∧
      Access.Granted house.id body.session.application.applicationId user.userId
        (earlier.filterMap PgHouse.Seen.access?)) := by
  obtain ⟨s, seen, he, _, hlast, _⟩ := eveningMachine_runs
  exact ⟨s, seen, he, only_granted_hear codesDiffer_id he hlast⟩

end AliceBridge.Server.HouseholdWebhook
