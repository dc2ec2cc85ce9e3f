import Mathlib.Data.List.Nodup
import AliceBridge.Lib.Simulation

/-! # A door before a service

A service is a machine that takes inputs as calls and answers each call in its own time. A
request at the door of a service is turned away at once, with a response of its own, or
handed on as one more call, and that call's answer makes its response. The door shows
what the service shows and the responses.

A run at the door is a run of the service on what was handed on (`exec_inside`), each
request is answered at most once and from its own call (`served`), and where every call
has its answer and no response is possible any more, every request has its response
(`Served.all`). -/
namespace AliceBridge.Lib.Gateway
open AliceBridge.Lib.Run

variable {σ α ω ι ρ κ π : Type*}

structure Service (σ α ω ι ρ : Type*) where
  machine : Machine σ α ω
  arrive : ι → α
  /-- The input of an arrival. -/
  brings : α → Option ι
  /-- The inputs of the calls, in the order of their arrival. -/
  inputs : σ → List ι
  answer : σ → Nat → Option ρ

structure Service.Lawful (S : Service σ α ω ι ρ) : Prop where
  brings_arrive : ∀ input, S.brings (S.arrive input) = some input
  inputs_step : ∀ {s a s' os}, S.machine.step s a = some (s', os) →
    S.inputs s' = S.inputs s ++ (S.brings a).toList
  answer_step : ∀ {s a s' os n answer}, S.machine.step s a = some (s', os) →
    S.answer s n = some answer → S.answer s' n = some answer

/-- Whom a door lets in, what it tells the others, and how it puts an answer. -/
structure Door (κ ι ρ π : Type*) where
  accept : κ → Except π ι
  respond : ρ → π

/-- A request, and the call whose answer it waits for. -/
structure Handler (κ : Type*) where
  request : κ
  awaits : Option Nat

structure Front (σ κ : Type*) where
  inside : σ
  handlers : List (Handler κ)

inductive Action (κ α : Type*) where
  | request (request : κ)
  | inside (action : α)
  | respond (n : Nat)

def Action.request? : Action κ α → Option κ
  | .request posted => some posted
  | _ => none

inductive Seen (ω π : Type*) where
  | inside (o : ω)
  | response (n : Nat) (response : π)

def Seen.inside? : Seen ω π → Option ω
  | .inside o => some o
  | .response .. => none

/-- The request that was answered. -/
def Seen.responder : Seen ω π → Option Nat
  | .inside _ => none
  | .response n _ => some n

def Front.open (inside : σ) : Front σ κ := ⟨inside, []⟩

def Front.requests (s : Front σ κ) : List κ := s.handlers.map Handler.request

section
variable (S : Service σ α ω ι ρ) (D : Door κ ι ρ π)

def step (s : Front σ κ) : Action κ α → Option (Front σ κ × List (Seen ω π))
  | .request request =>
    match D.accept request with
    | .error response =>
      some ({ s with handlers := s.handlers ++ [⟨request, none⟩] },
        [.response s.handlers.length response])
    | .ok input =>
      (S.machine.step s.inside (S.arrive input)).map fun r =>
        ({ inside := r.1
           handlers := s.handlers ++ [⟨request, some (S.inputs s.inside).length⟩] },
          r.2.map .inside)
  | .inside action =>
    if (S.brings action).isNone then
      (S.machine.step s.inside action).map fun r => ({ s with inside := r.1 }, r.2.map .inside)
    else none
  | .respond n =>
    s.handlers[n]?.bind fun handler =>
      handler.awaits.bind fun call =>
        (S.answer s.inside call).map fun answer =>
          ({ s with handlers := s.handlers.set n { handler with awaits := none } },
            [.response n (D.respond answer)])

def machine : Machine (Front σ κ) (Action κ α) (Seen ω π) := ⟨step S D⟩

/-- What an action at the door is to the service. -/
def handedOn : Action κ α → Option α
  | .request request => (D.accept request).toOption.map S.arrive
  | .inside action => some action
  | .respond _ => none

/-- The inputs of the requests that were let in. -/
def accepted (requests : List κ) : List ι :=
  requests.filterMap fun request => (D.accept request).toOption

/-- The place among the calls of what comes after these requests. -/
def place (requests : List κ) : Nat := (accepted D requests).length

/-- What the request is answered with: the word of the door, or the answer to its own call. -/
inductive Serves (s : Front σ κ) (n : Nat) : π → Prop
  | refused {request : κ} {response : π} : s.requests[n]? = some request →
      D.accept request = .error response → Serves s n response
  | answered {request : κ} {input : ι} {answer : ρ} : s.requests[n]? = some request →
      D.accept request = .ok input →
      (S.inputs s.inside)[place D (s.requests.take n)]? = some input →
      S.answer s.inside (place D (s.requests.take n)) = some answer →
      Serves s n (D.respond answer)

/-- What holds of the requests at the door, whatever the service does. -/
structure Served (s : Front σ κ) (seen : List (Seen ω π)) : Prop where
  inputs : S.inputs s.inside = accepted D s.requests
  waits : ∀ {n handler call}, s.handlers[n]? = some handler → handler.awaits = some call →
    call = place D (s.requests.take n) ∧ (∃ input, D.accept handler.request = .ok input) ∧
      n ∉ seen.filterMap Seen.responder
  done : ∀ {n handler}, s.handlers[n]? = some handler → handler.awaits = none →
    n ∈ seen.filterMap Seen.responder
  responses : ∀ {n response}, .response n response ∈ seen → Serves S D s n response
  once : (seen.filterMap Seen.responder).Nodup

end

variable {S : Service σ α ω ι ρ} {D : Door κ ι ρ π}

theorem filterMap_inside (os : List ω) :
    (os.map Seen.inside : List (Seen ω π)).filterMap Seen.inside? = os := by
  simp [List.filterMap_map, Function.comp_def, Seen.inside?]

theorem filterMap_inside_responder (os : List ω) :
    (os.map Seen.inside : List (Seen ω π)).filterMap Seen.responder = [] := by
  simp [List.filterMap_map, Function.comp_def, Seen.responder]

theorem mem_responder {seen : List (Seen ω π)} {n : Nat} :
    n ∈ seen.filterMap Seen.responder ↔ ∃ response, .response n response ∈ seen := by
  rw [List.mem_filterMap]
  constructor
  · rintro ⟨x, hmem, hx⟩
    cases x with
    | inside o => cases hx
    | response m response =>
      obtain rfl := Option.some.inj hx
      exact ⟨response, hmem⟩
  · rintro ⟨response, hmem⟩
    exact ⟨_, hmem, rfl⟩

/-! ## The service behind the door -/

/-- A step at the door is at most one step of the service. -/
theorem step_inside {s s' : Front σ κ} {a : Action κ α} {seen : List (Seen ω π)}
    (h : (machine S D).step s a = some (s', seen)) :
    S.machine.exec s.inside (handedOn S D a).toList =
      some (s'.inside, seen.filterMap Seen.inside?) := by
  dsimp only [machine] at h
  cases a with
  | request request =>
    simp only [step] at h
    split at h
    next response haccept =>
      obtain ⟨rfl, rfl⟩ := Prod.mk.inj (Option.some.inj h)
      simp [handedOn, haccept, Except.toOption, Machine.exec, Seen.inside?]
    next input haccept =>
      obtain ⟨r, hr, hs⟩ := Option.map_eq_some_iff.mp h
      obtain ⟨rfl, rfl⟩ := Prod.mk.inj hs
      rw [filterMap_inside]
      simp [handedOn, haccept, Except.toOption, Machine.exec, hr]
  | inside action =>
    simp only [step] at h
    split at h
    · obtain ⟨r, hr, hs⟩ := Option.map_eq_some_iff.mp h
      obtain ⟨rfl, rfl⟩ := Prod.mk.inj hs
      rw [filterMap_inside]
      simp [handedOn, Machine.exec, hr]
    · cases h
  | respond n =>
    simp only [step] at h
    obtain ⟨handler, _, h⟩ := Option.bind_eq_some_iff.mp h
    obtain ⟨call, _, h⟩ := Option.bind_eq_some_iff.mp h
    obtain ⟨answer, _, h⟩ := Option.map_eq_some_iff.mp h
    obtain ⟨rfl, rfl⟩ := Prod.mk.inj h
    simp [handedOn, Machine.exec, Seen.inside?]

/-- The service runs as if what was handed on had been all there was. -/
theorem exec_inside {s s' : Front σ κ} {acts : List (Action κ α)} {seen : List (Seen ω π)}
    (he : (machine S D).exec s acts = some (s', seen)) :
    S.machine.exec s.inside (acts.filterMap (handedOn S D)) =
      some (s'.inside, seen.filterMap Seen.inside?) := by
  induction acts generalizing s seen with
  | nil =>
    obtain ⟨rfl, rfl⟩ := Prod.mk.inj (Option.some.inj he)
    rfl
  | cons a acts ih =>
    obtain ⟨r, q, hr, hq, rfl⟩ := Machine.exec_cons he
    have hfirst := step_inside hr
    have hrest := ih hq
    have hacts : (a :: acts).filterMap (handedOn S D) =
        (handedOn S D a).toList ++ acts.filterMap (handedOn S D) := by
      cases hstep : handedOn S D a <;> simp [hstep]
    rw [hacts, List.filterMap_append]
    exact Machine.exec_append_of hfirst hrest

/-! ## The requests at the door -/

/-- The input of a request that was let in stands at its place. -/
theorem accepted_place {requests : List κ} {n : Nat} {request : κ} {input : ι}
    (hrequest : requests[n]? = some request) (haccept : D.accept request = .ok input) :
    (accepted D requests)[place D (requests.take n)]? = some input := by
  obtain ⟨after, hsplit⟩ := take_split hrequest
  have haccepted : accepted D requests =
      accepted D (requests.take n) ++ input :: accepted D after := by
    conv_lhs => rw [hsplit]
    simp [accepted, haccept, Except.toOption]
  rw [haccepted, place, List.getElem?_append_right (Nat.le_refl _)]
  simp

/-- What one state of the door leaves of another. -/
structure Later (S : Service σ α ω ι ρ) (s s' : Front σ κ) : Prop where
  requests : ∃ more, s'.requests = s.requests ++ more
  inputs : ∃ more, S.inputs s'.inside = S.inputs s.inside ++ more
  answers : ∀ {n answer}, S.answer s.inside n = some answer →
    S.answer s'.inside n = some answer

theorem Serves.later {s s' : Front σ κ} {n : Nat} {response : π} (h : Serves S D s n response)
    (hlater : Later S s s') : Serves S D s' n response := by
  obtain ⟨requests, hrequests⟩ := hlater.requests
  obtain ⟨inputs, hinputs⟩ := hlater.inputs
  have hkept {request : κ} (hrequest : s.requests[n]? = some request) :
      s'.requests[n]? = some request ∧ s'.requests.take n = s.requests.take n := by
    have hlt := (List.getElem?_eq_some_iff.mp hrequest).1
    rw [hrequests, List.getElem?_append_left hlt, List.take_append_of_le_length (Nat.le_of_lt hlt)]
    exact ⟨hrequest, rfl⟩
  cases h with
  | refused hrequest haccept => exact .refused (hkept hrequest).1 haccept
  | answered hrequest haccept hinput hanswer =>
    obtain ⟨hrequest, htake⟩ := hkept hrequest
    refine .answered hrequest haccept ?_ ?_
    · have hlt := (List.getElem?_eq_some_iff.mp hinput).1
      rw [htake, hinputs, List.getElem?_append_left hlt, hinput]
    · rw [htake]
      exact hlater.answers hanswer

/-- What a new entry has in common with the old one, the list keeps. -/
theorem map_set_same {β γ : Type*} {f : β → γ} {entries : List β} {n : Nat} {entry entry' : β}
    (hentry : entries[n]? = some entry) (hsame : f entry' = f entry) :
    (entries.set n entry').map f = entries.map f := by
  obtain ⟨hlt, rfl⟩ := List.getElem?_eq_some_iff.mp hentry
  rw [List.map_set, hsame, ← List.getElem_map f, List.set_getElem_self]
  simpa using hlt

theorem requests_concat (s : Front σ κ) (inside : σ) (handler : Handler κ) :
    (⟨inside, s.handlers ++ [handler]⟩ : Front σ κ).requests = s.requests ++ [handler.request] := by
  simp [Front.requests]

theorem requests_set {s : Front σ κ} {n : Nat} {handler : Handler κ}
    (hhandler : s.handlers[n]? = some handler) (awaits : Option Nat) :
    ({ s with handlers := s.handlers.set n { handler with awaits := awaits } } :
      Front σ κ).requests = s.requests :=
  map_set_same hhandler rfl

theorem step_requests {s s' : Front σ κ} {a : Action κ α} {seen : List (Seen ω π)}
    (h : (machine S D).step s a = some (s', seen)) :
    s'.requests = s.requests ++ a.request?.toList := by
  dsimp only [machine] at h
  cases a with
  | request request =>
    simp only [step] at h
    split at h
    · obtain ⟨rfl, _⟩ := Prod.mk.inj (Option.some.inj h)
      exact requests_concat s s.inside ⟨request, none⟩
    · obtain ⟨r, _, hs⟩ := Option.map_eq_some_iff.mp h
      obtain ⟨rfl, _⟩ := Prod.mk.inj hs
      exact requests_concat s r.1 ⟨request, some (S.inputs s.inside).length⟩
  | inside action =>
    simp only [step] at h
    split at h
    · obtain ⟨r, _, hs⟩ := Option.map_eq_some_iff.mp h
      obtain ⟨rfl, _⟩ := Prod.mk.inj hs
      simp [Front.requests, Action.request?]
    · cases h
  | respond n =>
    simp only [step] at h
    obtain ⟨handler, hhandler, h⟩ := Option.bind_eq_some_iff.mp h
    obtain ⟨call, _, h⟩ := Option.bind_eq_some_iff.mp h
    obtain ⟨answer, _, h⟩ := Option.map_eq_some_iff.mp h
    obtain ⟨rfl, _⟩ := Prod.mk.inj h
    rw [requests_set hhandler none]
    simp [Action.request?]

/-- The requests are kept in the order they came. -/
theorem exec_requests {inside : σ} {s : Front σ κ} {acts : List (Action κ α)}
    {seen : List (Seen ω π)} (he : (machine S D).exec (.open inside) acts = some (s, seen)) :
    s.requests = acts.filterMap Action.request? := by
  have hrun : ∀ {s s' : Front σ κ} {acts : List (Action κ α)} {seen : List (Seen ω π)},
      (machine S D).exec s acts = some (s', seen) →
        s'.requests = s.requests ++ acts.filterMap Action.request? := by
    intro s s' acts seen he
    induction acts generalizing s seen with
    | nil =>
      obtain ⟨rfl, _⟩ := Prod.mk.inj (Option.some.inj he)
      simp
    | cons a acts ih =>
      obtain ⟨r, q, hr, hq, _⟩ := Machine.exec_cons he
      rw [ih hq, step_requests hr, List.append_assoc]
      cases hrequest : a.request? <;> simp [hrequest]
  simpa [Front.open, Front.requests] using hrun he

/-- Nobody who has not come yet was answered. -/
theorem Served.fresh {s : Front σ κ} {seen : List (Seen ω π)} (h : Served S D s seen) :
    s.handlers.length ∉ seen.filterMap Seen.responder := by
  intro hmem
  obtain ⟨response, hresponse⟩ := mem_responder.mp hmem
  have hnone : s.requests[s.handlers.length]? = none := by simp [Front.requests]
  cases h.responses hresponse with
  | refused hrequest _ => simp [hnone] at hrequest
  | answered hrequest _ _ _ => simp [hnone] at hrequest

/-- A request that is turned away. -/
theorem Served.turnedAway {s : Front σ κ} {seen : List (Seen ω π)} (h : Served S D s seen)
    {request : κ} {response : π} (haccept : D.accept request = .error response) :
    Served S D { s with handlers := s.handlers ++ [⟨request, none⟩] }
      (seen ++ [.response s.handlers.length response]) := by
  have hrequests := requests_concat s s.inside ⟨request, none⟩
  have hlater : Later S s { s with handlers := s.handlers ++ [⟨request, none⟩] } :=
    ⟨⟨_, hrequests⟩, ⟨[], by simp⟩, fun hanswer => hanswer⟩
  have hresponders : (seen ++ [Seen.response s.handlers.length response]).filterMap Seen.responder =
      seen.filterMap Seen.responder ++ [s.handlers.length] := by
    simp [Seen.responder]
  have hplace : ∀ {n handler}, s.handlers[n]? = some handler →
      (s.requests ++ [request]).take n = s.requests.take n := fun hhandler =>
    List.take_append_of_le_length (by
      simpa [Front.requests] using Nat.le_of_lt (List.getElem?_eq_some_iff.mp hhandler).1)
  constructor
  · rw [hrequests, h.inputs]
    simp [accepted, haccept, Except.toOption]
  · intro n handler call hhandler hawaits
    rw [hrequests, hresponders]
    rw [List.getElem?_append] at hhandler
    split at hhandler
    next hlt =>
      obtain ⟨hcall, hinput, hnot⟩ := h.waits hhandler hawaits
      refine ⟨by rw [hplace hhandler, hcall], hinput, ?_⟩
      simp only [List.mem_append, List.mem_singleton, not_or]
      exact ⟨hnot, Nat.ne_of_lt hlt⟩
    next =>
      obtain rfl := List.mem_singleton.mp (List.mem_of_getElem? hhandler)
      cases hawaits
  · intro n handler hhandler hawaits
    rw [hresponders, List.mem_append, List.mem_singleton]
    rw [List.getElem?_append] at hhandler
    split at hhandler
    next => exact .inl (h.done hhandler hawaits)
    next hge =>
      have hlt := (List.getElem?_eq_some_iff.mp hhandler).1
      simp only [List.length_singleton] at hlt
      exact .inr (by omega)
  · intro n response' hmem
    rcases List.mem_append.mp hmem with hmem | hmem
    · exact (h.responses hmem).later hlater
    · obtain ⟨rfl, rfl⟩ := by simpa using hmem
      refine .refused ?_ haccept
      rw [hrequests]
      simp [Front.requests]
  · rw [hresponders, ← List.concat_eq_append]
    exact h.once.concat h.fresh

/-- A request that is handed on. -/
theorem Served.letIn (hS : S.Lawful) {s : Front σ κ} {seen : List (Seen ω π)}
    (h : Served S D s seen) {request : κ} {input : ι} (haccept : D.accept request = .ok input)
    {inside : σ} {os : List ω} (hstep : S.machine.step s.inside (S.arrive input) =
      some (inside, os)) :
    Served S D ⟨inside, s.handlers ++ [⟨request, some (S.inputs s.inside).length⟩]⟩
      (seen ++ os.map .inside) := by
  have hrequests := requests_concat s inside ⟨request, some (S.inputs s.inside).length⟩
  have hinputs : S.inputs inside = S.inputs s.inside ++ [input] := by
    rw [hS.inputs_step hstep, hS.brings_arrive]
    rfl
  have hlater : Later S s
      ⟨inside, s.handlers ++ [⟨request, some (S.inputs s.inside).length⟩]⟩ :=
    ⟨⟨_, hrequests⟩, ⟨_, hinputs⟩, fun hanswer => hS.answer_step hstep hanswer⟩
  have hresponders : (seen ++ os.map Seen.inside).filterMap Seen.responder =
      seen.filterMap Seen.responder := by
    rw [List.filterMap_append, filterMap_inside_responder, List.append_nil]
  constructor
  · rw [hrequests]
    dsimp only
    rw [hinputs, h.inputs]
    simp [accepted, haccept, Except.toOption]
  · intro n handler call hhandler hawaits
    rw [hrequests, hresponders]
    rw [List.getElem?_append] at hhandler
    split at hhandler
    next hlt =>
      obtain ⟨hcall, hinput, hnot⟩ := h.waits hhandler hawaits
      have htake : (s.requests ++ [request]).take n = s.requests.take n :=
        List.take_append_of_le_length (by simpa [Front.requests] using Nat.le_of_lt hlt)
      exact ⟨by rw [htake, hcall], hinput, hnot⟩
    next hge =>
      have hlt := (List.getElem?_eq_some_iff.mp hhandler).1
      simp only [List.length_singleton] at hlt
      obtain rfl : n = s.handlers.length := by omega
      obtain rfl := List.mem_singleton.mp (List.mem_of_getElem? hhandler)
      obtain rfl := Option.some.inj hawaits
      have htake : (s.requests ++ [request]).take s.handlers.length = s.requests := by
        simp [Front.requests]
      refine ⟨?_, ⟨input, haccept⟩, h.fresh⟩
      rw [htake, h.inputs]
      rfl
  · intro n handler hhandler hawaits
    rw [hresponders]
    rw [List.getElem?_append] at hhandler
    split at hhandler
    next => exact h.done hhandler hawaits
    next =>
      obtain rfl := List.mem_singleton.mp (List.mem_of_getElem? hhandler)
      cases hawaits
  · intro n response hmem
    rcases List.mem_append.mp hmem with hmem | hmem
    · exact (h.responses hmem).later hlater
    · simp at hmem
  · rw [hresponders]
    exact h.once

/-- A step of the service. -/
theorem Served.goesOn (hS : S.Lawful) {s : Front σ κ} {seen : List (Seen ω π)}
    (h : Served S D s seen) {action : α} (hbrings : (S.brings action).isNone = true)
    {inside : σ} {os : List ω} (hstep : S.machine.step s.inside action = some (inside, os)) :
    Served S D { s with inside := inside } (seen ++ os.map .inside) := by
  have hinputs : S.inputs inside = S.inputs s.inside := by
    rw [hS.inputs_step hstep, Option.isNone_iff_eq_none.mp hbrings]
    simp
  have hlater : Later S s { s with inside := inside } :=
    ⟨⟨[], by simp [Front.requests]⟩, ⟨[], by simp [hinputs]⟩,
      fun hanswer => hS.answer_step hstep hanswer⟩
  have hresponders : (seen ++ os.map Seen.inside).filterMap Seen.responder =
      seen.filterMap Seen.responder := by
    rw [List.filterMap_append, filterMap_inside_responder, List.append_nil]
  constructor
  · exact hinputs.trans h.inputs
  · rw [hresponders]
    exact h.waits
  · rw [hresponders]
    exact h.done
  · intro n response hmem
    rcases List.mem_append.mp hmem with hmem | hmem
    · exact (h.responses hmem).later hlater
    · simp at hmem
  · rw [hresponders]
    exact h.once

/-- A request whose call was answered. -/
theorem Served.responds {s : Front σ κ} {seen : List (Seen ω π)} (h : Served S D s seen)
    {n call : Nat} {handler : Handler κ} {answer : ρ} (hhandler : s.handlers[n]? = some handler)
    (hawaits : handler.awaits = some call) (hanswer : S.answer s.inside call = some answer) :
    Served S D { s with handlers := s.handlers.set n { handler with awaits := none } }
      (seen ++ [.response n (D.respond answer)]) := by
  have hlt := (List.getElem?_eq_some_iff.mp hhandler).1
  have hrequests := requests_set hhandler none
  have hlater : Later S s { s with handlers := s.handlers.set n { handler with awaits := none } } :=
    ⟨⟨[], by rw [hrequests, List.append_nil]⟩, ⟨[], by simp⟩, fun hanswer => hanswer⟩
  have hresponders : (seen ++ [Seen.response n (D.respond answer)]).filterMap Seen.responder =
      seen.filterMap Seen.responder ++ [n] := by
    simp [Seen.responder]
  obtain ⟨hcall, ⟨input, haccept⟩, hnot⟩ := h.waits hhandler hawaits
  constructor
  · rw [hrequests]
    exact h.inputs
  · intro m other call' hother hawaits'
    rw [hrequests, hresponders]
    rw [List.getElem?_set] at hother
    split at hother
    next heq =>
      obtain rfl := Option.some.inj hother
      cases hawaits'
    next hne =>
      obtain ⟨hcall', hinput, hnot'⟩ := h.waits hother hawaits'
      refine ⟨hcall', hinput, ?_⟩
      simp only [List.mem_append, List.mem_singleton, not_or]
      exact ⟨hnot', Ne.symm hne⟩
  · intro m other hother hawaits'
    rw [hresponders, List.mem_append, List.mem_singleton]
    rw [List.getElem?_set] at hother
    split at hother
    next heq => exact .inr heq.symm
    next => exact .inl (h.done hother hawaits')
  · intro m response hmem
    rcases List.mem_append.mp hmem with hmem | hmem
    · exact (h.responses hmem).later hlater
    · obtain ⟨rfl, rfl⟩ := by simpa using hmem
      have hrequest : s.requests[m]? = some handler.request := by
        simp [Front.requests, hhandler]
      have hserves : Serves S D s m (D.respond answer) :=
        .answered hrequest haccept (h.inputs ▸ accepted_place hrequest haccept) (hcall ▸ hanswer)
      exact hserves.later hlater
  · rw [hresponders, ← List.concat_eq_append]
    exact h.once.concat hnot

theorem served_step (hS : S.Lawful) {s s' : Front σ κ} {a : Action κ α}
    {seen more : List (Seen ω π)} (h : Served S D s seen)
    (hstep : (machine S D).step s a = some (s', more)) : Served S D s' (seen ++ more) := by
  dsimp only [machine] at hstep
  cases a with
  | request request =>
    simp only [step] at hstep
    split at hstep
    next response haccept =>
      obtain ⟨rfl, rfl⟩ := Prod.mk.inj (Option.some.inj hstep)
      exact h.turnedAway haccept
    next input haccept =>
      obtain ⟨r, hr, hs⟩ := Option.map_eq_some_iff.mp hstep
      obtain ⟨rfl, rfl⟩ := Prod.mk.inj hs
      exact h.letIn hS haccept hr
  | inside action =>
    simp only [step] at hstep
    split at hstep
    next hbrings =>
      obtain ⟨r, hr, hs⟩ := Option.map_eq_some_iff.mp hstep
      obtain ⟨rfl, rfl⟩ := Prod.mk.inj hs
      exact h.goesOn hS hbrings hr
    next => cases hstep
  | respond n =>
    simp only [step] at hstep
    obtain ⟨handler, hhandler, hstep⟩ := Option.bind_eq_some_iff.mp hstep
    obtain ⟨call, hawaits, hstep⟩ := Option.bind_eq_some_iff.mp hstep
    obtain ⟨answer, hanswer, hstep⟩ := Option.map_eq_some_iff.mp hstep
    obtain ⟨rfl, rfl⟩ := Prod.mk.inj hstep
    exact h.responds hhandler hawaits hanswer

/-- No request is answered twice, and each with the word of the door or the answer to its
own call. -/
theorem served (hS : S.Lawful) {inside : σ} (hinside : S.inputs inside = []) {s : Front σ κ}
    {acts : List (Action κ α)} {seen : List (Seen ω π)}
    (he : (machine S D).exec (.open inside) acts = some (s, seen)) : Served S D s seen := by
  refine Machine.exec_invariant_free (Served S D) (fun h hstep => served_step hS h hstep) ?_ he
  constructor <;> simp [Front.open, Front.requests, accepted, hinside]

/-- Where the calls have their answers and no response is possible, all were given. -/
theorem Served.all {s : Front σ κ} {seen : List (Seen ω π)} (h : Served S D s seen)
    (hanswers : ∀ call < (S.inputs s.inside).length, (S.answer s.inside call).isSome = true)
    (hstuck : ∀ n, (machine S D).step s (.respond n) = none) :
    ∀ n < s.handlers.length, ∃ response, .response n response ∈ seen := by
  intro n hn
  have hhandler : s.handlers[n]? = some s.handlers[n] := List.getElem?_eq_getElem hn
  rw [← mem_responder]
  cases hawaits : s.handlers[n].awaits with
  | none => exact h.done hhandler hawaits
  | some call =>
    obtain ⟨hcall, ⟨input, haccept⟩, _⟩ := h.waits hhandler hawaits
    have hrequest : s.requests[n]? = some s.handlers[n].request := by
      simp [Front.requests, hhandler]
    have hlt : call < (S.inputs s.inside).length := by
      rw [hcall, h.inputs]
      exact (List.getElem?_eq_some_iff.mp (accepted_place hrequest haccept)).1
    obtain ⟨answer, hanswer⟩ := Option.isSome_iff_exists.mp (hanswers call hlt)
    have hno := hstuck n
    simp [machine, step, hhandler, hawaits, hanswer] at hno

/-- Where no one waits, no one is answered. -/
theorem no_response_left {s : Front σ κ} (h : ∀ handler ∈ s.handlers, handler.awaits = none)
    (n : Nat) : (machine S D).step s (.respond n) = none := by
  cases hhandler : s.handlers[n]? with
  | none => simp [machine, step, hhandler]
  | some handler =>
    have hawaits := h handler (List.mem_of_getElem? hhandler)
    simp [machine, step, hhandler, hawaits]

end AliceBridge.Lib.Gateway
