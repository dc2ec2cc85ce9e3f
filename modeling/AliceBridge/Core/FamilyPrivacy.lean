import AliceBridge.Core.EngineFlow

/-! # The members of the family do not hear of each other

Every chat request is built for the profile its texts belong to, whoever is the
active profile by the time it is sent or its answer recorded. The invariant
follows the request of a call from the dialogue state to the recording; that a
text never changes its profile is `callStep_flows`. -/
namespace AliceBridge.Core.FamilyPrivacy
open AliceBridge.Lib.Utf8 AliceBridge.Lib.Run AliceBridge.Core.Family AliceBridge.Core.Commands
open AliceBridge.Core.Conversation AliceBridge.Core.Engine AliceBridge.Core.EngineSteps
open AliceBridge.Core.EngineFlow
open AliceBridge.Core.HouseEngine (CallId)

/-- What a call asks the model: the question `parse` found, or the whole utterance that
entered a mode. -/
def Asks (engine : Engine) (utterance question : Text) : Prop :=
  question = utterance ∨
    ∃ thinkHard, parse utterance engine.roster engine.modes = .ask question thinkHard

/-- The locals of `ask_llm` name a member, a mode of the engine and the call's question. -/
structure Prepared (engine : Engine) (utterance : Text) (ask : Ask) : Prop where
  profile : engine.roster.get ask.profileName = some ask.profile
  mode : ∀ mode, ask.mode = some mode → mode ∈ engine.modes
  question : Asks engine utterance ask.question

/-- Rows of exchanges recorded under the profile, with all they derive from. -/
def RowsOf (profile : Text) (before : List Obs) (rows : List (Row Content)) : Prop :=
  ∀ row ∈ rows, row.profile = profile ∧ ∀ id ∈ rowOrigins row, id ∈ recordedIds profile before

/-- A text that derives from exchanges recorded under the profile only. -/
def DerivesFrom (profile : Text) (before : List Obs) (content : Content) : Prop :=
  ∀ id ∈ content.origins, id ∈ recordedIds profile before

/-- A request for a profile: the system prompt of that member, with a summary of its own
messages, its own messages, and the question. -/
def BuiltFor (engine : Engine) (before : List Obs) (utterance : Text) (request : Request) : Prop :=
  ∃ ask today summary history, request = buildRequest engine ask today summary history ∧
    Prepared engine utterance ask ∧ RowsOf request.profile before history ∧
    ∀ content, summary = some content → DerivesFrom request.profile before content

def WasAsked (c : CallId) (profile : Text) (before : List Obs) : Prop :=
  ∃ messages, .asked c profile messages ∈ before

/-- What an observation may show after those before it. -/
def Private (engine : Engine) (calls : List Call) (before : List Obs) : Obs → Prop
  | .asked c profile messages => ∃ call request, calls[c]? = some call ∧
      BuiltFor engine before call.utterance request ∧ request.profile = profile ∧
      request.messages = messages
  | .summarizing _ profile text => ∃ previous rows, text = instruction previous rows ∧
      DerivesFrom profile before previous ∧ RowsOf profile before rows
  | .recorded c profile _ => WasAsked c profile before
  | _ => True

/-! ## The invariant of a call -/

def PcOk (engine : Engine) (os : List Obs) (utterance : Text) : Pc → Prop
  | .ask question _ => Asks engine utterance question
  | .summary ask => Prepared engine utterance ask
  | .history ask summary => Prepared engine utterance ask ∧
      ∀ content, summary = some content → DerivesFrom ask.profileName os content
  | .mark request | .spawn request => BuiltFor engine os utterance request
  | _ => True

def TaskOk (engine : Engine) (c : CallId) (os : List Obs) (utterance : Text) : Task → Prop
  | .spawned request => BuiltFor engine os utterance request
  | .chatting request => WasAsked c request.profile os
  | .recordUser exchange | .recordAssistant exchange .. | .recordCommit exchange .. =>
    WasAsked c exchange.profile os
  | _ => True

def SummarizerOk (os : List Obs) : Summarizer → Prop
  | .previous profile rows _ => RowsOf profile os rows
  | _ => True

structure CallOk (engine : Engine) (os : List Obs) (c : CallId) (call : Call) : Prop where
  pc : PcOk engine os call.utterance call.pc
  task : TaskOk engine c os call.utterance call.task
  summarizer : SummarizerOk os call.summarizer
  held : ∀ {profile id}, id ∈ held profile call → id ∈ recordedIds profile os

variable {engine : Engine} {sh sh' : Shared} {s s' : State} {c : CallId} {call call' : Call}
  {e : Event} {a : Action} {os os' : List Obs} {profile utterance : Text} {id : MessageId}

/-! ## Nothing is lost as a run goes on -/

theorem recorded_mono (h : id ∈ recordedIds profile os) : id ∈ recordedIds profile (os ++ os') := by
  rw [recordedIds_append]
  exact List.mem_append_left _ h

theorem RowsOf.mono {rows : List (Row Content)} (h : RowsOf profile os rows) :
    RowsOf profile (os ++ os') rows :=
  fun row hrow => ⟨(h row hrow).1, fun id hid => recorded_mono ((h row hrow).2 id hid)⟩

theorem DerivesFrom.mono {content : Content} (h : DerivesFrom profile os content) :
    DerivesFrom profile (os ++ os') content :=
  fun id hid => recorded_mono (h id hid)

theorem BuiltFor.mono {request : Request} (h : BuiltFor engine os utterance request) :
    BuiltFor engine (os ++ os') utterance request := by
  obtain ⟨ask, today, summary, history, heq, hask, hrows, hsummary⟩ := h
  exact ⟨ask, today, summary, history, heq, hask, hrows.mono, fun content hc =>
    (hsummary content hc).mono⟩

theorem WasAsked.mono (h : WasAsked c profile os) : WasAsked c profile (os ++ os') := by
  obtain ⟨messages, hmem⟩ := h
  exact ⟨messages, List.mem_append_left _ hmem⟩

theorem PcOk.mono {pc : Pc} (h : PcOk engine os utterance pc) :
    PcOk engine (os ++ os') utterance pc := by
  unfold PcOk at h ⊢
  split at h
  · exact h
  · exact h
  · exact ⟨h.1, fun content hc => (h.2 content hc).mono⟩
  · exact h.mono
  · exact h.mono
  · trivial

theorem TaskOk.mono {task : Task} (h : TaskOk engine c os utterance task) :
    TaskOk engine c (os ++ os') utterance task := by
  unfold TaskOk at h ⊢
  split at h
  · exact h.mono
  · exact h.mono
  · exact h.mono
  · exact h.mono
  · exact h.mono
  · trivial

theorem SummarizerOk.mono {summarizer : Summarizer} (h : SummarizerOk os summarizer) :
    SummarizerOk (os ++ os') summarizer := by
  unfold SummarizerOk at h ⊢
  split at h
  · exact h.mono
  · trivial

theorem CallOk.mono (h : CallOk engine os c call) : CallOk engine (os ++ os') c call :=
  ⟨h.pc.mono, h.task.mono, h.summarizer.mono, fun hid => recorded_mono (h.held hid)⟩

/-! ## One step of a call -/

section Steps

variable {before : List Obs}

/-- The stored texts of a profile derive from what was recorded under it. -/
def StoreOk (store : Store Content) (os : List Obs) : Prop :=
  ∀ {profile id}, Keeps profile store id → id ∈ recordedIds profile os

theorem StoreOk.rowsOf {rows : List (Row Content)} {store : Store Content}
    (hstore : StoreOk store before)
    (h : ∀ row ∈ rows, row ∈ store.rows ∧ row.profile = profile) : RowsOf profile before rows := by
  intro row hrow
  obtain ⟨hmem, hprofile⟩ := h row hrow
  exact ⟨hprofile, fun _ hid => hstore (.inl ⟨row, hmem, hprofile, hid⟩)⟩

theorem dispatch_pcOk {dialogue : DialogueState} :
    PcOk engine before utterance (dispatch engine dialogue utterance).2 := by
  unfold dispatch
  split
  case h_8 => exact .inl rfl
  case h_11 thinkHard hparse => exact .inr ⟨thinkHard, hparse⟩
  all_goals trivial

theorem moves_pcOk {pc : Pc} (hcall : CallOk engine before c call)
    (h : Moves engine sh call e pc) : PcOk engine before call.utterance pc := by
  cases h with
  | asks hpc =>
    have hask := hcall.pc
    rw [hpc] at hask
    unfold startAsk
    split
    · trivial
    · next profile hprofile =>
      refine ⟨hprofile, fun mode hmode => ?_, hask⟩
      obtain ⟨name, _, hfind⟩ := Option.bind_eq_some_iff.mp hmode
      exact List.mem_of_find?_eq_some hfind
  | timer _ hpc => rcases hpc with rfl | rfl <;> trivial
  | _ => trivial

theorem request_pcOk (hstore : StoreOk sh.store before) (hcall : CallOk engine before c call)
    (h : RequestStep engine sh c call e sh' call' os) :
    PcOk engine before call.utterance call'.pc := by
  have hpcOk := hcall.pc
  cases h with
  | moves hmoves => exact moves_pcOk hcall hmoves
  | dispatched _ => exact dispatch_pcOk
  | @summaryRead ask ok hpc =>
    rw [hpc] at hpcOk
    refine ⟨hpcOk, fun content hcontent id hid => ?_⟩
    obtain ⟨summary, hsummary, rfl⟩ := Option.map_eq_some_iff.mp hcontent
    have hstored : ok = true ∧ sh.store.summaries ask.profileName = some summary := by
      simpa using hsummary
    exact hstore (.inr ⟨summary, hstored.2, hid⟩)
  | @historyRead ask summary ok today hpc =>
    rw [hpc] at hpcOk
    refine ⟨ask, today, summary, _, rfl, hpcOk.1, hstore.rowsOf fun row hrow => ?_, hpcOk.2⟩
    split at hrow
    · exact Store.mem_recentMessages hrow
    · cases hrow
  | marked hpc =>
    rw [hpc] at hpcOk
    exact hpcOk
  | _ => trivial

theorem request_taskOk (hcall : CallOk engine before c call)
    (h : RequestStep engine sh c call e sh' call' os) :
    TaskOk engine c before call.utterance call'.task ∧ call'.summarizer = call.summarizer := by
  cases h with
  | spawned hpc =>
    have hrequest := hcall.pc
    rw [hpc] at hrequest
    exact ⟨hrequest, rfl⟩
  | _ => exact ⟨hcall.task, rfl⟩

theorem task_taskOk (hcall : CallOk engine before c call)
    (h : TaskStep sh c call e sh' call' os) :
    TaskOk engine c (before ++ os) call.utterance call'.task ∧ call'.pc = call.pc ∧
      SummarizerOk before call'.summarizer := by
  have htaskOk := hcall.task
  cases h with
  | @asked request htask =>
    exact ⟨⟨request.messages, List.mem_append_right _ (List.mem_singleton_self _)⟩, rfl,
      hcall.summarizer⟩
  | answered htask | userInserted htask | assistantInserted htask =>
    rw [htask] at htaskOk
    exact ⟨htaskOk.mono, rfl, hcall.summarizer⟩
  | summarizerSpawned _ => exact ⟨trivial, rfl, trivial⟩
  | _ => exact ⟨trivial, rfl, hcall.summarizer⟩

theorem summarizer_summarizerOk (hstore : StoreOk sh.store before)
    (h : SummarizerStep engine sh c call e sh' call' os) :
    SummarizerOk before call'.summarizer ∧ call'.pc = call.pc ∧ call'.task = call.task := by
  cases h with
  | selected _ => exact ⟨hstore.rowsOf fun row hrow => Store.mem_unsummarized hrow, rfl, rfl⟩
  | _ => exact ⟨trivial, rfl, rfl⟩

/-- A step keeps its call in order. -/
theorem callOk_step (hstore : StoreOk sh.store before) (hcall : CallOk engine before c call)
    (h : CallStep engine sh c call e sh' call' os) : CallOk engine (before ++ os) c call' := by
  have hflows := callStep_flows h
  have hheld {profile id} (hid : id ∈ held profile call') :
      id ∈ recordedIds profile (before ++ os) := by
    rcases hflows.taken hid with hid | hid
    · exact recorded_mono (hcall.held hid)
    · exact recorded_mono (hstore hid)
  have hutterance := (callStep_identity h).2
  cases h with
  | request h =>
    obtain ⟨htask, hsummarizer⟩ := request_taskOk hcall h
    refine ⟨?_, ?_, ?_, hheld⟩
    · rw [hutterance]
      exact (request_pcOk hstore hcall h).mono
    · rw [hutterance]
      exact htask.mono
    · rw [hsummarizer]
      exact hcall.summarizer.mono
  | task h =>
    obtain ⟨htask, hpc, hsummarizer⟩ := task_taskOk hcall h
    refine ⟨?_, ?_, hsummarizer.mono, hheld⟩
    · rw [hutterance, hpc]
      exact hcall.pc.mono
    · rw [hutterance]
      exact htask
  | summarizer h =>
    obtain ⟨hsummarizer, hpc, htask⟩ := summarizer_summarizerOk hstore h
    refine ⟨?_, ?_, hsummarizer.mono, hheld⟩
    · rw [hutterance, hpc]
      exact hcall.pc.mono
    · rw [hutterance, htask]
      exact hcall.task.mono

theorem storeOk_step (hstore : StoreOk sh.store before) (hcall : CallOk engine before c call)
    (h : CallStep engine sh c call e sh' call' os) : StoreOk sh'.store (before ++ os) := by
  intro profile id hid
  rcases (callStep_flows h).stored hid with hid | hid | hid
  · exact recorded_mono (hstore hid)
  · exact recorded_mono (hcall.held hid)
  · rw [recordedIds_append]
    exact List.mem_append_right _ hid

/-- What a step shows is private. -/
theorem private_step {calls : List Call} (hstore : StoreOk sh.store before)
    (hcall : CallOk engine before c call) (hmem : calls[c]? = some call)
    (h : CallStep engine sh c call e sh' call' os) : ∀ o ∈ os, Private engine calls before o := by
  intro o ho
  cases h with
  | request h =>
    cases h <;> first | exact absurd ho List.not_mem_nil | (rw [List.mem_singleton.mp ho]; trivial)
  | task h =>
    have htaskOk := hcall.task
    cases h with
    | @asked request htask =>
      rw [List.mem_singleton.mp ho]
      rw [htask] at htaskOk
      exact ⟨call, request, hmem, htaskOk, rfl, rfl⟩
    | recorded htask _ =>
      rw [List.mem_singleton.mp ho]
      rw [htask] at htaskOk
      exact htaskOk
    | completed _ =>
      split at ho
      · rw [List.mem_singleton.mp ho]
        trivial
      · cases ho
    | _ => cases ho
  | summarizer h =>
    have hsummarizerOk := hcall.summarizer
    cases h with
    | @previousRead owner rows _ ok hsummarizer =>
      rw [List.mem_singleton.mp ho]
      rw [hsummarizer] at hsummarizerOk
      exact ⟨previousContent sh.store owner ok, rows, rfl,
        fun id hid => hstore (previousContent_origins hid), hsummarizerOk⟩
    | _ => cases ho

end Steps

/-! ## Runs -/

structure Invariant (engine : Engine) (s : State) (os : List Obs) : Prop where
  store : StoreOk s.shared.store os
  calls : ∀ {c call}, s.calls[c]? = some call → CallOk engine os c call
  shown : Each (Private engine s.calls) os

theorem Private.mono (h : (machine engine).step s a = some (s', os')) {o : Obs}
    (ho : Private engine s.calls os o) : Private engine s'.calls os o := by
  cases o with
  | asked c profile messages =>
    obtain ⟨call, request, hcall, hbuilt, hprofile, hmessages⟩ := ho
    obtain ⟨call', hcall', _, hutterance⟩ := step_keeps h hcall
    exact ⟨call', request, hcall', hutterance ▸ hbuilt, hprofile, hmessages⟩
  | _ => exact ho

theorem new_callOk {userId : Text} : CallOk engine os c (Call.new userId utterance) :=
  ⟨trivial, trivial, trivial, fun h => absurd h List.not_mem_nil⟩

theorem invariant_step (hI : Invariant engine s os)
    (h : (machine engine).step s a = some (s', os')) : Invariant engine s' (os ++ os') := by
  have hshown : Each (Private engine s'.calls) os := hI.shown.mono fun _ _ ho => ho.mono h
  cases step_cases h with
  | idle hos _ hshared hcalls =>
    subst hos
    rw [List.append_nil]
    refine ⟨by rw [hshared]; exact hI.store, fun hcall => ?_, hshown⟩
    rcases hcalls hcall with hcall | ⟨userId, utterance, rfl⟩
    · exact hI.calls hcall
    · exact new_callOk
  | moved _ hcall _ hstep hothers =>
    refine ⟨storeOk_step hI.store (hI.calls hcall) hstep, fun hother => ?_, ?_⟩
    · rcases hothers hother with ⟨rfl, rfl⟩ | ⟨_, hother⟩
      · exact callOk_step hI.store (hI.calls hcall) hstep
      · exact (hI.calls hother).mono
    · have hprivate := private_step hI.store (hI.calls hcall) hcall hstep
      rcases callStep_obs hstep with rfl | ⟨o, rfl⟩
      · rw [List.append_nil]
        exact hshown
      · exact hshown.concat ((hprivate o (List.mem_singleton_self o)).mono h)

/-- Whatever users, devices and background tasks do in whatever order: every chat request
for a profile holds the prompt of that member of the family, a summary made of its own
messages, its own messages and the question of the call, and every exchange is recorded
under the profile its request was built for. -/
theorem profiles_do_not_leak {as : List Action}
    (h : (machine engine).exec (initial engine) as = some (s, os)) :
    Each (Private engine s.calls) os := by
  have hinitial : Invariant engine (initial engine) [] := by
    refine ⟨fun {profile id} hid => ?_, fun hcall => ?_, Each.nil⟩
    · rcases hid with ⟨row, hrow, _⟩ | ⟨summary, hsummary, _⟩
      · cases hrow
      · cases hsummary
    · cases hcall
  exact (Machine.exec_invariant_free (Invariant engine) invariant_step hinitial h).shown

/-- Masha introduces herself on another device while the answer to Dima is generated. -/
def switchedRun : List Action :=
  .arrive ['u'] ['q'] :: opening 0 ++ .arrive ['v'] "это Маша".toList :: tasks 1 [.next, .next] ++
    recording 0 ['a'] ++ delivery 0

theorem switchedRun_runs :
    ((machine fixture).exec (initial fixture) switchedRun).isSome = true := by decide +kernel

theorem profiles_do_not_leak_switched : ∃ r,
    (machine fixture).exec (initial fixture) switchedRun = some r ∧
      Each (Private fixture r.1.calls) r.2 := by
  obtain ⟨r, hr⟩ := Option.isSome_iff_exists.mp switchedRun_runs
  exact ⟨r, hr, profiles_do_not_leak hr⟩

end AliceBridge.Core.FamilyPrivacy
