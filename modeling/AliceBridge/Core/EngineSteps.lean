import AliceBridge.Core.Engine

/-! # What a step of the legacy engine can do

The inversion of `step`: one relation for each of the three tasks of a call,
with a rule for each thing it can do. The invariants of the engine are proved
from these rules and never unfold the step functions. -/
namespace AliceBridge.Core.EngineSteps
open AliceBridge.Lib.Utf8 AliceBridge.Lib.Run AliceBridge.Core.Family AliceBridge.Core.Pending
open AliceBridge.Core.Conversation AliceBridge.Core.Engine
open AliceBridge.Core.AskRace (phraseInternalError)
open AliceBridge.Core.HouseEngine (Outcome CallId)

section Rules

variable (engine : Engine) (sh : Shared) (c : CallId) (call : Call)

/-- The steps of a request that change nothing but its position. -/
inductive Moves : Event → Pc → Prop
  | found {entry : PendingState} : call.pc = .lookup → sh.pending call.userId = some entry →
      Moves .next (.polled entry)
  | absent : call.pc = .lookup → sh.pending call.userId = none → Moves .next .dispatch
  | old {since : Nat} : call.pc = .polled (.thinking since) → sh.now - since > thinkingTtl →
      Moves .next .expire
  | fresh {since : Nat} : call.pc = .polled (.thinking since) → sh.now - since ≤ thinkingTtl →
      Moves .next (.returned phraseStillThinking)
  | asks {question : Text} {tier : Option ModelTier} : call.pc = .ask question tier →
      Moves .next (startAsk engine sh.dialogue question tier)
  | clearFailed {profile : Text} :
      (call.pc = .clearMessages profile ∨ ∃ ids, call.pc = .clearSummary profile ids) →
      Moves (.cleared false) (.returned phraseInternalError)
  | summaryDeleted {profile : Text} {ids : List MessageId} : call.pc = .clearSummary profile ids →
      Moves (.cleared true) (.clearCommit profile ids (sh.store.summaries profile).isSome)
  | usageClock {dayStart monthStart : Nat} : call.pc = .usage →
      Moves (.usageClock dayStart monthStart) (.usageToday dayStart monthStart)
  | usageToday {dayStart monthStart : Nat} {ok : Bool} {today : Option UsageStats} :
      call.pc = .usageToday dayStart monthStart →
      Moves (.usageRead ok) (.usageMonth monthStart today)
  | usageMonth {monthStart : Nat} {ok : Bool} {today : Option UsageStats} {reply : Text} :
      call.pc = .usageMonth monthStart today → Moves (.usageRead ok) (.returned reply)
  | noReply : call.pc = .pollReceiver → call.channel.value = none →
      call.channel.senderDropped = false → Moves .next .pollTimer
  | timer {pc : Pc} : call.pc = .pollTimer → pc = .dropReceiver ∨ pc = .pollReceiver →
      Moves .next pc

inductive RequestStep : Event → Shared → Call → List Obs → Prop
  | moves {e : Event} {pc : Pc} : Moves engine sh call e pc →
      RequestStep e sh { call with pc := pc } []
  | taken {seen text : Text} : call.pc = .polled (.ready seen) →
      sh.pending call.userId = some (.ready text) →
      RequestStep .next (sh.clearPending call.userId)
        { call with pc := .returned text } [.polled c call.userId text]
  | missed {seen : Text} : call.pc = .polled (.ready seen) →
      (∀ text, sh.pending call.userId ≠ some (.ready text)) →
      RequestStep .next (sh.clearPending call.userId)
        { call with pc := .dispatch } []
  | expired : call.pc = .expire →
      RequestStep .next (sh.clearPending call.userId)
        { call with pc := .dispatch } []
  | dispatched : call.pc = .dispatch →
      RequestStep .next
        { sh with dialogue := (dispatch engine sh.dialogue call.utterance).1 }
        { call with pc := (dispatch engine sh.dialogue call.utterance).2 } []
  | forgetting {profile : Text} : call.pc = .clearMessages profile →
      RequestStep (.cleared true) sh
        { call with pc := .clearSummary profile (clearedIds sh.store profile) }
        [.forgetting c profile]
  | forgotten {profile : Text} {ids : List MessageId} {summary : Bool} :
      call.pc = .clearCommit profile ids summary →
      RequestStep (.clearCommitted .ok)
        { sh with store := sh.store.delete profile ids summary }
        { call with pc := .returned forgottenReply } [.forgotten c profile]
  | forgetFailed {profile : Text} {ids : List MessageId} {summary applied : Bool} :
      call.pc = .clearCommit profile ids summary →
      RequestStep (.clearCommitted (.err applied))
        { sh with store := if applied then sh.store.delete profile ids summary else sh.store }
        { call with pc := .returned phraseInternalError } []
  | summaryRead {ask : Ask} {ok : Bool} : call.pc = .summary ask →
      RequestStep (.summaryRead ok) sh
        { call with
          pc := .history ask ((if ok then sh.store.summaries ask.profileName else none).map
            Summary.content) } []
  | historyRead {ask : Ask} {summary : Option Content} {ok : Bool} {today : NaiveDate} :
      call.pc = .history ask summary →
      RequestStep (.historyRead ok today) sh
        { call with
          pc := .mark (buildRequest engine ask today summary
            (if ok then sh.store.recentMessages ask.profileName ask.window else [])) } []
  | marked {request : Request} : call.pc = .mark request →
      RequestStep .next { sh with pending := sh.pending.markThinking call.userId sh.now }
        { call with pc := .spawn request, markedAt := sh.now } [.marked c call.userId]
  | spawned {request : Request} {deadline : Nat} : call.pc = .spawn request →
      RequestStep .next sh
        { call with pc := .pollReceiver, task := .spawned request, deadline := deadline } []
  | received {reply : Text} : call.pc = .pollReceiver →
      (call.channel.value = some reply ∨
        call.channel.value = none ∧ call.channel.senderDropped = true) →
      RequestStep .next sh (call.closeReceiver (.clear reply)) []
  | timedOut : call.pc = .dropReceiver →
      RequestStep .next sh
        { call with channel := { call.channel with receiverDropped := true }, pc := .deferred } []
  | cleared {reply : Text} : call.pc = .clear reply →
      RequestStep .next (sh.clearPending call.userId)
        { call with pc := .returned reply } []

inductive TaskStep : Event → Shared → Call → List Obs → Prop
  | asked {request : Request} : call.task = .spawned request →
      TaskStep .chat sh { call with task := .chatting request }
        [.asked c request.profile request.messages]
  | answered {request : Request} {text : Text} {cost : Int} : call.task = .chatting request →
      TaskStep (.chatted (.completion text cost)) sh
        { call with task := .recordUser (answerExchange request text cost) } []
  | failed {request : Request} {err : ProviderError} : call.task = .chatting request →
      TaskStep (.chatted (.error err)) sh (call.reply sh.now (phraseForProviderError err)) []
  | userInserted {exchange : ExchangeRecord Content} : call.task = .recordUser exchange →
      TaskStep (.inserted true) { sh with store := sh.store.drawId }
        { call with task := .recordAssistant exchange (sh.store.lastId + 1) sh.now } []
  | assistantInserted {exchange : ExchangeRecord Content} {userId : MessageId} {createdAt : Nat} :
      call.task = .recordAssistant exchange userId createdAt →
      TaskStep (.inserted true) { sh with store := sh.store.drawId }
        { call with task := .recordCommit exchange userId (sh.store.lastId + 1) createdAt } []
  | insertFailed {exchange : ExchangeRecord Content} : (call.task = .recordUser exchange ∨
        ∃ userId createdAt, call.task = .recordAssistant exchange userId createdAt) →
      TaskStep (.inserted false) sh
        { call with task := .spawnSummarizer exchange.profile exchange.assistantText.text } []
  | recorded {exchange : ExchangeRecord Content} {userId assistantId : MessageId}
      {createdAt : Nat} {outcome : Outcome} :
      call.task = .recordCommit exchange userId assistantId createdAt → outcome.applies = true →
      TaskStep (.recordCommitted outcome)
        { sh with store := sh.store.commitExchange exchange userId assistantId createdAt }
        { call with task := .spawnSummarizer exchange.profile exchange.assistantText.text }
        [.recorded c exchange.profile [userId, assistantId]]
  | commitLost {exchange : ExchangeRecord Content} {userId assistantId : MessageId}
      {createdAt : Nat} {outcome : Outcome} :
      call.task = .recordCommit exchange userId assistantId createdAt → outcome.applies = false →
      TaskStep (.recordCommitted outcome) sh
        { call with task := .spawnSummarizer exchange.profile exchange.assistantText.text } []
  | summarizerSpawned {profile reply : Text} : call.task = .spawnSummarizer profile reply →
      TaskStep .spawnSummarizer sh
        ({ call with summarizer := .keepLast profile }.reply sh.now reply) []
  | rejected {reply : Text} {inTime : Bool} : call.task = .send reply inTime →
      call.channel.receiverDropped = true →
      TaskStep .send sh
        { call with
          task := .complete reply inTime
          channel := { call.channel with senderDropped := true } } []
  | sent {reply : Text} {inTime : Bool} : call.task = .send reply inTime →
      call.channel.receiverDropped = false →
      TaskStep .send sh
        { call with
          task := .sent reply inTime
          channel := { call.channel with value := some reply, senderDropped := true } } []
  | completed {reply : Text} {inTime : Bool} : call.task = .complete reply inTime →
      TaskStep .complete { sh with pending := sh.pending.complete call.userId reply }
        { call with task := .completed reply inTime (sh.pending call.userId).isSome }
        (if (sh.pending call.userId).isSome then [.landed c call.userId reply] else [])
  | panicked : call.task.running = true →
      TaskStep .panic sh
        { call with
          task := .panicked
          channel := { call.channel with senderDropped := true } } []

inductive SummarizerStep : Event → Shared → Call → List Obs → Prop
  | keepLast {profile : Text} : call.summarizer = .keepLast profile →
      SummarizerStep .keepLast sh
        { call with summarizer := .select profile (sh.dialogue.window engine.config) } []
  | nothing {profile : Text} {keepLast : Nat} {ok : Bool} :
      call.summarizer = .select profile keepLast →
      SummarizerStep (.selected ok) sh { call with summarizer := .done } []
  | selected {profile : Text} {keepLast : Nat} : call.summarizer = .select profile keepLast →
      SummarizerStep (.selected true) sh
        { call with
          summarizer := .previous profile (sh.store.unsummarized profile keepLast)
            (sh.store.coversUntil profile) } []
  | previousRead {profile : Text} {rows : List (Row Content)} {covered : MessageId} {ok : Bool} :
      call.summarizer = .previous profile rows covered →
      SummarizerStep (.previousRead ok) sh
        { call with
          summarizer := .chatting profile rows (previousContent sh.store profile ok) }
        [.summarizing c profile (instruction (previousContent sh.store profile ok) rows)]
  | summarized {profile text : Text} {rows : List (Row Content)} {previous : Content} :
      call.summarizer = .chatting profile rows previous →
      SummarizerStep (.summarized (some text)) sh
        { call with summarizer := .upsert profile (rollingSummary previous rows text) } []
  | summarizeFailed {profile : Text} {rows : List (Row Content)} {previous : Content} :
      call.summarizer = .chatting profile rows previous →
      SummarizerStep (.summarized none) sh { call with summarizer := .done } []
  | upserted {profile : Text} {summary : Summary Content} {outcome : Outcome} :
      call.summarizer = .upsert profile summary →
      SummarizerStep (.upserted outcome)
        { sh with
          store := if outcome.applies then sh.store.upsertSummary profile summary else sh.store }
        { call with summarizer := .done } []

inductive CallStep (e : Event) (sh' : Shared) (call' : Call) (os : List Obs) : Prop
  | request : RequestStep engine sh c call e sh' call' os → CallStep e sh' call' os
  | task : TaskStep sh c call e sh' call' os → CallStep e sh' call' os
  | summarizer : SummarizerStep engine sh c call e sh' call' os → CallStep e sh' call' os

end Rules

/-! ## Soundness of the rules -/

variable {engine : Engine} {sh sh' : Shared} {c : CallId} {call call' : Call} {e : Event}
  {os : List Obs}

theorem nextStep_sound (h : nextStep engine sh c call = some (sh', call', os)) :
    RequestStep engine sh c call .next sh' call' os := by
  unfold nextStep at h
  split at h <;> rename_i hpc
  · split at h
    · next entry hentry =>
      obtain ⟨rfl, rfl, rfl⟩ := by simpa using h
      exact .moves (.found hpc hentry)
    · next hentry =>
      obtain ⟨rfl, rfl, rfl⟩ := by simpa using h
      exact .moves (.absent hpc hentry)
  · split at h
    · next text hentry =>
      obtain ⟨rfl, rfl, rfl⟩ := by simpa using h
      exact .taken hpc hentry
    · next hentry =>
      obtain ⟨rfl, rfl, rfl⟩ := by simpa using h
      exact .missed hpc hentry
  · split at h
    · next hold =>
      obtain ⟨rfl, rfl, rfl⟩ := by simpa using h
      exact .moves (.old hpc hold)
    · next hold =>
      obtain ⟨rfl, rfl, rfl⟩ := by simpa using h
      exact .moves (.fresh hpc (Nat.le_of_not_gt hold))
  · obtain ⟨rfl, rfl, rfl⟩ := by simpa using h
    exact .expired hpc
  · obtain ⟨rfl, rfl, rfl⟩ := by simpa using h
    exact .dispatched hpc
  · obtain ⟨rfl, rfl, rfl⟩ := by simpa using h
    exact .moves (.asks hpc)
  · obtain ⟨rfl, rfl, rfl⟩ := by simpa using h
    exact .marked hpc
  · obtain ⟨rfl, rfl, rfl⟩ := by simpa using h
    exact .spawned hpc
  · split at h
    · next reply hvalue =>
      obtain ⟨rfl, rfl, rfl⟩ := by simpa using h
      exact .received hpc (.inl hvalue)
    · next hvalue =>
      split at h
      · next hdropped =>
        obtain ⟨rfl, rfl, rfl⟩ := by simpa using h
        exact .received hpc (.inr ⟨hvalue, hdropped⟩)
      · next hdropped =>
        obtain ⟨rfl, rfl, rfl⟩ := by simpa using h
        exact .moves (.noReply hpc hvalue (by simpa using hdropped))
  · obtain ⟨rfl, rfl, rfl⟩ := by simpa using h
    refine .moves (.timer hpc ?_)
    split
    · exact .inl rfl
    · exact .inr rfl
  · obtain ⟨rfl, rfl, rfl⟩ := by simpa using h
    exact .timedOut hpc
  · obtain ⟨rfl, rfl, rfl⟩ := by simpa using h
    exact .cleared hpc
  · cases h

theorem requestStep_sound (h : requestStep engine sh c call e = some (sh', call', os)) :
    RequestStep engine sh c call e sh' call' os := by
  cases e with
  | next => exact nextStep_sound h
  | cleared ok =>
    simp only [requestStep] at h
    split at h
    · next profile hpc =>
      cases ok <;> obtain ⟨rfl, rfl, rfl⟩ := by simpa using h
      · exact .moves (.clearFailed (.inl hpc))
      · exact .forgetting hpc
    · next profile ids hpc =>
      cases ok <;> obtain ⟨rfl, rfl, rfl⟩ := by simpa using h
      · exact .moves (.clearFailed (.inr ⟨ids, hpc⟩))
      · exact .moves (.summaryDeleted hpc)
    · cases h
  | clearCommitted outcome =>
    simp only [requestStep] at h
    split at h
    · next profile ids summary hpc =>
      cases outcome <;> obtain ⟨rfl, rfl, rfl⟩ := by simpa using h
      · exact .forgotten hpc
      · exact .forgetFailed hpc
    · cases h
  | usageClock dayStart monthStart =>
    simp only [requestStep] at h
    split at h
    · next hpc =>
      obtain ⟨rfl, rfl, rfl⟩ := by simpa using h
      exact .moves (.usageClock hpc)
    · cases h
  | usageRead ok =>
    simp only [requestStep] at h
    split at h
    · next hpc =>
      obtain ⟨rfl, rfl, rfl⟩ := by simpa using h
      exact .moves (.usageToday hpc)
    · next hpc =>
      obtain ⟨rfl, rfl, rfl⟩ := by simpa using h
      exact .moves (.usageMonth hpc)
    · cases h
  | summaryRead ok =>
    simp only [requestStep] at h
    split at h
    · next hpc =>
      obtain ⟨rfl, rfl, rfl⟩ := by simpa using h
      exact .summaryRead hpc
    · cases h
  | historyRead ok today =>
    simp only [requestStep] at h
    split at h
    · next hpc =>
      obtain ⟨rfl, rfl, rfl⟩ := by simpa using h
      exact .historyRead hpc
    · cases h
  | _ => cases h

theorem taskStep_sound (h : taskStep sh c call e = some (sh', call', os)) :
    TaskStep sh c call e sh' call' os := by
  cases e with
  | chat =>
    simp only [taskStep] at h
    split at h
    · next ht =>
      obtain ⟨rfl, rfl, rfl⟩ := by simpa using h
      exact .asked ht
    · cases h
  | chatted result =>
    simp only [taskStep] at h
    split at h
    · next ht =>
      obtain ⟨rfl, rfl, rfl⟩ := by simpa using h
      exact .answered ht
    · next ht =>
      obtain ⟨rfl, rfl, rfl⟩ := by simpa using h
      exact .failed ht
    · cases h
  | inserted ok =>
    simp only [taskStep] at h
    split at h
    · next ht =>
      cases ok <;> obtain ⟨rfl, rfl, rfl⟩ := by simpa using h
      · exact .insertFailed (.inl ht)
      · exact .userInserted ht
    · next userId createdAt ht =>
      cases ok <;> obtain ⟨rfl, rfl, rfl⟩ := by simpa using h
      · exact .insertFailed (.inr ⟨userId, createdAt, ht⟩)
      · exact .assistantInserted ht
    · cases h
  | recordCommitted outcome =>
    simp only [taskStep] at h
    split at h
    · next ht =>
      split at h
      · next ho =>
        obtain ⟨rfl, rfl, rfl⟩ := by simpa using h
        exact .recorded ht ho
      · next ho =>
        obtain ⟨rfl, rfl, rfl⟩ := by simpa using h
        exact .commitLost ht (by simpa using ho)
    · cases h
  | spawnSummarizer =>
    simp only [taskStep] at h
    split at h
    · next ht =>
      obtain ⟨rfl, rfl, rfl⟩ := by simpa using h
      exact .summarizerSpawned ht
    · cases h
  | send =>
    simp only [taskStep] at h
    split at h
    · next ht =>
      split at h
      · next hr =>
        obtain ⟨rfl, rfl, rfl⟩ := by simpa using h
        exact .rejected ht hr
      · next hr =>
        obtain ⟨rfl, rfl, rfl⟩ := by simpa using h
        exact .sent ht (by simpa using hr)
    · cases h
  | complete =>
    simp only [taskStep] at h
    split at h
    · next ht =>
      obtain ⟨rfl, rfl, rfl⟩ := by simpa using h
      exact .completed ht
    · cases h
  | panic =>
    simp only [taskStep] at h
    split at h
    · next ht =>
      obtain ⟨rfl, rfl, rfl⟩ := by simpa using h
      exact .panicked ht
    · cases h
  | _ => cases h

theorem summarizerStep_sound (h : summarizerStep engine sh c call e = some (sh', call', os)) :
    SummarizerStep engine sh c call e sh' call' os := by
  cases e with
  | keepLast =>
    simp only [summarizerStep] at h
    split at h
    · next hs =>
      obtain ⟨rfl, rfl, rfl⟩ := by simpa using h
      exact .keepLast hs
    · cases h
  | selected ok =>
    simp only [summarizerStep] at h
    split at h
    · next hs =>
      split at h
      · next hcond =>
        obtain ⟨rfl, rfl, rfl⟩ := by simpa using h
        obtain rfl : ok = true := (Bool.and_eq_true_iff.mp hcond).1
        exact .selected hs
      · obtain ⟨rfl, rfl, rfl⟩ := by simpa using h
        exact .nothing hs
    · cases h
  | previousRead ok =>
    simp only [summarizerStep] at h
    split at h
    · next hs =>
      obtain ⟨rfl, rfl, rfl⟩ := by simpa using h
      exact .previousRead hs
    · cases h
  | summarized result =>
    simp only [summarizerStep] at h
    split at h
    · next hs =>
      obtain ⟨rfl, rfl, rfl⟩ := by simpa using h
      exact .summarized hs
    · next hs =>
      obtain ⟨rfl, rfl, rfl⟩ := by simpa using h
      exact .summarizeFailed hs
    · cases h
  | upserted outcome =>
    simp only [summarizerStep] at h
    split at h
    · next hs =>
      obtain ⟨rfl, rfl, rfl⟩ := by simpa using h
      exact .upserted hs
    · cases h
  | _ => cases h

theorem callStep_sound (h : callStep engine sh c call e = some (sh', call', os)) :
    CallStep engine sh c call e sh' call' os := by
  unfold callStep at h
  split at h
  all_goals first
    | exact .task (taskStep_sound h)
    | exact .summarizer (summarizerStep_sound h)
    | exact .request (requestStep_sound h)

/-- A step keeps the user and the utterance of its call. -/
theorem callStep_identity (h : CallStep engine sh c call e sh' call' os) :
    call'.userId = call.userId ∧ call'.utterance = call.utterance := by
  cases h with
  | request h => cases h <;> exact ⟨rfl, rfl⟩
  | task h => cases h <;> exact ⟨rfl, rfl⟩
  | summarizer h => cases h <;> exact ⟨rfl, rfl⟩

/-- A step shows one thing at most. -/
theorem callStep_obs (h : CallStep engine sh c call e sh' call' os) : os = [] ∨ ∃ o, os = [o] := by
  cases h with
  | request h => cases h <;> first | exact .inl rfl | exact .inr ⟨_, rfl⟩
  | task h =>
    cases h with
    | completed _ =>
      split
      · exact .inr ⟨_, rfl⟩
      · exact .inl rfl
    | _ => first | exact .inl rfl | exact .inr ⟨_, rfl⟩
  | summarizer h => cases h <;> first | exact .inl rfl | exact .inr ⟨_, rfl⟩

/-- What a step of a call does to the store. -/
inductive StoreStep (sh : Shared) (call : Call) (e : Event) (sh' : Shared) : Prop
  | unchanged : sh'.store.rows = sh.store.rows → sh'.store.summaries = sh.store.summaries →
      StoreStep sh call e sh'
  | recorded {exchange : ExchangeRecord Content} {userId assistantId : MessageId}
      {createdAt : Nat} {outcome : Outcome} : e = .recordCommitted outcome →
      outcome.applies = true → call.task = .recordCommit exchange userId assistantId createdAt →
      sh'.store = sh.store.commitExchange exchange userId assistantId createdAt →
      StoreStep sh call e sh'
  | deleted {owner : Text} {ids : List MessageId} {summary : Bool} :
      call.pc = .clearCommit owner ids summary → sh'.store = sh.store.delete owner ids summary →
      StoreStep sh call e sh'
  | upserted {owner : Text} {summary : Summary Content} : call.summarizer = .upsert owner summary →
      sh'.store = sh.store.upsertSummary owner summary → StoreStep sh call e sh'

theorem callStep_store (h : CallStep engine sh c call e sh' call' os) :
    StoreStep sh call e sh' := by
  cases h with
  | request h =>
    cases h with
    | forgotten hpc => exact .deleted hpc rfl
    | @forgetFailed _ _ _ applied hpc =>
      cases applied
      · exact .unchanged rfl rfl
      · exact .deleted hpc rfl
    | _ => exact .unchanged rfl rfl
  | task h =>
    cases h with
    | recorded htask happlies => exact .recorded rfl happlies htask rfl
    | _ => exact .unchanged rfl rfl
  | summarizer h =>
    cases h with
    | @upserted _ _ outcome hsummarizer =>
      cases happlies : outcome.applies
      · exact .unchanged rfl rfl
      · exact .upserted hsummarizer rfl
    | _ => exact .unchanged rfl rfl

/-! ## Steps of the machine -/

/-- All calls but this one are as they were. -/
def OthersKept (s s' : State) (c : CallId) (call' : Call) : Prop :=
  ∀ {c' : CallId} {other : Call}, s'.calls[c']? = some other →
    c' = c ∧ other = call' ∨ c' ≠ c ∧ s.calls[c']? = some other

/-- A step leaves all calls as they are but for one that arrives, or is a step of one call. -/
inductive Stepped (engine : Engine) (s : State) (a : Action) (s' : State) (os : List Obs) : Prop
  | idle {now : Nat} : os = [] → s.shared.now ≤ now → s'.shared = { s.shared with now := now } →
      (∀ {c : CallId} {call : Call}, s'.calls[c]? = some call →
        s.calls[c]? = some call ∨ ∃ userId utterance, call = Call.new userId utterance) →
      Stepped engine s a s' os
  | moved {c : CallId} {call call' : Call} {e : Event} : a = .task c e →
      s.calls[c]? = some call → s'.calls[c]? = some call' →
      CallStep engine s.shared c call e s'.shared call' os → OthersKept s s' c call' →
      Stepped engine s a s' os

theorem step_task {s s' : State} (h : (machine engine).step s (.task c e) = some (s', os)) :
    ∃ call call', s.calls[c]? = some call ∧ s'.calls = s.calls.set c call' ∧
      CallStep engine s.shared c call e s'.shared call' os := by
  simp only [machine, step, bind, Option.bind_eq_some_iff] at h
  obtain ⟨call, hcall, ⟨sh, call', os'⟩, hstep, he⟩ := h
  obtain ⟨rfl, rfl⟩ := by simpa using he
  exact ⟨call, call', hcall, rfl, callStep_sound hstep⟩

theorem others_kept {s s' : State} (hcall : s.calls[c]? = some call)
    (hcalls : s'.calls = s.calls.set c call') :
    s'.calls[c]? = some call' ∧ OthersKept s s' c call' := by
  obtain ⟨hlt, _⟩ := List.getElem?_eq_some_iff.mp hcall
  rw [hcalls]
  refine ⟨List.getElem?_set_self hlt, fun {c' other} hother => ?_⟩
  rw [hcalls] at hother
  by_cases hc : c' = c
  · subst hc
    rw [List.getElem?_set_self hlt] at hother
    exact .inl ⟨rfl, (Option.some.inj hother).symm⟩
  · rw [List.getElem?_set_ne (Ne.symm hc)] at hother
    exact .inr ⟨hc, hother⟩

theorem step_cases {s s' : State} {a : Action}
    (h : (machine engine).step s a = some (s', os)) : Stepped engine s a s' os := by
  cases a with
  | arrive userId utterance =>
    obtain ⟨rfl, rfl⟩ := by simpa [machine, step] using h
    refine .idle rfl (Nat.le_refl _) rfl fun {c call} hcall => ?_
    rw [List.getElem?_append] at hcall
    split at hcall
    · exact .inl hcall
    · exact .inr ⟨userId, utterance, by simpa using List.mem_of_getElem? hcall⟩
  | tick =>
    obtain ⟨rfl, rfl⟩ := by simpa [machine, step] using h
    exact .idle rfl (Nat.le_succ _) rfl fun hcall => .inl hcall
  | task c e =>
    obtain ⟨call, call', hcall, hcalls, hstep⟩ := step_task h
    obtain ⟨hcall', hothers⟩ := others_kept hcall hcalls
    exact .moved rfl hcall hcall' hstep hothers

/-- The calls stay, with their user and utterance. -/
theorem step_keeps {s s' : State} {a : Action} (h : (machine engine).step s a = some (s', os))
    (hcall : s.calls[c]? = some call) :
    ∃ call', s'.calls[c]? = some call' ∧ call'.userId = call.userId ∧
      call'.utterance = call.utterance := by
  obtain ⟨hlt, _⟩ := List.getElem?_eq_some_iff.mp hcall
  cases a with
  | arrive userId utterance =>
    obtain ⟨rfl, _⟩ := by simpa [machine, step] using h
    exact ⟨call, by rw [List.getElem?_append_left hlt, hcall], rfl, rfl⟩
  | tick =>
    obtain ⟨rfl, _⟩ := by simpa [machine, step] using h
    exact ⟨call, hcall, rfl, rfl⟩
  | task c' e =>
    obtain ⟨old, new, hold, hcalls, hstep⟩ := step_task h
    rw [hcalls]
    by_cases hc : c = c'
    · subst hc
      obtain rfl := Option.some.inj (hold.symm.trans hcall)
      exact ⟨new, List.getElem?_set_self hlt, callStep_identity hstep⟩
    · exact ⟨call, by rw [List.getElem?_set_ne (Ne.symm hc), hcall], rfl, rfl⟩

end AliceBridge.Core.EngineSteps
