import AliceBridge.Core.AskRace
import AliceBridge.Core.Commands
import AliceBridge.Core.Conversation
import AliceBridge.Core.HouseEngine
import AliceBridge.Core.Prompt

/-! # The legacy engine as a machine

`Engine::handle` cut at its awaits and at its operations on the shared map and
the shared dialogue state. A call is the request with the two tasks it may
spawn: the generation of its reply and, after the recording, the summarization.
An event is one operation of one of the three, with the answer the store, the
model or the clock gave. Any order of events of any number of calls is a run.

The statements of `record_exchange` and `clear_profile` are steps of their own;
their transactions show their rows at the commit. A row lock of a transaction
only delays the others, so no step waits for one. A lookup of the pending map
and the removal that follows it are two steps.

Texts carry their past (`Content`). No step reads it. -/
namespace AliceBridge.Core.Engine
open AliceBridge.Lib.Utf8 AliceBridge.Lib.Words AliceBridge.Lib.Run AliceBridge.Core.Family
open AliceBridge.Core.Commands AliceBridge.Core.Prompt AliceBridge.Core.Pending
open AliceBridge.Core.Conversation
open AliceBridge.Core.AskRace (Channel phraseThinkingStarted phraseInternalError)
open AliceBridge.Core.HouseEngine (Outcome CallId)

/-! ## Phrases -/

def phraseStillThinking : Text := "Ещё думаю, спроси чуть позже.".toList
def phraseProviderTimeout : Text := "Модель отвечает слишком долго. Попробуй ещё раз.".toList
def phraseRateLimited : Text := "Провайдер просит передышку. Попробуй через минутку.".toList
def phraseAuthFailed : Text :=
  "Не получается авторизоваться у провайдера. Проверь ключ в настройках.".toList
def phraseProviderError : Text := "Что-то пошло не так на стороне модели. Попробуй ещё раз.".toList
def helpText : Text :=
  ("Я передаю твои вопросы нейросети. Скажи «это» и своё имя, чтобы я знала, кто говорит. " ++
    "«Забудь всё» — очистить память. «Помни последние десять реплик» — глубина контекста. " ++
    "«Переключись на умную модель» — для сложных вопросов. «Сколько потратили» — статистика. " ++
    "Или просто задай любой вопрос.").toList
def forgottenReply : Text := "Всё, забыла наш разговор. Начинаем с чистого листа.".toList

/-! ## Contents and requests -/

/-- A text with the stored messages it derives from, through answers and summaries
too, and those folded into it as a summary. -/
structure Content where
  text : Text
  origins : List MessageId
  folded : List MessageId
deriving DecidableEq, Repr

/-- A text that derives from no stored message. -/
def Content.fresh (text : Text) : Content := ⟨text, [], []⟩

/-- What a text made from this row derives from. -/
def rowOrigins (row : Row Content) : List MessageId := row.id :: row.content.origins

inductive ChatRole where
  | system
  | user
  | assistant
deriving DecidableEq, Repr

structure ChatMessage where
  role : ChatRole
  content : Content
deriving DecidableEq, Repr

inductive ModelTier where
  | fast
  | smart
deriving DecidableEq, Repr

/-- A `ChatRequest` with the profile and the question `generate` is called with. -/
structure Request where
  profile : Text
  question : Text
  tier : ModelTier
  messages : List ChatMessage
deriving DecidableEq, Repr

def Request.origins (request : Request) : List MessageId :=
  request.messages.flatMap fun message => message.content.origins

inductive ProviderError where
  | timeout
  | rateLimited
  | auth
  | api
  | network
  | invalidResponse
deriving DecidableEq, Repr

def phraseForProviderError : ProviderError → Text
  | .timeout => phraseProviderTimeout
  | .rateLimited => phraseRateLimited
  | .auth => phraseAuthFailed
  | .api | .network | .invalidResponse => phraseProviderError

/-- The answer of a chat request, a completion with the cost of its tokens. -/
inductive ChatResult where
  | completion (text : Text) (costMicros : Int)
  | error (err : ProviderError)
deriving DecidableEq, Repr

/-! ## The engine -/

structure EngineConfig where
  contextWindow : Nat
  replyBudget : Nat
deriving DecidableEq, Repr

/-- The engine, with `{:.2}` of an amount in micro-dollars. -/
structure Engine where
  roster : FamilyRoster
  modes : List Mode
  config : EngineConfig
  formatUsd : Int → Text

structure DialogueState where
  activeProfile : Text
  mode : Option Text
  modelTier : ModelTier
  windowOverride : Option Nat
deriving DecidableEq, Repr

def DialogueState.window (dialogue : DialogueState) (config : EngineConfig) : Nat :=
  dialogue.windowOverride.getD config.contextWindow

/-- The locals of `ask_llm` up to the prompt. -/
structure Ask where
  profileName : Text
  profile : Profile
  mode : Option Mode
  tier : ModelTier
  window : Nat
  question : Text
deriving DecidableEq

/-- Where `handle` stands: its next operation and the locals it still needs. -/
inductive Pc where
  | lookup
  | polled (seen : PendingState)
  | expire
  | dispatch
  | clearMessages (profile : Text)
  | clearSummary (profile : Text) (ids : List MessageId)
  | clearCommit (profile : Text) (ids : List MessageId) (summary : Bool)
  | usage
  | usageToday (dayStart monthStart : Nat)
  | usageMonth (monthStart : Nat) (today : Option UsageStats)
  | ask (question : Text) (tier : Option ModelTier)
  | summary (ask : Ask)
  | history (ask : Ask) (summary : Option Content)
  | mark (request : Request)
  | spawn (request : Request)
  | pollReceiver
  | pollTimer
  | dropReceiver
  | clear (reply : Text)
  | returned (reply : Text)
  | deferred
deriving DecidableEq

/-- What `handle` returned. -/
def Pc.reply : Pc → Option Text
  | .returned reply => some reply
  | .deferred => some phraseThinkingStarted
  | _ => none

/-- The spawned reply task: `generate`, the send of its reply, and `complete` when the
receiver is gone. `inTime` tells whether `generate` returned within `THINKING_TTL` of
the mark, `landed` whether `complete` found an entry. -/
inductive Task where
  | unspawned
  | spawned (request : Request)
  | chatting (request : Request)
  | recordUser (exchange : ExchangeRecord Content)
  | recordAssistant (exchange : ExchangeRecord Content) (userId : MessageId) (createdAt : Nat)
  | recordCommit (exchange : ExchangeRecord Content) (userId assistantId : MessageId)
      (createdAt : Nat)
  | spawnSummarizer (profile reply : Text)
  | send (reply : Text) (inTime : Bool)
  | complete (reply : Text) (inTime : Bool)
  | sent (reply : Text) (inTime : Bool)
  | completed (reply : Text) (inTime landed : Bool)
  | panicked
deriving DecidableEq, Repr

/-- `maybe_summarize`. -/
inductive Summarizer where
  | unspawned
  | keepLast (profile : Text)
  | select (profile : Text) (keepLast : Nat)
  | previous (profile : Text) (rows : List (Row Content)) (covered : MessageId)
  | chatting (profile : Text) (rows : List (Row Content)) (previous : Content)
  | upsert (profile : Text) (summary : Summary Content)
  | done
deriving DecidableEq, Repr

structure Call where
  userId : Text
  utterance : Text
  pc : Pc
  task : Task
  channel : Channel
  summarizer : Summarizer
  markedAt : Nat
  deadline : Nat
deriving DecidableEq

def Call.new (userId utterance : Text) : Call :=
  { userId := userId
    utterance := utterance
    pc := .lookup
    task := .unspawned
    channel := ⟨none, false, false⟩
    summarizer := .unspawned
    markedAt := 0
    deadline := 0 }

structure Shared where
  store : Store Content
  pending : PendingAnswers
  dialogue : DialogueState
  now : Nat

def Shared.clearPending (sh : Shared) (userId : Text) : Shared :=
  { sh with pending := sh.pending.clear userId }

structure State where
  shared : Shared
  calls : List Call

inductive Event where
  | next
  | cleared (ok : Bool)
  | clearCommitted (outcome : Outcome)
  | usageClock (dayStart monthStart : Nat)
  | usageRead (ok : Bool)
  | summaryRead (ok : Bool)
  | historyRead (ok : Bool) (today : NaiveDate)
  | chat
  | chatted (result : ChatResult)
  | inserted (ok : Bool)
  | recordCommitted (outcome : Outcome)
  | spawnSummarizer
  | send
  | complete
  | panic
  | keepLast
  | selected (ok : Bool)
  | previousRead (ok : Bool)
  | summarized (text : Option Text)
  | upserted (outcome : Outcome)
deriving DecidableEq

inductive Action where
  | arrive (userId utterance : Text)
  | task (call : CallId) (event : Event)
  | tick
deriving DecidableEq

/-- What a run shows: the chat requests, the exchanges that were recorded, the
deletions of Forget, and what happened to the entry of a user. -/
inductive Obs where
  | asked (call : CallId) (profile : Text) (messages : List ChatMessage)
  | summarizing (call : CallId) (profile : Text) (instruction : Content)
  | recorded (call : CallId) (profile : Text) (ids : List MessageId)
  | forgetting (call : CallId) (profile : Text)
  | forgotten (call : CallId) (profile : Text)
  | marked (call : CallId) (userId : Text)
  | landed (call : CallId) (userId reply : Text)
  | polled (call : CallId) (userId reply : Text)
deriving DecidableEq, Repr

/-! ## The request -/

/-- `execute` up to its first await, and a question's way to `ask_llm`. -/
def dispatch (engine : Engine) (dialogue : DialogueState) (utterance : Text) :
    DialogueState × Pc :=
  match parse utterance engine.roster engine.modes with
  | .command (.introduce name) =>
    ({ dialogue with activeProfile := name },
      .returned ("Привет, ".toList ++ name ++ "! Слушаю.".toList))
  | .command .forget => (dialogue, .clearMessages dialogue.activeProfile)
  | .command (.setWindow n) =>
    let n := max 1 (min n 50)
    ({ dialogue with windowOverride := some n },
      .returned ("Хорошо, теперь помню последние ".toList ++ decimal n ++ " реплик.".toList))
  | .command .useSmartModel =>
    ({ dialogue with modelTier := .smart }, .returned "Переключилась на умную модель.".toList)
  | .command .useFastModel =>
    ({ dialogue with modelTier := .fast }, .returned "Переключилась на быструю модель.".toList)
  | .command .usageStats => (dialogue, .usage)
  | .command .whoAmI =>
    (dialogue, .returned ("Сейчас со мной говорит ".toList ++ dialogue.activeProfile ++ ".".toList))
  | .command (.enterMode name) => ({ dialogue with mode := some name }, .ask utterance none)
  | .command .exitMode =>
    ({ dialogue with mode := none }, .returned "Возвращаюсь в обычный режим.".toList)
  | .command .help => (dialogue, .returned helpText)
  | .ask text thinkHard => (dialogue, .ask text (if thinkHard then some .smart else none))

/-- `ask_llm` reads the dialogue state and resolves its names. -/
def startAsk (engine : Engine) (dialogue : DialogueState) (question : Text)
    (tierOverride : Option ModelTier) : Pc :=
  match engine.roster.get dialogue.activeProfile with
  | none => .returned phraseInternalError
  | some profile =>
    .summary
      { profileName := dialogue.activeProfile
        profile := profile
        mode := dialogue.mode.bind fun name => engine.modes.find? fun m => m.name == name
        tier := tierOverride.getD dialogue.modelTier
        window := dialogue.window engine.config
        question := question }

def usageReply (engine : Engine) : Option UsageStats → Option UsageStats → Text
  | some today, some month =>
    "Сегодня ".toList ++ decimal today.requests ++ " ответов примерно на ".toList ++
      engine.formatUsd today.costMicros ++ " долларов. С начала месяца ".toList ++
      decimal month.requests ++ " ответов на ".toList ++ engine.formatUsd month.costMicros ++
      " долларов.".toList
  | _, _ => phraseInternalError

def systemMessage (engine : Engine) (ask : Ask) (today : NaiveDate) (summary : Option Content) :
    ChatMessage :=
  { role := .system
    content :=
      { text := buildSystemPrompt
          { today := today
            profile := ask.profile
            roster := engine.roster
            mode := ask.mode
            summary := summary.map Content.text }
        origins := (summary.map Content.origins).getD []
        folded := [] } }

def historyMessage (row : Row Content) : ChatMessage :=
  { role := match row.role with
      | .user => .user
      | .assistant => .assistant
    content :=
      { text := row.content.text
        origins := rowOrigins row
        folded := [] } }

def buildRequest (engine : Engine) (ask : Ask) (today : NaiveDate) (summary : Option Content)
    (history : List (Row Content)) : Request :=
  { profile := ask.profileName
    question := ask.question
    tier := ask.tier
    messages := systemMessage engine ask today summary ::
      (history.map historyMessage ++
        [{ role := .user, content := Content.fresh ask.question }]) }

/-- The rows `clear_profile` deletes: those its first statement finds. -/
def clearedIds (store : Store Content) (profile : Text) : List MessageId :=
  (store.profileRows profile).map Row.id

def Call.closeReceiver (call : Call) (pc : Pc) : Call :=
  { call with channel := { call.channel with value := none, receiverDropped := true }, pc := pc }

/-- The request between its awaits. -/
def nextStep (engine : Engine) (sh : Shared) (c : CallId) (call : Call) :
    Option (Shared × Call × List Obs) :=
  match call.pc with
  | .lookup =>
    match sh.pending call.userId with
    | some entry => some (sh, { call with pc := .polled entry }, [])
    | none => some (sh, { call with pc := .dispatch }, [])
  | .polled (.ready _) =>
    match sh.pending call.userId with
    | some (.ready text) =>
      some (sh.clearPending call.userId, { call with pc := .returned text },
        [.polled c call.userId text])
    | _ => some (sh.clearPending call.userId, { call with pc := .dispatch }, [])
  | .polled (.thinking since) =>
    if sh.now - since > thinkingTtl then some (sh, { call with pc := .expire }, [])
    else some (sh, { call with pc := .returned phraseStillThinking }, [])
  | .expire => some (sh.clearPending call.userId, { call with pc := .dispatch }, [])
  | .dispatch =>
    let (dialogue, pc) := dispatch engine sh.dialogue call.utterance
    some ({ sh with dialogue := dialogue }, { call with pc := pc }, [])
  | .ask question tier =>
    some (sh, { call with pc := startAsk engine sh.dialogue question tier }, [])
  | .mark request =>
    some ({ sh with pending := sh.pending.markThinking call.userId sh.now },
      { call with pc := .spawn request, markedAt := sh.now }, [.marked c call.userId])
  | .spawn request =>
    some (sh,
      { call with
        pc := .pollReceiver
        task := .spawned request
        deadline := sh.now + engine.config.replyBudget }, [])
  | .pollReceiver =>
    match call.channel.value with
    | some reply => some (sh, call.closeReceiver (.clear reply), [])
    | none =>
      if call.channel.senderDropped then
        some (sh, call.closeReceiver (.clear phraseInternalError), [])
      else some (sh, { call with pc := .pollTimer }, [])
  | .pollTimer =>
    some (sh,
      { call with pc := if sh.now ≥ call.deadline then .dropReceiver else .pollReceiver }, [])
  | .dropReceiver =>
    some (sh,
      { call with channel := { call.channel with receiverDropped := true }, pc := .deferred }, [])
  | .clear reply => some (sh.clearPending call.userId, { call with pc := .returned reply }, [])
  | _ => none

/-- The store operations of the request. -/
def requestStep (engine : Engine) (sh : Shared) (c : CallId) (call : Call) :
    Event → Option (Shared × Call × List Obs)
  | .next => nextStep engine sh c call
  | .cleared ok =>
    match call.pc with
    | .clearMessages profile =>
      if ok then
        some (sh, { call with pc := .clearSummary profile (clearedIds sh.store profile) },
          [.forgetting c profile])
      else some (sh, { call with pc := .returned phraseInternalError }, [])
    | .clearSummary profile ids =>
      if ok then
        some (sh,
          { call with pc := .clearCommit profile ids (sh.store.summaries profile).isSome }, [])
      else some (sh, { call with pc := .returned phraseInternalError }, [])
    | _ => none
  | .clearCommitted outcome =>
    match call.pc with
    | .clearCommit profile ids summary =>
      let store := if outcome.applies then sh.store.delete profile ids summary else sh.store
      match outcome with
      | .ok =>
        some ({ sh with store := store }, { call with pc := .returned forgottenReply },
          [.forgotten c profile])
      | .err _ =>
        some ({ sh with store := store }, { call with pc := .returned phraseInternalError }, [])
    | _ => none
  | .usageClock dayStart monthStart =>
    match call.pc with
    | .usage => some (sh, { call with pc := .usageToday dayStart monthStart }, [])
    | _ => none
  | .usageRead ok =>
    match call.pc with
    | .usageToday dayStart monthStart =>
      let today := if ok then some (sh.store.usageSince dayStart) else none
      some (sh, { call with pc := .usageMonth monthStart today }, [])
    | .usageMonth monthStart today =>
      let month := if ok then some (sh.store.usageSince monthStart) else none
      some (sh, { call with pc := .returned (usageReply engine today month) }, [])
    | _ => none
  | .summaryRead ok =>
    match call.pc with
    | .summary ask =>
      let summary := if ok then sh.store.summaries ask.profileName else none
      some (sh, { call with pc := .history ask (summary.map Summary.content) }, [])
    | _ => none
  | .historyRead ok today =>
    match call.pc with
    | .history ask summary =>
      let history := if ok then sh.store.recentMessages ask.profileName ask.window else []
      some (sh, { call with pc := .mark (buildRequest engine ask today summary history) }, [])
    | _ => none
  | _ => none

/-! ## The reply task -/

/-- The exchange `generate` records, its answer deriving from the whole request. -/
def answerExchange (request : Request) (text : Text) (costMicros : Int) :
    ExchangeRecord Content :=
  { profile := request.profile
    userText := Content.fresh request.question
    assistantText := { text := text, origins := request.origins, folded := [] }
    costMicros := costMicros }

def Task.running : Task → Bool
  | .spawned _ | .chatting _ | .recordUser _ | .recordAssistant .. | .recordCommit ..
  | .spawnSummarizer .. => true
  | _ => false

/-- `generate` returns this reply. -/
def Call.reply (call : Call) (now : Nat) (reply : Text) : Call :=
  { call with task := .send reply (decide (now - call.markedAt ≤ thinkingTtl)) }

def taskStep (sh : Shared) (c : CallId) (call : Call) :
    Event → Option (Shared × Call × List Obs)
  | .chat =>
    match call.task with
    | .spawned request =>
      some (sh, { call with task := .chatting request },
        [.asked c request.profile request.messages])
    | _ => none
  | .chatted result =>
    match call.task, result with
    | .chatting request, .completion text cost =>
      some (sh, { call with task := .recordUser (answerExchange request text cost) }, [])
    | .chatting _, .error err => some (sh, call.reply sh.now (phraseForProviderError err), [])
    | _, _ => none
  | .inserted ok =>
    match call.task with
    | .recordUser exchange =>
      if ok then
        some ({ sh with store := sh.store.drawId },
          { call with task := .recordAssistant exchange sh.store.drawId.lastId sh.now }, [])
      else
        some (sh, { call with
          task := .spawnSummarizer exchange.profile exchange.assistantText.text }, [])
    | .recordAssistant exchange userId createdAt =>
      if ok then
        some ({ sh with store := sh.store.drawId },
          { call with
            task := .recordCommit exchange userId sh.store.drawId.lastId createdAt }, [])
      else
        some (sh, { call with
          task := .spawnSummarizer exchange.profile exchange.assistantText.text }, [])
    | _ => none
  | .recordCommitted outcome =>
    match call.task with
    | .recordCommit exchange userId assistantId createdAt =>
      let call' := { call with
        task := .spawnSummarizer exchange.profile exchange.assistantText.text }
      if outcome.applies then
        some ({ sh with store := sh.store.commitExchange exchange userId assistantId createdAt },
          call', [.recorded c exchange.profile [userId, assistantId]])
      else some (sh, call', [])
    | _ => none
  | .spawnSummarizer =>
    match call.task with
    | .spawnSummarizer profile reply =>
      some (sh, { call with summarizer := .keepLast profile }.reply sh.now reply, [])
    | _ => none
  | .send =>
    match call.task with
    | .send reply inTime =>
      if call.channel.receiverDropped then
        some (sh,
          { call with
            task := .complete reply inTime
            channel := { call.channel with senderDropped := true } }, [])
      else
        some (sh,
          { call with
            task := .sent reply inTime
            channel := { call.channel with value := some reply, senderDropped := true } }, [])
    | _ => none
  | .complete =>
    match call.task with
    | .complete reply inTime =>
      let landed := (sh.pending call.userId).isSome
      some ({ sh with pending := sh.pending.complete call.userId reply },
        { call with task := .completed reply inTime landed },
        if landed then [.landed c call.userId reply] else [])
    | _ => none
  | .panic =>
    if call.task.running then
      some (sh,
        { call with
          task := .panicked
          channel := { call.channel with senderDropped := true } }, [])
    else none
  | _ => none

/-! ## Summarization -/

def speaker : MessageRole → Text
  | .user => "Пользователь".toList
  | .assistant => "Ассистент".toList

def transcript (rows : List (Row Content)) : Text :=
  rows.flatMap fun row => line (speaker row.role ++ ": ".toList ++ row.content.text)

/-- The one message of a summarization request. -/
def instruction (previous : Content) (rows : List (Row Content)) : Content :=
  { text := ("Сожми диалог в краткое резюме из трёх-пяти предложений. " ++
        "Сохрани важные факты о собеседнике и темы разговора.\nТекущее резюме: ").toList ++
      previous.text ++ "\nНовые реплики:\n".toList ++ transcript rows
    origins := previous.origins ++ rows.flatMap rowOrigins
    folded := [] }

/-- The summary made of an instruction. -/
def rollingSummary (previous : Content) (rows : List (Row Content)) (text : Text) :
    Summary Content :=
  { content :=
      { text := text
        origins := (instruction previous rows).origins
        folded := previous.folded ++ rows.map Row.id }
    coversUntilMessageId := lastOfRows rows }

/-- `unwrap_or_default` of the previous summary. -/
def previousContent (store : Store Content) (profile : Text) (ok : Bool) : Content :=
  if ok then ((store.summaries profile).map Summary.content).getD (Content.fresh [])
  else Content.fresh []

def summarizerStep (engine : Engine) (sh : Shared) (c : CallId) (call : Call) :
    Event → Option (Shared × Call × List Obs)
  | .keepLast =>
    match call.summarizer with
    | .keepLast profile =>
      some (sh, { call with summarizer := .select profile (sh.dialogue.window engine.config) }, [])
    | _ => none
  | .selected ok =>
    match call.summarizer with
    | .select profile keepLast =>
      let rows := sh.store.unsummarized profile keepLast
      if ok && decide (keepLast ≤ rows.length) then
        some (sh,
          { call with summarizer := .previous profile rows (sh.store.coversUntil profile) }, [])
      else some (sh, { call with summarizer := .done }, [])
    | _ => none
  | .previousRead ok =>
    match call.summarizer with
    | .previous profile rows _ =>
      let previous := previousContent sh.store profile ok
      some (sh, { call with summarizer := .chatting profile rows previous },
        [.summarizing c profile (instruction previous rows)])
    | _ => none
  | .summarized result =>
    match call.summarizer, result with
    | .chatting profile rows previous, some text =>
      some (sh, { call with summarizer := .upsert profile (rollingSummary previous rows text) }, [])
    | .chatting _ _ _, none => some (sh, { call with summarizer := .done }, [])
    | _, _ => none
  | .upserted outcome =>
    match call.summarizer with
    | .upsert profile summary =>
      let store := if outcome.applies then sh.store.upsertSummary profile summary else sh.store
      some ({ sh with store := store }, { call with summarizer := .done }, [])
    | _ => none
  | _ => none

/-! ## Runs -/

def callStep (engine : Engine) (sh : Shared) (c : CallId) (call : Call) (e : Event) :
    Option (Shared × Call × List Obs) :=
  match e with
  | .chat | .chatted _ | .inserted _ | .recordCommitted _ | .spawnSummarizer | .send | .complete
  | .panic => taskStep sh c call e
  | .keepLast | .selected _ | .previousRead _ | .summarized _ | .upserted _ =>
    summarizerStep engine sh c call e
  | _ => requestStep engine sh c call e

def step (engine : Engine) (s : State) : Action → Option (State × List Obs)
  | .arrive userId utterance =>
    some ({ s with calls := s.calls ++ [Call.new userId utterance] }, [])
  | .task c e => do
    let call ← s.calls[c]?
    let (sh, call', os) ← callStep engine s.shared c call e
    some ({ shared := sh, calls := s.calls.set c call' }, os)
  | .tick => some ({ s with shared := { s.shared with now := s.shared.now + 1 } }, [])

def machine (engine : Engine) : Machine State Action Obs := ⟨step engine⟩

/-- `Engine::new` on an empty database. -/
def initial (engine : Engine) : State :=
  { shared :=
      { store := Store.empty
        pending := fun _ => none
        dialogue :=
          { activeProfile := engine.roster.defaultProfile.name
            mode := none
            modelTier := .fast
            windowOverride := none }
        now := 0 }
    calls := [] }

/-! ## A family of two -/

def dima : Profile :=
  { name := "Дима".toList
    aliases := ["папа".toList]
    birthday := none
    role := .adult
    persona := [] }

def masha : Profile :=
  { name := "Маша".toList
    aliases := []
    birthday := none
    role := .child
    persona := [] }

/-- Two members and a window of one message. -/
def fixture : Engine :=
  { roster := ⟨[dima, masha], ⟨0, Nat.zero_lt_two⟩⟩
    modes := []
    config := { contextWindow := 1, replyBudget := 1 }
    formatUsd := fun _ => [] }

def someDay : NaiveDate := ⟨2026, 7, 11, by decide⟩

def tasks (c : CallId) (events : List Event) : List Action := events.map (.task c)

/-- A question up to its spawned reply task. -/
def opening (c : CallId) : List Action :=
  tasks c [.next, .next, .next, .summaryRead true, .historyRead true someDay, .next, .next]

/-- The reply task, up to the send. -/
def recording (c : CallId) (text : Text) : List Action :=
  tasks c [.chat, .chatted (.completion text 0), .inserted true, .inserted true,
    .recordCommitted .ok, .spawnSummarizer]

/-- The request receives the reply in time. -/
def delivery (c : CallId) : List Action := tasks c [.send, .next, .next]

/-- A whole exchange, answered in time. -/
def exchange (c : CallId) (utterance text : Text) : List Action :=
  .arrive ['u'] utterance :: opening c ++ recording c text ++ delivery c

/-- A summarization up to its request, and the rest of it. -/
def selection (c : CallId) : List Action := tasks c [.keepLast, .selected true]
def compression (c : CallId) (text : Text) : List Action :=
  tasks c [.summarized (some text), .upserted .ok]

/-- A Forget from its arrival to its confirmation. -/
def forget (c : CallId) : List Action :=
  .arrive ['u'] "забудь".toList ::
    tasks c [.next, .next, .cleared true, .cleared true, .clearCommitted .ok]

end AliceBridge.Core.Engine
