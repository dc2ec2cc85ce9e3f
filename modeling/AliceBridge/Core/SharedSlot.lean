import AliceBridge.Lib.Ledger
import AliceBridge.Core.EngineSteps

/-! # One entry for all devices of an account

The entry of a user does not say which request it belongs to. A request is asking
from its mark until the fast path has cleared the entry or, when it was deferred,
until its task has ended; a deferred one is awaited until then. A step disturbs
the others when it marks over an answer or over an awaited request, when it
times out beside another asking request or without its own mark, or when a poll
removes what was put there after it looked. In a run without such steps every
answer that was promised is spoken once or waits. -/
namespace AliceBridge.Core.SharedSlot
open AliceBridge.Lib.Utf8 AliceBridge.Lib.Run AliceBridge.Lib.Ledger AliceBridge.Core.Pending
open AliceBridge.Core.Engine AliceBridge.Core.EngineSteps
open AliceBridge.Core.AskRace (Channel phraseInternalError)
open AliceBridge.Core.HouseEngine (CallId)

/-! ## What was promised -/

/-- The reply of a request that was told to wait: one generated in time, or one
that was stored for it. -/
def owed (call : Call) : Option (Text × Text) :=
  match call.pc, call.task with
  | .deferred, .sent reply inTime => if inTime then some (call.userId, reply) else none
  | .deferred, .completed reply inTime landed =>
    if inTime || landed then some (call.userId, reply) else none
  | _, _ => none

def paidOf : Obs → Option (Text × Text)
  | .polled _ userId reply => some (userId, reply)
  | _ => none

def readyText : Option PendingState → Option Text
  | some (.ready text) => some text
  | _ => none

def waiting (entry : Option PendingState) : Multiset Text := (readyText entry).elim 0 ({·})

/-- The next request of the user returns this text and empties the entry. -/
def Retrievable (engine : Engine) (s : State) (userId text : Text) : Prop :=
  ∀ utterance, ∃ s', (machine engine).exec s
      (.arrive userId utterance :: tasks s.calls.length [.next, .next]) =
        some (s', [.polled s.calls.length userId text]) ∧
    (s'.calls[s.calls.length]?.bind fun call => call.pc.reply) = some text ∧
    s'.shared.pending userId = none

def markOf (userId : Text) : Obs → Option CallId
  | .marked c owner => if owner = userId then some c else none
  | _ => none

/-- A late reply lands in the mark of its own request. -/
def NewestLands (before : List Obs) : Obs → Prop
  | .landed c userId _ => lastOf (markOf userId) before = some c
  | _ => True

/-- Every reply that was promised to the user was returned by one poll or waits for the
next, and no request has taken the entry of a newer one. -/
structure Settled (engine : Engine) (s : State) (os : List Obs) (userId : Text) : Prop where
  conserved : total owed userId s.calls = total paidOf userId os + waiting (s.shared.pending userId)
  retrievable : ∀ {text}, s.shared.pending userId = some (.ready text) →
    Retrievable engine s userId text
  newest : Each NewestLands os

/-! ## Steps that disturb nothing -/

def ended : Task → Bool
  | .sent _ _ | .completed _ _ _ | .panicked => true
  | _ => false

/-- Where a request stands with respect to the entry of its user. -/
inductive Phase where
  | early
  | marked
  | polling
  | clearing
  | deferred
  | returned
deriving DecidableEq

def phase : Pc → Phase
  | .spawn _ => .marked
  | .pollReceiver | .pollTimer | .dropReceiver => .polling
  | .clear _ => .clearing
  | .deferred => .deferred
  | .returned _ => .returned
  | _ => .early

def awaited (call : Call) : Bool :=
  match phase call.pc with
  | .deferred => !ended call.task
  | _ => false

def asking (call : Call) : Bool :=
  match phase call.pc with
  | .marked | .polling | .clearing => true
  | _ => awaited call

/-- The reply has been generated in time. -/
def arriving : Task → Bool
  | .send _ inTime | .complete _ inTime => inTime
  | _ => false

/-- The reply is, or can still be, one that was generated in time. -/
def timely (now : Nat) (call : Call) : Bool :=
  decide (now - call.markedAt ≤ thinkingTtl) || arriving call.task

def due (now : Nat) (call : Call) : Bool := awaited call && timely now call

def isThinking : Option PendingState → Bool
  | some (.thinking _) => true
  | _ => false

/-- No call of the user is one of these. -/
def noneOf (p : Call → Bool) (userId : Text) (calls : List Call) : Bool :=
  calls.all fun call => call.userId != userId || !p call

def spares (s : State) (c : CallId) (call : Call) : Bool :=
  let entry := s.shared.pending call.userId
  match call.pc with
  | .mark _ => (readyText entry).isNone && noneOf awaited call.userId s.calls
  | .polled (.ready _) => !isThinking entry || noneOf (due s.shared.now) call.userId s.calls
  | .expire => (readyText entry).isNone && noneOf (due s.shared.now) call.userId s.calls
  | .dropReceiver =>
    call.channel.value.isNone && noneOf asking call.userId (s.calls.eraseIdx c) &&
      (entry.isSome || !timely s.shared.now call)
  | _ => true

/-- The step is none of a request that disturbs the entry. -/
def undisturbed (s : State) : Action → Bool
  | .task c .next => s.calls[c]?.all (spares s c)
  | _ => true

theorem noneOf_spec {p : Call → Bool} {userId : Text} {calls : List Call}
    (h : noneOf p userId calls = true) {call : Call} (hcall : call ∈ calls)
    (huser : call.userId = userId) : p call = false := by
  have hall := List.all_eq_true.mp h call hcall
  simpa [huser] using hall

theorem noneOf_others {p : Call → Bool} {userId : Text} {calls : List Call} {c c' : CallId}
    {other : Call} (h : noneOf p userId (calls.eraseIdx c) = true)
    (hother : calls[c']? = some other) (hc : c' ≠ c) (huser : other.userId = userId) :
    p other = false :=
  noneOf_spec h (List.mem_eraseIdx_iff_getElem?.mpr ⟨c', hc, hother⟩) huser

/-! ## The two tasks of a request -/

def working : Task → Bool
  | .send _ _ => true
  | task => task.running

/-- The request, its task and the channel between them. -/
inductive Coupled : Phase → Task → Channel → Prop
  | early : Coupled .early .unspawned ⟨none, false, false⟩
  | marked : Coupled .marked .unspawned ⟨none, false, false⟩
  | answered : Coupled .returned .unspawned ⟨none, false, false⟩
  | working {task : Task} : working task = true → Coupled .polling task ⟨none, false, false⟩
  | sent {reply : Text} {inTime : Bool} :
      Coupled .polling (.sent reply inTime) ⟨some reply, false, true⟩
  | failed : Coupled .polling .panicked ⟨none, false, true⟩
  | clearing {task : Task} {channel : Channel} : ended task = true →
      Coupled .clearing task channel
  | returned {task : Task} {channel : Channel} : ended task = true →
      Coupled .returned task channel
  | deferred {task : Task} : SharedSlot.working task = true →
      Coupled .deferred task ⟨none, true, false⟩
  | completing {reply : Text} {inTime : Bool} {channel : Channel} :
      Coupled .deferred (.complete reply inTime) channel
  | settled {task : Task} {channel : Channel} :
      (task = .panicked ∨ ∃ reply inTime landed, task = .completed reply inTime landed) →
      Coupled .deferred task channel

variable {engine : Engine} {sh sh' : Shared} {s s' : State} {c c' : CallId}
  {call call' other : Call} {e : Event} {a : Action} {o : Obs} {os os' : List Obs} {key : Text}
  {pc : Pc}

def Attached (call : Call) : Prop := Coupled (phase call.pc) call.task call.channel

/-- What a step does to the entry of its user, to the standing of its request and to what
is owed. -/
inductive Effect (sh : Shared) (c : CallId) (call : Call) (e : Event) (sh' : Shared)
    (call' : Call) : List Obs → Prop
  | quiet {os : List Obs} : sh'.pending = sh.pending → asking call' = asking call →
      awaited call' = awaited call →
      (timely sh.now call' = true → timely sh.now call = true) →
      owed call' = owed call → (∀ o ∈ os, paidOf o = none ∧ (∀ key, markOf key o = none) ∧
        ∀ before, NewestLands before o) → Effect sh c call e sh' call' os
  | marked {request : Request} : e = .next → call.pc = .mark request →
      sh'.pending = sh.pending.markThinking call.userId sh.now → asking call' = true →
      awaited call' = false → owed call = none → owed call' = none →
      Effect sh c call e sh' call' [.marked c call.userId]
  | taken {text : Text} : sh.pending call.userId = some (.ready text) →
      sh'.pending = sh.pending.clear call.userId → asking call' = false → owed call = none →
      owed call' = none → Effect sh c call e sh' call' [.polled c call.userId text]
  | removed : e = .next → (asking call = true ∧ awaited call = false ∨ call.pc = .expire ∨
        ∃ seen, call.pc = .polled (.ready seen) ∧ readyText (sh.pending call.userId) = none) →
      sh'.pending = sh.pending.clear call.userId → asking call' = false → owed call = none →
      owed call' = none → Effect sh c call e sh' call' []
  | deferred : e = .next → call.pc = .dropReceiver → sh'.pending = sh.pending →
      asking call' = awaited call' → timely sh.now call' = timely sh.now call →
      owed call = none → owed call' = none → Effect sh c call e sh' call' []
  | stopped : awaited call = true → sh'.pending = sh.pending → asking call' = false →
      owed call = none → owed call' = none → Effect sh c call e sh' call' []
  | completed {reply : Text} {inTime landed : Bool} : awaited call = true →
      call.task = .complete reply inTime → landed = (sh.pending call.userId).isSome →
      sh'.pending = sh.pending.complete call.userId reply → asking call' = false →
      owed call = none →
      owed call' = (if inTime || landed then some (call.userId, reply) else none) →
      Effect sh c call e sh' call' (if landed then [.landed c call.userId reply] else [])

/-- A request that is not asking and has not been deferred. -/
def idle (pc : Pc) : Prop := phase pc = .early ∨ phase pc = .returned

theorem not_deferred (h : phase call.pc ≠ .deferred) : awaited call = false ∧ owed call = none := by
  unfold awaited owed
  constructor
  · split
    · next hphase => exact absurd hphase h
    · rfl
  · split
    · next hpc _ => exact absurd (congrArg phase hpc) h
    · next hpc _ => exact absurd (congrArg phase hpc) h
    · rfl

theorem idle_call (h : idle call.pc) :
    asking call = false ∧ awaited call = false ∧ owed call = none := by
  have hdeferred : phase call.pc ≠ .deferred := by
    rcases h with h | h <;> rw [h] <;> decide
  obtain ⟨hawaited, howed⟩ := not_deferred hdeferred
  refine ⟨?_, hawaited, howed⟩
  unfold asking
  rcases h with h | h <;> simp [h, hawaited]

theorem busy_call (h : phase call.pc = .marked ∨ phase call.pc = .polling ∨
    phase call.pc = .clearing) :
    asking call = true ∧ awaited call = false ∧ owed call = none := by
  have hdeferred : phase call.pc ≠ .deferred := by
    rcases h with h | h | h <;> rw [h] <;> decide
  obtain ⟨hawaited, howed⟩ := not_deferred hdeferred
  refine ⟨?_, hawaited, howed⟩
  unfold asking
  rcases h with h | h | h <;> simp [h]

theorem startAsk_idle (dialogue : DialogueState) (question : Text) (tier : Option ModelTier) :
    idle (startAsk engine dialogue question tier) := by
  unfold startAsk
  split
  · exact .inr rfl
  · exact .inl rfl

theorem dispatch_idle (dialogue : DialogueState) (utterance : Text) :
    idle (dispatch engine dialogue utterance).2 := by
  unfold dispatch
  split <;> first | exact .inl rfl | exact .inr rfl

theorem moves_phase (h : Moves engine sh call e pc) :
    phase call.pc = .early ∧ idle pc ∨ phase call.pc = .polling ∧ phase pc = .polling := by
  cases h with
  | asks hpc => exact .inl ⟨congrArg phase hpc, startAsk_idle ..⟩
  | clearFailed hpc =>
    rcases hpc with hpc | ⟨ids, hpc⟩
    · exact .inl ⟨congrArg phase hpc, .inr rfl⟩
    · exact .inl ⟨congrArg phase hpc, .inr rfl⟩
  | noReply hpc _ _ => exact .inr ⟨congrArg phase hpc, rfl⟩
  | timer hpc hnext =>
    rcases hnext with rfl | rfl
    · exact .inr ⟨congrArg phase hpc, rfl⟩
    · exact .inr ⟨congrArg phase hpc, rfl⟩
  | fresh hpc _ => exact .inl ⟨congrArg phase hpc, .inr rfl⟩
  | usageMonth hpc => exact .inl ⟨congrArg phase hpc, .inr rfl⟩
  | found hpc _ => exact .inl ⟨congrArg phase hpc, .inl rfl⟩
  | absent hpc _ => exact .inl ⟨congrArg phase hpc, .inl rfl⟩
  | old hpc _ => exact .inl ⟨congrArg phase hpc, .inl rfl⟩
  | summaryDeleted hpc => exact .inl ⟨congrArg phase hpc, .inl rfl⟩
  | usageClock hpc => exact .inl ⟨congrArg phase hpc, .inl rfl⟩
  | usageToday hpc => exact .inl ⟨congrArg phase hpc, .inl rfl⟩

/-- A step of a request that waits and goes on waiting. -/
theorem Effect.polling (hfrom : phase call.pc = .polling) (hto : phase call'.pc = .polling)
    (htimely : timely sh.now call' = true → timely sh.now call = true)
    (hpending : sh'.pending = sh.pending)
    (hos : ∀ o ∈ os, paidOf o = none ∧ (∀ key, markOf key o = none) ∧
      ∀ before, NewestLands before o) : Effect sh c call e sh' call' os := by
  obtain ⟨hasking, hawaited, howed⟩ := busy_call (.inr (.inl hfrom))
  obtain ⟨hasking', hawaited', howed'⟩ := busy_call (.inr (.inl hto))
  exact .quiet hpending (hasking'.trans hasking.symm) (hawaited'.trans hawaited.symm) htimely
    (howed'.trans howed.symm) hos

/-- A step of a request that has no mark, or none any more. -/
theorem Effect.standing (hfrom : idle call.pc) (hto : idle pc) (hpending : sh'.pending = sh.pending)
    (hos : ∀ o ∈ os, paidOf o = none ∧ (∀ key, markOf key o = none) ∧
      ∀ before, NewestLands before o) :
    Effect sh c call e sh' { call with pc := pc } os := by
  obtain ⟨hasking, hawaited, howed⟩ := idle_call hfrom
  have hcall' : idle ({ call with pc := pc } : Call).pc := hto
  obtain ⟨hasking', hawaited', howed'⟩ := idle_call hcall'
  exact .quiet hpending (hasking'.trans hasking.symm) (hawaited'.trans hawaited.symm) id
    (howed'.trans howed.symm) hos

theorem working_unended {task : Task} (h : working task = true) : ended task = false := by
  cases task <;> first | rfl | cases h

theorem attached_drop (h : Attached call) (hpc : call.pc = .dropReceiver)
    (hvalue : call.channel.value = none) :
    (working call.task = true ∨ call.task = .panicked) := by
  unfold Attached at h
  rw [hpc] at h
  generalize htask : call.task = task at h
  generalize hchannel : call.channel = channel at h hvalue
  cases h with
  | working hworking => exact .inl hworking
  | failed => exact .inr rfl
  | sent => cases hvalue

theorem owed_working (h : working call.task = true ∨ call.task = .panicked) : owed call = none := by
  unfold owed
  split
  · next htask => rcases h with h | h <;> rw [htask] at h <;> cases h
  · next htask => rcases h with h | h <;> rw [htask] at h <;> cases h
  · rfl

theorem request_effect (hattached : Attached call)
    (hdrop : e = .next → call.pc = .dropReceiver → call.channel.value = none)
    (h : RequestStep engine sh c call e sh' call' os) : Effect sh c call e sh' call' os := by
  have hnothing : ∀ o ∈ ([] : List Obs), paidOf o = none ∧ (∀ key, markOf key o = none) ∧
      ∀ before, NewestLands before o := by simp
  cases h with
  | moves hmoves =>
    rcases moves_phase hmoves with ⟨hfrom, hto⟩ | hpolling
    · exact .standing (.inl hfrom) hto rfl hnothing
    · exact .polling hpolling.1 hpolling.2 id rfl hnothing
  | taken hpc hready =>
    exact .taken hready rfl rfl (idle_call (.inl (congrArg phase hpc))).2.2 rfl
  | missed hpc hready =>
    refine .removed rfl (.inr (.inr ⟨_, hpc, ?_⟩)) rfl rfl
      (idle_call (.inl (congrArg phase hpc))).2.2 rfl
    unfold readyText
    split
    · next text hentry => exact absurd hentry (hready text)
    · rfl
  | expired hpc =>
    exact .removed rfl (.inr (.inl hpc)) rfl rfl (idle_call (.inl (congrArg phase hpc))).2.2 rfl
  | dispatched hpc =>
    exact .standing (.inl (congrArg phase hpc)) (dispatch_idle ..) rfl hnothing
  | forgetting hpc =>
    exact .standing (.inl (congrArg phase hpc)) (.inl rfl) rfl
      (by simp [paidOf, markOf, NewestLands])
  | forgotten hpc =>
    exact .standing (.inl (congrArg phase hpc)) (.inr rfl) rfl
      (by simp [paidOf, markOf, NewestLands])
  | forgetFailed hpc =>
    exact .standing (.inl (congrArg phase hpc)) (.inr rfl) rfl hnothing
  | summaryRead hpc => exact .standing (.inl (congrArg phase hpc)) (.inl rfl) rfl hnothing
  | historyRead hpc => exact .standing (.inl (congrArg phase hpc)) (.inl rfl) rfl hnothing
  | marked hpc =>
    exact .marked rfl hpc rfl rfl rfl (idle_call (.inl (congrArg phase hpc))).2.2 rfl
  | spawned hpc =>
    obtain ⟨hasking, hawaited, howed⟩ := busy_call (.inl (congrArg phase hpc))
    refine .quiet rfl hasking.symm hawaited.symm (fun htimely => ?_) howed.symm hnothing
    have hnow : sh.now - call.markedAt ≤ thinkingTtl := by simpa [timely, arriving] using htimely
    simp [timely, hnow]
  | received hpc _ =>
    obtain ⟨hasking, hawaited, howed⟩ := busy_call (.inr (.inl (congrArg phase hpc)))
    exact .quiet rfl hasking.symm hawaited.symm id howed.symm hnothing
  | timedOut hpc =>
    have hgone := attached_drop hattached hpc (hdrop rfl hpc)
    exact .deferred rfl hpc rfl rfl rfl (busy_call (.inr (.inl (congrArg phase hpc)))).2.2
      (owed_working hgone)
  | cleared hpc =>
    obtain ⟨hasking, hawaited, howed⟩ := busy_call (.inr (.inr (congrArg phase hpc)))
    exact .removed rfl (.inl ⟨hasking, hawaited⟩) rfl rfl howed rfl

theorem owed_unended (h : ended call.task = false) : owed call = none := by
  unfold owed
  split
  · next htask => rw [htask] at h; cases h
  · next htask => rw [htask] at h; cases h
  · rfl

/-- A step of a task that goes on and leaves the entry alone. -/
theorem Effect.running {task : Task} {channel : Channel} {summarizer : Summarizer}
    (hended : ended call.task = false) (hended' : ended task = false)
    (htimely : timely sh.now { call with task := task } = true → timely sh.now call = true)
    (hpending : sh'.pending = sh.pending)
    (hos : ∀ o ∈ os, paidOf o = none ∧ (∀ key, markOf key o = none) ∧
      ∀ before, NewestLands before o) :
    Effect sh c call e sh'
      { call with task := task, channel := channel, summarizer := summarizer } os := by
  have hawaited : awaited { call with task := task, channel := channel, summarizer := summarizer } =
      awaited call := by
    unfold awaited
    rw [hended, hended']
  refine .quiet hpending ?_ hawaited htimely
    ((owed_unended hended').trans (owed_unended hended).symm) hos
  unfold asking
  rw [hawaited]

/-- A task that has not ended belongs to a request that waits for it or was deferred. -/
theorem attached_running (h : Attached call) (hended : ended call.task = false)
    (hspawned : call.task ≠ .unspawned) : phase call.pc = .polling ∨ phase call.pc = .deferred := by
  unfold Attached at h
  generalize phase call.pc = standing at h
  generalize call.task = task at h hended hspawned
  generalize call.channel = channel at h
  cases h with
  | early | marked | answered => exact absurd rfl hspawned
  | clearing hdone | returned hdone => rw [hdone] at hended; cases hended
  | working _ | sent | failed => exact .inl rfl
  | deferred _ | completing | settled _ => exact .inr rfl

theorem pc_deferred (h : phase pc = .deferred) : pc = .deferred := by
  cases pc <;> first | rfl | cases h

theorem task_effect (hattached : Attached call) (h : TaskStep sh c call e sh' call' os) :
    Effect sh c call e sh' call' os := by
  have hnothing : ∀ o ∈ ([] : List Obs), paidOf o = none ∧ (∀ key, markOf key o = none) ∧
      ∀ before, NewestLands before o := by simp
  have hended {task : Task} (htask : call.task = task) (hended : ended task = false) :
      ended call.task = false := by rw [htask, hended]
  have hearlier {task : Task} (harriving : arriving task = false) :
      timely sh.now { call with task := task } = true → timely sh.now call = true := by
    simp only [timely, harriving, Bool.or_false, Bool.or_eq_true]
    exact .inl
  have hreplied {reply : Text} :
      timely sh.now (call.reply sh.now reply) = true → timely sh.now call = true := by
    simp only [timely, Call.reply, arriving, Bool.or_eq_true]
    exact fun h => .inl (h.elim id id)
  cases h with
  | asked htask =>
    exact .running (hended htask rfl) rfl (hearlier rfl) rfl (by simp [paidOf, markOf, NewestLands])
  | answered htask => exact .running (hended htask rfl) rfl (hearlier rfl) rfl hnothing
  | userInserted htask => exact .running (hended htask rfl) rfl (hearlier rfl) rfl hnothing
  | assistantInserted htask => exact .running (hended htask rfl) rfl (hearlier rfl) rfl hnothing
  | insertFailed htask =>
    have hfalse : ended call.task = false := by
      rcases htask with htask | ⟨userId, createdAt, htask⟩
      · exact hended htask rfl
      · exact hended htask rfl
    exact .running hfalse rfl (hearlier rfl) rfl hnothing
  | recorded htask _ =>
    exact .running (hended htask rfl) rfl (hearlier rfl) rfl (by simp [paidOf, markOf, NewestLands])
  | commitLost htask _ => exact .running (hended htask rfl) rfl (hearlier rfl) rfl hnothing
  | failed htask => exact .running (hended htask rfl) rfl hreplied rfl hnothing
  | summarizerSpawned htask => exact .running (hended htask rfl) rfl hreplied rfl hnothing
  | rejected htask _ =>
    refine .running (hended htask rfl) rfl (fun htimely => ?_) rfl hnothing
    simpa [timely, arriving, htask] using htimely
  | sent htask hopen =>
    have hpolling : phase call.pc = .polling := by
      rcases attached_running hattached (hended htask rfl) (by simp [htask]) with h | h
      · exact h
      · unfold Attached at hattached
        rw [htask, h] at hattached
        generalize call.channel = channel at hattached hopen
        cases hattached with
        | deferred _ => cases hopen
        | settled hdone => simp at hdone
    exact .polling hpolling hpolling (hearlier rfl) rfl hnothing
  | completed htask =>
    have hdeferred : phase call.pc = .deferred := by
      rcases attached_running hattached (hended htask rfl) (by simp [htask]) with h | h
      · unfold Attached at hattached
        rw [htask, h] at hattached
        generalize call.channel = channel at hattached
        cases hattached with
        | working hworking => cases hworking
      · exact h
    refine .completed ?_ htask rfl rfl ?_ (owed_unended (hended htask rfl)) ?_
    · simp [awaited, hdeferred, hended htask rfl]
    · simp [asking, awaited, hdeferred, ended]
    · simp [owed, pc_deferred hdeferred]
  | panicked hrunning =>
    have hfalse : ended call.task = false := by
      refine working_unended ?_
      unfold working
      split
      · rfl
      · exact hrunning
    have hspawned : call.task ≠ .unspawned := by
      intro htask
      rw [htask] at hrunning
      cases hrunning
    rcases attached_running hattached hfalse hspawned with hpolling | hdeferred
    · exact .polling hpolling hpolling (hearlier rfl) rfl hnothing
    · refine .stopped ?_ rfl ?_ (owed_unended hfalse) (owed_working (.inr rfl))
      · simp [awaited, hdeferred, hfalse]
      · simp [asking, awaited, hdeferred, ended]

/-! ## The coupling is kept -/

theorem attached_idle (h : Attached call) (hfrom : phase call.pc = .early) (hto : idle pc) :
    Attached { call with pc := pc } := by
  unfold Attached at h ⊢
  rw [hfrom] at h
  generalize call.task = task at h ⊢
  generalize call.channel = channel at h ⊢
  cases h
  rcases hto with hto | hto
  · rw [hto]
    exact .early
  · rw [hto]
    exact .answered

theorem request_attached (h : Attached call)
    (hdrop : e = .next → call.pc = .dropReceiver → call.channel.value = none)
    (hstep : RequestStep engine sh c call e sh' call' os) : Attached call' := by
  cases hstep with
  | moves hmoves =>
    rcases moves_phase hmoves with ⟨hfrom, hto⟩ | ⟨hfrom, hto⟩
    · exact attached_idle h hfrom hto
    · unfold Attached at h ⊢
      rw [hto]
      rwa [hfrom] at h
  | taken hpc _ => exact attached_idle h (congrArg phase hpc) (.inr rfl)
  | missed hpc _ => exact attached_idle h (congrArg phase hpc) (.inl rfl)
  | expired hpc => exact attached_idle h (congrArg phase hpc) (.inl rfl)
  | dispatched hpc => exact attached_idle h (congrArg phase hpc) (dispatch_idle ..)
  | forgetting hpc => exact attached_idle h (congrArg phase hpc) (.inl rfl)
  | forgotten hpc => exact attached_idle h (congrArg phase hpc) (.inr rfl)
  | forgetFailed hpc => exact attached_idle h (congrArg phase hpc) (.inr rfl)
  | summaryRead hpc => exact attached_idle h (congrArg phase hpc) (.inl rfl)
  | historyRead hpc => exact attached_idle h (congrArg phase hpc) (.inl rfl)
  | marked hpc =>
    unfold Attached at h ⊢
    rw [hpc] at h
    generalize call.task = task at h ⊢
    generalize call.channel = channel at h ⊢
    cases h
    exact .marked
  | spawned hpc =>
    unfold Attached at h ⊢
    rw [hpc] at h
    generalize call.task = task at h
    generalize call.channel = channel at h ⊢
    cases h
    exact .working rfl
  | received hpc hvalue =>
    unfold Attached at h ⊢
    rw [hpc] at h
    refine .clearing ?_
    simp only [Call.closeReceiver]
    generalize call.task = task at h ⊢
    generalize call.channel = channel at h hvalue
    cases h with
    | working _ => simp at hvalue
    | sent | failed => rfl
  | timedOut hpc =>
    have hvalue := hdrop rfl hpc
    unfold Attached at h ⊢
    rw [hpc] at h
    generalize call.task = task at h ⊢
    generalize call.channel = channel at h hvalue ⊢
    cases h with
    | working hworking => exact .deferred hworking
    | failed => exact .settled (.inl rfl)
    | sent => cases hvalue
  | cleared hpc =>
    unfold Attached at h ⊢
    rw [hpc] at h
    generalize call.task = task at h ⊢
    generalize call.channel = channel at h ⊢
    cases h with
    | clearing hdone => exact .returned hdone

theorem attached_working {task : Task} (h : Attached call) (hworking : working call.task = true)
    (hworking' : working task = true) : Attached { call with task := task } := by
  unfold Attached at h ⊢
  generalize phase call.pc = standing at h ⊢
  generalize call.task = old at h hworking
  generalize call.channel = channel at h ⊢
  cases h with
  | early | marked | answered | sent | failed | completing => cases hworking
  | working _ => exact .working hworking'
  | deferred _ => exact .deferred hworking'
  | clearing hdone | returned hdone =>
    rw [working_unended hworking] at hdone
    cases hdone
  | settled hdone => rcases hdone with rfl | ⟨_, _, _, rfl⟩ <;> cases hworking

theorem task_attached (h : Attached call) (hstep : TaskStep sh c call e sh' call' os) :
    Attached call' := by
  have hworking {task task' : Task} (htask : call.task = task) (hworking : working task = true)
      (hworking' : working task' = true) : Attached { call with task := task' } :=
    attached_working h (by rw [htask, hworking]) hworking'
  cases hstep with
  | asked htask => exact hworking htask rfl rfl
  | answered htask => exact hworking htask rfl rfl
  | failed htask => exact hworking htask rfl rfl
  | userInserted htask => exact hworking htask rfl rfl
  | assistantInserted htask => exact hworking htask rfl rfl
  | insertFailed htask =>
    rcases htask with htask | ⟨userId, createdAt, htask⟩
    · exact hworking htask rfl rfl
    · exact hworking htask rfl rfl
  | recorded htask _ => exact hworking htask rfl rfl
  | commitLost htask _ => exact hworking htask rfl rfl
  | summarizerSpawned htask => exact hworking htask rfl rfl
  | rejected htask hclosed =>
    unfold Attached at h ⊢
    rw [htask] at h
    generalize phase call.pc = standing at h ⊢
    generalize call.channel = channel at h hclosed ⊢
    cases h with
    | working _ => cases hclosed
    | deferred _ => exact .completing
    | clearing hdone | returned hdone => cases hdone
    | settled hdone => simp at hdone
  | sent htask hopen =>
    unfold Attached at h ⊢
    rw [htask] at h
    generalize phase call.pc = standing at h ⊢
    generalize call.channel = channel at h hopen ⊢
    cases h with
    | working _ => exact .sent
    | deferred _ => cases hopen
    | clearing hdone | returned hdone => cases hdone
    | settled hdone => simp at hdone
  | completed htask =>
    unfold Attached at h ⊢
    rw [htask] at h
    generalize phase call.pc = standing at h ⊢
    generalize call.channel = channel at h ⊢
    cases h with
    | working hworking => cases hworking
    | deferred hworking => cases hworking
    | completing => exact .settled (.inr ⟨_, _, _, rfl⟩)
    | clearing hdone | returned hdone => cases hdone
    | settled hdone => simp at hdone
  | panicked hrunning =>
    unfold Attached at h ⊢
    generalize phase call.pc = standing at h ⊢
    generalize call.task = task at h hrunning
    generalize call.channel = channel at h ⊢
    cases h with
    | early | marked | answered | sent | failed | completing => cases hrunning
    | working _ => exact .failed
    | deferred _ => exact .settled (.inl rfl)
    | clearing _ => exact .clearing rfl
    | returned _ => exact .returned rfl
    | settled _ => exact .settled (.inl rfl)

/-! ## The invariant -/

/-- An awaited request asks alone, an answer waits only when nobody asks, a reply that
is due finds the entry, and the newest mark is of a request that still asks. -/
structure Invariant (s : State) (os : List Obs) : Prop where
  attached : ∀ {c : CallId} {call : Call}, s.calls[c]? = some call → Attached call
  alone : ∀ {c c' : CallId} {call other : Call}, s.calls[c]? = some call →
    s.calls[c']? = some other → other.userId = call.userId → awaited call = true →
    asking other = true → c' = c
  unread : ∀ {c : CallId} {call : Call}, s.calls[c]? = some call → asking call = true →
    readyText (s.shared.pending call.userId) = none
  present : ∀ {c : CallId} {call : Call}, s.calls[c]? = some call →
    due s.shared.now call = true → (s.shared.pending call.userId).isSome = true
  newest : ∀ {c : CallId} {call : Call}, s.calls[c]? = some call → asking call = true →
    (s.shared.pending call.userId).isSome = true → ∃ c' other, s.calls[c']? = some other ∧
      other.userId = call.userId ∧ asking other = true ∧
      lastOf (markOf call.userId) os = some c'
  conserved : ∀ key,
    total owed key s.calls = total paidOf key os + waiting (s.shared.pending key)
  landed : Each NewestLands os

theorem awaited_asks (h : awaited call = true) : asking call = true := by
  unfold asking
  split
  · rfl
  · rfl
  · rfl
  · exact h

theorem due_awaited {now : Nat} (h : due now call = true) : awaited call = true :=
  (Bool.and_eq_true_iff.mp h).1

section Moved

variable (hinv : Invariant s os) (hcall : s.calls[c]? = some call)
  (hcalls : s'.calls = s.calls.set c call') (huser : call'.userId = call.userId)
  (heffect : Effect s.shared c call e s'.shared call' os')
  (hspares : e = .next → spares s c call = true)

include heffect

theorem Effect.others (hkey : key ≠ call.userId) :
    s'.shared.pending key = s.shared.pending key := by
  cases heffect with
  | quiet hpending | deferred _ _ hpending | stopped _ hpending => rw [hpending]
  | marked _ _ hpending | taken _ hpending | removed _ _ hpending =>
    rw [hpending]
    exact set_other _ _ _ hkey
  | completed _ _ _ hpending =>
    rw [hpending]
    exact complete_other _ _ _ _ hkey

/-- A request that asks after the step has asked before it, or marks. -/
theorem Effect.asked (h : asking call' = true) :
    asking call = true ∨ e = .next ∧ ∃ request, call.pc = .mark request := by
  cases heffect with
  | quiet _ hasking => exact .inl (hasking ▸ h)
  | marked he hpc => exact .inr ⟨he, _, hpc⟩
  | deferred _ hpc => exact .inl (busy_call (.inr (.inl (congrArg phase hpc)))).1
  | taken _ _ hasking | removed _ _ _ hasking | stopped _ _ hasking | completed _ _ _ _ hasking =>
    rw [hasking] at h
    cases h

/-- A request that is awaited after the step was awaited before it, or times out. -/
theorem Effect.awaits (h : awaited call' = true) :
    awaited call = true ∨ e = .next ∧ call.pc = .dropReceiver := by
  cases heffect with
  | quiet _ _ hawaited => exact .inl (hawaited ▸ h)
  | marked _ _ _ _ hawaited =>
    rw [hawaited] at h
    cases h
  | deferred he hpc => exact .inr ⟨he, hpc⟩
  | taken _ _ hasking | removed _ _ _ hasking | stopped _ _ hasking | completed _ _ _ _ hasking =>
    rw [awaited_asks h] at hasking
    cases hasking

include hinv hcall hcalls huser hspares

theorem alone_step {c₁ c₂ : CallId} {call₁ call₂ : Call} (h₁ : s'.calls[c₁]? = some call₁)
    (h₂ : s'.calls[c₂]? = some call₂) (hsame : call₂.userId = call₁.userId)
    (hawaited : awaited call₁ = true) (hasking : asking call₂ = true) : c₂ = c₁ := by
  obtain ⟨_, hothers⟩ := others_kept hcall hcalls
  rcases hothers h₁ with ⟨rfl, rfl⟩ | ⟨hc₁, hold₁⟩
  · rcases hothers h₂ with ⟨rfl, _⟩ | ⟨hc₂, hold₂⟩
    · rfl
    · rcases heffect.awaits hawaited with hbefore | ⟨he, hpc⟩
      · exact hinv.alone hcall hold₂ (hsame.trans huser) hbefore hasking
      · have h := hspares he
        simp only [spares, hpc, Bool.and_eq_true] at h
        rw [noneOf_others h.1.2 hold₂ hc₂ (hsame.trans huser)] at hasking
        cases hasking
  · rcases hothers h₂ with ⟨rfl, rfl⟩ | ⟨hc₂, hold₂⟩
    · have hsame' : call.userId = call₁.userId := huser.symm.trans hsame
      rcases heffect.asked hasking with hbefore | ⟨he, request, hpc⟩
      · exact hinv.alone hold₁ hcall hsame' hawaited hbefore
      · have h := hspares he
        simp only [spares, hpc, Bool.and_eq_true] at h
        rw [noneOf_spec h.2 (List.mem_of_getElem? hold₁) hsame'.symm] at hawaited
        cases hawaited
    · exact hinv.alone hold₁ hold₂ hsame hawaited hasking

omit hspares in
theorem unread_step {c₁ : CallId} {call₁ : Call} (h₁ : s'.calls[c₁]? = some call₁)
    (hasking : asking call₁ = true) : readyText (s'.shared.pending call₁.userId) = none := by
  obtain ⟨_, hothers⟩ := others_kept hcall hcalls
  by_cases hkey : call₁.userId = call.userId
  · rw [hkey]
    cases heffect with
    | marked _ _ hpending | taken _ hpending | removed _ _ hpending => simp [hpending, readyText]
    | deferred _ hpc hpending =>
      rw [hpending]
      exact hinv.unread hcall (busy_call (.inr (.inl (congrArg phase hpc)))).1
    | stopped hawaited hpending =>
      rw [hpending]
      exact hinv.unread hcall (awaited_asks hawaited)
    | quiet hpending hasking' =>
      rw [hpending]
      rcases hothers h₁ with ⟨_, rfl⟩ | ⟨_, hold⟩
      · exact hinv.unread hcall (hasking' ▸ hasking)
      · exact hkey ▸ hinv.unread hold hasking
    | completed hawaited _ _ _ hasking' =>
      rcases hothers h₁ with ⟨_, rfl⟩ | ⟨hc, hold⟩
      · rw [hasking'] at hasking
        cases hasking
      · exact absurd (hinv.alone hcall hold hkey hawaited hasking) hc
  · rw [heffect.others hkey]
    rcases hothers h₁ with ⟨_, rfl⟩ | ⟨_, hold⟩
    · exact absurd huser hkey
    · exact hinv.unread hold hasking

omit hcalls huser heffect in
/-- Nobody whose reply is due shares the entry with a request that removes it. -/
theorem removal_spares {c₁ : CallId} {call₁ : Call} (hold : s.calls[c₁]? = some call₁)
    (hc : c₁ ≠ c) (hkey : call₁.userId = call.userId) (he : e = .next)
    (hreason : asking call = true ∧ awaited call = false ∨ call.pc = .expire ∨
      ∃ seen, call.pc = .polled (.ready seen) ∧
        readyText (s.shared.pending call.userId) = none) :
    due s.shared.now call₁ = false := by
  by_contra hdue
  have hdue : due s.shared.now call₁ = true := by simpa using hdue
  have h := hspares he
  rcases hreason with ⟨hasking, _⟩ | hpc | ⟨seen, hpc, hunread⟩
  · exact hc (hinv.alone hold hcall hkey.symm (due_awaited hdue) hasking).symm
  · simp only [spares, hpc, Bool.and_eq_true] at h
    rw [noneOf_spec h.2 (List.mem_of_getElem? hold) hkey] at hdue
    cases hdue
  · have hpresent := hinv.present hold hdue
    have hthinking : isThinking (s.shared.pending call.userId) = true := by
      rw [hkey] at hpresent
      generalize s.shared.pending call.userId = entry at hpresent hunread
      rcases entry with _ | _ | _
      · cases hpresent
      · rfl
      · cases hunread
    simp only [spares, hpc, hthinking, Bool.not_true, Bool.false_or] at h
    rw [noneOf_spec h (List.mem_of_getElem? hold) hkey] at hdue
    cases hdue

theorem present_step (hnow : s'.shared.now = s.shared.now) {c₁ : CallId} {call₁ : Call}
    (h₁ : s'.calls[c₁]? = some call₁) (hdue : due s'.shared.now call₁ = true) :
    (s'.shared.pending call₁.userId).isSome = true := by
  obtain ⟨_, hothers⟩ := others_kept hcall hcalls
  rw [hnow] at hdue
  by_cases hkey : call₁.userId = call.userId
  · rw [hkey]
    rcases hothers h₁ with ⟨rfl, rfl⟩ | ⟨hc, hold⟩
    · obtain ⟨hawaited, htimely⟩ := Bool.and_eq_true_iff.mp hdue
      cases heffect with
      | quiet hpending _ hawaited' htimely' =>
        rw [hpending]
        exact hinv.present hcall (Bool.and_eq_true_iff.mpr ⟨hawaited' ▸ hawaited, htimely' htimely⟩)
      | marked _ _ hpending => simp [hpending]
      | deferred he hpc hpending _ htimely' =>
        have h := hspares he
        simp only [spares, hpc, Bool.and_eq_true] at h
        rw [hpending]
        simpa [← htimely', htimely] using h.2
      | taken _ _ hasking | removed _ _ _ hasking | stopped _ _ hasking
      | completed _ _ _ _ hasking =>
        rw [awaited_asks hawaited] at hasking
        cases hasking
    · have hasking : asking call₁ = true := awaited_asks (due_awaited hdue)
      cases heffect with
      | quiet hpending | deferred _ _ hpending | stopped _ hpending =>
        rw [hpending]
        exact hkey ▸ hinv.present hold hdue
      | marked _ _ hpending => simp [hpending]
      | taken hready =>
        have hunread := hinv.unread hold hasking
        rw [hkey, hready] at hunread
        cases hunread
      | removed he hreason =>
        rw [removal_spares hinv hcall hspares hold hc hkey he hreason] at hdue
        cases hdue
      | completed hawaited =>
        exact absurd (hinv.alone hcall hold hkey hawaited hasking) hc
  · rw [heffect.others hkey]
    rcases hothers h₁ with ⟨_, rfl⟩ | ⟨_, hold⟩
    · exact absurd huser hkey
    · exact hinv.present hold hdue

omit hinv hcall hcalls huser hspares in
theorem Effect.marks (hkey : key ≠ call.userId) :
    lastOf (markOf key) (os ++ os') = lastOf (markOf key) os := by
  have hnone : ∀ o ∈ os', markOf key o = none := by
    cases heffect with
    | quiet _ _ _ _ _ hos => exact fun o ho => (hos o ho).2.1 key
    | marked => simp [markOf, Ne.symm hkey]
    | completed =>
      intro o ho
      split at ho
      · obtain rfl := List.mem_singleton.mp ho
        rfl
      · cases ho
    | _ => simp [markOf]
  unfold lastOf
  rw [List.filterMap_append, List.filterMap_eq_nil_iff.mpr hnone, List.append_nil]

theorem newest_step {c₁ : CallId} {call₁ : Call} (h₁ : s'.calls[c₁]? = some call₁)
    (hasking : asking call₁ = true) (hentry : (s'.shared.pending call₁.userId).isSome = true) :
    ∃ c' other, s'.calls[c']? = some other ∧ other.userId = call₁.userId ∧
      asking other = true ∧ lastOf (markOf call₁.userId) (os ++ os') = some c' := by
  obtain ⟨hcall', hothers⟩ := others_kept hcall hcalls
  have hkept {c' : CallId} {other : Call} (hc : c' ≠ c) (hold : s.calls[c']? = some other) :
      s'.calls[c']? = some other := by rw [hcalls, List.getElem?_set_ne (Ne.symm hc), hold]
  by_cases hkey : call₁.userId = call.userId
  · rw [hkey] at hentry ⊢
    cases heffect with
    | quiet hpending hasking' _ _ _ hos =>
      have hbefore : ∃ (c₂ : CallId) (call₂ : Call), s.calls[c₂]? = some call₂ ∧
          call₂.userId = call.userId ∧ asking call₂ = true := by
        rcases hothers h₁ with ⟨_, rfl⟩ | ⟨_, hold⟩
        · exact ⟨c, call, hcall, rfl, hasking' ▸ hasking⟩
        · exact ⟨c₁, call₁, hold, hkey, hasking⟩
      obtain ⟨c₂, call₂, hold, hsame, hasking₂⟩ := hbefore
      rw [hpending] at hentry
      obtain ⟨c', other, hother, hsame', hasks, hlast⟩ :=
        hinv.newest hold hasking₂ (hsame.symm ▸ hentry)
      rw [hsame] at hlast hsame'
      have hmarks : lastOf (markOf call.userId) (os ++ os') = some c' := by
        unfold lastOf at hlast ⊢
        rw [List.filterMap_append, List.filterMap_eq_nil_iff.mpr fun o ho => (hos o ho).2.1 _,
          List.append_nil, hlast]
      by_cases hc : c' = c
      · subst hc
        obtain rfl := Option.some.inj (hother.symm.trans hcall)
        exact ⟨c', call', hcall', huser, hasking'.trans hasks, hmarks⟩
      · exact ⟨c', other, hkept hc hother, hsame', hasks, hmarks⟩
    | marked _ _ _ hasking' => exact ⟨c, call', hcall', huser, hasking', by simp [markOf]⟩
    | taken _ hpending | removed _ _ hpending => simp [hpending] at hentry
    | deferred he hpc hpending =>
      have h := hspares he
      simp only [spares, hpc, Bool.and_eq_true] at h
      have hbefore := (busy_call (.inr (.inl (congrArg phase hpc)))).1
      rw [hpending] at hentry
      obtain ⟨c', other, hother, hsame', hasks, hlast⟩ := hinv.newest hcall hbefore hentry
      rcases hothers h₁ with ⟨rfl, rfl⟩ | ⟨hc, hold⟩
      · by_cases hc : c' = c₁
        · subst hc
          exact ⟨c', call₁, hcall', huser, hasking, by simpa using hlast⟩
        · rw [noneOf_others h.1.2 hother hc hsame'] at hasks
          cases hasks
      · rw [noneOf_others h.1.2 hold hc hkey] at hasking
        cases hasking
    | stopped hawaited _ hasking' | completed hawaited _ _ _ hasking' =>
      rcases hothers h₁ with ⟨_, rfl⟩ | ⟨hc, hold⟩
      · rw [hasking'] at hasking
        cases hasking
      · exact absurd (hinv.alone hcall hold hkey hawaited hasking) hc
  · rw [heffect.others hkey] at hentry
    rw [heffect.marks hkey]
    rcases hothers h₁ with ⟨_, rfl⟩ | ⟨_, hold⟩
    · exact absurd huser hkey
    · obtain ⟨c', other, hother, hsame, hasks, hlast⟩ := hinv.newest hold hasking hentry
      refine ⟨c', other, hkept ?_ hother, hsame, hasks, hlast⟩
      rintro rfl
      obtain rfl := Option.some.inj (hother.symm.trans hcall)
      exact hkey hsame.symm

omit hcalls huser in
/-- The step pays, keeps or never held what it comes to owe. -/
theorem balance_step (key : Text) :
    waiting (s'.shared.pending key) + total paidOf key os' + pick key (owed call) =
      waiting (s.shared.pending key) + pick key (owed call') := by
  have hunread (h : readyText (s.shared.pending call.userId) = none) :
      waiting (s.shared.pending call.userId) = 0 := by simp [waiting, h]
  by_cases hkey : key = call.userId
  · subst hkey
    cases heffect with
    | @quiet os' hpending _ _ _ howed hos =>
      have hpaid : total paidOf call.userId os' = 0 := total_none fun o ho => (hos o ho).1
      rw [hpending, howed, hpaid, add_zero]
    | marked he hpc hpending _ _ howed howed' =>
      have h := hspares he
      simp only [spares, hpc, Bool.and_eq_true, Option.isNone_iff_eq_none] at h
      rw [hunread h.1, howed, howed', hpending]
      simp [waiting, readyText, paidOf]
    | taken hready hpending _ howed howed' =>
      rw [howed, howed', hpending, hready]
      simp [waiting, readyText, paidOf]
    | removed he hreason hpending _ howed howed' =>
      have hnone : readyText (s.shared.pending call.userId) = none := by
        rcases hreason with ⟨hasking, _⟩ | hpc | ⟨seen, _, hnone⟩
        · exact hinv.unread hcall hasking
        · have h := hspares he
          simp only [spares, hpc, Bool.and_eq_true, Option.isNone_iff_eq_none] at h
          exact h.1
        · exact hnone
      rw [hunread hnone, howed, howed', hpending]
      simp [waiting, readyText]
    | deferred _ _ hpending _ _ howed howed' | stopped _ hpending _ howed howed' =>
      rw [howed, howed', hpending]
      simp
    | @completed reply inTime landed hawaited htask hlanded hpending _ howed howed' =>
      have hnone := hinv.unread hcall (awaited_asks hawaited)
      rw [hunread hnone, howed, howed', hpending]
      cases hentry : s.shared.pending call.userId with
      | some entry =>
        rw [hentry] at hlanded
        simp [hlanded, complete_self _ _ _ hentry, waiting, readyText, paidOf]
      | none =>
        rw [hentry] at hlanded
        have hlate : inTime = false := by
          by_contra hinTime
          have hdue : due s.shared.now call = true := by
            simpa [due, hawaited, timely, htask, arriving] using Or.inr hinTime
          have hpresent := hinv.present hcall hdue
          rw [hentry] at hpresent
          cases hpresent
        simp [hlanded, hlate, complete_absent _ _ _ hentry, waiting, hentry, readyText]
  · have hnever {reply : Text} : pick key (some (call.userId, reply)) = 0 :=
      pick_other (Ne.symm hkey) _
    rw [heffect.others hkey]
    cases heffect with
    | @quiet os' _ _ _ _ howed hos =>
      have hpaid : total paidOf key os' = 0 := total_none fun o ho => (hos o ho).1
      rw [howed, hpaid, add_zero]
    | marked _ _ _ _ _ howed howed' | taken _ _ _ howed howed' | removed _ _ _ _ howed howed'
    | deferred _ _ _ _ _ howed howed' | stopped _ _ _ howed howed' =>
      rw [howed, howed']
      simp [paidOf, hnever]
    | completed _ _ _ _ _ howed howed' =>
      rw [howed, howed']
      split <;> split <;> simp [paidOf, hnever]

omit hcalls huser hspares in
theorem landed_step (hobs : os' = [] ∨ ∃ o, os' = [o]) : Each NewestLands (os ++ os') := by
  rcases hobs with rfl | ⟨o, rfl⟩
  · simpa using hinv.landed
  · refine hinv.landed.concat ?_
    generalize hos : [o] = shown at heffect
    cases heffect with
    | quiet _ _ _ _ _ hquiet => exact (hquiet o (by simp [← hos])).2.2 os
    | marked | taken =>
      obtain rfl := List.singleton_inj.mp hos
      trivial
    | removed | deferred | stopped => cases hos
    | @completed reply inTime landed hawaited _ hlanded =>
      cases landed with
      | false => simp at hos
      | true =>
        obtain rfl := List.singleton_inj.mp hos
        have hasking := awaited_asks hawaited
        obtain ⟨c', other, hother, hsame, hasks, hlast⟩ :=
          hinv.newest hcall hasking hlanded.symm
        obtain rfl := hinv.alone hcall hother hsame hawaited hasks
        exact hlast

theorem moved_invariant (hattached : Attached call') (hnow : s'.shared.now = s.shared.now)
    (hobs : os' = [] ∨ ∃ o, os' = [o]) : Invariant s' (os ++ os') where
  attached := by
    intro c₁ call₁ h₁
    rcases (others_kept hcall hcalls).2 h₁ with ⟨_, rfl⟩ | ⟨_, hold⟩
    · exact hattached
    · exact hinv.attached hold
  alone := alone_step hinv hcall hcalls huser heffect hspares
  unread := unread_step hinv hcall hcalls huser heffect
  present := present_step hinv hcall hcalls huser heffect hspares hnow
  newest := newest_step hinv hcall hcalls huser heffect hspares
  conserved := by
    intro key
    have hset := total_set owed key (y := call') hcall
    have hbalance := balance_step hinv hcall heffect hspares key
    rw [← hcalls, hinv.conserved key, add_assoc, ← hbalance] at hset
    refine add_right_cancel (b := pick key (owed call)) ?_
    rw [hset, total_append]
    ac_rfl
  landed := landed_step hinv hcall heffect hobs

end Moved

theorem call_now (h : CallStep engine sh c call e sh' call' os) : sh'.now = sh.now := by
  cases h with
  | request h => cases h <;> rfl
  | task h => cases h <;> rfl
  | summarizer h => cases h <;> rfl

theorem call_effect (hattached : Attached call)
    (hdrop : e = .next → call.pc = .dropReceiver → call.channel.value = none)
    (h : CallStep engine sh c call e sh' call' os) :
    Effect sh c call e sh' call' os ∧ Attached call' := by
  cases h with
  | request h => exact ⟨request_effect hattached hdrop h, request_attached hattached hdrop h⟩
  | task h => exact ⟨task_effect hattached h, task_attached hattached h⟩
  | summarizer h =>
    cases h with
    | previousRead _ =>
      exact ⟨.quiet rfl rfl rfl id rfl (by simp [paidOf, markOf, NewestLands]), hattached⟩
    | _ => exact ⟨.quiet rfl rfl rfl id rfl (by simp), hattached⟩

/-- Time passes and calls arrive. -/
theorem idle_invariant {news : List Call} (hinv : Invariant s os)
    (hpending : s'.shared.pending = s.shared.pending) (hnow : s.shared.now ≤ s'.shared.now)
    (hcalls : s'.calls = s.calls ++ news) (hnews : ∀ call ∈ news, ∃ userId utterance,
      call = Call.new userId utterance) : Invariant s' os := by
  have hkept {c : CallId} {call : Call} (h : s.calls[c]? = some call) :
      s'.calls[c]? = some call := by
    obtain ⟨hlt, _⟩ := List.getElem?_eq_some_iff.mp h
    rw [hcalls, List.getElem?_append_left hlt, h]
  have hcases {c : CallId} {call : Call} (h : s'.calls[c]? = some call) :
      s.calls[c]? = some call ∨ ∃ userId utterance, call = Call.new userId utterance := by
    rw [hcalls, List.getElem?_append] at h
    split at h
    · exact .inl h
    · exact .inr (hnews call (List.mem_of_getElem? h))
  have hbefore {c : CallId} {call : Call} (h : s'.calls[c]? = some call)
      (hasking : asking call = true) : s.calls[c]? = some call := by
    rcases hcases h with hold | ⟨userId, utterance, rfl⟩
    · exact hold
    · cases hasking
  have hdue {call : Call} (h : due s'.shared.now call = true) : due s.shared.now call = true := by
    simp only [due, timely, Bool.and_eq_true, Bool.or_eq_true, decide_eq_true_eq] at h ⊢
    exact ⟨h.1, h.2.imp (fun hle => by omega) id⟩
  refine ⟨?_, ?_, ?_, ?_, ?_, ?_, hinv.landed⟩
  · intro c call h
    rcases hcases h with hold | ⟨userId, utterance, rfl⟩
    · exact hinv.attached hold
    · exact .early
  · intro c c' call other h h' hsame hawaited hasking
    exact hinv.alone (hbefore h (awaited_asks hawaited)) (hbefore h' hasking) hsame hawaited hasking
  · intro c call h hasking
    rw [hpending]
    exact hinv.unread (hbefore h hasking) hasking
  · intro c call h hd
    rw [hpending]
    exact hinv.present (hbefore h (awaited_asks (due_awaited hd))) (hdue hd)
  · intro c call h hasking hentry
    rw [hpending] at hentry
    obtain ⟨c', other, hother, hrest⟩ := hinv.newest (hbefore h hasking) hasking hentry
    exact ⟨c', other, hkept hother, hrest⟩
  · intro key
    have hnone : total owed key news = 0 := by
      refine total_none fun call hmem => ?_
      obtain ⟨userId, utterance, rfl⟩ := hnews call hmem
      rfl
    rw [hcalls, total_append, hnone, add_zero, hpending]
    exact hinv.conserved key

theorem step_invariant (hinv : Invariant s os) (hc : undisturbed s a = true)
    (h : (machine engine).step s a = some (s', os')) : Invariant s' (os ++ os') := by
  cases a with
  | arrive userId utterance =>
    obtain ⟨rfl, rfl⟩ := by simpa [machine, step] using h
    rw [List.append_nil]
    exact idle_invariant hinv rfl (Nat.le_refl _) rfl fun call hcall =>
      ⟨userId, utterance, List.mem_singleton.mp hcall⟩
  | tick =>
    obtain ⟨rfl, rfl⟩ := by simpa [machine, step] using h
    rw [List.append_nil]
    exact idle_invariant hinv rfl (Nat.le_succ _) (List.append_nil _).symm (by simp)
  | task c e =>
    obtain ⟨call, call', hcall, hcalls, hstep⟩ := step_task h
    have hspares : e = .next → spares s c call = true := by
      rintro rfl
      simpa [undisturbed, hcall] using hc
    have hdrop : e = .next → call.pc = .dropReceiver → call.channel.value = none := by
      intro he hpc
      have hcond := hspares he
      simp only [spares, hpc, Bool.and_eq_true, Option.isNone_iff_eq_none] at hcond
      exact hcond.1.1
    obtain ⟨heffect, hattached⟩ := call_effect (hinv.attached hcall) hdrop hstep
    exact moved_invariant hinv hcall hcalls (callStep_identity hstep).1 heffect hspares hattached
      (call_now hstep) (callStep_obs hstep)

theorem initial_invariant : Invariant (initial engine) [] where
  attached := by simp [initial]
  alone := by simp [initial]
  unread := by simp [initial]
  present := by simp [initial]
  newest := by simp [initial]
  conserved := by
    intro key
    rfl
  landed := .nil

theorem ready_retrievable {userId text : Text} (h : s.shared.pending userId = some (.ready text)) :
    Retrievable engine s userId text := by
  intro utterance
  let asked := Call.new userId utterance
  let arrived : State := { s with calls := s.calls ++ [asked] }
  let found : State :=
    { s with calls := s.calls ++ [{ asked with pc := .polled (.ready text) }] }
  let taken : State :=
    { shared := s.shared.clearPending userId
      calls := s.calls ++ [{ asked with pc := .returned text }] }
  have harrive : (machine engine).step s (.arrive userId utterance) = some (arrived, []) := rfl
  have hfind : (machine engine).step arrived (.task s.calls.length .next) = some (found, []) := by
    simp [machine, step, arrived, found, asked, callStep, requestStep, nextStep, Call.new, h]
  have htake : (machine engine).step found (.task s.calls.length .next) =
      some (taken, [.polled s.calls.length userId text]) := by
    simp [machine, step, found, taken, asked, callStep, requestStep, nextStep, Call.new, h]
  refine ⟨taken, ?_, ?_, ?_⟩
  · have hdone : (machine engine).exec taken [] = some (taken, []) := rfl
    have hpolls := Machine.exec_cons_of hfind (Machine.exec_cons_of htake hdone)
    exact Machine.exec_cons_of harrive hpolls
  · simp [taken, Pc.reply]
  · simp [taken, Shared.clearPending]

/-! ## Undisturbed runs -/

/-- In a run whose steps disturb no entry, every reply that was promised to a user was
returned by one poll or waits for the next. -/
theorem answers_survive {as : List Action}
    (hc : (machine engine).Along (fun s a => undisturbed s a = true) (initial engine) as)
    (he : (machine engine).exec (initial engine) as = some (s, os)) (userId : Text) :
    Settled engine s os userId := by
  have hinv : Invariant s os :=
    Machine.exec_invariant Invariant step_invariant initial_invariant hc he
  exact ⟨hinv.conserved userId, ready_retrievable, hinv.landed⟩

/-- The request times out. -/
def timeout (c : CallId) : List Action := .tick :: tasks c [.next, .next, .next]

/-- A question whose answer comes late, and the poll that returns it. -/
def deferral : List Action :=
  .arrive ['u'] ['q'] :: opening 0 ++ timeout 0 ++ recording 0 ['a'] ++
    tasks 0 [.send, .complete] ++ .arrive ['u'] ['q'] :: tasks 1 [.next, .next]

theorem answers_survive_deferral : ∃ s os,
    (machine fixture).exec (initial fixture) deferral = some (s, os) ∧
      Settled fixture s os ['u'] := by
  have hruns : ((machine fixture).exec (initial fixture) deferral).isSome = true ∧
      (machine fixture).Along (fun s a => undisturbed s a = true) (initial fixture) deferral := by
    decide +kernel
  obtain ⟨⟨s, os⟩, he⟩ := Option.isSome_iff_exists.mp hruns.1
  exact ⟨s, os, he, answers_survive hruns.2 he ['u']⟩

/-- Two devices ask at once: the fast answer of one clears the mark of the other. -/
def twoDevices : List Action :=
  [.arrive ['u'] ['q'], .arrive ['u'] ['q']] ++ tasks 0 [.next] ++ opening 1 ++ (opening 0).tail ++
    recording 1 ['b'] ++ delivery 1 ++ timeout 0 ++ recording 0 ['a'] ++ tasks 0 [.send, .complete]

theorem two_devices_lose : ∃ s os,
    (machine fixture).exec (initial fixture) twoDevices = some (s, os) ∧
      ¬ Settled fixture s os ['u'] := by
  have hruns : ((machine fixture).exec (initial fixture) twoDevices).map (fun r =>
      decide (total owed ['u'] r.1.calls =
        total paidOf ['u'] r.2 + waiting (r.1.shared.pending ['u']))) = some false := by
    decide +kernel
  obtain ⟨⟨s, os⟩, he, hlost⟩ := Option.map_eq_some_iff.mp hruns
  exact ⟨s, os, he, fun hsettled => of_decide_eq_false hlost hsettled.conserved⟩

end AliceBridge.Core.SharedSlot
