import AliceBridge.Core.EngineSteps

/-! # Where the texts of the legacy engine go

The stored messages that the store and the tasks of a call hold on behalf of a
profile. A step moves them between the two and adds those it records; nothing
moves from one profile to another. -/
namespace AliceBridge.Core.EngineFlow
open AliceBridge.Lib.Utf8 AliceBridge.Lib.Run AliceBridge.Core.Family AliceBridge.Core.Conversation
open AliceBridge.Core.Engine AliceBridge.Core.EngineSteps
open AliceBridge.Core.HouseEngine (CallId)

/-- The ids, when their owner is this profile. -/
def ofProfile (owner profile : Text) (ids : List MessageId) : List MessageId :=
  if owner = profile then ids else []

@[simp] theorem mem_ofProfile {owner profile : Text} {ids : List MessageId} {id : MessageId} :
    id ∈ ofProfile owner profile ids ↔ owner = profile ∧ id ∈ ids := by
  simp [ofProfile]

/-! ## What is held -/

section Held

variable (profile : Text)

def heldByPc : Pc → List MessageId
  | .history ask (some summary) => ofProfile ask.profileName profile summary.origins
  | .mark request | .spawn request => ofProfile request.profile profile request.origins
  | _ => []

def exchangeOrigins (exchange : ExchangeRecord Content) : List MessageId :=
  exchange.userText.origins ++ exchange.assistantText.origins

def heldByTask : Task → List MessageId
  | .spawned request | .chatting request => ofProfile request.profile profile request.origins
  | .recordUser exchange | .recordAssistant exchange .. | .recordCommit exchange .. =>
    ofProfile exchange.profile profile (exchangeOrigins exchange)
  | _ => []

def heldBySummarizer : Summarizer → List MessageId
  | .previous owner rows _ => ofProfile owner profile (rows.flatMap rowOrigins)
  | .chatting owner rows previous => ofProfile owner profile (instruction previous rows).origins
  | .upsert owner summary => ofProfile owner profile summary.content.origins
  | _ => []

/-- The stored messages of the profile that texts in the hands of a call derive from. -/
def held (call : Call) : List MessageId :=
  heldByPc profile call.pc ++ heldByTask profile call.task ++
    heldBySummarizer profile call.summarizer

/-- The stored messages that stored texts of the profile are or derive from. -/
def Keeps (store : Store Content) (id : MessageId) : Prop :=
  (∃ row ∈ store.rows, row.profile = profile ∧ id ∈ rowOrigins row) ∨
    ∃ summary, store.summaries profile = some summary ∧ id ∈ summary.content.origins

/-- The stored messages that a chat request for the profile derives from. -/
def sentFor : Obs → List MessageId
  | .asked _ owner messages =>
    ofProfile owner profile (messages.flatMap fun message => message.content.origins)
  | .summarizing _ owner text => ofProfile owner profile text.origins
  | _ => []

def recordedBy : Obs → List MessageId
  | .recorded _ owner ids => ofProfile owner profile ids
  | _ => []

def recordedIds (os : List Obs) : List MessageId := os.flatMap (recordedBy profile)

end Held

/-! ## The flow of one step -/

variable {engine : Engine} {sh sh' : Shared} {c : CallId} {call call' : Call} {e : Event}
  {os os' : List Obs} {profile : Text} {id : MessageId}

theorem mem_held : id ∈ held profile call ↔ id ∈ heldByPc profile call.pc ∨
    id ∈ heldByTask profile call.task ∨ id ∈ heldBySummarizer profile call.summarizer := by
  simp [held]

@[simp] theorem recordedIds_append :
    recordedIds profile (os ++ os') = recordedIds profile os ++ recordedIds profile os' :=
  List.flatMap_append

theorem mem_rowsOrigins {rows : List (Row Content)} {store : Store Content}
    (hrows : ∀ row ∈ rows, row ∈ store.rows ∧ row.profile = profile)
    (h : id ∈ rows.flatMap rowOrigins) : Keeps profile store id := by
  obtain ⟨row, hrow, hid⟩ := List.mem_flatMap.mp h
  exact .inl ⟨row, (hrows row hrow).1, (hrows row hrow).2, hid⟩

theorem systemMessage_origins {ask : Ask} {today : NaiveDate} {summary : Option Content} :
    (systemMessage engine ask today summary).content.origins =
      (summary.map Content.origins).getD [] := rfl

theorem buildRequest_origins {ask : Ask} {today : NaiveDate} {summary : Option Content}
    {history : List (Row Content)}
    (h : id ∈ (buildRequest engine ask today summary history).origins) :
    (∃ content, summary = some content ∧ id ∈ content.origins) ∨
      id ∈ history.flatMap rowOrigins := by
  simp only [Request.origins, buildRequest, List.flatMap_cons, List.flatMap_append,
    List.flatMap_map, List.flatMap_nil, List.mem_append, List.append_nil,
    systemMessage_origins] at h
  rcases h with h | h | h
  · cases summary with
    | none => exact absurd h List.not_mem_nil
    | some content => exact .inl ⟨content, rfl, h⟩
  · exact .inr h
  · cases h

/-- A stored text after a commit was stored, or comes with the exchange. -/
theorem keeps_commit {exchange : ExchangeRecord Content} {store : Store Content}
    {userId assistantId : MessageId} {createdAt : Nat}
    (h : Keeps profile (store.commitExchange exchange userId assistantId createdAt) id) :
    Keeps profile store id ∨ exchange.profile = profile ∧
      (id ∈ exchangeOrigins exchange ∨ id ∈ [userId, assistantId]) := by
  rcases h with ⟨row, hrow, hprofile, hid⟩ | hsummary
  · rcases Store.mem_commitExchange hrow with hrow | ⟨howner, hnew⟩
    · exact .inl (.inl ⟨row, hrow, hprofile, hid⟩)
    · refine .inr ⟨howner ▸ hprofile, ?_⟩
      rcases List.mem_cons.mp hid with rfl | hid
      · rcases hnew with ⟨hid, _⟩ | ⟨hid, _⟩ <;> simp [hid]
      · rcases hnew with ⟨_, hcontent⟩ | ⟨_, hcontent⟩ <;>
          simp [exchangeOrigins, ← hcontent, hid]
  · exact .inl (.inr hsummary)

theorem keeps_delete {store : Store Content} {owner : Text} {ids : List MessageId} {summary : Bool}
    (h : Keeps profile (store.delete owner ids summary) id) : Keeps profile store id := by
  rcases h with ⟨row, hrow, hprofile, hid⟩ | ⟨text, htext, hid⟩
  · exact .inl ⟨row, (Store.mem_delete.mp hrow).1, hprofile, hid⟩
  · rw [Store.delete_summaries] at htext
    split at htext
    · cases htext
    · exact .inr ⟨text, htext, hid⟩

theorem keeps_upsert {store : Store Content} {owner : Text} {summary : Summary Content}
    (h : Keeps profile (store.upsertSummary owner summary) id) :
    Keeps profile store id ∨ owner = profile ∧ id ∈ summary.content.origins := by
  rcases h with hrow | ⟨text, htext, hid⟩
  · exact .inl (.inl hrow)
  · by_cases howner : profile = owner
    · subst howner
      rw [Store.upsertSummary, Store.setSummary_self] at htext
      obtain rfl := Option.some.inj htext
      exact .inr ⟨rfl, hid⟩
    · rw [Store.upsertSummary, Store.setSummary_other howner] at htext
      exact .inl (.inr ⟨text, htext, hid⟩)

theorem previousContent_origins {store : Store Content} {ok : Bool}
    (h : id ∈ (previousContent store profile ok).origins) : Keeps profile store id := by
  unfold previousContent at h
  split at h
  · cases hsummary : store.summaries profile with
    | none =>
      rw [hsummary] at h
      cases h
    | some summary =>
      rw [hsummary] at h
      exact .inr ⟨summary, hsummary, h⟩
  · cases h

/-- What a step takes into the hands of its call, stores and sends was held by the
call or stored for the same profile; only a recording adds messages. -/
structure Flows (c : CallId) (sh : Shared) (call : Call) (sh' : Shared) (call' : Call)
    (os : List Obs) : Prop where
  taken : ∀ {profile id}, id ∈ held profile call' →
    id ∈ held profile call ∨ Keeps profile sh.store id
  stored : ∀ {profile id}, Keeps profile sh'.store id →
    Keeps profile sh.store id ∨ id ∈ held profile call ∨ id ∈ recordedIds profile os
  sent : ∀ {profile id o}, o ∈ os → id ∈ sentFor profile o →
    id ∈ held profile call ∨ Keeps profile sh.store id

/-- A step that stores nothing new and sends nothing, by what its call holds after it. -/
theorem Flows.quiet
    (hstore : ∀ {profile id}, Keeps profile sh'.store id → Keeps profile sh.store id)
    (hos : ∀ profile, ∀ o ∈ os, sentFor profile o = [])
    (htaken : ∀ {profile id}, id ∈ held profile call' →
      id ∈ held profile call ∨ Keeps profile sh.store id) : Flows c sh call sh' call' os where
  taken := htaken
  stored := fun h => .inl (hstore h)
  sent := fun ho h => by
    rw [hos _ _ ho] at h
    cases h

/-- The request moves on, and its tasks keep what they have. -/
theorem taken_pc {pc : Pc} {markedAt deadline : Nat} {channel : AskRace.Channel}
    (hpc : id ∈ heldByPc profile pc → id ∈ heldByPc profile call.pc ∨ Keeps profile sh.store id)
    (h : id ∈ held profile
      { call with pc := pc, markedAt := markedAt, deadline := deadline, channel := channel }) :
    id ∈ held profile call ∨ Keeps profile sh.store id := by
  rw [mem_held] at h ⊢
  rcases h with h | h | h
  · rcases hpc h with h | h
    · exact .inl (.inl h)
    · exact .inr h
  · exact .inl (.inr (.inl h))
  · exact .inl (.inr (.inr h))

theorem taken_task {task : Task} {channel : AskRace.Channel}
    (htask : id ∈ heldByTask profile task → id ∈ heldByTask profile call.task)
    (h : id ∈ held profile { call with task := task, channel := channel }) :
    id ∈ held profile call := by
  rw [mem_held] at h ⊢
  exact h.imp_right fun h => h.imp_left htask

theorem taken_summarizer {summarizer : Summarizer}
    (hsummarizer : id ∈ heldBySummarizer profile summarizer →
      id ∈ heldBySummarizer profile call.summarizer ∨ Keeps profile sh.store id)
    (h : id ∈ held profile { call with summarizer := summarizer }) :
    id ∈ held profile call ∨ Keeps profile sh.store id := by
  rw [mem_held] at h ⊢
  rcases h with h | h | h
  · exact .inl (.inl h)
  · exact .inl (.inr (.inl h))
  · rcases hsummarizer h with h | h
    · exact .inl (.inr (.inr h))
    · exact .inr h

theorem dispatch_holds_nothing {dialogue : DialogueState} {utterance : Text} :
    heldByPc profile (dispatch engine dialogue utterance).2 = [] := by
  unfold dispatch
  split <;> rfl

theorem moves_holds_nothing {pc : Pc} (h : Moves engine sh call e pc) :
    heldByPc profile pc = [] := by
  cases h with
  | asks _ =>
    unfold startAsk
    split <;> rfl
  | timer _ hpc => rcases hpc with rfl | rfl <;> rfl
  | _ => rfl

theorem requestStep_flows (h : RequestStep engine sh c call e sh' call' os) :
    Flows c sh call sh' call' os := by
  cases h with
  | moves hmoves =>
    refine .quiet (fun h => h) (by simp) (taken_pc fun h => ?_)
    rw [moves_holds_nothing hmoves] at h
    cases h
  | dispatched _ =>
    refine .quiet (fun h => h) (by simp) (taken_pc fun h => ?_)
    rw [dispatch_holds_nothing] at h
    cases h
  | taken | missed | expired | forgetting | timedOut | cleared | received =>
    exact .quiet (fun h => h) (by simp [sentFor]) (taken_pc fun h => absurd h List.not_mem_nil)
  | forgotten _ =>
    exact .quiet keeps_delete (by simp [sentFor]) (taken_pc fun h => absurd h List.not_mem_nil)
  | @forgetFailed _ _ _ applied _ =>
    cases applied
    · exact .quiet (fun h => h) (by simp) (taken_pc fun h => absurd h List.not_mem_nil)
    · exact .quiet keeps_delete (by simp) (taken_pc fun h => absurd h List.not_mem_nil)
  | @summaryRead ask ok _ =>
    refine .quiet (fun h => h) (by simp) (taken_pc fun h => ?_)
    cases hsummary : (if ok then sh.store.summaries ask.profileName else none) with
    | none =>
      rw [hsummary] at h
      exact absurd h List.not_mem_nil
    | some summary =>
      rw [hsummary] at h
      obtain ⟨rfl, hid⟩ := mem_ofProfile.mp h
      have hstored : ok = true ∧ sh.store.summaries ask.profileName = some summary := by
        simpa using hsummary
      exact .inr (.inr ⟨summary, hstored.2, hid⟩)
  | @historyRead ask summary ok today hpc =>
    refine .quiet (fun h => h) (by simp) (taken_pc fun h => ?_)
    obtain ⟨rfl, hid⟩ := mem_ofProfile.mp h
    rcases buildRequest_origins hid with ⟨content, rfl, hsummary⟩ | hhistory
    · rw [hpc]
      exact .inl (mem_ofProfile.mpr ⟨rfl, hsummary⟩)
    · refine .inr (mem_rowsOrigins (fun row hrow => ?_) hhistory)
      split at hrow
      · exact Store.mem_recentMessages hrow
      · cases hrow
  | marked hpc =>
    refine .quiet (fun h => h) (by simp [sentFor]) (taken_pc fun h => .inl ?_)
    rw [hpc]
    exact h
  | spawned hpc =>
    refine .quiet (fun h => h) (by simp) fun h => .inl ?_
    rw [mem_held] at h ⊢
    rcases h with h | h | h
    · exact absurd h List.not_mem_nil
    · rw [hpc]
      exact .inl h
    · exact .inr (.inr h)

theorem taskStep_flows (h : TaskStep sh c call e sh' call' os) : Flows c sh call sh' call' os := by
  cases h with
  | @asked request htask =>
    have hkept {profile id} (h : id ∈ heldByTask profile (.chatting request)) :
        id ∈ heldByTask profile call.task := by rw [htask]; exact h
    refine ⟨fun h => .inl (taken_task hkept h), fun h => .inl h, fun ho h => .inl ?_⟩
    rw [List.mem_singleton.mp ho] at h
    exact mem_held.mpr (.inr (.inl (hkept h)))
  | @answered request _ _ htask =>
    refine .quiet (fun h => h) (by simp) fun h => .inl (taken_task (fun h => ?_) h)
    obtain ⟨rfl, hid⟩ := mem_ofProfile.mp h
    rw [htask]
    exact mem_ofProfile.mpr ⟨rfl, hid⟩
  | userInserted htask | assistantInserted htask =>
    refine .quiet (fun h => h) (by simp) fun h => .inl (taken_task (fun h => ?_) h)
    rw [htask]
    exact h
  | @recorded exchange userId assistantId _ _ htask =>
    refine ⟨fun h => .inl (taken_task (fun h => absurd h List.not_mem_nil) h), fun h => ?_,
      fun ho h => ?_⟩
    · rcases keeps_commit h with h | ⟨rfl, h | h⟩
      · exact .inl h
      · refine .inr (.inl (mem_held.mpr (.inr (.inl ?_))))
        rw [htask]
        exact mem_ofProfile.mpr ⟨rfl, h⟩
      · exact .inr (.inr (by simpa [recordedIds, recordedBy] using h))
    · rw [List.mem_singleton.mp ho] at h
      cases h
  | summarizerSpawned _ =>
    refine .quiet (fun h => h) (by simp) fun h => .inl ?_
    rw [mem_held] at h ⊢
    rcases h with h | h | h
    · exact .inl h
    · exact absurd h List.not_mem_nil
    · exact absurd h List.not_mem_nil
  | completed _ =>
    refine .quiet (fun h => h) ?_ fun h => .inl (taken_task (fun h => absurd h List.not_mem_nil) h)
    intro profile o ho
    split at ho
    · rw [List.mem_singleton.mp ho]
      rfl
    · cases ho
  | failed | insertFailed | commitLost | rejected | sent | panicked =>
    exact .quiet (fun h => h) (by simp)
      fun h => .inl (taken_task (fun h => absurd h List.not_mem_nil) h)

theorem summarizerStep_flows (h : SummarizerStep engine sh c call e sh' call' os) :
    Flows c sh call sh' call' os := by
  cases h with
  | keepLast | nothing | summarizeFailed =>
    exact .quiet (fun h => h) (by simp) (taken_summarizer fun h => absurd h List.not_mem_nil)
  | selected _ =>
    refine .quiet (fun h => h) (by simp) (taken_summarizer fun h => .inr ?_)
    obtain ⟨rfl, hid⟩ := mem_ofProfile.mp h
    exact mem_rowsOrigins (fun row hrow => Store.mem_unsummarized hrow) hid
  | @previousRead owner rows _ ok hsummarizer =>
    have hread {profile id}
        (h : id ∈ ofProfile owner profile
          (instruction (previousContent sh.store owner ok) rows).origins) :
        id ∈ heldBySummarizer profile call.summarizer ∨ Keeps profile sh.store id := by
      obtain ⟨rfl, hid⟩ := mem_ofProfile.mp h
      rcases List.mem_append.mp hid with hid | hid
      · exact .inr (previousContent_origins hid)
      · rw [hsummarizer]
        exact .inl (mem_ofProfile.mpr ⟨rfl, hid⟩)
    refine ⟨taken_summarizer hread, fun h => .inl h, fun ho h => ?_⟩
    rw [List.mem_singleton.mp ho] at h
    rcases hread h with h | h
    · exact .inl (mem_held.mpr (.inr (.inr h)))
    · exact .inr h
  | summarized hsummarizer =>
    refine .quiet (fun h => h) (by simp) (taken_summarizer fun h => .inl ?_)
    rw [hsummarizer]
    exact h
  | @upserted owner summary outcome hsummarizer =>
    refine ⟨taken_summarizer fun h => absurd h List.not_mem_nil, fun h => ?_, by simp⟩
    dsimp only at h
    split at h
    · rcases keeps_upsert h with h | ⟨rfl, hid⟩
      · exact .inl h
      · refine .inr (.inl (mem_held.mpr (.inr (.inr ?_))))
        rw [hsummarizer]
        exact mem_ofProfile.mpr ⟨rfl, hid⟩
    · exact .inl h

theorem callStep_flows (h : CallStep engine sh c call e sh' call' os) :
    Flows c sh call sh' call' os := by
  cases h with
  | request h => exact requestStep_flows h
  | task h => exact taskStep_flows h
  | summarizer h => exact summarizerStep_flows h

end AliceBridge.Core.EngineFlow
