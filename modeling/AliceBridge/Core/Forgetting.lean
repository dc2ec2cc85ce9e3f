import AliceBridge.Core.MessageIds

/-! # Forget

`clear_profile` deletes the messages it finds and the summary it finds, and shows
both deletions at its commit. What was recorded before it began is then out of
the store, unless a task had it in its hands meanwhile and stored what it made
of it. -/
namespace AliceBridge.Core.Forgetting
open AliceBridge.Lib.Utf8 AliceBridge.Lib.Run AliceBridge.Core.Conversation
open AliceBridge.Core.Engine AliceBridge.Core.EngineSteps AliceBridge.Core.EngineFlow
open AliceBridge.Core.MessageIds
open AliceBridge.Core.HouseEngine (CallId)

/-- The message was recorded under the profile before the call began to delete. -/
def Began (c : CallId) (profile : Text) (id : MessageId) : List Obs → Prop :=
  Once (fun before => id ∈ recordedIds profile before) (.forgetting c profile)

/-- The message was recorded under the profile before a Forget that was confirmed. -/
def Forgotten (profile : Text) (id : MessageId) (os : List Obs) : Prop :=
  ∃ c, Once (Began c profile id) (.forgotten c profile) os

/-- A chat request for a profile derives from nothing forgotten. -/
def Unmindful (before : List Obs) (o : Obs) : Prop :=
  ∀ {profile id}, id ∈ sentFor profile o → ¬ Forgotten profile id before

/-! ## The condition -/

/-- The profile whose messages a call is deleting. -/
def clearing : Pc → Option Text
  | .clearSummary profile _ | .clearCommit profile _ _ => some profile
  | _ => none

/-- Nothing holds stored text of a profile whose messages are being deleted. -/
def quiet (s : State) : Bool :=
  s.calls.all fun forget => (clearing forget.pc).all fun profile =>
    s.calls.all fun call => (held profile call).isEmpty

theorem quiet_spec {s : State} {c c' : CallId} {forget call : Call} {profile : Text}
    (h : quiet s = true) (hforget : s.calls[c]? = some forget)
    (hclearing : clearing forget.pc = some profile) (hcall : s.calls[c']? = some call) :
    held profile call = [] := by
  have hall := List.all_eq_true.mp h forget (List.mem_of_getElem? hforget)
  rw [hclearing] at hall
  exact List.isEmpty_iff.mp (List.all_eq_true.mp hall call (List.mem_of_getElem? hcall))

/-! ## The invariant -/

/-- The deletion covers all rows that are or derive from this message. -/
def RowsCovered (store : Store Content) (profile : Text) (ids : List MessageId)
    (id : MessageId) : Prop :=
  ∀ row ∈ store.rows, row.profile = profile → row.id ∈ ids ∨ id ∉ rowOrigins row

def SummaryCovered (store : Store Content) (profile : Text) (deleted : Bool)
    (id : MessageId) : Prop :=
  deleted = true ∨ ∀ summary, store.summaries profile = some summary → id ∉ summary.content.origins

/-- What a call that deletes has covered so far. -/
def Covers (store : Store Content) (id : MessageId) : Pc → Prop
  | .clearSummary profile ids => RowsCovered store profile ids id
  | .clearCommit profile ids summary =>
    RowsCovered store profile ids id ∧ SummaryCovered store profile summary id
  | _ => True

structure Invariant (s : State) (os : List Obs) : Prop where
  distinct : Distinct s os
  gone : ∀ {profile id}, Forgotten profile id os → ¬ Keeps profile s.shared.store id ∧
    ∀ {c : CallId} {call : Call}, s.calls[c]? = some call → id ∉ held profile call
  covers : ∀ {c : CallId} {call : Call} {profile id}, s.calls[c]? = some call →
    clearing call.pc = some profile → Began c profile id os → Covers s.shared.store id call.pc
  shown : Each Unmindful os

variable {engine : Engine} {sh sh' : Shared} {s s' : State} {c c' : CallId} {call call' : Call}
  {e : Event} {a : Action} {o : Obs} {os os' : List Obs} {store store' : Store Content}
  {profile : Text} {id : MessageId} {pc : Pc}

theorem began_recorded (h : Began c profile id os) : id ∈ recordedIds profile os := by
  obtain ⟨before, after, rfl, hid⟩ := h
  rw [recordedIds_append]
  exact List.mem_append_left _ hid

theorem forgotten_recorded (h : Forgotten profile id os) : id ∈ recordedIds profile os := by
  obtain ⟨c, before, after, rfl, hbegan⟩ := h
  rw [recordedIds_append]
  exact List.mem_append_left _ (began_recorded hbegan)

theorem forgotten_concat : Forgotten profile id (os ++ [o]) ↔
    Forgotten profile id os ∨ ∃ c, o = .forgotten c profile ∧ Began c profile id os := by
  simp only [Forgotten, once_concat, exists_or]

/-! ## The store under a deletion -/

/-- A call that holds nothing of the profile brings no text of its messages. -/
theorem nothing_held (h : held profile call = []) :
    heldByTask profile call.task = [] ∧ heldBySummarizer profile call.summarizer = [] := by
  unfold held at h
  rw [List.append_eq_nil_iff, List.append_eq_nil_iff] at h
  exact ⟨h.1.2, h.2⟩

theorem RowsCovered.store_step {ids : List MessageId} (h : RowsCovered sh.store profile ids id)
    (hheld : held profile call = []) (hdrawn : id ∉ drawn call.task)
    (hstep : StoreStep sh call e sh') : RowsCovered sh'.store profile ids id := by
  intro row hrow hprofile
  cases hstep with
  | unchanged hrows _ => exact h row (hrows ▸ hrow) hprofile
  | @recorded exchange _ _ _ _ _ _ htask hstore =>
    rw [hstore] at hrow
    rcases Store.mem_commitExchange hrow with hrow | ⟨howner, hnew⟩
    · exact h row hrow hprofile
    · have hnone := (nothing_held hheld).1
      rw [htask] at hnone hdrawn
      have horigins : exchangeOrigins exchange = [] := by
        simpa [heldByTask, ofProfile, ← howner, hprofile] using hnone
      obtain ⟨huser, hassistant⟩ := List.append_eq_nil_iff.mp horigins
      right
      unfold rowOrigins
      rcases hnew with ⟨hid, hcontent⟩ | ⟨hid, hcontent⟩
      · rw [hid, hcontent, huser]
        exact fun hmem => hdrawn (by simp [drawn, List.mem_singleton.mp hmem])
      · rw [hid, hcontent, hassistant]
        exact fun hmem => hdrawn (by simp [drawn, List.mem_singleton.mp hmem])
  | deleted _ hstore =>
    rw [hstore] at hrow
    exact h row (Store.mem_delete.mp hrow).1 hprofile
  | upserted _ hstore =>
    rw [hstore] at hrow
    exact h row hrow hprofile

theorem SummaryCovered.store_step {deleted : Bool} (h : SummaryCovered sh.store profile deleted id)
    (hheld : held profile call = []) (hstep : StoreStep sh call e sh') :
    SummaryCovered sh'.store profile deleted id := by
  refine h.imp_right fun h summary hsummary => ?_
  cases hstep with
  | unchanged _ hsummaries => exact h summary (hsummaries ▸ hsummary)
  | recorded _ _ _ hstore =>
    rw [hstore] at hsummary
    exact h summary hsummary
  | deleted _ hstore =>
    rw [hstore, Store.delete_summaries] at hsummary
    split at hsummary
    · cases hsummary
    · exact h summary hsummary
  | @upserted owner new hsummarizer hstore =>
    rw [hstore] at hsummary
    by_cases howner : profile = owner
    · subst howner
      rw [Store.upsertSummary, Store.setSummary_self] at hsummary
      obtain rfl := Option.some.inj hsummary
      have hnone := (nothing_held hheld).2
      rw [hsummarizer] at hnone
      have horigins : new.content.origins = [] := by simpa [heldBySummarizer, ofProfile] using hnone
      rw [horigins]
      exact List.not_mem_nil
    · rw [Store.upsertSummary, Store.setSummary_other howner] at hsummary
      exact h summary hsummary

/-- While nothing holds text of the profile, no step of another call undoes what a
deletion has covered. -/
theorem Covers.store_step (h : Covers sh.store id pc) (hclearing : clearing pc = some profile)
    (hheld : held profile call = []) (hdrawn : id ∉ drawn call.task)
    (hstep : StoreStep sh call e sh') : Covers sh'.store id pc := by
  cases pc with
  | clearSummary owner ids =>
    obtain rfl := Option.some.inj hclearing
    exact RowsCovered.store_step h hheld hdrawn hstep
  | clearCommit owner ids summary =>
    obtain rfl := Option.some.inj hclearing
    exact ⟨RowsCovered.store_step h.1 hheld hdrawn hstep, SummaryCovered.store_step h.2 hheld hstep⟩
  | _ => trivial

/-- The commit of a deletion leaves nothing of what it has covered. -/
theorem not_keeps_delete {ids : List MessageId} {summary : Bool}
    (h : Covers store id (.clearCommit profile ids summary)) :
    ¬ Keeps profile (store.delete profile ids summary) id := by
  rintro (⟨row, hrow, hprofile, hid⟩ | ⟨text, htext, hid⟩)
  · obtain ⟨hmem, hkept⟩ := Store.mem_delete.mp hrow
    rcases h.1 row hmem hprofile with hdeleted | hnot
    · exact hkept hdeleted
    · exact hnot hid
  · rw [Store.delete_summaries] at htext
    split at htext
    · cases htext
    · next hkept =>
      rcases h.2 with hdeleted | hnot
      · exact hkept ⟨hdeleted, rfl⟩
      · exact hnot text htext hid

/-! ## One step -/

theorem dispatch_clearing {engine : Engine} {dialogue : DialogueState} {utterance : Text} :
    clearing (dispatch engine dialogue utterance).2 = none := by
  unfold dispatch
  split <;> rfl

/-- A request that moves to a deletion has deleted the summary it found. -/
theorem covers_moves (h : Moves engine sh call e pc) (hclearing : clearing pc = some profile)
    (hcovers : clearing call.pc = some profile → Covers sh.store id call.pc) :
    Covers sh.store id pc := by
  cases h with
  | @summaryDeleted owner ids hpc =>
    obtain rfl := Option.some.inj hclearing
    rw [hpc] at hcovers
    refine ⟨hcovers rfl, ?_⟩
    cases hsummary : sh.store.summaries owner with
    | none => exact .inr fun summary h => absurd (hsummary.symm.trans h) (by simp)
    | some summary => exact .inl rfl
  | asks _ =>
    unfold startAsk at hclearing
    split at hclearing <;> cases hclearing
  | timer _ hpc => rcases hpc with rfl | rfl <;> cases hclearing
  | _ => cases hclearing

/-- The steps of the deleting request: it covers more, or is done. -/
theorem covers_request (h : RequestStep engine sh c call e sh' call' os)
    (hclearing : clearing call'.pc = some profile)
    (hcovers : clearing call.pc = some profile → Covers sh.store id call.pc) :
    Covers sh'.store id call'.pc := by
  cases h with
  | moves hmoves => exact covers_moves hmoves hclearing hcovers
  | forgetting hpc =>
    intro row hrow hprofile
    exact .inl (List.mem_map_of_mem (Store.mem_profileRows.mpr ⟨hrow, hprofile⟩))
  | dispatched _ =>
    rw [dispatch_clearing] at hclearing
    cases hclearing
  | _ => cases hclearing

theorem forgetting_step
    (h : CallStep engine sh c call e sh' call' [.forgetting c' profile]) :
    c' = c ∧ clearing call.pc = none := by
  generalize hos : [Obs.forgetting c' profile] = os at h
  cases h with
  | request h =>
    cases h with
    | forgetting hpc =>
      obtain ⟨rfl, rfl⟩ := by simpa using hos
      rw [hpc]
      exact ⟨rfl, rfl⟩
    | _ => simp at hos
  | task h =>
    cases h with
    | completed _ =>
      split at hos <;> simp at hos
    | _ => simp at hos
  | summarizer h => cases h <;> simp at hos

theorem forgotten_step
    (h : CallStep engine sh c call e sh' call' [.forgotten c' profile]) :
    c' = c ∧ (∀ {owner id}, id ∈ held owner call' → id ∈ held owner call) ∧
      ∃ ids summary, call.pc = .clearCommit profile ids summary ∧
        sh'.store = sh.store.delete profile ids summary := by
  generalize hos : [Obs.forgotten c' profile] = os at h
  cases h with
  | request h =>
    cases h with
    | @forgotten _ ids summary hpc =>
      obtain ⟨rfl, rfl⟩ := by simpa using hos
      refine ⟨rfl, fun hid => ?_, ids, summary, hpc, rfl⟩
      rw [mem_held] at hid ⊢
      exact hid.imp_left fun hid => absurd hid List.not_mem_nil
    | _ => simp at hos
  | task h =>
    cases h with
    | completed _ =>
      split at hos <;> simp at hos
    | _ => simp at hos
  | summarizer h => cases h <;> simp at hos

theorem pc_of_task (h : TaskStep sh c call e sh' call' os) : call'.pc = call.pc := by
  cases h <;> rfl

theorem pc_of_summarizer (h : SummarizerStep engine sh c call e sh' call' os) :
    call'.pc = call.pc := by
  cases h <;> rfl

/-- What began before a step, or begins with it. -/
theorem began_step (hstep : CallStep engine sh c call e sh' call' os')
    (h : Began c' profile id (os ++ os')) :
    Began c' profile id os ∨ c' = c ∧ clearing call.pc = none := by
  rcases callStep_obs hstep with rfl | ⟨o, rfl⟩
  · rw [List.append_nil] at h
    exact .inl h
  · rcases once_concat.mp h with h | ⟨rfl, _⟩
    · exact .inl h
    · exact .inr (forgetting_step hstep)

/-- What was forgotten before a step, or is with it. -/
theorem forgotten_of_step (hstep : CallStep engine sh c call e sh' call' os')
    (h : Forgotten profile id (os ++ os')) :
    Forgotten profile id os ∨ os' = [.forgotten c profile] ∧ Began c profile id os := by
  rcases callStep_obs hstep with rfl | ⟨o, rfl⟩
  · rw [List.append_nil] at h
    exact .inl h
  · rcases forgotten_concat.mp h with h | ⟨c', rfl, hbegan⟩
    · exact .inl h
    · obtain ⟨rfl, _⟩ := forgotten_step hstep
      exact .inr ⟨rfl, hbegan⟩

theorem gone_step (hI : Invariant s os) (hquiet : quiet s = true) (hcall : s.calls[c]? = some call)
    (hstep : CallStep engine s.shared c call e s'.shared call' os')
    (hothers : OthersKept s s' c call') (h : Forgotten profile id (os ++ os')) :
    ¬ Keeps profile s'.shared.store id ∧
      ∀ {c' : CallId} {other : Call}, s'.calls[c']? = some other → id ∉ held profile other := by
  have hflows := callStep_flows hstep
  rcases forgotten_of_step hstep h with hold | ⟨rfl, hbegan⟩
  · obtain ⟨hstored, hheld⟩ := hI.gone hold
    refine ⟨fun hkeeps => ?_, fun hother hid => ?_⟩
    · rcases hflows.stored hkeeps with hkeeps | hid | hid
      · exact hstored hkeeps
      · exact hheld hcall hid
      · have hdrawn := (callStep_draws hstep).recorded profile id hid
        exact (hI.distinct.drawn hcall id hdrawn).2 profile (forgotten_recorded hold)
    · rcases hothers hother with ⟨rfl, rfl⟩ | ⟨_, hother⟩
      · rcases hflows.taken hid with hid | hkeeps
        · exact hheld hcall hid
        · exact hstored hkeeps
      · exact hheld hother hid
  -- the commit of the Forget itself
  · obtain ⟨_, hheld, ids, summary, hpc, hstore⟩ := forgotten_step hstep
    have hclearing : clearing call.pc = some profile := by rw [hpc]; rfl
    have hcovers := hI.covers hcall hclearing hbegan
    rw [hpc] at hcovers
    refine ⟨hstore ▸ not_keeps_delete hcovers, fun hother hid => ?_⟩
    have hnone {c' : CallId} {other : Call} (hother : s.calls[c']? = some other) :
        id ∉ held profile other := by
      rw [quiet_spec hquiet hcall hclearing hother]
      exact List.not_mem_nil
    rcases hothers hother with ⟨rfl, rfl⟩ | ⟨_, hother⟩
    · exact hnone hcall (hheld hid)
    · exact hnone hother hid

theorem covers_step (hI : Invariant s os) (hquiet : quiet s = true)
    (hcall : s.calls[c]? = some call)
    (hstep : CallStep engine s.shared c call e s'.shared call' os')
    (hothers : OthersKept s s' c call') {forget : Call} (hforget : s'.calls[c']? = some forget)
    (hclearing : clearing forget.pc = some profile) (hbegan : Began c' profile id (os ++ os')) :
    Covers s'.shared.store id forget.pc := by
  have hold := began_step hstep hbegan
  -- a deletion goes on while another task, or its own call, moves
  have hkept {owner : Call} (howner : s.calls[c']? = some owner)
      (hclearing : clearing owner.pc = some profile) (hbegan : Began c' profile id os) :
      Covers s'.shared.store id owner.pc := by
    have hdrawn : id ∉ drawn call.task := fun hid =>
      (hI.distinct.drawn hcall id hid).2 profile (began_recorded hbegan)
    exact (hI.covers howner hclearing hbegan).store_step hclearing
      (quiet_spec hquiet howner hclearing hcall) hdrawn (callStep_store hstep)
  rcases hothers hforget with ⟨rfl, rfl⟩ | ⟨hne, hforget⟩
  · cases hstep with
    | request hrequest =>
      refine covers_request hrequest hclearing fun hcl => ?_
      rcases hold with hbegan | ⟨_, hnone⟩
      · exact hI.covers hcall hcl hbegan
      · rw [hnone] at hcl
        cases hcl
    | task htask =>
      rw [pc_of_task htask] at hclearing ⊢
      rcases hold with hbegan | ⟨_, hnone⟩
      · exact hkept hcall hclearing hbegan
      · rw [hnone] at hclearing
        cases hclearing
    | summarizer hsummarizer =>
      rw [pc_of_summarizer hsummarizer] at hclearing ⊢
      rcases hold with hbegan | ⟨_, hnone⟩
      · exact hkept hcall hclearing hbegan
      · rw [hnone] at hclearing
        cases hclearing
  · rcases hold with hbegan | ⟨heq, _⟩
    · exact hkept hforget hclearing hbegan
    · exact absurd heq hne

theorem invariant_idle (hI : Invariant s os) (hstore : s'.shared.store = s.shared.store)
    (hdistinct : Distinct s' os)
    (hcalls : ∀ {c : CallId} {call : Call}, s'.calls[c]? = some call →
      s.calls[c]? = some call ∨ ∃ userId utterance, call = Call.new userId utterance) :
    Invariant s' os := by
  refine ⟨hdistinct, fun h => ?_, fun hcall hclearing hbegan => ?_, hI.shown⟩
  · refine ⟨hstore ▸ (hI.gone h).1, fun hcall hid => ?_⟩
    rcases hcalls hcall with hcall | ⟨userId, utterance, rfl⟩
    · exact (hI.gone h).2 hcall hid
    · cases hid
  · rcases hcalls hcall with hcall | ⟨userId, utterance, rfl⟩
    · exact hstore ▸ hI.covers hcall hclearing hbegan
    · cases hclearing

theorem invariant_step (hI : Invariant s os) (hquiet : quiet s = true)
    (h : (machine engine).step s a = some (s', os')) : Invariant s' (os ++ os') := by
  have hdistinct := distinct_step hI.distinct h
  cases step_cases h with
  | idle hos _ hshared hcalls =>
    subst hos
    rw [List.append_nil] at hdistinct ⊢
    exact invariant_idle hI (by rw [hshared]) hdistinct hcalls
  | moved _ hcall _ hstep hothers =>
    refine ⟨hdistinct, gone_step hI hquiet hcall hstep hothers,
      covers_step hI hquiet hcall hstep hothers, ?_⟩
    rcases callStep_obs hstep with rfl | ⟨o, rfl⟩
    · rw [List.append_nil]
      exact hI.shown
    · refine hI.shown.concat fun hid hforgotten => ?_
      obtain ⟨hstored, hheld⟩ := hI.gone hforgotten
      rcases (callStep_flows hstep).sent (List.mem_singleton_self o) hid with hid | hkeeps
      · exact hheld hcall hid
      · exact hstored hkeeps

/-- In every run in which nothing holds stored text of a profile while its messages are
being deleted, no chat request after a confirmed Forget derives from what was recorded
before it. -/
theorem forget_is_final {as : List Action}
    (h : (machine engine).exec (initial engine) as = some (s, os))
    (hquiet : (machine engine).Along (fun s _ => quiet s = true) (initial engine) as) :
    Each Unmindful os := by
  have hinitial : Invariant (initial engine) [] := by
    refine ⟨distinct_initial, fun hforgotten => ?_, fun hcall => ?_, Each.nil⟩
    · obtain ⟨c, hnever⟩ := hforgotten
      exact absurd hnever once_nil
    · cases hcall
  exact (Machine.exec_invariant (Invariant) (fun hI hC h => invariant_step hI hC h)
    hinitial hquiet h).shown

/-- Everything is at rest when the messages are deleted. -/
def restfulRun : List Action :=
  exchange 0 ['q'] ['a'] ++ selection 0 ++ tasks 0 [.previousRead true] ++ compression 0 ['s'] ++
    forget 1 ++ .arrive ['u'] ['q'] :: opening 2 ++ tasks 2 [.chat]

theorem restfulRun_runs :
    ((machine fixture).exec (initial fixture) restfulRun).isSome = true ∧
      (machine fixture).Along (fun s _ => quiet s = true) (initial fixture) restfulRun := by
  decide +kernel

theorem forget_is_final_restful : ∃ r,
    (machine fixture).exec (initial fixture) restfulRun = some r ∧ Each Unmindful r.2 := by
  obtain ⟨hruns, hquiet⟩ := restfulRun_runs
  obtain ⟨r, hr⟩ := Option.isSome_iff_exists.mp hruns
  exact ⟨r, hr, forget_is_final hr hquiet⟩

/-- A summarization waits for the model while the messages are deleted. -/
def busyRun : List Action :=
  exchange 0 ['q'] ['a'] ++ selection 0 ++ tasks 0 [.previousRead true] ++ forget 1 ++
    compression 0 ['s'] ++ .arrive ['u'] ['q'] :: opening 2 ++ tasks 2 [.chat]

/-- The first message, recorded before the Forget, is in the summary of the last request. -/
theorem busyRun_remembers :
    ((machine fixture).exec (initial fixture) busyRun).map (fun r =>
      decide (1 ∈ recordedIds dima.name (r.2.take 4)) &&
        decide (r.2[4]? = some (.forgetting 1 dima.name)) &&
        decide (r.2[5]? = some (.forgotten 1 dima.name)) &&
        (r.2[7]?).any fun o => decide (1 ∈ sentFor dima.name o)) = some true := by
  decide +kernel

theorem busy_forget_remembers : ¬ ∀ as s os,
    (machine fixture).exec (initial fixture) as = some (s, os) → Each Unmindful os := by
  intro h
  obtain ⟨⟨s, os⟩, hr, hcheck⟩ := Option.map_eq_some_iff.mp busyRun_remembers
  simp only [Bool.and_eq_true, decide_eq_true_eq, Option.any_eq_true] at hcheck
  obtain ⟨⟨⟨hrecorded, hforgetting⟩, hforgotten⟩, o, ho, hsent⟩ := hcheck
  refine (h busyRun s os hr).at ho hsent ⟨1, Once.at (n := 5) ?_ (Once.at (n := 4) ?_ ?_)⟩
  · rw [List.getElem?_take_of_lt (by decide), hforgotten]
  · rw [List.take_take, List.getElem?_take_of_lt (by decide), hforgetting]
  · rw [List.take_take, List.take_take]
    exact hrecorded

end AliceBridge.Core.Forgetting
