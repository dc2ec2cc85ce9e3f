import AliceBridge.Core.EngineSteps
import AliceBridge.Server.Introduction

/-! # The mark of the summary moves forward

Summarizations of one profile that do not overlap, while exchanges are recorded or fail and
the profile is cleared. Each selects rows above the mark, so its summary raises the mark; but
a window of 0, which a configuration may have and no one can ask for, lets a summarization
go on with no rows at all. -/
namespace AliceBridge.Server.Coverage
open AliceBridge.Lib.Utf8 AliceBridge.Lib.Run AliceBridge.Core.Conversation
open AliceBridge.Core.Engine AliceBridge.Core.EngineSteps
open AliceBridge.Core.HouseEngine (CallId Outcome)
open AliceBridge.Server.Config

/-! ## Runs -/

/-- `Engine::new` on a database. -/
def startOn (engine : Engine) (store : Store Content) : State :=
  { initial engine with shared := { (initial engine).shared with store := store } }

/-- The profile that a summarization is at work on. -/
def worksOn : Summarizer → Option Text
  | .select profile _ | .previous profile _ _ | .chatting profile _ _ | .upsert profile _ =>
    some profile
  | _ => none

/-- No two summarizations of a profile are at work. -/
def Alone (s : State) : Prop := (s.calls.filterMap fun call => worksOn call.summarizer).Nodup

instance (s : State) : Decidable (Alone s) := inferInstanceAs (Decidable (List.Nodup _))

/-- A selection with a window of 0 has something to select. -/
def finds (s : State) : Action → Bool
  | .task c (.selected true) => (s.calls[c]?).all fun call : Call =>
    match call.summarizer with
    | .select profile keepLast =>
      keepLast != 0 || !(s.shared.store.unsummarized profile 0).isEmpty
    | _ => true
  | _ => true

/-- The step is the end of a clear of the profile. -/
def clears (s : State) (profile : Text) : Action → Bool
  | .task c (.clearCommitted _) => (s.calls[c]?).any fun call : Call =>
    match call.pc with
    | .clearCommit owner _ _ => owner == profile
    | _ => false
  | _ => false

/-- The request of the step has something to fold in. -/
def transcribes (s : State) : Action → Bool
  | .task c (.previousRead _) => (s.calls[c]?).all fun call : Call =>
    match call.summarizer with
    | .previous _ rows _ => !rows.isEmpty
    | _ => true
  | _ => true

/-- No mark falls, but that of a profile that is cleared. -/
def Advances (engine : Engine) (s : State) (a : Action) : Prop :=
  ∀ profile, clears s profile a = false → ∀ r, (machine engine).step s a = some r →
    s.shared.store.coversUntil profile ≤ r.1.shared.store.coversUntil profile

/-! ## What one step does to the mark -/

variable {engine : Engine} {sh sh' : Shared} {s s' : State} {c : CallId} {call call' : Call}
  {e : Event} {a : Action} {os : List Obs} {store store' : Store Content} {profile : Text}
  {summarizer : Summarizer}

/-- What a summarization is going to write lies above the mark. -/
def Ahead (store : Store Content) : Summarizer → Prop
  | .previous profile rows _ | .chatting profile rows _ =>
    rows ≠ [] ∧ store.coversUntil profile < lastOfRows rows
  | .upsert profile summary => store.coversUntil profile < summary.coversUntilMessageId
  | _ => True

theorem Ahead.lower (h : Ahead store summarizer)
    (hcovers : ∀ profile, worksOn summarizer = some profile →
      store'.coversUntil profile ≤ store.coversUntil profile) : Ahead store' summarizer := by
  unfold Ahead at h ⊢
  split at h
  · exact ⟨h.1, Nat.lt_of_le_of_lt (hcovers _ rfl) h.2⟩
  · exact ⟨h.1, Nat.lt_of_le_of_lt (hcovers _ rfl) h.2⟩
  · exact Nat.lt_of_le_of_lt (hcovers _ rfl) h
  · trivial

/-- Rows that are selected lie above the mark. -/
theorem unsummarized_ahead {keepLast : Nat} (hne : store.unsummarized profile keepLast ≠ []) :
    store.coversUntil profile < lastOfRows (store.unsummarized profile keepLast) := by
  obtain ⟨row, rows, hrows⟩ := List.exists_cons_of_ne_nil hne
  have hrow : row ∈ store.unsummarized profile keepLast := hrows ▸ List.mem_cons_self
  have habove : store.coversUntil profile < row.id := by
    simpa using (List.mem_filter.mp (List.mem_of_mem_take hrow)).2
  refine Nat.lt_of_lt_of_le habove (Nat.le_of_not_lt fun hlast => ?_)
  exact Nat.lt_irrefl _ ((lastOfRows_lt.mp hlast).2 row hrow)

theorem delete_covers {owner : Text} {ids : List MessageId} {summary : Bool} :
    (store.delete owner ids summary).coversUntil profile = store.coversUntil profile ∨
      owner = profile ∧
        (store.delete owner ids summary).coversUntil profile ≤ store.coversUntil profile := by
  by_cases hcleared : summary = true ∧ profile = owner
  · refine .inr ⟨hcleared.2.symm, ?_⟩
    rw [Store.coversUntil, Store.delete_summaries, if_pos hcleared]
    exact Nat.zero_le _
  · left
    rw [Store.coversUntil, Store.delete_summaries, if_neg hcleared, Store.coversUntil]

/-- The mark of a profile stays, falls with a clear, or is that of a summary just written. -/
theorem covers_step (profile : Text) (h : CallStep engine sh c call e sh' call' os) :
    sh'.store.coversUntil profile = sh.store.coversUntil profile ∨
    (∃ outcome ids summary, e = .clearCommitted outcome ∧
      call.pc = .clearCommit profile ids summary) ∧ sh'.store.coversUntil profile ≤
        sh.store.coversUntil profile ∨
    ∃ summary, call.summarizer = .upsert profile summary ∧ call'.summarizer = .done ∧
      sh'.store.coversUntil profile = summary.coversUntilMessageId := by
  cases h with
  | request h =>
    cases h with
    | @forgotten owner ids summary hpc =>
      refine delete_covers.imp_right fun ⟨howner, hle⟩ => .inl ⟨⟨_, ids, summary, rfl, ?_⟩, hle⟩
      rw [hpc, howner]
    | @forgetFailed owner ids summary applied hpc =>
      cases applied with
      | false => exact .inl rfl
      | true =>
        refine delete_covers.imp_right fun ⟨howner, hle⟩ =>
          .inl ⟨⟨_, ids, summary, rfl, ?_⟩, hle⟩
        rw [hpc, howner]
    | _ => exact .inl rfl
  | task h => cases h <;> exact .inl rfl
  | summarizer h =>
    cases h with
    | @upserted owner summary outcome hsummarizer =>
      cases outcome.applies with
      | false => exact .inl rfl
      | true =>
        by_cases howner : profile = owner
        · subst howner
          refine .inr (.inr ⟨summary, hsummarizer, rfl, ?_⟩)
          simp [Store.coversUntil, Store.upsertSummary]
        · left
          rw [Store.coversUntil]
          simp only [if_true, Store.upsertSummary, Store.setSummary_other howner]
          rfl
    | _ => exact .inl rfl

/-! ## The invariant -/

def Invariant (s : State) : Prop := ∀ {c : CallId} {call : Call}, s.calls[c]? = some call →
  Ahead s.shared.store call.summarizer

/-- Two calls that are at work on one profile are one. -/
theorem Alone.eq (h : Alone s) {c' : CallId} {other : Call} (hcall : s.calls[c]? = some call)
    (hother : s.calls[c']? = some other) (hworks : worksOn call.summarizer = some profile)
    (hworks' : worksOn other.summarizer = some profile) : c = c' := by
  obtain ⟨hlt, rfl⟩ := List.getElem?_eq_some_iff.mp hcall
  obtain ⟨hlt', rfl⟩ := List.getElem?_eq_some_iff.mp hother
  have hpairs := List.pairwise_iff_getElem.mp (List.pairwise_filterMap.mp h)
  rcases Nat.lt_trichotomy c c' with hbefore | heq | hafter
  · exact absurd rfl (hpairs c c' hlt hlt' hbefore profile hworks profile hworks')
  · exact heq
  · exact absurd rfl (hpairs c' c hlt' hlt hafter profile hworks' profile hworks)

/-- The summarization of the call that moves, in the store before the step. -/
theorem ahead_step (hI : Ahead sh.store call.summarizer)
    (hmany : ∀ profile keepLast, e = .selected true → call.summarizer = .select profile keepLast →
      call'.summarizer ≠ .done → sh.store.unsummarized profile keepLast ≠ [])
    (h : CallStep engine sh c call e sh' call' os) : Ahead sh.store call'.summarizer := by
  cases h with
  | request h => cases h <;> exact hI
  | task h =>
    cases h with
    | summarizerSpawned _ => trivial
    | _ => exact hI
  | summarizer h =>
    cases h with
    | selected hsummarizer =>
      have hne := hmany _ _ rfl hsummarizer (by simp)
      exact ⟨hne, unsummarized_ahead hne⟩
    | previousRead hsummarizer | summarized hsummarizer =>
      rw [hsummarizer] at hI
      first | exact hI | exact hI.2
    | _ => trivial

/-- A selection goes on with as many rows as its window at least. -/
theorem selected_many {keepLast : Nat}
    (h : (machine engine).step s (.task c (.selected true)) = some (s', os))
    (hcall : s.calls[c]? = some call) (hsummarizer : call.summarizer = .select profile keepLast)
    (hcall' : s'.calls[c]? = some call') (hgoes : call'.summarizer ≠ .done) :
    keepLast ≤ (s.shared.store.unsummarized profile keepLast).length := by
  simp only [machine, step, bind, Option.bind_eq_some_iff] at h
  obtain ⟨old, hold, ⟨sh, next, os'⟩, hstep, he⟩ := h
  obtain rfl := Option.some.inj (hcall.symm.trans hold)
  obtain ⟨rfl, rfl⟩ := by simpa using he
  obtain ⟨hlt, -⟩ := List.getElem?_eq_some_iff.mp hcall
  rw [List.getElem?_set_self hlt] at hcall'
  obtain rfl := Option.some.inj hcall'
  simp only [callStep, summarizerStep, hsummarizer, Bool.true_and] at hstep
  split at hstep
  · next hmany => exact of_decide_eq_true hmany
  · obtain ⟨-, rfl, -⟩ := by simpa using hstep
    exact absurd rfl hgoes

/-- So it goes on with some row, unless its window is 0 and there is none. -/
theorem selected_some {keepLast : Nat}
    (h : (machine engine).step s (.task c (.selected true)) = some (s', os))
    (hfinds : finds s (.task c (.selected true)) = true) (hcall : s.calls[c]? = some call)
    (hsummarizer : call.summarizer = .select profile keepLast)
    (hcall' : s'.calls[c]? = some call') (hgoes : call'.summarizer ≠ .done) :
    s.shared.store.unsummarized profile keepLast ≠ [] := by
  have hmany := selected_many h hcall hsummarizer hcall' hgoes
  have hfound : (keepLast != 0 || !(s.shared.store.unsummarized profile 0).isEmpty) = true := by
    simpa [finds, hcall, hsummarizer] using hfinds
  cases keepLast with
  | zero => simpa [List.isEmpty_iff] using hfound
  | succ n => exact List.ne_nil_of_length_pos (Nat.lt_of_lt_of_le (Nat.succ_pos n) hmany)

theorem invariant_step (hI : Invariant s) (halone : Alone s) (hfinds : finds s a = true)
    (h : (machine engine).step s a = some (s', os)) : Invariant s' := by
  cases step_cases h with
  | idle _ _ hshared hcalls =>
    have hstore : s'.shared.store = s.shared.store := by rw [hshared]
    intro c call hcall
    rw [hstore]
    rcases hcalls hcall with hcall | ⟨userId, utterance, rfl⟩
    · exact hI hcall
    · trivial
  | @moved c call call' e ha hcall hcall' hstep hothers =>
    subst ha
    intro c' other hother
    rcases hothers hother with ⟨rfl, rfl⟩ | ⟨hne, hother⟩
    · have hahead : Ahead s.shared.store other.summarizer := by
        refine ahead_step (hI hcall) (fun profile keepLast he hsummarizer hgoes => ?_) hstep
        subst he
        exact selected_some h hfinds hcall hsummarizer hcall' hgoes
      refine hahead.lower fun profile hworks => ?_
      rcases covers_step profile hstep with heq | ⟨-, hle⟩ | ⟨summary, -, hdone, -⟩
      · exact Nat.le_of_eq heq
      · exact hle
      · rw [hdone] at hworks
        cases hworks
    · refine (hI hother).lower fun profile hworks => ?_
      rcases covers_step profile hstep with heq | ⟨-, hle⟩ | ⟨summary, hupsert, -⟩
      · exact Nat.le_of_eq heq
      · exact hle
      · exact absurd (halone.eq hother hcall hworks (by rw [hupsert]; rfl)) hne

/-- What the invariant says of the next step. -/
theorem invariant_advances (hI : Invariant s) : transcribes s a = true ∧ Advances engine s a := by
  constructor
  · unfold transcribes
    split
    next c ok =>
      rw [Option.all_eq_true]
      intro call hcall
      have hahead := hI hcall
      split
      next profile rows covered hsummarizer =>
        rw [hsummarizer] at hahead
        simpa [List.isEmpty_iff] using hahead.1
      next => rfl
    next => rfl
  · rintro profile hclears ⟨s', os⟩ h
    cases step_cases h with
    | idle _ _ hshared _ =>
      rw [hshared]
    | @moved c call call' e ha hcall _ hstep _ =>
      subst ha
      rcases covers_step profile hstep with heq | ⟨hcleared, -⟩ | hwrites
      · exact Nat.le_of_eq heq.symm
      · obtain ⟨outcome, ids, summary, rfl, hpc⟩ := hcleared
        simp [clears, hcall, hpc] at hclears
      · obtain ⟨summary, hupsert, -, hcovers⟩ := hwrites
        have hahead := hI hcall
        rw [hupsert] at hahead
        rw [hcovers]
        exact Nat.le_of_lt hahead

theorem invariant_start : Invariant (startOn engine store) := fun hcall => by cases hcall

/-- In every run in which the summarizations of a profile do not overlap, and none with a
window of 0 finds nothing to select, no mark falls between two clears of its profile, and
every summarization has something to fold in. -/
theorem coverage_moves_forward {store : Store Content} {actions : List Action}
    (halone : (machine engine).Along (fun s _ => Alone s) (startOn engine store) actions)
    (hfinds : (machine engine).Along (fun s a => finds s a = true) (startOn engine store)
      actions) :
    (machine engine).Along (fun s a => transcribes s a = true ∧ Advances engine s a)
      (startOn engine store) actions := by
  exact Machine.Along.of_invariant (I := Invariant)
    (fun hI hboth hstep => invariant_step hI hboth.1 hboth.2 hstep)
    (fun hI _ => invariant_advances hI) invariant_start (halone.and hfinds)

/-! ## A window of at least 1 -/

/-- Windows that were spoken or read are not 0. -/
structure Windowed (s : State) : Prop where
  spoken : ∀ n, s.shared.dialogue.windowOverride = some n → 0 < n
  read : ∀ {c : CallId} {call : Call} {profile : Text} {keepLast : Nat},
    s.calls[c]? = some call → call.summarizer = .select profile keepLast → 0 < keepLast

theorem dispatch_window {dialogue : DialogueState} {utterance : Text}
    (h : ∀ n, dialogue.windowOverride = some n → 0 < n) :
    ∀ n, (dispatch engine dialogue utterance).1.windowOverride = some n → 0 < n := by
  unfold dispatch
  split
  case h_3 =>
    intro n hn
    obtain rfl := Option.some.inj hn
    exact Nat.le_max_left ..
  all_goals exact h

theorem callStep_window (h : CallStep engine sh c call e sh' call' os)
    (hspoken : ∀ n, sh.dialogue.windowOverride = some n → 0 < n) :
    ∀ n, sh'.dialogue.windowOverride = some n → 0 < n := by
  cases h with
  | request h =>
    cases h with
    | dispatched _ => exact dispatch_window hspoken
    | _ => exact hspoken
  | task h => cases h <;> exact hspoken
  | summarizer h => cases h <;> exact hspoken

theorem callStep_select {keepLast : Nat} (h : CallStep engine sh c call e sh' call' os)
    (hsummarizer : call'.summarizer = .select profile keepLast) :
    call.summarizer = .select profile keepLast ∨ keepLast = sh.dialogue.window engine.config := by
  cases h with
  | request h => cases h <;> exact .inl hsummarizer
  | task h =>
    cases h with
    | summarizerSpawned _ => cases hsummarizer
    | _ => exact .inl hsummarizer
  | summarizer h =>
    cases h with
    | keepLast _ =>
      obtain ⟨-, rfl⟩ := Summarizer.select.inj hsummarizer
      exact .inr rfl
    | _ => cases hsummarizer

theorem windowed_step (hconfig : 0 < engine.config.contextWindow) (hI : Windowed s)
    (h : (machine engine).step s a = some (s', os)) : Windowed s' := by
  have hwindow : 0 < s.shared.dialogue.window engine.config := by
    unfold DialogueState.window
    cases hover : s.shared.dialogue.windowOverride with
    | none => exact hconfig
    | some n => exact hI.spoken n hover
  cases step_cases h with
  | idle _ _ hshared hcalls =>
    refine ⟨by rw [hshared]; exact hI.spoken, fun hcall hsummarizer => ?_⟩
    rcases hcalls hcall with hcall | ⟨userId, utterance, rfl⟩
    · exact hI.read hcall hsummarizer
    · cases hsummarizer
  | moved ha hcall _ hstep hothers =>
    refine ⟨callStep_window hstep hI.spoken, fun hother hsummarizer => ?_⟩
    rcases hothers hother with ⟨rfl, rfl⟩ | ⟨-, hother⟩
    · rcases callStep_select hstep hsummarizer with hold | rfl
      · exact hI.read hcall hold
      · exact hwindow
    · exact hI.read hother hsummarizer

theorem finds_of_windowed (hI : Windowed s) : finds s a = true := by
  unfold finds
  split
  next c =>
    rw [Option.all_eq_true]
    intro call hcall
    split
    next profile keepLast hsummarizer =>
      have hpositive := hI.read hcall hsummarizer
      simp [Nat.ne_of_gt hpositive]
    next => rfl
  next => rfl

/-- With a configured window of at least 1 there is no other condition. -/
theorem windowed_coverage_moves_forward {store : Store Content} {actions : List Action}
    (hconfig : 0 < engine.config.contextWindow)
    (halone : (machine engine).Along (fun s _ => Alone s) (startOn engine store) actions) :
    (machine engine).Along (fun s a => transcribes s a = true ∧ Advances engine s a)
      (startOn engine store) actions := by
  have hwindowed : Windowed (startOn engine store) := by
    refine ⟨fun n hn => ?_, fun hcall => ?_⟩
    · cases hn
    · cases hcall
  exact Machine.Along.of_invariant (I := fun s => Invariant s ∧ Windowed s)
    (fun hI halone hstep => ⟨invariant_step hI.1 halone (finds_of_windowed hI.2) hstep,
      windowed_step hconfig hI.2 hstep⟩)
    (fun hI _ => invariant_advances hI.1) ⟨invariant_start, hwindowed⟩ halone

/-! ## A window of 0 -/

def windowless : AppConfig :=
  { Introduction.family with
    defaults := { profile := "Дима".toList, contextWindow := 0, replyBudgetMs := 2800 } }

def windowlessEngine : Engine := { Introduction.familyEngine with config := ⟨0, 2800⟩ }

/-- An exchange that is answered but not recorded. -/
def unrecorded (c : CallId) (utterance text : Text) : List Action :=
  .arrive ['u'] utterance :: opening c ++
    tasks c [.chat, .chatted (.completion text 0), .inserted false, .spawnSummarizer] ++ delivery c

/-- A summarized exchange, and one whose summarization begins. -/
def beforeFailure : List Action :=
  exchange 0 ['q'] ['a'] ++ selection 0 ++ tasks 0 [.previousRead true] ++ compression 0 ['s'] ++
    unrecorded 1 ['q'] ['a'] ++ selection 1

def afterFailure : List Action := tasks 1 [.previousRead true] ++ compression 1 ['t']

/-- The mark of the one who speaks after these actions. -/
def marks (actions : List Action) : Option MessageId :=
  ((machine windowlessEngine).exec (startOn windowlessEngine Store.empty) actions).map fun r =>
    r.1.shared.store.coversUntil "Дима".toList

theorem coverage_moves_forward_orderly :
    (machine fixture).Along (fun s a => transcribes s a = true ∧ Advances fixture s a)
      (startOn fixture Store.empty) (beforeFailure ++ afterFailure) :=
  have hrun : (machine fixture).Along (fun s _ => Alone s) (startOn fixture Store.empty)
        (beforeFailure ++ afterFailure) ∧
      (machine fixture).Along (fun s a => finds s a = true) (startOn fixture Store.empty)
        (beforeFailure ++ afterFailure) := by
    decide +kernel
  coverage_moves_forward hrun.1 hrun.2

/-- The file may set the window to 0. Then an exchange that is not recorded is followed by a
request with nothing in it, and the mark falls to 0. -/
theorem windowless_coverage_falls :
    AppConfig.fromToml (fun _ => Except.ok windowless) [] =
        (.ok windowless : Except (ConfigError Unit) AppConfig) ∧
      windowless.buildEngine (fun _ => Except.ok ()) (fun _ => []) =
        (.ok windowlessEngine : Except (ConfigError Unit) Engine) ∧
      (machine windowlessEngine).Along (fun s _ => Alone s) (startOn windowlessEngine Store.empty)
        (beforeFailure ++ afterFailure) ∧
      marks beforeFailure = some 2 ∧ marks (beforeFailure ++ afterFailure) = some 0 ∧
      ¬ (machine windowlessEngine).Along
        (fun s a => transcribes s a = true ∧ Advances windowlessEngine s a)
        (startOn windowlessEngine Store.empty) (beforeFailure ++ afterFailure) := by
  have hrun : (machine windowlessEngine).Along (fun s _ => Alone s)
        (startOn windowlessEngine Store.empty) (beforeFailure ++ afterFailure) ∧
      marks beforeFailure = some 2 ∧ marks (beforeFailure ++ afterFailure) = some 0 ∧
      ¬ (machine windowlessEngine).Along (fun s a => transcribes s a = true)
        (startOn windowlessEngine Store.empty) (beforeFailure ++ afterFailure) := by
    decide +kernel
  obtain ⟨halone, hbefore, hafter, hempty⟩ := hrun
  exact ⟨rfl, rfl, halone, hbefore, hafter, fun h => hempty (h.mono fun _ _ hboth => hboth.1)⟩

end AliceBridge.Server.Coverage
