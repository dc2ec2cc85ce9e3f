import AliceBridge.Core.EngineSteps
import AliceBridge.Server.Config

/-! # Members of the family introduce themselves

An introduction is looked up twice: its words among the names and aliases of the roster,
when it is said, and the name of the member found there among the names, when that member
asks. The roster is the one `build_engine` makes; validation looks at neither names nor
aliases. -/
namespace AliceBridge.Server.Introduction
open AliceBridge.Lib.Utf8 AliceBridge.Lib.Words AliceBridge.Lib.Run AliceBridge.Core.Family
open AliceBridge.Core.Commands AliceBridge.Core.Prompt AliceBridge.Core.Engine
open AliceBridge.Core.EngineSteps
open AliceBridge.Server.Config
open AliceBridge.Core.Conversation (MessageId Row)
open AliceBridge.Core.HouseEngine (CallId)

/-! ## A family -/

def papa : ProfileConfig := ⟨"Дима".toList, ["Папа".toList], none, "adult".toList, []⟩

def artyom : ProfileConfig := ⟨"Артём".toList, [], none, "child".toList, []⟩

def sasha : ProfileConfig := ⟨"Саша".toList, [], none, "adult".toList, []⟩

def sashenka : ProfileConfig := ⟨"Саша".toList, ["Сашенька".toList], none, "child".toList, []⟩

def family : AppConfig :=
  { runtime :=
      { mode := .legacy
        codexSocket := none
        codexCwdRoot := none
        permissionProfilePrefix := "alice-house-".toList
        chunkLimit := 850
        homeyEnabled := false }
    defaults := { profile := "Дима".toList, contextWindow := 12, replyBudgetMs := 2800 }
    providers := [['d']]
    models := { fast := ⟨['d'], ['m']⟩, smart := ⟨['d'], ['m']⟩ }
    profiles := [papa, artyom, sasha, sashenka]
    modes := [] }

theorem family_accepted : AppConfig.fromToml (fun _ => Except.ok family) [] =
    (.ok family : Except (ConfigError Unit) AppConfig) := rfl

def familyEngine : Engine :=
  { roster := ⟨family.profiles.map ProfileConfig.profile, ⟨0, by decide⟩⟩
    modes := []
    config := ⟨12, 2800⟩
    formatUsd := fun _ => [] }

theorem family_engine : family.buildEngine (fun _ => Except.ok ()) (fun _ => []) =
    (.ok familyEngine : Except (ConfigError Unit) Engine) := rfl

/-! ## Names that are said -/

/-- What a member can be called. -/
def names (p : ProfileConfig) : List Text := p.name :: p.aliases

section Names

variable {ε : Type} {connect : Text → Except (ConfigError ε) Unit} {formatUsd : Int → Text}
  {config : AppConfig} {engine : Engine} {said norm : Text}

/-- A lookup compares with the names as they are lowered. -/
theorem findByAlias_eq_some {profile : Profile}
    (hb : config.buildEngine connect formatUsd = .ok engine) (htrim : trim norm = norm)
    (h : engine.roster.findByAlias norm = some profile) :
    ∃ p ∈ config.profiles, profile = p.profile ∧ ∃ name ∈ names p, toLowercase name = norm := by
  unfold FamilyRoster.findByAlias at h
  rw [htrim, buildEngine_profiles hb] at h
  obtain ⟨p, hp, rfl⟩ := List.mem_map.mp (List.mem_of_find?_eq_some h)
  refine ⟨p, hp, rfl, ?_⟩
  have hmatch := List.find?_some h
  rw [Bool.or_eq_true, beq_iff_eq] at hmatch
  rcases hmatch with hname | halias
  · exact ⟨p.name, List.mem_cons_self, hname⟩
  · obtain ⟨lowered, hlowered, heq⟩ := List.any_eq_true.mp halias
    obtain ⟨name, hname, rfl⟩ := List.mem_map.mp hlowered
    exact ⟨name, List.mem_cons_of_mem _ hname, by simpa using heq⟩

theorem findByAlias_eq_none (hb : config.buildEngine connect formatUsd = .ok engine)
    (htrim : trim norm = norm) (h : engine.roster.findByAlias norm = none) :
    ∀ p ∈ config.profiles, ∀ name ∈ names p, toLowercase name ≠ norm := by
  intro p hp name hname heq
  unfold FamilyRoster.findByAlias at h
  rw [htrim, buildEngine_profiles hb] at h
  have hno := List.find?_eq_none.mp h p.profile (List.mem_map_of_mem hp)
  simp only [Bool.or_eq_true, beq_iff_eq, not_or, List.any_eq_true, not_exists, not_and] at hno
  rcases List.mem_cons.mp hname with rfl | hname
  · exact hno.1 heq
  · exact hno.2 _ (List.mem_map_of_mem hname) heq

theorem normalize_introduction {phrase : Text} (hphrase : phrase ∈ introductions)
    (hne : normalize said ≠ []) : normalize (phrase ++ said) = phrase ++ normalize said := by
  have hspoken : ∀ phrase ∈ introductions, phrase = phrase.dropLast ++ [' '] ∧
      phrase.dropLast.all isLowered = true ∧ normalize phrase.dropLast = phrase.dropLast ∧
      phrase.dropLast ≠ [] := by
    decide +kernel
  obtain ⟨hblank, hlowered, hnormal, hspoken⟩ := hspoken phrase hphrase
  rw [hblank, List.append_assoc, List.append_assoc]
  have happend := normalize_append hlowered (hnormal.symm ▸ hspoken) hne
  rwa [hnormal] at happend

/-- After an introducing phrase, a name that no other member of the family has introduces a
member exactly when one of the names of that member is, lowered, its normal form. -/
theorem introduces_iff (hb : config.buildEngine connect formatUsd = .ok engine)
    {p : ProfileConfig} (hp : p ∈ config.profiles) (hne : normalize said ≠ [])
    (hother : ∀ q ∈ config.profiles, q ≠ p → ∀ name ∈ names q, normalize name ≠ normalize said)
    {phrase : Text} (hphrase : phrase ∈ introductions) :
    parse (phrase ++ said) engine.roster engine.modes = .command (.introduce p.name) ↔
      ∃ name ∈ names p, toLowercase name = normalize said := by
  rw [parse_introduce_iff, normalize_introduction hphrase hne, introduced_phrase hphrase]
  have htrim := trim_normalize said
  cases hfound : engine.roster.findByAlias (normalize said) with
  | none =>
    refine iff_of_false ?_ ?_
    · rintro ⟨profile, hprofile, -⟩
      cases hprofile
    · rintro ⟨name, hname, hlowered⟩
      exact findByAlias_eq_none hb htrim hfound p hp name hname hlowered
  | some profile =>
    obtain ⟨q, hq, rfl, name, hname, hlowered⟩ := findByAlias_eq_some hb htrim hfound
    have hsame : normalize name = normalize said := by
      rw [normalize_eq, normalWords_of_lowered hlowered]
      rfl
    obtain rfl : q = p := by
      by_contra hqp
      exact hother q hq hqp name hname hsame
    exact iff_of_true ⟨_, rfl, rfl⟩ ⟨name, hname, hlowered⟩

end Names

theorem papa_introduces_dima :
    parse ("меня зовут ".toList ++ "Папа".toList) familyEngine.roster familyEngine.modes =
      .command (.introduce "Дима".toList) := by
  have hother : ∀ q ∈ family.profiles, q ≠ papa → ∀ name ∈ names q,
      normalize name ≠ normalize "Папа".toList := by
    decide +kernel
  have hpapa : papa ∈ family.profiles := List.mem_cons_self
  refine (introduces_iff family_engine hpapa ?_ hother ?_).mpr ?_
  · decide +kernel
  · decide
  · decide +kernel

/-- `ё` is folded in what is said and not in the name. -/
theorem artyom_is_not_introduced :
    AppConfig.fromToml (fun _ => Except.ok family) [] =
        (.ok family : Except (ConfigError Unit) AppConfig) ∧
      family.buildEngine (fun _ => Except.ok ()) (fun _ => []) =
        (.ok familyEngine : Except (ConfigError Unit) Engine) ∧
      (normalize artyom.name ≠ [] ∧ ∀ q ∈ family.profiles, q ≠ artyom → ∀ name ∈ names q,
        normalize name ≠ normalize artyom.name) ∧
      parse ("это ".toList ++ artyom.name) familyEngine.roster familyEngine.modes ≠
        .command (.introduce artyom.name) := by
  refine ⟨family_accepted, family_engine, by decide +kernel, fun hparse => ?_⟩
  have hnone :
      introduced familyEngine.roster (normalize ("это ".toList ++ artyom.name)) = none := by
    decide +kernel
  obtain ⟨profile, hprofile, -⟩ := parse_introduce_iff.mp hparse
  rw [hnone] at hprofile
  cases hprofile

/-! ## The member a question is asked for -/

/-- Of the same role, persona and birthday. -/
def sameMember (a b : Profile) : Bool :=
  decide (a.role = b.role ∧ a.persona = b.persona ∧ a.birthday = b.birthday)

/-- The first profile of that name in the configuration is such a member. -/
def unshadowed (config : AppConfig) (profile : Profile) : Bool :=
  (config.profiles.find? fun p => p.name == profile.name).all fun p =>
    sameMember p.profile profile

/-- The step of a call that introduces a member. -/
def introduces (engine : Engine) (s : State) : Action → Bool
  | .task c .next => (s.calls[c]?).any fun call => decide (call.pc = .dispatch) &&
      (introduced engine.roster (normalize call.utterance)).isSome
  | _ => false

/-- The messages begin with the system prompt made of these locals of `ask_llm`. -/
def PromptedBy (engine : Engine) (ask : Ask) (messages : List ChatMessage) : Prop :=
  ∃ today summary rest, messages = systemMessage engine ask today summary :: rest

section Steps

variable {engine : Engine} {sh sh' : Shared} {s s' : State} {c : CallId} {call call' : Call}
  {e : Event} {a : Action} {os : List Obs} {ask : Ask} {profile : Profile}

theorem dispatch_introduced {dialogue : DialogueState} {utterance : Text}
    (h : introduced engine.roster (normalize utterance) = some profile) :
    (dispatch engine dialogue utterance).1 = { dialogue with activeProfile := profile.name } := by
  have hparse : parse utterance engine.roster engine.modes = .command (.introduce profile.name) :=
    parse_introduce_iff.mpr ⟨profile, h, rfl⟩
  unfold dispatch
  rw [hparse]

theorem dispatch_keeps {dialogue : DialogueState} {utterance : Text}
    (h : introduced engine.roster (normalize utterance) = none) :
    (dispatch engine dialogue utterance).1.activeProfile = dialogue.activeProfile := by
  unfold dispatch
  split
  next name hparse =>
    obtain ⟨profile, hprofile, -⟩ := parse_introduce_iff.mp hparse
    rw [h] at hprofile
    cases hprofile
  all_goals rfl

theorem callStep_activeProfile (h : CallStep engine sh c call e sh' call' os)
    (hnone : e = .next → call.pc = .dispatch →
      introduced engine.roster (normalize call.utterance) = none) :
    sh'.dialogue.activeProfile = sh.dialogue.activeProfile := by
  cases h with
  | request h =>
    cases h with
    | dispatched hpc => exact dispatch_keeps (hnone rfl hpc)
    | _ => rfl
  | task h => cases h <;> rfl
  | summarizer h => cases h <;> rfl

/-- Only an introduction changes the active profile. -/
theorem step_activeProfile (h : (machine engine).step s a = some (s', os))
    (ha : introduces engine s a = false) :
    s'.shared.dialogue.activeProfile = s.shared.dialogue.activeProfile := by
  cases step_cases h with
  | idle _ _ hshared _ => rw [hshared]
  | moved haction hcall _ hstep _ =>
    refine callStep_activeProfile hstep fun he hpc => ?_
    subst haction he
    simpa [introduces, hcall, hpc] using ha

/-- Where the request of a call has not been spawned. -/
def preparing : Pc → Bool
  | .lookup | .polled _ | .expire | .dispatch | .ask _ _ | .summary _ | .history _ _ | .mark _
  | .spawn _ => true
  | _ => false

def Unspawned (call : Call) : Prop := preparing call.pc = true → call.task = .unspawned

theorem moves_unspawned {pc : Pc} (h : Unspawned call) (hmoves : Moves engine sh call e pc) :
    Unspawned { call with pc := pc } := by
  unfold Unspawned at h ⊢
  cases hmoves with
  | found hpc _ | absent hpc _ | old hpc _ | fresh hpc _ | asks hpc =>
    rw [hpc] at h
    exact fun _ => h rfl
  | timer _ hnext => rcases hnext with rfl | rfl <;> exact fun hprep => by cases hprep
  | _ => exact fun hprep => by cases hprep

/-- A reply task that takes a step was spawned, and leaves the request where it is. -/
theorem task_spawned (h : TaskStep sh c call e sh' call' os) :
    call.task ≠ .unspawned ∧ call'.pc = call.pc := by
  cases h with
  | insertFailed htask =>
    refine ⟨fun hnone => ?_, rfl⟩
    rcases htask with htask | ⟨_, _, htask⟩ <;> rw [hnone] at htask <;> cases htask
  | panicked hrunning =>
    refine ⟨fun hnone => ?_, rfl⟩
    rw [hnone] at hrunning
    cases hrunning
  | asked htask | answered htask | failed htask | userInserted htask | assistantInserted htask
  | recorded htask _ | commitLost htask _ | summarizerSpawned htask | rejected htask _
  | sent htask _ | completed htask =>
    refine ⟨fun hnone => ?_, rfl⟩
    rw [hnone] at htask
    cases htask

theorem callStep_unspawned (h : Unspawned call)
    (hstep : CallStep engine sh c call e sh' call' os) : Unspawned call' := by
  cases hstep with
  | request hrequest =>
    cases hrequest with
    | moves hmoves => exact moves_unspawned h hmoves
    | missed hpc _ | expired hpc | dispatched hpc | summaryRead hpc | historyRead hpc
    | marked hpc =>
      unfold Unspawned at h ⊢
      rw [hpc] at h
      exact fun _ => h rfl
    | _ => exact fun hprep => by cases hprep
  | task htask =>
    obtain ⟨hspawned, hpc⟩ := task_spawned htask
    intro hprep
    rw [hpc] at hprep
    exact absurd (h hprep) hspawned
  | summarizer hsummarizer => cases hsummarizer <;> exact h

theorem run_unspawned {as : List Action}
    (h : (machine engine).exec (initial engine) as = some (s, os))
    (hcall : s.calls[c]? = some call) : Unspawned call := by
  refine Machine.exec_invariant_free (M := machine engine)
    (fun s _ => ∀ c call, s.calls[c]? = some call → Unspawned call) ?_ ?_ h c call hcall
  · intro s os a s' os' hI hstep c call hcall
    cases step_cases hstep with
    | idle _ _ _ hcalls =>
      rcases hcalls hcall with hcall | ⟨userId, utterance, rfl⟩
      · exact hI c call hcall
      · exact fun _ => rfl
    | moved _ hold _ hcallStep hothers =>
      rcases hothers hcall with ⟨rfl, rfl⟩ | ⟨_, hother⟩
      · exact callStep_unspawned (hI _ _ hold) hcallStep
      · exact hI c call hother
  · intro c call hcall
    cases hcall

/-! ## From the question to its chat request -/

def Built (engine : Engine) (ask : Ask) (request : Request) : Prop :=
  ∃ today summary history, request = buildRequest engine ask today summary history

/-- The request of the call, where there is one, is made of these locals. -/
def carriedByPc (engine : Engine) (ask : Ask) : Pc → Prop
  | .summary ask' | .history ask' _ => ask' = ask
  | .mark request | .spawn request => Built engine ask request
  | .pollReceiver | .pollTimer | .dropReceiver | .clear _ | .returned _ | .deferred => True
  | _ => False

structure Carries (engine : Engine) (ask : Ask) (call : Call) : Prop where
  pc : carriedByPc engine ask call.pc
  task : ∀ {request}, call.task = .spawned request → Built engine ask request

theorem moves_carries {pc : Pc} (h : Carries engine ask call)
    (hmoves : Moves engine sh call e pc) : carriedByPc engine ask pc := by
  have hpc := h.pc
  cases hmoves with
  | noReply _ _ _ => trivial
  | timer _ hnext => rcases hnext with rfl | rfl <;> trivial
  | clearFailed hfrom => rcases hfrom with hfrom | ⟨_, hfrom⟩ <;> rw [hfrom] at hpc <;> cases hpc
  | found hfrom _ | absent hfrom _ | old hfrom _ | fresh hfrom _ | asks hfrom
  | summaryDeleted hfrom | usageClock hfrom | usageToday hfrom | usageMonth hfrom =>
    rw [hfrom] at hpc
    cases hpc

theorem requestStep_carries (h : Carries engine ask call)
    (hstep : RequestStep engine sh c call e sh' call' os) :
    Carries engine ask call' ∧ ∀ {profile messages}, .asked c profile messages ∉ os := by
  have hpc := h.pc
  cases hstep with
  | moves hmoves => exact ⟨⟨moves_carries h hmoves, h.task⟩, List.not_mem_nil⟩
  | summaryRead hfrom =>
    rw [hfrom] at hpc
    exact ⟨⟨hpc, h.task⟩, List.not_mem_nil⟩
  | historyRead hfrom =>
    rw [hfrom] at hpc
    cases hpc
    exact ⟨⟨⟨_, _, _, rfl⟩, h.task⟩, List.not_mem_nil⟩
  | marked hfrom =>
    rw [hfrom] at hpc
    exact ⟨⟨hpc, h.task⟩, by simp⟩
  | spawned hfrom =>
    rw [hfrom] at hpc
    refine ⟨⟨trivial, fun htask => ?_⟩, List.not_mem_nil⟩
    obtain rfl := Task.spawned.inj htask
    exact hpc
  | received _ _ | timedOut _ | cleared _ => exact ⟨⟨trivial, h.task⟩, List.not_mem_nil⟩
  | taken hfrom _ | missed hfrom _ | expired hfrom | dispatched hfrom | forgetting hfrom
  | forgotten hfrom | forgetFailed hfrom =>
    rw [hfrom] at hpc
    cases hpc

/-- A step keeps the request, and what it asks the model begins with its prompt. -/
theorem callStep_carries (h : Carries engine ask call)
    (hstep : CallStep engine sh c call e sh' call' os) :
    Carries engine ask call' ∧ ∀ {profile messages}, .asked c profile messages ∈ os →
      PromptedBy engine ask messages := by
  cases hstep with
  | request hstep =>
    obtain ⟨hcarries, hnone⟩ := requestStep_carries h hstep
    exact ⟨hcarries, fun hmem => absurd hmem hnone⟩
  | task hstep =>
    cases hstep with
    | asked htask =>
      obtain ⟨today, summary, history, rfl⟩ := h.task htask
      refine ⟨⟨h.pc, fun hnext => by cases hnext⟩, fun hmem => ?_⟩
      obtain ⟨-, rfl, rfl⟩ := Obs.asked.inj (List.mem_singleton.mp hmem)
      exact ⟨today, summary, _, rfl⟩
    | completed htask =>
      refine ⟨⟨h.pc, fun hnext => by cases hnext⟩, fun hmem => ?_⟩
      split at hmem <;> simp at hmem
    | recorded _ _ =>
      exact ⟨⟨h.pc, fun hnext => by cases hnext⟩, fun hmem => by simp at hmem⟩
    | _ => exact ⟨⟨h.pc, fun hnext => by cases hnext⟩, fun hmem => by cases hmem⟩
  | summarizer hstep =>
    cases hstep with
    | previousRead _ => exact ⟨⟨h.pc, h.task⟩, fun hmem => by simp at hmem⟩
    | _ => exact ⟨⟨h.pc, h.task⟩, fun hmem => by cases hmem⟩

theorem callStep_asked {c' : CallId} {profile : Text} {messages : List ChatMessage}
    (hstep : CallStep engine sh c call e sh' call' os)
    (hmem : .asked c' profile messages ∈ os) : c' = c := by
  cases hstep with
  | request hstep => cases hstep <;> simp at hmem
  | task hstep =>
    cases hstep with
    | asked _ => exact (Obs.asked.inj (List.mem_singleton.mp hmem)).1
    | completed _ => split at hmem <;> simp at hmem
    | _ => simp at hmem
  | summarizer hstep => cases hstep <;> simp at hmem

theorem step_carries {c' : CallId} (h : (machine engine).step s a = some (s', os))
    (hcall : s.calls[c']? = some call) (hcarries : Carries engine ask call) :
    (∃ call', s'.calls[c']? = some call' ∧ Carries engine ask call') ∧
      ∀ profile messages, .asked c' profile messages ∈ os → PromptedBy engine ask messages := by
  obtain ⟨hlt, -⟩ := List.getElem?_eq_some_iff.mp hcall
  cases a with
  | arrive userId utterance =>
    obtain ⟨rfl, rfl⟩ := Prod.mk.inj (Option.some.inj h)
    refine ⟨⟨call, ?_, hcarries⟩, fun _ _ hmem => absurd hmem List.not_mem_nil⟩
    exact (List.getElem?_append_left hlt).trans hcall
  | tick =>
    obtain ⟨rfl, rfl⟩ := Prod.mk.inj (Option.some.inj h)
    exact ⟨⟨call, hcall, hcarries⟩, fun _ _ hmem => absurd hmem List.not_mem_nil⟩
  | task c e =>
    obtain ⟨old, new, hold, hcalls, hstep⟩ := step_task h
    rw [hcalls]
    by_cases hc : c' = c
    · subst hc
      obtain rfl := Option.some.inj (hold.symm.trans hcall)
      obtain ⟨hnew, hshown⟩ := callStep_carries hcarries hstep
      exact ⟨⟨new, List.getElem?_set_self hlt, hnew⟩, fun _ _ hmem => hshown hmem⟩
    · refine ⟨⟨call, by rw [List.getElem?_set_ne (Ne.symm hc), hcall], hcarries⟩, ?_⟩
      exact fun _ _ hmem => absurd (callStep_asked hstep hmem) hc

/-- Whatever else happens, what a call asks the model begins with the prompt of its locals. -/
theorem run_prompted {as : List Action} (hcall : s.calls[c]? = some call)
    (hcarries : Carries engine ask call) (h : (machine engine).exec s as = some (s', os))
    {profile : Text} {messages : List ChatMessage} (hmem : .asked c profile messages ∈ os) :
    PromptedBy engine ask messages := by
  refine (Machine.exec_invariant_free (M := machine engine)
    (fun s os => (∃ call, s.calls[c]? = some call ∧ Carries engine ask call) ∧
      ∀ profile messages, .asked c profile messages ∈ os → PromptedBy engine ask messages)
    ?_ ?_ h).2 profile messages hmem
  · rintro s os a s' os' ⟨⟨call, hcall, hcarries⟩, hshown⟩ hstep
    obtain ⟨hkept, hnew⟩ := step_carries hstep hcall hcarries
    refine ⟨hkept, fun profile messages hmem => ?_⟩
    exact (List.mem_append.mp hmem).elim (hshown profile messages) (hnew profile messages)
  · exact ⟨⟨call, hcall, hcarries⟩, fun _ _ hmem => absurd hmem List.not_mem_nil⟩

end Steps

/-! ## The two lookups -/

section Lookups

variable {ε : Type} {connect : Text → Except (ConfigError ε) Unit} {formatUsd : Int → Text}
  {config : AppConfig} {engine : Engine} {profile : Profile}

theorem introduced_mem {norm : Text} (h : introduced engine.roster norm = some profile) :
    profile ∈ engine.roster.profiles := by
  obtain ⟨phrase, -, hfound⟩ := List.exists_of_findSome?_eq_some h
  obtain ⟨rest, -, hfound⟩ := Option.bind_eq_some_iff.mp hfound
  exact List.mem_of_find?_eq_some hfound

/-- The name of a member finds the first member of that name. -/
theorem get_introduced (hb : config.buildEngine connect formatUsd = .ok engine)
    (h : profile ∈ engine.roster.profiles) :
    ∃ found, engine.roster.get profile.name = some found ∧
      (sameMember found profile = true ↔ unshadowed config profile = true) := by
  have hget : engine.roster.get profile.name =
      (config.profiles.find? fun p => p.name == profile.name).map ProfileConfig.profile := by
    unfold FamilyRoster.get
    rw [buildEngine_profiles hb, List.find?_map]
    rfl
  cases hfound : config.profiles.find? fun p => p.name == profile.name with
  | none =>
    rw [hfound] at hget
    have hno := List.find?_eq_none.mp hget profile h
    simp at hno
  | some p =>
    refine ⟨p.profile, by rw [hget, hfound]; rfl, ?_⟩
    unfold unshadowed
    rw [hfound, Option.all_some]

end Lookups

/-! ## The next question -/

section NextQuestion

variable {engine : Engine} {s s' : State} {c : CallId} {call : Call} {os : List Obs}

theorem step_introduction {profile : Profile} (hcall : s.calls[c]? = some call)
    (hpc : call.pc = .dispatch)
    (hprofile : introduced engine.roster (normalize call.utterance) = some profile)
    (h : (machine engine).step s (.task c .next) = some (s', os)) :
    s'.shared.dialogue.activeProfile = profile.name := by
  simp only [machine, step, hcall, callStep, requestStep, nextStep, hpc, bind, Option.bind_some,
    Option.some.injEq, Prod.mk.injEq] at h
  obtain ⟨rfl, -⟩ := h
  exact congrArg DialogueState.activeProfile (dispatch_introduced hprofile)

theorem step_question {question : Text} {tier : Option ModelTier} {ask : Ask}
    (hcall : s.calls[c]? = some call) (hpc : call.pc = .ask question tier)
    (hask : startAsk engine s.shared.dialogue question tier = .summary ask)
    (h : (machine engine).step s (.task c .next) = some (s', os)) :
    s'.calls[c]? = some { call with pc := .summary ask } ∧ os = [] := by
  obtain ⟨hlt, -⟩ := List.getElem?_eq_some_iff.mp hcall
  simp only [machine, step, hcall, callStep, requestStep, nextStep, hpc, bind, Option.bind_some,
    Option.some.injEq, Prod.mk.injEq] at h
  obtain ⟨rfl, rfl⟩ := h
  rw [hask]
  exact ⟨List.getElem?_set_self hlt, rfl⟩

end NextQuestion

/-- A member is introduced, nobody else is, and a question is asked: the prompt of its chat
request is made of the role, the persona and the birthday of that member exactly when the
first profile of their name in the configuration has them. -/
theorem next_prompt_iff {ε : Type} {connect : Text → Except (ConfigError ε) Unit}
    {formatUsd : Int → Text} {config : AppConfig} {engine : Engine}
    (hb : config.buildEngine connect formatUsd = .ok engine) {before mid after : List Action}
    {s₁ s₂ s₃ s₄ : State} {os₁ os₂ os₃ os₄ : List Obs} {c c' : CallId} {call call' : Call}
    {profile : Profile} {question : Text} {tier : Option ModelTier}
    (h₁ : (machine engine).exec (initial engine) before = some (s₁, os₁))
    (hcall : s₁.calls[c]? = some call) (hpc : call.pc = .dispatch)
    (hprofile : introduced engine.roster (normalize call.utterance) = some profile)
    (h₂ : (machine engine).step s₁ (.task c .next) = some (s₂, os₂))
    (h₃ : (machine engine).exec s₂ mid = some (s₃, os₃))
    (hmid : (machine engine).Along (fun s a => introduces engine s a = false) s₂ mid)
    (hcall' : s₃.calls[c']? = some call') (hpc' : call'.pc = .ask question tier)
    (h₄ : (machine engine).exec s₃ (.task c' .next :: after) = some (s₄, os₄)) :
    ∃ ask, startAsk engine s₃.shared.dialogue question tier = .summary ask ∧
      (∀ name messages, .asked c' name messages ∈ os₄ → PromptedBy engine ask messages) ∧
      (sameMember ask.profile profile = true ↔ unshadowed config profile = true) := by
  have hactive : s₃.shared.dialogue.activeProfile = profile.name := by
    refine Machine.exec_state_invariant (M := machine engine)
      (I := fun s => s.shared.dialogue.activeProfile = profile.name) ?_
      (step_introduction hcall hpc hprofile h₂) hmid h₃
    exact fun hI hquiet hstep => (step_activeProfile hstep hquiet).trans hI
  obtain ⟨found, hfound, hiff⟩ := get_introduced hb (introduced_mem hprofile)
  obtain ⟨ask, hask, hmember⟩ : ∃ ask,
      startAsk engine s₃.shared.dialogue question tier = .summary ask ∧ ask.profile = found := by
    unfold startAsk
    rw [hactive, hfound]
    exact ⟨_, rfl, rfl⟩
  refine ⟨ask, hask, fun name messages hmem => ?_, hmember ▸ hiff⟩
  have hunspawned : call'.task = .unspawned := by
    have hrun := Machine.exec_append_of h₁ (Machine.exec_cons_of h₂ h₃)
    exact run_unspawned hrun hcall' (by rw [hpc']; rfl)
  obtain ⟨r, shown, hr, hrest, rfl⟩ := Machine.exec_cons h₄
  obtain ⟨hasking, hquiet⟩ := step_question hcall' hpc' hask hr
  rw [hquiet, List.nil_append] at hmem
  refine run_prompted hasking ⟨rfl, fun htask => ?_⟩ hrest hmem
  rw [hunspawned] at htask
  cases htask

/-- A question waits for its prompt while its speaker is introduced. -/
def waiting : List Action :=
  [.arrive ['u'] "я папа".toList, .arrive ['u'] ['q'], .task 0 .next, .task 1 .next, .task 1 .next]

def prompting (c : CallId) : List Action :=
  tasks c [.next, .summaryRead true, .historyRead true someDay, .next, .next, .chat]

theorem next_prompt_papa : ∃ s₃ s₄ os ask,
    (machine familyEngine).exec s₃ (prompting 1) = some (s₄, os) ∧
      startAsk familyEngine s₃.shared.dialogue ['q'] none = .summary ask ∧
      sameMember ask.profile papa.profile = true := by
  have hruns : ((machine familyEngine).exec (initial familyEngine) waiting).map (fun r =>
      (r.1.calls, ((machine familyEngine).exec r.1 (.task 0 .next :: prompting 1)).isSome)) =
      some ([{ Call.new ['u'] "я папа".toList with pc := .dispatch },
        { Call.new ['u'] ['q'] with pc := .ask ['q'] none }], true) := by
    decide +kernel
  obtain ⟨⟨s₁, os₁⟩, h₁, hend⟩ := Option.map_eq_some_iff.mp hruns
  obtain ⟨hcalls, hrest⟩ := Prod.mk.inj hend
  obtain ⟨⟨s₄, os⟩, hrest⟩ := Option.isSome_iff_exists.mp hrest
  obtain ⟨⟨s₂, os₂⟩, os₄, h₂, h₄, rfl⟩ := Machine.exec_cons hrest
  have hquestion : s₂.calls[1]? = some { Call.new ['u'] ['q'] with pc := .ask ['q'] none } := by
    obtain ⟨_, _, _, hset, _⟩ := step_task h₂
    rw [hset, List.getElem?_set_ne (by decide), hcalls]
    rfl
  have hprofile : introduced familyEngine.roster (normalize "я папа".toList) =
      some papa.profile := by
    decide +kernel
  have hcall : s₁.calls[0]? = some { Call.new ['u'] "я папа".toList with pc := .dispatch } := by
    rw [hcalls]
    rfl
  have hmid : (machine familyEngine).exec s₂ [] = some (s₂, []) := rfl
  obtain ⟨ask, hask, -, hiff⟩ :=
    next_prompt_iff family_engine h₁ hcall rfl hprofile h₂ hmid trivial hquestion rfl h₄
  exact ⟨s₂, s₄, os₄, ask, h₄, hask, hiff.mpr (by decide +kernel)⟩

/-- Сашенька is introduced, and asks; the prompt is the one of the other Саша, an adult. -/
theorem sashenka_is_prompted_as_sasha :
    AppConfig.fromToml (fun _ => Except.ok family) [] =
        (.ok family : Except (ConfigError Unit) AppConfig) ∧
      family.buildEngine (fun _ => Except.ok ()) (fun _ => []) =
        (.ok familyEngine : Except (ConfigError Unit) Engine) ∧
      introduced familyEngine.roster (normalize "это Сашенька".toList) = some sashenka.profile ∧
      ∃ s os prompt, (machine familyEngine).exec (initial familyEngine)
          (.arrive ['u'] "это Сашенька".toList :: tasks 0 [.next, .next] ++
            .arrive ['u'] ['q'] :: tasks 1 [.next, .next] ++ prompting 1) = some (s, os) ∧
        .asked 1 "Саша".toList
          [⟨.system, Content.fresh prompt⟩, ⟨.user, Content.fresh ['q']⟩] ∈ os ∧
        prompt = buildSystemPrompt ⟨someDay, sasha.profile, familyEngine.roster, none, none⟩ ∧
        sameMember sasha.profile sashenka.profile = false := by
  have hruns : ((machine familyEngine).exec (initial familyEngine)
      (.arrive ['u'] "это Сашенька".toList :: tasks 0 [.next, .next] ++
        .arrive ['u'] ['q'] :: tasks 1 [.next, .next] ++ prompting 1)).map (fun r => decide
      (.asked 1 "Саша".toList [⟨.system, Content.fresh (buildSystemPrompt
        ⟨someDay, sasha.profile, familyEngine.roster, none, none⟩)⟩,
        ⟨.user, Content.fresh ['q']⟩] ∈ r.2)) = some true := by
    decide +kernel
  obtain ⟨⟨s, os⟩, hrun, hasked⟩ := Option.map_eq_some_iff.mp hruns
  exact ⟨family_accepted, family_engine, by decide +kernel, s, os, _, hrun,
    of_decide_eq_true hasked, rfl, by decide⟩

end AliceBridge.Server.Introduction
