import AliceBridge.Core.Engine

/-! # Configuration

The schema of `config.rs` as far as validation and the assembly of the engines
read it. Parsing TOML into the schema is a parameter: a configuration is
accepted when the parser yields it and `validate` has no objection. -/
namespace AliceBridge.Server.Config
open AliceBridge.Lib.Utf8 AliceBridge.Core.Reply AliceBridge.Core.HouseEngine
open AliceBridge.Core.Family (FamilyRoster Mode NaiveDate Profile)
open AliceBridge.Core.Engine (Engine)
open AliceBridge.Lib.Words (isAbsolute isAsciiAlphanumeric)

inductive ConfigError (ε : Type) where
  | parse (error : ε)
  | unknownProvider (model provider : Text)
  | invalid (message : Text)
deriving DecidableEq, Repr

inductive RuntimeMode where
  | legacy
  | householdCodex
deriving DecidableEq, Repr

structure RuntimeConfig where
  mode : RuntimeMode
  codexSocket : Option Text
  codexCwdRoot : Option Text
  permissionProfilePrefix : Text
  chunkLimit : Nat
  homeyEnabled : Bool
deriving DecidableEq, Repr

structure DefaultsConfig where
  profile : Text
  contextWindow : Nat
  replyBudgetMs : Nat
deriving DecidableEq, Repr

structure ModelPresetConfig where
  provider : Text
  model : Text
deriving DecidableEq, Repr

structure ModelsConfig where
  fast : ModelPresetConfig
  smart : ModelPresetConfig
deriving DecidableEq, Repr

structure ProfileConfig where
  name : Text
  aliases : List Text
  birthday : Option NaiveDate
  role : Text
  persona : Text
deriving DecidableEq

structure ModeConfig where
  name : Text
  triggers : List Text
  prompt : Text
deriving DecidableEq, Repr

/-- The names of `providers` stand for the table. -/
structure AppConfig where
  runtime : RuntimeConfig
  defaults : DefaultsConfig
  providers : List Text
  models : ModelsConfig
  profiles : List ProfileConfig
  modes : List ModeConfig
deriving DecidableEq

section Validate

variable {ε : Type}

def require (cond : Bool) (error : ConfigError ε) : Except (ConfigError ε) Unit :=
  if cond then .ok () else .error error

theorem require_ok {cond : Bool} {error : ConfigError ε} (h : require cond error = .ok ()) :
    cond = true := by
  unfold require at h
  split at h
  · assumption
  · cases h

/-- The peeling step of the proofs about `validate`. -/
theorem bind_ok {α β : Type} {x : Except (ConfigError ε) α} {f : α → Except (ConfigError ε) β}
    {b : β} (h : (x >>= f) = .ok b) : ∃ a, x = .ok a ∧ f a = .ok b := by
  cases x with
  | error e => cases h
  | ok a => exact ⟨a, rfl, h⟩

def RuntimeConfig.validateHousehold (runtime : RuntimeConfig) : Except (ConfigError ε) Unit := do
  let socket ← runtime.codexSocket.elim
    (.error (.invalid "household runtime requires codex_socket".toList)) .ok
  let cwdRoot ← runtime.codexCwdRoot.elim
    (.error (.invalid "household runtime requires codex_cwd_root".toList)) .ok
  require (isAbsolute socket && isAbsolute cwdRoot)
    (.invalid "household Codex paths must be absolute".toList)
  require (!(decide (runtime.chunkLimit ≤ continuationSuffix.length) ||
      decide (runtime.chunkLimit > 900)))
    (.invalid "household chunk_limit must leave room for continuation and be at most 900".toList)
  require (!(runtime.permissionProfilePrefix.isEmpty ||
      !runtime.permissionProfilePrefix.all fun c => isAsciiAlphanumeric c || c == '-'))
    (.invalid "household permission_profile_prefix is invalid".toList)

def RuntimeConfig.validate (runtime : RuntimeConfig) : Except (ConfigError ε) Unit :=
  match runtime.mode with
  | .householdCodex => runtime.validateHousehold
  | .legacy => .ok ()

def AppConfig.knowsProvider (config : AppConfig) (preset : ModelPresetConfig) :
    Except (ConfigError ε) Unit :=
  require (config.providers.contains preset.provider)
    (.unknownProvider preset.model preset.provider)

def ProfileConfig.validateRole (profile : ProfileConfig) : Except (ConfigError ε) Unit :=
  require (profile.role == "adult".toList || profile.role == "child".toList)
    (.invalid ("profile ".toList ++ profile.name ++ ": role must be adult or child".toList))

def AppConfig.validate (config : AppConfig) : Except (ConfigError ε) Unit := do
  config.runtime.validate
  config.knowsProvider config.models.fast
  config.knowsProvider config.models.smart
  require (config.profiles.any fun p => p.name == config.defaults.profile)
    (.invalid ("default profile ".toList ++ config.defaults.profile ++ " is not defined".toList))
  config.profiles.forM ProfileConfig.validateRole

/-- `from_toml` over the parser of the `toml` crate. -/
def AppConfig.fromToml (parse : Text → Except ε AppConfig) (text : Text) :
    Except (ConfigError ε) AppConfig :=
  match parse text with
  | .error e => .error (.parse e)
  | .ok config => do
    config.validate
    return config

/-- `build_household_engine`; no engine in the result is the assertion of
`ReplyShaper::new` failing. -/
def AppConfig.buildHouseholdEngine (config : AppConfig) :
    Except (ConfigError ε) (Option HouseholdEngine) := do
  require (config.runtime.mode == .householdCodex)
    (.invalid "household engine requested while runtime mode is legacy".toList)
  return (ReplyShaper.new config.runtime.chunkLimit).map fun shaper =>
    { shaper := shaper, homeyEnabled := config.runtime.homeyEnabled }

def ProfileConfig.profile (p : ProfileConfig) : Profile :=
  { name := p.name
    aliases := p.aliases.map toLowercase
    birthday := p.birthday
    role := if p.role = "child".toList then .child else .adult
    persona := p.persona }

def ModeConfig.mode (m : ModeConfig) : Mode :=
  { name := m.name
    triggers := m.triggers
    prompt := m.prompt }

/-- The roster of `build_engine`. -/
def AppConfig.roster (config : AppConfig) : Except (ConfigError ε) FamilyRoster :=
  (FamilyRoster.new (config.profiles.map ProfileConfig.profile) config.defaults.profile).elim
    (.error (.invalid ("unknown profile: ".toList ++ config.defaults.profile))) .ok

/-- `build_engine`, where `connect` makes the client of a provider or has an objection. -/
def AppConfig.buildEngine (connect : Text → Except (ConfigError ε) Unit)
    (formatUsd : Int → Text) (config : AppConfig) : Except (ConfigError ε) Engine := do
  config.providers.forM connect
  config.knowsProvider config.models.fast
  config.knowsProvider config.models.smart
  let roster ← config.roster
  return {
    roster := roster
    modes := config.modes.map ModeConfig.mode
    config := ⟨config.defaults.contextWindow, config.defaults.replyBudgetMs⟩
    formatUsd := formatUsd }

/-- The engine's family is the configured one. -/
theorem buildEngine_profiles {connect : Text → Except (ConfigError ε) Unit}
    {formatUsd : Int → Text} {config : AppConfig} {engine : Engine}
    (h : config.buildEngine connect formatUsd = .ok engine) :
    engine.roster.profiles = config.profiles.map ProfileConfig.profile := by
  obtain ⟨_, _, h⟩ := bind_ok h
  obtain ⟨_, _, h⟩ := bind_ok h
  obtain ⟨_, _, h⟩ := bind_ok h
  obtain ⟨roster, hroster, h⟩ := bind_ok h
  obtain rfl := Except.ok.inj h
  unfold AppConfig.roster FamilyRoster.new at hroster
  split at hroster
  · obtain rfl := Except.ok.inj hroster
    rfl
  · cases hroster

theorem fromToml_validates {parse : Text → Except ε AppConfig} {text : Text} {config : AppConfig}
    (h : AppConfig.fromToml parse text = .ok config) :
    (config.validate : Except (ConfigError ε) Unit) = .ok () := by
  unfold AppConfig.fromToml at h
  split at h
  · cases h
  · next parsed _ =>
    obtain ⟨_, hv, he⟩ := bind_ok h
    obtain rfl : parsed = config := by simpa [pure, Except.pure] using he
    exact hv

/-- An accepted household configuration leaves room for the question and stays
under the webhook limit. -/
theorem fromToml_chunkLimit {parse : Text → Except ε AppConfig} {text : Text} {config : AppConfig}
    (h : AppConfig.fromToml parse text = .ok config)
    (hmode : config.runtime.mode = .householdCodex) :
    continuationSuffix.length < config.runtime.chunkLimit ∧ config.runtime.chunkLimit ≤ 900 := by
  obtain ⟨_, hhouse, _⟩ := bind_ok (fromToml_validates h)
  rw [RuntimeConfig.validate, hmode] at hhouse
  obtain ⟨_, _, h₁⟩ := bind_ok hhouse
  obtain ⟨_, _, h₂⟩ := bind_ok h₁
  obtain ⟨_, _, h₃⟩ := bind_ok h₂
  obtain ⟨_, hlimit, _⟩ := bind_ok h₃
  have := require_ok hlimit
  simp only [Bool.not_eq_eq_eq_not, Bool.not_true, Bool.or_eq_false_iff,
    decide_eq_false_iff_not] at this
  omega

theorem buildHouseholdEngine_some {config : AppConfig}
    (hmode : config.runtime.mode = .householdCodex)
    (room : continuationSuffix.length < config.runtime.chunkLimit) :
    (config.buildHouseholdEngine : Except (ConfigError ε) _) =
      .ok (some ⟨⟨config.runtime.chunkLimit, room⟩, config.runtime.homeyEnabled⟩) := by
  simp [AppConfig.buildHouseholdEngine, require, hmode, ReplyShaper.new, room, bind, Except.bind,
    pure, Except.pure]

end Validate
end AliceBridge.Server.Config
