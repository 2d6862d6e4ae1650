import Mathlib.Algebra.Order.Ring.Rat
import Mathlib.Logic.Function.Basic
import CodexServer.Library.Transition
import CodexServer.TurnRow

/-!
# Model catalog and preferences

A user saves a model and a reasoning effort, checked against the catalog of one sidecar; a turn
resolves them against the catalog of its own. A catalog is what the sidecar answered last, kept in
Redis for ten minutes.
-/

namespace CodexServer.CodexPrefs

/-! ### `model/list` -/

structure ReasoningEffortOption where
  value : String
  description : String
deriving DecidableEq

structure CodexModel where
  id : String
  displayName : String
  description : String
  isDefault : Bool
  defaultReasoningEffort : String
  supportedReasoningEfforts : List ReasoningEffortOption
deriving DecidableEq

structure ReasoningEffortOptionIn where
  reasoningEffort : String
  description : String

structure CodexModelIn where
  id : String
  displayName : String
  description : String
  hidden : Bool
  isDefault : Bool
  defaultReasoningEffort : String
  supportedReasoningEfforts : List ReasoningEffortOptionIn

def CodexModelIn.toDomain (model : CodexModelIn) : CodexModel where
  id := model.id
  displayName := model.displayName
  description := model.description
  isDefault := model.isDefault
  defaultReasoningEffort := model.defaultReasoningEffort
  supportedReasoningEfforts := model.supportedReasoningEfforts.map fun option =>
    ⟨option.reasoningEffort, option.description⟩

section

variable {Raw : Type} (validate : Raw → Option CodexModelIn)

/-- `_parse`; an item that is not valid, or hidden, is left out. -/
def parse (raw : List Raw) : List CodexModel :=
  ((raw.filterMap validate).filter fun model => !model.hidden).map CodexModelIn.toDomain

end

/-! ### Preferences -/

/-- Nothing is the default of the sidecar. -/
structure CodexPreferences where
  model : Option String
  reasoningEffort : Option String
deriving DecidableEq

structure TurnOptions where
  model : Option String
  reasoningEffort : Option String
deriving DecidableEq

inductive PrefsError
  | unknownModel (modelId : String)
  | unsupportedReasoningEffort (modelId effort : String)
deriving DecidableEq

/-- `_supports` -/
def supports (model : CodexModel) (effort : String) : Bool :=
  model.supportedReasoningEfforts.isEmpty ||
    (model.supportedReasoningEfforts.map ReasoningEffortOption.value).contains effort

/-- `_effective_model` in the catalog that is listed. -/
def effectiveModel (models : List CodexModel) : Option String → Option CodexModel
  | some modelId => models.find? fun model => model.id = modelId
  | none => models.find? CodexModel.isDefault

/-- `_validate` -/
def validatePrefs (models : List CodexModel) (prefs : CodexPreferences) : Except PrefsError Unit :=
  match effectiveModel models prefs.model, prefs.model, prefs.reasoningEffort with
  | none, some modelId, _ => .error (.unknownModel modelId)
  | some model, _, some effort =>
      if supports model effort then .ok ()
      else .error (.unsupportedReasoningEffort model.id effort)
  | _, _, _ => .ok ()

/-- `prefs.model or "default"` -/
def modelOrDefault : Option String → String
  | none => "default"
  | some modelId => if modelId = "" then "default" else modelId

/-- `fallback_reasoning_effort` for a value of `CODEX_REASONING_EFFORT`. -/
def fallbackReasoningEffort (setting : String) : Option String :=
  if setting = "" then none else some setting

/-- `resolve_turn_options` with the catalog that is listed. -/
def resolve (setting : String) (models : List CodexModel) (prefs : CodexPreferences) :
    Except PrefsError TurnOptions :=
  match effectiveModel models prefs.model with
  | none => .error (.unknownModel (modelOrDefault prefs.model))
  | some model =>
      match prefs.reasoningEffort, fallbackReasoningEffort setting with
      | some effort, _ => .ok ⟨some model.id, some effort⟩
      | none, some fallback =>
          .ok ⟨some model.id, if supports model fallback then some fallback else none⟩
      | none, none => .ok ⟨some model.id, none⟩

/-! ### The service -/

/-- What is cached of a sidecar. `report` is the answer it was read from. -/
structure CacheEntry where
  models : List CodexModel
  deadline : ℚ
  report : Nat

/-- An answer to `model/list`, and since when the sidecar gives it. -/
structure Report (Raw : Type) where
  raw : List Raw
  since : ℚ

structure World (Raw : Type) where
  clock : ℚ
  /-- What each sidecar answers, and has answered before. -/
  reports : SidecarName → List (Report Raw)
  cache : SidecarName → Option CacheEntry
  rows : Nat → Option CodexPreferences

/-- Whether Redis answers to the read and to the write of the cache. -/
structure Redis where
  reads : Bool
  writes : Bool

def cacheTtl : ℚ := 600

section

variable {Raw : Type} (validate : Raw → Option CodexModelIn) (setting : String)

namespace World

/-- Nothing is cached, and no preference saved. -/
def start (answers : SidecarName → List Raw) : World Raw where
  clock := 0
  reports sidecar := [⟨answers sidecar, 0⟩]
  cache _ := none
  rows _ := none

variable (world : World Raw) (redis : Redis) (sidecar : SidecarName)

/-- What the sidecar answers now. -/
def answer : List Raw := (world.reports sidecar).getLast?.elim [] Report.raw

/-- `_read_cache` -/
def readCache : Option (List CodexModel) :=
  if redis.reads then
    ((world.cache sidecar).filter fun entry => world.clock < entry.deadline).map CacheEntry.models
  else none

/-- `CodexModelCatalog.list` -/
def list : List CodexModel :=
  (world.readCache redis sidecar).getD (parse validate (world.answer sidecar))

/-- The cache after `list`. -/
def listed : World Raw :=
  if (world.readCache redis sidecar).isNone && redis.writes then
    { world with cache := Function.update world.cache sidecar (some
        ⟨parse validate (world.answer sidecar), world.clock + cacheTtl,
          (world.reports sidecar).length - 1⟩) }
  else world

/-- `get` -/
def prefs (user : Nat) : CodexPreferences := (world.rows user).getD ⟨none, none⟩

/-- `update` -/
def update (user : Nat) (prefs : CodexPreferences) : Except PrefsError CodexPreferences × World Raw :=
  match validatePrefs (world.list validate redis sidecar) prefs with
  | .error error => (.error error, world.listed validate redis sidecar)
  | .ok _ => (.ok prefs, { world.listed validate redis sidecar with
      rows := Function.update world.rows user (some prefs) })

/-- `resolve_turn_options` -/
def resolveTurnOptions (user : Nat) : Except PrefsError TurnOptions :=
  resolve setting (world.list validate redis sidecar) (world.prefs user)

end World

inductive Action (Raw : Type)
  | elapse (duration : ℚ)
  /-- The sidecar has another catalog. -/
  | report (sidecar : SidecarName) (raw : List Raw)
  | list (redis : Redis) (sidecar : SidecarName)
  | update (redis : Redis) (sidecar : SidecarName) (user : Nat) (prefs : CodexPreferences)
  | resolve (redis : Redis) (sidecar : SidecarName) (user : Nat)

def step (world : World Raw) : Action Raw → Option (World Raw)
  | .elapse duration =>
      if 0 ≤ duration then some { world with clock := world.clock + duration } else none
  | .report sidecar raw => some { world with
      reports := Function.update world.reports sidecar
        (world.reports sidecar ++ [⟨raw, world.clock⟩]) }
  | .list redis sidecar | .resolve redis sidecar _ => some (world.listed validate redis sidecar)
  | .update redis sidecar user prefs => some (world.update validate redis sidecar user prefs).2

end
end CodexServer.CodexPrefs
