import Swarmind.Library.Dict
import Swarmind.Library.Python
import Mathlib.Data.List.Sort

/-!
Owns the failover of the multi provider: the registry, the choice of the primary,
the chain of attempts and what is recorded of each.

The class is put together from two mixins, and part of what its methods call are
functions of other modules. A call of a method goes through `getattr`, an import
inside a method through `executorImport`; both find only the names that are there.
The API calls answer by `calls`. Clock readings and money are left out.
-/

namespace Swarmind.ModelRouter

open Swarmind.Library

structure ProviderConfig where
  name : String
  apiKeyEnv : String
  models : List String
  tier : String
deriving DecidableEq

inductive ProviderStatus where
  | unknown
  | available
  | degraded
  | unavailable
deriving DecidableEq

structure ProviderHealth where
  status : ProviderStatus
  available : Bool
  consecutiveFailures : Nat
deriving DecidableEq

structure ExecutionResult where
  success : Bool
  output : String
  source : String
  model : String
  error : Option String
  tokensUsed : Int
  provider : String
deriving DecidableEq

def tierOrder : List String := ["premium", "standard", "budget"]

/-- `MultiAPIProvider`. Registered providers have one of the three tiers. -/
structure MultiAPIProvider where
  providers : Dict String ProviderConfig
  rrIndices : Dict String Nat
  health : Dict String ProviderHealth
  requestCounts : Dict String Nat
  errorCounts : Dict String Nat
  tiers : ∀ name config, providers.get? name = some config → config.tier ∈ tierOrder

/-- The function that calls the API of a provider. -/
inductive Executor where
  | openaiCompat
  | anthropic
  | google
deriving DecidableEq

/-- What the API calls answer: executor, configuration, key, model, prompt and
token limit. -/
abbrev Calls :=
  Executor → ProviderConfig → String → String → String → Int → Except PyException ExecutionResult

/-- One call of the API of a provider. -/
structure Attempt where
  provider : String
  outcome : Except PyException ExecutionResult

/-- What an execution leaves behind. -/
structure Execution where
  returned : Except PyException ExecutionResult
  self : MultiAPIProvider
  attempts : List Attempt

def maxTokensByAgent : List (String × Int) :=
  [("coordinator", 512), ("builder", 1024), ("scientist", 1024), ("guardian", 512),
    ("evolve", 768), ("project-manager", 512), ("context-engineer", 1024),
    ("software-engineer", 1024), ("data-architect", 768), ("devops-sre", 768),
    ("security-engineer", 512), ("frontend-engineer", 1024), ("mobile-engineer", 1024),
    ("ai-engineer", 1024), ("quality-gate", 512), ("documentation-specialist", 1536),
    ("requirements-analyst", 768), ("enterprise-architect", 1024), ("quant-developer", 1024),
    ("quant-scientist", 1024), ("risk-manager", 512), ("trading-operations", 512),
    ("tool-mcp-engineer", 768), ("evolve-researcher", 1024), ("evolve-engineer", 768),
    ("evolve-analyzer", 768), ("*", 512)]

/-! ### Names -/

/-- The methods of `MultiAPIProvider` and of its two mixins. -/
def methodNames : List String :=
  ["__init__", "__del__", "register_provider", "unregister_provider", "get_providers", "execute",
    "execute_with_fallback", "_execute_with_chain", "_execute_on_provider",
    "_execute_openai_compat", "_execute_anthropic", "_execute_google", "_start_health_checks",
    "stop_health_checks", "_track_cost", "_calculate_cost", "_find_provider_for_model", "get_stats"]

def executorNames : List String :=
  ["logging", "defaultdict", "ExecutionResult", "ProviderConfig", "ProviderTier",
    "stop_health_checks", "logger", "execute_openai_compat", "execute_anthropic",
    "execute_google", "_find_provider_for_model", "_get_other_providers_for_model", "__del__"]

/-- `self.name`, where `value` is what a method of that name is. -/
def getattr {α : Type} (name : String) (value : α) : Except PyException α :=
  if name ∈ methodNames then .ok value
  else .error ⟨"AttributeError", s!"'MultiAPIProvider' object has no attribute '{name}'"⟩

def executorImport {α : Type} (name : String) (value : α) : Except PyException α :=
  if name ∈ executorNames then .ok value
  else .error ⟨"ImportError",
    s!"cannot import name '{name}' from 'harness.model_router.provider_executors'"⟩

namespace MultiAPIProvider

def create : MultiAPIProvider where
  providers := .empty
  rrIndices := .empty
  health := .empty
  requestCounts := .empty
  errorCounts := .empty
  tiers := by
    intro name config found
    cases found

/-! ### The registry -/

def standardTier (tier : String) : String := if tier ∈ tierOrder then tier else "standard"

private theorem standardTier_mem (tier : String) : standardTier tier ∈ tierOrder := by
  unfold standardTier
  split
  next among => exact among
  · exact .tail _ (.head _)

def registerProvider (self : MultiAPIProvider) (config : ProviderConfig) :
    Except PyException MultiAPIProvider :=
  if config.name = "" then
    .error (.valueError ("Provider name cannot be empty. " ++
      "WHY: Se necesita un nombre único para identificar el proveedor. " ++
      "WHERE: register_provider"))
  else if config.models = [] then
    .error (.valueError (s!"Provider '{config.name}' must have at least one model. " ++
      "WHY: Sin modelos no hay ejecución posible. " ++ "WHERE: register_provider"))
  else if (self.providers.get? config.name).isSome then
    .error (.valueError (s!"Provider '{config.name}' already registered. " ++
      "WHY: No se permite duplicados. " ++ "WHERE: register_provider"))
  else
    .ok { self with
      providers := self.providers.set config.name
        { config with tier := standardTier config.tier }
      health := self.health.set config.name ⟨.unknown, true, 0⟩
      tiers := by
        intro name other found
        rw [Dict.get?_set] at found
        split at found
        · rw [← Option.some.inj found]
          exact standardTier_mem config.tier
        · exact self.tiers name other found }

/-! ### The choice of providers -/

/-- Whether the health does not rule the provider out. -/
def available (self : MultiAPIProvider) (name : String) : Bool :=
  match self.health.get? name with
  | none => true
  | some health => health.available

def offering (self : MultiAPIProvider) (model : String) : List (String × ProviderConfig) :=
  self.providers.entries.filter fun entry => self.available entry.1 ∧ model ∈ entry.2.models

def candidates (self : MultiAPIProvider) (model tier : String) : List String :=
  ((self.offering model).filter fun entry => entry.2.tier = tier).map Prod.fst

def pickIn (self : MultiAPIProvider) (model : String) :
    List String → Option String × MultiAPIProvider
  | [] => (none, self)
  | tier :: rest =>
    let candidates := self.candidates model tier
    if candidates = [] then self.pickIn model rest
    else
      let index := (self.rrIndices.get? tier).getD 0 % candidates.length
      (candidates[index]?, { self with rrIndices := self.rrIndices.set tier (index + 1) })

def findProviderForModel (self : MultiAPIProvider) (model : String) :
    Option String × MultiAPIProvider :=
  self.pickIn model tierOrder

def tierRank (tier : String) : Nat :=
  if tier ∈ tierOrder then tierOrder.idxOf tier else 99

def getOtherProvidersForModel (self : MultiAPIProvider) (model exclude : String) : List String :=
  (((self.offering model).filter fun entry => entry.1 ≠ exclude).mergeSort fun left right =>
    decide (tierRank left.2.tier ≤ tierRank right.2.tier)).map Prod.fst

/-! ### What is recorded -/

def recordSuccess (self : MultiAPIProvider) (provider : String) : MultiAPIProvider :=
  { self with
    requestCounts := self.requestCounts.set provider ((self.requestCounts.get? provider).getD 0 + 1)
    health :=
      match self.health.get? provider with
      | none => self.health
      | some _ => self.health.set provider ⟨.available, true, 0⟩ }

/-- The health after one more failure. -/
def worsen (health : ProviderHealth) : ProviderHealth :=
  let failures := health.consecutiveFailures + 1
  if 3 ≤ failures then ⟨.unavailable, false, failures⟩
  else ⟨.degraded, health.available, failures⟩

def recordError (self : MultiAPIProvider) (provider : String) : MultiAPIProvider :=
  { self with
    errorCounts := self.errorCounts.set provider ((self.errorCounts.get? provider).getD 0 + 1)
    requestCounts := self.requestCounts.set provider ((self.requestCounts.get? provider).getD 0 + 1)
    health :=
      match self.health.get? provider with
      | none => self.health
      | some health => self.health.set provider (worsen health) }

def trackCost (self : MultiAPIProvider) (provider : String) : MultiAPIProvider :=
  { self with
    requestCounts := self.requestCounts.set provider
      ((self.requestCounts.get? provider).getD 0 + 1) }

/-! ### The execution -/

def executorOf (provider : String) : Executor :=
  if provider.toLower = "anthropic" then .anthropic
  else if provider.toLower = "google" then .google
  else .openaiCompat

def failure (model error provider : String) : ExecutionResult :=
  ⟨false, "", "cloud", model, some error, 0, provider⟩

section Execute

variable (environ : Dict String String) (calls : Calls) (model prompt : String) (maxTokens : Int)

def executeOnProvider (self : MultiAPIProvider) (provider : String) (config : ProviderConfig) :
    Execution :=
  let apiKey := (environ.get? config.apiKeyEnv).getD ""
  if apiKey = "" then
    ⟨.ok (failure model (s!"API key '{config.apiKeyEnv}' no configurada para " ++
      s!"provider '{provider}'. " ++ "WHY: La variable de entorno debe estar definida. " ++
      "WHERE: _execute_on_provider") provider), self, []⟩
  else
    let outcome := calls (executorOf provider) config apiKey model prompt maxTokens
    match outcome with
    | .error raised =>
      ⟨.ok (failure model s!"Unhandled error in {provider}: {raised.message}" provider), self,
        [⟨provider, outcome⟩]⟩
    | .ok result =>
      if result.success = true ∧ 0 < result.tokensUsed then
        match executorImport "_track_cost" (self.trackCost provider) with
        | .error raised => ⟨.error raised, self, [⟨provider, outcome⟩]⟩
        | .ok tracked => ⟨.ok { result with provider }, tracked, [⟨provider, outcome⟩]⟩
      else ⟨.ok { result with provider }, self, [⟨provider, outcome⟩]⟩

/-- The loop of `_execute_with_chain` over the providers that are left. -/
def tryEach (self : MultiAPIProvider) : List String → Option String → Execution
  | [], lastError =>
    ⟨.ok (failure model (s!"Todos los proveedores fallaron para modelo '{model}'. " ++
      "Último error: " ++ lastError.getD "None" ++ ". " ++
      "WHY: La cadena de failover se agotó. " ++ "WHERE: _execute_with_chain") ""), self, []⟩
  | provider :: rest, lastError =>
    match self.providers.get? provider with
    | none => self.tryEach rest lastError
    | some config =>
      if self.available provider = false then self.tryEach rest lastError
      else
        let attempt := self.executeOnProvider environ calls model prompt maxTokens provider config
        match attempt.returned with
        | .error raised => { attempt with returned := .error raised }
        | .ok result =>
          if result.success = true then
            match getattr "_record_success" (attempt.self.recordSuccess provider) with
            | .error raised => { attempt with returned := .error raised }
            | .ok recorded =>
              { attempt with returned := .ok { result with provider }, self := recorded }
          else
            match getattr "_record_error" (attempt.self.recordError provider) with
            | .error raised => { attempt with returned := .error raised }
            | .ok recorded =>
              let later := recorded.tryEach rest result.error
              { later with attempts := attempt.attempts ++ later.attempts }

def executeWithChain (self : MultiAPIProvider) (primary : String) (fallback : Bool) : Execution :=
  if fallback = true then
    match getattr "_get_other_providers_for_model"
        (self.getOtherProvidersForModel model primary) with
    | .error raised => ⟨.error raised, self, []⟩
    | .ok rest => self.tryEach environ calls model prompt maxTokens (primary :: rest) none
  else self.tryEach environ calls model prompt maxTokens [primary] none

/-- `max_tokens` as `execute` passes it on. -/
def tokenLimit (agentRole : String) (maxTokens : Option Int) : Int :=
  maxTokens.getD (((maxTokensByAgent.lookup agentRole).orElse fun _ =>
    maxTokensByAgent.lookup "*").getD 0)

def execute (self : MultiAPIProvider) (fallback : Bool) (agentRole : String)
    (maxTokens : Option Int) : Execution :=
  match self.findProviderForModel model with
  | (none, self) =>
    ⟨.ok (failure model (s!"Model '{model}' no encontrado en ningún proveedor registrado. " ++
      "WHY: El modelo debe estar listado en algún ProviderConfig.models. " ++
      "WHERE: execute") ""), self, []⟩
  | (some primary, self) =>
    self.executeWithChain environ calls model prompt (tokenLimit agentRole maxTokens) primary
      fallback

end Execute

/-! ### What failover promises -/

/-- The provider is registered, offers the model, is available and has a key. -/
def Eligible (self : MultiAPIProvider) (environ : Dict String String) (model name : String) :
    Prop :=
  ∃ config, self.providers.get? name = some config ∧ model ∈ config.models ∧
    self.available name = true ∧ (environ.get? config.apiKeyEnv).getD "" ≠ ""

def Offered (self : MultiAPIProvider) (model : String) : Prop :=
  ∃ name config, self.providers.get? name = some config ∧ self.available name = true ∧
    model ∈ config.models

end MultiAPIProvider

/-- The API call answered with a success. -/
def Attempt.Succeeds (attempt : Attempt) : Prop :=
  ∃ answer, attempt.outcome = .ok answer ∧ answer.success = true

/-- What is promised of an execution with failover. -/
structure Failover (start : MultiAPIProvider) (environ : Dict String String) (model : String)
    (run : Execution) : Prop where
  returns : ∃ result, run.returned = .ok result
  eligible : ∀ attempt ∈ run.attempts, start.Eligible environ model attempt.provider
  once : (run.attempts.map Attempt.provider).Nodup
  primary : ∀ name, (start.findProviderForModel model).1 = some name →
    start.Eligible environ model name → (run.attempts.map Attempt.provider).head? = some name
  ordered : ∀ name, (start.findProviderForModel model).1 = some name →
    ((run.attempts.map Attempt.provider).filter (· ≠ name)).Pairwise fun left right =>
      ∀ first second, start.providers.get? left = some first →
        start.providers.get? right = some second →
        MultiAPIProvider.tierRank first.tier ≤ MultiAPIProvider.tierRank second.tier
  succeeds : ∀ result, run.returned = .ok result →
    (result.success = true ↔ ∃ attempt ∈ run.attempts, attempt.Succeeds)
  first : ∀ result, run.returned = .ok result → ∀ before attempt after answer,
    run.attempts = before ++ attempt :: after → attempt.outcome = .ok answer →
    answer.success = true → after = [] ∧ result.output = answer.output
  exhausts : ∀ result, run.returned = .ok result → result.success = false →
    ∀ name, start.Eligible environ model name →
      ∃ attempt ∈ run.attempts, attempt.provider = name ∧ ¬ attempt.Succeeds
  counted : ∀ name, (run.self.requestCounts.get? name).getD 0 =
    (start.requestCounts.get? name).getD 0 + (run.attempts.map Attempt.provider).count name
  spared : ∀ name, name ∉ run.attempts.map Attempt.provider →
    run.self.health.get? name = start.health.get? name
  cleared : ∀ attempt ∈ run.attempts, attempt.Succeeds →
    ∀ health, run.self.health.get? attempt.provider = some health →
      health.consecutiveFailures = 0
  worsened : ∀ attempt ∈ run.attempts, ¬ attempt.Succeeds →
    ∀ before after, start.health.get? attempt.provider = some before →
      run.self.health.get? attempt.provider = some after →
      after.consecutiveFailures = before.consecutiveFailures + 1

namespace MultiAPIProvider

section Choice

variable (self : MultiAPIProvider) (model : String)

private theorem pickIn_eq_none_iff (tiers : List String) :
    (self.pickIn model tiers).1 = none ↔ ∀ tier ∈ tiers, self.candidates model tier = [] := by
  induction tiers with
  | nil => simp [pickIn]
  | cons tier rest ih =>
    rw [pickIn, List.forall_mem_cons, ← ih]
    simp only
    split
    next empty => exact (and_iff_right empty).symm
    next offered =>
      refine iff_of_false ?_ fun both => offered both.1
      have inRange : (self.rrIndices.get? tier).getD 0 % (self.candidates model tier).length <
          (self.candidates model tier).length :=
        Nat.mod_lt _ (List.length_pos_iff.mpr offered)
      rw [List.getElem?_eq_getElem inRange]
      exact Option.some_ne_none _

private theorem pickIn_self (tiers : List String) (absent : (self.pickIn model tiers).1 = none) :
    (self.pickIn model tiers).2 = self := by
  have none := (pickIn_eq_none_iff self model tiers).mp absent
  clear absent
  induction tiers with
  | nil => rfl
  | cons tier rest ih =>
    rw [List.forall_mem_cons] at none
    rw [pickIn]
    simp only
    rw [if_pos none.1]
    exact ih none.2

private theorem findProviderForModel_eq_none_iff :
    (self.findProviderForModel model).1 = none ↔ ¬ self.Offered model := by
  rw [findProviderForModel, pickIn_eq_none_iff]
  constructor
  · rintro empty ⟨name, config, found, isAvailable, offers⟩
    have among : name ∈ self.candidates model config.tier := by
      refine List.mem_map.mpr ⟨(name, config), ?_, rfl⟩
      have inEntries := (Dict.get?_eq_some_iff self.providers name config).mp found
      simp [offering, inEntries, isAvailable, offers]
    rw [empty config.tier (self.tiers name config found)] at among
    cases among
  · intro none tier _
    rw [candidates, List.map_eq_nil_iff, List.filter_eq_nil_iff]
    intro entry among
    obtain ⟨inEntries, offers⟩ := List.mem_filter.mp among
    rw [decide_eq_true_iff] at offers
    have found := (Dict.get?_eq_some_iff self.providers entry.1 entry.2).mpr inEntries
    exact absurd ⟨entry.1, entry.2, found, offers.1, offers.2⟩ none

end Choice

section Executions

variable (self : MultiAPIProvider) (environ : Dict String String) (calls : Calls)
variable (model prompt agentRole : String) (maxTokens : Option Int)

private theorem execute_of_offered (offered : self.Offered model) :
    Raises (self.execute environ calls model prompt true agentRole maxTokens).returned := by
  have isSome : (self.findProviderForModel model).1 ≠ none := by
    rw [ne_eq, findProviderForModel_eq_none_iff, not_not]
    exact offered
  unfold execute
  split
  next chosen =>
    rw [chosen] at isSome
    exact absurd rfl isSome
  next primary chosen =>
    rw [executeWithChain, if_pos rfl, getattr, if_neg (by decide)]
    exact ⟨_, rfl⟩

private theorem execute_of_not_offered (none : ¬ self.Offered model) :
    ∃ error, self.execute environ calls model prompt true agentRole maxTokens =
      ⟨.ok (failure model error ""), self, []⟩ := by
  have absent := (findProviderForModel_eq_none_iff self model).mpr none
  have same := pickIn_self self model tierOrder absent
  unfold execute
  split
  next chosen =>
    rw [← same]
    rw [findProviderForModel] at chosen
    rw [chosen]
    exact ⟨_, rfl⟩
  next primary chosen =>
    rw [chosen] at absent
    cases absent

/-- An execution with failover does what it promises exactly where no available
provider offers the model. -/
theorem failover_iff_not_offered :
    Failover self environ model
        (self.execute environ calls model prompt true agentRole maxTokens) ↔
      ¬ self.Offered model := by
  constructor
  · intro failover offered
    obtain ⟨result, returned⟩ := failover.returns
    obtain ⟨raised, raises⟩ :=
      execute_of_offered self environ calls model prompt agentRole maxTokens offered
    rw [raises] at returned
    cases returned
  · intro none
    obtain ⟨error, executed⟩ :=
      execute_of_not_offered self environ calls model prompt agentRole maxTokens none
    have noneEligible : ∀ name, ¬ self.Eligible environ model name := by
      rintro name ⟨config, found, offers, isAvailable, -⟩
      exact none ⟨name, config, found, isAvailable, offers⟩
    have noPrimary := (findProviderForModel_eq_none_iff self model).mpr none
    rw [executed]
    constructor
    · exact ⟨_, rfl⟩
    · exact fun _ among => absurd among List.not_mem_nil
    · exact List.nodup_nil
    · intro name chosen
      rw [noPrimary] at chosen
      cases chosen
    · exact fun _ _ => .nil
    · intro result returned
      rw [← Except.ok.inj returned]
      simp [failure]
    · intro result _ before attempt after answer split
      simp at split
    · exact fun _ _ _ name eligible => absurd eligible (noneEligible name)
    · exact fun _ => rfl
    · exact fun _ _ => rfl
    · exact fun _ among => absurd among List.not_mem_nil
    · exact fun _ among => absurd among List.not_mem_nil

/-- A registered provider that offers the model, has its key and would succeed. -/
theorem not_failover_one_provider :
    ¬ ∀ self : MultiAPIProvider, create.registerProvider
        ⟨"openai", "OPENAI_API_KEY", ["gpt-4o"], "premium"⟩ = .ok self →
      Failover self (Dict.empty.set "OPENAI_API_KEY" "key") "gpt-4o"
        (self.execute (Dict.empty.set "OPENAI_API_KEY" "key")
          (fun _ _ _ _ _ _ => .ok ⟨true, "Hello", "cloud", "gpt-4o", none, 0, ""⟩)
          "gpt-4o" "Hello world" true "*" none) := by
  intro always
  have failover := always _ rfl
  obtain ⟨result, returned⟩ := failover.returns
  cases returned

end Executions

end MultiAPIProvider

end Swarmind.ModelRouter
