import Swarmind.Library.Floating
import Swarmind.Library.Python
import Mathlib.Data.Finset.Sort
import Mathlib.Data.String.Basic

/-!
Owns routing genomes: their validity, the distance between two of them, the niche that one
belongs to and the safety gate.
-/

namespace Swarmind.Orchestrator.RoutingMutation

open Swarmind.Library

/-- What the interpreter does with texts and numbers. -/
structure Environment (F : Type) where
  lower : String → String
  shown : F → String

def pyList (items : List String) : String :=
  "[" ++ ", ".intercalate (items.map pyRepr) ++ "]"

def pyTuple : List String → String
  | [] => "()"
  | [item] => "(" ++ pyRepr item ++ ",)"
  | items => "(" ++ ", ".intercalate (items.map pyRepr) ++ ")"

def topologies : List String := ["sequential", "fanout", "debate"]

def costBuckets : List String := ["low", "mid", "high"]

def depthBuckets : List String := ["shallow", "deep"]

def familyGeneral : String := "general"

def domainSkills : List (String × List String) := [
  ("web", ["frontend-uiux", "security-audit", "rust-lang"]),
  ("api", ["architecture", "rust-lang", "security-audit", "data-science"]),
  ("data", ["data-science", "alpha-research", "architecture"]),
  ("frontend", ["frontend-uiux", "security-audit"]),
  ("backend", ["rust-lang", "architecture", "data-science", "security-audit"]),
  ("mobile", ["frontend-uiux", "security-audit"]),
  ("security", ["security-audit", "architecture", "mcp-security"]),
  ("architecture", ["architecture", "rust-lang"]),
  ("trading", ["quant-trading", "alpha-research", "risk-execution", "alpha-mining"]),
  ("research", ["alpha-research", "science-doc", "data-science"]),
  ("legal", ["legal-doc", "legal-forensics", "legal-evidence-audit", "legal-procedure-co",
    "legal-drafting-co", "legal-jurisprudence-co", "science-doc"]),
  ("health", ["healthtech", "data-science", "security-audit"]),
  ("retail", ["pos-retail", "frontend-uiux", "security-audit"]),
  ("devops", ["rust-lang", "security-audit", "devops-infra", "swarm-release-ops"]),
  ("quality", ["agent-rigor", "atdd-spec", "security-audit"]),
  ("general", ["architecture", "security-audit", "data-science", "rust-lang"]),
  ("meta", ["evolve", "skill-engineering", "frontier-engineering"]),
  ("academic", ["math-doc", "science-doc"]),
  ("finance", ["hedgefund"]),
  ("business", ["business-strategy"]),
  ("management", ["project-management"]),
  ("communication", ["communication"]),
  ("design", ["creative-design", "diagram-design"]),
  ("psychology", ["psychology"]),
  ("education", ["education", "cert-master"]),
  ("ethics", ["ethics"]),
  ("economics", ["behavioral-economics"]),
  ("linguistics", ["linguistics"]),
  ("sociology", ["sociology"]),
  ("sustainability", ["sustainability"]),
  ("science", ["physical-sciences"]),
  ("risk-intelligence", ["risk-intelligence"]),
  ("ads", ["ads-optimizer"]),
  ("orchestration", ["process-over-tools"]),
  ("reverse-engineering", ["reverse-engineering"]),
  ("codebase-comprehension", ["codebase-comprehension"]),
  ("architecture-review", ["architecture-review"]),
  ("tooling", ["mcp-toolkit"])]

def skillDomain (skill : String) : Option String :=
  (domainSkills.find? fun domain => skill ∈ domain.2).map Prod.fst

section

variable {F : Type} [Floating F]

def temperatureMin : F := 0.0

def temperatureMax : F := 2.0

def temperatureSpan : F := temperatureMax - temperatureMin

variable (F) in
/-- A genome that its constructor has accepted. -/
structure RoutingGenome where
  skills : List String
  agents : List String
  temperature : F
  persona : String
  topology : String
  budgetTokens : Int
  topologyKnown : topology ∈ topologies
  temperatureInRange : temperatureMin ≤ temperature ∧ temperature ≤ temperatureMax
  budgetPositive : 0 < budgetTokens

namespace RoutingGenome

def make (env : Environment F) (skills agents : List String) (temperature : F)
    (persona topology : String) (budgetTokens : Int) : Except PyException (RoutingGenome F) :=
  if topologyKnown : topology ∈ topologies then
    if temperatureInRange : temperatureMin ≤ temperature ∧ temperature ≤ temperatureMax then
      if budgetPositive : 0 < budgetTokens then
        .ok {
          skills := skills
          agents := agents
          temperature := temperature
          persona := persona
          topology := topology
          budgetTokens := budgetTokens
          topologyKnown := topologyKnown
          temperatureInRange := temperatureInRange
          budgetPositive := budgetPositive }
      else
        .error (.valueError (s!"WHAT: budget_tokens no positivo {budgetTokens}. " ++
          "WHY: el presupuesto debe ser > 0 para acotar el coste. " ++
          "WHERE: RoutingGenome.__post_init__"))
    else
      .error (.valueError (s!"WHAT: temperature fuera de rango {env.shown temperature}. " ++
        s!"WHY: rango valido [{env.shown temperatureMin}, {env.shown temperatureMax}]. " ++
        "WHERE: RoutingGenome.__post_init__"))
  else
    .error (.valueError (s!"WHAT: topologia invalida {pyRepr topology}. " ++
      s!"WHY: solo se admiten {pyList topologies}. " ++ "WHERE: RoutingGenome.__post_init__"))

end RoutingGenome

/-! ### Distance and niche -/

def jaccard (left right : List String) : F :=
  let union := left.toFinset ∪ right.toFinset
  if union = ∅ then 1.0 else (left.toFinset ∩ right.toFinset).card / (union.card : F)

def genomeDistance (left right : RoutingGenome F) : F :=
  let skillD := 1.0 - jaccard left.skills right.skills
  let agentD := 1.0 - jaccard left.agents right.agents
  let tempD := Floating.minimum 1.0
    (Floating.absolute (left.temperature - right.temperature) / temperatureSpan)
  let personaD := if left.persona = right.persona then 0.0 else 1.0
  let topologyD := if left.topology = right.topology then 0.0 else 1.0
  0.35 * skillD + 0.35 * agentD + 0.10 * tempD + 0.10 * personaD + 0.10 * topologyD

def dominantSkillFamily (genome : RoutingGenome F) : String :=
  match genome.skills with
  | [] => familyGeneral
  | skill :: _ => (skillDomain skill).getD familyGeneral

def behaviorDescriptor (genome : RoutingGenome F) (costBucket depthBucket : String) :
    Except PyException String :=
  if costBucket ∉ costBuckets then
    .error (.valueError (s!"WHAT: cost_bucket invalido {pyRepr costBucket}. " ++
      s!"WHY: valores admitidos {pyList costBuckets}. " ++
      "WHERE: routing_mutation.behavior_descriptor"))
  else if depthBucket ∉ depthBuckets then
    .error (.valueError (s!"WHAT: depth_bucket invalido {pyRepr depthBucket}. " ++
      s!"WHY: valores admitidos {pyList depthBuckets}. " ++
      "WHERE: routing_mutation.behavior_descriptor"))
  else
    .ok (s!"cost={costBucket}|depth={depthBucket}|" ++
      s!"family={dominantSkillFamily genome}|topology={genome.topology}")

/-! ### The safety gate -/

structure SafetyAllowlist where
  skills : Finset String
  agents : Finset String
  forbiddenMarkers : Finset String

def firstAllowlistViolation (genome : RoutingGenome F) (allowlist : SafetyAllowlist) :
    Option String :=
  let unknownSkills := genome.skills.filter fun skill => skill ∉ allowlist.skills
  let unknownAgents := genome.agents.filter fun agent => agent ∉ allowlist.agents
  if unknownSkills ≠ [] then
    some (s!"WHAT: skills fuera de allowlist {pyTuple unknownSkills}. " ++
      "WHY: mutar hacia capacidades desconocidas saltaria los gates. " ++
      "WHERE: routing_mutation.is_safe")
  else if unknownAgents ≠ [] then
    some (s!"WHAT: agentes fuera de allowlist {pyTuple unknownAgents}. " ++
      "WHY: el routing solo admite agentes registrados/reversibles. " ++
      "WHERE: routing_mutation.is_safe")
  else none

def sorted {α : Type} [LinearOrder α] (items : Finset α) : List α := items.sort (· ≤ ·)

def firstForbiddenMarker (env : Environment F) (genome : RoutingGenome F)
    (markers : Finset String) : Option String :=
  let haystack := env.lower
    (" ".intercalate (genome.skills ++ genome.agents ++ [genome.persona, genome.topology]))
  (sorted markers).find? fun marker => marker.toList <:+: haystack.toList

def safeReason : String := "OK: genoma seguro (allowlist + reversible, sin secretos)"

def isSafe (env : Environment F) (genome : RoutingGenome F) (allowlist : SafetyAllowlist) :
    Bool × String :=
  match firstAllowlistViolation genome allowlist with
  | some violation => (false, violation)
  | none =>
    match firstForbiddenMarker env genome allowlist.forbiddenMarkers with
    | some marker =>
      (false, s!"WHAT: token prohibido {pyRepr marker} en el genoma. " ++
        "WHY: acciones irreversibles o acceso a secretos violan SEG/SBX. " ++
        "WHERE: routing_mutation.is_safe")
    | none => (true, safeReason)

end

end Swarmind.Orchestrator.RoutingMutation
