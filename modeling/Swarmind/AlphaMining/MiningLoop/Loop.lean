import Swarmind.AlphaMining.AlphaZoo.Zoo
import Swarmind.AlphaMining.FactorDsl.Sandbox

/-!
Owns the mining loop: `run_round` with its gates and `search_mcts` with its tree
of nodes. Hooks may answer anything and keep a state of their own; the file
system answers every append. The evaluation of an expression on the panel is a
parameter. Whatever raises leaves the world as it is at that point.
-/

namespace Swarmind.AlphaMining.MiningLoop

open Swarmind.Library Swarmind.AlphaMining.FactorDsl Swarmind.AlphaMining.AlphaZoo

def maxFeedback : Nat := 6

/-- The bundle that the construction hook gets. -/
structure MiningContext where
  hypothesis : String
  roundIndex : Int
  forbiddenGenes : List String
  feedback : List String
  maxNodes : Int

/-- The parameters of the loop that it reads. -/
structure LoopConfig (ν : Type) where
  poolSize : Int
  exploration : ν
  minOriginality : ℚ
  maxNodes : Int
  branching : Int
  forbiddenGenes : List String

structure EvalVerdict (ν : Type) where
  accepted : Bool
  score : ν
  rankIc : ν
  reasons : List String

/-- The injected functions. Each call may change what they answer next; `disk`
is what the file system raises on the next append. -/
structure Hooks (η ν : Type) where
  signal : Int → Int → η → Except PyException String × η
  construct : MiningContext → String → η → Except PyException PyValue × η
  align : Option (String → String → η → Except PyException ν × η)
  disk : η → Option PyException × η

/-- What the loop needs of floats beyond `+`, `*`, `/` and `<`. -/
structure Numbers (ν : Type) extends Floats ν where
  log : ν → ν
  sqrt : ν → ν
  minusInf : ν
  alignmentMin : ν
  fixed2 : ν → String

/-- Everything a call of the loop reads and changes. -/
structure World (η ν : Type) where
  hidden : η
  zoo : Zoo ν
  feedback : List String

/-- A computation of the loop: it returns or raises, and leaves a world. -/
def Mining (η ν α : Type) : Type := World η ν → Except PyException α × World η ν

namespace Mining

variable {η ν α β : Type}

def pure (value : α) : Mining η ν α := fun world => (.ok value, world)

def bind (first : Mining η ν α) (next : α → Mining η ν β) : Mining η ν β := fun world =>
  match first world with
  | (.ok value, after) => next value after
  | (.error raised, after) => (.error raised, after)

instance : Monad (Mining η ν) where
  pure := pure
  bind := bind

/-- A pure computation that may raise. -/
def lift (outcome : Except PyException α) : Mining η ν α := fun world => (outcome, world)

def hook (call : η → Except PyException α × η) : Mining η ν α := fun world =>
  let answer := call world.hidden
  (answer.1, { world with hidden := answer.2 })

def getWorld : Mining η ν (World η ν) := fun world => (.ok world, world)

end Mining

section

variable {η ν : Type} (numbers : Numbers ν) (hooks : Hooks η ν) (config : LoopConfig ν)
variable (evaluateFactor : Expr → Except PyException (EvalVerdict ν))

/-! ### The zoo -/

/-- The end of a mutation of the zoo, as the caller sees it. -/
def resultOf : Ending → Except PyException Bool
  | .done result => .ok result
  | .raised exc => .error exc
  | .appendRaised exc => .error exc

def zooAdd (entry : ZooEntry ν) : Mining η ν Bool := fun world =>
  let answer := hooks.disk world.hidden
  let ended := add numbers.toFloats world.zoo entry config.minOriginality answer.1
  (resultOf ended.1, { world with hidden := answer.2, zoo := ended.2 })

def zooRecordFailure (formula mode : String) : Mining η ν Bool := fun world =>
  let answer := hooks.disk world.hidden
  let ended := recordFailure world.zoo formula mode answer.1
  (resultOf ended.1, { world with hidden := answer.2, zoo := ended.2 })

def entryFor (expr : Expr) (verdict : EvalVerdict ν) (roundIndex : Int) : ZooEntry ν :=
  { formula := toFormula expr
    tree := match toDict expr with
      | .dict items => items
      | _ => []
    family := classifyFamily expr
    score := verdict.score
    rankIc := verdict.rankIc
    roundIndex }

/-! ### Rounds -/

def contextOf (world : World η ν) (hypothesis : String) (roundIndex : Int) : MiningContext :=
  { hypothesis, roundIndex, forbiddenGenes := config.forbiddenGenes
    feedback := world.feedback.drop (world.feedback.length - maxFeedback)
    maxNodes := config.maxNodes }

/-- `parse_expr(self._construct(context, blueprint))` under `except ValueError`. -/
def constructExpr (context : MiningContext) (blueprint : String) :
    Mining η ν (Except PyException Expr) := fun world =>
  let answer := hooks.construct context blueprint world.hidden
  let after := { world with hidden := answer.2 }
  match answer.1.bind parseExpr with
  | .ok expr => (.ok (.ok expr), after)
  | .error raised =>
    if isValueError raised then (.ok (.error raised), after) else (.error raised, after)

def complexityReason (nodes : Nat) : String :=
  s!"complejidad: {nodes} nodos > maximo {config.maxNodes}"

def fsaReason : String := "fsa: motif abstracto en el conjunto prohibido (crowding)"

def originalityReason : String := "originalidad: duplicado o demasiado similar al zoo"

variable [LT ν] [DecidableLT ν]

def alignGate (expr : Expr) (hypothesis : String) : Mining η ν String :=
  match hooks.align with
  | none => pure ""
  | some align => do
    let score ← Mining.hook (align hypothesis (toFormula expr))
    if score < numbers.alignmentMin then
      pure (s!"alineacion: score {numbers.fixed2 score} < minimo " ++
        numbers.fixed2 numbers.alignmentMin)
    else pure ""

def gate (expr : Expr) (hypothesis : String) : Mining η ν String :=
  if config.maxNodes < complexity expr then pure (complexityReason config (complexity expr))
  else if violatesFsa expr config.forbiddenGenes then pure fsaReason
  else do
    let world ← Mining.getWorld
    let similar ← Mining.lift (isSimilar world.zoo.memory expr config.minOriginality)
    if similar then pure originalityReason else alignGate numbers hooks expr hypothesis

def gateMode (reason : String) : String := String.ofList (reason.toList.takeWhile (· ≠ ':'))

/-- What `_process` returns: entry, formula and reason. -/
abbrev Processed (ν : Type) := Option (ZooEntry ν) × String × String

def process (context : MiningContext) : Mining η ν (Processed ν) := do
  match ← constructExpr hooks context context.hypothesis with
  | .error exc => pure (none, "", "generacion: " ++ exc.message)
  | .ok expr =>
    let formula := toFormula expr
    let reason ← gate numbers hooks config expr context.hypothesis
    if reason ≠ "" then
      let _ ← zooRecordFailure hooks formula (gateMode reason)
      pure (none, formula, reason)
    else
      let verdict ← Mining.lift (evaluateFactor expr)
      if !verdict.accepted then
        let _ ← zooRecordFailure hooks formula "metricas"
        pure (none, formula, "metricas: " ++ "; ".intercalate verdict.reasons)
      else
        let entry := entryFor expr verdict context.roundIndex
        if ← zooAdd numbers hooks config entry then pure (some entry, formula, "")
        else
          let _ ← zooRecordFailure hooks formula "originalidad"
          pure (none, formula, originalityReason)

def remember (reason : String) : Mining η ν Unit := fun world =>
  if reason = "" then (.ok (), world)
  else
    let feedback := world.feedback ++ [reason]
    (.ok (), { world with feedback := feedback.drop (feedback.length - maxFeedback) })

def diversifiedInit (roundIndex : Int) : Nat → Nat → Mining η ν (List String)
  | _, 0 => pure []
  | variant, remaining + 1 => do
    let hypothesis ← Mining.hook (hooks.signal roundIndex variant)
    let rest ← diversifiedInit roundIndex (variant + 1) remaining
    pure (hypothesis :: rest)

/-- The loop of `run_round`: what was accepted and what was rejected. -/
def runPlans (roundIndex : Int) :
    List String → Mining η ν (List (ZooEntry ν) × List (String × String))
  | [] => pure ([], [])
  | hypothesis :: rest => do
    let world ← Mining.getWorld
    match ← process numbers hooks config evaluateFactor
        (contextOf config world hypothesis roundIndex) with
    | (some entry, _, _) =>
      let (accepted, rejected) ← runPlans roundIndex rest
      pure (entry :: accepted, rejected)
    | (none, formula, reason) =>
      remember reason
      let (accepted, rejected) ← runPlans roundIndex rest
      pure (accepted, (formula, reason) :: rejected)

def runRound (roundIndex : Int) (hypotheses : List String) :
    Mining η ν (List (ZooEntry ν) × List (String × String)) := do
  let plans ←
    if hypotheses = [] then diversifiedInit hooks roundIndex 0 config.poolSize.toNat
    else pure hypotheses
  runPlans numbers hooks config evaluateFactor roundIndex plans

/-! ### Search -/

/-- `_Node`; `reasons` is what its verdict says. Nodes refer to each other by
their position in the tree. -/
structure Node (ν : Type) where
  expr : Expr
  score : ν
  reasons : List String
  visits : Nat
  value : ν
  children : List Nat
  parent : Option Nat

/-- The nodes of a search in the order of their creation, and the accepted formulas. -/
structure Search (ν : Type) where
  nodes : List (Node ν)
  accepted : List String

variable [Zero ν] [Add ν] [Mul ν] [Div ν] [NatCast ν]

/-- `_evaluate_into`: score, reasons and the accepted formula, if any. -/
def evaluateInto (expr : Expr) : Mining η ν (ν × List String × List String) := do
  let verdict ← Mining.lift (evaluateFactor expr)
  if verdict.accepted then
    let _ ← zooAdd numbers hooks config (entryFor expr verdict 0)
    pure (verdict.score, verdict.reasons, [toFormula expr])
  else pure (0, verdict.reasons, [])

/-- The UCT value of a visited child. -/
def uct (parentVisits : Nat) (child : Node ν) : ν :=
  child.value / child.visits +
    config.exploration * numbers.sqrt (numbers.log (parentVisits + 1 : Nat) / child.visits)

/-- The loop of `_uct_select`, with the best child so far and its value. -/
def uctLoop (nodes : List (Node ν)) (parentVisits : Nat) :
    List Nat → Option Nat → ν → Option Nat
  | [], best, _ => best
  | child :: rest, best, bestUct =>
    match nodes[child]? with
    | none => uctLoop nodes parentVisits rest best bestUct
    | some node =>
      if node.visits = 0 then some child
      else if bestUct < uct numbers config parentVisits node then
        uctLoop nodes parentVisits rest (some child) (uct numbers config parentVisits node)
      else uctLoop nodes parentVisits rest best bestUct

/-- `_uct_select`: the node itself where no child is above minus infinity. -/
def uctSelect (nodes : List (Node ν)) (index : Nat) : Nat :=
  match nodes[index]? with
  | none => index
  | some node =>
    (uctLoop numbers config nodes node.visits node.children none numbers.minusInf).getD index

/-- The descent from a node to one with room for a child, none where it never ends. A child
stands behind its parent, so that a descent of more steps than there are nodes stays at one. -/
def descend (nodes : List (Node ν)) : Nat → Nat → Option Nat
  | 0, _ => none
  | steps + 1, index =>
    match nodes[index]? with
    | none => none
    | some node =>
      if node.children ≠ [] ∧ config.branching ≤ node.children.length then
        descend nodes steps (uctSelect numbers config nodes index)
      else some index

def expandExpr (node : Node ν) : Mining η ν Expr := do
  let blueprint := toFormula node.expr
  let context : MiningContext :=
    { hypothesis := blueprint, roundIndex := 0, forbiddenGenes := config.forbiddenGenes
      feedback := node.reasons, maxNodes := config.maxNodes }
  match ← constructExpr hooks context blueprint with
  | .ok expr => pure expr
  | .error _ => pure node.expr

def backprop (score : ν) : Nat → Option Nat → List (Node ν) → List (Node ν)
  | _, none, nodes => nodes
  | 0, _, nodes => nodes
  | steps + 1, some index, nodes =>
    match nodes[index]? with
    | none => nodes
    | some node =>
      backprop score steps node.parent
        (nodes.set index { node with visits := node.visits + 1, value := node.value + score })

/-- A new node below `parent`, counted up to the root. -/
def attach (nodes : List (Node ν)) (parent : Nat) (expr : Expr) (score : ν)
    (reasons : List String) : List (Node ν) :=
  let index := nodes.length
  let child : Node ν :=
    { expr, score, reasons, visits := 0, value := 0, children := [], parent := some parent }
  let linked := match nodes[parent]? with
    | some node => nodes.set parent { node with children := node.children ++ [index] }
    | none => nodes
  backprop score (index + 1) (some index) (linked ++ [child])

def startSearch (seed : Expr) : Mining η ν (Search ν) := do
  let (score, reasons, accepted) ← evaluateInto numbers hooks config evaluateFactor seed
  let root : Node ν :=
    { expr := seed, score, reasons, visits := 0, value := 0, children := [], parent := none }
  pure { nodes := [root], accepted }

/-- The expression that one iteration evaluates, and the node it expands. A descent that
never ends is left by an interrupt alone. -/
def nextExpr (search : Search ν) : Mining η ν (Nat × Expr) :=
  match descend numbers config search.nodes search.nodes.length 0 with
  | none => Mining.lift (.error ⟨"KeyboardInterrupt", ""⟩)
  | some index =>
    match search.nodes[index]? with
    | none => Mining.lift (.error (.runtimeError "unreachable"))
    | some node => do
      let expr ← expandExpr hooks config node
      pure (index, expr)

/-- One iteration of `search_mcts`. -/
def iterate (search : Search ν) : Mining η ν (Search ν) := do
  let (index, expr) ← nextExpr numbers hooks config search
  let (score, reasons, accepted) ← evaluateInto numbers hooks config evaluateFactor expr
  pure
    { nodes := attach search.nodes index expr score reasons
      accepted := search.accepted ++ accepted }

def iterations : Nat → Search ν → Mining η ν (Search ν)
  | 0, search => pure search
  | count + 1, search => do
    let next ← iterate numbers hooks config evaluateFactor search
    iterations count next

def bestNode (nodes : List (Node ν)) : Nat → List Nat → Node ν → Node ν
  | 0, _, best => best
  | _, [], best => best
  | steps + 1, index :: stack, best =>
    match nodes[index]? with
    | none => bestNode nodes steps stack best
    | some node =>
      bestNode nodes steps (node.children ++ stack)
        (if best.score < node.score then node else best)

structure MCTSResult (ν : Type) where
  best : Option Expr
  bestScore : ν
  visited : Int
  accepted : List String

def searchMcts (seed : Expr) (count : Int) : Mining η ν (MCTSResult ν) := do
  let started ← startSearch numbers hooks config evaluateFactor seed
  let search ← iterations numbers hooks config evaluateFactor count.toNat started
  match search.nodes with
  | [] => pure { best := none, bestScore := 0, visited := count, accepted := search.accepted }
  | root :: _ =>
    let best := bestNode search.nodes search.nodes.length [0] root
    pure
      { best := some best.expr, bestScore := best.score, visited := count
        accepted := search.accepted }

end

end Swarmind.AlphaMining.MiningLoop
