import Swarmind.Library.Runs
import Swarmind.Library.Sums

/-!
Owns the token pools of one budget and the operations on them: requests with
their gate and their redistribution, commits, releases, and the penalty of a
failure. Tokens are integers; shares and confidence are elements of an ordered
field.
-/

namespace Swarmind.MemoryRag

open Swarmind.Library

/-! ### Pools -/

def poolSystem : String := "system"
def poolUser : String := "user"
def poolRag : String := "rag"
def poolSkill : String := "skill"
def poolToolOutput : String := "tool_output"
def poolConversation : String := "conversation"

def allPools : List String :=
  [poolSystem, poolUser, poolRag, poolSkill, poolToolOutput, poolConversation]

def priorityCritical : Int := 100
def priorityHigh : Int := 75
def priorityNormal : Int := 50
def priorityLow : Int := 25

structure TokenPool where
  name : String
  allocated : Int
  used : Int
  reserved : Int
  priority : Int
deriving DecidableEq, Repr

namespace TokenPool

def remaining (pool : TokenPool) : Int := max 0 (pool.allocated - pool.used - pool.reserved)

def allocate (pool : TokenPool) (tokens : Int) : Int × TokenPool :=
  let actual := min tokens pool.remaining
  (actual, { pool with reserved := pool.reserved + actual })

def commit (pool : TokenPool) (tokens : Int) : TokenPool :=
  let actual := min tokens pool.reserved
  { pool with used := pool.used + actual, reserved := pool.reserved - actual }

def release (pool : TokenPool) (tokens : Int) : TokenPool :=
  let actual := min tokens pool.reserved
  { pool with reserved := pool.reserved - actual }

end TokenPool

def poolPriority (poolName : String) : Int :=
  if poolName = poolSystem then priorityCritical
  else if poolName = poolUser then priorityHigh
  else if poolName = poolRag then priorityNormal
  else if poolName = poolSkill then priorityNormal
  else if poolName = poolToolOutput then priorityLow
  else if poolName = poolConversation then priorityLow
  else priorityNormal

/-! ### Budgets -/

structure TokenBudget (R : Type) where
  totalBudget : Int
  priority : Int
  poolAllocation : Dict String R
  confidence : R
  minReserve : Int
  pools : Dict String TokenPool
  agentFailures : Dict String Int
  maxFailures : Int
  disabled : Bool
deriving DecidableEq

inductive BudgetCall (R : Type) where
  | request (poolName : String) (tokens : Int)
  | commit (poolName : String) (tokens : Int)
  | release (poolName : String) (tokens : Int)
  | setConfidence (confidence : R)
  | recordFailure (agentId : String) (tokensUsed : Int)
deriving DecidableEq

section Thresholds

variable {R : Type} [Field R]

def confidenceHigh : R := 0.90
def confidenceMedium : R := 0.70

def defaultPoolAllocation : Dict String R :=
  Dict.ofList [(poolSystem, 0.15), (poolUser, 0.05), (poolRag, 0.30), (poolSkill, 0.15),
    (poolToolOutput, 0.20), (poolConversation, 0.15)]

end Thresholds

namespace TokenBudget

/-! ### Redistribution -/

/-- The loop of `_redistribute` over the sorted pools: the tokens taken so far,
and the pools. -/
def drain (needyPool : String) (deficit minReserve : Int) :
    List (String × TokenPool) → Int → Dict String TokenPool → Int × Dict String TokenPool
  | [], total, pools => (total, pools)
  | (poolName, pool) :: rest, total, pools =>
    if poolName = needyPool then drain needyPool deficit minReserve rest total pools
    else if poolPriority needyPool ≤ pool.priority then
      drain needyPool deficit minReserve rest total pools
    else
      let available := max 0 (pool.remaining - minReserve)
      if available ≤ 0 then drain needyPool deficit minReserve rest total pools
      else
        let take := min available (deficit - total)
        let taken :=
          if 0 < take then
            (total + take, pools.set poolName { pool with used := pool.used + take })
          else (total, pools)
        if deficit ≤ taken.1 then taken
        else drain needyPool deficit minReserve rest taken.1 taken.2

def sortedPools (pools : Dict String TokenPool) : List (String × TokenPool) :=
  pools.entries.mergeSort fun first second => first.2.priority ≤ second.2.priority

def redistribute (minReserve : Int) (pools : Dict String TokenPool) (needyPool : String)
    (deficit : Int) : Int × Dict String TokenPool :=
  drain needyPool deficit minReserve (sortedPools pools) 0 pools

/-! ### Operations -/

variable {R : Type} [Field R] [LinearOrder R] [FloorRing R]

def allocatedShare (totalBudget : Int) (allocation : Dict String R) (poolName : String) : Int :=
  truncate ((totalBudget : R) * (allocation.get? poolName).getD 0)

def initialPools (totalBudget : Int) (allocation : Dict String R) : Dict String TokenPool :=
  Dict.ofList (allPools.map fun poolName => (poolName,
    { name := poolName
      allocated := allocatedShare totalBudget allocation poolName
      used := 0
      reserved := 0
      priority := poolPriority poolName }))

def create (totalBudget priority : Int) (allocation : Dict String R) (confidence : R)
    (minReserve maxFailures : Int) : TokenBudget R where
  totalBudget := totalBudget
  priority := priority
  poolAllocation := allocation
  confidence := confidence
  minReserve := minReserve
  pools := initialPools totalBudget allocation
  agentFailures := Dict.empty
  maxFailures := maxFailures
  disabled := false

def totalUsed (budget : TokenBudget R) : Int := (budget.pools.values.map TokenPool.used).sum

def totalRemaining (budget : TokenBudget R) : Int := max 0 (budget.totalBudget - budget.totalUsed)

def canSpend (budget : TokenBudget R) : Bool :=
  if budget.disabled then false
  else if confidenceHigh ≤ budget.confidence then false
  else !decide (budget.totalRemaining ≤ budget.minReserve)

def setConfidence (budget : TokenBudget R) (confidence : R) : TokenBudget R :=
  { budget with confidence := max 0 (min 1 confidence) }

/-- The total that a failure leaves. -/
def penalized (budget : TokenBudget R) (tokensUsed : Int) : Int :=
  max 0 (budget.totalBudget - truncate ((tokensUsed : R) * 0.5))

/-- The pools that a failure leaves: their shares in the reduced total, if any
is left. -/
def shrunkPools (budget : TokenBudget R) (tokensUsed : Int) : Dict String TokenPool :=
  if 0 < budget.penalized tokensUsed then
    budget.pools.mapValues fun pool => { pool with
      allocated := allocatedShare (budget.penalized tokensUsed) budget.poolAllocation pool.name }
  else budget.pools

def recordFailure (budget : TokenBudget R) (agentId : String) (tokensUsed : Int) : TokenBudget R :=
  let failures := (budget.agentFailures.get? agentId).getD 0 + 1
  { budget with
    agentFailures := budget.agentFailures.set agentId failures
    totalBudget := budget.penalized tokensUsed
    pools := budget.shrunkPools tokensUsed
    disabled := if budget.maxFailures ≤ failures then true else budget.disabled }

def gated (budget : TokenBudget R) (poolName : String) : Bool :=
  decide (confidenceHigh ≤ budget.confidence) && !(poolName ∈ [poolSystem, poolUser])

/-- The tokens that `request` asks for after the reduction of medium confidence. -/
def reduced (budget : TokenBudget R) (tokens : Int) : Int :=
  if confidenceMedium ≤ budget.confidence then truncate ((tokens : R) * 0.5) else tokens

def request (budget : TokenBudget R) (poolName : String) (tokens : Int) : Int × TokenBudget R :=
  if budget.gated poolName then (0, budget)
  else
    match budget.pools.get? poolName with
    | none => (0, budget)
    | some pool =>
      let asked := budget.reduced tokens
      let allocated := pool.allocate asked
      let pools := budget.pools.set poolName allocated.2
      if allocated.1 < asked then
        let moved := redistribute budget.minReserve pools poolName (asked - allocated.1)
        (allocated.1 + moved.1, { budget with pools := moved.2 })
      else (allocated.1, { budget with pools := pools })

def commit (budget : TokenBudget R) (poolName : String) (tokens : Int) : TokenBudget R :=
  match budget.pools.get? poolName with
  | none => budget
  | some pool => { budget with pools := budget.pools.set poolName (pool.commit tokens) }

def release (budget : TokenBudget R) (poolName : String) (tokens : Int) : TokenBudget R :=
  match budget.pools.get? poolName with
  | none => budget
  | some pool => { budget with pools := budget.pools.set poolName (pool.release tokens) }

def machine : Machine (TokenBudget R) (BudgetCall R) Int where
  step budget call :=
    match call with
    | .request poolName tokens => budget.request poolName tokens
    | .commit poolName tokens => (0, budget.commit poolName tokens)
    | .release poolName tokens => (0, budget.release poolName tokens)
    | .setConfidence confidence => (0, budget.setConfidence confidence)
    | .recordFailure agentId tokensUsed => (0, budget.recordFailure agentId tokensUsed)

end TokenBudget

end Swarmind.MemoryRag
