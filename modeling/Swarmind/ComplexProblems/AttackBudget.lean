import Swarmind.Library.Python
import Mathlib.Algebra.BigOperators.Intervals
import Mathlib.Algebra.Order.BigOperators.Group.Finset

/-!
Owns the ladder of an attack's grants and the counters of its budget. A grant is committed
when its attempt starts, whatever is consumed of it, and no attempt consumes more than its
grant.
-/

namespace Swarmind.ComplexProblems

open Swarmind.Library

/-! ### The ladder -/

/-- `BudgetLadder.__post_init__`. -/
def checkRungs (rungs : List Int) : Except PyException Unit :=
  if rungs = [] then
    .error (.valueError ("WHAT: escalera de presupuesto vacia. WHY: al menos un rung " ++
      "define el primer intento. WHERE: BudgetLadder."))
  else
    match rungs.find? fun rung => rung ≤ 0 with
    | some rung =>
      .error (.valueError (s!"WHAT: rung {rung} no positivo. WHY: cada intento " ++
        "consume al menos 1 episodio. WHERE: BudgetLadder."))
    | none =>
      match (rungs.zip rungs.tail).find? fun pair => pair.2 < pair.1 with
      | some pair =>
        .error (.valueError (s!"WHAT: rungs no crecientes ({pair.1} -> {pair.2}). " ++
          "WHY: la escalera da mas compute a los intentos tardios. " ++
          "WHERE: BudgetLadder."))
      | none => .ok ()

/-- A ladder that its constructor has accepted. -/
structure BudgetLadder where
  rungs : List Int
  accepted : checkRungs rungs = .ok ()

theorem BudgetLadder.positive (ladder : BudgetLadder) :
    ladder.rungs ≠ [] ∧ ∀ rung ∈ ladder.rungs, 0 < rung := by
  have accepted := ladder.accepted
  unfold checkRungs at accepted
  split at accepted
  · cases accepted
  · rename_i given
    split at accepted
    · cases accepted
    · rename_i none
      exact ⟨given, fun rung among => by simpa using List.find?_eq_none.mp none rung among⟩

/-- `allocate`: an attempt beyond the ladder gets the last rung. -/
def BudgetLadder.allocate (ladder : BudgetLadder) (attempt : Int) : Except PyException Int :=
  if attempt < 0 then
    .error (.valueError (s!"WHAT: intento negativo {attempt}. WHY: los indices son 0-based. " ++
      "WHERE: BudgetLadder.allocate."))
  else .ok (ladder.rungs.getD (min attempt.toNat (ladder.rungs.length - 1)) 0)

def BudgetLadder.rung (ladder : BudgetLadder) (attempt : Nat) : Int :=
  ladder.rungs.getD (min attempt (ladder.rungs.length - 1)) 0

private theorem BudgetLadder.allocate_natCast (ladder : BudgetLadder) (attempt : Nat) :
    ladder.allocate attempt = .ok (ladder.rung attempt) := by
  rw [allocate, if_neg (by omega), Int.toNat_natCast, rung]

private theorem BudgetLadder.rung_pos (ladder : BudgetLadder) (attempt : Nat) :
    0 < ladder.rung attempt := by
  obtain ⟨given, positive⟩ := ladder.positive
  have inside : min attempt (ladder.rungs.length - 1) < ladder.rungs.length := by
    have := List.length_pos_of_ne_nil given
    omega
  rw [rung, List.getD_eq_getElem?_getD, List.getElem?_eq_getElem inside]
  exact positive _ (List.getElem_mem inside)

/-! ### The budget of one attack -/

structure AttackBudget where
  ladder : BudgetLadder
  cap : Int
  committed : Int
  attemptLimit : Int
  spentAttempt : Int

namespace AttackBudget

def make (ladder : BudgetLadder) (cap : Int) : Except PyException AttackBudget :=
  if cap ≤ 0 then
    .error (.valueError (s!"WHAT: episode_cap {cap} no positivo. WHY: el tope " ++
      "debe permitir al menos un episodio. WHERE: AttackBudget."))
  else .ok { ladder := ladder, cap := cap, committed := 0, attemptLimit := 0, spentAttempt := 0 }

def remaining (budget : AttackBudget) : Int := budget.attemptLimit - budget.spentAttempt

def spentTotal (budget : AttackBudget) : Int := budget.committed

def startAttempt (budget : AttackBudget) (attempt : Int) :
    Except PyException (Int × AttackBudget) :=
  (budget.ladder.allocate attempt).map fun rung =>
    let grant := min rung (budget.cap - budget.committed)
    (grant, { budget with
      committed := budget.committed + grant
      attemptLimit := grant
      spentAttempt := 0 })

/-- `consume`; it starts the first attempt where nothing has been committed. -/
def consume (budget : AttackBudget) (cost : Int) : Except PyException AttackBudget :=
  if cost < 0 then
    .error (.valueError (s!"WHAT: costo negativo {cost}. WHY: los episodios solo " ++
      "crecen. WHERE: AttackBudget.consume."))
  else
    let started :=
      if budget.committed = 0 then (budget.startAttempt 0).map Prod.snd else .ok budget
    started.bind fun budget =>
      if budget.remaining < cost then
        .error (.valueError (s!"WHAT: costo {cost} sobre el restante {budget.remaining}. " ++
          "WHY: cada intento respeta su grant. WHERE: AttackBudget.consume."))
      else .ok { budget with spentAttempt := budget.spentAttempt + cost }

end AttackBudget

/-! ### What the attempts of one attack are granted -/

/-- The first rungs together. -/
def BudgetLadder.reserved (ladder : BudgetLadder) (attempts : Nat) : Int :=
  ∑ attempt ∈ Finset.range attempts, ladder.rung attempt

def BudgetLadder.grant (ladder : BudgetLadder) (cap : Int) (attempt : Nat) : Int :=
  min (ladder.rung attempt) (cap - min cap (ladder.reserved attempt))

section

variable (ladder : BudgetLadder)

@[simp] theorem BudgetLadder.reserved_zero : ladder.reserved 0 = 0 := Finset.sum_range_zero _

private theorem BudgetLadder.reserved_succ (attempts : Nat) :
    ladder.reserved (attempts + 1) = ladder.reserved attempts + ladder.rung attempts :=
  Finset.sum_range_succ _ _

theorem BudgetLadder.reserved_mono {fewer more : Nat} (within : fewer ≤ more) :
    ladder.reserved fewer ≤ ladder.reserved more := by
  induction within with
  | refl => exact Int.le_refl _
  | @step more _ ih =>
    have := ladder.rung_pos more
    rw [Nat.succ_eq_add_one, ladder.reserved_succ]
    omega

theorem BudgetLadder.reserved_succ_pos (attempts : Nat) : 0 < ladder.reserved (attempts + 1) := by
  have nonneg := ladder.reserved_mono (Nat.zero_le attempts)
  have := ladder.rung_pos attempts
  rw [ladder.reserved_zero] at nonneg
  rw [ladder.reserved_succ]
  omega

/-- An attempt gets tokens exactly when those before it left some. -/
theorem BudgetLadder.grant_pos_iff (cap : Int) (attempt : Nat) :
    0 < ladder.grant cap attempt ↔ ladder.reserved attempt < cap := by
  have := ladder.rung_pos attempt
  unfold grant
  omega

private theorem BudgetLadder.committed_succ (cap : Int) (attempt : Nat) :
    min cap (ladder.reserved attempt) + ladder.grant cap attempt =
      min cap (ladder.reserved (attempt + 1)) := by
  have := ladder.rung_pos attempt
  rw [ladder.reserved_succ, grant]
  omega

/-- What is granted is what was asked for, up to the cap. -/
theorem BudgetLadder.sum_grants {cap : Int} (capPositive : 0 < cap) (attempts : Nat) :
    ∑ attempt ∈ Finset.range attempts, ladder.grant cap attempt =
      min cap (ladder.reserved attempts) := by
  induction attempts with
  | zero =>
    rw [ladder.reserved_zero, Finset.sum_range_zero]
    omega
  | succ attempts ih =>
    rw [Finset.sum_range_succ, ih, ladder.committed_succ]

end

/-! ### One attempt -/

/-- The budget before an attempt, after all earlier ones. -/
structure AttackBudget.Before (budget : AttackBudget) (ladder : BudgetLadder) (cap : Int)
    (attempt : Nat) : Prop where
  sameLadder : budget.ladder = ladder
  sameCap : budget.cap = cap
  committed : budget.committed = min cap (ladder.reserved attempt)

variable {budget : AttackBudget}

theorem AttackBudget.make_before {ladder : BudgetLadder} {cap : Int}
    (made : make ladder cap = .ok budget) : 0 < cap ∧ budget.Before ladder cap 0 := by
  unfold make at made
  split at made
  · cases made
  · rename_i capPositive
    cases made
    exact ⟨by omega, rfl, rfl, by simp; omega⟩

/-- An attempt reserves what the ladder grants it. -/
theorem AttackBudget.Before.startAttempt {ladder : BudgetLadder}
    {cap : Int} {attempt : Nat} (before : budget.Before ladder cap attempt) :
    ∃ started, budget.startAttempt attempt = .ok (ladder.grant cap attempt, started) ∧
      started.Before ladder cap (attempt + 1) ∧ started.remaining = ladder.grant cap attempt := by
  obtain ⟨rfl, rfl, committed⟩ := before
  have granted : min (budget.ladder.rung attempt) (budget.cap - budget.committed) =
      budget.ladder.grant budget.cap attempt := by rw [committed, BudgetLadder.grant]
  refine ⟨{ budget with
      committed := budget.committed + budget.ladder.grant budget.cap attempt
      attemptLimit := budget.ladder.grant budget.cap attempt
      spentAttempt := 0 }, ?_, ⟨rfl, rfl, ?_⟩, Int.sub_zero _⟩
  · rw [AttackBudget.startAttempt, BudgetLadder.allocate_natCast, Except.map, granted]
  · dsimp only
    rw [committed, BudgetLadder.committed_succ]

/-- The cost of an attempt is taken from its reservation. -/
theorem AttackBudget.Before.consume {ladder : BudgetLadder} {cap : Int} {attempt : Nat}
    (before : budget.Before ladder cap attempt) (started : 0 < budget.committed) {cost : Int}
    (costNonneg : 0 ≤ cost) (within : cost ≤ budget.remaining) :
    ∃ consumed, budget.consume cost = .ok consumed ∧ consumed.Before ladder cap attempt := by
  refine ⟨{ budget with spentAttempt := budget.spentAttempt + cost }, ?_,
    before.sameLadder, before.sameCap, before.committed⟩
  rw [AttackBudget.consume, if_neg (by omega), if_neg (by omega), Except.bind,
    if_neg (by omega)]

end Swarmind.ComplexProblems
