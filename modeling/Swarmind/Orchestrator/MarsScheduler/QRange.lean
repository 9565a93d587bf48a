import Swarmind.Orchestrator.MarsScheduler.Feedback

/-!
Owns the range of the Q values. An update moves a value towards the reward plus a discounted
part of the greatest value of the agent. The reward alone may be one, so that with any discount
factor the target is above every value up to one, and the values grow out of the unit interval.
-/

namespace Swarmind.Orchestrator.Mars

open Swarmind.Library

variable {R Context : Type} [Field R] [LinearOrder R]

/-- What `record_outcome` is told of an execution. -/
structure Outcome (R : Type) where
  taskId : String
  agentId : String
  success : Bool
  latency : R
  cost : R

def Outcome.Nonneg (outcome : Outcome R) : Prop := 0 ≤ outcome.latency ∧ 0 ≤ outcome.cost

/-- The table after one recorded outcome. -/
def QTable.record (config : Config R) (world : World R) (qTable : QTable R)
    (outcome : Outcome R) : QTable R :=
  qTable.set (outcome.agentId, outcome.taskId)
    (Scheduler.updateQ config (getQValue qTable outcome.agentId outcome.taskId)
      (computeQReward world outcome.success outcome.latency outcome.cost)
      (getMaxQForTask qTable outcome.agentId))

/-- Every value in the table is in the unit interval. -/
def InRange (qTable : QTable R) : Prop :=
  ∀ key value, qTable.get? key = some value → 0 ≤ value ∧ value ≤ 1

/-- The exponential terms of the reward are positive and at most one. -/
def World.Decays (world : World R) : Prop := ∀ x ≤ 0, 0 < world.exp x ∧ world.exp x ≤ 1

/-! ### The scheduler records outcomes -/

section Machine

variable [DecidableEq Context] (config : Config R) (world : World R)

private theorem Scheduler.qTable_step (scheduler : Scheduler R Context) (call : Call R Context) :
    ((machine config world).step scheduler call).2.qTable = scheduler.qTable ∨
      ∃ outcome : Outcome R, outcome.Nonneg ∧
        ((machine config world).step scheduler call).2.qTable =
          scheduler.qTable.record config world outcome := by
  cases call with
  | registerAgent agentId skills maxLoad =>
    have outcome := registerAgent_spec world scheduler agentId skills maxLoad
    left
    show (scheduler.registerAgent world agentId skills maxLoad).2.qTable = _
    generalize scheduler.registerAgent world agentId skills maxLoad = result at outcome ⊢
    cases outcome <;> rfl
  | enableAgent agentId enabled =>
    left
    show (scheduler.enableAgent agentId enabled).2.qTable = _
    unfold enableAgent
    split <;> rfl
  | scheduleTask task => exact .inl (scheduleTask_qTable config world scheduler task)
  | dispatchQueued => exact .inl (dispatchQueued_qTable config world scheduler)
  | recordOutcome taskId agentId success latency cost =>
    have outcome := recordOutcome_spec config world scheduler taskId agentId success latency cost
    show (scheduler.recordOutcome config world taskId agentId success latency cost).2.qTable = _ ∨
      ∃ told : Outcome R, told.Nonneg ∧
        (scheduler.recordOutcome config world taskId agentId success latency cost).2.qTable = _
    generalize scheduler.recordOutcome config world taskId agentId success latency cost = result
      at outcome ⊢
    cases outcome with
    | refused reply calm refuses => exact .inl rfl
    | settled profile started records running registered =>
      exact .inr ⟨⟨taskId, agentId, success, latency, cost⟩, ⟨records.1, records.2.1⟩,
        dispatchQueued_qTable config world _⟩

/-- The table is that of a sequence of recorded outcomes. -/
def QTable.Learned (qTable : QTable R) : Prop :=
  ∃ outcomes : List (Outcome R), (∀ outcome ∈ outcomes, outcome.Nonneg) ∧
    qTable = outcomes.foldl (QTable.record config world) Dict.empty

private theorem Scheduler.learned_after (calls : List (Call R Context)) :
    ((machine config world).after config.create calls).qTable.Learned config world := by
  have preserved (scheduler : Scheduler R Context) (call : Call R Context) :
      scheduler.qTable.Learned config world → True →
        ((machine config world).step scheduler call).2.qTable.Learned config world := by
    rintro ⟨outcomes, nonneg, table⟩ _
    rcases scheduler.qTable_step config world call with same | ⟨outcome, told, recorded⟩
    · exact ⟨outcomes, nonneg, same.trans table⟩
    · refine ⟨outcomes ++ [outcome], ?_, ?_⟩
      · intro other member
        rcases List.mem_append.mp member with before | last
        · exact nonneg other before
        · rwa [List.mem_singleton.mp last]
      · rw [recorded, table, List.foldl_append]
        rfl
  exact Machine.invariant_after
    (fun scheduler : Scheduler R Context => scheduler.qTable.Learned config world) preserved
    ⟨[], nofun, rfl⟩ ((machine config world).along_of_forall (fun _ _ => trivial) _ _)

end Machine

section Range

variable [IsStrictOrderedRing R] {config : Config R} {world : World R} {qTable : QTable R}

/-! ### Values that stay in range -/

private theorem qInitialValue_range : (0 : R) ≤ qInitialValue ∧ (qInitialValue : R) ≤ 1 := by
  unfold qInitialValue
  constructor <;> norm_num

private theorem InRange.getQValue (inRange : InRange qTable) (agentId taskKey : String) :
    0 ≤ getQValue qTable agentId taskKey ∧ getQValue qTable agentId taskKey ≤ 1 := by
  unfold Mars.getQValue
  cases found : qTable.get? (agentId, taskKey) with
  | none => exact qInitialValue_range
  | some value => exact inRange _ value found

private theorem computeQReward_range (decays : world.Decays) {outcome : Outcome R}
    (nonneg : outcome.Nonneg) :
    0 ≤ computeQReward world outcome.success outcome.latency outcome.cost ∧
      computeQReward world outcome.success outcome.latency outcome.cost ≤ 1 := by
  obtain ⟨latencyPos, latencyLe⟩ := decays (-outcome.latency / 10)
    (div_nonpos_of_nonpos_of_nonneg (neg_nonpos.mpr nonneg.1) (by norm_num))
  obtain ⟨costPos, costLe⟩ := decays (-outcome.cost / 500)
    (div_nonpos_of_nonpos_of_nonneg (neg_nonpos.mpr nonneg.2) (by norm_num))
  unfold computeQReward
  cases outcome.success <;> constructor <;> norm_num <;> linarith

private theorem updateQ_range {current reward maxFutureQ : R}
    (still : config.learningRate = 0 ∨ config.discountFactor = 0)
    (currentRange : 0 ≤ current ∧ current ≤ 1) (rewardRange : 0 ≤ reward ∧ reward ≤ 1) :
    0 ≤ Scheduler.updateQ config current reward maxFutureQ ∧
      Scheduler.updateQ config current reward maxFutureQ ≤ 1 := by
  unfold Scheduler.updateQ
  rcases still with rate | factor
  · rwa [rate, zero_mul, add_zero]
  · obtain ⟨rateNonneg, rateLe⟩ := config.learningRate_unit
    rw [factor, zero_mul, add_zero]
    have mixed : current + config.learningRate * (reward - current) =
        (1 - config.learningRate) * current + config.learningRate * reward := by ring
    have rest : 0 ≤ 1 - config.learningRate := sub_nonneg.mpr rateLe
    rw [mixed]
    constructor
    · exact add_nonneg (mul_nonneg rest currentRange.1) (mul_nonneg rateNonneg rewardRange.1)
    · have first := mul_le_mul_of_nonneg_left currentRange.2 rest
      have second := mul_le_mul_of_nonneg_left rewardRange.2 rateNonneg
      linarith

private theorem InRange.record (still : config.learningRate = 0 ∨ config.discountFactor = 0)
    (decays : world.Decays) (inRange : InRange qTable) {outcome : Outcome R}
    (nonneg : outcome.Nonneg) : InRange (qTable.record config world outcome) := by
  intro key value found
  rw [QTable.record, Dict.get?_set] at found
  split at found
  · obtain rfl := Option.some.inj found
    exact updateQ_range still (inRange.getQValue _ _) (computeQReward_range decays nonneg)
  · exact inRange key value found

/-! ### How far they grow -/

/-- A value from zero to the discounted sum of the best reward. -/
def Discounted (config : Config R) (value : R) : Prop :=
  0 ≤ value ∧ value * (1 - config.discountFactor) ≤ 1

private theorem discounted_initial : Discounted config qInitialValue := by
  obtain ⟨nonneg, le⟩ := qInitialValue_range (R := R)
  obtain ⟨factorNonneg, factorLe⟩ := config.discountFactor_unit
  exact ⟨nonneg, mul_le_one₀ le (sub_nonneg.mpr factorLe) (by linarith)⟩

private theorem Discounted.updateQ {current reward best : R} (currently : Discounted config current)
    (greatest : Discounted config best) (range : 0 ≤ reward ∧ reward ≤ 1) :
    Discounted config (Scheduler.updateQ config current reward best) := by
  obtain ⟨rateNonneg, rateLe⟩ := config.learningRate_unit
  obtain ⟨factorNonneg, factorLe⟩ := config.discountFactor_unit
  have rest := sub_nonneg.mpr rateLe
  have target : (reward + config.discountFactor * best) * (1 - config.discountFactor) ≤ 1 := by
    have own := mul_le_mul_of_nonneg_right range.2 (sub_nonneg.mpr factorLe)
    have future := mul_le_mul_of_nonneg_left greatest.2 factorNonneg
    linarith
  have mixed : Scheduler.updateQ config current reward best = (1 - config.learningRate) * current +
      config.learningRate * (reward + config.discountFactor * best) := by
    unfold Scheduler.updateQ
    ring
  rw [mixed]
  constructor
  · have ahead := add_nonneg range.1 (mul_nonneg factorNonneg greatest.1)
    exact add_nonneg (mul_nonneg rest currently.1) (mul_nonneg rateNonneg ahead)
  · have kept := mul_le_mul_of_nonneg_left currently.2 rest
    have learned := mul_le_mul_of_nonneg_left target rateNonneg
    linarith

private theorem discounted_record (decays : world.Decays)
    (each : ∀ key value, qTable.get? key = some value → Discounted config value)
    {outcome : Outcome R} (nonneg : outcome.Nonneg) (key : String × String) (value : R)
    (found : (qTable.record config world outcome).get? key = some value) :
    Discounted config value := by
  rw [QTable.record, Dict.get?_set] at found
  split at found
  · obtain rfl := Option.some.inj found
    refine Discounted.updateQ ?_ ?_ (computeQReward_range decays nonneg)
    · unfold getQValue
      cases held : qTable.get? (outcome.agentId, outcome.taskId) with
      | none => exact discounted_initial
      | some value => exact each _ value held
    · unfold getMaxQForTask
      dsimp only
      cases held : List.max? (α := R) _ with
      | none => exact discounted_initial
      | some value =>
        obtain ⟨entry, among, rfl⟩ := List.mem_map.mp (List.max?_mem held)
        exact each entry.1 entry.2
          ((Dict.get?_eq_some_iff qTable _ _).mpr (List.mem_of_mem_filter among))
  · exact each key value found

/-- In every run of the scheduler the values stay below the discounted sum of the best reward. -/
theorem discounted_after [DecidableEq Context] (config : Config R) (decays : world.Decays)
    (calls : List (Call R Context)) (key : String × String) (value : R)
    (found : ((machine config world).after config.create calls).qTable.get? key = some value) :
    Discounted config value := by
  obtain ⟨outcomes, nonneg, learned⟩ := Scheduler.learned_after config world calls
  rw [learned] at found
  clear learned
  induction outcomes using List.reverseRecOn generalizing key value with
  | nil => cases found
  | append_singleton outcomes outcome ih =>
    rw [List.forall_mem_append] at nonneg
    rw [List.foldl_append] at found
    exact discounted_record decays (fun key value found => ih key value found nonneg.1)
      (nonneg.2 outcome (List.mem_singleton_self outcome)) key value found

/-! ### Values that grow -/

/-- A process in which every exponential is one. -/
def World.steady (R : Type) [Field R] [LinearOrder R] : World R where
  clock _ := 0
  uniform _ := 0
  gauss _ := 0
  exp _ := 1
  repr _ := ""
  uniform_nonneg _ := le_rfl

/-- A success in no time and at no cost. -/
def Outcome.best (R : Type) [Field R] : Outcome R := ⟨"task", "agent", true, 0, 0⟩

variable (config) in
/-- The value after some of the best outcomes. -/
def grown (count : Nat) : R :=
  (fun current => Scheduler.updateQ config current 1 current)^[count] qInitialValue

private theorem foldl_best (count : Nat) :
    (List.replicate (count + 1) (Outcome.best R)).foldl
        (QTable.record config (World.steady R)) Dict.empty =
      Dict.empty.set ("agent", "task") (grown config (count + 1)) := by
  have reward : computeQReward (World.steady R) true 0 0 = 1 := by
    unfold computeQReward World.steady
    norm_num
  induction count with
  | zero =>
    show QTable.record config (World.steady R) Dict.empty (Outcome.best R) = _
    rw [QTable.record, Outcome.best, reward]
    rfl
  | succ count ih =>
    have held : getQValue (Dict.empty.set ("agent", "task") (grown config (count + 1)))
        "agent" "task" = grown config (count + 1) := rfl
    have greatest : getMaxQForTask (Dict.empty.set ("agent", "task") (grown config (count + 1)))
        "agent" = grown config (count + 1) := rfl
    rw [List.replicate_succ', List.foldl_append, ih, List.foldl_cons, List.foldl_nil,
      QTable.record, Outcome.best, reward, held, greatest]
    rw [grown, grown, Function.iterate_succ_apply' _ (count + 1)]
    rfl

private theorem add_le_grown (count : Nat) (bounded : ∀ earlier ≤ count, grown config earlier ≤ 1) :
    count * (config.learningRate * config.discountFactor) ≤ grown config count := by
  obtain ⟨rateNonneg, _⟩ := config.learningRate_unit
  obtain ⟨_, factorLe⟩ := config.discountFactor_unit
  induction count with
  | zero =>
    rw [Nat.cast_zero, zero_mul]
    exact qInitialValue_range.1
  | succ count ih =>
    have before := ih fun earlier le => bounded earlier (Nat.le_succ_of_le le)
    have within := bounded count (Nat.le_succ count)
    have target := mul_le_mul_of_nonneg_left within (sub_nonneg.mpr factorLe)
    have moves : config.learningRate * config.discountFactor ≤ config.learningRate *
        (1 + config.discountFactor * grown config count - grown config count) :=
      mul_le_mul_of_nonneg_left (by linarith) rateNonneg
    rw [grown, Function.iterate_succ_apply', ← grown, Scheduler.updateQ]
    push_cast
    linarith

/-- The values stay in range over every sequence of outcomes exactly when nothing is learned
or nothing is expected of the future. -/
theorem inRange_iff [Archimedean R] (config : Config R) :
    (∀ world : World R, world.Decays → ∀ outcomes : List (Outcome R),
      (∀ outcome ∈ outcomes, outcome.Nonneg) →
        InRange (outcomes.foldl (QTable.record config world) Dict.empty)) ↔
      config.learningRate = 0 ∨ config.discountFactor = 0 := by
  constructor
  · intro always
    have bounded (count : Nat) : grown config count ≤ 1 := by
      cases count with
      | zero => exact qInitialValue_range.2
      | succ count =>
        have inRange := always (World.steady R) (fun _ _ => ⟨zero_lt_one, le_rfl⟩)
          (List.replicate (count + 1) (Outcome.best R)) (by
            intro outcome member
            rw [List.eq_of_mem_replicate member]
            exact ⟨le_rfl, le_rfl⟩)
        rw [foldl_best] at inRange
        exact (inRange _ _ (Dict.get?_set_self _ _ _)).2
    by_contra moving
    obtain ⟨rate, factor⟩ := not_or.mp moving
    have gain : 0 < config.learningRate * config.discountFactor :=
      mul_pos (lt_of_le_of_ne config.learningRate_unit.1 (Ne.symm rate))
        (lt_of_le_of_ne config.discountFactor_unit.1 (Ne.symm factor))
    obtain ⟨count, beyond⟩ := Archimedean.arch (2 : R) gain
    have grew := add_le_grown count fun earlier _ => bounded earlier
    rw [nsmul_eq_mul] at beyond
    linarith [bounded count]
  · intro still world decays outcomes nonneg
    induction outcomes using List.reverseRecOn with
    | nil =>
      intro key value found
      cases found
    | append_singleton outcomes outcome ih =>
      rw [List.foldl_append]
      exact InRange.record still decays
        (ih fun other member => nonneg other (List.mem_append_left _ member))
        (nonneg outcome (List.mem_append_right _ (List.mem_singleton_self outcome)))

end Range

/-- The defaults fail the condition, whatever the world. -/
theorem inRange_iff_default :
    ¬ ∀ world : World ℚ, world.Decays → ∀ outcomes : List (Outcome ℚ),
      (∀ outcome ∈ outcomes, outcome.Nonneg) →
        InRange (outcomes.foldl (QTable.record Config.default world) Dict.empty) := by
  intro always
  have still := (inRange_iff Config.default).mp always
  exact absurd still (by decide +kernel)

/-- Four successes of one agent on one task. -/
def successes : List (Call ℚ Unit) :=
  .registerAgent "builder" Dict.empty 1 ::
    (List.replicate 4 [.scheduleTask (TaskSpec.ofId "first" ()),
      .recordOutcome "first" "builder" true 0 0]).flatten

/-- The value after the four successes. -/
theorem discounted_after_successes : Discounted (Config.default : Config ℚ)
    (55216721641 / 51200000000) :=
  discounted_after Config.default (show (World.quiet fun reading => reading).Decays from
    fun _ _ => ⟨zero_lt_one, le_rfl⟩) successes ("builder", "first") _ (by decide +kernel)

/-- The fourth success lifts the value above 1. -/
theorem not_inRange_successes :
    ¬ ∀ (config : Config ℚ) (world : World ℚ), world.Decays → ∀ calls : List (Call ℚ Unit),
      InRange ((machine config world).after config.create calls).qTable := by
  intro always
  have inRange := always Config.default (World.quiet fun reading => reading)
    (fun _ _ => ⟨zero_lt_one, le_rfl⟩) successes
  have beyond : ¬ ∀ value ∈ ((machine Config.default (World.quiet fun reading => reading)).after
      Config.default.create successes).qTable.get? ("builder", "first"), value ≤ 1 := by
    decide +kernel
  exact beyond fun value found => (inRange _ value found).2

end Swarmind.Orchestrator.Mars
