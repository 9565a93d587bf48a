import Mathlib.Data.ZMod.Defs
import Swarmind.AlphaMining.MiningLoop.Loop
import Swarmind.AlphaMining.AlphaZoo.Originality

/-!
Owns the gates of the zoo: a round deposits only what `_gate` has let through,
a search deposits whatever the evaluation accepts. Entries are never removed,
so that the zoo stays gated exactly as long as every deposit of a search is.
-/

namespace Swarmind.AlphaMining.MiningLoop

open Swarmind.Library Swarmind.AlphaMining.FactorDsl Swarmind.AlphaMining.AlphaZoo

/-! ### What a computation deposits -/

namespace Mining

variable {η ν α β : Type}

/-- Whatever the computation adds to the zoo meets the condition. -/
def Deposits (condition : ZooEntry ν → Prop) (computation : Mining η ν α) : Prop :=
  ∀ world, ∃ added,
    (computation world).2.zoo.memory.entries = world.zoo.memory.entries ++ added ∧
      ∀ entry ∈ added, condition entry

/-- The computation may return this value. -/
def Returns (computation : Mining η ν α) (value : α) : Prop :=
  ∃ world, (computation world).1 = .ok value

variable {condition : ZooEntry ν → Prop} {first : Mining η ν α} {next : α → Mining η ν β}

theorem bind_of_ok {world after : World η ν} {value : α}
    (returned : first world = (.ok value, after)) : (first >>= next) world = next value after := by
  change bind first next world = _
  rw [bind, returned]

private theorem bind_of_error {world after : World η ν} {raised : PyException}
    (failed : first world = (.error raised, after)) :
    (first >>= next) world = (.error raised, after) := by
  change bind first next world = _
  rw [bind, failed]

/-- A run that returns did so in its first part and in its second. -/
theorem ok_of_bind {world last : World η ν} {value : β}
    (returned : (first >>= next) world = (.ok value, last)) :
    ∃ middle after, first world = (.ok middle, after) ∧ next middle after = (.ok value, last) := by
  cases outcome : first world with
  | mk result after =>
    cases result with
    | ok middle =>
      rw [bind_of_ok outcome] at returned
      exact ⟨middle, after, rfl, returned⟩
    | error raised =>
      rw [bind_of_error outcome] at returned
      cases returned

private theorem bind_world (returns : ∀ value world, (next value world).2 = world)
    (world : World η ν) :
    ((first >>= next) world).2 = (first world).2 := by
  cases outcome : first world with
  | mk result after =>
    cases result with
    | ok value => rw [bind_of_ok outcome, returns]
    | error raised => rw [bind_of_error outcome]

private theorem lift_ok_bind (value : α) (world : World η ν) :
    (lift (.ok value) >>= next) world = next value world := rfl

private theorem lift_error_bind (raised : PyException) (world : World η ν) :
    (lift (.error raised) >>= next) world = (.error raised, world) := rfl

private theorem eq_of_returns_pure {value other : α}
    (returns : Returns (Pure.pure value : Mining η ν α) other) : value = other := by
  obtain ⟨_, returned⟩ := returns
  exact Except.ok.inj returned

private theorem Deposits.of_unchanged {computation : Mining η ν α}
    (unchanged : ∀ world,
      (computation world).2.zoo.memory.entries = world.zoo.memory.entries) :
    Deposits condition computation :=
  fun world => ⟨[], by rw [unchanged, List.append_nil], fun _ among => by cases among⟩

private theorem Deposits.pure (value : α) : Deposits condition (Pure.pure value : Mining η ν α) :=
  .of_unchanged fun _ => rfl

private theorem Deposits.lift (outcome : Except PyException α) :
    Deposits condition (Mining.lift outcome : Mining η ν α) :=
  .of_unchanged fun _ => rfl

private theorem Deposits.hook (call : η → Except PyException α × η) :
    Deposits condition (Mining.hook call : Mining η ν α) :=
  .of_unchanged fun _ => rfl

private theorem Deposits.getWorld : Deposits condition (Mining.getWorld : Mining η ν (World η ν)) :=
  .of_unchanged fun _ => rfl

private theorem Deposits.bind (before : Deposits condition first)
    (behind : ∀ value, Returns first value → Deposits condition (next value)) :
    Deposits condition (first >>= next) := by
  intro world
  obtain ⟨added, extended, each⟩ := before world
  cases outcome : first world with
  | mk result after =>
    rw [outcome] at extended
    cases result with
    | ok value =>
      obtain ⟨later, extendedLater, eachLater⟩ :=
        behind value ⟨world, by rw [outcome]⟩ after
      refine ⟨added ++ later, ?_, fun entry among => ?_⟩
      · rw [bind_of_ok outcome, extendedLater, extended, List.append_assoc]
      · rcases List.mem_append.mp among with earlier | here
        · exact each entry earlier
        · exact eachLater entry here
    | error raised =>
      refine ⟨added, ?_, each⟩
      rw [bind_of_error outcome, extended]

end Mining

/-! ### Gated expressions -/

section

variable {η ν : Type} (numbers : Numbers ν) (hooks : Hooks η ν) (config : LoopConfig ν)
variable (evaluateFactor : Expr → Except PyException (EvalVerdict ν))

/-- The expression passes the structural gates. -/
structure Gated (expr : Expr) : Prop where
  small : (complexity expr : Int) ≤ config.maxNodes
  allowed : violatesFsa expr config.forbiddenGenes = false

def GatedEntry (entry : ZooEntry ν) : Prop := ∃ expr, entry.Denotes expr ∧ Gated config expr

def AllGated (world : World η ν) : Prop :=
  ∀ entry ∈ world.zoo.memory.entries, GatedEntry config entry

variable {config}

private theorem Gated.strip {expr : Expr} (gated : Gated config expr) :
    Gated config expr.strip where
  small := by
    rw [complexity_strip]
    exact gated.small
  allowed := by
    rw [violatesFsa_strip]
    exact gated.allowed

variable (config)

private theorem denotes_entryFor (expr : Expr) (verdict : EvalVerdict ν) (roundIndex : Int)
    (stored : Expr) :
    (entryFor expr verdict roundIndex).Denotes stored ↔ parseExpr (toDict expr) = .ok stored := by
  obtain ⟨op, field, window, children⟩ := expr
  cases op <;> exact Iff.rfl

variable {world : World η ν}

private theorem allGated_of_deposits {α : Type} {computation : Mining η ν α}
    (deposits : computation.Deposits (GatedEntry config))
    (gated : AllGated config world) : AllGated config (computation world).2 := by
  obtain ⟨added, extended, each⟩ := deposits world
  intro entry among
  rw [extended] at among
  rcases List.mem_append.mp among with earlier | here
  · exact gated entry earlier
  · exact each entry here

private theorem allGated_of_grown {α : Type} {computation : Mining η ν α}
    (grows : computation.Deposits fun _ => True)
    (gated : AllGated config (computation world).2) : AllGated config world := by
  obtain ⟨added, extended, _⟩ := grows world
  intro entry among
  refine gated entry ?_
  rw [extended]
  exact List.mem_append_left _ among

/-! ### The zoo -/

private theorem entries_commit (zoo : Zoo ν) (memory : Memory ν) (record : PyValue)
    (disk : Option PyException) : (commit zoo memory record disk).2.memory = memory := by
  rw [commit]
  split <;> rfl

private theorem entries_zooRecordFailure (formula mode : String) (world : World η ν) :
    (zooRecordFailure hooks formula mode world).2.zoo.memory.entries =
      world.zoo.memory.entries := by
  simp only [zooRecordFailure, recordFailure, entries_commit]
  rfl

private theorem entries_zooAdd (entry : ZooEntry ν) (world : World η ν) :
    (zooAdd numbers hooks config entry world).2.zoo.memory.entries =
      if admits world.zoo.memory entry config.minOriginality = .ok true then
        world.zoo.memory.entries ++ [entry]
      else world.zoo.memory.entries := by
  simp only [zooAdd, add]
  split
  · rename_i outcome
    rw [outcome, if_neg (by simp)]
  · rename_i outcome
    rw [outcome, if_neg (by simp)]
  · rename_i outcome
    rw [outcome, if_pos rfl, entries_commit]
    rfl

variable {condition : ZooEntry ν → Prop}

private theorem deposits_zooRecordFailure (formula mode : String) :
    (zooRecordFailure hooks formula mode : Mining η ν Bool).Deposits condition :=
  .of_unchanged (entries_zooRecordFailure hooks formula mode)

private theorem deposits_zooAdd {entry : ZooEntry ν} (meets : condition entry) :
    (zooAdd numbers hooks config entry : Mining η ν Bool).Deposits condition := by
  intro world
  rw [entries_zooAdd]
  split
  · exact ⟨[entry], rfl, by simpa using meets⟩
  · exact ⟨[], by rw [List.append_nil], fun _ among => by cases among⟩

/-! ### Evaluation -/

/-- What a search would deposit for the expression is gated: an expression that
the evaluation accepts and that the zoo holds nothing similar to. -/
def DepositGated (zoo : Zoo ν) (expr : Expr) : Prop :=
  ∀ verdict stored, evaluateFactor expr = .ok verdict → verdict.accepted = true →
    parseExpr (toDict expr) = .ok stored →
    isSimilar zoo.memory stored config.minOriginality = .ok false → Gated config stored

private theorem allGated_zooAdd_iff {expr : Expr} {verdict : EvalVerdict ν} {roundIndex : Int}
    (gated : AllGated config world) :
    AllGated config (zooAdd numbers hooks config (entryFor expr verdict roundIndex) world).2 ↔
      ∀ stored, parseExpr (toDict expr) = .ok stored →
        isSimilar world.zoo.memory stored config.minOriginality = .ok false →
          Gated config stored := by
  have denotes := denotes_entryFor expr verdict roundIndex
  rw [AllGated, entries_zooAdd]
  constructor
  · intro after stored parsed dissimilar
    have admitted : admits world.zoo.memory (entryFor expr verdict roundIndex)
        config.minOriginality = .ok true := by
      rw [admits, (denotes stored).mpr parsed, Except.bind, dissimilar]
      rfl
    rw [if_pos admitted] at after
    obtain ⟨other, denotesOther, otherGated⟩ := after _
      (List.mem_append_right _ (List.mem_singleton_self _))
    rwa [((denotes stored).mpr parsed).unique denotesOther]
  · intro each
    split
    · rename_i admitted
      obtain ⟨stored, denotesStored, dissimilar⟩ := ok_of_bind admitted
      obtain ⟨similar, found, isNew⟩ := ok_of_map dissimilar
      obtain rfl : similar = false := by simpa using isNew
      have storedGated := each stored ((denotes stored).mp denotesStored) found
      intro entry among
      rcases List.mem_append.mp among with earlier | here
      · exact gated entry earlier
      · rw [List.mem_singleton.mp here]
        exact ⟨stored, denotesStored, storedGated⟩
    · exact gated

section

variable [Zero ν]

private theorem evaluateInto_world (expr : Expr) (world : World η ν) :
    (evaluateInto numbers hooks config evaluateFactor expr world).2 =
      match evaluateFactor expr with
      | .ok verdict =>
        if verdict.accepted then (zooAdd numbers hooks config (entryFor expr verdict 0) world).2
        else world
      | .error _ => world := by
  rw [evaluateInto]
  cases outcome : evaluateFactor expr with
  | error raised => rw [Mining.lift_error_bind]
  | ok verdict =>
    rw [Mining.lift_ok_bind]
    by_cases accepted : verdict.accepted = true
    · rw [if_pos accepted, Mining.bind_world fun _ _ => rfl]
      exact (if_pos accepted).symm
    · rw [if_neg accepted]
      exact (if_neg accepted).symm

private theorem allGated_evaluateInto_iff {expr : Expr} {world : World η ν}
    (gated : AllGated config world) :
    AllGated config (evaluateInto numbers hooks config evaluateFactor expr world).2 ↔
      DepositGated config evaluateFactor world.zoo expr := by
  rw [evaluateInto_world, DepositGated]
  cases outcome : evaluateFactor expr with
  | error raised => exact iff_of_true gated fun _ _ impossible => by cases impossible
  | ok verdict =>
    by_cases accepted : verdict.accepted = true
    · simp only [accepted, if_true]
      rw [allGated_zooAdd_iff numbers hooks config gated]
      constructor
      · intro each other stored same _
        exact each stored
      · intro each stored
        exact each verdict stored rfl accepted
    · simp only [accepted]
      refine iff_of_true gated fun other _ same otherAccepted => ?_
      obtain rfl := Except.ok.inj same
      exact absurd otherAccepted accepted

private theorem grows_evaluateInto (expr : Expr) :
    (evaluateInto numbers hooks config evaluateFactor expr).Deposits fun _ => True := by
  refine .bind (.lift _) fun verdict _ => ?_
  split
  · exact .bind (deposits_zooAdd numbers hooks config trivial) fun _ _ => .pure _
  · exact .pure _

private theorem allGated_startSearch_iff {seed : Expr} {world : World η ν}
    (gated : AllGated config world) :
    AllGated config (startSearch numbers hooks config evaluateFactor seed world).2 ↔
      DepositGated config evaluateFactor world.zoo seed := by
  rw [← allGated_evaluateInto_iff numbers hooks config evaluateFactor gated, startSearch,
    Mining.bind_world fun _ _ => rfl]

end

/-! ### Rounds -/

private theorem deposits_constructExpr (context : MiningContext) (blueprint : String) :
    (constructExpr hooks context blueprint : Mining η ν _).Deposits condition := by
  refine .of_unchanged fun world => ?_
  simp only [constructExpr]
  split
  · rfl
  · split <;> rfl

private theorem valid_of_constructExpr {context : MiningContext} {blueprint : String} {expr : Expr}
    (returns : (constructExpr hooks context blueprint : Mining η ν _).Returns (.ok expr)) :
    expr.Valid := by
  obtain ⟨world, returned⟩ := returns
  simp only [constructExpr] at returned
  split at returned
  · rename_i parsed outcome
    obtain rfl := Except.ok.inj (Except.ok.inj returned)
    obtain ⟨data, _, accepted⟩ := ok_of_bind outcome
    exact (valid_of_parseExpr data parsed accepted).1
  · split at returned
    · exact absurd (Except.ok.inj returned) (by nofun)
    · cases returned

private theorem complexityReason_ne_empty (nodes : Nat) : complexityReason config nodes ≠ "" := by
  intro empty
  have characters := congrArg String.toList empty
  simp [complexityReason, toString] at characters

private theorem deposits_remember (reason : String) :
    (remember reason : Mining η ν Unit).Deposits condition := by
  refine .of_unchanged fun world => ?_
  rw [remember]
  split <;> rfl

private theorem deposits_diversifiedInit (roundIndex : Int) (variant remaining : Nat) :
    (diversifiedInit hooks roundIndex variant remaining : Mining η ν _).Deposits condition := by
  induction remaining generalizing variant with
  | zero => exact .pure _
  | succ remaining ih =>
    exact .bind (.hook _) fun _ _ => .bind (ih _) fun _ _ => .pure _

variable [LT ν] [DecidableLT ν]

private theorem deposits_alignGate (expr : Expr) (hypothesis : String) :
    (alignGate numbers hooks expr hypothesis).Deposits condition := by
  rw [alignGate]
  split
  · exact .pure _
  · refine .bind (.hook _) fun score _ => ?_
    split <;> exact .pure _

private theorem deposits_gate (expr : Expr) (hypothesis : String) :
    (gate numbers hooks config expr hypothesis).Deposits condition := by
  rw [gate]
  split
  · exact .pure _
  · split
    · exact .pure _
    · refine .bind .getWorld fun world _ => .bind (.lift _) fun similar _ => ?_
      split
      · exact .pure _
      · exact deposits_alignGate numbers hooks expr hypothesis

private theorem gated_of_gate {expr : Expr} {hypothesis : String}
    (returns : (gate numbers hooks config expr hypothesis).Returns "") : Gated config expr := by
  rw [gate] at returns
  split at returns
  · exact absurd (Mining.eq_of_returns_pure returns) (complexityReason_ne_empty config _)
  · rename_i small
    split at returns
    · exact absurd (Mining.eq_of_returns_pure returns) (by decide)
    · rename_i allowed
      exact ⟨Int.not_lt.mp small, Bool.not_eq_true _ ▸ allowed⟩

private theorem deposits_process (context : MiningContext) :
    (process numbers hooks config evaluateFactor context).Deposits (GatedEntry config) := by
  refine .bind (deposits_constructExpr hooks context _) fun constructed returned => ?_
  cases constructed with
  | error exc => exact .pure _
  | ok expr =>
    have valid := valid_of_constructExpr hooks returned
    refine .bind (deposits_gate numbers hooks config expr _) fun reason gateReturned => ?_
    split
    · exact .bind (deposits_zooRecordFailure hooks _ _) fun _ _ => .pure _
    · rename_i silent
      obtain rfl := Decidable.not_not.mp silent
      have gated := gated_of_gate numbers hooks config gateReturned
      refine .bind (.lift _) fun verdict _ => ?_
      split
      · exact .bind (deposits_zooRecordFailure hooks _ _) fun _ _ => .pure _
      · have entryGated : GatedEntry config (entryFor expr verdict context.roundIndex) :=
          ⟨expr.strip, (denotes_entryFor expr verdict _ _).mpr (Expr.parseExpr_toDict valid),
            gated.strip⟩
        refine .bind (deposits_zooAdd numbers hooks config entryGated) fun added _ => ?_
        split
        · exact .pure _
        · exact .bind (deposits_zooRecordFailure hooks _ _) fun _ _ => .pure _

private theorem deposits_runPlans (roundIndex : Int) (plans : List String) :
    (runPlans numbers hooks config evaluateFactor roundIndex plans).Deposits
      (GatedEntry config) := by
  induction plans with
  | nil => exact .pure _
  | cons hypothesis rest ih =>
    refine .bind .getWorld fun world _ =>
      .bind (deposits_process numbers hooks config evaluateFactor _) fun processed _ => ?_
    split
    · exact .bind ih fun _ _ => .pure _
    · exact .bind (deposits_remember _) fun _ _ => .bind ih fun _ _ => .pure _

private theorem deposits_runRound (roundIndex : Int) (hypotheses : List String) :
    (runRound numbers hooks config evaluateFactor roundIndex hypotheses).Deposits
      (GatedEntry config) := by
  rw [runRound]
  split
  · exact .bind (deposits_diversifiedInit hooks _ _ _) fun plans _ =>
      deposits_runPlans numbers hooks config evaluateFactor _ plans
  · exact .bind (.pure _) fun plans _ =>
      deposits_runPlans numbers hooks config evaluateFactor _ plans

/-! ### Search -/

variable [Zero ν] [Add ν] [Mul ν] [Div ν] [NatCast ν]

omit [Zero ν] in
private theorem deposits_nextExpr (search : Search ν) :
    (nextExpr numbers hooks config search).Deposits condition := by
  rw [nextExpr]
  split
  · exact .lift _
  · split
    · exact .lift _
    · refine .bind ?_ fun expr _ => .pure _
      refine .bind (deposits_constructExpr hooks _ _) fun constructed _ => ?_
      split <;> exact .pure _

private theorem grows_iterate (search : Search ν) :
    (iterate numbers hooks config evaluateFactor search).Deposits fun _ => True :=
  .bind (deposits_nextExpr numbers hooks config search) fun _ _ =>
    .bind (grows_evaluateInto numbers hooks config evaluateFactor _) fun _ _ => .pure _

private theorem grows_iterations (count : Nat) (search : Search ν) :
    (iterations numbers hooks config evaluateFactor count search).Deposits fun _ => True := by
  induction count generalizing search with
  | zero => exact .pure _
  | succ count ih =>
    exact .bind (grows_iterate numbers hooks config evaluateFactor search) fun next _ =>
      ih next

/-- The condition of one iteration: on the expression it comes to evaluate. -/
def IterationGated (search : Search ν) (world : World η ν) : Prop :=
  match nextExpr numbers hooks config search world with
  | (.ok (_, expr), after) => DepositGated config evaluateFactor after.zoo expr
  | (.error _, _) => True

def IterationsGated : Nat → Search ν → World η ν → Prop
  | 0, _, _ => True
  | count + 1, search, world =>
    IterationGated numbers hooks config evaluateFactor search world ∧
      match iterate numbers hooks config evaluateFactor search world with
      | (.ok next, after) => IterationsGated count next after
      | (.error _, _) => True

/-- The condition of a search: on its seed and its iterations. -/
def SearchGated (seed : Expr) (count : Int) (world : World η ν) : Prop :=
  DepositGated config evaluateFactor world.zoo seed ∧
    match startSearch numbers hooks config evaluateFactor seed world with
    | (.ok started, after) =>
      IterationsGated numbers hooks config evaluateFactor count.toNat started after
    | (.error _, _) => True

private theorem allGated_iterate_iff {search : Search ν} (gated : AllGated config world) :
    AllGated config (iterate numbers hooks config evaluateFactor search world).2 ↔
      IterationGated numbers hooks config evaluateFactor search world := by
  rw [iterate, IterationGated]
  have next := allGated_of_deposits config (deposits_nextExpr numbers hooks config search) gated
  cases outcome : nextExpr numbers hooks config search world with
  | mk result after =>
    rw [outcome] at next
    cases result with
    | error raised =>
      rw [Mining.bind_of_error outcome]
      exact iff_of_true next trivial
    | ok chosen =>
      rw [Mining.bind_of_ok outcome]
      refine Iff.trans (iff_of_eq (congrArg (AllGated config) ?_))
        (allGated_evaluateInto_iff numbers hooks config evaluateFactor next)
      exact Mining.bind_world (fun _ _ => rfl) after

private theorem allGated_iterations_iff (count : Nat) {search : Search ν}
    (gated : AllGated config world) :
    AllGated config (iterations numbers hooks config evaluateFactor count search world).2 ↔
      IterationsGated numbers hooks config evaluateFactor count search world := by
  induction count generalizing search world with
  | zero => exact iff_of_true gated trivial
  | succ count ih =>
    have first : AllGated config (iterate numbers hooks config evaluateFactor search world).2 ↔
        IterationGated numbers hooks config evaluateFactor search world :=
      allGated_iterate_iff numbers hooks config evaluateFactor gated
    rw [iterations, IterationsGated, ← first]
    cases outcome : iterate numbers hooks config evaluateFactor search world with
    | mk result after =>
      cases result with
      | error raised =>
        rw [Mining.bind_of_error outcome]
        exact (and_iff_left trivial).symm
      | ok next =>
        rw [Mining.bind_of_ok outcome]
        constructor
        · intro last
          have middle := allGated_of_grown config
            (grows_iterations numbers hooks config evaluateFactor count next) last
          exact ⟨middle, (ih middle).mp last⟩
        · rintro ⟨middle, rest⟩
          exact (ih middle).mpr rest

private theorem allGated_searchMcts_iff {seed : Expr} {count : Int}
    (gated : AllGated config world) :
    AllGated config (searchMcts numbers hooks config evaluateFactor seed count world).2 ↔
      SearchGated numbers hooks config evaluateFactor seed count world := by
  have first : AllGated config (startSearch numbers hooks config evaluateFactor seed world).2 ↔
      DepositGated config evaluateFactor world.zoo seed :=
    allGated_startSearch_iff numbers hooks config evaluateFactor gated
  rw [searchMcts, SearchGated, ← first]
  cases outcome : startSearch numbers hooks config evaluateFactor seed world with
  | mk result after =>
    cases result with
    | error raised =>
      rw [Mining.bind_of_error outcome]
      exact (and_iff_left trivial).symm
    | ok started =>
      rw [Mining.bind_of_ok outcome, Mining.bind_world fun search after => by
        cases search.nodes <;> rfl]
      constructor
      · intro last
        have middle := allGated_of_grown config
          (grows_iterations numbers hooks config evaluateFactor _ started) last
        exact ⟨middle, (allGated_iterations_iff numbers hooks config evaluateFactor _
          middle).mp last⟩
      · rintro ⟨middle, rest⟩
        exact (allGated_iterations_iff numbers hooks config evaluateFactor _ middle).mpr rest

/-! ### Runs -/

inductive Call where
  | runRound (roundIndex : Int) (hypotheses : List String)
  | searchMcts (seed : Expr) (count : Int)

/-- What a call returns. -/
inductive Report (ν : Type) where
  | round (accepted : List (ZooEntry ν)) (rejected : List (String × String))
  | search (result : MCTSResult ν)

def step (world : World η ν) : Call → Except PyException (Report ν) × World η ν
  | .runRound roundIndex hypotheses =>
    (runRound numbers hooks config evaluateFactor roundIndex hypotheses >>= fun report =>
      pure (Report.round report.1 report.2)) world
  | .searchMcts seed count =>
    (searchMcts numbers hooks config evaluateFactor seed count >>= fun result =>
      pure (Report.search result)) world

def machine : Machine (World η ν) Call (Except PyException (Report ν)) where
  step := step numbers hooks config evaluateFactor

/-- A new loop on an empty zoo. -/
def World.fresh (hidden : η) : World η ν := { hidden, zoo := .fresh, feedback := [] }

def CallGated (world : World η ν) : Call → Prop
  | .runRound _ _ => True
  | .searchMcts seed count => SearchGated numbers hooks config evaluateFactor seed count world

private theorem allGated_step_iff (gated : AllGated config world) (call : Call) :
    AllGated config (step numbers hooks config evaluateFactor world call).2 ↔
      CallGated numbers hooks config evaluateFactor world call := by
  cases call with
  | runRound roundIndex hypotheses =>
    rw [step, Mining.bind_world fun _ _ => rfl]
    exact iff_of_true (allGated_of_deposits config
      (deposits_runRound numbers hooks config evaluateFactor roundIndex hypotheses) gated) trivial
  | searchMcts seed count =>
    rw [step, Mining.bind_world fun _ _ => rfl]
    exact allGated_searchMcts_iff numbers hooks config evaluateFactor gated

/-- In every run from an empty zoo, the zoo holds gated expressions only exactly
as long as every expression that a search comes to deposit is gated. -/
theorem allGated_along_iff (hidden : η) (calls : List Call) :
    (∀ before rest, calls = before ++ rest →
        AllGated config
          ((machine numbers hooks config evaluateFactor).after (.fresh hidden) before)) ↔
      (machine numbers hooks config evaluateFactor).Along
        (CallGated numbers hooks config evaluateFactor) (.fresh hidden) calls := by
  have fresh : AllGated config (World.fresh hidden : World η ν) := fun _ among => by cases among
  have exact_step : ∀ (world : World η ν) call, AllGated config world →
      (AllGated config ((machine numbers hooks config evaluateFactor).step world call).2 ↔
        CallGated numbers hooks config evaluateFactor world call) :=
    fun _ call gated => allGated_step_iff numbers hooks config evaluateFactor gated call
  exact Machine.always_iff_along_of_exact _ exact_step fresh calls

end

/-! ### A seed with a forbidden motif -/

def zero : WithBot (Fin 2) := some ⟨0, Nat.two_pos⟩

def one : WithBot (Fin 2) := some ⟨1, Nat.one_lt_two⟩

/-- Floats that are `-inf`, `0.0` or `1.0`. -/
def binaryNumbers : Numbers (WithBot (Fin 2)) where
  repr number := if number = ⊥ then "-inf" else if number = zero then "0.0" else "1.0"
  ofValue value :=
    if value.text = "-inf" then .ok ⊥
    else if value.text = "0.0" then .ok zero
    else if value.text = "1.0" then .ok one
    else .error (.valueError s!"could not convert string to float: {value.repr}")
  isFloatText_repr := WithBot.forall.mpr (by decide +kernel)
  ofValue_repr := WithBot.forall.mpr (by decide +kernel)
  log := id
  sqrt := id
  minusInf := ⊥
  alignmentMin := one
  fixed2 number := if number = ⊥ then "-inf" else if number = zero then "0.00" else "1.00"

local instance twoPointsMul : Mul (WithBot (Fin 2)) := ⟨WithBot.map₂ (· * ·)⟩

local instance twoPointsDiv : Div (WithBot (Fin 2)) := ⟨WithBot.map₂ (· / ·)⟩

local instance twoPointsCast : NatCast (WithBot (Fin 2)) :=
  ⟨fun number => if number % 2 = 0 then zero else one⟩

def closeHooks : Hooks Unit (WithBot (Fin 2)) where
  signal _ _ hidden := (.ok "momentum", hidden)
  construct _ _ hidden := (.ok (toDict (.leaf .close)), hidden)
  align := none
  disk hidden := (none, hidden)

/-- A configuration that forbids the motif `rank(close)`. -/
def crowdedConfig : LoopConfig (WithBot (Fin 2)) where
  poolSize := 3
  exploration := one
  minOriginality := defaultMinOriginality
  maxNodes := 20
  branching := 2
  forbiddenGenes := [abstractGene Expr.rankClose]

def acceptEvery : Expr → Except PyException (EvalVerdict (WithBot (Fin 2))) :=
  fun _ => .ok { accepted := true, score := one, rankIc := one, reasons := [] }

/-- A search from `rank(close)` puts it into the zoo though its motif is forbidden. -/
theorem not_allGated_of_search :
    ¬∀ calls : List Call, AllGated crowdedConfig
      ((machine binaryNumbers closeHooks crowdedConfig acceptEvery).after (.fresh ()) calls) := by
  intro gated
  have fresh : AllGated crowdedConfig (World.fresh () : World Unit (WithBot (Fin 2))) :=
    fun _ among => by cases among
  have searched := (allGated_step_iff binaryNumbers closeHooks crowdedConfig acceptEvery fresh
    (.searchMcts Expr.rankClose 0)).mp (gated [.searchMcts Expr.rankClose 0])
  have stored : Gated crowdedConfig Expr.rankClose :=
    searched.1 _ Expr.rankClose rfl rfl rfl rfl
  exact absurd stored.allowed (by decide +kernel)

end Swarmind.AlphaMining.MiningLoop
