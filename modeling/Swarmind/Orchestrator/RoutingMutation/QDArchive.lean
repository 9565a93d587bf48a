import Swarmind.Library.Dict
import Swarmind.Library.Runs
import Swarmind.Orchestrator.RoutingMutation.Genome

/-!
Owns the quality-diversity archive and what sequences of evaluations leave in it. A variant
is accepted by one test and inserted by another, so an accepted variant may not be archived.
-/

namespace Swarmind.Orchestrator.RoutingMutation

open Swarmind.Library

section

variable {F : Type} [Floating F]

variable (F) in
structure ScoredGenome where
  genome : RoutingGenome F
  fitness : F
  descriptor : String
  novelty : F

variable (F) in
structure ArchiveDecision where
  accepted : Bool
  reason : String
  scored : Option (ScoredGenome F)

variable (F) in
structure EvaluationContext where
  allowlist : SafetyAllowlist
  costBucket : String
  depthBucket : String
  baselineFitness : F
  baselineFailures : List String
  observedFailures : List String
  lambdaCost : F
  muLatency : F
  nuNovelty : F

/-! ### The archive -/

variable (F) in
abbrev QDArchive : Type := Dict String (ScoredGenome F)

namespace QDArchive

def add (niches : QDArchive F) (scored : ScoredGenome F) : Bool × QDArchive F :=
  match niches.get? scored.descriptor with
  | some existing =>
    if scored.fitness ≤ existing.fitness then (false, niches)
    else (true, niches.set scored.descriptor scored)
  | none => (true, niches.set scored.descriptor scored)

/-- `novelty`: the mean distance to the archived genomes. -/
def novelty (niches : QDArchive F) (genome : RoutingGenome F) : F :=
  if niches.entries = [] then 0.0
  else
    let distances := niches.values.map fun scored => genomeDistance genome scored.genome
    Floating.sum distances / (distances.length : F)

end QDArchive

/-! ### Evaluation -/

def compositeFitness (env : Environment F) (quality cost latency novelty : F)
    (context : EvaluationContext F) : Except PyException F :=
  if cost < 0.0 ∨ latency < 0.0 then
    .error (.valueError (s!"WHAT: cost/latency negativos (cost={env.shown cost}, " ++
      s!"latency={env.shown latency}). " ++
      "WHY: solo se penaliza coste/latencia no negativos. " ++
      "WHERE: routing_mutation._composite_fitness"))
  else
    .ok (quality - context.lambdaCost * cost - context.muLatency * latency +
      context.nuNovelty * novelty)

/-- Some observed failure is not one of the baseline's. -/
def newFailure (context : EvaluationContext F) : Bool :=
  context.observedFailures.any fun failure => failure ∉ context.baselineFailures

def isHealthyVariant (archive : QDArchive F) (scored : ScoredGenome F)
    (context : EvaluationContext F) : Bool :=
  match archive.get? scored.descriptor with
  | none => true
  | some existing =>
    if existing.fitness < scored.fitness then true
    else if context.baselineFitness < scored.fitness then true
    else newFailure context

def equivalentReason : String :=
  "DESCARTADA: variante equivalente; no mejora el baseline, no cubre un " ++
    "nicho nuevo ni expone un fallo (analogia mutation testing)."

def archivedReason : String := "ARCHIVADA: variante sana (nueva, mejor o senal de fallo)."

variable (F) in
/-- A call of `evaluate_and_archive`. -/
structure Call where
  genome : RoutingGenome F
  quality : F
  cost : F
  latency : F
  context : EvaluationContext F

/-- The variant as it is scored against an archive. -/
def score (env : Environment F) (archive : QDArchive F) (call : Call F) :
    Except PyException (ScoredGenome F) :=
  (behaviorDescriptor call.genome call.context.costBucket call.context.depthBucket).bind
    fun descriptor =>
      let novelty := archive.novelty call.genome
      (compositeFitness env call.quality call.cost call.latency novelty call.context).map
        fun fitness => ⟨call.genome, fitness, descriptor, novelty⟩

def evaluateAndArchive (env : Environment F) (archive : QDArchive F) (call : Call F) :
    Except PyException (ArchiveDecision F) × QDArchive F :=
  let gate := isSafe env call.genome call.context.allowlist
  if gate.1 = false then
    (.ok { accepted := false, reason := gate.2, scored := none }, archive)
  else
    match score env archive call with
    | .error exc => (.error exc, archive)
    | .ok scored =>
      if isHealthyVariant archive scored call.context = false then
        (.ok { accepted := false, reason := equivalentReason, scored := some scored }, archive)
      else
        (.ok { accepted := true, reason := archivedReason, scored := some scored },
          (archive.add scored).2)

def machine (env : Environment F) :
    Machine (QDArchive F) (Call F) (Except PyException (ArchiveDecision F)) where
  step archive call := evaluateAndArchive env archive call

/-! ### What is promised -/

variable (F) in
/-- Calls with what they returned. -/
abbrev History : Type := List (Call F × Except PyException (ArchiveDecision F))

/-- The variant that a reply says was accepted. -/
def acceptedOf : Except PyException (ArchiveDecision F) → Option (ScoredGenome F)
  | .ok decision => if decision.accepted then decision.scored else none
  | .error _ => none

/-- The variants of a niche that were accepted. -/
def acceptedIn (descriptor : String) (history : History F) : List (ScoredGenome F) :=
  (history.filterMap fun reply => acceptedOf reply.2).filter fun scored =>
    scored.descriptor = descriptor

/-- The first of the variants of maximal fitness. -/
def Foremost (variants : List (ScoredGenome F)) (held : ScoredGenome F) : Prop :=
  ∃ before after, variants = before ++ held :: after ∧
    (∀ other ∈ before, other.fitness < held.fitness) ∧
      ∀ other ∈ after, other.fitness ≤ held.fitness

/-- Each niche holds the first of its best accepted variants, and each archived genome was safe
for the call that brought it. -/
structure Elite (env : Environment F) (archive : QDArchive F) (history : History F) : Prop where
  foremost : ∀ descriptor held, archive.get? descriptor = some held →
    Foremost (acceptedIn descriptor history) held
  unoccupied : ∀ descriptor, archive.get? descriptor = none → acceptedIn descriptor history = []
  safe : ∀ descriptor held, archive.get? descriptor = some held →
    ∃ reply ∈ history, acceptedOf reply.2 = some held ∧ reply.1.genome = held.genome ∧
      (isSafe env held.genome reply.1.context.allowlist).1 = true

/-- A decision says what became of the archive, and no niche gets worse or empty. -/
structure Faithful (env : Environment F) (archive : QDArchive F) (call : Call F) : Prop where
  accepted : ∀ decision, (evaluateAndArchive env archive call).1 = .ok decision →
    (decision.accepted = true ↔ (evaluateAndArchive env archive call).2 ≠ archive ∧
      ∃ scored, decision.scored = some scored ∧
        (evaluateAndArchive env archive call).2.get? scored.descriptor = some scored)
  refused : ∀ decision, (evaluateAndArchive env archive call).1 = .ok decision →
    decision.accepted = false → (evaluateAndArchive env archive call).2 = archive
  kept : ∀ descriptor held, archive.get? descriptor = some held →
    ∃ next, (evaluateAndArchive env archive call).2.get? descriptor = some next ∧
      (next = held ∨ held.fitness < next.fitness)

/-- A variant that beats the baseline or shows a new failure also beats its niche. -/
def Improves (env : Environment F) (archive : QDArchive F) (call : Call F) : Prop :=
  ∀ scored existing, (isSafe env call.genome call.context.allowlist).1 = true →
    score env archive call = .ok scored → archive.get? scored.descriptor = some existing →
      (call.context.baselineFitness < scored.fitness ∨ newFailure call.context = true) →
        existing.fitness < scored.fitness

/-! ### One call -/

private theorem score_genome {env : Environment F} {archive : QDArchive F} {call : Call F}
    {scored : ScoredGenome F} (returned : score env archive call = .ok scored) :
    scored.genome = call.genome := by
  obtain ⟨descriptor, _, rest⟩ := ok_of_bind returned
  obtain ⟨fitness, _, rfl⟩ := ok_of_map rest
  rfl

private theorem evaluateAndArchive_cases (env : Environment F) (archive : QDArchive F)
    (call : Call F) :
    (acceptedOf (evaluateAndArchive env archive call).1 = none ∧
        (evaluateAndArchive env archive call).2 = archive ∧
        (∀ decision, (evaluateAndArchive env archive call).1 = .ok decision →
          decision.accepted = false) ∧ Improves env archive call) ∨
      ∃ scored, score env archive call = .ok scored ∧
        (isSafe env call.genome call.context.allowlist).1 = true ∧
        isHealthyVariant archive scored call.context = true ∧
        evaluateAndArchive env archive call =
          (.ok { accepted := true, reason := archivedReason, scored := some scored },
            (archive.add scored).2) := by
  unfold evaluateAndArchive
  dsimp only
  cases gate : (isSafe env call.genome call.context.allowlist).1 with
  | false =>
    left
    refine ⟨rfl, rfl, ?_, fun _ _ safe => ?_⟩
    · rintro decision ⟨⟩
      rfl
    · rw [gate] at safe
      cases safe
  | true =>
    rw [if_neg (by decide)]
    cases scoring : score env archive call with
    | error exc =>
      left
      refine ⟨rfl, rfl, ?_, fun _ _ _ returned => ?_⟩
      · rintro decision ⟨⟩
      · rw [scoring] at returned
        cases returned
    | ok scored =>
      dsimp only
      cases healthy : isHealthyVariant archive scored call.context with
      | true =>
        rw [if_neg (by decide)]
        exact .inr ⟨scored, rfl, rfl, healthy, rfl⟩
      | false =>
        left
        rw [if_pos rfl]
        refine ⟨rfl, rfl, ?_, fun other existing _ returned held reason => ?_⟩
        · rintro decision ⟨⟩
          rfl
        · rw [scoring] at returned
          cases returned
          by_contra worse
          rw [isHealthyVariant, held] at healthy
          dsimp only at healthy
          rw [if_neg worse] at healthy
          rcases reason with better | fails
          · rw [if_pos better] at healthy
            cases healthy
          · rw [fails] at healthy
            split at healthy <;> cases healthy

private theorem acceptedIn_append (descriptor : String) (history : History F)
    (reply : Call F × Except PyException (ArchiveDecision F)) :
    acceptedIn descriptor (history ++ [reply]) =
      match acceptedOf reply.2 with
      | some scored =>
        if scored.descriptor = descriptor then acceptedIn descriptor history ++ [scored]
        else acceptedIn descriptor history
      | none => acceptedIn descriptor history := by
  unfold acceptedIn
  rw [List.filterMap_append, List.filter_append]
  cases reported : acceptedOf reply.2 with
  | none => simp [reported]
  | some scored =>
    by_cases same : scored.descriptor = descriptor <;> simp [reported, same]

private theorem acceptedIn_archived (descriptor : String) (history : History F) (call : Call F)
    (scored : ScoredGenome F) :
    acceptedIn descriptor (history ++
        [(call, .ok { accepted := true, reason := archivedReason, scored := some scored })]) =
      if scored.descriptor = descriptor then acceptedIn descriptor history ++ [scored]
      else acceptedIn descriptor history :=
  acceptedIn_append descriptor history _

section Step

variable {env : Environment F} {archive : QDArchive F} {history : History F} {call : Call F}

private theorem Elite.refused (elite : Elite env archive history)
    (nothing : acceptedOf (evaluateAndArchive env archive call).1 = none)
    (same : (evaluateAndArchive env archive call).2 = archive)
    (refused : ∀ decision, (evaluateAndArchive env archive call).1 = .ok decision →
      decision.accepted = false) :
    Elite env (evaluateAndArchive env archive call).2
        (history ++ [(call, (evaluateAndArchive env archive call).1)]) ∧
      Faithful env archive call := by
  rw [same]
  refine ⟨⟨?_, ?_, ?_⟩, ⟨?_, fun _ _ _ => same, ?_⟩⟩
  · intro descriptor held found
    rw [acceptedIn_append, nothing]
    exact elite.foremost descriptor held found
  · intro descriptor empty
    rw [acceptedIn_append, nothing]
    exact elite.unoccupied descriptor empty
  · intro descriptor held found
    obtain ⟨reply, among, rest⟩ := elite.safe descriptor held found
    exact ⟨reply, List.mem_append_left _ among, rest⟩
  · intro decision returned
    rw [refused decision returned, same]
    exact iff_of_false Bool.false_ne_true fun changed => changed.1 rfl
  · intro descriptor held found
    exact ⟨held, by rwa [same], .inl rfl⟩

variable {scored : ScoredGenome F}

private theorem Elite.beats (elite : Elite env archive history)
    (best : ∀ existing, archive.get? scored.descriptor = some existing →
      existing.fitness < scored.fitness) :
    ∀ other ∈ acceptedIn scored.descriptor history, other.fitness < scored.fitness := by
  intro other among
  cases held : archive.get? scored.descriptor with
  | none =>
    rw [elite.unoccupied _ held] at among
    exact absurd among List.not_mem_nil
  | some existing =>
    have less := best existing held
    obtain ⟨before, after, split, earlier, later⟩ := elite.foremost _ existing held
    rw [split, List.mem_append, List.mem_cons] at among
    rcases among with first | rfl | last
    · exact Floating.lt_trans (earlier other first) less
    · exact less
    · exact Floating.lt_of_le_of_lt (later other last) less

private theorem Elite.archived (elite : Elite env archive history)
    (scoring : score env archive call = .ok scored)
    (safe : (isSafe env call.genome call.context.allowlist).1 = true)
    (moved : evaluateAndArchive env archive call =
      (.ok { accepted := true, reason := archivedReason, scored := some scored },
        archive.set scored.descriptor scored))
    (best : ∀ existing, archive.get? scored.descriptor = some existing →
      existing.fitness < scored.fitness) :
    Elite env (evaluateAndArchive env archive call).2
      (history ++ [(call, (evaluateAndArchive env archive call).1)]) := by
  rw [moved]
  refine ⟨?_, ?_, ?_⟩
  · intro descriptor held found
    rw [acceptedIn_archived]
    by_cases same : scored.descriptor = descriptor
    · subst same
      rw [Dict.get?_set_self, Option.some.injEq] at found
      subst found
      rw [if_pos rfl]
      exact ⟨_, [], rfl, elite.beats best, fun _ none => absurd none List.not_mem_nil⟩
    · rw [Dict.get?_set_of_ne _ _ same] at found
      rw [if_neg same]
      exact elite.foremost descriptor held found
  · intro descriptor empty
    rw [acceptedIn_archived]
    by_cases same : scored.descriptor = descriptor
    · rw [same, Dict.get?_set_self] at empty
      cases empty
    · rw [Dict.get?_set_of_ne _ _ same] at empty
      rw [if_neg same]
      exact elite.unoccupied descriptor empty
  · intro descriptor held found
    by_cases same : scored.descriptor = descriptor
    · subst same
      rw [Dict.get?_set_self, Option.some.injEq] at found
      subst found
      have genome := score_genome scoring
      exact ⟨_, List.mem_append_right _ (List.mem_singleton_self _), rfl, genome.symm,
        by rw [genome]; exact safe⟩
    · rw [Dict.get?_set_of_ne _ _ same] at found
      obtain ⟨reply, among, rest⟩ := elite.safe descriptor held found
      exact ⟨reply, List.mem_append_left _ among, rest⟩

private theorem faithful_archived (moved : evaluateAndArchive env archive call =
      (.ok { accepted := true, reason := archivedReason, scored := some scored },
        archive.set scored.descriptor scored))
    (best : ∀ existing, archive.get? scored.descriptor = some existing →
      existing.fitness < scored.fitness) :
    Faithful env archive call := by
  have changed : archive.set scored.descriptor scored ≠ archive := by
    intro same
    have found : archive.get? scored.descriptor = some scored := by
      rw [← same, Dict.get?_set_self]
    exact Floating.lt_irrefl _ (best scored found)
  constructor
  · rw [moved]
    rintro decision ⟨⟩
    exact iff_of_true rfl ⟨changed, scored, rfl, Dict.get?_set_self _ _ _⟩
  · rw [moved]
    rintro decision ⟨⟩ refused
    cases refused
  · intro descriptor held found
    rw [moved]
    by_cases same : scored.descriptor = descriptor
    · subst same
      exact ⟨scored, Dict.get?_set_self _ _ _, .inr (best held found)⟩
    · exact ⟨held, by rw [Dict.get?_set_of_ne _ _ same, found], .inl rfl⟩

private theorem Elite.not_archived (elite : Elite env archive history)
    {scored existing : ScoredGenome F}
    (moved : evaluateAndArchive env archive call =
      (.ok { accepted := true, reason := archivedReason, scored := some scored },
        (archive.add scored).2))
    (held : archive.get? scored.descriptor = some existing)
    (worse : ¬existing.fitness < scored.fitness)
    (next : Elite env (evaluateAndArchive env archive call).2
      (history ++ [(call, (evaluateAndArchive env archive call).1)]))
    (faithful : Faithful env archive call) : False := by
  have accepted := (faithful.accepted _ (by rw [moved])).mp rfl
  rw [moved] at accepted next
  obtain ⟨changed, _, _⟩ := accepted
  by_cases within : scored.fitness ≤ existing.fitness
  · rw [QDArchive.add, held] at changed
    dsimp only at changed
    rw [if_pos within] at changed
    exact changed rfl
  · have added : (archive.add scored).2 = archive.set scored.descriptor scored := by
      rw [QDArchive.add, held]
      dsimp only
      rw [if_neg within]
    rw [added] at changed next
    -- the niche holds `scored`, so the earlier best is before or behind it
    obtain ⟨before, after, split, earlier, later⟩ :=
      next.foremost scored.descriptor scored (Dict.get?_set_self _ _ _)
    rw [acceptedIn_archived, if_pos rfl] at split
    have among : existing ∈ before ++ scored :: after := by
      rw [← split]
      obtain ⟨first, last, parts, _⟩ := elite.foremost _ existing held
      rw [parts]
      simp
    rw [List.mem_append, List.mem_cons] at among
    rcases among with sooner | rfl | behind
    · exact worse (earlier existing sooner)
    · refine changed (Dict.ext_get? (Dict.keys_set_of_mem _ _ ?_) fun key => ?_)
      · exact (archive.contains_iff _).mp (by rw [Dict.contains, held]; rfl)
      · by_cases same : existing.descriptor = key
        · rw [← same, Dict.get?_set_self, held]
        · rw [Dict.get?_set_of_ne _ _ same]
    · exact worse (Floating.lt_iff_le_not_le.mpr ⟨later existing behind, within⟩)

end Step

private theorem step_iff {env : Environment F} {archive : QDArchive F} {history : History F}
    (elite : Elite env archive history) (call : Call F) :
    (Elite env (evaluateAndArchive env archive call).2
        (history ++ [(call, (evaluateAndArchive env archive call).1)]) ∧
      Faithful env archive call) ↔ Improves env archive call := by
  rcases evaluateAndArchive_cases env archive call with
    ⟨nothing, same, refused, improves⟩ | ⟨scored, scoring, safe, healthy, moved⟩
  · exact iff_of_true (elite.refused nothing same refused) improves
  constructor
  · rintro ⟨next, faithful⟩ other existing _ returned held _
    rw [scoring, Except.ok.injEq] at returned
    subst returned
    by_contra worse
    exact elite.not_archived moved held worse next faithful
  · intro improves
    have best : ∀ existing, archive.get? scored.descriptor = some existing →
        existing.fitness < scored.fitness := by
      intro existing held
      rw [isHealthyVariant, held] at healthy
      dsimp only at healthy
      split at healthy
      · assumption
      · refine improves scored existing safe scoring held ?_
        split at healthy
        · exact .inl (by assumption)
        · exact .inr healthy
    have added : (archive.add scored).2 = archive.set scored.descriptor scored := by
      unfold QDArchive.add
      split
      · rename_i existing held
        rw [if_neg (Floating.not_le_of_lt (best existing held))]
      · rfl
    rw [added] at moved
    exact ⟨elite.archived scoring safe moved best, faithful_archived moved best⟩

/-! ### Sequences of evaluations -/

/-- In every state reached each niche holds its best, and every decision is faithful. -/
def ArchivesTheBest (env : Environment F) (calls : List (Call F)) : Prop :=
  (∀ before rest, calls = before ++ rest →
      Elite env ((machine env).after Dict.empty before)
        ((machine env).replies Dict.empty before)) ∧
    ∀ before call rest, calls = before ++ call :: rest →
      Faithful env ((machine env).after Dict.empty before) call

/-- The best of every niche is archived exactly when every evaluation in turn improves. -/
theorem archivesTheBest_iff (env : Environment F) (calls : List (Call F)) :
    ArchivesTheBest env calls ↔ (machine env).Along (Improves env) Dict.empty calls := by
  have start : Elite env (Dict.empty : QDArchive F) [] :=
    ⟨fun _ _ found => (nomatch found), fun _ _ => rfl, fun _ _ found => (nomatch found)⟩
  exact @Machine.history_iff_along _ _ _ (machine env) (fun _ => True) (Elite env)
    (Faithful env) (Improves env) (fun _ _ _ _ => trivial)
    (fun _ _ call _ elite => step_iff elite call) Dict.empty [] calls trivial start

end

/-! ### A variant that beats only the baseline -/

def rationals : Environment ℚ where
  lower := id
  shown _ := ""

def seed : RoutingGenome ℚ where
  skills := ["rust-lang"]
  agents := ["builder"]
  temperature := 0.5
  persona := "pragmatic_engineer"
  topology := "sequential"
  budgetTokens := 4000
  topologyKnown := by decide
  temperatureInRange := by decide +kernel
  budgetPositive := by decide

def variant (quality : ℚ) : Call ℚ where
  genome := seed
  quality := quality
  cost := 0
  latency := 0
  context := {
    allowlist := { skills := {"rust-lang"}, agents := {"builder"}, forbiddenMarkers := {"secret"} }
    costBucket := "low"
    depthBucket := "shallow"
    baselineFitness := 0.5
    baselineFailures := []
    observedFailures := []
    lambdaCost := 0.5
    muLatency := 0.1
    nuNovelty := 0.3 }

/-- Fitness and niche of the variant that a reply says was accepted. -/
def acceptedAs (reply : Except PyException (ArchiveDecision ℚ)) : Option (ℚ × String) :=
  (acceptedOf reply).map fun scored => (scored.fitness, scored.descriptor)

/-- The weaker variant of a niche is accepted and thrown away. -/
theorem not_archivesTheBest_weaker :
    ¬ArchivesTheBest rationals [variant 0.9, variant 0.8] := by
  intro archives
  have reported : acceptedAs (evaluateAndArchive rationals
      ((machine rationals).after Dict.empty [variant 0.9]) (variant 0.8)).1 =
        some (0.8, "cost=low|depth=shallow|family=web|topology=sequential") := by
    decide +kernel
  have holds : (((evaluateAndArchive rationals
      ((machine rationals).after Dict.empty [variant 0.9]) (variant 0.8)).2.get?
        "cost=low|depth=shallow|family=web|topology=sequential").map ScoredGenome.fitness) =
      some 0.9 := by
    decide +kernel
  have faithful := archives.2 [variant 0.9] (variant 0.8) [] rfl
  obtain ⟨scored, accepted, same⟩ := Option.map_eq_some_iff.mp reported
  cases returned : (evaluateAndArchive rationals
      ((machine rationals).after Dict.empty [variant 0.9]) (variant 0.8)).1 with
  | error exc =>
    rw [returned] at accepted
    cases accepted
  | ok decision =>
    rw [returned, acceptedOf] at accepted
    split at accepted
    · rename_i approved
      obtain ⟨_, other, found, inNiche⟩ := (faithful.accepted decision returned).mp approved
      rw [accepted, Option.some.injEq] at found
      subst found
      rw [Prod.mk.injEq] at same
      rw [← same.2, inNiche, Option.map_some, Option.some.injEq, same.1] at holds
      revert holds
      decide +kernel
    · cases accepted

end Swarmind.Orchestrator.RoutingMutation
