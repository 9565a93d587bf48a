import Swarmind.Library.Argmax
import Swarmind.Library.Clusters
import Swarmind.Orchestrator.ParallelExecutor.Run

/-!
Owns the vote over the results of a run.

Results whose output is not empty are clustered by similarity, whether they
succeeded or not. The largest clusters compete; where no cluster has two
members, all the results do. The fastest competitor wins.
-/

namespace Swarmind.Orchestrator.ParallelExecutor

open Swarmind.Library

variable {F : Type} [Floating F] {ι : Type} [DecidableEq ι]

/-- The outcome of a vote between results that are told apart by identity. -/
structure VotingOutcome (F ι : Type) where
  winner : Option ι
  gateApplied : Bool
  totalTokens : Nat
  totalDurationMs : F
  scores : Dict String ℚ

section Algorithm

variable (similar : String → String → Bool) (data : ι → ParallelResult F)

/-- `min(results, key=lambda r: r.duration_ms)`, where there is one. -/
def fastest : List ι → Option ι
  | [] => none
  | first :: rest => some (rest.foldl (fun best r =>
    if (data r).durationMs < (data best).durationMs then r else best) first)

/-- `clusters`: the results with an output, each with the first cluster whose
leader has a similar one. -/
def outputClusters (results : List ι) : List (Cluster ι) :=
  Cluster.clusters (fun r ref => similar (data r).output (data ref).output)
    (results.filter fun r => (data r).output ≠ "")

def maxSize (clusters : List (Cluster ι)) : Nat :=
  (clusters.map fun cluster => cluster.members.length).max?.getD 0

/-- `candidates`: the fastest result of each of the largest clusters. -/
def candidates (clusters : List (Cluster ι)) : List ι :=
  (clusters.filter fun cluster => cluster.members.length = maxSize clusters).filterMap
    fun cluster => fastest data cluster.members

def winnerOf (results : List ι) : Option ι :=
  let clusters := outputClusters similar data results
  if clusters = [] then none
  else if maxSize clusters = 1 then fastest data results
  else fastest data (candidates data clusters)

/-- `scores`, where there is a cluster. -/
def scoresOf (winner : Option ι) (results : List ι) : Dict String ℚ :=
  results.foldl (fun scores r =>
    scores.set (data r).taskId (if winner = some r then 1 else 0)) Dict.empty

def vote (results : List ι) : VotingOutcome F ι :=
  if results = [] then ⟨none, false, 0, 0.0, Dict.empty⟩
  else
    let winner := winnerOf similar data results
    { winner := winner
      gateApplied := false
      totalTokens := (results.map fun r => (data r).tokensUsed).sum
      totalDurationMs := Floating.sum (results.map fun r => (data r).durationMs)
      scores := if outputClusters similar data results = [] then Dict.empty
        else scoresOf data winner results }

/-- How many members of a cluster succeeded. -/
def successes (cluster : Cluster ι) : Nat := cluster.members.countP fun r => (data r).success

/-- No cluster has more successful members than the one of `r`. -/
def Leading (results : List ι) (r : ι) : Prop :=
  ∃ cluster ∈ outputClusters similar data results, r ∈ cluster.members ∧
    ∀ other ∈ outputClusters similar data results, successes data other ≤ successes data cluster

/-- What is promised of a vote with a successful result. -/
structure Elects (results : List ι) (winner : ι) : Prop where
  elected : (vote similar data results).winner = some winner
  succeeded : (data winner).success = true
  leading : Leading similar data results winner
  scored : ∀ r ∈ results,
    (vote similar data results).scores.get? (data r).taskId = some 1 ↔ r = winner

/-- No other result has the id of `r`. -/
def Unshared (results : List ι) (r : ι) : Prop :=
  ∀ other ∈ results, (data other).taskId = (data r).taskId → other = r

/-- Results of which no two are alike, with a good one the first of the
fastest. -/
structure GoodFastest (results : List ι) (r : ι) : Prop where
  apart : ∀ cluster ∈ outputClusters similar data results, cluster.followers = []
  first : fastest data results = some r
  succeeded : (data r).success = true
  output : (data r).output ≠ ""
  unshared : Unshared data results r

/-- Results of which some are alike, with a good one the fastest of the largest
clusters, none of which has more successful members. -/
structure GoodMajority (results : List ι) (r : ι) : Prop where
  alike : ∃ cluster ∈ outputClusters similar data results, cluster.followers ≠ []
  first : fastest data (candidates data (outputClusters similar data results)) = some r
  succeeded : (data r).success = true
  leading : Leading similar data results r
  unshared : Unshared data results r

end Algorithm

section Winning

variable {similar : String → String → Bool} {data : ι → ParallelResult F} {results : List ι}

omit [DecidableEq ι] in
private theorem fastest_mem {r : ι} (found : fastest data results = some r) : r ∈ results := by
  cases results with
  | nil => cases found
  | cons first rest =>
    cases found
    induction rest generalizing first with
    | nil => exact List.mem_cons_self
    | cons next rest ih =>
      rw [List.foldl_cons]
      have later := ih
        (if (data next).durationMs < (data first).durationMs then next else first)
      rcases List.mem_cons.mp later with same | among
      · rw [same]
        split_ifs
        · exact List.mem_cons_of_mem _ List.mem_cons_self
        · exact List.mem_cons_self
      · exact List.mem_cons_of_mem _ (List.mem_cons_of_mem _ among)

omit [Floating F] [DecidableEq ι] in
private theorem mem_outputClusters_iff {r : ι} :
    (∃ cluster ∈ outputClusters similar data results, r ∈ cluster.members) ↔
      r ∈ results ∧ (data r).output ≠ "" := by
  rw [outputClusters, Cluster.mem_clusters_iff, List.mem_filter, decide_eq_true_eq]

omit [Floating F] [DecidableEq ι] in
private theorem maxSize_eq_one_iff {clusters : List (Cluster ι)} (some : clusters ≠ []) :
    maxSize clusters = 1 ↔ ∀ cluster ∈ clusters, cluster.followers = [] := by
  have sizes : clusters.map (fun cluster => cluster.members.length) ≠ [] :=
    fun none => some (List.map_eq_nil_iff.mp none)
  obtain ⟨size, greatest, attained, bound⟩ := exists_max? sizes
  obtain ⟨largest, member, rfl⟩ := List.mem_map.mp attained
  rw [maxSize, greatest, Option.getD_some]
  constructor
  · intro one cluster among
    have small := bound _ (List.mem_map_of_mem among)
    rw [one] at small
    exact List.length_eq_zero_iff.mp (Nat.le_zero.mp (Nat.le_of_succ_le_succ small))
  · intro alone
    rw [Cluster.members, alone largest member]
    rfl

omit [Floating F] in
private theorem get?_scores_of_forall {winner : Option ι} {key : String} {score : ℚ}
    (same : ∀ r ∈ results, (data r).taskId = key → (if winner = some r then 1 else 0) = score)
    {r : ι} (member : r ∈ results) (named : (data r).taskId = key) :
    (scoresOf data winner results).get? key = some score := by
  have written : ∀ scores : Dict String ℚ,
      scores.get? key = some score ∨ (∃ r ∈ results, (data r).taskId = key) →
        (results.foldl (fun scores r =>
          scores.set (data r).taskId (if winner = some r then 1 else 0)) scores).get? key =
            some score := by
    clear member named
    induction results with
    | nil =>
      rintro scores (before | ⟨_, none, _⟩)
      · exact before
      · exact absurd none List.not_mem_nil
    | cons first rest ih =>
      intro scores either
      rw [List.foldl_cons]
      apply ih fun r member => same r (List.mem_cons_of_mem first member)
      by_cases named : (data first).taskId = key
      · rw [named, Dict.get?_set_self, same first List.mem_cons_self named]
        exact Or.inl rfl
      · rcases either with before | ⟨r, member, here⟩
        · rw [Dict.get?_set_of_ne _ _ named]
          exact Or.inl before
        · rcases List.mem_cons.mp member with rfl | later
          · exact absurd here named
          · exact Or.inr ⟨r, later, here⟩
  exact written Dict.empty (Or.inr ⟨r, member, named⟩)

omit [Floating F] in
private theorem scored_iff {winner : ι} (member : winner ∈ results) :
    (∀ r ∈ results, (scoresOf data (some winner) results).get? (data r).taskId = some 1 ↔
      r = winner) ↔ Unshared data results winner := by
  constructor
  · intro scored other among shared
    apply (scored other among).mp
    rw [shared]
    exact (scored winner member).mpr rfl
  · intro unshared r among
    constructor
    · intro one
      by_contra apart
      have zero : (scoresOf data (some winner) results).get? (data r).taskId = some 0 := by
        apply get?_scores_of_forall (r := r) _ among rfl
        intro other otherAmong shared
        rw [if_neg]
        rintro ⟨⟩
        exact apart (unshared r among shared.symm)
      rw [zero] at one
      exact absurd (Option.some.inj one) zero_ne_one
    · rintro rfl
      apply get?_scores_of_forall (r := r) _ member rfl
      intro other otherAmong shared
      rw [unshared other otherAmong shared, if_pos rfl]

omit [Floating F] [DecidableEq ι] in
private theorem Leading.ne_nil {r : ι} (leading : Leading similar data results r) :
    outputClusters similar data results ≠ [] := by
  obtain ⟨cluster, member, _⟩ := leading
  exact List.ne_nil_of_mem member

private theorem elects_iff {winner : ι} (member : winner ∈ results) :
    Elects similar data results winner ↔
      winnerOf similar data results = some winner ∧ (data winner).success = true ∧
        Leading similar data results winner ∧ Unshared data results winner := by
  have voted : ∀ clustered : outputClusters similar data results ≠ [],
      winnerOf similar data results = some winner →
        (vote similar data results).winner = some winner ∧
          (vote similar data results).scores = scoresOf data (some winner) results := by
    intro clustered won
    rw [vote, if_neg (List.ne_nil_of_mem member)]
    dsimp only
    rw [if_neg clustered, won]
    exact ⟨rfl, rfl⟩
  constructor
  · intro elects
    have won : winnerOf similar data results = some winner := by
      have elected := elects.elected
      rwa [vote, if_neg (List.ne_nil_of_mem member)] at elected
    refine ⟨won, elects.succeeded, elects.leading, (scored_iff member).mp ?_⟩
    have scored := elects.scored
    rwa [(voted elects.leading.ne_nil won).2] at scored
  · rintro ⟨won, succeeded, leading, unshared⟩
    obtain ⟨elected, scores⟩ := voted leading.ne_nil won
    refine ⟨elected, succeeded, leading, ?_⟩
    rw [scores]
    exact (scored_iff member).mpr unshared

omit [Floating F] [DecidableEq ι] in
private theorem leading_of_apart
    (apart : ∀ cluster ∈ outputClusters similar data results, cluster.followers = []) {r : ι}
    (member : r ∈ results) (succeeded : (data r).success = true) (output : (data r).output ≠ "") :
    Leading similar data results r := by
  obtain ⟨cluster, among, inside⟩ := mem_outputClusters_iff.mpr ⟨member, output⟩
  refine ⟨cluster, among, inside, ?_⟩
  intro other otherAmong
  have one : successes data other ≤ 1 := by
    refine Nat.le_trans List.countP_le_length ?_
    rw [Cluster.members, apart other otherAmong]
    exact Nat.le_refl _
  exact Nat.le_trans one (List.countP_pos_iff.mpr ⟨r, inside, succeeded⟩)

end Winning

/-- Where a result succeeded, the vote elects a good one exactly where a good
one comes first among those that compete. -/
theorem vote_elects_iff (similar : String → String → Bool) (data : ι → ParallelResult F)
    (results : List ι) :
    ((∃ r ∈ results, (data r).success = true) →
        ∃ winner ∈ results, Elects similar data results winner) ↔
      (∀ r ∈ results, (data r).success = false) ∨ (∃ r, GoodFastest similar data results r) ∨
        ∃ r, GoodMajority similar data results r := by
  constructor
  · intro promised
    by_cases success : ∃ r ∈ results, (data r).success = true
    · obtain ⟨winner, member, elects⟩ := promised success
      obtain ⟨won, succeeded, leading, unshared⟩ := (elects_iff member).mp elects
      right
      rw [winnerOf, if_neg leading.ne_nil] at won
      split_ifs at won with one
      · have apart := (maxSize_eq_one_iff leading.ne_nil).mp one
        obtain ⟨cluster, among, inside, _⟩ := leading
        obtain ⟨_, output⟩ := mem_outputClusters_iff.mp ⟨cluster, among, inside⟩
        exact Or.inl ⟨winner, apart, won, succeeded, output, unshared⟩
      · rw [maxSize_eq_one_iff leading.ne_nil] at one
        obtain ⟨cluster, several⟩ := not_forall.mp one
        exact Or.inr ⟨winner, ⟨cluster, Classical.not_imp.mp several⟩, won, succeeded, leading,
          unshared⟩
    · left
      intro r member
      exact Bool.eq_false_iff.mpr fun succeeded => success ⟨r, member, succeeded⟩
  · rintro (failed | ⟨r, good⟩ | ⟨r, good⟩) ⟨some, someIn, succeeded⟩
    · rw [failed some someIn] at succeeded
      cases succeeded
    · have member := fastest_mem good.first
      have leading := leading_of_apart good.apart member good.succeeded good.output
      refine ⟨r, member, (elects_iff member).mpr ⟨?_, good.succeeded, leading, good.unshared⟩⟩
      rw [winnerOf, if_neg leading.ne_nil,
        if_pos ((maxSize_eq_one_iff leading.ne_nil).mpr good.apart)]
      exact good.first
    · obtain ⟨cluster, among, inside, _⟩ := good.leading
      obtain ⟨member, _⟩ := mem_outputClusters_iff.mp ⟨cluster, among, inside⟩
      refine ⟨r, member,
        (elects_iff member).mpr ⟨?_, good.succeeded, good.leading, good.unshared⟩⟩
      have several : maxSize (outputClusters similar data results) ≠ 1 := by
        intro one
        obtain ⟨other, otherAmong, follower⟩ := good.alike
        exact follower ((maxSize_eq_one_iff good.leading.ne_nil).mp one other otherAmong)
      rw [winnerOf, if_neg good.leading.ne_nil, if_neg several]
      exact good.first

/-- A good result of five seconds, and a failed one of no time. -/
def twoResults : Fin 2 → ParallelResult ℚ
  | 0 => ⟨"a", true, "solucion", "frontier", "fake", 100, 5, none⟩
  | 1 => ⟨"b", false, "", "", "", 0, 0, some "Execution failed"⟩

/-- The fastest result failed, and wins. -/
theorem not_vote_elects :
    ¬ ∀ (similar : String → String → Bool) (data : Fin 2 → ParallelResult ℚ)
      (results : List (Fin 2)), results ≠ [] → (∃ r ∈ results, (data r).success = true) →
        ∃ winner ∈ results, Elects similar data results winner := by
  intro promised
  obtain ⟨winner, _, elects⟩ := promised (· == ·) twoResults [0, 1] (List.cons_ne_nil _ _)
    ⟨0, List.mem_cons_self, rfl⟩
  have failed : (vote (· == ·) twoResults [0, 1]).winner = some 1 := by
    decide +kernel
  cases failed.symm.trans elects.elected
  exact absurd elects.succeeded Bool.noConfusion

end Swarmind.Orchestrator.ParallelExecutor
