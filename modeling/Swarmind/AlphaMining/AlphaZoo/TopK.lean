import Mathlib.Data.Prod.Lex
import Mathlib.Data.String.Basic
import Swarmind.AlphaMining.AlphaZoo.Zoo
import Swarmind.Library.Capped

/-!
Owns the selection of the best factors of the zoo. With a quota for each family the
entries are taken greedily in the order of their scores, in exact arithmetic.
-/

namespace Swarmind.AlphaMining.AlphaZoo

open Swarmind.Library

section

variable {ν : Type} [AddCommGroup ν] [LinearOrder ν]

/-- `(-e.score, e.formula)`. -/
def sortKey (entry : ZooEntry ν) : ν ×ₗ String := toLex (-entry.score, entry.formula)

/-- `sorted(self._entries, key=..)`. -/
def ordered (memory : Memory ν) : List (ZooEntry ν) :=
  memory.entries.mergeSort fun left right => decide (sortKey left ≤ sortKey right)

/-- The loop over the ordered entries: `counts` of the families and what was `picked`. -/
def pickLoop (k perFamilyCap : Int) :
    List (ZooEntry ν) → Dict FactorFamily Nat → List (ZooEntry ν) → List (ZooEntry ν)
  | [], _, picked => picked
  | entry :: rest, counts, picked =>
    if k ≤ picked.length then picked
    else
      let count := (counts.get? entry.family).getD 0
      if count < perFamilyCap then
        pickLoop k perFamilyCap rest (counts.set entry.family (count + 1)) (picked ++ [entry])
      else pickLoop k perFamilyCap rest counts picked

def topK (memory : Memory ν) (k : Int) (perFamilyCap : Option Int) : List (ZooEntry ν) :=
  match perFamilyCap with
  | none =>
    let all := ordered memory
    all.take (if 0 ≤ k then k.toNat else (all.length + k).toNat)
  | some cap => pickLoop k cap (ordered memory) .empty []

def familyCount (entries : List (ZooEntry ν)) (family : FactorFamily) : Nat :=
  entries.countP fun entry => entry.family = family

/-- Entries of the zoo within both bounds. -/
structure Admissible (memory : Memory ν) (k perFamilyCap : Nat) (chosen : List (ZooEntry ν)) :
    Prop where
  among : chosen.Subperm memory.entries
  few : chosen.length ≤ k
  each : ∀ family, familyCount chosen family ≤ perFamilyCap

/-- Entries within both bounds, best first, that no others within the bounds exceed. -/
structure Optimal (memory : Memory ν) (k perFamilyCap : Nat) (chosen : List (ZooEntry ν)) :
    Prop extends Admissible memory k perFamilyCap chosen where
  sorted : chosen.Pairwise fun earlier later => later.score ≤ earlier.score
  greatest : ∀ rivals, Admissible memory k perFamilyCap rivals →
    (rivals.map ZooEntry.score).sum ≤ (chosen.map ZooEntry.score).sum

variable {memory : Memory ν}

private theorem ordered_perm (memory : Memory ν) : (ordered memory).Perm memory.entries :=
  List.mergeSort_perm _ _

omit [AddCommGroup ν] [LinearOrder ν] in
private theorem admissible_iff {k perFamilyCap : Nat} {chosen : List (ZooEntry ν)} :
    Admissible memory k perFamilyCap chosen ↔ chosen.Subperm memory.entries ∧
      Fits ZooEntry.family k (fun _ => perFamilyCap) chosen :=
  ⟨fun ⟨among, few, each⟩ => ⟨among, few, each⟩, fun ⟨among, few, each⟩ => ⟨among, few, each⟩⟩

omit [AddCommGroup ν] [LinearOrder ν] in
private theorem pickLoop_eq (k cap : Nat) (entries : List (ZooEntry ν))
    (counts : Dict FactorFamily Nat)
    (picked : List (ZooEntry ν)) :
    pickLoop k cap entries counts picked = picked ++
      chooseGreedily ZooEntry.family (k - picked.length)
        (fun family => cap - (counts.get? family).getD 0) entries := by
  induction entries generalizing counts picked with
  | nil => rw [pickLoop, chooseGreedily, List.append_nil]
  | cons entry rest ih =>
    rw [pickLoop]
    by_cases enough : k ≤ picked.length
    · have none (room : FactorFamily → Nat) (items : List (ZooEntry ν)) :
          chooseGreedily ZooEntry.family 0 room items = [] :=
        List.length_eq_zero_iff.mp (Nat.le_zero.mp (chooseGreedily_fits 0 room items).few)
      rw [if_pos (Int.ofNat_le.mpr enough), Nat.sub_eq_zero_of_le enough, none, List.append_nil]
    · rw [if_neg (by simpa using enough)]
      by_cases free : (counts.get? entry.family).getD 0 < cap
      · have taken : chooseGreedily ZooEntry.family (k - picked.length)
            (fun family => cap - (counts.get? family).getD 0) (entry :: rest) =
              entry :: chooseGreedily ZooEntry.family (k - picked.length - 1)
                (Function.update (fun family => cap - (counts.get? family).getD 0) entry.family
                  (cap - (counts.get? entry.family).getD 0 - 1)) rest :=
          chooseGreedily_cons_of_room (by omega)
        have counted : (fun family => cap -
            ((counts.set entry.family ((counts.get? entry.family).getD 0 + 1)).get?
              family).getD 0) =
            Function.update (fun family => cap - (counts.get? family).getD 0) entry.family
              (cap - (counts.get? entry.family).getD 0 - 1) := by
          funext family
          rw [Dict.get?_set, Function.update_apply]
          by_cases same : family = entry.family
          · rw [if_pos same, if_pos same.symm, Option.getD_some, Nat.sub_sub]
          · rw [if_neg same, if_neg (Ne.symm same)]
        rw [if_pos (Int.ofNat_lt.mpr free), ih, taken, counted,
          List.append_assoc, List.length_append, List.length_singleton, Nat.sub_sub k,
          List.singleton_append]
      · have passed : chooseGreedily ZooEntry.family (k - picked.length)
            (fun family => cap - (counts.get? family).getD 0) (entry :: rest) =
              chooseGreedily ZooEntry.family (k - picked.length)
                (fun family => cap - (counts.get? family).getD 0) rest :=
          chooseGreedily_cons_of_full (by omega)
        rw [if_neg (by simpa using free), ih, passed]

private theorem topK_eq (memory : Memory ν) (k cap : Nat) :
    topK memory k (some (cap : Int)) =
      chooseGreedily ZooEntry.family k (fun _ => cap) (ordered memory) := by
  rw [topK, pickLoop_eq, List.nil_append, List.length_nil, Nat.sub_zero]
  congr 1

variable [IsOrderedAddMonoid ν]

private theorem ordered_sorted (memory : Memory ν) :
    (ordered memory).Pairwise fun earlier later => later.score ≤ earlier.score := by
  have sorted : (ordered memory).Pairwise fun left right =>
      decide (sortKey left ≤ sortKey right) = true := by
    apply List.pairwise_mergeSort
    · intro first second third one two
      exact decide_eq_true ((of_decide_eq_true one).trans (of_decide_eq_true two))
    · intro left right
      simpa using le_total (sortKey left) (sortKey right)
  refine sorted.imp fun {earlier later} precedes => ?_
  rcases Prod.Lex.le_iff.mp (of_decide_eq_true precedes) with less | ⟨same, _⟩
  · exact (neg_lt_neg_iff.mp less).le
  · exact (neg_inj.mp same).ge

/-- With scores that are not negative no choice under the quota beats the greedy one. -/
theorem topK_optimal (nonneg : ∀ entry ∈ memory.entries, 0 ≤ entry.score) (k cap : Nat) :
    Optimal memory k cap (topK memory k (some (cap : Int))) := by
  have perm := ordered_perm memory
  have sublist : (chooseGreedily ZooEntry.family k (fun _ => cap) (ordered memory)).Sublist
      (ordered memory) := chooseGreedily_sublist k (fun _ => cap) (ordered memory)
  rw [topK_eq]
  refine ⟨admissible_iff.mpr ⟨?_, chooseGreedily_fits k _ (ordered memory)⟩, ?_, ?_⟩
  · exact sublist.subperm.trans perm.subperm
  · exact (ordered_sorted memory).sublist sublist
  · intro rivals admissible
    obtain ⟨among, fits⟩ := admissible_iff.mp admissible
    exact sum_le_chooseGreedily (ordered_sorted memory)
      (fun entry listed => nonneg entry (perm.subset listed)) (among.trans perm.symm.subperm) fits

end

/-- A factor of a family. -/
def scored (formula : String) (family : FactorFamily) (score : ℚ) : ZooEntry ℚ :=
  { formula, tree := [], family, score, rankIc := score, roundIndex := 0 }

/-- Two trends, the better of them before a range. -/
def trends : Memory ℚ :=
  { (Memory.empty : Memory ℚ) with
    entries := [scored "a" .range (1 / 2), scored "b" .trend 1, scored "c" .trend (3 / 4)] }

/-- Two factors, one from each family. -/
theorem topK_optimal_trends : Optimal trends 2 1 (topK trends 2 (some 1)) :=
  topK_optimal (by decide +kernel) 2 1

end Swarmind.AlphaMining.AlphaZoo
