import Swarmind.AlphaMining.AlphaZoo.Journal
import Swarmind.AlphaMining.FactorDsl.Stored

/-!
Owns the originality of the zoo: any two entries are less similar than the
threshold. `add` compares the newcomer with what is in memory; what is in the
journal has a counterpart there with the same tree, so that a reload finds
original entries too.
-/

namespace Swarmind.AlphaMining.AlphaZoo

open Swarmind.Library Swarmind.AlphaMining.FactorDsl

variable {ν : Type} (floats : Floats ν)

/-- The entry holds this tree. -/
def ZooEntry.Denotes (entry : ZooEntry ν) (expr : Expr) : Prop :=
  parseExpr (.dict entry.tree) = .ok expr

variable {entry : ZooEntry ν}

/-- A tree on the disk denotes one expression. -/
theorem ZooEntry.Denotes.unique {expr other : Expr}
    (denotes : entry.Denotes expr) (denotesOther : entry.Denotes other) : expr = other :=
  Except.ok.inj (denotes.symm.trans denotesOther)

theorem ZooEntry.Denotes.valid {expr : Expr} (denotes : entry.Denotes expr) : expr.Valid :=
  (valid_of_parseExpr _ expr denotes).1

/-- The trees of two entries are less similar than the threshold. -/
def Apart (minOriginality : ℚ) (first second : ZooEntry ν) : Prop :=
  ∀ a b, first.Denotes a → second.Denotes b → subtreeSimilarity a b < minOriginality

variable {minOriginality : ℚ}

private theorem Apart.symm {first second : ZooEntry ν}
    (apart : Apart minOriginality first second) : Apart minOriginality second first := by
  intro a b denotesA denotesB
  rw [subtreeSimilarity_comm]
  exact apart b a denotesB denotesA

/-- Every entry holds a tree, and any two are apart. -/
structure Original (minOriginality : ℚ) (entries : List (ZooEntry ν)) : Prop where
  denotes : ∀ entry ∈ entries, ∃ expr, entry.Denotes expr
  apart : entries.Pairwise (Apart minOriginality)

private theorem Original.nil : Original minOriginality ([] : List (ZooEntry ν)) :=
  ⟨by simp, List.Pairwise.nil⟩

variable {entries : List (ZooEntry ν)}

private theorem Original.concat (original : Original minOriginality entries) {expr : Expr}
    (denotes : entry.Denotes expr)
    (apart : ∀ existing ∈ entries, Apart minOriginality existing entry) :
    Original minOriginality (entries ++ [entry]) where
  denotes other among := by
    rcases List.mem_append.mp among with earlier | here
    · exact original.denotes other earlier
    · rw [List.mem_singleton.mp here]
      exact ⟨expr, denotes⟩
  apart := List.pairwise_append.mpr ⟨original.apart, List.pairwise_singleton _ _, by
    intro existing among other here
    rw [List.mem_singleton.mp here]
    exact apart existing among⟩

/-! ### What `is_similar` establishes -/

private theorem similarAmong_false {expr : Expr}
    (dissimilar : similarAmong expr minOriginality entries = .ok false) :
    ∀ existing ∈ entries, ∃ other, existing.Denotes other ∧
      subtreeSimilarity expr other < minOriginality := by
  induction entries with
  | nil => simp
  | cons first rest ih =>
    rw [similarAmong] at dissimilar
    obtain ⟨other, denotes, dissimilar⟩ := ok_of_bind dissimilar
    split at dissimilar
    · cases dissimilar
    · rename_i below
      intro existing among
      rcases List.mem_cons.mp among with rfl | later
      · exact ⟨other, denotes, lt_of_not_ge below⟩
      · exact ih dissimilar existing later

private theorem apart_of_admits {memory : Memory ν}
    (admitted : admits memory entry minOriginality = .ok true) :
    ∃ expr, entry.Denotes expr ∧
      ∀ existing ∈ memory.entries, Apart minOriginality existing entry := by
  obtain ⟨expr, parsed, checked⟩ := ok_of_bind admitted
  have denotes : entry.Denotes expr := parsed
  obtain ⟨similar, checked, isFalse⟩ := ok_of_map checked
  obtain rfl : similar = false := by simpa using isFalse
  refine ⟨expr, denotes, fun existing among a b denotesA denotesB => ?_⟩
  rw [isSimilar] at checked
  split at checked
  · cases checked
  · obtain ⟨other, denotesOther, below⟩ := similarAmong_false checked existing among
    obtain rfl := denotes.unique denotesB
    obtain rfl := denotesOther.unique denotesA
    rwa [subtreeSimilarity_comm]

/-! ### The invariant -/

/-- A call of the runs the invariant is about: one threshold, and entries that
are Python values. -/
def Call.Regular (minOriginality : ℚ) : Call ν → Prop
  | .add entry threshold disk =>
    threshold = minOriginality ∧ (Call.add entry threshold disk).Typed ∧
      Proper (.dict entry.tree)
  | _ => True

/-- The memory is original, and so is what the journal records, which has a
counterpart in memory for each of its entries. -/
structure Curated (minOriginality : ℚ) (zoo : Zoo ν) : Prop where
  original : Original minOriginality zoo.memory.entries
  recorded : ∃ documents contents, zoo.journal = Json.lines documents ∧
    (∀ document ∈ documents, IsRecord document) ∧
    ingestAll floats documents .empty = .ok contents ∧
    Original minOriginality contents.entries ∧
    ∀ entry ∈ contents.entries, ∃ counterpart ∈ zoo.memory.entries,
      ∀ expr, entry.Denotes expr → counterpart.Denotes expr

private theorem curated_fresh (minOriginality : ℚ) : Curated floats minOriginality
    (Zoo.fresh : Zoo ν) where
  original := .nil
  recorded := ⟨[], .empty, rfl, by simp, rfl, .nil, fun _ among => by cases among⟩

private theorem Curated.commit {zoo : Zoo ν}
    (curated : Curated floats minOriginality zoo) {memory : Memory ν} {record : PyValue}
    (disk : Option PyException) (original : Original minOriginality memory.entries)
    (kept : ∀ entry ∈ zoo.memory.entries, entry ∈ memory.entries)
    (ingests : ∀ document, record.dumps = some document → IsRecord document ∧
      ∃ next : Contents ν → Contents ν,
        (∀ contents, ingest floats contents document.loads = .ok (next contents)) ∧
          ∀ contents : Contents ν, Original minOriginality contents.entries →
            (∀ entry ∈ contents.entries, ∃ counterpart ∈ zoo.memory.entries,
              ∀ expr, entry.Denotes expr → counterpart.Denotes expr) →
            Original minOriginality (next contents).entries ∧
              ∀ entry ∈ (next contents).entries, ∃ counterpart ∈ memory.entries,
                ∀ expr, entry.Denotes expr → counterpart.Denotes expr) :
    Curated floats minOriginality (AlphaZoo.commit zoo memory record disk).2 := by
  obtain ⟨documents, contents, text, each, ingested, recorded, counterparts⟩ := curated.recorded
  have keptCounterparts : ∀ entry ∈ contents.entries, ∃ counterpart ∈ memory.entries,
      ∀ expr, entry.Denotes expr → counterpart.Denotes expr := by
    intro entry among
    obtain ⟨counterpart, inMemory, same⟩ := counterparts entry among
    exact ⟨counterpart, kept counterpart inMemory, same⟩
  cases outcome : append disk zoo.journal record with
  | error exc =>
    rw [commit_of_error outcome]
    exact ⟨original, documents, contents, text, each, ingested, recorded, keptCounterparts⟩
  | ok journal =>
    obtain ⟨rfl, document, dumped⟩ := append_ok outcome
    obtain ⟨isRecord, next, ingestsNext, keeps⟩ := ingests document dumped
    obtain ⟨originalNext, counterpartsNext⟩ := keeps contents recorded counterparts
    rw [commit_of_dumps dumped]
    refine ⟨original, documents ++ [document], next contents, ?_, ?_, ?_, originalNext,
      counterpartsNext⟩
    · rw [Json.lines_append, text]
    · intro other among
      rcases List.mem_append.mp among with earlier | here
      · exact each other earlier
      · rw [List.mem_singleton.mp here]
        exact isRecord
    · rw [ingestAll_append, ingested]
      simp only [Except.bind, ingestAll, ingestsNext]

private theorem Curated.step {path : String} {zoo : Zoo ν}
    (curated : Curated floats minOriginality zoo)
    {call : Call ν} (regular : call.Regular minOriginality) :
    Curated floats minOriginality (AlphaZoo.step floats path zoo call).2 := by
  cases call with
  | add entry threshold disk =>
    obtain ⟨rfl, typed, proper⟩ := regular
    simp only [AlphaZoo.step, add]
    split
    · exact curated
    · exact curated
    · rename_i admitted
      obtain ⟨expr, denotes, apart⟩ := apart_of_admits admitted
      refine curated.commit floats disk (curated.original.concat denotes apart)
        (fun other among => List.mem_append_left _ among) fun document dumped => ?_
      refine ⟨isRecord_of_typed floats typed dumped, ?_⟩
      rw [factorRecord_dumps] at dumped
      obtain ⟨tree, writtenTree, rfl⟩ := Option.map_eq_some_iff.mp dumped
      obtain ⟨backs, reads⟩ := exists_loads_of_dumps writtenTree
      have back : ({ entry with tree := backs } : ZooEntry ν).Denotes expr :=
        survives (.dict entry.tree) expr (.dict backs) proper denotes
          (by rw [PyValue.stored, writtenTree, Option.map_some, reads])
      refine ⟨_, fun contents => ingest_factorDocument floats contents entry reads, ?_⟩
      intro contents original counterparts
      constructor
      · refine original.concat back fun existing among a b denotesA denotesB => ?_
        obtain ⟨counterpart, inMemory, same⟩ := counterparts existing among
        obtain rfl := back.unique denotesB
        exact apart counterpart inMemory a expr (same a denotesA) denotes
      · intro other among
        rcases List.mem_append.mp among with earlier | here
        · obtain ⟨counterpart, inMemory, same⟩ := counterparts other earlier
          exact ⟨counterpart, List.mem_append_left _ inMemory, same⟩
        · rw [List.mem_singleton.mp here]
          refine ⟨entry, List.mem_append_right _ (List.mem_singleton_self entry), ?_⟩
          intro other denotesOther
          obtain rfl := back.unique denotesOther
          exact denotes
  | recordFailure formula mode disk =>
    refine curated.commit floats disk curated.original (fun other among => among) ?_
    intro document dumped
    obtain rfl := Option.some.inj dumped
    exact ⟨isRecord_failureDocument formula mode, _,
      fun contents => ingest_failureDocument floats contents formula mode,
      fun contents original counterparts => ⟨original, counterparts⟩⟩
  | reload =>
    simp only [AlphaZoo.step]
    split
    · rename_i memory loaded
      obtain ⟨documents, contents, text, each, ingested, recorded, _⟩ := curated.recorded
      rw [text] at loaded
      have oneLine := oneLine_of_load floats each loaded
      rw [load_lines floats path each oneLine, ingested] at loaded
      obtain rfl := Except.ok.inj loaded
      exact ⟨recorded, documents, contents, text, each, ingested, recorded,
        fun entry among => ⟨entry, among, fun _ => id⟩⟩
    · exact curated

/-! ### Reachable zoos -/

/-- The trees of two entries are less similar than the threshold, in either
order, and have different genes. -/
def Distinct (minOriginality : ℚ) (first second : ZooEntry ν) : Prop :=
  ∃ a b, first.Denotes a ∧ second.Denotes b ∧ subtreeSimilarity a b = subtreeSimilarity b a ∧
    subtreeSimilarity a b < minOriginality ∧ abstractGene a ≠ abstractGene b

private theorem distinct_of_apart (atMostOne : minOriginality ≤ 1) {first second : ZooEntry ν}
    (firstDenotes : ∃ expr, first.Denotes expr) (secondDenotes : ∃ expr, second.Denotes expr)
    (apart : Apart minOriginality first second) : Distinct minOriginality first second := by
  obtain ⟨a, denotesA⟩ := firstDenotes
  obtain ⟨b, denotesB⟩ := secondDenotes
  have below := apart a b denotesA denotesB
  refine ⟨a, b, denotesA, denotesB, subtreeSimilarity_comm a b, below, fun sameGene => ?_⟩
  rw [subtreeSimilarity_of_abstractGene_eq denotesA.valid denotesB.valid sameGene] at below
  exact absurd (below.trans_le atMostOne) (lt_irrefl 1)

private theorem Original.distinct (atMostOne : minOriginality ≤ 1)
    (original : Original minOriginality entries) {i j : Nat}
    (left : i < entries.length) (right : j < entries.length) (different : i ≠ j) :
    Distinct minOriginality entries[i] entries[j] := by
  refine distinct_of_apart atMostOne (original.denotes _ (List.getElem_mem left))
    (original.denotes _ (List.getElem_mem right)) ?_
  have ordered := List.pairwise_iff_getElem.mp original.apart
  rcases Nat.lt_or_gt_of_ne different with before | behind
  · exact ordered i j left right before
  · exact (ordered j i right left behind).symm

private theorem add_of_rejected {zoo : Zoo ν} {disk : Option PyException}
    (rejected : (add floats zoo entry minOriginality disk).1 = .done false) :
    (add floats zoo entry minOriginality disk).2 = zoo := by
  rw [add] at rejected ⊢
  split
  · rfl
  · rfl
  · rename_i admitted
    rw [admitted] at rejected
    simp only [commit] at rejected
    split at rejected <;> cases rejected

/-- In every zoo that a run reaches, any two entries are distinct, and a call of
`add` that lets nothing in leaves entries and journal as they are. -/
theorem distinct_after (path : String) {minOriginality : ℚ} (atMostOne : minOriginality ≤ 1)
    (calls : List (Call ν)) (regular : ∀ call ∈ calls, call.Regular minOriginality) :
    (∀ i j, ∀ left : i < ((machine floats path).after .fresh calls).memory.entries.length,
      ∀ right : j < ((machine floats path).after .fresh calls).memory.entries.length, i ≠ j →
        Distinct minOriginality (((machine floats path).after .fresh calls).memory.entries[i])
          (((machine floats path).after .fresh calls).memory.entries[j])) ∧
      ∀ entry disk,
        (add floats ((machine floats path).after .fresh calls) entry minOriginality disk).1 =
            .done false →
          (add floats ((machine floats path).after .fresh calls) entry minOriginality disk).2 =
            (machine floats path).after .fresh calls := by
  have curated : Curated floats minOriginality ((machine floats path).after .fresh calls) :=
    Machine.invariant_after (Curated floats minOriginality)
      (fun _ _ curated regular => curated.step floats regular) (curated_fresh floats minOriginality)
      ((machine floats path).along_of_mem regular .fresh)
  refine ⟨fun i j left right different => ?_, fun entry disk => add_of_rejected floats⟩
  exact curated.original.distinct atMostOne left right different

/-- Two factors, a failure and a reload. -/
def reloadCalls : List (Call { digits : String // Json.isFloatText digits = true }) :=
  [.add (sampleEntry (.leaf .close) [(.str "field", .str "close")]) defaultMinOriginality none,
    .add (sampleEntry (.leaf .open) [(.str "field", .str "open")]) defaultMinOriginality none,
    .recordFailure "rank(close)" "fsa" none, .reload]

private theorem regular_reloadCalls : ∀ call ∈ reloadCalls, call.Regular defaultMinOriginality := by
  intro call among
  simp only [reloadCalls, List.mem_cons, List.not_mem_nil, or_false] at among
  rcases among with rfl | rfl | rfl | rfl
  · refine ⟨rfl, fun document written => ?_, ?_⟩
    · obtain rfl := Option.some.inj written
      exact ⟨trivial, trivial⟩
    · exact ⟨by decide, by simp [sampleEntry, ProperKey], trivial, trivial⟩
  · refine ⟨rfl, fun document written => ?_, ?_⟩
    · obtain rfl := Option.some.inj written
      exact ⟨trivial, trivial⟩
    · exact ⟨by decide, by simp [sampleEntry, ProperKey], trivial, trivial⟩
  · trivial
  · trivial

/-- A run with a reload: no two stored factors are too alike. -/
theorem distinct_after_reloadCalls :
    (∀ i j, ∀ left : i <
        ((machine textFloats "zoo.jsonl").after .fresh reloadCalls).memory.entries.length,
      ∀ right : j <
        ((machine textFloats "zoo.jsonl").after .fresh reloadCalls).memory.entries.length, i ≠ j →
        Distinct defaultMinOriginality
          (((machine textFloats "zoo.jsonl").after .fresh reloadCalls).memory.entries[i])
          (((machine textFloats "zoo.jsonl").after .fresh reloadCalls).memory.entries[j])) ∧
      ∀ entry disk,
        (add textFloats ((machine textFloats "zoo.jsonl").after .fresh reloadCalls) entry
            defaultMinOriginality disk).1 = .done false →
          (add textFloats ((machine textFloats "zoo.jsonl").after .fresh reloadCalls) entry
            defaultMinOriginality disk).2 =
            (machine textFloats "zoo.jsonl").after .fresh reloadCalls :=
  distinct_after textFloats "zoo.jsonl" (by decide +kernel) reloadCalls regular_reloadCalls

end Swarmind.AlphaMining.AlphaZoo
