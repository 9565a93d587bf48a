import Swarmind.MemoryRag.SemanticCache.Cache
import Mathlib.Tactic.Positivity

/-!
Owns which similarity a response found by search has. The cache reads one score
from three stores: LanceDB gives a distance, the store in memory a cosine, and
RuscaDB a weighted rank. The first two bound the similarity; the rank does not.
-/

namespace Swarmind.MemoryRag.SemanticCache

open Swarmind.Library RuscaDBStore

variable {R : Type} [Field R] [LinearOrder R] (cache : SemanticCache R)

/-! ### The result that is served -/

/-- A result that may be served, but for its score. -/
def fresh (agentRole : String) (now : Int) (row : Row R) : Bool :=
  cache.servable agentRole row && !cache.rowExpired now row

/-- The first result that `evaluate` serves. -/
def served (effectiveThreshold : R) (agentRole : String) (now : Int)
    (results : List (Row R × R)) : Option (Row R × R) :=
  results.find? fun result =>
    !decide (cache.normalizeSimilarity result.2 < effectiveThreshold) &&
      cache.fresh agentRole now result.1

/-- The first result that may be served, whatever its score. -/
def leader (agentRole : String) (now : Int) (results : List (Row R × R)) : Option (Row R × R) :=
  results.find? fun result => cache.fresh agentRole now result.1

private theorem served_cons (effectiveThreshold : R) (agentRole : String) (now : Int)
    (result : Row R × R) (rest : List (Row R × R)) :
    cache.served effectiveThreshold agentRole now (result :: rest) =
      if (!decide (cache.normalizeSimilarity result.2 < effectiveThreshold) &&
        cache.fresh agentRole now result.1) = true then some result
      else cache.served effectiveThreshold agentRole now rest := by
  rw [served, List.find?_cons]
  split <;> simp_all [served]

private theorem evaluate_fst (effectiveThreshold : R) (agentRole : String) (now : Int)
    (results : List (Row R × R)) (contents : Contents R) :
    (cache.evaluate effectiveThreshold agentRole now results contents).1 =
      (cache.served effectiveThreshold agentRole now results).map fun result =>
        result.1.response := by
  induction results generalizing contents with
  | nil => rfl
  | cons result rest ih =>
    obtain ⟨row, rawScore⟩ := result
    rw [evaluate, served_cons, fresh]
    by_cases low : cache.normalizeSimilarity rawScore < effectiveThreshold
    · simpa [low] using ih contents
    · cases allowed : cache.servable agentRole row with
      | false => simpa [low] using ih contents
      | true =>
        cases expired : cache.rowExpired now row with
        | true => simpa [low] using ih _
        | false => simp [low]

/-- What `get` searches by similarity; none where the exact lookup answers. -/
def searched (prompt agentRole : String) (now : Int) (contents : Contents R) :
    Option (Contents R) :=
  match cache.exactEntry prompt agentRole now contents with
  | some entry =>
    if cache.expired now entry.createdAt entry.ttlSeconds then
      some (cache.deleteEntry entry.promptHash contents)
    else none
  | none => some contents

theorem get_of_searched {prompt agentRole : String} {now : Int} {contents found : Contents R}
    (threshold : Option R) (searches : cache.searched prompt agentRole now contents = some found) :
    (cache.get prompt agentRole threshold now contents).1 =
      (cache.served (cache.effectiveThreshold prompt threshold) agentRole now
        (cache.search now (cache.embeddingFn prompt) found)).map fun result =>
          result.1.response := by
  rw [get]
  unfold searched at searches
  cases exact : cache.exactEntry prompt agentRole now contents with
  | none =>
    simp only [exact, Option.some.injEq] at searches
    subst searches
    exact cache.evaluate_fst _ _ _ _ _
  | some entry =>
    simp only [exact] at searches
    split_ifs at searches with expired
    obtain rfl := Option.some.inj searches
    simp only [expired, if_true]
    exact cache.evaluate_fst _ _ _ _ _

theorem get_of_not_searched {prompt agentRole : String} {now : Int} {contents : Contents R}
    (threshold : Option R) (answered : cache.searched prompt agentRole now contents = none) :
    ∃ entry, cache.exactEntry prompt agentRole now contents = some entry ∧
      (cache.get prompt agentRole threshold now contents).1 = some entry.response := by
  rw [get]
  unfold searched at answered
  cases exact : cache.exactEntry prompt agentRole now contents with
  | none => simp [exact] at answered
  | some entry =>
    refine ⟨entry, rfl, ?_⟩
    simp only [exact] at answered
    split_ifs at answered with expired
    simp [expired]

omit [Field R] [LinearOrder R] in
private theorem rows_deleteEntry (promptHash : PyValue) (contents : Contents R) :
    (cache.deleteEntry promptHash contents).rows ⊆ contents.rows := by
  unfold deleteEntry
  cases cache.backend <;> exact List.filter_sublist.subset

theorem rows_searched {prompt agentRole : String} {now : Int} {contents found : Contents R}
    (searches : cache.searched prompt agentRole now contents = some found) :
    found.rows ⊆ contents.rows := by
  unfold searched at searches
  split at searches
  · split_ifs at searches
    obtain rfl := Option.some.inj searches
    exact cache.rows_deleteEntry _ _
  · obtain rfl := Option.some.inj searches
    exact List.Subset.refl _

/-! ### Results are rows -/

omit [Field R] [LinearOrder R] in
theorem mem_of_mem_pick {rows : List (Row R)} {positions : List Nat} {row : Row R}
    (held : row ∈ pick rows positions) : row ∈ rows := by
  obtain ⟨position, -, found⟩ := List.mem_filterMap.mp held
  exact List.mem_of_getElem? found

/-- A hit of a search is a row of the store. -/
theorem row_of_mem_search {now : Int} {query : List R} {contents : Contents R} {result : Row R × R}
    (held : result ∈ cache.search now query contents) : result.1 ∈ contents.rows := by
  unfold search at held
  split at held
  · obtain ⟨row, inside, rfl⟩ := List.mem_map.mp held
    exact mem_of_mem_pick inside
  · obtain ⟨row, inside, rfl⟩ := List.mem_map.mp held
    exact mem_of_mem_pick (List.mem_of_mem_take inside)
  · have inside := List.mem_mergeSort.mp (List.mem_of_mem_take held)
    obtain ⟨ranked, among, scored⟩ := List.mem_filterMap.mp inside
    obtain ⟨score, -, rfl⟩ := Option.map_eq_some_iff.mp scored
    exact mem_of_mem_pick (List.fst_mem_of_mem_zipIdx among)

/-! ### The results of a search -/

private theorem score_of_mem_search_memory {numpy : Numpy R}
    (memory : cache.backend = .memory numpy)
    {now : Int} {query : List R} {contents : Contents R} {result : Row R × R}
    (held : result ∈ cache.search now query contents) :
    result.2 = numpy.score contents.rows.length query result.1.vector := by
  rw [search, memory] at held
  obtain ⟨row, -, rfl⟩ := List.mem_map.mp held
  rfl

private theorem score_of_mem_search_lancedb {table : LanceTable R}
    (lancedb : cache.backend = .lancedb table) {now : Int} {query : List R}
    {contents : Contents R} {result : Row R × R} (held : result ∈ cache.search now query contents) :
    result.2 = table.distance query result.1.vector := by
  rw [search, lancedb] at held
  obtain ⟨row, -, rfl⟩ := List.mem_map.mp held
  rfl

private theorem search_ruscadb_sorted {table : RuscaTable R}
    (ruscadb : cache.backend = .ruscadb table)
    (now : Int) (query : List R) (contents : Contents R) :
    (cache.search now query contents).Pairwise fun left right => right.2 ≤ left.2 := by
  rw [search, ruscadb]
  refine (List.Pairwise.imp ?_ (List.pairwise_mergeSort ?_ ?_ _)).take
  · intro left right sorted
    simpa using sorted
  · intro first second third
    simpa using fun before after => le_trans after before
  · intro left right
    simpa using le_total right.2 left.2

private theorem served_eq_some_iff_leader {effectiveThreshold : R} {agentRole : String} {now : Int}
    {results : List (Row R × R)} (result : Row R × R)
    (monotone : Monotone cache.normalizeSimilarity)
    (sorted : results.Pairwise fun left right => right.2 ≤ left.2) :
    cache.served effectiveThreshold agentRole now results = some result ↔
      cache.leader agentRole now results = some result ∧
        ¬cache.normalizeSimilarity result.2 < effectiveThreshold := by
  induction results with
  | nil => simp [served, leader]
  | cons head rest ih =>
    obtain ⟨below, sortedRest⟩ := List.pairwise_cons.mp sorted
    rw [served_cons, leader, List.find?_cons]
    cases allowed : cache.fresh agentRole now head.1 with
    | false => simpa [leader] using ih sortedRest
    | true =>
      by_cases low : cache.normalizeSimilarity head.2 < effectiveThreshold
      · simp only [low, decide_true, Bool.not_true, Bool.false_and, Bool.false_eq_true, if_false,
          Option.some.injEq]
        refine iff_of_false (fun found => ?_) ?_
        · have reaches := List.find?_some found
          simp only [Bool.and_eq_true, Bool.not_eq_true', decide_eq_false_iff_not] at reaches
          exact reaches.1
            ((monotone (below result (List.mem_of_find?_eq_some found))).trans_lt low)
        · rintro ⟨rfl, high⟩
          exact high low
      · simp only [low, decide_false, Bool.not_false, Bool.true_and, if_true,
          Option.some.injEq]
        refine ⟨?_, fun same => same.1⟩
        rintro rfl
        exact ⟨rfl, low⟩

/-! ### Similarity -/

def similarity (norm : List R → R) (query : List R) (row : Row R) : R :=
  match cache.backend with
  | .lancedb table => 1 / (1 + table.distance query row.vector)
  | _ => cosine norm row.vector query

/-- Prompts are embedded on the unit sphere, by the norm that numpy computes. -/
structure UnitNorm (norm : List R → R) (contents : Contents R) : Prop where
  prompts : ∀ prompt, norm (cache.embeddingFn prompt) = 1
  rows : ∀ row ∈ contents.rows, norm row.vector = 1
  numpy : ∀ numpy, cache.backend = .memory numpy → numpy.norm = norm

/-- Every response that `get` finds by search is that of an entry as similar as the
threshold demands. -/
def MeetsThreshold (norm : List R → R) (prompt agentRole : String) (threshold : Option R)
    (now : Int) (contents : Contents R) : Prop :=
  ∀ found, cache.searched prompt agentRole now contents = some found →
    ∀ result, cache.served (cache.effectiveThreshold prompt threshold) agentRole now
        (cache.search now (cache.embeddingFn prompt) found) = some result →
      result.1 ∈ contents.rows ∧
        cache.effectiveThreshold prompt threshold ≤
          cache.similarity norm (cache.embeddingFn prompt) result.1

/-- The score of the result that leads a search may be read as the similarity that the
threshold is about. -/
def LeaderAgrees (norm : List R → R) (query : List R) (effectiveThreshold : R)
    (leader : Option (Row R × R)) : Prop :=
  match cache.backend with
  | .lancedb _ => True
  | .memory _ =>
    0 < effectiveThreshold ∨
      ∀ result, leader = some result →
        effectiveThreshold ≤ cosine norm result.1.vector query
  | .ruscadb _ =>
    ∀ result, leader = some result →
      max 0 (min 1 result.2) < effectiveThreshold ∨
        effectiveThreshold ≤ cosine norm result.1.vector query

/-! ### Cosine scores -/

omit [LinearOrder R] in
private theorem dot_map_div (vector query : List R) (scale : R) :
    dot vector (query.map (· / scale)) = dot vector query / scale := by
  unfold dot
  induction vector generalizing query with
  | nil => simp
  | cons first rest ih =>
    cases query with
    | nil => simp
    | cons other later =>
      simp only [List.map_cons, List.zipWith_cons_cons, List.sum_cons, ih]
      rw [add_div, mul_div_assoc]

omit [LinearOrder R] in
private theorem cosine_of_unit {norm : List R → R} {left right : List R} (unitLeft : norm left = 1)
    (unitRight : norm right = 1) : cosine norm left right = dot left right := by
  rw [cosine, unitLeft, unitRight, mul_one, div_one]

variable [IsStrictOrderedRing R]

private theorem le_of_le_scaled {effectiveThreshold product scale : R}
    (positive : 0 < effectiveThreshold)
    (large : 1 ≤ scale) (reaches : effectiveThreshold ≤ max 0 (min 1 (product / scale))) :
    effectiveThreshold ≤ product := by
  have scaled : effectiveThreshold ≤ product / scale := by
    rcases le_max_iff.mp reaches with none | clamped
    · exact absurd none positive.not_ge
    · exact clamped.trans (min_le_right _ _)
  have above : 0 < scale := zero_lt_one.trans_le large
  have sign : 0 < product := by
    have quotient := positive.trans_le scaled
    rwa [div_pos_iff_of_pos_right above] at quotient
  exact scaled.trans (div_le_self sign.le large)

private theorem score_eq_div (numpy : Numpy R) (batch : Nat) {query vector : List R}
    (unitQuery : numpy.norm query = 1) (unitVector : numpy.norm vector = 1) :
    ∃ scale, 1 ≤ scale ∧ numpy.score batch query vector = dot vector query / scale := by
  have small (digits : Nat) : (1 : R) ≤ 1 + 1 / (10 ^ digits : Nat) :=
    le_add_of_nonneg_right (by positivity)
  unfold Numpy.score
  rw [unitQuery, unitVector, mul_one]
  split_ifs
  · exact ⟨_, le_max_left _ _, rfl⟩
  · exact ⟨_, small 12, rfl⟩
  · exact ⟨_, small 12, dot_map_div _ _ _⟩

/-! ### Which similarity is served -/

section Bounds

variable {norm : List R → R} {contents found : Contents R} {agentRole : String} {now : Int}
  {query : List R} {effectiveThreshold : R} {result : Row R × R}

omit [IsStrictOrderedRing R] in
/-- A served result is one of the search, and its score is as high as the threshold. -/
theorem of_served {results : List (Row R × R)}
    (serves : cache.served effectiveThreshold agentRole now results = some result) :
    result ∈ results ∧ effectiveThreshold ≤ cache.normalizeSimilarity result.2 := by
  have reaches := List.find?_some serves
  simp only [Bool.and_eq_true, Bool.not_eq_true', decide_eq_false_iff_not] at reaches
  exact ⟨List.mem_of_find?_eq_some serves, not_lt.mp reaches.1⟩

omit [IsStrictOrderedRing R] in
private theorem similarity_of_served_lancedb {table : LanceTable R}
    (lancedb : cache.backend = .lancedb table)
    (serves : cache.served effectiveThreshold agentRole now (cache.search now query found) =
      some result) : effectiveThreshold ≤ cache.similarity norm query result.1 := by
  obtain ⟨held, reaches⟩ := cache.of_served serves
  rw [normalizeSimilarity, lancedb, cache.score_of_mem_search_lancedb lancedb held] at reaches
  rw [similarity, lancedb]
  exact reaches

private theorem similarity_of_served_memory {numpy : Numpy R}
    (memory : cache.backend = .memory numpy)
    (positive : 0 < effectiveThreshold) (unitQuery : numpy.norm query = 1)
    (unitRows : ∀ row ∈ found.rows, numpy.norm row.vector = 1)
    (serves : cache.served effectiveThreshold agentRole now (cache.search now query found) =
      some result) : effectiveThreshold ≤ cosine numpy.norm result.1.vector query := by
  obtain ⟨held, reaches⟩ := cache.of_served serves
  have unitRow := unitRows _ (cache.row_of_mem_search held)
  rw [normalizeSimilarity, memory, cache.score_of_mem_search_memory memory held] at reaches
  obtain ⟨scale, large, scaled⟩ := score_eq_div numpy found.rows.length unitQuery unitRow
  rw [scaled] at reaches
  rw [cosine_of_unit unitRow unitQuery]
  exact le_of_le_scaled positive large reaches

omit [IsStrictOrderedRing R] in
private theorem served_eq_leader {numpy : Numpy R} (memory : cache.backend = .memory numpy)
    (low : ¬0 < effectiveThreshold) (results : List (Row R × R)) :
    cache.served effectiveThreshold agentRole now results =
      cache.leader agentRole now results := by
  rw [served, leader]
  congr 1
  funext other
  have high : ¬cache.normalizeSimilarity other.2 < effectiveThreshold := by
    rw [normalizeSimilarity, memory]
    exact not_lt.mpr ((not_lt.mp low).trans (le_max_left _ _))
  simp [high]

omit [IsStrictOrderedRing R] in
private theorem monotone_normalizeSimilarity {table : RuscaTable R}
    (ruscadb : cache.backend = .ruscadb table) : Monotone cache.normalizeSimilarity := by
  intro low high order
  rw [normalizeSimilarity, normalizeSimilarity, ruscadb]
  exact max_le_max_left 0 (min_le_min_left 1 order)

end Bounds

/-- The threshold holds of every response found by search exactly when the score of the
leading result may be read as a similarity: always for LanceDB, in memory for every
positive threshold, for RuscaDB where the rank and the trust of the leader do not
outweigh its cosine. -/
theorem meetsThreshold_iff {norm : List R → R} {contents : Contents R}
    (unit : cache.UnitNorm norm contents) (prompt agentRole : String) (threshold : Option R)
    (now : Int) :
    cache.MeetsThreshold norm prompt agentRole threshold now contents ↔
      ∀ found, cache.searched prompt agentRole now contents = some found →
        cache.LeaderAgrees norm (cache.embeddingFn prompt)
          (cache.effectiveThreshold prompt threshold)
          (cache.leader agentRole now
            (cache.search now (cache.embeddingFn prompt) found)) := by
  refine forall₂_congr fun found searches => ?_
  have inside {result : Row R × R} (serves : cache.served
      (cache.effectiveThreshold prompt threshold) agentRole now
        (cache.search now (cache.embeddingFn prompt) found) = some result) :
      result.1 ∈ contents.rows :=
    cache.rows_searched searches (cache.row_of_mem_search (cache.of_served serves).1)
  unfold LeaderAgrees
  cases backend : cache.backend with
  | lancedb table =>
    exact iff_of_true (fun result serves =>
      ⟨inside serves, cache.similarity_of_served_lancedb backend serves⟩) trivial
  | memory numpy =>
    have similar (row : Row R) : cache.similarity norm (cache.embeddingFn prompt) row =
        cosine norm row.vector (cache.embeddingFn prompt) := by
      rw [similarity, backend]
    simp only [similar]
    obtain rfl := unit.numpy numpy backend
    by_cases positive : 0 < cache.effectiveThreshold prompt threshold
    · refine iff_of_true (fun result serves => ⟨inside serves, ?_⟩) (.inl positive)
      exact cache.similarity_of_served_memory backend positive (unit.prompts prompt)
        (fun row held => unit.rows row (cache.rows_searched searches held)) serves
    · rw [or_iff_right positive]
      refine forall_congr' fun result => ?_
      rw [cache.served_eq_leader backend positive]
      refine forall_congr' fun leads => and_iff_right (inside ?_)
      rw [cache.served_eq_leader backend positive]
      exact leads
  | ruscadb table =>
    have similar (row : Row R) : cache.similarity norm (cache.embeddingFn prompt) row =
        cosine norm row.vector (cache.embeddingFn prompt) := by
      rw [similarity, backend]
    have clamp (score : R) : cache.normalizeSimilarity score = max 0 (min 1 score) := by
      rw [normalizeSimilarity, backend]
    simp only [similar]
    have leads (result : Row R × R) :
        cache.served (cache.effectiveThreshold prompt threshold) agentRole now
            (cache.search now (cache.embeddingFn prompt) found) = some result ↔
          cache.leader agentRole now (cache.search now (cache.embeddingFn prompt) found) =
              some result ∧
            ¬cache.normalizeSimilarity result.2 < cache.effectiveThreshold prompt threshold :=
      cache.served_eq_some_iff_leader result (cache.monotone_normalizeSimilarity backend)
        (cache.search_ruscadb_sorted backend now (cache.embeddingFn prompt) found)
    refine forall_congr' fun result => ⟨fun meets first => ?_, fun agrees serves => ?_⟩
    · by_cases low : max 0 (min 1 result.2) < cache.effectiveThreshold prompt threshold
      · exact .inl low
      · exact .inr (meets ((leads result).mpr ⟨first, by rwa [clamp]⟩)).2
    · obtain ⟨first, high⟩ := (leads result).mp serves
      rw [clamp] at high
      exact ⟨inside serves, (agrees first).resolve_left high⟩

/-! ### A cache of one entry -/

/-- numpy over rational vectors, where a norm is needed of unit vectors only. -/
def plainNumpy : Numpy ℚ where
  norm vector := if dot vector vector = 1 then 1 else 0
  argsort scores := List.range scores.length
  haveCuda := false

/-- A table that lists its rows in their order. The provenance tags are those of a text
without markers. -/
def plainRusca : RuscaTable ℚ where
  retrieval :=
    { engine :=
        { exports := fun _ => true
          execute := fun _ => .ok .none
          getRecord := fun _ _ => .ok .none
          searchBq := fun _ _ _ _ => .ok []
          searchQuantized := fun _ _ _ => .ok []
          searchFiltered := fun _ _ _ _ => .ok [] }
      heatPolicy := none
      textColumns := .empty
      oversampleFor := fun _ => 1
      calibrateBq := false
      calibrationRate := 0
      draw := 0
      fromIsoFormat := fun text => if text = "1970-01-01T00:00:00+00:00" then some 0 else none
      now := 0 }
  exp _ := 1
  log _ := 0
  knn _ vectors _ := List.range vectors.length
  listed ids := ids
  tag metadata :=
    setDefault (setDefault metadata "source" (.str "agent")) "trust_tier" (.str "user_stated")

/-- A cache over a store, at the start of the epoch. Questions about the weather lie at a
right angle to all others. -/
def plainCache (backend : Backend ℚ) : SemanticCache ℚ where
  backend := backend
  threshold := 23 / 25
  defaultTtl := defaultTtlSeconds
  embeddingFn prompt := if prompt = "What is the weather?" then [0, 1] else [1, 0]
  datasetVersion := ""
  failClosed := false
  adaptive := none
  sha256 text := text
  isoFormat _ := "1970-01-01T00:00:00+00:00"
  fromIsoFormat text := if text = "1970-01-01T00:00:00+00:00" then some 0 else none

def passwordCall : SetCall where
  prompt := "How do I reset my password?"
  response := "In the settings."
  now := 0
  id := "0b9d8b1c-8f5e-4c7e-9a52-3f0c2f6d1e11"

private theorem unitNorm_plainCache {backend : Backend ℚ}
    (plain : ∀ numpy, backend = .memory numpy → numpy = plainNumpy)
    (rows : ((plainCache backend).after [passwordCall]).rows =
      [(plainCache backend).rowOf passwordCall "\x7b\x7d"]) :
    (plainCache backend).UnitNorm plainNumpy.norm ((plainCache backend).after [passwordCall]) := by
  have unit : ∀ prompt, plainNumpy.norm ((plainCache backend).embeddingFn prompt) = 1 := by
    intro prompt
    change plainNumpy.norm (if prompt = "What is the weather?" then [0, 1] else [1, 0]) = 1
    split_ifs <;> decide +kernel
  refine ⟨unit, ?_, ?_⟩
  · rw [rows, List.forall_mem_singleton]
    exact unit passwordCall.prompt
  · intro numpy memory
    rw [plain numpy memory]

/-- On the store in memory, a hit meets the threshold. -/
theorem meetsThreshold_memory :
    (plainCache (.memory plainNumpy)).MeetsThreshold plainNumpy.norm "How do I reset a password?"
      "*" none 0 ((plainCache (.memory plainNumpy)).after [passwordCall]) :=
  ((plainCache (.memory plainNumpy)).meetsThreshold_iff
    (unitNorm_plainCache (fun _ same => (Backend.memory.inj same).symm) rfl) _ _ _ _).mpr
      fun _ _ => .inl (by decide +kernel)

/-- The row of that call in RuscaDB. -/
def passwordRow : Row ℚ := (plainCache (.ruscadb plainRusca)).rowOf passwordCall "\x7b\x7d"

private theorem search_plainRusca :
    (plainCache (.ruscadb plainRusca)).search 0 [0, 1]
        ((plainCache (.ruscadb plainRusca)).after [passwordCall]) = [(passwordRow, 1)] := by
  have first : plainRusca.governed 0 passwordRow 0 = some 1 := by
    decide +kernel
  have kept : [(passwordRow, 0)].filterMap (fun ranked =>
      (plainRusca.governed 0 ranked.1 ranked.2).map fun score => (ranked.1, score)) =
        [(passwordRow, 1)] := by
    simp [first]
  change (([(passwordRow, 0)].filterMap fun ranked =>
    (plainRusca.governed 0 ranked.1 ranked.2).map fun score => (ranked.1, score)).mergeSort
      fun left right => !decide (left.2 < right.2)).take topK = _
  rw [kept, List.mergeSort_singleton]
  rfl

/-- The only entry leads every search of RuscaDB, and its rank passes for a cosine. -/
theorem not_meetsThreshold_ruscadb :
    ¬∀ (contents : Contents ℚ) (prompt agentRole : String) (threshold : Option ℚ) (now : Int),
      (plainCache (.ruscadb plainRusca)).UnitNorm plainNumpy.norm contents →
        (plainCache (.ruscadb plainRusca)).MeetsThreshold plainNumpy.norm prompt agentRole threshold
          now contents := by
  intro meets
  have unit := unitNorm_plainCache
    (fun numpy (same : Backend.ruscadb plainRusca = .memory numpy) => by cases same) rfl
  have low := (meets _ "What is the weather?" "*" none 0 unit _ rfl
    (passwordRow, 1) (by
      change (plainCache (.ruscadb plainRusca)).served (23 / 25) "*" 0
        (((plainCache (.ruscadb plainRusca)).search 0 [0, 1] _)) = _
      rw [search_plainRusca, served_cons, if_pos (by decide +kernel)])).2
  exact absurd low (by decide +kernel)

end Swarmind.MemoryRag.SemanticCache
