import Swarmind.Library.PrefixCode
import Swarmind.MemoryRag.SemanticCache.Roles

/-!
Owns the lookup over aligned contents: the exact entry and what is served of a search
depend on what the role sees, so roles are isolated.
-/

namespace Swarmind.MemoryRag.SemanticCache

open Swarmind.Library RuscaDBStore

variable {R : Type} {cache : SemanticCache R} {agentRole : String}

/-! ### The exact entry -/

private theorem SameVisible.eq_of_visible {call other : SetCall}
    (same : SameVisible agentRole call other)
    (visible : visible agentRole call.agentRole = true) : other = call := by
  obtain ⟨response, rfl, alike⟩ := same
  rw [alike visible]

private theorem lastStored_alike (cache : SemanticCache R) {calls others : List SetCall}
    (same : List.Forall₂ (SameVisible agentRole) calls others) (key : String) :
    (cache.lastStored calls key = none ∧ cache.lastStored others key = none) ∨
      ∃ last other, cache.lastStored calls key = some last ∧
        cache.lastStored others key = some other ∧ SameVisible agentRole last other := by
  unfold lastStored
  rw [List.getLast?_eq_head?_reverse, List.getLast?_eq_head?_reverse]
  refine aligned_head? (List.rel_reverse (aligned_filter ?_ same))
  rintro call _ ⟨response, rfl, -⟩
  rfl

variable [Field R] [LinearOrder R]

section Lookup

variable (documented : cache.Documented)

include documented

private theorem exactEntry_alike_ruscadb {table : RuscaTable R}
    (ruscadb : cache.backend = .ruscadb table)
    {prompt : String} {now : Int} {calls others : List SetCall}
    (same : List.Forall₂ (SameVisible agentRole) calls others)
    (own : cache.AnswersOwn prompt agentRole now calls)
    (aligned : cache.Aligned agentRole (cache.after calls) (cache.after others)) :
    cache.exactEntry prompt agentRole now (cache.after others) =
      cache.exactEntry prompt agentRole now (cache.after calls) := by
  have unanswered (runs : List SetCall)
      (silent : ∀ last, cache.lastStored runs (cache.cacheKey prompt) = some last →
        cache.counts table now last = false) :
      cache.exactEntry prompt agentRole now (cache.after runs) = none := by
    rw [Option.eq_none_iff_forall_ne_some]
    intro entry found
    obtain ⟨last, stored, answers, -⟩ := call_of_exactEntry documented ruscadb found
    exact absurd answers (by rw [silent last stored]; exact Bool.false_ne_true)
  rcases lastStored_alike cache same (cache.cacheKey prompt) with
    ⟨unstored, otherUnstored⟩ | ⟨last, other, stored, otherStored, pair⟩
  · rw [unanswered calls (by simp [unstored]), unanswered others (by simp [otherUnstored])]
  · cases sees : visible agentRole last.agentRole with
    | false =>
      have hidden : cache.counts table now last = false := by
        rw [Bool.eq_false_iff]
        intro answers
        rw [own table ruscadb last stored answers] at sees
        exact Bool.noConfusion sees
      have otherHidden : cache.counts table now other = false := by
        obtain ⟨response, rfl, -⟩ := pair
        exact hidden
      rw [unanswered calls (by simp [stored, hidden]),
        unanswered others (by simp [otherStored, otherHidden])]
    | true =>
      obtain rfl := pair.eq_of_visible sees
      have rows {runs : List SetCall} {row : KeyedRow}
          (kept : cache.lastStored runs (cache.cacheKey prompt) = some other)
          (found : (cache.after runs).keyed.find?
            (fun row => row.key = cache.cacheKey prompt) = some row) :
          row = cache.keyedRowOf other := by
        obtain ⟨call, keptCall, rfl⟩ :=
          keyed_after documented ruscadb (List.mem_of_find?_eq_some found)
        have key : (cache.keyedRowOf call).key = cache.cacheKey prompt := by
          simpa using List.find?_some found
        rw [key, kept] at keptCall
        rw [Option.some.inj keptCall]
      have first : (cache.after others).keyed.find? (fun row => row.key = cache.cacheKey prompt) =
          (cache.after calls).keyed.find? fun row => row.key = cache.cacheKey prompt := by
        have heads := aligned_head? (aligned_filter
          (p := fun row => decide (row.key = cache.cacheKey prompt))
          (q := fun row => decide (row.key = cache.cacheKey prompt))
          (fun row other (pair : cache.KeyedPair agentRole row other) => by rw [pair.key])
          aligned.keyed)
        rw [List.head?_filter, List.head?_filter] at heads
        rcases heads with ⟨missing, otherMissing⟩ | ⟨row, otherRow, found, otherFound, -⟩
        · rw [missing, otherMissing]
        · rw [found, otherFound, rows stored found, rows otherStored otherFound]
      rw [exactEntry, exactEntry, searchExact, searchExact]
      simp only [ruscadb]
      rw [searchExactPersistent, searchExactPersistent, RuscaTable.cacheGetMeta,
        RuscaTable.cacheGetMeta, first]

private theorem exactEntry_alike {prompt : String} {now : Int} (role : agentRole ≠ "*")
    {calls others : List SetCall} (same : List.Forall₂ (SameVisible agentRole) calls others)
    (own : cache.AnswersOwn prompt agentRole now calls)
    (undisturbed : cache.Undisturbed agentRole calls)
    (aligned : cache.Aligned agentRole (cache.after calls) (cache.after others)) :
    cache.exactEntry prompt agentRole now (cache.after others) =
      cache.exactEntry prompt agentRole now (cache.after calls) := by
  cases backend : cache.backend with
  | ruscadb table => exact exactEntry_alike_ruscadb documented backend same own aligned
  | memory numpy =>
    have rows := aligned_filter_eq
      (fun row => row.promptHash.equals (.str (cache.cacheKey prompt)) &&
        admits agentRole row.role)
      (fun row other pair => by rw [pair.promptHash documented, pair.role documented])
      (fun row other pair seen => pair.eq_of_admits documented (Bool.and_eq_true_iff.mp seen).2)
      aligned.rows
    have first := congrArg List.head? rows
    rw [List.head?_filter, List.head?_filter] at first
    rw [exactEntry, exactEntry, searchExact, searchExact]
    simp only [backend]
    rw [first]
  | lancedb table =>
    have unquoted : '\'' ∉ agentRole.toList := by
      unfold Undisturbed at undisturbed
      rw [backend] at undisturbed
      exact undisturbed.2
    have clause (row : Row R) : table.holds (exactClause (cache.cacheKey prompt) agentRole) row =
        (row.promptHash.equals (.str (cache.cacheKey prompt)) &&
          row.role.equals (.str agentRole)) :=
      (documented.clauses table backend _ agentRole row
        (quote_not_mem_cacheKey documented prompt) unquoted).2 role
    have rows := aligned_filter_eq
      (table.holds (exactClause (cache.cacheKey prompt) agentRole))
      (fun row other pair => by
        rw [clause, clause, pair.promptHash documented, pair.role documented])
      (fun row other pair seen => by
        rw [clause, Bool.and_eq_true] at seen
        exact pair.eq_of_admits documented (by rw [admits, seen.2, Bool.or_true, Bool.true_or]))
      aligned.rows
    rw [exactEntry, exactEntry, searchExact, searchExact]
    simp only [backend]
    rw [LanceTable.first, LanceTable.first, rows]

end Lookup

/-! ### The search -/

private theorem promptHash_of_exactEntry {prompt agentRole : String} {now : Int}
    {contents : Contents R}
    {entry : CacheEntry} (found : cache.exactEntry prompt agentRole now contents = some entry) :
    entry.promptHash = .str (cache.cacheKey prompt) := by
  have exact := (Option.filter_eq_some_iff.mp found).1
  have of_entry {row : Row R}
      (made : entryOf agentRole (cache.cacheKey prompt) row = some entry) :
      entry.promptHash = .str (cache.cacheKey prompt) := by
    unfold entryOf at made
    split_ifs at made
    obtain rfl := Option.some.inj made
    rfl
  unfold searchExact at exact
  split at exact
  · obtain ⟨stored, -, made⟩ := Option.bind_eq_some_iff.mp exact
    split at made
    · split_ifs at made
      obtain rfl := Option.some.inj made
      rfl
    · cases made
  · obtain ⟨row, -, made⟩ := Option.bind_eq_some_iff.mp exact
    exact of_entry made
  · obtain ⟨row, -, made⟩ := Option.bind_eq_some_iff.mp exact
    exact of_entry made

section Search

variable (documented : cache.Documented)

include documented

private theorem searched_alike {prompt : String} {now : Int} {contents others : Contents R}
    (aligned : cache.Aligned agentRole contents others)
    (exact : cache.exactEntry prompt agentRole now others =
      cache.exactEntry prompt agentRole now contents) :
    (cache.searched prompt agentRole now contents = none ∧
        cache.searched prompt agentRole now others = none) ∨
      ∃ found otherFound, cache.searched prompt agentRole now contents = some found ∧
        cache.searched prompt agentRole now others = some otherFound ∧
          cache.Aligned agentRole found otherFound := by
  unfold searched
  rw [exact]
  cases entry : cache.exactEntry prompt agentRole now contents with
  | none => exact .inr ⟨contents, others, rfl, rfl, aligned⟩
  | some entry =>
    dsimp only
    split_ifs
    · refine .inr ⟨_, _, rfl, rfl, ?_⟩
      rw [promptHash_of_exactEntry ‹_›]
      exact aligned_deleteEntry documented prompt aligned
    · exact .inl ⟨rfl, rfl⟩

/-- The results that a role sees. -/
def seen (agentRole : String) (results : List (Row R × R)) : List (Row R × R) :=
  results.filter fun result => admits agentRole result.1.role

omit [Field R] [LinearOrder R] in
private theorem seen_scored {rows others : List (Row R)} (score : Row R → R)
    (alike : ∀ row other, cache.RowPair agentRole row other → score row = score other)
    (aligned : List.Forall₂ (cache.RowPair agentRole) rows others) :
    seen agentRole (rows.map fun row => (row, score row)) =
      seen agentRole (others.map fun row => (row, score row)) := by
  refine aligned_filter_eq (fun result : Row R × R => admits agentRole result.1.role)
    (S := fun result other => cache.RowPair agentRole result.1 other.1 ∧ result.2 = other.2)
    (fun result other pair => by rw [pair.1.role documented])
    (fun result other pair visible =>
      Prod.ext (pair.1.eq_of_admits documented visible) pair.2) ?_
  rw [List.forall₂_map_left_iff, List.forall₂_map_right_iff]
  exact aligned.imp fun row other pair => ⟨pair, alike row other pair⟩

omit documented [Field R] [LinearOrder R] in
private theorem seen_filterMap (governed : Row R → Nat → Option R) (agentRole : String)
    (ranked : List (Row R × Nat)) :
    seen agentRole (ranked.filterMap fun ranked =>
        (governed ranked.1 ranked.2).map fun score => (ranked.1, score)) =
      (ranked.filter fun ranked => admits agentRole ranked.1.role).filterMap fun ranked =>
        (governed ranked.1 ranked.2).map fun score => (ranked.1, score) := by
  rw [seen, List.filter_filterMap, List.filterMap_filter]
  congr 1
  funext ranked
  cases governed ranked.1 ranked.2 with
  | none => simp
  | some score => cases allowed : admits agentRole ranked.1.role <;> simp [Option.filter, allowed]

private theorem seen_search_ruscadb (table : RuscaTable R) (now : Int) (query : List R)
    {rows others : List (Row R)} (aligned : List.Forall₂ (cache.RowPair agentRole) rows others) :
    seen agentRole (table.search now query rows) =
      seen agentRole (table.search now query others) := by
  have vectors := aligned_map_eq (fun row other pair => pair.vector) aligned
  have transitive (first second third : Row R × R) :
      (!decide (first.2 < second.2)) = true → (!decide (second.2 < third.2)) = true →
        (!decide (first.2 < third.2)) = true := by
    simpa using fun before after => le_trans after before
  have total (left right : Row R × R) :
      (!decide (left.2 < right.2) || !decide (right.2 < left.2)) = true := by
    simpa using le_total right.2 left.2
  have ranked := aligned_zipIdx
    (aligned_positions aligned ((table.knn query (others.map Row.vector) topK).take topK)) 0
  have visible := aligned_filter_eq
    (fun ranked : Row R × Nat => admits agentRole ranked.1.role)
    (fun row other pair => by rw [pair.1.role documented])
    (fun row other pair visible =>
      Prod.ext (pair.1.eq_of_admits documented visible) pair.2) ranked
  have short (rows : List (Row R)) (positions : List Nat) :
      (((pick rows (positions.take topK)).zipIdx.filterMap fun ranked =>
        (table.governed now ranked.1 ranked.2).map fun score => (ranked.1, score)).mergeSort
          fun left right => !decide (left.2 < right.2)).length ≤ topK := by
    rw [List.length_mergeSort]
    refine (List.length_filterMap_le _ _).trans ?_
    rw [List.length_zipIdx]
    exact (List.length_filterMap_le _ _).trans (List.length_take_le _ _)
  rw [RuscaTable.search, RuscaTable.search, vectors]
  have sorts (kept : List (Row R × R)) :
      seen agentRole (kept.mergeSort fun left right => !decide (left.2 < right.2)) =
        (seen agentRole kept).mergeSort fun left right => !decide (left.2 < right.2) :=
    filter_mergeSort transitive total _ kept
  rw [List.take_of_length_le (short rows _), List.take_of_length_le (short others _), sorts, sorts,
    seen_filterMap, seen_filterMap]
  exact congrArg (fun ranked => List.mergeSort (List.filterMap _ ranked) _) visible

private theorem seen_search (now : Int) (query : List R) {contents others : Contents R}
    (aligned : cache.Aligned agentRole contents others) :
    seen agentRole (cache.search now query contents) =
      seen agentRole (cache.search now query others) := by
  unfold search
  cases backend : cache.backend with
  | ruscadb table => exact seen_search_ruscadb documented table now query aligned.rows
  | lancedb table =>
    refine seen_scored documented _ (fun row other pair => by rw [pair.vector])
      (aligned_table_search table query topK aligned.rows)
  | memory numpy =>
    have length := aligned.rows.length_eq
    have scores := aligned_map_eq (fun row other pair =>
      congrArg (numpy.score contents.rows.length query) pair.vector) aligned.rows
    dsimp only [Numpy.search]
    rw [← length, scores]
    exact seen_scored documented _ (fun row other pair => by rw [pair.vector])
      (aligned_positions aligned.rows _)

end Search

private theorem served_seen (effectiveThreshold : R) (agentRole : String) (now : Int)
    (results : List (Row R × R)) :
    cache.served effectiveThreshold agentRole now (seen agentRole results) =
      cache.served effectiveThreshold agentRole now results := by
  rw [served, served, seen, List.find?_filter]
  congr 1
  funext result
  cases allowed : admits agentRole result.1.role with
  | true => simp only [true_and, Bool.decide_eq_true]
  | false => simp [fresh, servable, allowed]

/-! ### Isolation -/

private theorem get_alike (documented : cache.Documented) {prompt : String} {threshold : Option R}
    {now : Int} (role : agentRole ≠ "*") {calls others : List SetCall}
    (same : List.Forall₂ (SameVisible agentRole) calls others)
    (own : cache.AnswersOwn prompt agentRole now calls)
    (undisturbed : cache.Undisturbed agentRole calls)
    (otherUndisturbed : cache.Undisturbed agentRole others) :
    (cache.get prompt agentRole threshold now (cache.after others)).1 =
      (cache.get prompt agentRole threshold now (cache.after calls)).1 := by
  have settled {calls : List SetCall} (undisturbed : cache.Undisturbed agentRole calls)
      (plain : ∀ table, cache.backend ≠ .ruscadb table) : cache.Settled agentRole calls := by
    unfold Undisturbed at undisturbed
    cases backend : cache.backend with
    | memory numpy => simpa [backend] using undisturbed
    | lancedb table =>
      rw [backend] at undisturbed
      exact undisturbed.1
    | ruscadb table => exact absurd backend (plain table)
  have aligned := aligned_after documented same fun plain =>
    ⟨settled undisturbed plain, settled otherUndisturbed plain⟩
  have exact := exactEntry_alike documented role same own undisturbed aligned
  rcases searched_alike documented aligned exact with
    ⟨answered, otherAnswered⟩ | ⟨found, otherFound, searches, otherSearches, left⟩
  · obtain ⟨entry, first, response⟩ := cache.get_of_not_searched threshold answered
    obtain ⟨other, second, otherResponse⟩ := cache.get_of_not_searched threshold otherAnswered
    rw [exact, first] at second
    rw [response, otherResponse, Option.some.inj second]
  · rw [cache.get_of_searched threshold searches, cache.get_of_searched threshold otherSearches,
      ← served_seen, ← seen_search documented now _ left, served_seen]

/-- Where RuscaDB answers with calls that the role sees, roles are isolated. -/
theorem isolated_of_answersOwn (documented : cache.Documented) {prompt agentRole : String}
    {threshold : Option R} {now : Int} (role : agentRole ≠ "*") {calls : List SetCall}
    (own : cache.AnswersOwn prompt agentRole now calls) :
    cache.Isolated prompt agentRole threshold now calls where
  own _ given := visible_of_get documented own given
  uninfluenced _ same undisturbed otherUndisturbed :=
    get_alike documented role same own undisturbed otherUndisturbed

/-! ### A shared cache -/

/-- A moment as a text: the epoch in ISO format, the others in unary. -/
def isoAt (moment : Int) : String :=
  if moment = 0 then "1970-01-01T00:00:00+00:00"
  else String.ofList ((if 0 < moment then '+' else '-') :: List.replicate moment.natAbs '1')

def fromIsoAt (text : String) : Option Int :=
  if text = "1970-01-01T00:00:00+00:00" then some 0
  else
    match text.toList with
    | '+' :: ticks => some ticks.length
    | '-' :: ticks => some (-ticks.length)
    | _ => none

private theorem fromIsoAt_isoAt (moment : Int) : fromIsoAt (isoAt moment) = some moment := by
  unfold isoAt
  split_ifs with epoch later
  · rw [epoch]
    rfl
  · have other : String.ofList ('+' :: List.replicate moment.natAbs '1') ≠
        "1970-01-01T00:00:00+00:00" := fun same =>
      absurd (congrArg (fun text => text.toList.head?) same) (by simp)
    rw [fromIsoAt, if_neg other, String.toList_ofList]
    simp only [List.length_replicate, Option.some.injEq]
    omega
  · have other : String.ofList ('-' :: List.replicate moment.natAbs '1') ≠
        "1970-01-01T00:00:00+00:00" := fun same =>
      absurd (congrArg (fun text => text.toList.head?) same) (by simp)
    rw [fromIsoAt, if_neg other, String.toList_ofList]
    simp only [List.length_replicate, Option.some.injEq]
    omega

private theorem isoAt_ne_empty (moment : Int) : isoAt moment ≠ "" := by
  intro blank
  have read := fromIsoAt_isoAt moment
  rw [blank] at read
  cases read

/-- A table that reads these moments. -/
def sharedRusca : RuscaTable ℚ :=
  { plainRusca with retrieval := { plainRusca.retrieval with fromIsoFormat := fromIsoAt } }

/-- A cache whose digests and moments tell prompts and times apart. -/
def sharedCache (backend : Backend ℚ) : SemanticCache ℚ :=
  { plainCache backend with
    sha256 := digestAt "\nHow do I reset my password?"
      "c0445adb233289e2b0d6e8395ff07395825165c8dc1869fdca025106317257bc"
    isoFormat := isoAt
    fromIsoFormat := fromIsoAt }

private theorem find_setDefault {key other : String} (different : key ≠ other) (metadata : Members)
    (value : PyValue) :
    Dict.find (.str key) (setDefault metadata other value) = Dict.find (.str key) metadata := by
  unfold setDefault
  split_ifs
  · rfl
  · rw [Dict.find_assign, if_neg (by simpa using different.symm)]

theorem documented_sharedCache {backend : Backend ℚ}
    (known : backend = .memory plainNumpy ∨ backend = .ruscadb sharedRusca) :
    (sharedCache backend).Documented where
  moments := fromIsoAt_isoAt
  stamped := isoAt_ne_empty
  digests text := mem_digestAt (List.forall_iff_forall_mem.mp (by decide +kernel))
  nonempty text := digestAt_ne_empty (by decide)
  clauses table lancedb := by
    rcases known with rfl | rfl <;> cases lancedb
  stamps table ruscadb := by
    rcases known with rfl | rfl
    · cases ruscadb
    · obtain rfl := Backend.ruscadb.inj ruscadb
      rfl
  tags table ruscadb key own metadata := by
    rcases known with rfl | rfl
    · cases ruscadb
    · obtain rfl := Backend.ruscadb.inj ruscadb
      have others : key ≠ "source" ∧ key ≠ "trust_tier" := by
        revert key
        decide
      exact (find_setDefault others.2 _ _).trans (find_setDefault others.1 _ _)

/-- A response for one role. -/
def secretCall : SetCall :=
  { passwordCall with response := "The recovery code is 4711.", agentRole := "builder" }

/-- A later response to the prompt, for another role. -/
def publicCall : SetCall := { passwordCall with agentRole := "scientist" }

/-- The last response stored for the prompt is the `scientist`'s own. -/
theorem isolated_publicCall : "scientist" ≠ "*" ∧
    (sharedCache (.ruscadb sharedRusca)).Isolated passwordCall.prompt "scientist" none 0
      [secretCall, publicCall] := by
  refine ⟨by decide, isolated_of_answersOwn (documented_sharedCache (.inr rfl)) (by decide) ?_⟩
  intro table _ last stored _
  have latest : (sharedCache (.ruscadb sharedRusca)).lastStored [secretCall, publicCall]
      ((sharedCache (.ruscadb sharedRusca)).cacheKey passwordCall.prompt) = some publicCall := by
    rfl
  obtain rfl := Option.some.inj (latest.symm.trans stored)
  decide

/-- RuscaDB gives the response of one role to another: the key of an exact lookup has no
role in it. -/
theorem not_isolated_secretCall :
    ¬∀ (prompt agentRole : String) (calls : List SetCall), agentRole ≠ "*" →
      (sharedCache (.ruscadb sharedRusca)).Isolated prompt agentRole none 0 calls := by
  intro isolated
  have given : ((sharedCache (.ruscadb sharedRusca)).get passwordCall.prompt "scientist" none 0
      ((sharedCache (.ruscadb sharedRusca)).after [secretCall])).1 =
        some (.str secretCall.response) :=
    get_of_keyed (documented_sharedCache (.inr rfl)) rfl rfl (by decide +kernel) (by decide)
      (by decide)
  obtain ⟨call, among, -, sees⟩ :=
    (isolated passwordCall.prompt "scientist" [secretCall] (by decide)).own _ given
  obtain rfl := List.mem_singleton.mp among
  exact absurd sees (by decide)

end Swarmind.MemoryRag.SemanticCache
