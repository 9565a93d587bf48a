import Swarmind.Library.Distance
import Swarmind.MemoryRag.RuscaDBStore.Quarantine

/-!
Owns how far `_traverse_from` goes. A collection is what `get_record` shows of it: for
some ids an item and the ids that its edges lead to, for the others nothing. Edges may
lead anywhere, more than once, and in circles.

A round visits one layer, the first round the start itself, so that `depth` rounds stop
one hop before `depth`.
-/

namespace Swarmind.MemoryRag.RuscaDBStore

open Swarmind.Library Distance

variable {R : Type}

/-- What a traversal reads of a record. -/
structure Vertex (R : Type) where
  item : Item R
  targets : List String

/-- The id that an edge leads to. -/
def targetOf : PyValue → Option String
  | .dict members =>
    match get members "node" with
    | .str rid => some rid
    | _ => none
  | _ => none

/-- A record that can be read as the vertex. -/
structure Vertex.Reads (vertex : Vertex R) (record : PyValue) : Prop where
  truthy : record.isTruthy = true
  item : recordToItem record = .ok vertex.item
  edges : ∃ edges, Store.outEdges record = .ok edges ∧
    (∀ edge ∈ edges, ∃ members, edge = .dict members) ∧ edges.filterMap targetOf = vertex.targets

/-- `get_record` shows these records of the collection and no others. -/
structure Store.Shows (store : Store R) (collection : String)
    (records : String → Option (Vertex R)) : Prop where
  missing : ∀ rid, records rid = none →
    ∃ record, store.getRecord collection rid = .ok record ∧ record.isTruthy = false
  present : ∀ rid vertex, records rid = some vertex →
    ∃ record, store.getRecord collection rid = .ok record ∧ vertex.Reads record

/-- An edge leads from the first id to the second. -/
def Link (records : String → Option (Vertex R)) (rid target : String) : Prop :=
  ∃ vertex, records rid = some vertex ∧ target ∈ vertex.targets

def itemsOf (records : String → Option (Vertex R)) (rids : List String) : List (Item R) :=
  (rids.filterMap records).map Vertex.item

/-- Each existing record within `depth` hops is returned once and no other, and those that
are `depth` hops away are in the result of `graph_traverse`, but for what the governance
of results excludes. -/
def Store.Honours [PyFloat R] (store : Store R) (collection : String)
    (records : String → Option (Vertex R)) (start : String) (depth : Nat) : Prop :=
  (∃ rids : List String, rids.Nodup ∧
    (∀ rid, rid ∈ rids ↔
      (records rid).isSome ∧ ∃ hops ≤ depth, AtDistance (Link records) start hops rid) ∧
    store.traverseFrom collection start depth = .ok (itemsOf records rids)) ∧
  (start ≠ "" → ∀ kwargs rid vertex, records rid = some vertex →
    AtDistance (Link records) start depth rid →
    (store.govern (store.retrievalOptions kwargs collection) vertex.item).isSome →
    ∃ items, store.graphTraverse collection depth (some start) kwargs = .ok items ∧
      ∃ item ∈ items, item.raw = vertex.item.raw)

namespace Store

variable {store : Store R} {collection : String} {records : String → Option (Vertex R)}

/-! ### One frontier -/

private theorem edgeTargets_eq (visited : List String) {edges : List PyValue}
    (readable : ∀ edge ∈ edges, ∃ members, edge = .dict members) :
    edgeTargets visited edges =
      .ok ((edges.filterMap targetOf).filter fun target => target ∉ visited) := by
  induction edges with
  | nil => rfl
  | cons edge rest ih =>
    obtain ⟨⟨members, rfl⟩, later⟩ := List.forall_mem_cons.mp readable
    have read : getFrom (.dict members) "node" = .ok (get members "node") := rfl
    rw [edgeTargets, read, ih later]
    cases node : get members "node" with
    | str rid =>
      have target : targetOf (.dict members) = some rid := by rw [targetOf, node]
      rw [List.filterMap_cons_some target]
      by_cases known : rid ∈ visited
      · rw [List.filter_cons_of_neg (by simpa using known)]
        simp [bind, Except.bind, pure, Except.pure, known]
      · rw [List.filter_cons_of_pos (by simpa using known)]
        simp [bind, Except.bind, pure, Except.pure, known]
    | _ =>
      have target : targetOf (.dict members) = none := by rw [targetOf, node]
      rw [List.filterMap_cons_none target]
      rfl

private theorem traverseFrontier_cons_known {rid : String} {rest visited : List String}
    (known : rid ∈ visited) :
    store.traverseFrontier collection (rid :: rest) visited =
      store.traverseFrontier collection rest visited := by
  rw [traverseFrontier, if_pos known]

section

variable (shows : store.Shows collection records)
include shows

private theorem traverseFrontier_cons_missing {rid : String} {rest visited : List String}
    (fresh : rid ∉ visited) (missing : records rid = none) :
    store.traverseFrontier collection (rid :: rest) visited =
      store.traverseFrontier collection rest (visited ++ [rid]) := by
  obtain ⟨record, read, falsy⟩ := shows.missing rid missing
  rw [traverseFrontier, if_neg fresh, read]
  simp [bind, Except.bind, falsy]

private theorem traverseFrontier_cons_present {rid : String} {rest visited : List String}
    (fresh : rid ∉ visited) {vertex : Vertex R} (present : records rid = some vertex) :
    store.traverseFrontier collection (rid :: rest) visited =
      (store.traverseFrontier collection rest (visited ++ [rid])).map fun walked =>
        (walked.1, vertex.item :: walked.2.1,
          (vertex.targets.filter fun target => target ∉ visited ++ [rid]) ++ walked.2.2) := by
  obtain ⟨record, read, truthy, item, edges, out, readable, targets⟩ := shows.present rid vertex
    present
  rw [traverseFrontier, if_neg fresh, read]
  simp only [bind, Except.bind, truthy, if_true, item, out, edgeTargets_eq _ readable, targets]
  cases store.traverseFrontier collection rest (visited ++ [rid]) <;> rfl

private theorem traverseFrontier_spec (frontier visited : List String) :
    ∃ taken next : List String,
      store.traverseFrontier collection frontier visited =
        .ok (visited ++ taken, itemsOf records taken, next) ∧
      taken.Nodup ∧ (∀ rid, rid ∈ taken ↔ rid ∈ frontier ∧ rid ∉ visited) ∧
      (∀ target ∈ next, ∃ rid ∈ taken, Link records rid target) ∧
      ∀ rid ∈ taken, ∀ target, Link records rid target →
        target ∈ next ∨ target ∈ visited ++ taken := by
  induction frontier generalizing visited with
  | nil => exact ⟨[], [], by simp [traverseFrontier, itemsOf], by simp⟩
  | cons rid rest ih =>
    by_cases known : rid ∈ visited
    · obtain ⟨taken, next, walked, distinct, members, back, forth⟩ := ih visited
      refine ⟨taken, next, by rw [traverseFrontier_cons_known known, walked], distinct, ?_,
        back, forth⟩
      intro other
      rw [members, List.mem_cons]
      constructor
      · exact fun ⟨later, fresh⟩ => ⟨.inr later, fresh⟩
      · rintro ⟨rfl | later, fresh⟩
        · exact absurd known fresh
        · exact ⟨later, fresh⟩
    · obtain ⟨taken, next, walked, distinct, members, back, forth⟩ :=
        ih (visited ++ [rid])
      have apart : rid ∉ taken := fun among =>
        ((members rid).mp among).2 (List.mem_append_right _ (List.mem_singleton_self rid))
      have all : visited ++ [rid] ++ taken = visited ++ rid :: taken := by
        rw [List.append_assoc, List.singleton_append]
      have taken_iff (other : String) :
          other ∈ rid :: taken ↔ other ∈ rid :: rest ∧ other ∉ visited := by
        rw [List.mem_cons, List.mem_cons, members, List.mem_append, List.mem_singleton]
        by_cases same : other = rid
        · subst same
          simp [known]
        · simp [same]
      rw [all] at walked forth
      cases found : records rid with
      | none =>
        have empty : itemsOf records (rid :: taken) = itemsOf records taken := by
          rw [itemsOf, List.filterMap_cons_none found, itemsOf]
        refine ⟨rid :: taken, next, ?_, List.nodup_cons.mpr ⟨apart, distinct⟩, taken_iff,
          ?_, ?_⟩
        · rw [traverseFrontier_cons_missing shows known found, walked, empty]
        · intro target among
          obtain ⟨other, isTaken, link⟩ := back target among
          exact ⟨other, List.mem_cons_of_mem _ isTaken, link⟩
        · refine List.forall_mem_cons.mpr ⟨?_, forth⟩
          rintro target ⟨vertex, present, _⟩
          rw [found] at present
          cases present
      | some vertex =>
        have one : itemsOf records (rid :: taken) = vertex.item :: itemsOf records taken := by
          rw [itemsOf, List.filterMap_cons_some found, List.map_cons, itemsOf]
        refine ⟨rid :: taken, (vertex.targets.filter fun target => target ∉ visited ++ [rid]) ++
          next, ?_, List.nodup_cons.mpr ⟨apart, distinct⟩, taken_iff, ?_, ?_⟩
        · rw [traverseFrontier_cons_present shows known found, walked, one]
          rfl
        · intro target among
          rcases List.mem_append.mp among with here | later
          · exact ⟨rid, List.mem_cons_self, vertex, found, (List.mem_filter.mp here).1⟩
          · obtain ⟨other, isTaken, link⟩ := back target later
            exact ⟨other, List.mem_cons_of_mem _ isTaken, link⟩
        · refine List.forall_mem_cons.mpr ⟨?_, fun other isTaken target link => ?_⟩
          · rintro target ⟨other, present, listed⟩
            obtain rfl := Option.some.inj (found.symm.trans present)
            by_cases seen : target ∈ visited ++ [rid]
            · refine .inr ?_
              rw [← all]
              exact List.mem_append_left _ seen
            · exact .inl (List.mem_append_left _
                (List.mem_filter.mpr ⟨listed, decide_eq_true seen⟩))
          · exact (forth other isTaken target link).imp_left (List.mem_append_right _)

end

/-! ### The rounds -/

/-- Between two rounds: what has been visited, and a frontier that holds the next layer. -/
structure Rounds (records : String → Option (Vertex R)) (start : String) (layer : Nat)
    (visited frontier : List String) : Prop where
  visited_iff : ∀ rid, rid ∈ visited ↔ ∃ hops < layer, AtDistance (Link records) start hops rid
  covers : ∀ rid, AtDistance (Link records) start layer rid → rid ∈ frontier
  within : ∀ rid ∈ frontier, ∃ hops ≤ layer, AtDistance (Link records) start hops rid

namespace Rounds

variable {start : String} {layer : Nat} {visited frontier : List String}

private theorem first : Rounds records start 0 [] [start] where
  visited_iff rid := by simp
  covers rid distance := List.mem_singleton.mpr (atDistance_zero_iff.mp distance)
  within rid among :=
    ⟨0, le_rfl, atDistance_zero_iff.mpr (List.mem_singleton.mp among)⟩

private theorem taken_iff (rounds : Rounds records start layer visited frontier) (rid : String) :
    rid ∈ frontier ∧ rid ∉ visited ↔ AtDistance (Link records) start layer rid := by
  constructor
  · rintro ⟨among, fresh⟩
    obtain ⟨hops, atMost, distance⟩ := rounds.within rid among
    rcases Nat.lt_or_ge hops layer with near | far
    · exact absurd ((rounds.visited_iff rid).mpr ⟨hops, near, distance⟩) fresh
    · rwa [Nat.le_antisymm atMost far] at distance
  · intro distance
    refine ⟨rounds.covers rid distance, fun seen => ?_⟩
    obtain ⟨hops, near, nearer⟩ := (rounds.visited_iff rid).mp seen
    exact near.ne (nearer.unique distance)

private theorem next (rounds : Rounds records start layer visited frontier)
    {taken gathered : List String}
    (members : ∀ rid, rid ∈ taken ↔ rid ∈ frontier ∧ rid ∉ visited)
    (back : ∀ target ∈ gathered, ∃ rid ∈ taken, Link records rid target)
    (forth : ∀ rid ∈ taken, ∀ target, Link records rid target →
      target ∈ gathered ∨ target ∈ visited ++ taken) :
    Rounds records start (layer + 1) (visited ++ taken) gathered := by
  have layer_iff (rid : String) : rid ∈ taken ↔ AtDistance (Link records) start layer rid :=
    (members rid).trans (rounds.taken_iff rid)
  have visited_iff (rid : String) : rid ∈ visited ++ taken ↔
      ∃ hops < layer + 1, AtDistance (Link records) start hops rid := by
    rw [List.mem_append, rounds.visited_iff, layer_iff]
    constructor
    · rintro (⟨hops, near, distance⟩ | here)
      · exact ⟨hops, near.trans (Nat.lt_succ_self layer), distance⟩
      · exact ⟨layer, Nat.lt_succ_self layer, here⟩
    · rintro ⟨hops, atMost, distance⟩
      rcases Nat.lt_succ_iff_lt_or_eq.mp atMost with near | rfl
      · exact .inl ⟨hops, near, distance⟩
      · exact .inr distance
  refine ⟨visited_iff, fun rid distance => ?_, fun rid among => ?_⟩
  · obtain ⟨before, earlier, link⟩ := distance.before
    rcases forth before ((layer_iff before).mpr earlier) rid link with found | seen
    · exact found
    · obtain ⟨hops, near, nearer⟩ := (visited_iff rid).mp seen
      exact absurd (nearer.unique distance) near.ne
  · obtain ⟨before, isTaken, link⟩ := back rid among
    exact ((layer_iff before).mp isTaken).follow link

private theorem beyond (rounds : Rounds records start layer visited []) (more : Nat)
    (rid : String) :
    ¬ AtDistance (Link records) start (layer + more) rid := by
  induction more generalizing rid with
  | zero => exact fun distance => List.not_mem_nil (rounds.covers rid distance)
  | succ more ih =>
    intro distance
    obtain ⟨before, earlier, _⟩ := AtDistance.before distance
    exact ih before earlier

end Rounds

private theorem traverseLevels_spec (shows : store.Shows collection records) {start : String}
    (depth : Nat) {layer : Nat} {visited frontier : List String}
    (rounds : Rounds records start layer visited frontier) :
    ∃ rids : List String,
      store.traverseLevels collection depth visited frontier = .ok (itemsOf records rids) ∧
      rids.Nodup ∧ ∀ rid, rid ∈ rids ↔
        ∃ hops, layer ≤ hops ∧ hops < layer + depth ∧
          AtDistance (Link records) start hops rid := by
  induction depth generalizing layer visited frontier with
  | zero =>
    refine ⟨[], rfl, List.nodup_nil, fun rid => iff_of_false List.not_mem_nil ?_⟩
    rintro ⟨hops, atLeast, less, _⟩
    omega
  | succ depth ih =>
    obtain ⟨taken, gathered, walked, distinct, members, back, forth⟩ :=
      traverseFrontier_spec shows frontier visited
    have layer_iff (rid : String) : rid ∈ taken ↔ AtDistance (Link records) start layer rid :=
      (members rid).trans (rounds.taken_iff rid)
    have after := rounds.next members back forth
    have unfolded : store.traverseLevels collection (depth + 1) visited frontier =
        if gathered = [] then .ok (itemsOf records taken)
        else (store.traverseLevels collection depth (visited ++ taken) gathered).map fun later =>
          itemsOf records taken ++ later := by
      rw [traverseLevels, walked]
      simp only [bind, Except.bind, pure, Except.pure]
      split_ifs
      · rfl
      · cases store.traverseLevels collection depth (visited ++ taken) gathered <;> rfl
    rw [unfolded]
    by_cases empty : gathered = []
    · subst empty
      refine ⟨taken, if_pos rfl, distinct, fun rid => ?_⟩
      rw [layer_iff]
      constructor
      · exact fun distance => ⟨layer, le_rfl, by omega, distance⟩
      · rintro ⟨hops, atLeast, _, distance⟩
        obtain ⟨more, rfl⟩ := Nat.exists_eq_add_of_le atLeast
        cases more with
        | zero => exact distance
        | succ more =>
          refine absurd ?_ (after.beyond more rid)
          rwa [Nat.add_assoc, Nat.add_comm 1 more]
    · obtain ⟨rids, walkedLater, distinctLater, later⟩ := ih after
      refine ⟨taken ++ rids, ?_, distinct.append distinctLater ?_, fun rid => ?_⟩
      · rw [if_neg empty, walkedLater, itemsOf, itemsOf, itemsOf, List.filterMap_append,
          List.map_append]
        rfl
      · intro rid here there
        obtain ⟨hops, atLeast, _, distance⟩ := (later rid).mp there
        have same := ((layer_iff rid).mp here).unique distance
        omega
      · rw [List.mem_append, layer_iff, later]
        constructor
        · rintro (here | ⟨hops, atLeast, less, distance⟩)
          · exact ⟨layer, le_rfl, by omega, here⟩
          · exact ⟨hops, by omega, by omega, distance⟩
        · rintro ⟨hops, atLeast, less, distance⟩
          rcases Nat.eq_or_lt_of_le atLeast with rfl | further
          · exact .inl distance
          · exact .inr ⟨hops, further, by omega, distance⟩

private theorem traverseFrom_spec (shows : store.Shows collection records) (start : String)
    (depth : Nat) :
    ∃ rids : List String,
      store.traverseFrom collection start depth = .ok (itemsOf records rids) ∧ rids.Nodup ∧
      ∀ rid, rid ∈ rids ↔
        (records rid).isSome ∧ ∃ hops < depth, AtDistance (Link records) start hops rid := by
  have first : Rounds records start 0 [] [start] := .first
  obtain ⟨rids, walked, distinct, members⟩ := traverseLevels_spec shows depth first
  refine ⟨rids.filter fun rid => (records rid).isSome, ?_, distinct.filter _, fun rid => ?_⟩
  · have same : (rids.filter fun rid => (records rid).isSome).filterMap records =
        rids.filterMap records := by
      rw [List.filterMap_filter]
      apply List.filterMap_congr
      intro rid _
      cases records rid <;> rfl
    rw [traverseFrom, walked, itemsOf, itemsOf, same]
  · rw [List.mem_filter, members, and_comm]
    simp

private theorem length_itemsOf {rids : List String} (present : ∀ rid ∈ rids, (records rid).isSome) :
    (itemsOf records rids).length = rids.length := by
  rw [itemsOf, List.length_map, List.length_filterMap_eq_countP, List.countP_eq_length]
  exact present

/-- `depth` is honoured exactly where no existing record is that many hops away. -/
theorem honours_iff [PyFloat R] (shows : store.Shows collection records) (start : String)
    {depth : Nat} :
    store.Honours collection records start depth ↔
      ∀ rid, (records rid).isSome → ¬ AtDistance (Link records) start depth rid := by
  obtain ⟨rids, walked, distinct, members⟩ := traverseFrom_spec shows start depth
  constructor
  · rintro ⟨⟨promised, _, all, returned⟩, _⟩ rid present distance
    have same : itemsOf records rids = itemsOf records promised :=
      Except.ok.inj (walked.symm.trans returned)
    have missed : rid ∉ rids := by
      intro among
      obtain ⟨_, hops, less, nearer⟩ := (members rid).mp among
      exact less.ne (nearer.unique distance)
    have more : (rid :: rids).Subperm promised := by
      refine List.subperm_of_subset (List.nodup_cons.mpr ⟨missed, distinct⟩) ?_
      refine List.cons_subset.mpr ⟨(all rid).mpr ⟨present, depth, le_rfl, distance⟩, ?_⟩
      intro other among
      obtain ⟨exists', hops, less, nearer⟩ := (members other).mp among
      exact (all other).mpr ⟨exists', hops, less.le, nearer⟩
    have sizes := congrArg List.length same
    rw [length_itemsOf fun other among => ((members other).mp among).1,
      length_itemsOf fun other among => ((all other).mp among).1] at sizes
    have longer := more.length_le
    rw [List.length_cons] at longer
    omega
  · intro none
    refine ⟨⟨rids, distinct, fun rid => ?_, walked⟩, ?_⟩
    · rw [members]
      refine and_congr_right fun present => ?_
      constructor
      · exact fun ⟨hops, less, distance⟩ => ⟨hops, less.le, distance⟩
      · rintro ⟨hops, atMost, distance⟩
        refine ⟨hops, lt_of_le_of_ne atMost ?_, distance⟩
        rintro rfl
        exact none rid present distance
    · intro _ kwargs rid vertex present distance
      exact absurd distance (none rid (by rw [present]; rfl))

end Store

/-! ### One edge -/

/-- The record of an id whose edges lead to the targets. -/
def linkedRecord (rid : String) (targets : List String) : PyValue :=
  .record
    [("scalars", .record [("id", textCell rid), ("text", textCell rid)]),
      ("edges", .record
        [("out", .list (targets.map fun target => .record [("node", .str target)]))])]

def linkedVertex (rid : String) (targets : List String) : Vertex Float where
  item :=
    { id := .str rid
      text := .str rid
      metadata := .dict []
      raw := .record ((asMembers (linkedRecord rid targets)).getD []) }
  targets := targets

/-- An edge from the first record to the second. -/
def oneLink (rid : String) : Option (Vertex Float) :=
  if rid = "a" then some (linkedVertex "a" ["b"])
  else if rid = "b" then some (linkedVertex "b" [])
  else none

def oneLinkStore : Store Float :=
  { poisonedStore with
    engine :=
      { poisonedStore.engine with
        getRecord := fun _ rid => .ok
          (if rid = "a" then linkedRecord "a" ["b"]
          else if rid = "b" then linkedRecord "b" [] else .none) } }

private theorem shows_oneLink : oneLinkStore.Shows "notes" oneLink where
  missing rid absent := by
    refine ⟨_, rfl, ?_⟩
    unfold oneLink at absent
    split_ifs at absent with first second
    rw [if_neg first, if_neg second]
    rfl
  present rid vertex found := by
    refine ⟨_, rfl, ?_⟩
    unfold oneLink at found
    split_ifs at found with first second
    · rw [if_pos first, ← Option.some.inj found]
      refine ⟨rfl, rfl, _, rfl, ?_, rfl⟩
      exact List.forall_mem_singleton.mpr ⟨_, rfl⟩
    · rw [if_neg first, if_pos second, ← Option.some.inj found]
      exact ⟨rfl, rfl, _, rfl, List.forall_mem_nil _, rfl⟩

/-- The equivalence at depth 2 of one link. -/
theorem honours_oneLink : oneLinkStore.Honours "notes" oneLink "a" 2 ↔
    ∀ rid, (oneLink rid).isSome → ¬ AtDistance (Link oneLink) "a" 2 rid :=
  Store.honours_iff shows_oneLink "a"

/-- At depth one the record next to the start is not returned. -/
theorem not_honours : ¬ ∀ (store : Store Float) (collection : String)
    (records : String → Option (Vertex Float)) (start : String) (depth : Nat),
    store.Shows collection records → (records start).isSome → 1 ≤ depth →
      store.Honours collection records start depth := by
  intro promised
  have honours := promised oneLinkStore "notes" oneLink "a" 1 shows_oneLink rfl le_rfl
  have none := (Store.honours_iff shows_oneLink "a").mp honours
  refine none "b" rfl ⟨⟨"a", rfl, linkedVertex "a" ["b"], rfl, List.mem_singleton_self "b"⟩, ?_⟩
  intro fewer less same
  obtain rfl := Nat.lt_one_iff.mp less
  exact absurd (show "b" = "a" from same) (by decide)

end Swarmind.MemoryRag.RuscaDBStore
