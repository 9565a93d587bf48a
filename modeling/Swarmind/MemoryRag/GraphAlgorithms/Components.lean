import Swarmind.Library.BreadthFirst
import Swarmind.MemoryRag.GraphAlgorithms.Graph

/-!
Owns the components of a graph. The nodes are taken in the order of their set;
each that no search has met starts a search of its own, which follows edges in
their direction and collects what it meets.
-/

namespace Swarmind.MemoryRag.GraphAlgorithms

open Swarmind.Library BreadthFirst

section

variable {α : Type} [DecidableEq α]

/-- The loop over the nodes; a search takes at most `fuel` steps. -/
def searchAll (adj : Adjacency α) (fuel : Nat) : List α → Finset α → Option (List (Finset α))
  | [], _ => some []
  | start :: rest, visited =>
    if start ∈ visited then searchAll adj fuel rest visited
    else
      (search (neighborsOf adj) fuel (insert start visited) [start] ∅).bind fun found =>
        (searchAll adj fuel rest found.1).map fun components => found.2 :: components

/-- `connected_components`: no search has more steps than there are nodes. -/
def connectedComponents (adj : Adjacency α) (order : NodeOrder adj) : Option (List (Finset α)) :=
  searchAll adj order.nodes.length order.nodes ∅

abbrev Path (adj : Adjacency α) : α → α → Prop := Reaches (neighborsOf adj)

/-- A path along edges in either direction. -/
def Connected (adj : Adjacency α) : α → α → Prop :=
  Relation.EqvGen fun left right => right ∈ neighborsOf adj left

/-- What the searches from the nodes find after the searches from those before: each
finds what it reaches and those before did not. -/
inductive Decomposes (adj : Adjacency α) : List α → List α → List (Finset α) → Prop where
  | done (before : List α) : Decomposes adj before [] []
  | met {before rest : List α} {start : α} {components : List (Finset α)}
      (reached : ∃ earlier ∈ before, Path adj earlier start)
      (later : Decomposes adj (before ++ [start]) rest components) :
      Decomposes adj before (start :: rest) components
  | found {before rest : List α} {start : α} {component : Finset α}
      {components : List (Finset α)} (fresh : ∀ earlier ∈ before, ¬ Path adj earlier start)
      (members : ∀ node, node ∈ component ↔
        Path adj start node ∧ ∀ earlier ∈ before, ¬ Path adj earlier node)
      (later : Decomposes adj (before ++ [start]) rest components) :
      Decomposes adj before (start :: rest) (component :: components)

variable {adj : Adjacency α}

private theorem closed_nodes (order : NodeOrder adj) : Closed
    (neighborsOf adj) order.nodes.toFinset :=
  fun _ _ _ follows => List.mem_toFinset.mpr (neighborsOf_mem order follows)

private theorem reached_concat {before : List α} {start node : α} :
    (∃ earlier ∈ before ++ [start], Path adj earlier node) ↔
      (∃ earlier ∈ before, Path adj earlier node) ∨ Path adj start node := by
  simp only [List.mem_append, List.mem_singleton, or_and_right, exists_or, exists_eq_left]

private theorem searchAll_spec (order : NodeOrder adj) {rest before : List α}
    (within : ∀ node ∈ rest, node ∈ order.nodes) {visited : Finset α}
    (marks : ∀ node, node ∈ visited ↔ ∃ earlier ∈ before, Path adj earlier node) :
    ∃ components, searchAll adj order.nodes.length rest visited = some components ∧
      Decomposes adj before rest components := by
  induction rest generalizing before visited with
  | nil => exact ⟨[], rfl, .done before⟩
  | cons start rest ih =>
    obtain ⟨inside, later⟩ := List.forall_mem_cons.mp within
    by_cases known : start ∈ visited
    · obtain ⟨earlier, among, path⟩ := (marks start).mp known
      have extended (node : α) :
          node ∈ visited ↔ ∃ earlier ∈ before ++ [start], Path adj earlier node := by
        rw [marks, reached_concat]
        exact ⟨.inl, fun either => either.elim id fun onward =>
          ⟨earlier, among, path.trans onward⟩⟩
      obtain ⟨components, ended, decomposes⟩ := ih later extended
      exact ⟨components, by rw [searchAll, if_pos known, ended],
        .met ⟨earlier, among, path⟩ decomposes⟩
    · have closedVisited : Closed (neighborsOf adj) visited := by
        intro node among other follows
        obtain ⟨earlier, old, path⟩ := (marks node).mp among
        exact (marks other).mpr ⟨earlier, old, path.tail follows⟩
      have size : order.nodes.toFinset.card ≤ order.nodes.length := List.toFinset_card_le _
      obtain ⟨marked, component, found, markedIff, members⟩ := search_first (closed_nodes order)
        closedVisited (List.mem_toFinset.mpr inside) known size
      have extended (node : α) :
          node ∈ marked ↔ ∃ earlier ∈ before ++ [start], Path adj earlier node := by
        rw [markedIff, members, reached_concat, ← marks]
        tauto
      obtain ⟨components, ended, decomposes⟩ := ih later extended
      have unreached (node : α) :
          node ∉ visited ↔ ∀ earlier ∈ before, ¬ Path adj earlier node := by
        rw [marks]
        exact ⟨fun none earlier among path => none ⟨earlier, among, path⟩,
          fun each ⟨earlier, among, path⟩ => each earlier among path⟩
      refine ⟨component :: components, ?_, .found ((unreached start).mp known) ?_ decomposes⟩
      · rw [searchAll, if_neg known, found, Option.bind_some, ended, Option.map_some]
      · intro node
        rw [members, unreached]

/-! ### What is found -/

omit [DecidableEq α] in
private theorem exists_split_cons {holds : List α → α → Prop} {head : α} {rest : List α} :
    (∃ middle start after, head :: rest = middle ++ start :: after ∧ holds middle start) ↔
      holds [] head ∨
        ∃ middle start after, rest = middle ++ start :: after ∧ holds (head :: middle) start := by
  constructor
  · rintro ⟨middle, start, after, split, held⟩
    cases middle with
    | nil =>
      rw [(List.cons.inj split).1]
      exact .inl held
    | cons first middle =>
      obtain ⟨rfl, later⟩ := List.cons.inj split
      exact .inr ⟨middle, start, after, later, held⟩
  · rintro (held | ⟨middle, start, after, rfl, held⟩)
    · exact ⟨[], head, rest, rfl, held⟩
    · exact ⟨head :: middle, start, after, rfl, held⟩

/-- Both nodes have paths from the first node that has a path to either of them. -/
def Share (adj : Adjacency α) (left right : α) (before : List α) (start : α) : Prop :=
  (Path adj start left ∧ Path adj start right) ∧
    ∀ earlier ∈ before, ¬ Path adj earlier left ∧ ¬ Path adj earlier right

private theorem Decomposes.together_iff {before rest : List α} {components : List (Finset α)}
    (decomposes : Decomposes adj before rest components) (left right : α) :
    (∃ component ∈ components, left ∈ component ∧ right ∈ component) ↔
      ∃ middle start after, rest = middle ++ start :: after ∧
        Share adj left right (before ++ middle) start := by
  induction decomposes with
  | done before => simp
  | @met before rest start components reached _ ih =>
    have unshared : ¬ Share adj left right before start := by
      intro share
      obtain ⟨earlier, among, path⟩ := reached
      exact (share.2 earlier among).1 (path.trans share.1.1)
    rw [ih, exists_split_cons, List.append_nil, or_iff_right unshared]
    simp only [List.append_assoc, List.singleton_append]
  | @found before rest start component components fresh members _ ih =>
    have both : left ∈ component ∧ right ∈ component ↔ Share adj left right before start := by
      rw [members, members, Share, forall₂_and]
      tauto
    rw [List.exists_mem_cons_iff, ih, exists_split_cons, List.append_nil, both]
    simp only [List.append_assoc, List.singleton_append]

private theorem Decomposes.disjoint {before rest : List α} {components : List (Finset α)}
    (decomposes : Decomposes adj before rest components) :
    components.Pairwise Disjoint ∧
      ∀ component ∈ components, ∀ node ∈ component, ∀ earlier ∈ before,
        ¬ Path adj earlier node := by
  induction decomposes with
  | done before => exact ⟨.nil, fun _ none => absurd none List.not_mem_nil⟩
  | met reached _ ih =>
    obtain ⟨apart, unreached⟩ := ih
    exact ⟨apart, fun component among node member earlier old =>
      unreached component among node member earlier (List.mem_append_left _ old)⟩
  | found fresh members _ ih =>
    obtain ⟨apart, unreached⟩ := ih
    constructor
    · refine List.pairwise_cons.mpr ⟨fun other among => ?_, apart⟩
      rw [Finset.disjoint_left]
      intro node here there
      exact unreached other among node there _ (List.mem_append_right _ List.mem_cons_self)
        ((members node).mp here).1
    · intro component among node member earlier old
      rcases List.mem_cons.mp among with rfl | later
      · exact ((members node).mp member).2 earlier old
      · exact unreached component later node member earlier (List.mem_append_left _ old)

private theorem exists_components (order : NodeOrder adj) :
    ∃ components, connectedComponents adj order = some components ∧
      Decomposes adj [] order.nodes components := by
  refine searchAll_spec order (fun _ among => among) fun node => ?_
  exact iff_of_false (Finset.notMem_empty node) fun ⟨_, absent, _⟩ => List.not_mem_nil absent

/-! ### Weak components -/

/-- The sets are apart, they cover the nodes, and they keep together exactly what edges
connect whatever their direction. -/
structure Weak (adj : Adjacency α) (components : List (Finset α)) : Prop where
  disjoint : components.Pairwise Disjoint
  cover : ∀ node, (∃ component ∈ components, node ∈ component) ↔ IsNode adj node
  together : ∀ left right, IsNode adj left → IsNode adj right →
    ((∃ component ∈ components, left ∈ component ∧ right ∈ component) ↔ Connected adj left right)

private theorem Path.connected {left right : α} (path : Path adj left right) :
    Connected adj left right := by
  induction path with
  | refl => exact .refl left
  | tail _ follows ih => exact .trans _ _ _ ih (.rel _ _ follows)

omit [DecidableEq α] in
private theorem exists_first {nodes : List α} (holds : α → Prop)
    (occurs : ∃ node ∈ nodes, holds node) :
    ∃ before first after, nodes = before ++ first :: after ∧ holds first ∧
      ∀ earlier ∈ before, ¬ holds earlier := by
  classical
  obtain ⟨node, among, held⟩ := occurs
  have isSome : (nodes.find? fun node => decide (holds node)).isSome :=
    List.find?_isSome.mpr ⟨node, among, decide_eq_true held⟩
  obtain ⟨first, found⟩ := Option.isSome_iff_exists.mp isSome
  obtain ⟨holdsFirst, before, after, split, earlier⟩ := List.find?_eq_some_iff_append.mp found
  refine ⟨before, first, after, split, of_decide_eq_true holdsFirst, fun other old => ?_⟩
  simpa using earlier other old

/-- The first node of each part that edges connect has paths to all of it. -/
def Rooted (adj : Adjacency α) (order : NodeOrder adj) : Prop :=
  ∀ before first after, order.nodes = before ++ first :: after →
    (∀ earlier ∈ before, ¬ Connected adj earlier first) →
      ∀ node, Connected adj first node → Path adj first node

section

variable {order : NodeOrder adj} {components : List (Finset α)}

private theorem together_iff (decomposes : Decomposes adj [] order.nodes components)
    (left right : α) :
    (∃ component ∈ components, left ∈ component ∧ right ∈ component) ↔
      ∃ before first after, order.nodes = before ++ first :: after ∧
        Share adj left right before first := by
  rw [decomposes.together_iff]
  rfl

private theorem Share.connected {left right first : α} {before : List α}
    (share : Share adj left right before first) : Connected adj left right :=
  .trans _ _ _ (.symm _ _ share.1.1.connected) share.1.2.connected

private theorem cover_iff (decomposes : Decomposes adj [] order.nodes components) (node : α) :
    (∃ component ∈ components, node ∈ component) ↔ IsNode adj node := by
  have twice : (∃ component ∈ components, node ∈ component) ↔
      ∃ component ∈ components, node ∈ component ∧ node ∈ component := by
    simp only [and_self]
  rw [twice, together_iff decomposes, ← order.mem_iff]
  constructor
  · rintro ⟨before, first, after, split, share⟩
    have inside : first ∈ order.nodes.toFinset := by
      rw [List.mem_toFinset, split]
      exact List.mem_append_right _ List.mem_cons_self
    exact List.mem_toFinset.mp ((closed_nodes order).reaches share.1.1 inside)
  · intro listed
    obtain ⟨before, first, after, split, path, unreached⟩ :=
      exists_first (fun start => Path adj start node) ⟨node, listed, .refl⟩
    exact ⟨before, first, after, split, ⟨path, path⟩,
      fun earlier old => ⟨unreached earlier old, unreached earlier old⟩⟩

omit [DecidableEq α] in
private theorem same_place {before after earlier later : List α} {first start : α}
    (split : before ++ first :: after = earlier ++ start :: later) (left : start ∉ before)
    (right : first ∉ earlier) : start = first := by
  rcases List.append_eq_append_iff.mp split with ⟨between, rfl, tails⟩ | ⟨between, rfl, tails⟩
  · cases between with
    | nil => exact (List.cons.inj tails).1.symm
    | cons head rest =>
      rw [(List.cons.inj tails).1] at right
      exact absurd (List.mem_append_right _ List.mem_cons_self) right
  · cases between with
    | nil => exact (List.cons.inj tails).1
    | cons head rest =>
      rw [(List.cons.inj tails).1] at left
      exact absurd (List.mem_append_right _ List.mem_cons_self) left

private theorem isNode_of_edge (order : NodeOrder adj) {left right : α}
    (edge : right ∈ neighborsOf adj left) : IsNode adj left ∧ IsNode adj right := by
  refine ⟨.inl ?_, order.mem_iff.mp (neighborsOf_mem order edge)⟩
  by_contra absent
  rw [neighborsOf, (adj.get?_eq_none_iff left).mpr absent] at edge
  exact List.not_mem_nil edge

private theorem Connected.isNode_iff (order : NodeOrder adj) {left right : α}
    (connected : Connected adj left right) : IsNode adj left ↔ IsNode adj right := by
  induction connected with
  | rel left right edge =>
    obtain ⟨isLeft, isRight⟩ := isNode_of_edge order edge
    exact iff_of_true isLeft isRight
  | refl node => exact Iff.rfl
  | symm _ _ _ ih => exact ih.symm
  | trans _ _ _ _ _ first second => exact first.trans second

private theorem rooted_of_weak (decomposes : Decomposes adj [] order.nodes components)
    (weak : Weak adj components) : Rooted adj order := by
  intro before first after split apart node connected
  have isFirst := order.isNode_of_split split
  have isNode := (connected.isNode_iff order).mp isFirst
  have found := (weak.together first node isFirst isNode).mpr connected
  obtain ⟨earlier, start, later, place, share⟩ := (together_iff decomposes first node).mp found
  have notBefore : start ∉ before := fun old => apart start old share.1.1.connected
  have notEarlier : first ∉ earlier := fun old => (share.2 first old).1 .refl
  rw [split] at place
  obtain rfl := same_place place notBefore notEarlier
  exact share.1.2

private theorem weak_of_rooted (decomposes : Decomposes adj [] order.nodes components)
    (rooted : Rooted adj order) : Weak adj components := by
  refine ⟨decomposes.disjoint.1, cover_iff decomposes, fun left right isLeft _ => ?_⟩
  rw [together_iff decomposes]
  constructor
  · rintro ⟨before, first, after, _, share⟩
    exact share.connected
  · intro connected
    obtain ⟨before, first, after, split, reached, apart⟩ :=
      exists_first (fun start => Connected adj start left)
        ⟨left, order.mem_iff.mpr isLeft, .refl left⟩
    have apartFirst : ∀ earlier ∈ before, ¬ Connected adj earlier first :=
      fun earlier old path => apart earlier old (.trans _ _ _ path reached)
    have paths := rooted before first after split apartFirst
    refine ⟨before, first, after, split, ⟨paths left reached,
      paths right (.trans _ _ _ reached connected)⟩, fun earlier old => ⟨fun path => ?_,
        fun path => ?_⟩⟩
    · exact apart earlier old path.connected
    · exact apart earlier old (.trans _ _ _ path.connected (.symm _ _ connected))

end

/-- The function returns the weak components. -/
def Computes (adj : Adjacency α) (order : NodeOrder adj) : Prop :=
  ∃ components, connectedComponents adj order = some components ∧ Weak adj components

/-- The weak components are returned exactly where the first node of each, in the order in
which the nodes are taken, has paths to all of it. -/
theorem computes_iff (order : NodeOrder adj) : Computes adj order ↔ Rooted adj order := by
  obtain ⟨components, returned, decomposes⟩ := exists_components order
  constructor
  · rintro ⟨other, same, weak⟩
    obtain rfl := Option.some.inj (returned.symm.trans same)
    exact rooted_of_weak decomposes weak
  · exact fun rooted => ⟨components, returned, weak_of_rooted decomposes rooted⟩

/-- One edge, from the node that is taken last. -/
def upward : Adjacency Nat := Dict.ofList [(1, [0])]

def ascending : NodeOrder upward := ⟨[0, 1], by decide⟩

/-- An edge into the node that was visited first is not followed back. -/
theorem not_computes : ¬ ∀ (adj : Adjacency Nat) (order : NodeOrder adj), Computes adj order := by
  intro promised
  obtain ⟨components, returned, weak⟩ := promised upward ascending
  have computed : connectedComponents upward ascending = some [{0}, {1}] := by decide
  obtain rfl := Option.some.inj (computed.symm.trans returned)
  have connected : Connected upward 1 0 := .rel 1 0 (by decide)
  have isNode (node : Nat) (listed : node ∈ ascending.nodes) : IsNode upward node :=
    ascending.mem_iff.mp listed
  have together := (weak.together 1 0 (isNode 1 (by decide)) (isNode 0 (by decide))).mpr connected
  exact absurd together (by decide)

end

end Swarmind.MemoryRag.GraphAlgorithms
