import Mathlib.Data.List.Chain
import Mathlib.Data.List.Nodup

/-!
Owns paths and distances along a relation, and the layers of a breadth-first search:
the nodes at one distance from its start.

A search that is between two layers has marked everything up to the first of them. It
has followed all edges of the nodes in that layer that it no longer holds.
-/

namespace Swarmind.Library.Distance

universe u

variable {κ : Type u} (edge : κ → κ → Prop)

/-- The nodes of a path from `source` to `target`, both included. -/
structure IsPath (source target : κ) (path : List κ) : Prop where
  head : path.head? = some source
  last : path.getLast? = some target
  chain : path.IsChain edge

/-- A path that no other path between its ends is shorter than. -/
structure IsShortest (source target : κ) (path : List κ) : Prop extends
    IsPath edge source target path where
  least : ∀ other, IsPath edge source target other → path.length ≤ other.length

/-- That many edges lead from `start` to the node. -/
def Hops (start : κ) : Nat → κ → Prop
  | 0, node => node = start
  | count + 1, node => ∃ before, Hops start count before ∧ edge before node

/-- That many edges lead from `start` to the node, and no fewer do. -/
def AtDistance (start : κ) (count : Nat) (node : κ) : Prop :=
  Hops edge start count node ∧ ∀ fewer < count, ¬ Hops edge start fewer node

section

variable {edge} {start source target node other : κ} {count : Nat}

/-! ### Paths -/

theorem IsPath.single (node : κ) : IsPath edge node node [node] := ⟨rfl, rfl, .singleton node⟩

variable {path : List κ}

theorem IsPath.ne_nil (isPath : IsPath edge source target path) : path ≠ [] := by
  intro empty
  have head := isPath.head
  rw [empty] at head
  cases head

theorem IsPath.concat (isPath : IsPath edge source node path)
    (follows : edge node other) : IsPath edge source other (path ++ [other]) where
  head := by rw [List.head?_append_of_ne_nil _ isPath.ne_nil, isPath.head]
  last := List.getLast?_concat
  chain := by
    refine isPath.chain.append (.singleton other) ?_
    intro last isLast first isFirst
    rw [isPath.last] at isLast
    cases isLast
    cases isFirst
    exact follows

theorem isPath_cons_cons_iff :
    IsPath edge source target (node :: other :: path) ↔
      node = source ∧ edge node other ∧ IsPath edge other target (other :: path) := by
  constructor
  · rintro ⟨head, last, chain⟩
    obtain ⟨follows, later⟩ := List.isChain_cons_cons.mp chain
    exact ⟨Option.some.inj head, follows, rfl, by rwa [List.getLast?_cons_cons] at last, later⟩
  · rintro ⟨rfl, follows, _, last, later⟩
    exact ⟨rfl, by rwa [List.getLast?_cons_cons], List.isChain_cons_cons.mpr ⟨follows, later⟩⟩

theorem isPath_singleton_iff : IsPath edge source target [node] ↔ node = source ∧ node = target :=
  ⟨fun isPath => ⟨Option.some.inj isPath.head, Option.some.inj isPath.last⟩,
    fun ⟨first, last⟩ => first ▸ last ▸ .single node⟩

/-! ### Hops -/

theorem Hops.cons (follows : edge source start) (hops : Hops edge start count node) :
    Hops edge source (count + 1) node := by
  induction count generalizing node with
  | zero =>
    obtain rfl : node = start := hops
    exact ⟨source, rfl, follows⟩
  | succ count ih =>
    obtain ⟨before, earlier, last⟩ := hops
    exact ⟨before, ih earlier, last⟩

theorem hops_of_isPath (isPath : IsPath edge source target path) :
    Hops edge source (path.length - 1) target := by
  induction path generalizing source with
  | nil => exact absurd rfl isPath.ne_nil
  | cons node rest ih =>
    cases rest with
    | nil =>
      obtain ⟨rfl, rfl⟩ := isPath_singleton_iff.mp isPath
      rfl
    | cons next rest =>
      obtain ⟨rfl, follows, later⟩ := isPath_cons_cons_iff.mp isPath
      exact (ih later).cons follows

theorem exists_hops_iff :
    (∃ count, Hops edge start count node) ↔ Relation.ReflTransGen edge start node := by
  constructor
  · rintro ⟨count, hops⟩
    induction count generalizing node with
    | zero =>
      obtain rfl : node = start := hops
      exact .refl
    | succ count ih =>
      obtain ⟨before, earlier, follows⟩ := hops
      exact (ih earlier).tail follows
  · intro reached
    induction reached with
    | refl => exact ⟨0, rfl⟩
    | tail _ follows ih =>
      obtain ⟨count, hops⟩ := ih
      exact ⟨count + 1, _, hops, follows⟩

/-! ### Distances -/

theorem atDistance_zero_iff : AtDistance edge start 0 node ↔ node = start :=
  ⟨And.left, fun same => ⟨same, fun _ less => absurd less (Nat.not_lt_zero _)⟩⟩

/-- A node has one distance. -/
theorem AtDistance.unique {first second : Nat} (left : AtDistance edge start first node)
    (right : AtDistance edge start second node) : first = second := by
  rcases Nat.lt_trichotomy first second with less | same | less
  · exact absurd left.1 (right.2 first less)
  · exact same
  · exact absurd right.1 (left.2 second less)

/-- A walk is at least as long as the distance. -/
theorem Hops.atDistance (hops : Hops edge start count node) :
    ∃ least ≤ count, AtDistance edge start least node := by
  induction count using Nat.strong_induction_on with
  | _ count ih =>
    by_cases sooner : ∃ fewer < count, Hops edge start fewer node
    · obtain ⟨fewer, less, shorter⟩ := sooner
      obtain ⟨least, atMost, distance⟩ := ih fewer less shorter
      exact ⟨least, atMost.trans less.le, distance⟩
    · exact ⟨count, le_rfl, hops, fun fewer less shorter => sooner ⟨fewer, less, shorter⟩⟩

theorem AtDistance.follow (distance : AtDistance edge start count node)
    (follows : edge node other) : ∃ least ≤ count + 1, AtDistance edge start least other :=
  Hops.atDistance ⟨node, distance.1, follows⟩

theorem AtDistance.before (distance : AtDistance edge start (count + 1) node) :
    ∃ before, AtDistance edge start count before ∧ edge before node := by
  obtain ⟨before, hops, follows⟩ := distance.1
  refine ⟨before, ⟨hops, fun fewer less shorter => ?_⟩, follows⟩
  exact distance.2 (fewer + 1) (Nat.succ_lt_succ less) ⟨before, shorter, follows⟩

theorem isShortest_of_length (isPath : IsPath edge source target path)
    (distance : AtDistance edge source count target) (size : path.length = count + 1) :
    IsShortest edge source target path := by
  refine ⟨isPath, fun other otherPath => ?_⟩
  by_contra shorter
  refine distance.2 (other.length - 1) ?_ (hops_of_isPath otherPath)
  have positive : 0 < other.length := List.length_pos_iff.mpr otherPath.ne_nil
  omega

end

/-! ### Layers -/

/-- A search from `start` between two layers: it holds the nodes `now` of the layer at
`count`, and the nodes `later` of the next one that it has found so far. -/
structure Layered (start : κ) (count : Nat) (Marked : κ → Prop) (now later : List κ) : Prop where
  now_at : ∀ node ∈ now, AtDistance edge start count node
  later_at : ∀ node ∈ later, AtDistance edge start (count + 1) node
  marked_iff : ∀ node, Marked node ↔
    (∃ least ≤ count, AtDistance edge start least node) ∨ node ∈ later
  followed : ∀ node, AtDistance edge start count node → node ∉ now →
    ∀ other, edge node other → Marked other
  distinct : (now ++ later).Nodup

namespace Layered

variable {edge} {start : κ} {count : Nat} {Marked : κ → Prop} {now later : List κ}

theorem first (start : κ) : Layered edge start 0 (· = start) [start] [] where
  now_at node among := by
    rw [List.mem_singleton.mp among]
    exact atDistance_zero_iff.mpr rfl
  later_at node among := absurd among List.not_mem_nil
  marked_iff node := by
    rw [or_iff_left List.not_mem_nil]
    constructor
    · exact fun same => ⟨0, le_rfl, atDistance_zero_iff.mpr same⟩
    · rintro ⟨least, none, distance⟩
      rw [Nat.le_zero.mp none] at distance
      exact atDistance_zero_iff.mp distance
  followed node distance left :=
    absurd (List.mem_singleton.mpr (atDistance_zero_iff.mp distance)) left
  distinct := List.nodup_singleton start

section

variable (layered : Layered edge start count Marked now later)
include layered

theorem marked_now {node : κ}
    (among : node ∈ now) : Marked node :=
  (layered.marked_iff node).mpr (.inl ⟨count, le_rfl, layered.now_at node among⟩)

theorem marked_later {node : κ}
    (among : node ∈ later) : Marked node :=
  (layered.marked_iff node).mpr (.inr among)

theorem fresh_at {node other : κ}
    (distance : AtDistance edge start count node) (follows : edge node other)
    (fresh : ¬ Marked other) : AtDistance edge start (count + 1) other := by
  obtain ⟨least, atMost, found⟩ := distance.follow follows
  rcases Nat.lt_or_ge least (count + 1) with near | far
  · have marked := (layered.marked_iff other).mpr (.inl ⟨least, Nat.le_of_lt_succ near, found⟩)
    exact absurd marked fresh
  · rwa [Nat.le_antisymm atMost far] at found

end

theorem step {node : κ} (layered : Layered edge start count Marked (node :: now) later)
    {added : List κ} {Next : κ → Prop} (distinct : added.Nodup)
    (fresh : ∀ other ∈ added, edge node other ∧ ¬ Marked other)
    (marks : ∀ other, Next other ↔ Marked other ∨ other ∈ added)
    (covered : ∀ other, edge node other → Next other) :
    Layered edge start count Next now (later ++ added) := by
  have here : AtDistance edge start count node := layered.now_at node List.mem_cons_self
  constructor
  · exact fun other among => layered.now_at other (List.mem_cons_of_mem _ among)
  · intro other among
    rcases List.mem_append.mp among with old | new
    · exact layered.later_at other old
    · exact layered.fresh_at here (fresh other new).1 (fresh other new).2
  · intro other
    rw [marks, layered.marked_iff, List.mem_append, or_assoc]
  · intro other distance left follower follows
    by_cases same : other = node
    · exact covered follower (same ▸ follows)
    · have outside : other ∉ node :: now := List.not_mem_cons_of_ne_of_not_mem same left
      exact (marks follower).mpr (.inl (layered.followed other distance outside follower follows))
  · have kept : (now ++ later).Nodup := (List.nodup_cons.mp layered.distinct).2
    rw [← List.append_assoc]
    refine kept.append distinct fun other old new => (fresh other new).2 ?_
    rcases List.mem_append.mp old with current | next
    · exact layered.marked_now (List.mem_cons_of_mem _ current)
    · exact layered.marked_later next

theorem shift (layered : Layered edge start count Marked [] later) :
    Layered edge start (count + 1) Marked later [] where
  now_at := layered.later_at
  later_at node among := absurd among List.not_mem_nil
  marked_iff node := by
    rw [layered.marked_iff, or_iff_left List.not_mem_nil]
    constructor
    · rintro (⟨least, near, distance⟩ | next)
      · exact ⟨least, near.trans (Nat.le_succ count), distance⟩
      · exact ⟨count + 1, le_rfl, layered.later_at node next⟩
    · rintro ⟨least, atMost, distance⟩
      rcases Nat.lt_or_ge least (count + 1) with near | far
      · exact .inl ⟨least, Nat.le_of_lt_succ near, distance⟩
      · rw [Nat.le_antisymm atMost far] at distance
        obtain ⟨before, earlier, follows⟩ := distance.before
        have marked := layered.followed before earlier List.not_mem_nil node follows
        exact (layered.marked_iff node).mp marked
  followed node distance left other follows := by
    obtain ⟨before, earlier, entered⟩ := distance.before
    have marked := layered.followed before earlier List.not_mem_nil node entered
    rcases (layered.marked_iff node).mp marked with ⟨least, near, nearer⟩ | next
    · exact absurd (nearer.unique distance) (by omega)
    · exact absurd next left
  distinct := by
    rw [List.append_nil]
    exact layered.distinct

/-- A queue that holds the two layers in order begins with a node of a layer. -/
theorem pop {node : κ} {queue : List κ} (layered : Layered edge start count Marked now later)
    (held : now ++ later = node :: queue) :
    ∃ at' now' later', Layered edge start at' Marked (node :: now') later' ∧
      queue = now' ++ later' := by
  cases now with
  | cons first now =>
    obtain ⟨rfl, rest⟩ := List.cons.inj held
    exact ⟨count, now, later, layered, rest.symm⟩
  | nil =>
    rw [List.nil_append] at held
    subst held
    exact ⟨count + 1, queue, [], layered.shift, (List.append_nil queue).symm⟩

theorem marked_iff_of_empty (layered : Layered edge start count Marked [] []) (node : κ) :
    Marked node ↔ ∃ least, AtDistance edge start least node := by
  have beyond (more : Nat) : ¬ AtDistance edge start (count + 1 + more) node := by
    induction more generalizing node with
    | zero =>
      intro distance
      obtain ⟨before, earlier, follows⟩ := distance.before
      have marked := layered.followed before earlier List.not_mem_nil node follows
      rcases (layered.marked_iff node).mp marked with ⟨least, near, nearer⟩ | none
      · exact absurd (nearer.unique distance) (by omega)
      · exact List.not_mem_nil none
    | succ more ih =>
      intro distance
      obtain ⟨before, earlier, _⟩ := AtDistance.before distance
      exact ih before earlier
  rw [layered.marked_iff, or_iff_left List.not_mem_nil]
  constructor
  · exact fun ⟨least, _, distance⟩ => ⟨least, distance⟩
  · rintro ⟨least, distance⟩
    refine ⟨least, ?_, distance⟩
    by_contra far
    obtain ⟨more, rfl⟩ := Nat.exists_eq_add_of_lt (not_le.mp far)
    exact beyond more (by rwa [Nat.add_right_comm] at distance)

end Layered

end Swarmind.Library.Distance
