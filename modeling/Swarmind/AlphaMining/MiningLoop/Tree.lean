import Mathlib
import Swarmind.AlphaMining.MiningLoop.Gates
import Swarmind.Library.Trees

/-!
Owns the bookkeeping of `search_mcts`: whatever the hooks and the evaluation answer,
the visits and values of the nodes count and sum up their subtrees, the descent ends at
a node with room, and the best node is the best of the whole tree.
-/

namespace Swarmind.AlphaMining.MiningLoop

open Swarmind.Library Swarmind.AlphaMining.FactorDsl Swarmind.AlphaMining.AlphaZoo

section

variable {η ν : Type}

/-! ### The tree of a search -/

def parentOf (nodes : List (Node ν)) (index : Nat) : Option Nat :=
  nodes[index]?.bind Node.parent

def childrenOf (nodes : List (Node ν)) (index : Nat) : List Nat :=
  (nodes[index]?.map Node.children).getD []

/-- The parents and the children of the nodes agree. -/
def Linked (nodes : List (Node ν)) : Prop :=
  Grown nodes.length (parentOf nodes) (childrenOf nodes)

/-- The positions of the nodes under a node, itself included. -/
noncomputable def below (nodes : List (Node ν)) (index : Nat) : Finset Nat :=
  subtree nodes.length (childrenOf nodes) index

def scoreOf [Zero ν] (nodes : List (Node ν)) (index : Nat) : ν :=
  (nodes[index]?.map Node.score).getD 0

variable {nodes : List (Node ν)}

private theorem parentOf_of_getElem? {index : Nat} {node : Node ν}
    (stands : nodes[index]? = some node) : parentOf nodes index = node.parent := by
  rw [parentOf, stands, Option.bind_some]

private theorem childrenOf_of_getElem? {index : Nat} {node : Node ν}
    (stands : nodes[index]? = some node) : childrenOf nodes index = node.children := by
  rw [childrenOf, stands, Option.map_some, Option.getD_some]

private theorem scoreOf_of_getElem? [Zero ν] {index : Nat} {node : Node ν}
    (stands : nodes[index]? = some node) : scoreOf nodes index = node.score := by
  rw [scoreOf, stands, Option.map_some, Option.getD_some]

end

section

/-! ### Backpropagation -/

variable {ν : Type} [Add ν]

/-- The node counts one more visit. -/
def Node.credit (score : ν) (node : Node ν) : Node ν :=
  { node with visits := node.visits + 1, value := node.value + score }

open Classical in
/-- The marked nodes count one more visit. -/
noncomputable def credited (score : ν) (marked : Nat → Prop) (nodes : List (Node ν)) :
    List (Node ν) :=
  nodes.mapIdx fun index node => if marked index then node.credit score else node

variable {score : ν} {nodes : List (Node ν)}

variable (marked : Nat → Prop)

open Classical in
private theorem getElem?_credited (index : Nat) :
    (credited score marked nodes)[index]? = nodes[index]?.map fun node =>
      if marked index then node.credit score else node := by
  rw [credited, List.getElem?_mapIdx]

private theorem parentOf_credited : parentOf (credited score marked nodes) = parentOf nodes := by
  funext index
  rw [parentOf, parentOf, getElem?_credited, Option.bind_map]
  congr 1
  funext node
  by_cases here : marked index
  · simp [here, Node.credit]
  · simp [here]

private theorem childrenOf_credited : childrenOf
    (credited score marked nodes) = childrenOf nodes := by
  funext index
  rw [childrenOf, childrenOf, getElem?_credited, Option.map_map]
  congr 2
  funext node
  by_cases here : marked index
  · simp [here, Node.credit]
  · simp [here]

private theorem linked_credited_iff : Linked (credited score marked nodes) ↔ Linked nodes := by
  rw [Linked, parentOf_credited, childrenOf_credited, credited, List.length_mapIdx, Linked]

private theorem set_credit {index : Nat} {node : Node ν} (stands : nodes[index]? = some node) :
    nodes.set index (node.credit score) = credited score (· = index) nodes := by
  classical
  apply List.ext_getElem?
  intro other
  rw [getElem?_credited, List.getElem?_set]
  by_cases same : index = other
  · subst same
    rw [if_pos rfl, if_pos (List.getElem?_eq_some_iff.mp stands).1, stands, Option.map_some,
      if_pos rfl]
  · simp [same, Ne.symm same]

private theorem credited_credited {first second both : Nat → Prop}
    (apart : ∀ index, first index → ¬ second index)
    (union : ∀ index, both index ↔ first index ∨ second index) :
    credited score second (credited score first nodes) = credited score both nodes := by
  classical
  apply List.ext_getElem?
  intro index
  rw [getElem?_credited, getElem?_credited, getElem?_credited, Option.map_map]
  congr 1
  funext node
  by_cases here : first index
  · simp [here, union, apart index here]
  · simp [here, union]

private theorem backprop_eq {steps index : Nat} (linked : Linked nodes)
    (small : index < nodes.length)
    (enough : index < steps) :
    backprop score steps (some index) nodes =
      credited score (fun above => Reaches (childrenOf nodes) above index) nodes := by
  induction steps generalizing index nodes with
  | zero => exact absurd enough (Nat.not_lt_zero index)
  | succ steps ih =>
    have stands : nodes[index]? = some nodes[index] := List.getElem?_eq_getElem small
    have known := parentOf_of_getElem? stands
    rw [backprop, stands]
    change backprop score steps nodes[index].parent
      (nodes.set index (nodes[index].credit score)) = _
    rw [set_credit stands]
    by_cases first : index = 0
    · subst first
      have top : nodes[0].parent = none := known.symm.trans linked.root
      have marks : (fun above => Reaches (childrenOf nodes) above 0) = (· = 0) := by
        funext above
        exact propext linked.reaches_zero_iff
      rw [top, marks]
      cases steps <;> rfl
    · obtain ⟨above, less, kin⟩ := linked.older index small first
      have upper : nodes[index].parent = some above := known.symm.trans kin
      have apart : ∀ other, other = index → ¬ Reaches (childrenOf nodes) other above := by
        rintro other rfl reaches
        exact absurd (linked.le_of_reaches reaches) (Nat.not_le.mpr less)
      have inside : above < (credited score (· = index) nodes).length := by
        rw [credited, List.length_mapIdx]
        exact less.trans small
      rw [upper, ih ((linked_credited_iff _).mpr linked) inside (by omega),
        childrenOf_credited, credited_credited apart fun other => linked.reaches_iff small kin]

/-! ### A new node -/

/-- The tree with a child below a node, before it is counted. -/
def withLeaf (nodes : List (Node ν)) (place : Nat) (child : Node ν) : List (Node ν) :=
  nodes.modify place (fun node => { node with children := node.children ++ [nodes.length] }) ++
    [child]

variable {place : Nat} {child : Node ν}

omit [Add ν] in
private theorem length_withLeaf : (withLeaf nodes place child).length = nodes.length + 1 := by
  rw [withLeaf, List.length_append, List.length_modify, List.length_singleton]

omit [Add ν] in
private theorem getElem?_withLeaf_length :
    (withLeaf nodes place child)[nodes.length]? = some child := by
  rw [withLeaf, List.getElem?_append_right (by rw [List.length_modify]), List.length_modify,
    Nat.sub_self]
  rfl

omit [Add ν] in
private theorem getElem?_withLeaf {index : Nat} (old : index < nodes.length) :
    (withLeaf nodes place child)[index]? = nodes[index]?.map fun node =>
      if place = index then { node with children := node.children ++ [nodes.length] }
      else node := by
  rw [withLeaf, List.getElem?_append_left (by rw [List.length_modify]; exact old),
    List.getElem?_modify]
  rfl

omit [Add ν] in
private theorem leaf_withLeaf (inside : place < nodes.length)
    (below : child.parent = some place) (bare : child.children = []) :
    Grown.Leaf nodes.length place (parentOf nodes) (parentOf (withLeaf nodes place child))
      (childrenOf nodes) (childrenOf (withLeaf nodes place child)) where
  small := inside
  kept index old := by
    rw [parentOf, getElem?_withLeaf old, parentOf, Option.bind_map]
    congr 1
    funext node
    by_cases here : place = index <;> simp [here]
  joined := (parentOf_of_getElem? getElem?_withLeaf_length).trans below
  beside index apart := by
    rcases Nat.lt_trichotomy index nodes.length with old | rfl | beyond
    · rw [childrenOf, getElem?_withLeaf old, childrenOf]
      simp [Ne.symm apart]
    · rw [childrenOf_of_getElem? getElem?_withLeaf_length, bare, childrenOf]
      simp
    · have outside : (withLeaf nodes place child).length ≤ index := by
        rw [length_withLeaf]
        omega
      rw [childrenOf, childrenOf, List.getElem?_eq_none outside,
        List.getElem?_eq_none beyond.le]
  here := by
    rw [childrenOf, getElem?_withLeaf inside, childrenOf, List.getElem?_eq_getElem inside]
    simp

private theorem attach_eq [Zero ν] (linked : Linked nodes) (inside : place < nodes.length)
    (expr : Expr)
    (score : ν) (reasons : List String) :
    ∃ child : Node ν, child.parent = some place ∧ child.children = [] ∧ child.score = score ∧
      child.visits = 0 ∧ child.value = 0 ∧
      attach nodes place expr score reasons =
        credited score
          (fun above => Reaches (childrenOf (withLeaf nodes place child)) above nodes.length)
          (withLeaf nodes place child) := by
  refine ⟨{ expr, score, reasons, visits := 0, value := 0, children := [], parent := some place },
    rfl, rfl, rfl, rfl, rfl, ?_⟩
  rw [attach, List.getElem?_eq_getElem inside]
  have joined : Linked (withLeaf nodes place
      { expr, score, reasons, visits := 0, value := 0, children := [], parent := some place }) := by
    rw [Linked, length_withLeaf]
    exact linked.leaf (leaf_withLeaf inside rfl rfl)
  rw [← backprop_eq joined (by rw [length_withLeaf]; omega) (Nat.lt_succ_self _), withLeaf,
    List.modify_eq_set_getElem?, List.getElem?_eq_getElem inside]
  rfl

end

/-! ### The books -/

section

variable {ν : Type} [AddCommMonoid ν] (config : LoopConfig ν)

/-- The books of a tree after a number of iterations. -/
structure Sound (nodes : List (Node ν)) (count : Nat) : Prop where
  linked : Linked nodes
  size : nodes.length = count + 1
  whole : below nodes 0 = Finset.range nodes.length
  narrow : ∀ node ∈ nodes, (node.children.length : Int) ≤ config.branching
  visits : ∀ index node, nodes[index]? = some node → index ≠ 0 →
    node.visits = (below nodes index).card
  value : ∀ index node, nodes[index]? = some node → index ≠ 0 →
    node.value = ∑ under ∈ below nodes index, scoreOf nodes under
  root : ∀ node, nodes[0]? = some node → node.visits = count

variable {config} {nodes : List (Node ν)} {count place : Nat}

open Classical in
private theorem getElem?_credited_withLeaf {score : ν} {marked : Nat → Prop} {child after : Node ν}
    {index : Nat}
    (stands : (credited score marked (withLeaf nodes place child))[index]? = some after) :
    (index = nodes.length ∧ after = if marked index then child.credit score else child) ∨
      ∃ node, nodes[index]? = some node ∧ after.score = node.score ∧
        after.children = (if place = index then node.children ++ [nodes.length]
          else node.children) ∧
        after.visits = (if marked index then node.visits + 1 else node.visits) ∧
        after.value = if marked index then node.value + score else node.value := by
  have small : index < nodes.length + 1 := by
    have inside := (List.getElem?_eq_some_iff.mp stands).1
    rwa [credited, List.length_mapIdx, length_withLeaf] at inside
  rw [getElem?_credited] at stands
  rcases Nat.lt_succ_iff_lt_or_eq.mp small with old | rfl
  · rw [getElem?_withLeaf old, List.getElem?_eq_getElem old] at stands
    refine .inr ⟨nodes[index], List.getElem?_eq_getElem old, ?_⟩
    obtain rfl := Option.some.inj stands
    by_cases here : place = index <;> by_cases counts : marked index <;>
      simp [here, counts, Node.credit]
  · rw [getElem?_withLeaf_length, Option.map_some] at stands
    exact .inl ⟨rfl, (Option.some.inj stands).symm⟩

private theorem scoreOf_credited {score : ν} (marked : Nat → Prop) :
    scoreOf (credited score marked nodes) = scoreOf nodes := by
  funext index
  rw [scoreOf, scoreOf, getElem?_credited, Option.map_map]
  congr 2
  funext node
  by_cases here : marked index <;> simp [here, Node.credit]

private theorem scoreOf_withLeaf {child : Node ν} {index : Nat} (old : index < nodes.length) :
    scoreOf (withLeaf nodes place child) index = scoreOf nodes index := by
  rw [scoreOf, getElem?_withLeaf old, scoreOf, Option.map_map]
  congr 2
  funext node
  by_cases here : place = index <;> simp [here]

private theorem Sound.attach (sound : Sound config nodes count) {node : Node ν}
    (stands : nodes[place]? = some node) (atLeast : 1 ≤ config.branching)
    (room : node.children = [] ∨ (node.children.length : Int) < config.branching)
    (expr : Expr) (score : ν) (reasons : List String) :
    Sound config (attach nodes place expr score reasons) (count + 1) := by
  classical
  have inside := (List.getElem?_eq_some_iff.mp stands).1
  obtain ⟨child, parent, bare, scored, unvisited, worthless, same⟩ :=
    attach_eq sound.linked inside expr score reasons
  have leaf := leaf_withLeaf inside parent bare
  have joined : Linked (withLeaf nodes place child) := by
    rw [Linked, length_withLeaf]
    exact sound.linked.leaf leaf
  set marked := fun above => Reaches (childrenOf (withLeaf nodes place child)) above nodes.length
  have under (index : Nat) : below (credited score marked (withLeaf nodes place child)) index =
      if marked index then insert nodes.length (below nodes index) else below nodes index := by
    have length : (credited score marked (withLeaf nodes place child)).length =
        nodes.length + 1 := by rw [credited, List.length_mapIdx, length_withLeaf]
    rw [below, length, childrenOf_credited]
    exact sound.linked.subtree_leaf leaf index
  have fresh (index : Nat) : nodes.length ∉ below nodes index :=
    Grown.size_notMem_subtree index
  have own : marked nodes.length := Relation.ReflTransGen.refl
  have alone : below nodes nodes.length = ∅ := sound.linked.subtree_size
  have scores (index : Nat) : ∑ other ∈ below nodes index,
      scoreOf (credited score marked (withLeaf nodes place child)) other =
        ∑ other ∈ below nodes index, scoreOf nodes other := by
    refine Finset.sum_congr rfl fun other among => ?_
    rw [scoreOf_credited,
      scoreOf_withLeaf (Finset.mem_range.mp (Finset.mem_filter.mp among).1)]
  have last : scoreOf (credited score marked (withLeaf nodes place child)) nodes.length =
      score := by
    rw [scoreOf_credited, scoreOf_of_getElem? getElem?_withLeaf_length, scored]
  rw [same]
  refine
    { linked := (linked_credited_iff marked).mpr joined
      whole := ((linked_credited_iff marked).mpr joined).subtree_root
      size := by rw [credited, List.length_mapIdx, length_withLeaf, sound.size]
      narrow := ?_
      visits := ?_
      value := ?_
      root := ?_ }
  · intro after among
    obtain ⟨index, found⟩ := List.mem_iff_getElem?.mp among
    rcases getElem?_credited_withLeaf found with ⟨rfl, rfl⟩ | ⟨old, stood, _, children, _, _⟩
    · rw [if_pos own, Node.credit, bare]
      simpa using Int.le_of_lt atLeast
    · rw [children]
      by_cases here : place = index
      · subst here
        obtain rfl := Option.some.inj (stands.symm.trans stood)
        rw [if_pos rfl, List.length_append, List.length_singleton]
        rcases room with none | some
        · simpa [none] using atLeast
        · exact Int.add_one_le_iff.mpr some
      · rw [if_neg here]
        exact sound.narrow old (List.mem_of_getElem? stood)
  · intro index after found later
    rw [under]
    rcases getElem?_credited_withLeaf found with ⟨rfl, rfl⟩ | ⟨old, stood, _, _, visits, _⟩
    · rw [if_pos own, if_pos own, Node.credit, unvisited, alone]
      rfl
    · rw [visits]
      by_cases counts : marked index
      · rw [if_pos counts, if_pos counts, Finset.card_insert_of_notMem (fresh index),
          sound.visits index old stood later]
      · rw [if_neg counts, if_neg counts, sound.visits index old stood later]
  · intro index after found later
    rw [under]
    rcases getElem?_credited_withLeaf found with ⟨rfl, rfl⟩ | ⟨old, stood, _, _, _, value⟩
    · rw [if_pos own, if_pos own, Node.credit, worthless, alone, Finset.sum_insert (by simp), last,
        Finset.sum_empty, zero_add, add_zero]
    · rw [value]
      by_cases counts : marked index
      · rw [if_pos counts, if_pos counts, Finset.sum_insert (fresh index), last, scores,
          sound.value index old stood later, add_comm]
      · rw [if_neg counts, if_neg counts, scores, sound.value index old stood later]
  · intro after found
    have counts : marked 0 := joined.reaches_of_root (by rw [length_withLeaf]; omega)
    rcases getElem?_credited_withLeaf found with ⟨none, _⟩ | ⟨old, stood, _, _, visits, _⟩
    · exact absurd none (Nat.ne_of_lt sound.linked.positive)
    · rw [visits, if_pos counts, sound.root old stood]

private theorem sound_single {root : Node ν} (atLeast : 1 ≤ config.branching)
    (top : root.parent = none)
    (bare : root.children = []) (unvisited : root.visits = 0) : Sound config [root] 0 := by
  have only {index : Nat} {node : Node ν} (stands : [root][index]? = some node) :
      index = 0 ∧ node = root := by
    obtain ⟨small, here⟩ := List.getElem?_eq_some_iff.mp stands
    obtain rfl := Nat.lt_one_iff.mp small
    exact ⟨rfl, here.symm⟩
  have linked : Linked [root] := by
    refine Grown.single top fun index => ?_
    cases found : ([root][index]? : Option (Node ν)) with
    | none => rw [childrenOf, found, Option.map_none, Option.getD_none]
    | some node => rw [childrenOf_of_getElem? found, (only found).2, bare]
  refine
    { linked
      size := rfl
      whole := linked.subtree_root
      narrow := ?_
      visits := fun index node stands later => absurd (only stands).1 later
      value := fun index node stands later => absurd (only stands).1 later
      root := fun node stands => (only stands).2 ▸ unvisited }
  intro node among
  rw [List.mem_singleton.mp among, bare]
  exact Int.le_of_lt atLeast

end

/-! ### The best node -/

section

variable {ν : Type} [LinearOrder ν] {nodes : List (Node ν)}

/-- The result is a node of the tree, and no node has a greater score. -/
def Best (nodes : List (Node ν)) (result : MCTSResult ν) : Prop :=
  (∃ node ∈ nodes, result.best = some node.expr ∧ result.bestScore = node.score) ∧
    ∀ node ∈ nodes, node.score ≤ result.bestScore

def better (nodes : List (Node ν)) (best : Node ν) (index : Nat) : Node ν :=
  match nodes[index]? with
  | none => best
  | some node => if best.score < node.score then node else best

private theorem bestNode_eq (steps : Nat) (stack : List Nat) (best : Node ν) :
    bestNode nodes steps stack best =
      (Grown.walk (childrenOf nodes) steps stack).foldl (better nodes) best := by
  induction steps generalizing stack best with
  | zero => rw [bestNode, Grown.walk, List.foldl_nil]
  | succ steps ih =>
    cases stack with
    | nil => simp [bestNode, Grown.walk]
    | cons index stack =>
      rw [bestNode, Grown.walk, List.foldl_cons, ← ih]
      cases stands : nodes[index]? with
      | none => simp [better, childrenOf, stands]
      | some node => simp [better, childrenOf_of_getElem? stands, stands]

private theorem better_spec (nodes : List (Node ν)) (best : Node ν) (index : Nat) :
    (better nodes best index = best ∨ better nodes best index ∈ nodes) ∧
      best.score ≤ (better nodes best index).score ∧
        ∀ node, nodes[index]? = some node → node.score ≤ (better nodes best index).score := by
  rw [better]
  cases stands : nodes[index]? with
  | none => exact ⟨.inl rfl, le_rfl, fun node found => by cases found⟩
  | some node =>
    dsimp only
    split
    case isTrue less =>
      refine ⟨.inr (List.mem_of_getElem? stands), less.le, fun other found => ?_⟩
      rw [Option.some.inj found]
    case isFalse least =>
      refine ⟨.inl rfl, le_rfl, fun other found => ?_⟩
      rw [← Option.some.inj found]
      exact not_lt.mp least

private theorem foldl_better_spec (nodes : List (Node ν)) (order : List Nat) (best : Node ν) :
    (order.foldl (better nodes) best = best ∨ order.foldl (better nodes) best ∈ nodes) ∧
      best.score ≤ (order.foldl (better nodes) best).score ∧
        ∀ index ∈ order, ∀ node, nodes[index]? = some node →
          node.score ≤ (order.foldl (better nodes) best).score := by
  induction order generalizing best with
  | nil => exact ⟨.inl rfl, le_rfl, fun index among => by cases among⟩
  | cons first rest ih =>
    obtain ⟨origin, atLeast, here⟩ := better_spec nodes best first
    obtain ⟨originRest, atLeastRest, each⟩ := ih (better nodes best first)
    rw [List.foldl_cons]
    refine ⟨?_, atLeast.trans atLeastRest, fun index among node stands => ?_⟩
    · rcases originRest with same | inside
      · rw [same]
        exact origin
      · exact .inr inside
    · rcases List.mem_cons.mp among with rfl | later
      · exact (here node stands).trans atLeastRest
      · exact each index later node stands

private theorem bestNode_spec (linked : Linked nodes) {root : Node ν} (first : root ∈ nodes) :
    bestNode nodes nodes.length [0] root ∈ nodes ∧
      ∀ node ∈ nodes, node.score ≤ (bestNode nodes nodes.length [0] root).score := by
  obtain ⟨origin, _, each⟩ :=
    foldl_better_spec nodes (Grown.walk (childrenOf nodes) nodes.length [0]) root
  rw [bestNode_eq]
  refine ⟨?_, fun node among => ?_⟩
  · rcases origin with same | inside
    · rw [same]
      exact first
    · exact inside
  · obtain ⟨index, stands⟩ := List.mem_iff_getElem?.mp among
    have small := (List.getElem?_eq_some_iff.mp stands).1
    exact each index (linked.mem_walk small) node stands

end

/-! ### The descent -/

section

variable {η ν : Type} [AddCommMonoid ν] [LinearOrder ν] [Mul ν] [Div ν] [NatCast ν]
variable (numbers : Numbers ν) (hooks : Hooks η ν) (config : LoopConfig ν)
variable (evaluateFactor : Expr → Except PyException (EvalVerdict ν))

/-- The descent from the root ends. -/
def Ends (nodes : List (Node ν)) : Prop :=
  ∃ place, descend numbers config nodes nodes.length 0 = some place

/-- The node has no room for a child. -/
def Full (node : Node ν) : Prop :=
  node.children ≠ [] ∧ config.branching ≤ node.children.length

/-- The selection leads from a full node to another one. -/
def Selects (nodes : List (Node ν)) (index next : Nat) : Prop :=
  (∃ node, nodes[index]? = some node ∧ Full config node) ∧
    uctSelect numbers config nodes index = next

/-- A full node has a child without visits, or one whose UCT value is above minus infinity. -/
def Leads (nodes : List (Node ν)) (index : Nat) : Prop :=
  ∀ node, nodes[index]? = some node → Full config node →
    ∃ child ∈ node.children, ∃ below, nodes[child]? = some below ∧
      (below.visits = 0 ∨ numbers.minusInf < uct numbers config node.visits below)

/-- Each full node that the selection leads to from the root leads on. -/
def Passable (nodes : List (Node ν)) : Prop :=
  ∀ index, Relation.ReflTransGen (Selects numbers config nodes) 0 index →
    Leads numbers config nodes index

variable {nodes : List (Node ν)} {count : Nat}

private theorem uctLoop_eq_none_iff (parentVisits : Nat) (children : List Nat) (best : Option Nat)
    (bestUct : ν) :
    uctLoop numbers config nodes parentVisits children best bestUct = none ↔
      best = none ∧ ∀ child ∈ children, ∀ below, nodes[child]? = some below →
        ¬ (below.visits = 0 ∨ bestUct < uct numbers config parentVisits below) := by
  induction children generalizing best bestUct with
  | nil => simp [uctLoop]
  | cons child rest ih =>
    rw [uctLoop, List.forall_mem_cons]
    cases stands : nodes[child]? with
    | none => simp [ih]
    | some node =>
      dsimp only
      split_ifs with fresh less
      · simp [fresh]
      · simp [ih, less]
      · simp [ih, fresh, not_lt.mp less]

private theorem uctLoop_mem {parentVisits : Nat} {children : List Nat} {best : Option Nat}
    {bestUct : ν}
    {chosen : Nat}
    (chooses : uctLoop numbers config nodes parentVisits children best bestUct = some chosen) :
    chosen ∈ children ∨ best = some chosen := by
  induction children generalizing best bestUct with
  | nil => exact .inr chooses
  | cons child rest ih =>
    rw [uctLoop] at chooses
    split at chooses
    · exact (ih chooses).imp_left (List.mem_cons_of_mem child)
    · split_ifs at chooses
      · exact .inl (Option.some.inj chooses ▸ List.mem_cons_self)
      · rcases ih chooses with later | here
        · exact .inl (List.mem_cons_of_mem child later)
        · exact .inl (Option.some.inj here ▸ List.mem_cons_self)
      · exact (ih chooses).imp_left (List.mem_cons_of_mem child)

/-- A full node that does not lead on is selected again. -/
theorem uctSelect_of_not_leads {index : Nat} (stays : ¬ Leads numbers config nodes index) :
    Selects numbers config nodes index index := by
  simp only [Leads, not_forall] at stays
  obtain ⟨node, stands, full, nowhere⟩ := stays
  refine ⟨⟨node, stands, full⟩, ?_⟩
  have nobody := (uctLoop_eq_none_iff numbers config node.visits node.children none
    numbers.minusInf).mpr ⟨rfl, fun child among below found leads =>
      nowhere ⟨child, among, below, found, leads⟩⟩
  rw [uctSelect, stands]
  dsimp only
  rw [nobody, Option.getD_none]

private theorem uctSelect_mem {index : Nat} {node : Node ν} (stands : nodes[index]? = some node)
    (full : Full config node) (leads : Leads numbers config nodes index) :
    uctSelect numbers config nodes index ∈ node.children := by
  obtain ⟨child, among, below, found, better⟩ := leads node stands full
  rw [uctSelect, stands]
  dsimp only
  cases chosen : uctLoop numbers config nodes node.visits node.children none numbers.minusInf with
  | none => exact absurd better (((uctLoop_eq_none_iff ..).mp chosen).2 child among below found)
  | some other => simpa using uctLoop_mem numbers config chosen

private theorem descend_of_full {index : Nat} {node : Node ν} (stands : nodes[index]? = some node)
    (full : Full config node) (steps : Nat) :
    descend numbers config nodes (steps + 1) index =
      descend numbers config nodes steps (uctSelect numbers config nodes index) := by
  rw [descend, stands]
  exact if_pos full

private theorem descend_of_room {index : Nat} {node : Node ν} (stands : nodes[index]? = some node)
    (room : ¬ Full config node) (steps : Nat) :
    descend numbers config nodes (steps + 1) index = some index := by
  rw [descend, stands]
  exact if_neg room

private theorem room_of_descend {steps index place : Nat}
    (ends : descend numbers config nodes steps index = some place) :
    ∃ node, nodes[place]? = some node ∧ ¬ Full config node := by
  induction steps generalizing index with
  | zero => cases ends
  | succ steps ih =>
    cases stands : nodes[index]? with
    | none =>
      rw [descend, stands] at ends
      cases ends
    | some node =>
      by_cases full : Full config node
      · rw [descend_of_full numbers config stands full] at ends
        exact ih ends
      · rw [descend_of_room numbers config stands full] at ends
        exact ⟨node, Option.some.inj ends ▸ stands, full⟩

private theorem leads_of_descend {steps index place : Nat}
    (ends : descend numbers config nodes steps index = some place) {other : Nat}
    (reached : Relation.ReflTransGen (Selects numbers config nodes) index other) :
    Leads numbers config nodes other := by
  induction steps generalizing index with
  | zero => cases ends
  | succ steps ih =>
    -- a node that selects nothing else is the only one reached
    rcases reached.cases_head with rfl | ⟨next, ⟨⟨node, stands, full⟩, rfl⟩, later⟩
    · by_contra stays
      obtain ⟨⟨node, stands, full⟩, same⟩ := uctSelect_of_not_leads numbers config stays
      rw [descend_of_full numbers config stands full, same] at ends
      exact stays (ih ends .refl)
    · rw [descend_of_full numbers config stands full] at ends
      exact ih ends later

private theorem descend_ends (linked : Linked nodes) {steps index : Nat}
    (small : index < nodes.length)
    (enough : nodes.length ≤ index + steps)
    (leads : ∀ other, Relation.ReflTransGen (Selects numbers config nodes) index other →
      Leads numbers config nodes other) :
    ∃ place, descend numbers config nodes steps index = some place := by
  induction steps generalizing index with
  | zero => exact absurd small (by omega)
  | succ steps ih =>
    have stands : nodes[index]? = some nodes[index] := List.getElem?_eq_getElem small
    by_cases full : Full config nodes[index]
    · have among := uctSelect_mem numbers config stands full (leads index .refl)
      rw [← childrenOf_of_getElem? stands] at among
      have later := linked.lt_of_mem among
      rw [descend_of_full numbers config stands full]
      exact ih (linked.mem_children.mp among).1 (by omega) fun other reached =>
        leads other (.head ⟨⟨_, stands, full⟩, rfl⟩ reached)
    · exact ⟨index, descend_of_room numbers config stands full steps⟩

private theorem ends_iff_passable (linked : Linked nodes) :
    Ends numbers config nodes ↔ Passable numbers config nodes :=
  ⟨fun ⟨_, ends⟩ _ reached => leads_of_descend numbers config ends reached,
    fun passable => descend_ends numbers config linked linked.positive (by omega) passable⟩

/-! ### The run -/

variable {hooks evaluateFactor}

variable {world after : World η ν}

omit [LinearOrder ν] [Mul ν] [Div ν] [NatCast ν] in
private theorem sound_startSearch {seed : Expr} {search : Search ν} (atLeast : 1 ≤ config.branching)
    (started : startSearch numbers hooks config evaluateFactor seed world = (.ok search, after)) :
    Sound config search.nodes 0 := by
  obtain ⟨⟨score, reasons, accepted⟩, middle, _, ended⟩ := Mining.ok_of_bind started
  obtain rfl := Except.ok.inj (congrArg Prod.fst ended)
  exact sound_single atLeast rfl rfl rfl

private theorem Sound.iterate {search next : Search ν}
    (sound : Sound config search.nodes count) (atLeast : 1 ≤ config.branching)
    (iterated :
      iterate numbers hooks config evaluateFactor search world = (.ok next, after)) :
    Sound config next.nodes (count + 1) := by
  obtain ⟨⟨index, expr⟩, middle, chosen, rest⟩ := Mining.ok_of_bind iterated
  obtain ⟨⟨score, reasons, accepted⟩, last, _, ended⟩ := Mining.ok_of_bind rest
  obtain rfl := Except.ok.inj (congrArg Prod.fst ended)
  rw [nextExpr] at chosen
  cases descends : descend numbers config search.nodes search.nodes.length 0 with
  | none =>
    rw [descends] at chosen
    cases chosen
  | some place =>
    obtain ⟨node, stands, room⟩ := room_of_descend numbers config descends
    simp only [descends, stands] at chosen
    obtain ⟨proposed, _, _, answered⟩ := Mining.ok_of_bind chosen
    obtain ⟨rfl, _⟩ := Prod.mk.inj (Except.ok.inj (congrArg Prod.fst answered))
    refine sound.attach stands atLeast ?_ expr score reasons
    by_cases bare : node.children = []
    · exact .inl bare
    · exact .inr (Int.not_le.mp fun full => room ⟨bare, full⟩)

private theorem Sound.iterations {search last : Search ν}
    (sound : Sound config search.nodes count) (atLeast : 1 ≤ config.branching) (more : Nat)
    (iterated :
      iterations numbers hooks config evaluateFactor more search world = (.ok last, after)) :
    Sound config last.nodes (count + more) := by
  induction more generalizing search count world with
  | zero =>
    obtain rfl := Except.ok.inj (congrArg Prod.fst iterated)
    exact sound
  | succ more ih =>
    obtain ⟨next, middle, first, rest⟩ := Mining.ok_of_bind iterated
    have step := sound.iterate numbers config atLeast first
    have all := ih step rest
    rwa [Nat.add_assoc, Nat.add_comm 1 more] at all

variable (hooks evaluateFactor)

/-- The search after a number of iterations. -/
def searched (seed : Expr) (done : Nat) : Mining η ν (Search ν) :=
  startSearch numbers hooks config evaluateFactor seed >>=
    MiningLoop.iterations numbers hooks config evaluateFactor done

/-- Each descent of the search ends, and where the search returns, its tree has sound books and
what it reports is the best of the tree. -/
structure Bookkept (seed : Expr) (iterated : Int) (world : World η ν) : Prop where
  ends : ∀ done < iterated.toNat, ∀ search after,
    searched numbers hooks config evaluateFactor seed done world = (.ok search, after) →
      Ends numbers config search.nodes
  sound : ∀ result after,
    searchMcts numbers hooks config evaluateFactor seed iterated world = (.ok result, after) →
      ∃ search : Search ν,
        searched numbers hooks config evaluateFactor seed iterated.toNat world =
            (.ok search, after) ∧
          Sound config search.nodes iterated.toNat ∧ Best search.nodes result

variable {hooks evaluateFactor}

private theorem sound_searched (atLeast : 1 ≤ config.branching) {seed : Expr} {done : Nat}
    {search : Search ν} (reached : searched numbers hooks config evaluateFactor seed done world =
      (.ok search, after)) : Sound config search.nodes done := by
  obtain ⟨started, middle, start, run⟩ := Mining.ok_of_bind reached
  have sound := (sound_startSearch numbers config atLeast start).iterations numbers config atLeast
    done run
  rwa [Nat.zero_add] at sound

private theorem best_of_searchMcts (atLeast : 1 ≤ config.branching) {seed : Expr} {iterated : Int}
    {result : MCTSResult ν} (returned : searchMcts numbers hooks config evaluateFactor seed iterated
      world = (.ok result, after)) :
    ∃ search : Search ν, searched numbers hooks config evaluateFactor seed iterated.toNat world =
        (.ok search, after) ∧ Best search.nodes result := by
  obtain ⟨started, middle, start, rest⟩ := Mining.ok_of_bind returned
  obtain ⟨search, last, run, ended⟩ := Mining.ok_of_bind rest
  have reached : searched numbers hooks config evaluateFactor seed iterated.toNat world =
      (.ok search, last) := by
    rw [searched, Mining.bind_of_ok start, run]
  have sound := sound_searched numbers config atLeast reached
  cases shape : search.nodes with
  | nil => exact absurd sound.size (by rw [shape]; simp)
  | cons root others =>
    rw [shape] at ended
    obtain ⟨reported, same⟩ := Prod.mk.inj ended
    obtain rfl := Except.ok.inj reported
    rw [← shape]
    have listed : root ∈ search.nodes := by
      rw [shape]
      exact List.mem_cons_self
    obtain ⟨inside, greatest⟩ := bestNode_spec sound.linked listed
    refine ⟨search, same ▸ reached, ⟨_, inside, ?_, ?_⟩, ?_⟩
    · rw [shape]
    · rw [shape]
    · simpa [shape] using greatest

/-- A search keeps its books exactly when before each of its iterations every full node that the
selection leads to has a child whose UCT value is above minus infinity. -/
theorem searchMcts_bookkept_iff (atLeast : 1 ≤ config.branching) (seed : Expr) (iterated : Int)
    (world : World η ν) :
    Bookkept numbers hooks config evaluateFactor seed iterated world ↔
      ∀ done < iterated.toNat, ∀ search after,
        searched numbers hooks config evaluateFactor seed done world = (.ok search, after) →
          Passable numbers config search.nodes := by
  have exact_search {done : Nat} {search : Search ν} {after : World η ν}
      (reached : searched numbers hooks config evaluateFactor seed done world =
        (.ok search, after)) :
      Ends numbers config search.nodes ↔ Passable numbers config search.nodes :=
    ends_iff_passable numbers config (sound_searched numbers config atLeast reached).linked
  constructor
  · exact fun kept done less search after reached =>
      (exact_search reached).mp (kept.ends done less search after reached)
  · intro passable
    refine ⟨fun done less search after reached =>
      (exact_search reached).mpr (passable done less search after reached), ?_⟩
    intro result after returned
    obtain ⟨search, reached, best⟩ := best_of_searchMcts numbers config atLeast returned
    exact ⟨search, reached, sound_searched numbers config atLeast reached, best⟩

end

local instance binaryMul : Mul (WithBot (Fin 2)) := ⟨WithBot.map₂ (· * ·)⟩

local instance binaryDiv : Div (WithBot (Fin 2)) := ⟨WithBot.map₂ (· / ·)⟩

local instance binaryCast : NatCast (WithBot (Fin 2)) :=
  ⟨fun number => if number % 2 = 0 then zero else one⟩

/-- A search from `close` below which the hooks propose `close` again. -/
theorem searchMcts_bookkept_close :
    Bookkept binaryNumbers closeHooks crowdedConfig acceptEvery (.leaf .close) 3 (.fresh ()) :=
  (searchMcts_bookkept_iff binaryNumbers crowdedConfig (by decide) (.leaf .close) 3 (.fresh ())).mpr
    fun done less search after reached => by
      have linked :=
        (sound_searched binaryNumbers crowdedConfig (by decide) reached).linked
      refine (ends_iff_passable binaryNumbers crowdedConfig linked).mp ?_
      match done, less with
      | 0, _ | 1, _ | 2, _ =>
        obtain rfl := Except.ok.inj (congrArg Prod.fst reached)
        exact ⟨_, rfl⟩

/-- The first descent below a single child with an exploration constant of minus infinity stays
at the root. -/
theorem not_bookkept_minusInf :
    ¬ Bookkept binaryNumbers closeHooks { crowdedConfig with exploration := ⊥, branching := 1 }
      acceptEvery (.leaf .close) 2 (.fresh ()) := by
  intro kept
  obtain ⟨place, descends⟩ := kept.ends 1 (by decide) _ _ rfl
  cases descends

end Swarmind.AlphaMining.MiningLoop
