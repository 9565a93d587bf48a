import Mathlib.Data.List.Perm.Basic
import Mathlib.Order.Lattice

/-!
Owns `heapq.heappush` and `heapq.heappop` as CPython runs them, over a
comparison that may raise: `lt` answers `none` there. A comparison that raises
leaves the list as the swaps before it made it, and a `heappop` that raises has
already taken its item out.
-/

namespace Swarmind.Library

universe u v

namespace Heapq

variable {α : Type u}

/-! ### The algorithm -/

/-- `heap[i], heap[j] = heap[j], heap[i]`. -/
def swapAt (items : List α) (i j : Nat) : List α :=
  match items[i]?, items[j]? with
  | some first, some second => (items.set i second).set j first
  | _, _ => items

def parent (pos : Nat) : Nat := (pos - 1) / 2

section Algorithm

variable (lt : α → α → Option Bool)

/-- `siftdown(heap, 0, pos)`: move the item at `pos` up while it is smaller than
its parent. Answers whether every comparison came back. -/
def siftdown : Nat → List α → Nat → Bool × List α
  | 0, items, _ => (true, items)
  | fuel + 1, items, pos =>
    if pos = 0 then (true, items)
    else
      match items[pos]?, items[parent pos]? with
      | some newitem, some above =>
        match lt newitem above with
        | none => (false, items)
        | some false => (true, items)
        | some true => siftdown fuel (swapAt items pos (parent pos)) (parent pos)
      | _, _ => (true, items)

/-- The first loop of `siftup(heap, pos)`: move the smaller child up until a leaf
is reached, and answer the leaf. -/
def descend : Nat → List α → Nat → Option Nat × List α
  | 0, items, pos => (some pos, items)
  | fuel + 1, items, pos =>
    match items[2 * pos + 1]?, items[2 * pos + 2]? with
    | none, _ => (some pos, items)
    | some _, none => descend fuel (swapAt items pos (2 * pos + 1)) (2 * pos + 1)
    | some left, some right =>
      match lt left right with
      | none => (none, items)
      | some true => descend fuel (swapAt items pos (2 * pos + 1)) (2 * pos + 1)
      | some false => descend fuel (swapAt items pos (2 * pos + 2)) (2 * pos + 2)

/-- `siftup(heap, 0)`. A path to a leaf is shorter than the list. -/
def siftup (items : List α) : Bool × List α :=
  match descend lt items.length items 0 with
  | (none, left) => (false, left)
  | (some leaf, moved) => siftdown lt leaf moved leaf

/-- `heapq.heappush`: whether it returned, and the list it leaves. -/
def push (items : List α) (item : α) : Bool × List α :=
  siftdown lt items.length (items ++ [item]) items.length

/-- `heapq.heappop`: the item when it returned, and the list it leaves. -/
def pop (items : List α) : Option α × List α :=
  match items.getLast? with
  | none => (none, [])
  | some last =>
    match items.dropLast with
    | [] => (some last, [])
    | root :: others =>
      match siftup lt (last :: others) with
      | (true, left) => (some root, left)
      | (false, left) => (none, left)

end Algorithm

/-! ### No item is made or lost -/

private theorem swapAt_perm (items : List α) (i j : Nat) : (swapAt items i j).Perm items := by
  unfold swapAt
  split
  next first second atFirst atSecond =>
      obtain ⟨inside, rfl⟩ := List.getElem?_eq_some_iff.mp atFirst
      obtain ⟨inside', rfl⟩ := List.getElem?_eq_some_iff.mp atSecond
      exact List.set_set_perm inside inside'
  next => exact List.Perm.refl items

section Permutation

variable (lt : α → α → Option Bool)

private theorem siftdown_perm (fuel : Nat) (items : List α) (pos : Nat) :
    (siftdown lt fuel items pos).2.Perm items := by
  induction fuel generalizing items pos with
  | zero => exact List.Perm.refl items
  | succ fuel ih =>
    rw [siftdown]
    split
    · exact List.Perm.refl items
    · split
      · split
        · exact List.Perm.refl items
        · exact List.Perm.refl items
        · exact (ih _ _).trans (swapAt_perm items pos (parent pos))
      · exact List.Perm.refl items

private theorem descend_perm (fuel : Nat) (items : List α) (pos : Nat) :
    (descend lt fuel items pos).2.Perm items := by
  induction fuel generalizing items pos with
  | zero => exact List.Perm.refl items
  | succ fuel ih =>
    rw [descend]
    split
    · exact List.Perm.refl items
    · exact (ih _ _).trans (swapAt_perm items pos _)
    · split
      · exact List.Perm.refl items
      · exact (ih _ _).trans (swapAt_perm items pos _)
      · exact (ih _ _).trans (swapAt_perm items pos _)

private theorem siftup_perm (items : List α) : (siftup lt items).2.Perm items := by
  have descended := descend_perm lt items.length items 0
  unfold siftup
  split
  next left stopped =>
      rw [stopped] at descended
      exact descended
  next leaf moved reached =>
      rw [reached] at descended
      exact (siftdown_perm lt leaf moved leaf).trans descended

/-- A push adds its item. -/
theorem push_perm (items : List α) (item : α) : (push lt items item).2.Perm (item :: items) :=
  (siftdown_perm lt _ _ _).trans (List.perm_append_singleton item items)

private theorem split_ends {items others : List α} {root last : α}
    (atEnd : items.getLast? = some last) (front : items.dropLast = root :: others) :
    items = root :: (others ++ [last]) := by
  rw [← List.cons_append, ← front]
  exact (List.dropLast_append_getLast? last atEnd).symm

theorem pop_perm {items : List α} (nonempty : items ≠ []) :
    ∃ taken, items.Perm (taken :: (pop lt items).2) ∧
      ∀ item, (pop lt items).1 = some item → item = taken := by
  unfold pop
  split
  next none_last => exact absurd (List.getLast?_eq_none_iff.mp none_last) nonempty
  next last atEnd =>
      split
      next front =>
          refine ⟨last, ?_, fun item popped => (Option.some.inj popped).symm⟩
          rw [← List.dropLast_append_getLast? last atEnd, front]
          exact List.Perm.refl _
      next root others front =>
          have whole : items.Perm (root :: (last :: others)) := by
            rw [split_ends atEnd front]
            exact (List.perm_append_singleton last others).cons root
          have sifted := siftup_perm lt (last :: others)
          split
          next left returned =>
              rw [returned] at sifted
              exact ⟨root, whole.trans (sifted.symm.cons root),
                fun item popped => (Option.some.inj popped).symm⟩
          next left raised =>
              rw [raised] at sifted
              exact ⟨root, whole.trans (sifted.symm.cons root), by simp⟩

/-- A pop takes its item away. -/
theorem pop_some_perm {items : List α} {item : α} (popped : (pop lt items).1 = some item) :
    items.Perm (item :: (pop lt items).2) := by
  have nonempty : items ≠ [] := by
    rintro rfl
    cases popped
  obtain ⟨taken, perm, same⟩ := pop_perm lt nonempty
  rw [same item popped]
  exact perm

end Permutation

/-! ### Nothing raises where all items compare -/

/-- Every two items of the list compare. -/
def Comparable (lt : α → α → Option Bool) (items : List α) : Prop :=
  ∀ first ∈ items, ∀ second ∈ items, lt first second ≠ none

theorem Comparable.of_perm {lt : α → α → Option Bool} {items others : List α}
    (comparable : Comparable lt items) (perm : others.Perm items) : Comparable lt others :=
  fun first inFirst second inSecond =>
    comparable first (perm.mem_iff.mp inFirst) second (perm.mem_iff.mp inSecond)

section NoRaise

variable {lt : α → α → Option Bool}

variable {items : List α}

private theorem siftdown_returns (fuel : Nat) (pos : Nat)
    (comparable : Comparable lt items) : (siftdown lt fuel items pos).1 = true := by
  induction fuel generalizing items pos with
  | zero => rfl
  | succ fuel ih =>
    rw [siftdown]
    split
    · rfl
    · split
      next newitem above atPos atParent =>
          split
          next incomparable =>
              exact absurd incomparable (comparable _ (List.mem_of_getElem? atPos) _
                (List.mem_of_getElem? atParent))
          next => rfl
          next => exact ih _ (comparable.of_perm (swapAt_perm items pos _))
      next => rfl

private theorem descend_returns (fuel : Nat) (pos : Nat)
    (comparable : Comparable lt items) : (descend lt fuel items pos).1 ≠ none := by
  induction fuel generalizing items pos with
  | zero => simp [descend]
  | succ fuel ih =>
    rw [descend]
    split
    · simp
    · exact ih _ (comparable.of_perm (swapAt_perm items pos _))
    next left right atLeft atRight =>
        split
        next incomparable =>
            exact absurd incomparable (comparable _ (List.mem_of_getElem? atLeft) _
              (List.mem_of_getElem? atRight))
        next => exact ih _ (comparable.of_perm (swapAt_perm items pos _))
        next => exact ih _ (comparable.of_perm (swapAt_perm items pos _))

private theorem siftup_returns (comparable : Comparable lt items) : (siftup lt items).1 = true := by
  have descended := descend_perm lt items.length items 0
  unfold siftup
  split
  next left stopped =>
      exact absurd (congrArg Prod.fst stopped) (descend_returns items.length 0 comparable)
  next leaf moved reached =>
      rw [reached] at descended
      exact siftdown_returns leaf leaf (comparable.of_perm descended)

/-- A push of comparable items raises nothing. -/
theorem push_returns {item : α} (comparable : Comparable lt (item :: items)) :
    (push lt items item).1 = true :=
  siftdown_returns _ _ (comparable.of_perm (List.perm_append_singleton item items))

theorem pop_returns (comparable : Comparable lt items) (nonempty : items ≠ []) :
    ∃ item, (pop lt items).1 = some item := by
  unfold pop
  split
  next none_last => exact absurd (List.getLast?_eq_none_iff.mp none_last) nonempty
  next last atEnd =>
      split
      next => exact ⟨last, rfl⟩
      next root others front =>
          have kept : Comparable lt (last :: others) := by
            intro first inFirst second inSecond
            have inside : ∀ item ∈ last :: others, item ∈ items := by
              intro item member
              rw [split_ends atEnd front]
              simp only [List.mem_cons, List.mem_append, List.not_mem_nil, or_false] at member ⊢
              tauto
            exact comparable first (inside first inFirst) second (inside second inSecond)
          have returns := siftup_returns kept
          split
          next => exact ⟨root, rfl⟩
          next left raised =>
              rw [raised] at returns
              cases returns

end NoRaise

/-! ### The heap order -/

section Order

variable {β : Type v} [LinearOrder β] (rank : α → β)

/-- The item at `first` ranks no higher than the one at `second`. -/
def Edge (items : List α) (first second : Nat) : Prop :=
  ∀ a b, items[first]? = some a → items[second]? = some b → rank a ≤ rank b

/-- No item ranks below its parent. -/
def Ordered (items : List α) : Prop := ∀ i, 0 < i → Edge rank items (parent i) i

/-- The order off `pos`: every pair that does not touch it, and its children
against its parent. -/
structure OrderedAround (items : List α) (pos : Nat) : Prop where
  off : ∀ i, 0 < i → i ≠ pos → parent i ≠ pos → Edge rank items (parent i) i
  grand : 0 < pos → ∀ i, 0 < i → parent i = pos → Edge rank items (parent pos) i

/-- `lt` compares the items of the list by their rank. -/
def RankedBy (lt : α → α → Option Bool) (items : List α) : Prop :=
  ∀ first ∈ items, ∀ second ∈ items, lt first second = some (decide (rank first < rank second))

variable {rank}

theorem RankedBy.of_perm {lt : α → α → Option Bool} {items others : List α}
    (ranked : RankedBy rank lt items) (perm : others.Perm items) : RankedBy rank lt others :=
  fun first inFirst second inSecond =>
    ranked first (perm.mem_iff.mp inFirst) second (perm.mem_iff.mp inSecond)

variable {items : List α}

theorem RankedBy.comparable {lt : α → α → Option Bool}
    (ranked : RankedBy rank lt items) : Comparable lt items := by
  intro first inFirst second inSecond
  rw [ranked first inFirst second inSecond]
  exact Option.some_ne_none _

variable {pos : Nat}

private theorem parent_lt (positive : 0 < pos) : parent pos < pos := by
  unfold parent
  omega

private theorem isChild_iff {i pos : Nat} :
    0 < i ∧ parent i = pos ↔ i = 2 * pos + 1 ∨ i = 2 * pos + 2 := by
  unfold parent
  omega

private theorem getElem?_swapAt {i j : Nat} (insideFirst : i < items.length)
    (insideSecond : j < items.length) (k : Nat) :
    (swapAt items i j)[k]? =
      if k = j then items[i]? else if k = i then items[j]? else items[k]? := by
  rw [List.getElem?_eq_getElem insideFirst, List.getElem?_eq_getElem insideSecond]
  simp only [swapAt, List.getElem?_eq_getElem insideFirst, List.getElem?_eq_getElem insideSecond]
  rw [List.getElem?_set, List.length_set, if_pos insideSecond, List.getElem?_set,
    if_pos insideFirst]
  simp only [eq_comm (a := k)]

theorem Edge.trans {first second third : Nat}
    (lower : Edge rank items first second) (upper : Edge rank items second third)
    (inside : second < items.length) : Edge rank items first third :=
  fun a c atFirst atThird =>
    le_trans (lower a _ atFirst (List.getElem?_eq_getElem inside))
      (upper _ c (List.getElem?_eq_getElem inside) atThird)

theorem Edge.refl (i : Nat) : Edge rank items i i := by
  intro a b atFirst atSecond
  rw [Option.some.inj (atFirst.symm.trans atSecond)]

private theorem edge_of_le {first second : Nat} (firstInside : first < items.length)
    (secondInside : second < items.length) (le : rank items[first] ≤ rank items[second]) :
    Edge rank items first second := by
  intro a b atFirst atSecond
  rw [List.getElem?_eq_getElem firstInside] at atFirst
  rw [List.getElem?_eq_getElem secondInside] at atSecond
  rw [← Option.some.inj atFirst, ← Option.some.inj atSecond]
  exact le

private theorem edge_of_eq {items others : List α} {first second first' second' : Nat}
    (sameFirst : others[first']? = items[first]?) (sameSecond : others[second']? = items[second]?)
    (edge : Edge rank items first second) : Edge rank others first' second' :=
  fun a b atFirst atSecond => edge a b (sameFirst ▸ atFirst) (sameSecond ▸ atSecond)

theorem edge_of_length_le {first second : Nat}
    (outside : items.length ≤ second) : Edge rank items first second := by
  intro a b _ atSecond
  rw [List.getElem?_eq_none outside] at atSecond
  cases atSecond

theorem Ordered.root (ordered : Ordered rank items) (i : Nat) : Edge rank items 0 i := by
  induction i using Nat.strongRecOn with
  | _ i ih =>
    by_cases outside : items.length ≤ i
    · exact edge_of_length_le outside
    · by_cases zero : i = 0
      · subst zero
        exact Edge.refl 0
      · have positive : 0 < i := Nat.pos_of_ne_zero zero
        have smaller := parent_lt positive
        exact (ih _ smaller).trans (ordered i positive) (by omega)

private theorem OrderedAround.moveDown {pos child : Nat} (around : OrderedAround rank items pos)
    (isChild : 0 < child ∧ parent child = pos) (inside : child < items.length)
    (smallest : ∀ i, 0 < i → parent i = pos → Edge rank items child i) :
    OrderedAround rank (swapAt items pos child) child := by
  obtain ⟨positive, isParent⟩ := isChild
  have above : pos < child := isParent ▸ parent_lt positive
  have read := getElem?_swapAt (show pos < items.length by omega) inside
  have readOther : ∀ k, k ≠ pos → k ≠ child → (swapAt items pos child)[k]? = items[k]? := by
    intro k notPos notChild
    rw [read, if_neg notChild, if_neg notPos]
  have readPos : (swapAt items pos child)[pos]? = items[child]? := by
    rw [read, if_neg (Nat.ne_of_lt above), if_pos rfl]
  constructor
  · intro i iPositive notChild parentNotChild
    have below := parent_lt iPositive
    by_cases isPos : i = pos
    · subst isPos
      exact edge_of_eq (readOther _ (by omega) parentNotChild) readPos
        (around.grand iPositive child positive isParent)
    · by_cases sibling : parent i = pos
      · rw [sibling]
        exact edge_of_eq readPos (readOther i isPos notChild) (smallest i iPositive sibling)
      · exact edge_of_eq (readOther _ sibling parentNotChild) (readOther i isPos notChild)
          (around.off i iPositive isPos sibling)
  · intro _ i iPositive childParent
    have below := parent_lt iPositive
    rw [isParent]
    have edge := around.off i iPositive (by omega) (by omega)
    rw [childParent] at edge
    exact edge_of_eq readPos (readOther i (by omega) (by omega)) edge

private theorem OrderedAround.moveUp (around : OrderedAround rank items pos)
    (below : ∀ i, 0 < i → parent i = pos → Edge rank items pos i) (positive : 0 < pos)
    (inside : pos < items.length) (smaller : Edge rank items pos (parent pos)) :
    OrderedAround rank (swapAt items pos (parent pos)) (parent pos) ∧
      ∀ i, 0 < i → parent i = parent pos →
        Edge rank (swapAt items pos (parent pos)) (parent pos) i := by
  have above := parent_lt positive
  have read := getElem?_swapAt inside (show parent pos < items.length by omega)
  have readOther : ∀ k, k ≠ pos → k ≠ parent pos →
      (swapAt items pos (parent pos))[k]? = items[k]? := by
    intro k notPos notParent
    rw [read, if_neg notParent, if_neg notPos]
  have readPos : (swapAt items pos (parent pos))[pos]? = items[parent pos]? := by
    rw [read, if_neg (Nat.ne_of_gt above), if_pos rfl]
  have readParent : (swapAt items pos (parent pos))[parent pos]? = items[pos]? := by
    rw [read, if_pos rfl]
  constructor
  · constructor
    · intro i iPositive notParent parentNotParent
      have notPos : i ≠ pos := fun isPos => parentNotParent (isPos ▸ rfl)
      by_cases child : parent i = pos
      · rw [child]
        exact edge_of_eq readPos (readOther i notPos notParent)
          (around.grand positive i iPositive child)
      · exact edge_of_eq (readOther _ child parentNotParent) (readOther i notPos notParent)
          (around.off i iPositive notPos child)
    · intro parentPositive i iPositive sibling
      have higher := parent_lt parentPositive
      have upper := around.off (parent pos) parentPositive (Nat.ne_of_lt above) (by omega)
      by_cases isPos : i = pos
      · subst isPos
        exact edge_of_eq (readOther _ (by omega) (Nat.ne_of_lt higher)) readPos upper
      · have iBelow := parent_lt iPositive
        have lower := around.off i iPositive isPos (by omega)
        rw [sibling] at lower
        have notPos : parent (parent pos) ≠ pos := by omega
        exact edge_of_eq (readOther _ notPos (Nat.ne_of_lt higher)) (readOther i isPos (by omega))
          (upper.trans lower (by omega))
  · intro i iPositive sibling
    by_cases isPos : i = pos
    · subst isPos
      exact edge_of_eq readParent readPos smaller
    · have iBelow := parent_lt iPositive
      have lower := around.off i iPositive isPos (by omega)
      rw [sibling] at lower
      exact edge_of_eq readParent (readOther i isPos (by omega)) (smaller.trans lower (by omega))

theorem OrderedAround.ordered (around : OrderedAround rank items pos)
    (below : ∀ i, 0 < i → parent i = pos → Edge rank items pos i)
    (above : 0 < pos → Edge rank items (parent pos) pos) : Ordered rank items := by
  intro i positive
  by_cases isPos : i = pos
  · subst isPos
    exact above positive
  · by_cases child : parent i = pos
    · rw [child]
      exact below i positive child
    · exact around.off i positive isPos child

variable {lt : α → α → Option Bool}

private theorem siftdown_ordered (fuel : Nat) (ranked : RankedBy rank lt items)
    (around : OrderedAround rank items pos)
    (below : ∀ i, 0 < i → parent i = pos → Edge rank items pos i) (inside : pos < items.length)
    (enough : pos ≤ fuel) : Ordered rank (siftdown lt fuel items pos).2 := by
  induction fuel generalizing items pos with
  | zero => exact around.ordered below fun positive => absurd positive (by omega)
  | succ fuel ih =>
    rw [siftdown]
    by_cases zero : pos = 0
    · rw [if_pos zero]
      exact around.ordered below fun positive => absurd positive (by omega)
    · have positive : 0 < pos := Nat.pos_of_ne_zero zero
      have above := parent_lt positive
      have parentInside : parent pos < items.length := by omega
      rw [if_neg zero, List.getElem?_eq_getElem inside, List.getElem?_eq_getElem parentInside]
      have compare := ranked _ (List.getElem_mem inside) _ (List.getElem_mem parentInside)
      by_cases smaller : rank items[pos] < rank items[parent pos]
      · rw [decide_eq_true smaller] at compare
        simp only [compare]
        have moved := around.moveUp below positive inside
          (edge_of_le inside parentInside (le_of_lt smaller))
        have perm := swapAt_perm items pos (parent pos)
        apply ih (ranked.of_perm perm) moved.1 moved.2
        · rw [perm.length_eq]
          exact parentInside
        · omega
      · rw [decide_eq_false smaller] at compare
        simp only [compare]
        exact around.ordered below fun _ =>
          edge_of_le parentInside inside (not_lt.mp smaller)

private theorem descend_ordered (fuel : Nat)
    (ranked : RankedBy rank lt items) (around : OrderedAround rank items pos)
    (inside : pos < items.length) (enough : items.length ≤ pos + fuel) :
    ∃ leaf moved, descend lt fuel items pos = (some leaf, moved) ∧
      OrderedAround rank moved leaf ∧ leaf < moved.length ∧ moved.length ≤ 2 * leaf + 1 := by
  induction fuel generalizing items pos with
  | zero => exact absurd inside (by omega)
  | succ fuel ih =>
    have step (child : Nat) (isChild : 0 < child ∧ parent child = pos)
        (childInside : child < items.length)
        (smallest : ∀ i, 0 < i → parent i = pos → Edge rank items child i) :
        ∃ leaf moved, descend lt fuel (swapAt items pos child) child = (some leaf, moved) ∧
          OrderedAround rank moved leaf ∧ leaf < moved.length ∧
          moved.length ≤ 2 * leaf + 1 := by
      have perm := swapAt_perm items pos child
      have above := parent_lt isChild.1
      apply ih (ranked.of_perm perm)
        (around.moveDown isChild childInside smallest)
      · rw [perm.length_eq]
        exact childInside
      · rw [perm.length_eq]
        omega
    rw [descend]
    by_cases leftInside : 2 * pos + 1 < items.length
    · rw [List.getElem?_eq_getElem leftInside]
      have leftChild : 0 < 2 * pos + 1 ∧ parent (2 * pos + 1) = pos := isChild_iff.mpr (.inl rfl)
      have rightChild : 0 < 2 * pos + 2 ∧ parent (2 * pos + 2) = pos :=
        isChild_iff.mpr (.inr rfl)
      have least (child : Nat) (left : Edge rank items child (2 * pos + 1))
          (right : Edge rank items child (2 * pos + 2)) :
          ∀ i, 0 < i → parent i = pos → Edge rank items child i := by
        intro i iPositive isParent
        obtain rfl | rfl := isChild_iff.mp ⟨iPositive, isParent⟩
        · exact left
        · exact right
      by_cases rightInside : 2 * pos + 2 < items.length
      · rw [List.getElem?_eq_getElem rightInside]
        have compare := ranked _ (List.getElem_mem leftInside) _ (List.getElem_mem rightInside)
        by_cases smaller : rank items[2 * pos + 1] < rank items[2 * pos + 2]
        · rw [decide_eq_true smaller] at compare
          simp only [compare]
          exact step _ leftChild leftInside (least _ (Edge.refl _)
            (edge_of_le leftInside rightInside (le_of_lt smaller)))
        · rw [decide_eq_false smaller] at compare
          simp only [compare]
          exact step _ rightChild rightInside (least _
            (edge_of_le rightInside leftInside (not_lt.mp smaller)) (Edge.refl _))
      · rw [List.getElem?_eq_none (by omega)]
        exact step _ leftChild leftInside
          (least _ (Edge.refl _) (edge_of_length_le (by omega)))
    · rw [List.getElem?_eq_none (by omega)]
      exact ⟨pos, items, rfl, around, inside, by omega⟩

private theorem siftup_ordered (ranked : RankedBy rank lt items)
    (around : OrderedAround rank items 0)
    (nonempty : 0 < items.length) : Ordered rank (siftup lt items).2 := by
  obtain ⟨leaf, moved, reached, orderedOff, inside, isLeaf⟩ :=
    descend_ordered items.length ranked around nonempty (by omega)
  have perm := descend_perm lt items.length items 0
  rw [reached] at perm
  unfold siftup
  rw [reached]
  refine siftdown_ordered leaf (ranked.of_perm perm) orderedOff ?_ inside (Nat.le_refl leaf)
  intro i positive isChild
  apply edge_of_length_le
  obtain rfl | rfl := isChild_iff.mp ⟨positive, isChild⟩ <;> omega

/-- A push keeps the heap ordered. -/
theorem push_ordered {item : α} (ordered : Ordered rank items)
    (ranked : RankedBy rank lt (item :: items)) : Ordered rank (push lt items item).2 := by
  have perm := List.perm_append_singleton item items
  have beyond : ∀ i, 0 < i → parent i = items.length → (items ++ [item]).length ≤ i := by
    intro i positive isChild
    have below := parent_lt positive
    rw [List.length_append, List.length_singleton]
    omega
  apply siftdown_ordered items.length (ranked.of_perm perm)
  · constructor
    · intro i positive notLast parentNotLast a b atParent atChild
      have inside : i < items.length := by
        have bound := (List.getElem?_eq_some_iff.mp atChild).1
        rw [List.length_append, List.length_singleton] at bound
        omega
      have below := parent_lt positive
      rw [List.getElem?_append_left inside] at atChild
      rw [List.getElem?_append_left (by omega)] at atParent
      exact ordered i positive a b atParent atChild
    · exact fun _ i positive isChild => edge_of_length_le (beyond i positive isChild)
  · exact fun i positive isChild => edge_of_length_le (beyond i positive isChild)
  · rw [List.length_append, List.length_singleton]
    omega
  · exact Nat.le_refl items.length

/-- A pop keeps the heap ordered. -/
theorem pop_ordered (ordered : Ordered rank items)
    (ranked : RankedBy rank lt items) : Ordered rank (pop lt items).2 := by
  have empty : Ordered rank ([] : List α) := fun i _ => edge_of_length_le (Nat.zero_le i)
  unfold pop
  split
  next => exact empty
  next last atEnd =>
      split
      next => exact empty
      next root others front =>
          have whole := split_ends atEnd front
          have sub : ∀ entry ∈ last :: others, entry ∈ items := by
            intro entry member
            rw [whole]
            simp only [List.mem_cons, List.mem_append, List.not_mem_nil, or_false] at member ⊢
            tauto
          have kept : RankedBy rank lt (last :: others) := fun first inFirst second inSecond =>
            ranked first (sub first inFirst) second (sub second inSecond)
          have around : OrderedAround rank (last :: others) 0 := by
            constructor
            · intro i positive _ parentPositive a b atParent atChild
              have read (k : Nat) (inner : 0 < k) (entry : α)
                  (at_k : (last :: others)[k]? = some entry) : items[k]? = some entry := by
                obtain ⟨k, rfl⟩ := Nat.exists_eq_add_of_lt inner
                rw [whole]
                simp only [Nat.zero_add, List.getElem?_cons_succ] at at_k ⊢
                rw [List.getElem?_append_left (List.getElem?_eq_some_iff.mp at_k).1]
                exact at_k
              exact ordered i positive a b
                (read _ (Nat.pos_of_ne_zero parentPositive) a atParent)
                (read i positive b atChild)
            · exact fun impossible => absurd impossible (Nat.lt_irrefl 0)
          have sifted := siftup_ordered kept around (by simp)
          split
          next left returned =>
              rw [returned] at sifted
              exact sifted
          next left raised =>
              rw [raised] at sifted
              exact sifted

/-- A pop takes a least item. -/
theorem pop_least {item : α} (ordered : Ordered rank items)
    (popped : (pop lt items).1 = some item) :
    ∀ other ∈ (pop lt items).2, rank item ≤ rank other := by
  have atRoot : items[0]? = some item := by
    revert popped
    unfold pop
    split
    next => simp
    next last atEnd =>
        split
        next front =>
            intro popped
            rw [← List.dropLast_append_getLast? last atEnd, front]
            exact popped
        next root others front =>
            rw [split_ends atEnd front]
            split
            next => exact id
            next => simp
  intro other member
  have inside : other ∈ items :=
    (pop_some_perm lt popped).mem_iff.mpr (List.mem_cons_of_mem item member)
  obtain ⟨i, atOther⟩ := List.mem_iff_getElem?.mp inside
  exact ordered.root i item other atRoot atOther

end Order

end Heapq

end Swarmind.Library
