import Mathlib.Algebra.Order.BigOperators.Group.Finset
import Swarmind.Library.DepthFirst
import Swarmind.Orchestrator.TaskPlanner.CriticalFirst

/-!
Owns the pairs of subtasks that may run in parallel: for each pair a search
along the dependencies, first from one subtask and then from the other.

The search looks up every id it meets. An id outside the list raises, unless
the search has found what it looks for before.
-/

namespace Swarmind.Orchestrator.TaskPlanner.CriticalPath

open Swarmind.Library

variable {W : Type}

/-- The loop of `_depends`. The top of the stack comes first. -/
def search (tasks : Dict String (SubTask W)) (b : String) :
    Nat → List String → List String → Except (Halt String) Bool
  | _, [], _ => .ok false
  | 0, _ :: _, _ => .error .cutOff
  | fuel + 1, dep :: stack, seen =>
    if dep = b then .ok true
    else if dep ∈ seen then search tasks b fuel stack seen
    else do
      let subtask ← tasks.fetch dep
      search tasks b fuel (subtask.dependencies.reverse ++ stack) (dep :: seen)

/-- `_depends`. The dependencies of a subtask are pushed once. -/
def depends (tasks : Dict String (SubTask W)) (a b : String) : Except (Halt String) Bool := do
  let subtask ← tasks.fetch a
  search tasks b
    (subtask.dependencies.length +
      (tasks.values.map fun subtask => subtask.dependencies.length).sum)
    subtask.dependencies.reverse []

/-- `not self._depends(by_id, a, b) and not self._depends(by_id, b, a)`. -/
def independent (tasks : Dict String (SubTask W)) (a b : String) : Except (Halt String) Bool := do
  if ← depends tasks a b then return false
  return !(← depends tasks b a)

/-- The inner loop of `parallelizable_pairs`. -/
def pairsWith (tasks : Dict String (SubTask W)) (a : String) :
    List String → List (String × String) → Except (Halt String) (List (String × String))
  | [], pairs => .ok pairs
  | b :: rest, pairs => do
    let apart ← independent tasks a b
    pairsWith tasks a rest (if apart then pairs ++ [(a, b)] else pairs)

def pairsLoop (tasks : Dict String (SubTask W)) :
    List String → List (String × String) → Except (Halt String) (List (String × String))
  | [], pairs => .ok pairs
  | a :: rest, pairs => do
    let pairs ← pairsWith tasks a rest pairs
    pairsLoop tasks rest pairs

def parallelizablePairs (subtasks : List (SubTask W)) :
    Except (Halt String) (List (String × String)) :=
  pairsLoop (byId subtasks) (ids subtasks) []

/-- The first subtask depends on the second one, directly or through others of
the list. -/
def Reaches (subtasks : List (SubTask W)) (a b : String) : Prop :=
  Relation.TransGen (Depends (dependenciesOf subtasks) (ids subtasks)) b a

/-- The dependencies of a subtask, the last one first. -/
def below (subtasks : List (SubTask W)) (id : String) : List String :=
  (dependenciesOf subtasks id).reverse

/-- In the depth-first order from `a`, which takes the last dependency first,
`b` comes before every id outside the list. -/
def MetFirst (subtasks : List (SubTask W)) (a b : String) : Prop :=
  ∃ order front back, Visits (below subtasks) [] (below subtasks a) order ∧
    order = front ++ b :: back ∧ ∀ id ∈ front, id ∈ ids subtasks

/-- The outcome of the search along an order of visits. -/
def verdict (subtasks : List (SubTask W)) (b : String) : List String → Except (Halt String) Bool
  | [] => .ok false
  | id :: order =>
    if id = b then .ok true
    else if id ∈ ids subtasks then verdict subtasks b order
    else .error (.keyError id)

section Search

variable {subtasks : List (SubTask W)}

private theorem dependenciesOf_of_not_mem {id : String} (foreign : id ∉ ids subtasks) :
    dependenciesOf subtasks id = [] := by
  unfold dependenciesOf
  have none : subtasks.find? (fun subtask => subtask.id = id) = none := by
    apply List.find?_eq_none.mpr
    intro subtask member same
    exact foreign (of_decide_eq_true same ▸ mem_ids member)
  rw [none]
  rfl

private theorem search_eq (distinct : (ids subtasks).Nodup) {b : String}
    {seen stack order : List String}
    (visits : Visits (below subtasks) seen stack order) (fresh : b ∉ seen) {fuel : Nat}
    (enough : stack.length + (order.map fun id => (dependenciesOf subtasks id).length).sum ≤ fuel) :
    search (byId subtasks) b fuel stack seen = verdict subtasks b order := by
  induction visits generalizing fuel with
  | done seen =>
    rw [verdict]
    cases fuel <;> rw [search]
  | again seen node stack order known _ ih =>
    rw [List.length_cons] at enough
    obtain ⟨less, rfl⟩ : ∃ less, fuel = less + 1 := ⟨fuel - 1, by omega⟩
    have different : node ≠ b := fun same => fresh (same ▸ known)
    rw [search, if_neg different, if_pos known]
    exact ih fresh (by omega)
  | first seen node stack order unseen _ ih =>
    rw [List.length_cons, List.map_cons, List.sum_cons] at enough
    obtain ⟨less, rfl⟩ : ∃ less, fuel = less + 1 := ⟨fuel - 1, by omega⟩
    rw [search, verdict]
    by_cases found : node = b
    · rw [if_pos found, if_pos found]
    · rw [if_neg found, if_neg found, if_neg unseen]
      by_cases known : node ∈ ids subtasks
      · obtain ⟨subtask, among, rfl⟩ := List.mem_map.mp known
        rw [if_pos known, fetch_byId distinct among]
        have same : subtask.dependencies.reverse = below subtasks subtask.id := by
          rw [below, dependenciesOf_of_mem distinct among]
        simp only [bind, Except.bind]
        rw [same]
        apply ih
        · rw [List.mem_cons, not_or]
          exact ⟨fun same => found same.symm, fresh⟩
        · rw [List.length_append, below, List.length_reverse]
          omega
      · have missing : (byId subtasks).get? node = none := by
          rw [Dict.get?_eq_none_iff]
          intro key
          exact known ((contains_byId node).mp ((Dict.contains_iff _ _).mpr key))
        rw [if_neg known, Dict.fetch, missing]
        rfl

private theorem exists_order (subtasks : List (SubTask W)) (a : String) :
    ∃ order, Visits (below subtasks) [] (below subtasks a) order := by
  have listed : ∀ id, below subtasks id ⊆ subtasks.flatMap SubTask.dependencies := by
    intro id dep needed
    rw [below, List.mem_reverse] at needed
    by_cases known : id ∈ ids subtasks
    · unfold dependenciesOf at needed
      cases found : subtasks.find? fun subtask => subtask.id = id with
      | none =>
        rw [found] at needed
        exact absurd needed List.not_mem_nil
      | some subtask =>
        rw [found] at needed
        exact List.mem_flatMap.mpr ⟨subtask, List.mem_of_find?_eq_some found, needed⟩
    · rw [dependenciesOf_of_not_mem known] at needed
      exact absurd needed List.not_mem_nil
  exact exists_visits (subtasks.flatMap SubTask.dependencies)
    (fun id _ dep needed => listed id needed) [] _ (listed a)

private theorem sum_order_le (distinct : (ids subtasks).Nodup) {order : List String}
    (unique : order.Nodup) :
    (order.map fun id => (dependenciesOf subtasks id).length).sum ≤
      (subtasks.map fun subtask => subtask.dependencies.length).sum := by
  have lengths : (subtasks.map fun subtask => subtask.dependencies.length) =
      (ids subtasks).map fun id => (dependenciesOf subtasks id).length := by
    rw [ids, List.map_map]
    apply List.map_congr_left
    intro subtask member
    rw [Function.comp_apply, dependenciesOf_of_mem distinct member]
  rw [lengths, ← List.sum_toFinset _ unique, ← List.sum_toFinset _ distinct]
  apply Finset.sum_le_sum_of_ne_zero
  intro id _ some
  rw [List.mem_toFinset]
  by_contra foreign
  rw [dependenciesOf_of_not_mem foreign] at some
  exact some rfl

private theorem depends_eq (distinct : (ids subtasks).Nodup) {a : String}
    (member : a ∈ ids subtasks)
    (b : String) {order : List String} (visits : Visits (below subtasks) [] (below subtasks a) order) :
    depends (byId subtasks) a b = verdict subtasks b order := by
  obtain ⟨subtask, among, rfl⟩ := List.mem_map.mp member
  have same : subtask.dependencies.reverse = below subtasks subtask.id := by
    rw [below, dependenciesOf_of_mem distinct among]
  rw [depends, fetch_byId distinct among]
  simp only [bind, Except.bind]
  rw [same]
  apply search_eq distinct visits List.not_mem_nil
  rw [TaskPlan.values_byId distinct, ← same, List.length_reverse]
  exact Nat.add_le_add_left (sum_order_le distinct visits.nodup.1) _

/-! ### What the search finds -/

variable (subtasks) in
private theorem verdict_cases (b : String) (order : List String) :
    (verdict subtasks b order = .ok true ∧
        ∃ front back, order = front ++ b :: back ∧ ∀ id ∈ front, id ∈ ids subtasks) ∨
      (verdict subtasks b order = .ok false ∧ b ∉ order ∧ ∀ id ∈ order, id ∈ ids subtasks) ∨
      ∃ front id back, verdict subtasks b order = .error (.keyError id) ∧
        order = front ++ id :: back ∧ id ∉ ids subtasks ∧ b ∉ front ++ [id] := by
  induction order with
  | nil =>
    exact Or.inr (Or.inl ⟨rfl, List.not_mem_nil, fun _ member => absurd member List.not_mem_nil⟩)
  | cons id order ih =>
    rw [verdict]
    by_cases found : id = b
    · rw [if_pos found]
      exact Or.inl ⟨rfl, [], order, by rw [found]; rfl, fun _ member =>
        absurd member List.not_mem_nil⟩
    · rw [if_neg found]
      have different : b ≠ id := fun same => found same.symm
      by_cases known : id ∈ ids subtasks
      · rw [if_pos known]
        rcases ih with ⟨same, front, back, split, inside⟩ |
          ⟨same, absent, inside⟩ | ⟨front, foreign, back, same, split, outside, absent⟩
        · refine Or.inl ⟨same, id :: front, back, by rw [split]; rfl, ?_⟩
          exact List.forall_mem_cons.mpr ⟨known, inside⟩
        · refine Or.inr (Or.inl ⟨same, ?_, List.forall_mem_cons.mpr ⟨known, inside⟩⟩)
          exact List.not_mem_cons_of_ne_of_not_mem different absent
        · refine Or.inr (Or.inr ⟨id :: front, foreign, back, same, by rw [split]; rfl, outside,
            ?_⟩)
          exact List.not_mem_cons_of_ne_of_not_mem different absent
      · rw [if_neg known]
        exact Or.inr (Or.inr ⟨[], id, order, rfl, rfl, known,
          List.not_mem_cons_of_ne_of_not_mem different List.not_mem_nil⟩)

private theorem mem_ids_of_below {dep id : String} (needed : dep ∈ below subtasks id) :
    id ∈ ids subtasks := by
  by_contra foreign
  rw [below, dependenciesOf_of_not_mem foreign] at needed
  exact List.not_mem_nil needed

variable {a b : String}

/-- The id can be reached from a dependency of the subtask. -/
def Leads (subtasks : List (SubTask W)) (a id : String) : Prop :=
  ∃ start ∈ below subtasks a,
    Relation.ReflTransGen (fun left right => right ∈ below subtasks left) start id

private theorem leads_iff_reaches (known : b ∈ ids subtasks) :
    Leads subtasks a b ↔ Reaches subtasks a b := by
  constructor
  · rintro ⟨start, among, path⟩
    induction path using Relation.ReflTransGen.head_induction_on generalizing a with
    | refl =>
      exact Relation.TransGen.single ⟨known, mem_ids_of_below among, List.mem_reverse.mp among⟩
    | head follows _ ih =>
      refine (ih follows).tail ?_
      exact ⟨mem_ids_of_below follows, mem_ids_of_below among, List.mem_reverse.mp among⟩
  · intro reaches
    induction reaches with
    | single edge => exact ⟨b, List.mem_reverse.mpr edge.2.2, Relation.ReflTransGen.refl⟩
    | tail _ edge ih =>
      obtain ⟨start, among, path⟩ := ih
      exact ⟨_, List.mem_reverse.mpr edge.2.2, path.head among⟩

private theorem exists_leads_iff : (∃ id, id ∉ ids subtasks ∧ Leads subtasks a id) ↔
    Unreached subtasks a := by
  constructor
  · rintro ⟨id, foreign, start, among, path⟩
    induction path using Relation.ReflTransGen.head_induction_on generalizing a with
    | refl => exact Stranded.outside a id (List.mem_reverse.mp among) foreign
    | head follows _ ih =>
      exact Stranded.waits a _ (List.mem_reverse.mp among) (mem_ids_of_below follows)
        (ih follows)
  · intro unreached
    induction unreached with
    | outside node dep needed foreign =>
      exact ⟨dep, foreign, dep, List.mem_reverse.mpr needed, Relation.ReflTransGen.refl⟩
    | waits node dep needed _ _ ih =>
      obtain ⟨id, foreign, start, among, path⟩ := ih
      exact ⟨id, foreign, dep, List.mem_reverse.mpr needed, path.head among⟩

private theorem depends_ok_iff (distinct : (ids subtasks).Nodup) (member : a ∈ ids subtasks)
    (b : String) :
    (∃ found, depends (byId subtasks) a b = .ok found) ↔
      (Unreached subtasks a → MetFirst subtasks a b) := by
  obtain ⟨order, visits⟩ := exists_order subtasks a
  rw [depends_eq distinct member b visits, ← exists_leads_iff]
  rcases verdict_cases subtasks b order with ⟨same, front, back, split, inside⟩ |
    ⟨same, _, inside⟩ | ⟨front, id, back, same, split, foreign, absent⟩
  · rw [same]
    exact iff_of_true ⟨true, rfl⟩ fun _ => ⟨order, front, back, visits, split, inside⟩
  · rw [same]
    refine iff_of_true ⟨false, rfl⟩ ?_
    rintro ⟨id, foreign, leads⟩
    exact absurd (inside id (visits.mem_iff.mpr leads)) foreign
  · rw [same]
    refine iff_of_false (fun ⟨_, impossible⟩ => nomatch impossible) fun promised => ?_
    have met : id ∈ order := split ▸ List.mem_append_right _ List.mem_cons_self
    obtain ⟨other, before, after, otherVisits, cut, inside⟩ :=
      promised ⟨id, foreign, visits.mem_iff.mp met⟩
    rw [← visits.unique otherVisits, split, List.append_cons] at cut
    rcases List.append_eq_append_iff.mp cut with ⟨middle, longer, _⟩ | ⟨middle, longer, rest⟩
    · exact foreign (inside id (longer ▸ List.mem_append_left _
        (List.mem_append_right _ List.mem_cons_self)))
    · cases middle with
      | nil =>
        rw [List.append_nil] at longer
        exact foreign (inside id (longer ▸ List.mem_append_right _ List.mem_cons_self))
      | cons head middle =>
        obtain ⟨rfl, _⟩ := List.cons.inj rest
        exact absent (longer ▸ List.mem_append_right _ List.mem_cons_self)

private theorem depends_value (distinct : (ids subtasks).Nodup) (member : a ∈ ids subtasks)
    (known : b ∈ ids subtasks) {found : Bool} (returned : depends (byId subtasks) a b = .ok found) :
    found = true ↔ Reaches subtasks a b := by
  obtain ⟨order, visits⟩ := exists_order subtasks a
  rw [depends_eq distinct member b visits] at returned
  rw [← leads_iff_reaches known, Leads, ← visits.mem_iff]
  rcases verdict_cases subtasks b order with ⟨same, front, back, split, _⟩ |
    ⟨same, absent, _⟩ | ⟨front, id, back, same, _⟩
  · cases same.symm.trans returned
    exact iff_of_true rfl (split ▸ List.mem_append_right _ List.mem_cons_self)
  · cases same.symm.trans returned
    exact iff_of_false Bool.false_ne_true absent
  · cases same.symm.trans returned

end Search

/-! ### Pairs -/

section Pairs

variable {subtasks : List (SubTask W)} {a b : String}

private theorem independent_ok_iff (distinct : (ids subtasks).Nodup) (aIn : a ∈ ids subtasks)
    (bIn : b ∈ ids subtasks) :
    (∃ apart, independent (byId subtasks) a b = .ok apart) ↔
      (Unreached subtasks a → MetFirst subtasks a b) ∧
        (¬ Reaches subtasks a b → Unreached subtasks b → MetFirst subtasks b a) := by
  rw [← depends_ok_iff distinct aIn b, ← depends_ok_iff distinct bIn a]
  unfold independent
  cases forth : depends (byId subtasks) a b with
  | error halt =>
    refine iff_of_false ?_ ?_
    · rintro ⟨_, impossible⟩
      cases impossible
    · rintro ⟨⟨_, impossible⟩, _⟩
      cases impossible
  | ok found =>
    have meaning := depends_value distinct aIn bIn forth
    cases found with
    | true => exact iff_of_true ⟨false, rfl⟩ ⟨⟨true, rfl⟩, fun apart => absurd (meaning.mp rfl) apart⟩
    | false =>
      have apart : ¬ Reaches subtasks a b := fun reaches =>
        Bool.false_ne_true (meaning.mpr reaches)
      cases depends (byId subtasks) b a with
      | error halt =>
        refine iff_of_false ?_ ?_
        · rintro ⟨_, impossible⟩
          cases impossible
        · rintro ⟨_, back⟩
          obtain ⟨_, impossible⟩ := back apart
          cases impossible
      | ok back => exact iff_of_true ⟨!back, rfl⟩ ⟨⟨false, rfl⟩, fun _ => ⟨back, rfl⟩⟩

private theorem independent_value (distinct : (ids subtasks).Nodup) (aIn : a ∈ ids subtasks)
    (bIn : b ∈ ids subtasks) {apart : Bool}
    (returned : independent (byId subtasks) a b = .ok apart) :
    apart = true ↔ ¬ Reaches subtasks a b ∧ ¬ Reaches subtasks b a := by
  unfold independent at returned
  cases forth : depends (byId subtasks) a b with
  | error halt =>
    rw [forth] at returned
    cases returned
  | ok found =>
    rw [forth] at returned
    rw [← depends_value distinct aIn bIn forth]
    cases found with
    | true =>
      cases returned
      simp
    | false =>
      cases back : depends (byId subtasks) b a with
      | error halt =>
        rw [back] at returned
        cases returned
      | ok backFound =>
        rw [back] at returned
        cases returned
        rw [← depends_value distinct bIn aIn back]
        simp

private theorem pairsWith_ok (tasks : Dict String (SubTask W)) (a : String) {rest : List String}
    (known : ∀ b ∈ rest, ∃ apart, independent tasks a b = .ok apart)
    (pairs : List (String × String)) :
    ∃ found, pairsWith tasks a rest pairs = .ok found ∧ ∀ x y, (x, y) ∈ found ↔
      (x, y) ∈ pairs ∨ x = a ∧ y ∈ rest ∧ independent tasks a y = .ok true := by
  induction rest generalizing pairs with
  | nil => exact ⟨pairs, rfl, fun x y => by simp⟩
  | cons b rest ih =>
    obtain ⟨apart, returned⟩ := known b List.mem_cons_self
    obtain ⟨found, ran, members⟩ := ih
      (fun other member => known other (List.mem_cons_of_mem b member))
      (if apart then pairs ++ [(a, b)] else pairs)
    refine ⟨found, ?_, fun x y => ?_⟩
    · rw [pairsWith, returned]
      exact ran
    · rw [members, List.mem_cons]
      cases apart with
      | true =>
        rw [if_pos rfl, List.mem_append, List.mem_singleton, Prod.mk.injEq]
        constructor
        · rintro ((old | ⟨rfl, rfl⟩) | ⟨rfl, later, free⟩)
          · exact Or.inl old
          · exact Or.inr ⟨rfl, Or.inl rfl, returned⟩
          · exact Or.inr ⟨rfl, Or.inr later, free⟩
        · rintro (old | ⟨rfl, rfl | later, free⟩)
          · exact Or.inl (Or.inl old)
          · exact Or.inl (Or.inr ⟨rfl, rfl⟩)
          · exact Or.inr ⟨rfl, later, free⟩
      | false =>
        rw [if_neg Bool.false_ne_true]
        constructor
        · rintro (old | ⟨rfl, later, free⟩)
          · exact Or.inl old
          · exact Or.inr ⟨rfl, Or.inr later, free⟩
        · rintro (old | ⟨rfl, rfl | later, free⟩)
          · exact Or.inl old
          · cases returned.symm.trans free
          · exact Or.inr ⟨rfl, later, free⟩

private theorem pairsWith_known {tasks : Dict String (SubTask W)} {a : String} {rest : List String}
    {pairs found : List (String × String)} (ran : pairsWith tasks a rest pairs = .ok found) :
    ∀ b ∈ rest, ∃ apart, independent tasks a b = .ok apart := by
  induction rest generalizing pairs with
  | nil => exact fun _ member => absurd member List.not_mem_nil
  | cons b rest ih =>
    rw [pairsWith] at ran
    cases returned : independent tasks a b with
    | error halt =>
      rw [returned] at ran
      cases ran
    | ok apart =>
      rw [returned] at ran
      exact List.forall_mem_cons.mpr ⟨⟨apart, returned⟩, ih ran⟩

private theorem sublist_pair_cons {x y : String} {rest : List String} :
    [x, y].Sublist (a :: rest) ↔ [x, y].Sublist rest ∨ x = a ∧ y ∈ rest := by
  rw [List.sublist_cons_iff]
  apply or_congr_right
  constructor
  · rintro ⟨tail, same, among⟩
    cases same
    exact ⟨rfl, List.singleton_sublist.mp among⟩
  · rintro ⟨rfl, among⟩
    exact ⟨[y], rfl, List.singleton_sublist.mpr among⟩

private theorem pairsLoop_ok (tasks : Dict String (SubTask W)) {order : List String}
    (known : ∀ x y, [x, y].Sublist order → ∃ apart, independent tasks x y = .ok apart)
    (pairs : List (String × String)) :
    ∃ found, pairsLoop tasks order pairs = .ok found ∧ ∀ x y, (x, y) ∈ found ↔
      (x, y) ∈ pairs ∨ [x, y].Sublist order ∧ independent tasks x y = .ok true := by
  induction order generalizing pairs with
  | nil => exact ⟨pairs, rfl, fun x y => by simp⟩
  | cons a rest ih =>
    obtain ⟨first, ran, members⟩ := pairsWith_ok tasks a
      (fun b member => known a b (sublist_pair_cons.mpr (Or.inr ⟨rfl, member⟩))) pairs
    obtain ⟨found, ranRest, membersRest⟩ := ih
      (fun x y among => known x y (sublist_pair_cons.mpr (Or.inl among))) first
    refine ⟨found, ?_, fun x y => ?_⟩
    · rw [pairsLoop, ran]
      exact ranRest
    · rw [membersRest, members, sublist_pair_cons]
      constructor
      · rintro ((old | ⟨rfl, later, free⟩) | ⟨among, free⟩)
        · exact Or.inl old
        · exact Or.inr ⟨Or.inr ⟨rfl, later⟩, free⟩
        · exact Or.inr ⟨Or.inl among, free⟩
      · rintro (old | ⟨among | ⟨rfl, later⟩, free⟩)
        · exact Or.inl (Or.inl old)
        · exact Or.inr ⟨among, free⟩
        · exact Or.inl (Or.inr ⟨rfl, later, free⟩)

private theorem pairsLoop_known {tasks : Dict String (SubTask W)} {order : List String}
    {pairs found : List (String × String)} (ran : pairsLoop tasks order pairs = .ok found) :
    ∀ x y, [x, y].Sublist order → ∃ apart, independent tasks x y = .ok apart := by
  induction order generalizing pairs with
  | nil => exact fun x y among => absurd (among.subset List.mem_cons_self) List.not_mem_nil
  | cons a rest ih =>
    rw [pairsLoop] at ran
    cases first : pairsWith tasks a rest pairs with
    | error halt =>
      rw [first] at ran
      cases ran
    | ok later =>
      rw [first] at ran
      intro x y among
      rcases sublist_pair_cons.mp among with below | ⟨rfl, member⟩
      · exact ih ran x y below
      · exact pairsWith_known first y member

/-- The pairs returned are those, in the order of the list, of which neither
depends on the other. -/
def PairsAreIndependence (subtasks : List (SubTask W)) : Prop :=
  ∃ pairs, parallelizablePairs subtasks = .ok pairs ∧ ∀ a b, (a, b) ∈ pairs ↔
    [a, b].Sublist (ids subtasks) ∧ ¬ Reaches subtasks a b ∧ ¬ Reaches subtasks b a

/-- No search meets an id outside the list before what it looks for; the second
search of a pair is made only where the first subtask does not depend on the
second. -/
def SearchesStayInside (subtasks : List (SubTask W)) : Prop :=
  ∀ a b, [a, b].Sublist (ids subtasks) →
    (Unreached subtasks a → MetFirst subtasks a b) ∧
      (¬ Reaches subtasks a b → Unreached subtasks b → MetFirst subtasks b a)

/-- The pairs are the independent ones exactly where no search leaves the list
too early; otherwise `parallelizable_pairs` raises. -/
theorem pairsAreIndependence_iff (distinct : (ids subtasks).Nodup) :
    PairsAreIndependence subtasks ↔ SearchesStayInside subtasks := by
  have within : ∀ {x y}, [x, y].Sublist (ids subtasks) → x ∈ ids subtasks ∧ y ∈ ids subtasks :=
    fun among => ⟨among.subset List.mem_cons_self, among.subset (by simp)⟩
  constructor
  · rintro ⟨pairs, ran, _⟩ a b among
    obtain ⟨aIn, bIn⟩ := within among
    exact (independent_ok_iff distinct aIn bIn).mp (pairsLoop_known ran a b among)
  · intro inside
    have known : ∀ a b, [a, b].Sublist (ids subtasks) →
        ∃ apart, independent (byId subtasks) a b = .ok apart := by
      intro a b among
      obtain ⟨aIn, bIn⟩ := within among
      exact (independent_ok_iff distinct aIn bIn).mpr (inside a b among)
    obtain ⟨pairs, ran, members⟩ := pairsLoop_ok (byId subtasks) known []
    refine ⟨pairs, ran, fun a b => ?_⟩
    rw [members]
    simp only [List.not_mem_nil, false_or]
    apply and_congr_right
    intro among
    obtain ⟨aIn, bIn⟩ := within among
    obtain ⟨apart, returned⟩ := known a b among
    rw [returned, Except.ok.injEq]
    exact independent_value distinct aIn bIn returned

/-- The equivalence on two subtasks that wait for one outside the list. -/
theorem pairsAreIndependence_slowLast :
    PairsAreIndependence TaskPlan.slowLast ↔ SearchesStayInside TaskPlan.slowLast :=
  pairsAreIndependence_iff (by decide)

/-- Two subtasks of a level that both waited for an earlier one. -/
theorem not_pairsAreIndependence :
    ¬ ∀ subtasks : List (SubTask Nat), (ids subtasks).Nodup → PairsAreIndependence subtasks := by
  intro promised
  obtain ⟨pairs, ran, _⟩ := promised TaskPlan.slowLast (by decide)
  have raised : parallelizablePairs TaskPlan.slowLast = .error (.keyError "a") := by decide
  cases raised.symm.trans ran

end Pairs

end Swarmind.Orchestrator.TaskPlanner.CriticalPath
