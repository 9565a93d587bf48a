import Swarmind.Orchestrator.TaskPlanner.LongestPath
import Swarmind.Orchestrator.TaskPlanner.Levels

/-!
Owns the order of `optimize`: when it is a topological order that takes the
critical subtasks first.

`longest_path` leaves dependencies outside the list out of its indegrees, and
`optimize` counts them. Subtasks that wait for one are never taken: they stand
at the end, in the order of the list.
-/

namespace Swarmind.Orchestrator.TaskPlanner

open Swarmind.Library

variable {W : Type}

namespace CriticalPath

/-- What is promised of the order of `optimize`. -/
structure CriticalFirst (subtasks : List (SubTask W)) (critical : List String)
    (ordered : List (SubTask W)) : Prop where
  permutes : ordered.Perm subtasks
  sorted : Sorted (dependenciesOf subtasks) (ids subtasks) (ids ordered)
  urgent : UrgentFirst (dependenciesOf subtasks) (ids subtasks) critical (ids ordered)

/-- The subtask waits, directly or through others, for one outside the list. -/
def Unreached (subtasks : List (SubTask W)) (id : String) : Prop :=
  Stranded (dependenciesOf subtasks) (ids subtasks) id

/-- Standing at the end, in the order of the list, does the subtasks that wait
for one outside it no harm: they are listed after their dependencies and after
the critical ones that could come first, and the other subtasks end with one
that the critical path waits for. -/
structure Unobstructed (subtasks : List (SubTask W)) (critical : List String) : Prop where
  listed : ∀ front id back, ids subtasks = front ++ id :: back → Unreached subtasks id →
    ∀ dep ∈ innerOf subtasks id, Unreached subtasks dep → dep ∈ front
  urgent : ∀ front id back, ids subtasks = front ++ id :: back → Unreached subtasks id →
    id ∉ critical → ∀ other ∈ back, other ∈ critical → Unreached subtasks other →
      ∃ dep ∈ innerOf subtasks other, Unreached subtasks dep ∧ dep ∉ front
  awaited : ∀ id ∈ critical, Unreached subtasks id →
    (∀ dep ∈ innerOf subtasks id, ¬ Unreached subtasks dep) →
      ∀ order, Prioritised (dependenciesOf subtasks) (ids subtasks)
        (Before critical (places subtasks)) order →
          order = [] ∨ ∃ last, order.getLast? = some last ∧ last ∈ dependenciesOf subtasks id

section Places

variable {subtasks : List (SubTask W)}

private theorem get?_places (distinct : (ids subtasks).Nodup) {id : String} {place : Nat} :
    (places subtasks).get? id = some place ↔ (ids subtasks)[place]? = some id := by
  have keys : (subtasks.zipIdx.map fun indexed => (indexed.1.id, indexed.2)).map Prod.fst =
      ids subtasks := by
    conv_rhs => rw [ids, ← List.zipIdx_map_fst 0 subtasks]
    rw [List.map_map, List.map_map]
    rfl
  rw [places, Dict.get?_ofList_iff (keys ▸ distinct), List.mem_map, ids, List.getElem?_map]
  constructor
  · rintro ⟨⟨subtask, index⟩, member, same⟩
    cases same
    have found := List.mem_zipIdx_iff_getElem?.mp member
    rw [found]
    rfl
  · intro found
    obtain ⟨subtask, at_, same⟩ := Option.map_eq_some_iff.mp found
    exact ⟨(subtask, place), List.mem_zipIdx_iff_getElem?.mpr at_, by rw [same]⟩

private theorem before_antisymm (distinct : (ids subtasks).Nodup) {critical : List String} :
    ∀ left ∈ ids subtasks, ∀ right ∈ ids subtasks, Before critical (places subtasks) left right →
      Before critical (places subtasks) right left → left = right := by
  intro left leftIn right rightIn forth back
  have same : ((places subtasks).get? left).getD 0 = ((places subtasks).get? right).getD 0 := by
    rcases forth with ⟨leftCritical, rightNot⟩ | ⟨_, early⟩
    · rcases back with ⟨rightCritical, _⟩ | ⟨same, _⟩
      · exact absurd rightCritical rightNot
      · exact absurd (same.mpr leftCritical) rightNot
    · rcases back with ⟨rightCritical, leftNot⟩ | ⟨_, late⟩
      · exact absurd (by tauto) leftNot
      · exact Nat.le_antisymm early late
  obtain ⟨place, bound, rfl⟩ := List.getElem_of_mem leftIn
  obtain ⟨other, otherBound, rfl⟩ := List.getElem_of_mem rightIn
  rw [(get?_places distinct).mpr (List.getElem?_eq_getElem bound),
    (get?_places distinct).mpr (List.getElem?_eq_getElem otherBound)] at same
  cases same
  rfl

private theorem hurries_of_before {critical : List String} {order : Dict String Nat}
    (node other : String)
    (ahead : Before critical order node other) (hurried : other ∈ critical) : node ∈ critical := by
  rcases ahead with ⟨_, calm⟩ | ⟨same, _⟩
  · exact absurd hurried calm
  · exact same.mpr hurried

end Places

/-! ### Chains -/

section Chains

variable {subtasks : List (SubTask W)}

private theorem unreached_of_chain {first : String} {rest : List String}
    (linked : (first :: rest).IsChain fun dep id => dep ∈ dependenciesOf subtasks id)
    (within : ∀ id ∈ first :: rest, id ∈ ids subtasks) (unreached : Unreached subtasks first) :
    ∀ id ∈ first :: rest, Unreached subtasks id := by
  induction rest generalizing first with
  | nil =>
    intro id member
    exact List.mem_singleton.mp member ▸ unreached
  | cons next rest ih =>
    obtain ⟨needed, linkedRest⟩ := List.isChain_cons_cons.mp linked
    have waits : Unreached subtasks next :=
      Stranded.waits next first needed (within first List.mem_cons_self) unreached
    intro id member
    rcases List.mem_cons.mp member with rfl | later
    · exact unreached
    · exact ih linkedRest
        (fun other among => within other (List.mem_cons_of_mem first among)) waits id later

private theorem reached_of_chain {next id : String} {between back : List String}
    (linked : ((next :: between) ++ id :: back).IsChain
      fun dep id => dep ∈ dependenciesOf subtasks id)
    (within : ∀ node ∈ next :: between, node ∈ ids subtasks)
    (reached : ∀ dep ∈ innerOf subtasks id, ¬ Unreached subtasks dep) :
    ¬ Unreached subtasks next := by
  intro unreached
  obtain ⟨start, dep, same⟩ : ∃ start dep, next :: between = start ++ [dep] :=
    ⟨_, _, (List.dropLast_append_getLast (List.cons_ne_nil next between)).symm⟩
  have depIn : dep ∈ next :: between := same ▸ List.mem_append_right start List.mem_cons_self
  have needed : dep ∈ dependenciesOf subtasks id := by
    rw [same, List.append_assoc] at linked
    exact (List.isChain_cons_cons.mp linked.right_of_append).1
  apply reached dep ((mem_innerOf dep id).mpr ⟨needed, within dep depIn⟩)
  exact unreached_of_chain linked.left_of_append within unreached dep depIn

private theorem last_needed (acyclic : Acyclic (dependenciesOf subtasks) (ids subtasks))
    {critical : List String} (chain : DependencyChain subtasks critical) {init : List String}
    {last : String} (schedule : Schedule (dependenciesOf subtasks) (ids subtasks) (init ++ [last]))
    (lastIn : last ∈ critical) {id : String} (member : id ∈ critical)
    (unreached : Unreached subtasks id)
    (reached : ∀ dep ∈ innerOf subtasks id, ¬ Unreached subtasks dep) :
    last ∈ dependenciesOf subtasks id := by
  have scheduled : ∀ {node}, node ∈ ids subtasks →
      (node ∉ init ++ [last] ↔ Unreached subtasks node) :=
    fun known => acyclic.not_mem_schedule_iff schedule known
  have lastDone : ¬ Unreached subtasks last := fun stranded =>
    (scheduled (chain.within last lastIn)).mpr stranded
      (List.mem_append_right _ List.mem_cons_self)
  obtain ⟨front, back, rfl⟩ := List.append_of_mem member
  rcases List.mem_append.mp lastIn with early | late
  · obtain ⟨before, between, rfl⟩ := List.append_of_mem early
    have linked := chain.linked
    rw [List.append_assoc, List.cons_append] at linked
    have tail := linked.right_of_append
    cases between with
    | nil => exact (List.isChain_cons_cons.mp tail).1
    | cons next between =>
      -- the next one on the chain is scheduled too, and waits for the last one
      obtain ⟨needed, tailNext⟩ := List.isChain_cons_cons.mp tail
      have within : ∀ node ∈ next :: between, node ∈ ids subtasks := by
        intro node among
        apply chain.within
        exact List.mem_append_left _ (List.mem_append_right before
          (List.mem_cons_of_mem last among))
      have nextDone := reached_of_chain tailNext within reached
      have nextIn : next ∈ init ++ [last] := by
        by_contra absent
        exact nextDone ((scheduled (within next List.mem_cons_self)).mp absent)
      exact absurd needed (schedule.last_not_needed nextIn)
  · have within : ∀ node ∈ id :: back, node ∈ ids subtasks :=
      fun node among => chain.within node (List.mem_append_right front among)
    exact absurd (unreached_of_chain chain.linked.right_of_append within unreached last late)
      lastDone

end Chains

/-! ### The order -/

section Order

variable {subtasks ordered : List (SubTask W)} {critical done : List String}

variable {front back : List String}

private theorem mem_of_cut {id : String} (cut : ids subtasks = front ++ id :: back) :
    id ∈ ids subtasks :=
  cut ▸ List.mem_append_right _ List.mem_cons_self

private theorem mem_of_cut_back {id other : String}
    (cut : ids subtasks = front ++ id :: back) (member : other ∈ back) : other ∈ ids subtasks :=
  cut ▸ List.mem_append_right _ (List.mem_cons_of_mem _ member)

private theorem needed_of_among {init : List String} {last id : String}
    (among : ∃ dep ∈ dependenciesOf subtasks id, dep ∈ ids subtasks ∧ dep ∉ init)
    (reached : ∀ dep ∈ innerOf subtasks id, dep ∈ init ++ [last]) :
    last ∈ dependenciesOf subtasks id := by
  obtain ⟨dep, needed, known, missing⟩ := among
  have placed := reached dep ((mem_innerOf dep id).mpr ⟨needed, known⟩)
  have same : dep = last :=
    List.mem_singleton.mp ((List.mem_append.mp placed).resolve_left missing)
  exact same ▸ needed

private theorem CriticalFirst.unobstructed (first : CriticalFirst subtasks critical ordered)
    (distinct : (ids subtasks).Nodup) (acyclic : Acyclic (dependenciesOf subtasks) (ids subtasks))
    (chain : DependencyChain subtasks critical)
    (prioritised : Prioritised (dependenciesOf subtasks) (ids subtasks)
      (Before critical (places subtasks)) done)
    (split : ids ordered = done ++ (ids subtasks).filter fun id => id ∉ done) :
    Unobstructed subtasks critical := by
  have schedule := prioritised.schedule
  have left : ∀ {id}, id ∈ ids subtasks → (id ∉ done ↔ Unreached subtasks id) :=
    fun known => acyclic.not_mem_schedule_iff schedule known
  obtain ⟨_, sorted, urgent⟩ := first
  rw [split] at sorted urgent
  obtain ⟨among, late⟩ := (prioritised.urgentFirst_append_iff distinct
    (fun node other => hurries_of_before node other) sorted).mp urgent
  refine ⟨?_, ?_, ?_⟩
  · intro front id back cut unreached dep needed depUnreached
    obtain ⟨depNeeded, known⟩ := (mem_innerOf dep id).mp needed
    exact schedule.sorted_append_iff.mp sorted front id back cut
      ((left (mem_of_cut cut)).mpr unreached) dep depNeeded known
      ((left known).mpr depUnreached)
  · intro front id back cut unreached calm other member hurried otherUnreached
    obtain ⟨dep, needed, known, missing, absent⟩ := late front id back cut
      ((left (mem_of_cut cut)).mpr unreached) calm other member
      ((left (mem_of_cut_back cut member)).mpr otherUnreached) hurried
    exact ⟨dep, (mem_innerOf dep other).mpr ⟨needed, known⟩, (left known).mp missing, absent⟩
  · intro id member unreached reached order other
    rw [Prioritised.unique (before_antisymm distinct) other prioritised]
    rcases List.eq_nil_or_concat done with rfl | ⟨init, last, rfl⟩
    · exact Or.inl rfl
    · rw [List.concat_eq_append] at *
      refine Or.inr ⟨last, List.getLast?_concat, ?_⟩
      by_cases lastIn : last ∈ critical
      · exact last_needed acyclic chain schedule lastIn member unreached reached
      · have known := chain.within id member
        apply needed_of_among (among init last [] rfl lastIn id known
          ((left known).mpr unreached) member)
        intro dep needed
        by_contra absent
        exact reached dep needed ((left ((mem_innerOf dep id).mp needed).2).mp absent)

private theorem Unobstructed.waits (free : Unobstructed subtasks critical)
    (acyclic : Acyclic (dependenciesOf subtasks) (ids subtasks))
    (prioritised : Prioritised (dependenciesOf subtasks) (ids subtasks)
      (Before critical (places subtasks)) done) {node other : String}
    (cut : done = front ++ other :: back) (hurried : node ∈ critical)
    (unreached : Unreached subtasks node) :
    ∃ dep ∈ dependenciesOf subtasks node, dep ∈ ids subtasks ∧ dep ∉ front := by
  have schedule := prioritised.schedule
  by_cases waits : ∃ dep ∈ innerOf subtasks node, Unreached subtasks dep
  · obtain ⟨dep, needed, depUnreached⟩ := waits
    obtain ⟨depNeeded, depKnown⟩ := (mem_innerOf dep node).mp needed
    refine ⟨dep, depNeeded, depKnown, fun early => ?_⟩
    exact (acyclic.not_mem_schedule_iff schedule depKnown).mpr depUnreached
      (cut ▸ List.mem_append_left _ early)
  · push Not at waits
    rcases free.awaited node hurried unreached waits done prioritised with
      nothing | ⟨last, ends, needed⟩
    · rw [nothing] at cut
      exact absurd cut.symm (List.append_ne_nil_of_right_ne_nil _ (List.cons_ne_nil _ _))
    · have lastIn : last ∈ done := List.mem_of_getLast? ends
      refine ⟨last, needed, ((schedule.complete last).mp lastIn).1, fun early => ?_⟩
      rw [cut, List.getLast?_append_of_ne_nil _ (List.cons_ne_nil _ _)] at ends
      exact (List.nodup_append.mp (cut ▸ schedule.distinct)).2.2 last early last
        (List.mem_of_getLast? ends) rfl

private theorem Unobstructed.criticalFirst (free : Unobstructed subtasks critical)
    (distinct : (ids subtasks).Nodup) (acyclic : Acyclic (dependenciesOf subtasks) (ids subtasks))
    (permutes : ordered.Perm subtasks)
    (prioritised : Prioritised (dependenciesOf subtasks) (ids subtasks)
      (Before critical (places subtasks)) done)
    (split : ids ordered = done ++ (ids subtasks).filter fun id => id ∉ done) :
    CriticalFirst subtasks critical ordered := by
  have schedule := prioritised.schedule
  have left : ∀ {id}, id ∈ ids subtasks → (id ∉ done ↔ Unreached subtasks id) :=
    fun known => acyclic.not_mem_schedule_iff schedule known
  have sorted : Sorted (dependenciesOf subtasks) (ids subtasks)
      (done ++ (ids subtasks).filter fun id => id ∉ done) := by
    apply schedule.sorted_append_iff.mpr
    intro front id back cut fresh dep needed known depFresh
    exact free.listed front id back cut ((left (mem_of_cut cut)).mp fresh) dep
      ((mem_innerOf dep id).mpr ⟨needed, known⟩) ((left known).mp depFresh)
  refine ⟨permutes, split ▸ sorted, ?_⟩
  rw [split]
  apply (prioritised.urgentFirst_append_iff distinct
    (fun node other => hurries_of_before node other) sorted).mpr
  constructor
  · intro front other back cut calm node known fresh hurried
    exact free.waits acyclic prioritised cut hurried ((left known).mp fresh)
  · intro front other back cut fresh calm node member nodeFresh hurried
    obtain ⟨dep, needed, depUnreached, absent⟩ := free.urgent front other back cut
      ((left (mem_of_cut cut)).mp fresh) calm node member hurried
      ((left (mem_of_cut_back cut member)).mp nodeFresh)
    obtain ⟨depNeeded, known⟩ := (mem_innerOf dep node).mp needed
    exact ⟨dep, depNeeded, known, (left known).mpr depUnreached, absent⟩

end Order

section Optimize

variable [Zero W] [One W] [Add W] [LT W] [DecidableLT W]

def TakesCriticalFirst (subtasks ordered : List (SubTask W)) : Prop :=
  ∃ critical length, longestPath subtasks = .ok (critical, length) ∧
    CriticalFirst subtasks critical ordered

/-- `optimize` does what it promises for the subtasks. -/
def OptimizesCriticalFirst (subtasks : List (SubTask W)) : Prop :=
  ∃ ordered, optimize subtasks = .ok ordered ∧ TakesCriticalFirst subtasks ordered

/-- Nothing obstructs the longest path of the subtasks. -/
def Unhindered (subtasks : List (SubTask W)) : Prop :=
  ∃ critical length, longestPath subtasks = .ok (critical, length) ∧
    Unobstructed subtasks critical

variable {subtasks : List (SubTask W)}

private theorem optimize_takes_iff (distinct : (ids subtasks).Nodup)
    (acyclic : Acyclic (dependenciesOf subtasks) (ids subtasks)) {ordered : List (SubTask W)}
    (ends : optimize subtasks = .ok ordered) :
    TakesCriticalFirst subtasks ordered ↔ Unhindered subtasks := by
  obtain ⟨⟨critical, length⟩, found⟩ := longestPath_ok distinct acyclic
  obtain ⟨computed, done, same, permutes, prioritised, split⟩ := optimize_runs distinct found
  cases ends.symm.trans same
  have chain := longestPath_chain distinct acyclic found
  constructor
  · rintro ⟨path, _, foundPath, taken⟩
    cases found.symm.trans foundPath
    exact ⟨critical, length, found,
      taken.unobstructed distinct acyclic chain prioritised split⟩
  · rintro ⟨path, _, foundPath, free⟩
    cases found.symm.trans foundPath
    exact ⟨critical, length, found,
      free.criticalFirst distinct acyclic permutes prioritised split⟩

end Optimize

end CriticalPath

/-! ### Levels -/

namespace TaskPlan

variable [Zero W] [One W] [Add W] [LT W] [DecidableLT W] {subtasks : List (SubTask W)}

omit [Zero W] [One W] [Add W] [LT W] [DecidableLT W] in
private theorem acyclic_sublist (distinct : (ids subtasks).Nodup)
    (acyclic : Acyclic (dependenciesOf subtasks) (ids subtasks)) {part : List (SubTask W)}
    (taken : part.Sublist subtasks) : Acyclic (dependenciesOf part) (ids part) := by
  have partDistinct : (ids part).Nodup := distinct.sublist (taken.map SubTask.id)
  intro id cycle
  apply acyclic id
  refine Relation.TransGen.mono (fun dep node edge => ?_) id id cycle
  obtain ⟨depIn, nodeIn, needed⟩ := edge
  rw [dependenciesOf_part distinct partDistinct (fun _ member => taken.subset member) nodeIn]
    at needed
  exact ⟨(taken.map SubTask.id).subset depIn, (taken.map SubTask.id).subset nodeIn, needed⟩

private theorem orderLevel_eq_optimize {level : List (SubTask W)} (distinct : (ids level).Nodup)
    (acyclic : Acyclic (dependenciesOf level) (ids level)) :
    orderLevel level = CriticalPath.optimize level := by
  unfold orderLevel
  split_ifs with short
  · obtain ⟨ordered, ends, same⟩ := CriticalPath.optimize_ok distinct acyclic
    rw [ends]
    congr 1
    cases level with
    | nil => exact same.eq_nil.symm
    | cons subtask rest =>
      cases rest with
      | nil => exact (List.perm_singleton.mp same).symm
      | cons other rest => simp at short
  · rfl

private theorem levelsLoop_optimized (distinct : (ids subtasks).Nodup)
    (acyclic : Acyclic (dependenciesOf subtasks) (ids subtasks)) {fuel : Nat}
    {remaining : Dict String (SubTask W)} {completedIds : List String}
    {levels final : List (List (SubTask W))}
    (keyed : ∀ key subtask, remaining.get? key = some subtask → subtask.id = key)
    (taken : remaining.values.Sublist subtasks)
    (optimized : ∀ level ∈ levels, ∃ part : List (SubTask W), part.Sublist subtasks ∧
      CriticalPath.optimize part = .ok level)
    (ran : levelsLoop fuel remaining completedIds levels = .ok final) :
    ∀ level ∈ final, ∃ part : List (SubTask W), part.Sublist subtasks ∧
      CriticalPath.optimize part = .ok level := by
  induction fuel generalizing remaining completedIds levels with
  | zero =>
    rw [levelsLoop] at ran
    split_ifs at ran
    cases ran
    exact optimized
  | succ fuel ih =>
    rw [levelsLoop] at ran
    split_ifs at ran with empty
    · cases ran
      exact optimized
    · dsimp only at ran
      have part := (nextLevel_sublist remaining.values completedIds).1.trans taken
      rw [orderLevel_eq_optimize (distinct.sublist (part.map SubTask.id))
        (acyclic_sublist distinct acyclic part)] at ran
      cases ends : CriticalPath.optimize (nextLevel remaining.values completedIds) with
      | error halt =>
        rw [ends] at ran
        cases ran
      | ok ordered =>
        rw [ends] at ran
        simp only [bind, Except.bind] at ran
        have erased : (nextLevel remaining.values completedIds).foldl
            (fun remaining subtask => remaining.erase subtask.id) remaining =
              (ids (nextLevel remaining.values completedIds)).foldl Dict.erase remaining := by
          rw [ids, List.foldl_map]
        rw [erased] at ran
        refine ih ?_ ?_ ?_ ran
        · exact remaining.keyed_foldl_erase SubTask.id keyed _
        · rw [remaining.values_foldl_erase SubTask.id keyed]
          exact List.filter_sublist.trans taken
        · intro level member
          rcases List.mem_append.mp member with old | new
          · exact optimized level old
          · rw [List.mem_singleton.mp new]
            exact ⟨_, part, ends⟩

/-- `optimize` takes the critical subtasks first exactly where nothing obstructs
them, in a list and in every level of a plan. -/
theorem optimize_criticalFirst_iff (distinct : (ids subtasks).Nodup)
    (acyclic : Acyclic (dependenciesOf subtasks) (ids subtasks)) :
    (CriticalPath.OptimizesCriticalFirst subtasks ↔ CriticalPath.Unhindered subtasks) ∧
      ∀ plan : TaskPlan W, plan.subtasks = subtasks →
        ∃ levels, plan.getLevels = .ok levels ∧
          ∀ level ∈ levels, ∃ part : List (SubTask W), part.Sublist subtasks ∧
            level.Perm part ∧
              (CriticalPath.TakesCriticalFirst part level ↔ CriticalPath.Unhindered part) := by
  constructor
  · obtain ⟨ordered, ends, _⟩ := CriticalPath.optimize_ok distinct acyclic
    rw [← CriticalPath.optimize_takes_iff distinct acyclic ends]
    constructor
    · rintro ⟨other, same, taken⟩
      cases ends.symm.trans same
      exact taken
    · exact fun taken => ⟨ordered, ends, taken⟩
  · rintro plan rfl
    have values := values_byId distinct
    have start : Leveled plan.subtasks (CriticalPath.byId plan.subtasks) [] [] := by
      have leveled := leveled_byId plan.subtasks
      rwa [values] at leveled
    obtain ⟨levels, returned, _⟩ := (start.loop distinct
      (fun _ member => absurd member List.not_mem_nil)
      (fun before level after split =>
        absurd split.symm (List.append_ne_nil_of_right_ne_nil _ (List.cons_ne_nil level after)))
      (Nat.le_of_eq (congrArg List.length values))).1 (Or.inl acyclic)
    refine ⟨levels, returned, fun level member => ?_⟩
    obtain ⟨part, taken, ends⟩ := levelsLoop_optimized distinct acyclic start.keyed
      (values.symm ▸ List.Sublist.refl _) (fun _ member => absurd member List.not_mem_nil)
      returned level member
    have partDistinct := distinct.sublist (taken.map SubTask.id)
    have partAcyclic := acyclic_sublist distinct acyclic taken
    obtain ⟨ordered, same, permutes⟩ := CriticalPath.optimize_ok partDistinct partAcyclic
    cases ends.symm.trans same
    exact ⟨part, taken, permutes, CriticalPath.optimize_takes_iff partDistinct partAcyclic ends⟩

/-- Two subtasks that wait for one outside the list; the slower one is listed
last. -/
def slowLast : List (SubTask Nat) :=
  [waitingFor "b" ["a"], { waitingFor "c" ["a"] with estimatedLatencyMs := some 2 }]

private theorem slowLast_acyclic : Acyclic (dependenciesOf slowLast) (ids slowLast) :=
  acyclic_of_free (by decide) (by decide)

/-- Both equivalences where the slower subtask is listed last. -/
theorem optimize_slowLast :
    (CriticalPath.OptimizesCriticalFirst slowLast ↔ CriticalPath.Unhindered slowLast) ∧
      ∀ plan : TaskPlan Nat, plan.subtasks = slowLast →
        ∃ levels, plan.getLevels = .ok levels ∧
          ∀ level ∈ levels, ∃ part : List (SubTask Nat), part.Sublist slowLast ∧
            level.Perm part ∧
              (CriticalPath.TakesCriticalFirst part level ↔ CriticalPath.Unhindered part) :=
  optimize_criticalFirst_iff (by decide) slowLast_acyclic

/-- The slower subtask is the critical one, and it stays behind. -/
theorem not_optimizesCriticalFirst :
    ¬ ∀ subtasks : List (SubTask Nat), (ids subtasks).Nodup →
      Acyclic (dependenciesOf subtasks) (ids subtasks) →
        CriticalPath.OptimizesCriticalFirst subtasks := by
  intro promised
  obtain ⟨ordered, ends, critical, length, found, first⟩ :=
    promised slowLast (by decide) slowLast_acyclic
  have computed : CriticalPath.optimize slowLast = .ok slowLast := by decide
  have path : CriticalPath.longestPath slowLast = .ok (["c"], 2) := by decide
  cases ends.symm.trans computed
  cases found.symm.trans path
  have ahead := first.urgent [] ["b", "c"] rfl "c" (by decide) (by decide) (by decide) "b"
    (by decide) (by decide) (by decide)
  exact absurd ahead (by decide)

end TaskPlan

end Swarmind.Orchestrator.TaskPlanner
