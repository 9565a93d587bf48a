import Swarmind.Library.Kahn

/-!
Owns priority scheduling: topological orders that always take the foremost of
the nodes that can be taken, and orders that take urgent nodes before others.

Nodes that wait for something outside the list, directly or through others, are
stranded: no schedule takes them.
-/

namespace Swarmind.Library

universe u

variable {κ : Type u}

/-- The node, or one that it needs, needs something outside the nodes. -/
inductive Stranded (needs : κ → List κ) (nodes : List κ) : κ → Prop where
  | outside (node dep : κ) (needed : dep ∈ needs node) (foreign : dep ∉ nodes) :
      Stranded needs nodes node
  | waits (node dep : κ) (needed : dep ∈ needs node) (known : dep ∈ nodes)
      (stranded : Stranded needs nodes dep) : Stranded needs nodes node

/-- A schedule in which every node stands `before` all others that could have
been taken at its place. -/
structure Prioritised (needs : κ → List κ) (nodes : List κ) (before : κ → κ → Prop)
    (done : List κ) : Prop where
  schedule : Schedule needs nodes done
  foremost : ∀ front node back, done = front ++ node :: back → ∀ other ∈ nodes, other ∉ front →
    (∀ dep ∈ needs other, dep ∈ front) → before node other

/-- Whenever an urgent node and another one can both be taken, the urgent one
comes first. Needs outside the nodes do not count. -/
def UrgentFirst (needs : κ → List κ) (nodes urgent order : List κ) : Prop :=
  ∀ placed rest, order = placed ++ rest →
    ∀ node ∈ rest, node ∈ urgent → (∀ dep ∈ needs node, dep ∈ nodes → dep ∈ placed) →
      ∀ other ∈ rest, other ∉ urgent → (∀ dep ∈ needs other, dep ∈ nodes → dep ∈ placed) →
        List.Sublist [node, other] rest

section Facts

variable {needs : κ → List κ} {nodes : List κ}

private theorem Acyclic.not_resolvable_iff (acyclic : Acyclic needs nodes) {node : κ}
    (known : node ∈ nodes) : ¬ Resolvable needs nodes node ↔ Stranded needs nodes node := by
  constructor
  · intro unresolvable
    by_contra free
    have inhabited : ∃ other, other ∈ nodes ∧ ¬ Resolvable needs nodes other ∧
        ¬ Stranded needs nodes other := ⟨node, known, unresolvable, free⟩
    obtain ⟨least, ⟨leastIn, leastStuck, leastFree⟩, below⟩ :=
      acyclic.exists_free inhabited fun _ part => part.1
    apply leastStuck
    refine Resolvable.intro least leastIn fun dep needed => ?_
    have inside : dep ∈ nodes := by
      by_contra foreign
      exact leastFree (Stranded.outside least dep needed foreign)
    have apart : ¬ Stranded needs nodes dep := fun stranded =>
      leastFree (Stranded.waits least dep needed inside stranded)
    by_contra stuck
    exact below dep needed ⟨inside, stuck, apart⟩
  · intro stranded resolvable
    induction stranded with
    | outside node dep needed foreign =>
      cases resolvable with
      | intro _ _ deps =>
        cases deps dep needed with
        | intro _ inside _ => exact foreign inside
    | waits node dep needed inside _ ih =>
      cases resolvable with
      | intro _ _ deps => exact ih inside (deps dep needed)

private theorem Schedule.mem_iff_resolvable {done : List κ} (schedule : Schedule needs nodes done)
    {node : κ} : node ∈ done ↔ Resolvable needs nodes node := by
  constructor
  · have early : ∀ back front, done = front ++ back → (∀ dep ∈ front, Resolvable needs nodes dep) →
        ∀ node ∈ back, Resolvable needs nodes node := by
      intro back
      induction back with
      | nil => exact fun _ _ _ _ member => absurd member List.not_mem_nil
      | cons head back ih =>
        intro front split resolved node member
        have known : head ∈ nodes :=
          ((schedule.complete head).mp (split ▸ List.mem_append_right _ List.mem_cons_self)).1
        have own : Resolvable needs nodes head := Resolvable.intro head known fun dep needed =>
          resolved dep (schedule.sorted front head back split dep needed)
        rcases List.mem_cons.mp member with rfl | later
        · exact own
        · apply ih (front ++ [head]) (by rw [split, List.append_cons]) ?_ node
            later
          intro dep listed
          rcases List.mem_append.mp listed with old | new
          · exact resolved dep old
          · exact List.mem_singleton.mp new ▸ own
    exact early done [] rfl (fun _ member => absurd member List.not_mem_nil) node
  · intro resolvable
    induction resolvable with
    | intro node known _ ih =>
      exact (schedule.complete node).mpr ⟨known, ih⟩

theorem Acyclic.not_mem_schedule_iff (acyclic : Acyclic needs nodes) {done : List κ}
    (schedule : Schedule needs nodes done) {node : κ} (known : node ∈ nodes) :
    node ∉ done ↔ Stranded needs nodes node := by
  rw [schedule.mem_iff_resolvable]
  exact acyclic.not_resolvable_iff known

theorem Schedule.last_not_needed {init : List κ} {last : κ}
    (schedule : Schedule needs nodes (init ++ [last])) {node : κ} (member : node ∈ init ++ [last]) :
    last ∉ needs node := by
  intro needed
  obtain ⟨front, back, cut⟩ := List.append_of_mem member
  have early := schedule.sorted front node back cut last needed
  have inInit : last ∈ init := by
    rcases List.eq_nil_or_concat back with rfl | ⟨rest, final, rfl⟩
    · exact (List.append_inj' cut rfl).1 ▸ early
    · have regroup : init ++ [last] = (front ++ node :: rest) ++ [final] := by
        rw [cut, List.concat_eq_append, List.append_assoc, List.cons_append]
      exact (List.append_inj' regroup rfl).1 ▸ List.mem_append_left _ early
  exact (List.nodup_append.mp schedule.distinct).2.2 last inInit last List.mem_cons_self rfl

/-- An order by priority is the only one. -/
theorem Prioritised.unique {before : κ → κ → Prop}
    (antisymm : ∀ left ∈ nodes, ∀ right ∈ nodes, before left right → before right left →
      left = right) {first second : List κ} (firstOrder : Prioritised needs nodes before first)
    (secondOrder : Prioritised needs nodes before second) : first = second := by
  have taken : ∀ {order : List κ}, Prioritised needs nodes before order →
      ∀ front node back, order = front ++ node :: back →
        node ∈ nodes ∧ node ∉ front ∧ ∀ dep ∈ needs node, dep ∈ front := by
    intro order prioritised front node back split
    refine ⟨?_, ?_, prioritised.schedule.sorted front node back split⟩
    · exact ((prioritised.schedule.complete node).mp
        (split ▸ List.mem_append_right _ List.mem_cons_self)).1
    · intro early
      exact (List.nodup_append.mp (split ▸ prioritised.schedule.distinct)).2.2 node early node
        List.mem_cons_self rfl
  -- an order that ends leaves nothing that could still be taken
  have ended : ∀ {order other : List κ}, Prioritised needs nodes before order →
      Prioritised needs nodes before other → ∀ node back, other = order ++ node :: back →
        False := by
    intro order other shorter longer node back split
    obtain ⟨known, fresh, deps⟩ := taken longer order node back split
    exact fresh ((shorter.schedule.complete node).mpr ⟨known, deps⟩)
  have agree : ∀ rest front other, first = front ++ rest → second = front ++ other →
      rest = other := by
    intro rest
    induction rest with
    | nil =>
      intro front other split splitOther
      rw [List.append_nil] at split
      subst split
      cases other with
      | nil => rfl
      | cons node back => exact (ended firstOrder secondOrder node back splitOther).elim
    | cons node rest ih =>
      intro front other split splitOther
      cases other with
      | nil =>
        rw [List.append_nil] at splitOther
        subst splitOther
        exact (ended secondOrder firstOrder node rest split).elim
      | cons next back =>
        obtain ⟨known, fresh, deps⟩ := taken firstOrder front node rest split
        obtain ⟨nextKnown, nextFresh, nextDeps⟩ := taken secondOrder front next back splitOther
        have same : node = next := antisymm node known next nextKnown
          (firstOrder.foremost front node rest split next nextKnown nextFresh nextDeps)
          (secondOrder.foremost front next back splitOther node known fresh deps)
        subst same
        rw [ih (front ++ [node]) back (by rw [split, List.append_cons])
          (by rw [splitOther, List.append_cons])]
  exact agree first [] second rfl rfl

private theorem sublist_pair_or {items : List κ} (distinct : items.Nodup) {left right : κ}
    (leftIn : left ∈ items) (rightIn : right ∈ items) (different : left ≠ right) :
    List.Sublist [left, right] items ∨
      ∃ front back, items = front ++ right :: back ∧ left ∈ back := by
  obtain ⟨front, back, rfl⟩ := List.append_of_mem rightIn
  rcases List.mem_append.mp leftIn with early | late
  · left
    exact (List.singleton_sublist.mpr early).append
      (List.singleton_sublist.mpr List.mem_cons_self)
  · right
    exact ⟨front, back, rfl, (List.mem_cons.mp late).resolve_left different⟩

private theorem urgentFirst_iff {urgent order : List κ} (distinct : order.Nodup)
    (sorted : Sorted needs nodes order) :
    UrgentFirst needs nodes urgent order ↔
      ∀ front other back, order = front ++ other :: back → other ∉ urgent →
        ∀ node ∈ back, node ∈ urgent → ∃ dep ∈ needs node, dep ∈ nodes ∧ dep ∉ front := by
  constructor
  · intro first front other back split calm node late hurried
    by_contra ready
    push Not at ready
    have ahead := first front (other :: back) split node (List.mem_cons_of_mem other late) hurried
      ready other List.mem_cons_self calm (sorted front other back split)
    have apart := (List.nodup_append.mp (split ▸ distinct)).2.1
    have notEqual : node ≠ other := fun same => calm (same ▸ hurried)
    rcases List.sublist_cons_iff.mp ahead with later | ⟨tail, same, _⟩
    · exact (List.nodup_cons.mp apart).1 (later.subset (by simp))
    · exact notEqual (List.cons.inj same).1
  · intro never placed rest split node member hurried ready other otherIn calm _
    have apart : rest.Nodup := (List.nodup_append.mp (split ▸ distinct)).2.1
    refine (sublist_pair_or apart member otherIn fun same => calm (same ▸ hurried)).resolve_right ?_
    rintro ⟨front, back, cut, late⟩
    obtain ⟨dep, needed, known, missing⟩ := never (placed ++ front) other back
      (by rw [split, cut, List.append_assoc]) calm node late hurried
    exact missing (List.mem_append_left front (ready dep needed known))

/-! ### A schedule, then the rest as listed -/

private theorem forall_split_append {done late : List κ} {P : List κ → κ → List κ → Prop} :
    (∀ front node back, done ++ late = front ++ node :: back → P front node back) ↔
      (∀ front node back, done = front ++ node :: back → P front node (back ++ late)) ∧
        ∀ front node back, late = front ++ node :: back → P (done ++ front) node back := by
  constructor
  · intro every
    constructor
    · intro front node back split
      exact every front node (back ++ late) (by rw [split, List.append_assoc, List.cons_append])
    · intro front node back split
      exact every (done ++ front) node back (by rw [split, List.append_assoc])
  · rintro ⟨inDone, inLate⟩ front node back split
    rcases List.append_eq_append_iff.mp split with ⟨early, rfl, cut⟩ | ⟨early, cut, same⟩
    · exact inLate early node back cut
    · cases early with
      | nil =>
        rw [List.append_nil] at cut
        rw [List.nil_append] at same
        have whole := inLate [] node back same.symm
        rwa [List.append_nil, cut] at whole
      | cons head early =>
        obtain ⟨rfl, rfl⟩ := List.cons.inj same
        exact inDone front node early cut

private theorem forall_split_filter {items : List κ} {keep : κ → Bool}
    {P : List κ → κ → List κ → Prop} :
    (∀ front node back, items.filter keep = front ++ node :: back → P front node back) ↔
      ∀ front node back, items = front ++ node :: back → keep node = true →
        P (front.filter keep) node (back.filter keep) := by
  constructor
  · intro every front node back split kept
    apply every
    rw [split, List.filter_append, List.filter_cons_of_pos kept]
  · intro every front node back split
    obtain ⟨first, second, cut, rfl, cutSecond⟩ := List.filter_eq_append_iff.mp split
    obtain ⟨skipped, rest, rfl, none, kept, rfl⟩ := List.filter_eq_cons_iff.mp cutSecond
    have same := every (first ++ skipped) node rest (by rw [cut, List.append_assoc]) kept
    have nothing : skipped.filter keep = [] := List.filter_eq_nil_iff.mpr none
    rwa [List.filter_append, nothing, List.append_nil] at same

variable [DecidableEq κ] {done : List κ}

/-- The whole list is sorted when the nodes that were not scheduled stand after
those of their needs that were not. -/
theorem Schedule.sorted_append_iff (schedule : Schedule needs nodes done) :
    Sorted needs nodes (done ++ nodes.filter fun node => node ∉ done) ↔
      ∀ front node back, nodes = front ++ node :: back → node ∉ done →
        ∀ dep ∈ needs node, dep ∈ nodes → dep ∉ done → dep ∈ front := by
  have scheduled : ∀ front node back, done = front ++ node :: back →
      ∀ dep ∈ needs node, dep ∈ nodes → dep ∈ front :=
    fun front node back split dep needed _ => schedule.sorted front node back split dep needed
  unfold Sorted
  rw [forall_split_append, forall_split_filter, and_iff_right scheduled]
  constructor
  · intro every front node back split fresh dep needed known left
    have early := every front node back split (decide_eq_true fresh) dep needed known
    exact (List.mem_filter.mp ((List.mem_append.mp early).resolve_left left)).1
  · intro every front node back split fresh dep needed known
    by_cases placed : dep ∈ done
    · exact List.mem_append_left _ placed
    · apply List.mem_append_right
      apply List.mem_filter.mpr
      exact ⟨every front node back split (of_decide_eq_true fresh) dep needed known placed,
        decide_eq_true placed⟩

/-- Urgent nodes come first in the whole list when they do among the nodes that
were not scheduled, and none of these could have come before a scheduled one. -/
theorem Prioritised.urgentFirst_append_iff {before : κ → κ → Prop} {urgent : List κ}
    (prioritised : Prioritised needs nodes before done) (distinct : nodes.Nodup)
    (hurries : ∀ node other, before node other → other ∈ urgent → node ∈ urgent)
    (sorted : Sorted needs nodes (done ++ nodes.filter fun node => node ∉ done)) :
    UrgentFirst needs nodes urgent (done ++ nodes.filter fun node => node ∉ done) ↔
      (∀ front other back, done = front ++ other :: back → other ∉ urgent →
        ∀ node ∈ nodes, node ∉ done → node ∈ urgent →
          ∃ dep ∈ needs node, dep ∈ nodes ∧ dep ∉ front) ∧
      ∀ front other back, nodes = front ++ other :: back → other ∉ done → other ∉ urgent →
        ∀ node ∈ back, node ∉ done → node ∈ urgent →
          ∃ dep ∈ needs node, dep ∈ nodes ∧ dep ∉ done ∧ dep ∉ front := by
  have unique : (done ++ nodes.filter fun node => node ∉ done).Nodup := by
    refine List.nodup_append.mpr ⟨prioritised.schedule.distinct, distinct.filter _, ?_⟩
    rintro node first _ second rfl
    exact of_decide_eq_true (List.mem_filter.mp second).2 first
  rw [urgentFirst_iff unique sorted, forall_split_append, forall_split_filter]
  constructor
  · rintro ⟨among, late⟩
    constructor
    · intro front other back split calm node known fresh hurried
      refine among front other back split calm node (List.mem_append_right back ?_) hurried
      exact List.mem_filter.mpr ⟨known, decide_eq_true fresh⟩
    · intro front other back split fresh calm node later left hurried
      obtain ⟨dep, needed, known, missing⟩ := late front other back split (decide_eq_true fresh)
        calm node (List.mem_filter.mpr ⟨later, decide_eq_true left⟩) hurried
      rw [List.mem_append, not_or] at missing
      refine ⟨dep, needed, known, missing.1, fun early => missing.2 ?_⟩
      exact List.mem_filter.mpr ⟨early, decide_eq_true missing.1⟩
  · rintro ⟨among, late⟩
    constructor
    · intro front other back split calm node member hurried
      rcases List.mem_append.mp member with scheduled | left
      · -- the scheduled node was not taken, so something of it was missing
        by_contra ready
        push Not at ready
        have inDone : node ∈ done :=
          split ▸ List.mem_append_right front (List.mem_cons_of_mem other scheduled)
        have complete := (prioritised.schedule.complete node).mp inDone
        have inNodes : ∀ dep ∈ needs node, dep ∈ nodes := fun dep needed =>
          ((prioritised.schedule.complete dep).mp (complete.2 dep needed)).1
        have fresh : node ∉ front := fun early =>
          (List.nodup_append.mp (split ▸ prioritised.schedule.distinct)).2.2 node early node
            (List.mem_cons_of_mem other scheduled) rfl
        have ahead := prioritised.foremost front other back split node complete.1 fresh
          fun dep needed => ready dep needed (inNodes dep needed)
        exact calm (hurries other node ahead hurried)
      · obtain ⟨known, fresh⟩ := List.mem_filter.mp left
        exact among front other back split calm node known (of_decide_eq_true fresh) hurried
    · intro front other back split fresh calm node member hurried
      obtain ⟨later, left⟩ := List.mem_filter.mp member
      obtain ⟨dep, needed, known, missing, absent⟩ := late front other back split
        (of_decide_eq_true fresh) calm node later (of_decide_eq_true left) hurried
      refine ⟨dep, needed, known, fun early => ?_⟩
      rcases List.mem_append.mp early with inDone | inFront
      · exact missing inDone
      · exact absent (List.mem_filter.mp inFront).1

end Facts

/-! ### Kahn's algorithm with a sorted queue -/

section Queue

variable [DecidableEq κ] {needs : κ → List κ} {nodes : List κ} {before : κ → κ → Prop}

theorem Scheduled.foremost {indegree : Dict κ Int} {node : κ} {queue done : List κ}
    (scheduled : Scheduled needs nodes indegree (node :: queue) done)
    (sorted : (node :: queue).Pairwise before) (reflexive : ∀ node, before node node) :
    ∀ other ∈ nodes, other ∉ done → (∀ dep ∈ needs other, dep ∈ done) → before node other := by
  intro other known fresh ready
  have waiting := (scheduled.ready other).mpr ⟨known, ready⟩
  rcases List.mem_cons.mp ((List.mem_append.mp waiting).resolve_left fresh) with rfl | later
  · exact reflexive other
  · exact (List.pairwise_cons.mp sorted).1 other later

private theorem Scheduled.loop_foremost {arrange : List κ → List κ}
    (permutes : ∀ queue, (arrange queue).Perm queue)
    (sorts : ∀ queue, (arrange queue).Pairwise before) (reflexive : ∀ node, before node node)
    (distinct : nodes.Nodup) {fuel : Nat} {indegree : Dict κ Int} {queue done final : List κ}
    (scheduled : Scheduled needs nodes indegree queue done) (sorted : queue.Pairwise before)
    (foremost : ∀ front node back, done = front ++ node :: back → ∀ other ∈ nodes,
      other ∉ front → (∀ dep ∈ needs other, dep ∈ front) → before node other)
    (ran : kahnLoop arrange (successors (nodes.map fun node => (node, needs node))) fuel
      indegree queue done = .ok final) :
    ∀ front node back, final = front ++ node :: back → ∀ other ∈ nodes, other ∉ front →
      (∀ dep ∈ needs other, dep ∈ front) → before node other := by
  induction fuel generalizing indegree queue done with
  | zero =>
    cases queue with
    | nil =>
      rw [kahnLoop] at ran
      cases ran
      exact foremost
    | cons node queue =>
      rw [kahnLoop] at ran
      cases ran
  | succ fuel ih =>
    cases queue with
    | nil =>
      rw [kahnLoop] at ran
      cases ran
      exact foremost
    | cons node queue =>
      obtain ⟨lowered, freed, released, next⟩ := scheduled.step distinct
      rw [kahnLoop, released] at ran
      refine ih (next.perm (permutes _)) (sorts _) ?_ ran
      intro front other back split
      rcases List.eq_nil_or_concat back with rfl | ⟨rest, last, rfl⟩
      · obtain ⟨rfl, same⟩ := List.append_inj' split rfl
        cases same
        exact scheduled.foremost sorted reflexive
      · have cut : done ++ [node] = (front ++ other :: rest) ++ [last] := by
          rw [split, List.append_assoc, List.concat_eq_append, List.cons_append]
        obtain ⟨same, _⟩ := List.append_inj' cut rfl
        exact foremost front other rest same

variable (needs) in
/-- Kahn's algorithm over a sorted queue returns a prioritised order. -/
theorem kahn_prioritised {arrange : List κ → List κ}
    (permutes : ∀ queue, (arrange queue).Perm queue)
    (sorts : ∀ queue, (arrange queue).Pairwise before) (reflexive : ∀ node, before node node)
    (distinct : nodes.Nodup) :
    ∃ done, kahn arrange (nodes.map fun node => (node, needs node)) = .ok done ∧
      Prioritised needs nodes before done := by
  obtain ⟨done, ends, schedule⟩ := kahn_spec needs permutes distinct
  refine ⟨done, ends, schedule, ?_⟩
  rw [kahn_eq] at ends
  refine Scheduled.loop_foremost permutes sorts reflexive distinct
    ((scheduled_start distinct).perm (permutes _)) (sorts _) ?_ ends
  intro front node back split
  simp at split

end Queue

end Swarmind.Library
