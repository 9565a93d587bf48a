import Mathlib.Data.List.Basic

/-!
Owns runs of deterministic machines. A step reads an action, answers and
moves; a run is a list of actions. `Along` says that every step of a run meets
a condition on the state it starts from.

Two rules carry the developments built on it: an invariant of every step is an
invariant of the run, and a latch (set by each hit, kept by every step) bounds
the hits of a run by one.
-/

namespace Swarmind.Library

universe u v w

/-- A deterministic machine that answers every action. -/
structure Machine (State : Type u) (Action : Type v) (Output : Type w) where
  step : State → Action → Output × State

namespace Machine

variable {State : Type u} {Action : Type v} {Output : Type w}
variable (machine : Machine State Action Output)

def after : State → List Action → State
  | state, [] => state
  | state, action :: rest => after (machine.step state action).2 rest

/-- The actions of a run with their answers. -/
def replies : State → List Action → List (Action × Output)
  | _, [] => []
  | state, action :: rest =>
    (action, (machine.step state action).1) :: replies (machine.step state action).2 rest

/-- Every step of the run meets `condition` in the state it starts from. -/
def Along (condition : State → Action → Prop) : State → List Action → Prop
  | _, [] => True
  | state, action :: rest =>
    condition state action ∧ Along condition (machine.step state action).2 rest

instance decidableAlong (condition : State → Action → Prop)
    [∀ state action, Decidable (condition state action)] :
    ∀ state actions, Decidable (machine.Along condition state actions)
  | _, [] => .isTrue trivial
  | state, action :: rest =>
    have := decidableAlong condition (machine.step state action).2 rest
    inferInstanceAs (Decidable (condition state action ∧
      machine.Along condition (machine.step state action).2 rest))

def hits (hit : Action → Output → Bool) (state : State) (actions : List Action) : Nat :=
  (machine.replies state actions).countP fun reply => hit reply.1 reply.2

variable (state : State)

@[simp] theorem after_nil : machine.after state [] = state := rfl

@[simp] theorem after_cons (action : Action) (rest : List Action) :
    machine.after state (action :: rest) = machine.after (machine.step state action).2 rest := rfl

theorem after_append (first second : List Action) :
    machine.after state (first ++ second) = machine.after (machine.after state first) second := by
  induction first generalizing state with
  | nil => rfl
  | cons action rest ih => exact ih _

theorem replies_append (first second : List Action) :
    machine.replies state (first ++ second) =
      machine.replies state first ++ machine.replies (machine.after state first) second := by
  induction first generalizing state with
  | nil => rfl
  | cons action rest ih =>
    rw [List.cons_append, replies, replies, ih, List.cons_append, after_cons]

theorem hits_cons (hit : Action → Output → Bool) (state : State) (action : Action)
    (rest : List Action) :
    machine.hits hit state (action :: rest) =
      machine.hits hit (machine.step state action).2 rest +
        if hit action (machine.step state action).1 then 1 else 0 := by
  unfold hits
  rw [replies, List.countP_cons]

theorem along_append (condition : State → Action → Prop) (state : State)
    (first second : List Action) :
    machine.Along condition state (first ++ second) ↔
      machine.Along condition state first ∧
        machine.Along condition (machine.after state first) second := by
  induction first generalizing state with
  | nil => simp [Along]
  | cons action rest ih =>
    simp only [List.cons_append, Along, after_cons, ih, and_assoc]

theorem Along.mono {first second : State → Action → Prop}
    (weaker : ∀ state action, first state action → second state action)
    {state : State} {actions : List Action} (along : machine.Along first state actions) :
    machine.Along second state actions := by
  induction actions generalizing state with
  | nil => trivial
  | cons action rest ih =>
    exact ⟨weaker state action along.1, ih along.2⟩

theorem along_of_forall {condition : State → Action → Prop}
    (all : ∀ state action, condition state action) (state : State) (actions : List Action) :
    machine.Along condition state actions := by
  induction actions generalizing state with
  | nil => trivial
  | cons action rest ih => exact ⟨all state action, ih _⟩

theorem along_of_mem {condition : Action → Prop} {actions : List Action}
    (each : ∀ action ∈ actions, condition action) (state : State) :
    machine.Along (fun _ action => condition action) state actions := by
  induction actions generalizing state with
  | nil => trivial
  | cons action rest ih =>
    rw [List.forall_mem_cons] at each
    exact ⟨each.1, ih each.2 _⟩

theorem along_and (first second : State → Action → Prop) (state : State) (actions : List Action) :
    machine.Along (fun current action => first current action ∧ second current action)
        state actions ↔
      machine.Along first state actions ∧ machine.Along second state actions := by
  induction actions generalizing state with
  | nil => simp [Along]
  | cons action rest ih =>
    simp only [Along, ih]
    tauto

theorem along_iff_each (condition : State → Action → Prop) (state : State) (actions : List Action) :
    machine.Along condition state actions ↔
      ∀ before action rest, actions = before ++ action :: rest →
        condition (machine.after state before) action := by
  constructor
  · rintro along before action rest rfl
    exact ((machine.along_append condition state before (action :: rest)).mp along).2.1
  · intro everywhere
    induction actions generalizing state with
    | nil => trivial
    | cons action rest ih =>
      refine ⟨everywhere [] action rest rfl, ih _ ?_⟩
      intro before other later split
      exact everywhere (action :: before) other later (by rw [split, List.cons_append])

/-! ### Invariants -/

section Invariants

variable {machine} {condition : State → Action → Prop} (invariant : State → Prop)

/-- An invariant of every step that meets the condition holds after every run
along which the condition holds. -/
theorem invariant_after (preserved : ∀ state action, invariant state → condition state action →
      invariant (machine.step state action).2)
    {state : State} {actions : List Action} (start : invariant state)
    (along : machine.Along condition state actions) :
    invariant (machine.after state actions) := by
  induction actions generalizing state with
  | nil => exact start
  | cons action rest ih =>
    exact ih (preserved state action start along.1) along.2

/-- What every allowed step keeps, an allowed run keeps. -/
theorem along_invariant (preserved : ∀ state action, invariant state → condition state action →
      invariant (machine.step state action).2)
    {state : State} {actions : List Action} (start : invariant state)
    (along : machine.Along condition state actions) :
    machine.Along (fun current action => invariant current ∧ condition current action)
      state actions := by
  induction actions generalizing state with
  | nil => trivial
  | cons action rest ih =>
    exact ⟨⟨start, along.1⟩,
      ih (preserved state action start along.1) along.2⟩

/-- The same with the calls and answers so far. -/
theorem history_invariant (related : State → List (Action × Output) → Prop)
    (preserved : ∀ state history action, related state history → condition state action →
      related (machine.step state action).2 (history ++ [(action, (machine.step state action).1)]))
    {state : State} {history : List (Action × Output)} {actions : List Action}
    (start : related state history) (along : machine.Along condition state actions) :
    related (machine.after state actions) (history ++ machine.replies state actions) := by
  induction actions generalizing state history with
  | nil =>
    rw [replies, List.append_nil]
    exact start
  | cons action rest ih =>
    rw [replies, List.append_cons]
    exact ih (preserved state history action start along.1) along.2

end Invariants

/-- A property that each step keeps exactly under a condition holds in every
state of a run exactly when the condition holds along the run. -/
theorem always_iff_along {allowed condition : State → Action → Prop} {invariant good : State → Prop}
    (preserved : ∀ state action, invariant state → allowed state action →
      invariant (machine.step state action).2)
    (exact_step : ∀ state action, invariant state → allowed state action → good state →
      (good (machine.step state action).2 ↔ condition state action))
    {state : State} {actions : List Action} (start : invariant state) (holds : good state)
    (permitted : machine.Along allowed state actions) :
    (∀ before rest, actions = before ++ rest → good (machine.after state before)) ↔
      machine.Along condition state actions := by
  induction actions generalizing state with
  | nil =>
    refine ⟨fun _ => trivial, fun _ before rest split => ?_⟩
    rw [(List.append_eq_nil_iff.mp split.symm).1]
    exact holds
  | cons action rest ih =>
    have step := exact_step state action start permitted.1 holds
    have invariantNext := preserved state action start permitted.1
    constructor
    · intro always
      have next : good (machine.step state action).2 := always [action] rest rfl
      refine ⟨step.mp next, (ih invariantNext next permitted.2).mp ?_⟩
      intro before later split
      exact always (action :: before) later (by rw [split, List.cons_append])
    · intro along before later split
      have next := step.mpr along.1
      cases before with
      | nil => exact holds
      | cons head tail =>
        rw [List.cons_append, List.cons.injEq] at split
        obtain ⟨rfl, tailSplit⟩ := split
        exact (ih invariantNext next permitted.2).mpr along.2
          tail later tailSplit

/-- A property of the states with the answers so far and one of the steps hold through
a run exactly when a condition holds along it, where one step keeps the first and has the
second exactly under the condition. -/
theorem history_iff_along {invariant : State → Prop}
    {related : State → List (Action × Output) → Prop} {kept condition : State → Action → Prop}
    (preserved : ∀ state action, invariant state → condition state action →
      invariant (machine.step state action).2)
    (exact_step : ∀ state history action, invariant state → related state history →
      (related (machine.step state action).2
            (history ++ [(action, (machine.step state action).1)]) ∧ kept state action ↔
        condition state action))
    {state : State} {history : List (Action × Output)} {actions : List Action}
    (start : invariant state) (holds : related state history) :
    ((∀ before rest, actions = before ++ rest →
        related (machine.after state before) (history ++ machine.replies state before)) ∧
      ∀ before action rest, actions = before ++ action :: rest →
        kept (machine.after state before) action) ↔
      machine.Along condition state actions := by
  induction actions generalizing state history with
  | nil =>
    refine ⟨fun _ => trivial, fun _ => ⟨fun before rest split => ?_, fun before _ _ split => ?_⟩⟩
    · rw [(List.append_eq_nil_iff.mp split.symm).1, replies, List.append_nil]
      exact holds
    · exact absurd (List.append_eq_nil_iff.mp split.symm).2 (List.cons_ne_nil _ _)
  | cons action rest ih =>
    have step := exact_step state history action start holds
    constructor
    · rintro ⟨always, each⟩
      have next := always [action] rest rfl
      have here := step.mp ⟨next, each [] action rest rfl⟩
      have invariantNext := preserved state action start here
      refine ⟨here, (ih invariantNext next).mp ⟨?_, ?_⟩⟩
      · intro before later split
        have held := always (action :: before) later (by rw [split, List.cons_append])
        rwa [replies, List.append_cons] at held
      · intro before other later split
        exact each (action :: before) other later (by rw [split, List.cons_append])
    · rintro ⟨here, along⟩
      obtain ⟨next, keptHere⟩ := step.mpr here
      obtain ⟨always, each⟩ :=
        (ih (preserved state action start here) next).mpr along
      constructor
      · intro before later split
        cases before with
        | nil =>
          rw [replies, List.append_nil]
          exact holds
        | cons head tail =>
          rw [List.cons_append, List.cons.injEq] at split
          obtain ⟨rfl, tailSplit⟩ := split
          rw [replies, List.append_cons]
          exact always tail later tailSplit
      · intro before other later split
        cases before with
        | nil =>
          rw [List.nil_append, List.cons.injEq] at split
          obtain ⟨rfl, _⟩ := split
          exact keptHere
        | cons head tail =>
          rw [List.cons_append, List.cons.injEq] at split
          obtain ⟨rfl, tailSplit⟩ := split
          exact each tail other later tailSplit

theorem always_iff_along_of_exact {condition : State → Action → Prop} {good : State → Prop}
    (exact_step : ∀ state action, good state →
      (good (machine.step state action).2 ↔ condition state action))
    {state : State} (holds : good state) (actions : List Action) :
    (∀ before rest, actions = before ++ rest → good (machine.after state before)) ↔
      machine.Along condition state actions := by
  have invariant : ∀ (state : State) (action : Action), True → True → True := fun _ _ _ => id
  exact machine.always_iff_along invariant (fun current action _ _ => exact_step current action)
    trivial holds (machine.along_of_forall (fun _ _ => trivial) state actions)

/-- A family of properties outlives every stretch of steps `within` exactly when
each such step keeps it. -/
theorem stays_iff_along {Index : Type u} (holds : Index → State → Prop) (within : Action → Prop)
    (state : State) (actions : List Action) :
    (∀ before middle rest, actions = before ++ middle ++ rest →
        (∀ action ∈ middle, within action) → ∀ index, holds index (machine.after state before) →
          holds index (machine.after state (before ++ middle))) ↔
      machine.Along (fun current action => within action → ∀ index, holds index current →
        holds index (machine.step current action).2) state actions := by
  rw [along_iff_each]
  constructor
  · intro stays before action rest split inside index held
    have kept := stays before [action] rest (by rw [split, List.append_assoc]; rfl)
      (List.forall_mem_singleton.mpr inside) index held
    rwa [after_append] at kept
  · intro each before middle rest split inside index held
    induction middle generalizing before with
    | nil => rwa [List.append_nil]
    | cons action middle ih =>
      rw [List.forall_mem_cons] at inside
      have next : holds index (machine.after state (before ++ [action])) := by
        rw [after_append]
        exact each before action (middle ++ rest) (by rw [split, List.append_assoc]; rfl)
          inside.1 index held
      have later := ih (before ++ [action])
        (by rw [split, List.append_cons before action middle]) inside.2 next
      rwa [← List.append_cons] at later

theorem along_congr {first second : State → Action → Prop}
    (same : ∀ state action, first state action ↔ second state action) (state : State)
    (actions : List Action) :
    machine.Along first state actions ↔ machine.Along second state actions :=
  ⟨Along.mono machine fun current action => (same current action).mp,
    Along.mono machine fun current action => (same current action).mpr⟩

theorem along_congr_of_invariant {allowed first second : State → Action → Prop}
    {invariant : State → Prop}
    (preserved : ∀ state action, invariant state → allowed state action →
      invariant (machine.step state action).2)
    (same : ∀ state action, invariant state → allowed state action →
      (first state action ↔ second state action))
    {state : State} {actions : List Action} (start : invariant state)
    (permitted : machine.Along allowed state actions) :
    machine.Along first state actions ↔ machine.Along second state actions := by
  induction actions generalizing state with
  | nil => exact Iff.rfl
  | cons action rest ih =>
    have next := preserved state action start permitted.1
    rw [Along, Along, same state action start permitted.1,
      ih next permitted.2]

/-! ### Projections -/

section Projections

variable {Base : Type u} {Reply : Type w} (base : Machine Base Action Reply)
variable (project : State → Base)

/-- A machine that only adds to the state of another one passes through the same
base states. -/
theorem after_project (commutes : ∀ state action,
      project (machine.step state action).2 = (base.step (project state) action).2)
    (state : State) (actions : List Action) :
    project (machine.after state actions) = base.after (project state) actions := by
  induction actions generalizing state with
  | nil => rfl
  | cons action rest ih =>
    rw [after_cons, after_cons, ih, commutes]

/-- A condition on a projection can be read along the projected run. -/
theorem along_project (commutes : ∀ state action,
      project (machine.step state action).2 = (base.step (project state) action).2)
    (condition : Base → Action → Prop) (state : State) (actions : List Action) :
    machine.Along (fun current action => condition (project current) action) state actions ↔
      base.Along condition (project state) actions := by
  induction actions generalizing state with
  | nil => exact Iff.rfl
  | cons action rest ih =>
    rw [Along, Along, ih, commutes]

end Projections

/-! ### Latches -/

/-- `latched` is set by every hit, excludes hits while set, and is never reset
by a step that meets the condition. -/
structure Latch (condition : State → Action → Prop) (hit : Action → Output → Bool)
    (latched : State → Prop) : Prop where
  fires : ∀ state action, condition state action →
    hit action (machine.step state action).1 = true →
      ¬ latched state ∧ latched (machine.step state action).2
  stays : ∀ state action, condition state action → latched state →
    latched (machine.step state action).2

namespace Latch

variable {machine} {condition : State → Action → Prop} {hit : Action → Output → Bool}
variable {latched : State → Prop}

theorem no_hit (latch : machine.Latch condition hit latched)
    {state : State} {actions : List Action} (along : machine.Along condition state actions)
    (set : latched state) : machine.hits hit state actions = 0 := by
  induction actions generalizing state with
  | nil => rfl
  | cons action rest ih =>
    have silent : ¬ hit action (machine.step state action).1 = true := fun fired =>
      (latch.fires state action along.1 fired).1 set
    rw [hits_cons, if_neg silent]
    exact ih along.2 (latch.stays state action along.1 set)

/-- A latch lets at most one hit through. -/
theorem hits_le_one (latch : machine.Latch condition hit latched)
    {state : State} {actions : List Action} (along : machine.Along condition state actions) :
    machine.hits hit state actions ≤ 1 := by
  induction actions generalizing state with
  | nil => exact Nat.zero_le 1
  | cons action rest ih =>
    by_cases fired : hit action (machine.step state action).1 = true
    · have set := (latch.fires state action along.1 fired).2
      have silent := latch.no_hit along.2 set
      rw [hits_cons, if_pos fired]
      omega
    · rw [hits_cons, if_neg fired]
      exact ih along.2

end Latch

end Machine

end Swarmind.Library
