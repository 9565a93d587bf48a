import Swarmind.Library.Python

/-!
Owns programs over a state that may raise and keep what they did before. A
relation that is reflexive and transitive and that holds over every basic step
holds over the whole program, whether it returns or raises: `Within` is that
statement, with one rule for each construct.
-/

namespace Swarmind.Library

universe u v

/-- A program over `W` that returns or raises. The state stays as it is at that
point. -/
def Action (W : Type u) (α : Type) : Type u := W → Except PyException α × W

namespace Action

variable {W : Type u} {α β : Type}

def pure (value : α) : Action W α := fun world => (.ok value, world)

def bind (first : Action W α) (next : α → Action W β) : Action W β := fun world =>
  match first world with
  | (.ok value, later) => next value later
  | (.error raised, later) => (.error raised, later)

instance : Monad (Action W) where
  pure := pure
  bind := bind

/-- An outcome that leaves the state alone. -/
def lift (outcome : Except PyException α) : Action W α := fun world => (outcome, world)

def read (view : W → α) : Action W α := fun world => (.ok (view world), world)

def modify (f : W → W) : Action W Unit := fun world => (.ok (), f world)

/-- `try` with the exceptions that are caught. -/
def attempt (action : Action W α) (caught : PyException → Bool)
    (recover : PyException → Action W α) : Action W α := fun world =>
  match action world with
  | (.ok value, later) => (.ok value, later)
  | (.error raised, later) => if caught raised then recover raised later else (.error raised, later)

/-! ### Outcomes of a sequence -/

variable {next : α → Action W β}

theorem bind_of_ok {first : Action W α} {world later : W} {value : α}
    (returned : first world = (.ok value, later)) : (first >>= next) world = next value later := by
  change bind first next world = _
  rw [bind, returned]

theorem bind_of_error {first : Action W α} {world later : W}
    {raised : PyException} (failed : first world = (.error raised, later)) :
    (first >>= next) world = (.error raised, later) := by
  change bind first next world = _
  rw [bind, failed]

/-- An action that returns did so in both of its parts. -/
theorem ok_of_bind {first : Action W α} {world last : W} {result : β}
    (returned : (first >>= next) world = (.ok result, last)) :
    ∃ value later, first world = (.ok value, later) ∧ next value later = (.ok result, last) := by
  cases outcome : first world with
  | mk outcome₁ later =>
    cases outcome₁ with
    | ok value =>
      rw [bind_of_ok outcome] at returned
      exact ⟨value, later, rfl, returned⟩
    | error raised =>
      rw [bind_of_error outcome] at returned
      cases returned

/-! ### Relations over a whole program -/

/-- Every run of the program stays within the relation. -/
def Within (R : W → W → Prop) (action : Action W α) : Prop := ∀ world, R world (action world).2

namespace Within

variable {R : W → W → Prop}

theorem modify {f : W → W} (each : ∀ world, R world (f world)) : Within R (Action.modify f) :=
  each

section

variable [IsPreorder W R]

theorem pure (value : α) : Within R (Pure.pure value : Action W α) := fun world =>
  Std.Refl.refl world

theorem lift (outcome : Except PyException α) : Within R (Action.lift outcome : Action W α) :=
  fun world => Std.Refl.refl world

theorem read (view : W → α) : Within R (Action.read view) := fun world => Std.Refl.refl world

theorem bind {first : Action W α} {next : α → Action W β} (within : Within R first)
    (each : ∀ value, Within R (next value)) : Within R (first >>= next) := by
  intro world
  have here := within world
  cases outcome : first world with
  | mk outcome₁ later =>
    rw [outcome] at here
    cases outcome₁ with
    | ok value =>
      rw [bind_of_ok outcome]
      exact IsTrans.trans _ _ _ here (each value later)
    | error raised =>
      rw [bind_of_error outcome]
      exact here

theorem attempt {action : Action W α} {caught : PyException → Bool}
    {recover : PyException → Action W α} (within : Within R action)
    (each : ∀ raised, Within R (recover raised)) :
    Within R (Action.attempt action caught recover) := by
  intro world
  have here := within world
  unfold Action.attempt
  cases outcome : action world with
  | mk outcome₁ later =>
    rw [outcome] at here
    cases outcome₁ with
    | ok value => exact here
    | error raised =>
      simp only
      split
      · exact IsTrans.trans _ _ _ here (each raised later)
      · exact here

/-- The loop rule: what every step keeps, the loop keeps. -/
theorem foldlM {step : β → α → Action W β} (each : ∀ value item, Within R (step value item))
    (items : List α) (value : β) : Within R (items.foldlM step value) := by
  induction items generalizing value with
  | nil => exact pure value
  | cons item rest ih =>
    rw [List.foldlM_cons]
    exact bind (each value item) ih

theorem mapM {step : α → Action W β} (each : ∀ item, Within R (step item)) (items : List α) :
    Within R (items.mapM step) := by
  have folded : ∀ (rest : List α) (done : List β), Within R (List.mapM.loop step rest done) := by
    intro rest
    induction rest with
    | nil => exact fun done => pure done.reverse
    | cons item later ih =>
      intro done
      exact bind (each item) fun value => ih (value :: done)
  exact folded items []

end

end Within

end Action

end Swarmind.Library
