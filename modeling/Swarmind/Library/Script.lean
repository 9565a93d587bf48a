import Mathlib.Data.List.Basic

/-!
Owns scripts: programs that ask questions of something they share with others. A
script knows the others only through the answers, so what holds for every answer
holds under every interleaving.

A monitor reads the questions with their answers and gives up at the first one
that is out of order. `Meets` says that a script, started at a state of the
monitor, never makes it give up and ends as wanted, whatever the answers are.
-/

namespace Swarmind.Library

universe u v w

/-- A program that returns or asks and goes on with the answer. -/
inductive Script (Question : Type u) (Answer : Type v) (α : Type w) where
  | done (value : α)
  | ask (question : Question) (next : Answer → Script Question Answer α)

namespace Script

variable {Question : Type u} {Answer : Type v} {α β : Type w}

def bind (next : α → Script Question Answer β) :
    Script Question Answer α → Script Question Answer β
  | .done value => next value
  | .ask question later => .ask question fun answer => bind next (later answer)

/-- Ask one question and return its answer. -/
def question {Answer : Type w} (asked : Question) : Script Question Answer Answer :=
  .ask asked .done

/-! ### Monitors -/

/-- Reads one answered question, or gives up. -/
abbrev Monitor (State : Type*) (Question : Type u) (Answer : Type v) :=
  State → Question → Answer → Option State

section Monitors

variable {State : Type*} (monitor : Monitor State Question Answer)

/-- Where the monitor stands after a trace. -/
def readTrace : State → List (Question × Answer) → Option State
  | state, [] => some state
  | state, (asked, answer) :: rest =>
    match monitor state asked answer with
    | none => none
    | some next => readTrace next rest

theorem readTrace_append (state : State) (first second : List (Question × Answer)) :
    readTrace monitor state (first ++ second) =
      (readTrace monitor state first).bind fun next => readTrace monitor next second := by
  induction first generalizing state with
  | nil => rfl
  | cons entry rest ih =>
    rw [List.cons_append, readTrace, readTrace]
    split
    · rfl
    · exact ih _

/-- From `state`, the monitor follows the script to an end as wanted. -/
def Meets : Script Question Answer α → State → (State → α → Prop) → Prop
  | .done value, state, wanted => wanted state value
  | .ask asked later, state, wanted =>
    ∀ answer, ∃ next, monitor state asked answer = some next ∧
      Meets (later answer) next wanted

variable {monitor}

/-- A script meets a condition through its first part. -/
theorem meets_bind_iff (script : Script Question Answer α)
    (next : α → Script Question Answer β) (state : State) (wanted : State → β → Prop) :
    (script.bind next).Meets monitor state wanted ↔
      script.Meets monitor state fun state value => (next value).Meets monitor state wanted := by
  induction script generalizing state with
  | done value => exact Iff.rfl
  | ask asked later ih =>
    simp only [bind, Meets, ih]

theorem Meets.mono {script : Script Question Answer α} {state : State}
    {wanted weaker : State → α → Prop} (meets : script.Meets monitor state wanted)
    (weakens : ∀ state value, wanted state value → weaker state value) :
    script.Meets monitor state weaker := by
  induction script generalizing state with
  | done value => exact weakens state value meets
  | ask asked later ih =>
    intro answer
    obtain ⟨next, read, meetsNext⟩ := meets answer
    exact ⟨next, read, ih answer meetsNext⟩

end Monitors

/-! ### Threads -/

/-- A script under way: what it asked so far, and what is left of it. -/
structure Thread (Question : Type u) (Answer : Type v) (α : Type w) where
  script : Script Question Answer α
  trace : List (Question × Answer)

section Threads

variable {State : Type*} (monitor : Monitor State Question Answer)

/-- The monitor stands at `state` and follows what is left. -/
structure Thread.At (thread : Thread Question Answer α) (start state : State)
    (wanted : State → α → Prop) : Prop where
  read : readTrace monitor start thread.trace = some state
  meets : thread.script.Meets monitor state wanted

variable {monitor}

theorem Thread.At.answered {asked : Question} {later : Answer → Script Question Answer α}
    {trace : List (Question × Answer)} {start state : State} {wanted : State → α → Prop}
    (at_ : Thread.At monitor ⟨.ask asked later, trace⟩ start state wanted) (answer : Answer) :
    ∃ next, monitor state asked answer = some next ∧
      Thread.At monitor ⟨later answer, trace ++ [(asked, answer)]⟩ start next wanted := by
  obtain ⟨next, read, meets⟩ := at_.meets answer
  refine ⟨next, read, ?_, meets⟩
  rw [readTrace_append, at_.read]
  simp [readTrace, read]

end Threads

end Script

end Swarmind.Library
