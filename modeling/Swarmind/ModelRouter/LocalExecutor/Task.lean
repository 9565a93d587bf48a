import Swarmind.Library.PyText
import Swarmind.Library.Script

/-!
Owns one task of the local executor: its way through the gates, the generation and
the validation, as a script that asks the shared counters and the circuit breaker.

What the collaborators do during the task is given as `Replies`, one field for each
call. A reply that is an `Except` may raise; an exception may even raise when it is
turned into text. The tables of the fleet answer through `Replies` too.
-/

namespace Swarmind.ModelRouter

open Swarmind.Library

/-- An exception with the names of its classes, and what `str` makes of it. -/
inductive Raised where
  | printable (classes : List String) (text : String)
  | unprintable (classes : List String) (raises : Raised)
deriving DecidableEq

namespace Raised

def classes : Raised → List String
  | printable classes _ => classes
  | unprintable classes _ => classes

def str : Raised → Except Raised String
  | printable _ text => .ok text
  | unprintable _ raises => .error raises

/-- How many times in a row turning the exception into text raises. -/
def depth : Raised → Nat
  | printable _ _ => 0
  | unprintable _ raises => raises.depth + 1

end Raised

structure LocalExecutionResult where
  output : String
  executedLocally : Bool
  model : String
  cloudTokens : Nat
  reason : String
deriving DecidableEq

/-- What the Unsloth client and its output do. `output` and `again` are the two
readings of the output, before and after the task is counted. -/
structure UnslothReplies where
  isAvailable : Except Raised Bool
  listModels : Except Raised (Option String)
  vramCheck : Except Raised Bool
  generate : Except Raised Unit
  output : Except Raised String
  again : Except Raised String

structure BackendManagerReplies where
  ensureRunning : Except Raised Bool
  ensureModel : Except Raised Bool

/-- What the collaborators do during one task. `None` stands for a collaborator that
is not there. -/
structure Replies where
  unsloth : Option UnslothReplies
  isAvailable : Except Raised Bool
  backendManager : Option BackendManagerReplies
  isAvailableAfter : Except Raised Bool
  tierForTask : Except Raised (Option String)
  modelFor : Except Raised String
  freeVram : Except Raised (Option Int)
  maybeDegrade : Except Raised String
  fitsInWindow : Except Raised Bool
  vramCheck : Except Raised Bool
  keepAliveFor : Option (Except Raised String)
  safeNumCtx : Except Raised Int
  /-- The answer of the client, as the text that is read from it. -/
  generate : Except Raised (Except Raised String)

structure Settings where
  allowOpenTasks : Bool
  unslothModel : Option String
  isClosedTask : String → Bool

/-- A task with what happens during it. -/
structure Job where
  task : String
  allowOpen : Option Bool
  replies : Replies

inductive Ask where
  | allow (model : String)
  | recordSuccess (model : String)
  | recordFailure (model : String)
  | countLocal
  | countCloud
deriving DecidableEq

/-- A part of a task: it asks and ends with a value or an exception. -/
abbrev Part (α : Type) := Script Ask Bool (Except Raised α)

namespace Part

variable {α β : Type}

def raise (raised : Raised) : Part α := .done (.error raised)

def give (value : α) : Part α := .done (.ok value)

def onValue (next : α → Part β) : Except Raised α → Part β
  | .error raised => raise raised
  | .ok value => next value

/-- Go on with an exception. -/
def onRaised (recover : Raised → Part α) : Except Raised α → Part α
  | .error raised => recover raised
  | .ok value => give value

def andThen (part : Part α) (next : α → Part β) : Part β := part.bind (onValue next)

/-- `try: ... except Exception as exc: ...`. -/
def attempt (part : Part α) (recover : Raised → Part α) : Part α := part.bind (onRaised recover)

end Part

/-! ### The texts of an output -/

/-- `_is_degenerate_output`: too short, or more than half of it one character. -/
def isDegenerateOutput (output : String) : Bool :=
  let text := strip output.toList
  text.length < 8 || text.any fun character => text.length < 2 * text.count character

namespace LocalExecutor

def toCloud (reason : String) : Part LocalExecutionResult :=
  .ask .countCloud fun _ => Part.give ⟨"", false, "", 0, reason⟩

def unexpectedFailure (raised : Raised) : Part LocalExecutionResult :=
  match raised.str with
  | .error other => Part.raise other
  | .ok text =>
    toCloud ("WHAT: la ruta local no se pudo completar; " ++
      s!"WHY: {text}; WHERE: LocalExecutor.execute; fallback a cloud")

/-! ### Unsloth -/

def unslothGenerates (settings : Settings) (replies : UnslothReplies) :
    Except Raised (Option String) := do
  if (← replies.isAvailable) = false then
    return none
  let model ← match settings.unslothModel with
    | some model => pure (some model)
    | none => replies.listModels
  match model with
  | none => return none
  | some model =>
    if (← replies.vramCheck) = false then
      return none
    replies.generate
    return some model

/-- The model whose output `_try_unsloth` accepts. What its `try` raises is logged. -/
def unslothAccepts (settings : Settings) (replies : Replies) : Except Raised (Option String) :=
  match replies.unsloth with
  | none => .ok none
  | some unsloth =>
    match unslothGenerates settings unsloth with
    | .error _ => .ok none
    | .ok none => .ok none
    | .ok (some model) =>
      unsloth.output.map fun text => if isDegenerateOutput text = true then none else some model

/-- The output read again for the result. -/
def unslothAgain (replies : Replies) : Except Raised String :=
  match replies.unsloth with
  | none => .ok ""
  | some unsloth => unsloth.again

def tryUnsloth (settings : Settings) (replies : Replies) : Part (Option LocalExecutionResult) :=
  match unslothAccepts settings replies with
  | .error raised => Part.raise raised
  | .ok none => Part.give none
  | .ok (some model) =>
    .ask .countLocal fun _ =>
      match unslothAgain replies with
      | .error raised => Part.raise raised
      | .ok output =>
        Part.give (some ⟨output, true, s!"unsloth:{model}", 0, s!"ejecutada en Unsloth con {model}"⟩)

/-! ### The gates -/

def ensureBackend (replies : Replies) : Except Raised Bool :=
  match replies.backendManager with
  | none => .ok false
  | some manager =>
    match manager.ensureRunning with
    | .error _ => .ok false
    | .ok false => .ok false
    | .ok true => replies.isAvailableAfter

def cannotLoad (replies : Replies) : Bool :=
  match replies.backendManager with
  | none => false
  | some manager =>
    match manager.ensureModel with
    | .error _ => true
    | .ok loaded => !loaded

/-- The gates of `_select_and_execute` after Unsloth: the model that may generate, or
the reason why the task goes to the cloud. -/
def selectModel (replies : Replies) : Except Raised (Except String String) := do
  if (← replies.isAvailable) = false then
    if (← ensureBackend replies) = false then
      return .error "backend local no disponible: fallback a cloud"
  if (← replies.tierForTask) = none then
    return .error "tarea frontier-only: requiere cloud (TKN justificado)"
  let _ ← replies.modelFor
  let _ ← replies.freeVram
  let model ← replies.maybeDegrade
  if (← replies.fitsInWindow) = false then
    return .error (s!"prompt excede la ventana de {model} (anti-loop " ++
      "compactacion/OOM): fallback a cloud")
  if (← replies.vramCheck) = false then
    return .error s!"VRAM insuficiente para {model} (anti-OOM): fallback a cloud"
  if cannotLoad replies = true then
    return .error s!"backend no pudo precargar {model}: fallback a cloud"
  return .ok model

/-! ### The generation -/

def tierKeepAlive (replies : Replies) : Except Raised String :=
  match replies.keepAliveFor with
  | none => .ok "5m"
  | some (.ok text) => .ok text
  | some (.error raised) =>
    if "KeyError" ∈ raised.classes ∨ "AttributeError" ∈ raised.classes ∨
        "TypeError" ∈ raised.classes then .ok "5m"
    else .error raised

def validateOutput (model : String) (reading : Except Raised String) : Part LocalExecutionResult :=
  match reading with
  | .error raised => Part.raise raised
  | .ok output =>
    if isDegenerateOutput output = true then
      .ask (.recordFailure model) fun _ =>
        toCloud (s!"salida degenerada de {model} (verificacion final): " ++ "fallback a cloud")
    else
      .ask (.recordSuccess model) fun _ => .ask .countLocal fun _ =>
        Part.give ⟨output, true, model, 0, s!"ejecutada en local con {model}"⟩

/-- The call of the client, whose arguments include the context window. -/
def generated (replies : Replies) : Except Raised (Except Raised String) :=
  replies.safeNumCtx.bind fun _ => replies.generate

/-- The `except` of `_generate_locally`. -/
def generationFailed (model : String) (raised : Raised) : Part LocalExecutionResult :=
  .ask (.recordFailure model) fun _ =>
    match raised.str with
    | .error other => Part.raise other
    | .ok text => toCloud s!"fallo del modelo local ({text}): fallback a cloud"

/-- `_generate_locally` once the breaker lets the model through. -/
def generateAllowed (model : String) (replies : Replies) : Part LocalExecutionResult :=
  match tierKeepAlive replies with
  | .error raised => Part.raise raised
  | .ok _ =>
    match generated replies with
    | .error raised => generationFailed model raised
    | .ok reading => validateOutput model reading

def generateLocally (model : String) (replies : Replies) : Part LocalExecutionResult :=
  .ask (.allow model) fun allowed =>
    if allowed = false then
      toCloud s!"circuito abierto para {model} (fallos consecutivos): fallback a cloud"
    else generateAllowed model replies

def selectAndExecute (settings : Settings) (replies : Replies) : Part LocalExecutionResult :=
  (tryUnsloth settings replies).andThen fun served =>
    match served with
    | some result => Part.give result
    | none =>
      match selectModel replies with
      | .error raised => Part.raise raised
      | .ok (.error reason) => toCloud reason
      | .ok (.ok model) => generateLocally model replies

/-- Whether the task gets past the allowlist. -/
def admitted (settings : Settings) (job : Job) : Bool :=
  job.allowOpen.getD settings.allowOpenTasks || settings.isClosedTask job.task

def executeGuarded (settings : Settings) (job : Job) : Part LocalExecutionResult :=
  if admitted settings job = false then
    toCloud "tarea abierta: no esta en la allowlist cerrada (cloud)"
  else (selectAndExecute settings job.replies).attempt unexpectedFailure

/-- `execute`, once the slot of the governor was asked for. -/
def execute (settings : Settings) (held : Bool) (job : Job) : Part LocalExecutionResult :=
  if held = false then
    toCloud ("WHAT: governor local ocupado por otra inferencia (timeout). " ++
      "WHY: max-1 inferencia local a la vez (anti-swap/TDR). " ++
      "WHERE: LocalExecutor.execute. NO reintentar en loop: ir a cloud.")
  else executeGuarded settings job

def safeExecute (settings : Settings) (job : Job) : Part LocalExecutionResult :=
  (executeGuarded settings { job with allowOpen := none }).attempt unexpectedFailure

def executeInBatch (settings : Settings) (held : Bool) (job : Job) : Part LocalExecutionResult :=
  if held = false then
    toCloud ("WHAT: governor local ocupado por otra inferencia (timeout). " ++
      "WHY: max-1 inferencia local a la vez (anti-swap/TDR). " ++
      "WHERE: LocalExecutor.execute_batch. NO reintentar en loop: ir a cloud.")
  else safeExecute settings job

end LocalExecutor

/-! ### What a task owes -/

/-- Where a task stands: the model it was let through for and has no outcome of yet,
and how it was counted. -/
structure Progress where
  owed : Option String
  counted : Option Bool
deriving DecidableEq

namespace Progress

def start : Progress := ⟨none, none⟩

/-- The monitor of a task: one model at a time, an outcome for the owed model only,
and one count. -/
def account : Script.Monitor Progress Ask Bool
  | progress, .allow model, answer =>
    if answer = false then some progress
    else if progress.owed = none then some { progress with owed := some model }
    else none
  | progress, .recordSuccess model, _ | progress, .recordFailure model, _ =>
    if progress.owed = some model then some { progress with owed := none } else none
  | progress, .countLocal, _ =>
    if progress.counted = none then some { progress with counted := some true } else none
  | progress, .countCloud, _ =>
    if progress.counted = none then some { progress with counted := some false } else none

/-- The end of a task inside of `handlers` more handlers: a result that agrees with the
count and nothing owed, or an exception that one of the handlers can turn into text. -/
def Ends (handlers : Nat) (progress : Progress) :
    Except Raised LocalExecutionResult → Prop
  | .ok result => progress = ⟨none, some result.executedLocally⟩
  | .error raised => progress = start ∧ raised.depth < handlers

end Progress

namespace LocalExecutor

open Progress

section Meets

variable (settings : Settings) (handlers : Nat) (progress : Progress)

theorem meets_toCloud_iff (reason : String) :
    (toCloud reason).Meets account progress (Ends handlers) ↔ progress = start := by
  obtain ⟨owed, counted⟩ := progress
  cases counted with
  | none => simp [toCloud, Script.Meets, account, Part.give, Ends, start]
  | some counted => simp [toCloud, Script.Meets, account, start]

private theorem meets_raise_iff (raised : Raised) :
    (Part.raise raised : Part LocalExecutionResult).Meets account progress (Ends handlers) ↔
      progress = start ∧ raised.depth < handlers :=
  Iff.rfl

private theorem meets_unexpectedFailure_iff (raised : Raised) :
    (unexpectedFailure raised).Meets account progress (Ends handlers) ↔
      progress = start ∧ raised.depth < handlers + 1 := by
  cases raised with
  | printable classes text =>
    rw [unexpectedFailure, Raised.str]
    simp only
    rw [meets_toCloud_iff]
    simp [Raised.depth]
  | unprintable classes raises =>
    rw [unexpectedFailure, Raised.str]
    simp only
    rw [meets_raise_iff, Raised.depth, Nat.add_lt_add_iff_right]

private theorem meets_attempt_iff (part : Part LocalExecutionResult) :
    (part.attempt unexpectedFailure).Meets account progress (Ends handlers) ↔
      part.Meets account progress (Ends (handlers + 1)) := by
  have same : ∀ progress outcome,
      (Part.onRaised unexpectedFailure outcome).Meets account progress (Ends handlers) ↔
        Ends (handlers + 1) progress outcome := by
    intro progress outcome
    cases outcome with
    | ok result => exact Iff.rfl
    | error raised => exact meets_unexpectedFailure_iff handlers progress raised
  unfold Part.attempt
  rw [Script.meets_bind_iff]
  constructor
  · intro meets
    exact meets.mono fun progress outcome wanted => (same progress outcome).mp wanted
  · intro meets
    exact meets.mono fun progress outcome wanted => (same progress outcome).mpr wanted

variable (model : String)

private theorem meets_validateOutput_iff (reading : Except Raised String) :
    (validateOutput model reading).Meets account ⟨some model, none⟩ (Ends handlers) ↔
      ∃ text, reading = .ok text := by
  cases reading with
  | error raised =>
    rw [validateOutput, meets_raise_iff]
    simp [start]
  | ok output =>
    refine iff_of_true ?_ ⟨output, rfl⟩
    rw [validateOutput]
    split
    · intro answer
      exact ⟨start, if_pos rfl, (meets_toCloud_iff handlers start _).mpr rfl⟩
    · intro answer
      exact ⟨start, if_pos rfl, fun _ => ⟨⟨none, some true⟩, rfl, rfl⟩⟩

/-- What the generation has to meet once the model is let through. -/
def Generates (handlers : Nat) (replies : Replies) : Prop :=
  (∃ keepAlive, tierKeepAlive replies = .ok keepAlive) ∧
    match generated replies with
    | .error raised => raised.depth ≤ handlers
    | .ok reading => ∃ text, reading = .ok text

private theorem meets_generationFailed_iff (raised : Raised) :
    (generationFailed model raised).Meets account ⟨some model, none⟩ (Ends handlers) ↔
      raised.depth ≤ handlers := by
  have recorded : ∀ answer,
      account ⟨some model, none⟩ (.recordFailure model) answer = some start :=
    fun _ => if_pos rfl
  rw [generationFailed, Script.Meets]
  simp only [recorded, Option.some.injEq, exists_eq_left', forall_const]
  cases raised with
  | printable classes text =>
    rw [Raised.str]
    simp only
    rw [meets_toCloud_iff]
    simp [Raised.depth]
  | unprintable classes raises =>
    rw [Raised.str]
    simp only
    rw [meets_raise_iff, Raised.depth, Nat.succ_le_iff]
    exact and_iff_right rfl

private theorem meets_generateAllowed_iff (replies : Replies) :
    (generateAllowed model replies).Meets account ⟨some model, none⟩ (Ends handlers) ↔
      Generates handlers replies := by
  unfold generateAllowed Generates
  cases tierKeepAlive replies with
  | error raised =>
    simp only
    rw [meets_raise_iff]
    simp [start]
  | ok keepAlive =>
    simp only [Except.ok.injEq, exists_eq', true_and]
    cases generated replies with
    | error raised => exact meets_generationFailed_iff handlers model raised
    | ok reading => exact meets_validateOutput_iff handlers model reading

private theorem meets_generateLocally_iff (replies : Replies) :
    (generateLocally model replies).Meets account start (Ends handlers) ↔
      Generates handlers replies := by
  have allowed : account start (.allow model) true = some ⟨some model, none⟩ := rfl
  have refused : account start (.allow model) false = some start := rfl
  rw [generateLocally, Script.Meets, Bool.forall_bool]
  simp only [allowed, refused, Option.some.injEq, exists_eq_left', if_true, Bool.true_eq_false,
    if_false]
  rw [meets_toCloud_iff, meets_generateAllowed_iff]
  exact and_iff_right rfl

/-- What is asked of the replies of an admitted task. -/
def Answers (settings : Settings) (handlers : Nat) (replies : Replies) : Prop :=
  match unslothAccepts settings replies with
  | .error raised => raised.depth < handlers
  | .ok (some _) => ∃ output, unslothAgain replies = .ok output
  | .ok none =>
    match selectModel replies with
    | .error raised => raised.depth < handlers
    | .ok (.error _) => True
    | .ok (.ok _) => Generates handlers replies

private theorem meets_selectAndExecute_iff (replies : Replies) :
    (selectAndExecute settings replies).Meets account start (Ends handlers) ↔
      Answers settings handlers replies := by
  unfold selectAndExecute tryUnsloth Answers Part.andThen
  rw [Script.meets_bind_iff]
  cases unslothAccepts settings replies with
  | error raised => exact and_iff_right rfl
  | ok accepted =>
    cases accepted with
    | none =>
      cases selectModel replies with
      | error raised => exact and_iff_right rfl
      | ok selected =>
        cases selected with
        | error reason =>
          exact iff_of_true ((meets_toCloud_iff handlers start _).mpr rfl) trivial
        | ok model => exact meets_generateLocally_iff handlers model replies
    | some model =>
      cases unslothAgain replies with
      | error raised =>
        refine iff_of_false (fun meets => ?_) (by simp)
        obtain ⟨next, read, again⟩ := meets true
        cases read
        cases again.1
      | ok output =>
        exact iff_of_true (fun _ => ⟨⟨none, some true⟩, rfl, rfl⟩) ⟨output, rfl⟩

/-- A task is answered well inside of `handlers` more handlers. -/
def Tame (settings : Settings) (handlers : Nat) (job : Job) : Prop :=
  admitted settings job = true → Answers settings handlers job.replies

/-- A task comes to its one result, whatever the breaker answers, exactly when it is
tame. -/
theorem meets_executeGuarded_iff (job : Job) :
    (executeGuarded settings job).Meets account start (Ends handlers) ↔
      Tame settings (handlers + 1) job := by
  unfold executeGuarded Tame
  split
  next refused =>
    exact iff_of_true ((meets_toCloud_iff handlers start _).mpr rfl) (by simp [refused])
  next isAdmitted =>
    rw [meets_attempt_iff, meets_selectAndExecute_iff]
    exact ⟨fun answers _ => answers, fun answers => answers (by simpa using isAdmitted)⟩

/-- A job keeps the accounts exactly when it is tame. -/
theorem meets_safeExecute_iff (job : Job) :
    (safeExecute settings job).Meets account start (Ends 0) ↔
      Tame settings 2 { job with allowOpen := none } := by
  rw [safeExecute, meets_attempt_iff, meets_executeGuarded_iff]

end Meets

end LocalExecutor

end Swarmind.ModelRouter
