import Mathlib.Tactic.Common

/-!
Owns the Python notions that several components share: raised exceptions and
the whitespace test behind `str.strip`.
-/

namespace Swarmind.Library

/-- A raised exception: the name of its class and `str(exc)`. -/
structure PyException where
  typeName : String
  message : String
deriving DecidableEq, Repr

namespace PyException

def valueError (message : String) : PyException := ⟨"ValueError", message⟩

def typeError (message : String) : PyException := ⟨"TypeError", message⟩

def runtimeError (message : String) : PyException := ⟨"RuntimeError", message⟩

/-- What `json.dumps` raises; the class it names is not kept. -/
def notSerializable : PyException := .typeError "Object is not JSON serializable"

end PyException

/-- `str.isspace` on one character. -/
def isSpace (character : Char) : Bool :=
  let code := character.toNat
  (9 ≤ code && code ≤ 13) || (28 ≤ code && code ≤ 32) || code == 0x85 || code == 0xA0 ||
    code == 0x1680 || (0x2000 ≤ code && code ≤ 0x200A) || code == 0x2028 || code == 0x2029 ||
    code == 0x202F || code == 0x205F || code == 0x3000

/-- `not text.strip()`. -/
def isBlank (text : String) : Bool := text.toList.all isSpace

/-- `repr` of a string: the quote it needs and the escapes of printable text. -/
def pyRepr (text : String) : String :=
  let quote := if text.toList.contains '\'' && !text.toList.contains '"' then '"' else '\''
  let escape (character : Char) : List Char :=
    if character = '\\' ∨ character = quote then ['\\', character]
    else if character = '\n' then ['\\', 'n']
    else if character = '\r' then ['\\', 'r']
    else if character = '\t' then ['\\', 't']
    else [character]
  String.ofList (quote :: text.toList.flatMap escape ++ [quote])

/-- Truth of an outcome that may have raised. -/
def Raises {α : Type} (outcome : Except PyException α) : Prop :=
  ∃ raised, outcome = .error raised

section

variable {α β : Type} {outcome : Except PyException α}

theorem ok_of_bind {next : α → Except PyException β} {result : β}
    (returned : outcome.bind next = .ok result) :
    ∃ value, outcome = .ok value ∧ next value = .ok result := by
  cases outcome with
  | ok value => exact ⟨value, rfl, returned⟩
  | error raised => cases returned

theorem ok_of_map {f : α → β} {result : β} (returned : outcome.map f = .ok result) :
    ∃ value, outcome = .ok value ∧ f value = result := by
  cases outcome with
  | ok value => exact ⟨value, rfl, Except.ok.inj returned⟩
  | error raised => cases returned

end

end Swarmind.Library
