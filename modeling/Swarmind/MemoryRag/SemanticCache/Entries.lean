import Swarmind.MemoryRag.RuscaDBStore.Writes
import Mathlib.Algebra.Order.Field.Basic
import Mathlib.Data.Rat.Cast.Order

/-!
Owns what the semantic cache reads of a stored entry: its metadata, when it has
expired, and who may see it.
-/

namespace Swarmind.MemoryRag.SemanticCache

open Swarmind.Library RuscaDBStore

/-- A row of the collection, with the vector of its prompt. -/
structure Row (R : Type) where
  id : String
  vector : List R
  metadata : Members
  createdAt : String

/-- A row that `semantic_cache_set` keeps under a key. `text` is its `json` payload. -/
structure KeyedRow where
  key : String
  text : String
  metadata : Members

/-- What a store holds for the cache. -/
structure Contents (R : Type) where
  rows : List (Row R)
  keyed : List KeyedRow
  setsSinceSweep : Nat

def Contents.empty {R : Type} : Contents R := ⟨[], [], 0⟩

/-- `meta.get(key, default)`. -/
def getOr (metadata : Members) (key : String) (default : PyValue) : PyValue :=
  (Dict.find (.str key) metadata).getD default

/-! ### Expiry -/

/-- The number that the `repr` of a finite float shows. -/
def decimalOf (digits : String) : ℚ :=
  let number := splitSign digits.toList
  let mantissa := number.2.takeWhile (· ≠ 'e')
  let exponentText := splitSign ((number.2.dropWhile (· ≠ 'e')).drop 1)
  let whole := mantissa.takeWhile (· ≠ '.')
  let fraction := (mantissa.dropWhile (· ≠ '.')).drop 1
  let value (text : List Char) : Nat := digitsValue (text.map fun digit => digit.toNat - 48)
  let exponent : Int := signed exponentText.1 (value exponentText.2) - fraction.length
  let magnitude : ℚ := value (whole ++ fraction) * 10 ^ exponent
  if number.1 then -magnitude else magnitude

/-- A time to live as a number of seconds. It is finite. -/
def numberOf : PyValue → Option ℚ
  | .bool value => some (if value then 1 else 0)
  | .int value => some value
  | .float digits => some (decimalOf digits)
  | _ => none

/-- `_is_expired`. Moments are in microseconds; `fromIsoFormat` gives none for what
is not an aware time. -/
def isExpired (fromIsoFormat : String → Option Int) (now : Int) (createdAt ttlSeconds : PyValue) :
    Bool :=
  match createdAt with
  | .str stamp =>
    if stamp = "" then true
    else
      match fromIsoFormat stamp, numberOf ttlSeconds with
      | some created, some seconds =>
        decide (seconds < ((now - created : Int) : ℚ) / 1000000)
      | _, _ => true
  | _ => true

theorem isExpired_mono {fromIsoFormat : String → Option Int} {now later : Int}
    {createdAt ttlSeconds : PyValue} (order : now ≤ later)
    (expired : isExpired fromIsoFormat now createdAt ttlSeconds = true) :
    isExpired fromIsoFormat later createdAt ttlSeconds = true := by
  unfold isExpired at expired ⊢
  split at expired
  · split_ifs at expired ⊢ with blank
    · rfl
    · split at expired
      · rename_i created seconds _ _
        rw [decide_eq_true_eq] at expired ⊢
        have elapsed : ((now - created : Int) : ℚ) ≤ ((later - created : Int) : ℚ) :=
          Int.cast_le.mpr (by omega)
        exact expired.trans_le (div_le_div_of_nonneg_right elapsed (by norm_num))
      · rfl
  · rfl

/-! ### Roles and responses -/

/-- `agent_role == "*" or result_role in (agent_role, "*")`. -/
def admits (agentRole : String) (resultRole : PyValue) : Bool :=
  agentRole = "*" || resultRole.equals (.str agentRole) || resultRole.equals (.str "*")

/-- A role that a caller with the role `agentRole` may see. -/
def visible (agentRole role : String) : Bool := agentRole = "*" || role = agentRole || role = "*"

theorem equals_str (left right : String) :
    (PyValue.str left).equals (.str right) = decide (left = right) := by
  rw [PyValue.equals]
  exact beq_eq_decide left right

theorem admits_str (agentRole role : String) :
    admits agentRole (.str role) = visible agentRole role := by
  rw [admits, visible, equals_str, equals_str]

def isPending (response : String) : Bool := "[PENDING]".toList <:+: response.toList

namespace Row

variable {R : Type} (row : Row R)

def promptHash : PyValue := get row.metadata "prompt_hash"

def role : PyValue := getOr row.metadata "agent_role" (.str "*")

def response : PyValue := getOr row.metadata "response" (.str "")

/-- The response is a text that waits for the model. -/
def pending : Bool :=
  match row.response with
  | .str text => isPending text
  | _ => false

end Row

end Swarmind.MemoryRag.SemanticCache
