import Swarmind.Library.Json
import Swarmind.Library.Python
import Mathlib.Algebra.Group.Nat.Defs
import Mathlib.Data.List.TakeWhile

/-!
Owns the texts, integers and truth Python makes of a value: `type(..).__name__`,
`repr`, `str`, `int`, `bool` and `==`. The text of an `object` names its class
only, since nothing else is known of it.
-/

namespace Swarmind.Library

namespace PyKey

def repr : PyKey → String
  | .none => "None"
  | .bool true => "True"
  | .bool false => "False"
  | .int value => toString value
  | .float digits => digits
  | .str text => pyRepr text
  | .other typeName => s!"<{typeName}>"

end PyKey

namespace PyValue

def typeName : PyValue → String
  | .none => "NoneType"
  | .bool _ => "bool"
  | .int _ => "int"
  | .float _ => "float"
  | .str _ => "str"
  | .list _ => "list"
  | .tuple _ => "tuple"
  | .dict _ => "dict"
  | .object typeName => typeName

mutual

def repr : PyValue → String
  | .none => "None"
  | .bool true => "True"
  | .bool false => "False"
  | .int value => toString value
  | .float digits => digits
  | .str text => pyRepr text
  | .list items => "[" ++ ", ".intercalate (reprItems items) ++ "]"
  | .tuple [item] => "(" ++ item.repr ++ ",)"
  | .tuple items => "(" ++ ", ".intercalate (reprItems items) ++ ")"
  | .dict items => "\x7b" ++ ", ".intercalate (reprMembers items) ++ "\x7d"
  | .object typeName => s!"<{typeName}>"

def reprItems : List PyValue → List String
  | [] => []
  | item :: rest => item.repr :: reprItems rest

def reprMembers : List (PyKey × PyValue) → List String
  | [] => []
  | (key, value) :: rest => (key.repr ++ ": " ++ value.repr) :: reprMembers rest

end

def text : PyValue → String
  | .str text => text
  | value => value.repr

end PyValue

/-! ### `int(..)` -/

/-- First code points of the blocks of ten decimal digits. -/
def decimalZeros : List Nat :=
  [0x30, 0x660, 0x6F0, 0x7C0, 0x966, 0x9E6, 0xA66, 0xAE6, 0xB66, 0xBE6, 0xC66, 0xCE6, 0xD66,
    0xDE6, 0xE50, 0xED0, 0xF20, 0x1040, 0x1090, 0x17E0, 0x1810, 0x1946, 0x19D0, 0x1A80, 0x1A90,
    0x1B50, 0x1BB0, 0x1C40, 0x1C50, 0xA620, 0xA8D0, 0xA900, 0xA9D0, 0xA9F0, 0xAA50, 0xABF0,
    0xFF10, 0x104A0, 0x10D30, 0x11066, 0x110F0, 0x11136, 0x111D0, 0x112F0, 0x11450, 0x114D0,
    0x11650, 0x116C0, 0x11730, 0x118E0, 0x11950, 0x11C50, 0x11D50, 0x11DA0, 0x11F50, 0x16A60,
    0x16AC0, 0x16B50, 0x1D7CE, 0x1D7D8, 0x1D7E2, 0x1D7EC, 0x1D7F6, 0x1E140, 0x1E2F0, 0x1E4F0,
    0x1E950, 0x1FBF0]

def decimalDigit (character : Char) : Option Nat :=
  decimalZeros.findSome? fun base =>
    if base ≤ character.toNat ∧ character.toNat < base + 10 then
      some (character.toNat - base)
    else none

/-- Decimal digits with at most one underscore between two of them. -/
def readDigits : List Char → Option (List Nat)
  | [] => none
  | [last] => (decimalDigit last).map fun digit => [digit]
  | first :: '_' :: rest =>
    (decimalDigit first).bind fun digit => (readDigits rest).map fun later => digit :: later
  | first :: rest =>
    (decimalDigit first).bind fun digit => (readDigits rest).map fun later => digit :: later

def digitsValue (digits : List Nat) : Nat :=
  digits.foldl (fun value digit => 10 * value + digit) 0

/-- Sign and magnitude at the start of a number. -/
def splitSign : List Char → Bool × List Char
  | '-' :: rest => (true, rest)
  | '+' :: rest => (false, rest)
  | rest => (false, rest)

def signed (negative : Bool) (magnitude : Nat) : Int :=
  if negative then -(magnitude : Int) else magnitude

def strip (text : List Char) : List Char :=
  ((text.dropWhile isSpace).reverse.dropWhile isSpace).reverse

def maxStrDigits : Nat := 4300

def intOfText (text : String) : Except PyException Int :=
  let number := splitSign (strip text.toList)
  match readDigits number.2 with
  | none =>
    .error (.valueError s!"invalid literal for int() with base 10: {pyRepr text}")
  | some digits =>
    if maxStrDigits < digits.length then
      .error (.valueError (s!"Exceeds the limit ({maxStrDigits} digits) for integer string " ++
        s!"conversion: value has {digits.length} digits; use " ++
        "sys.set_int_max_str_digits() to increase the limit"))
    else .ok (signed number.1 (digitsValue digits))

/-- The nearest integer of 53 significant bits, ties to even. -/
def roundToDouble (magnitude : Nat) : Nat :=
  if magnitude < 2 ^ 53 then magnitude
  else
    let unit := 2 ^ (magnitude.log2 - 52)
    let quotient := magnitude / unit
    let rest := magnitude % unit
    if 2 * rest < unit ∨ (2 * rest = unit ∧ quotient % 2 = 0) then quotient * unit
    else (quotient + 1) * unit

/-- `math.trunc` of the finite float with this `repr`. From `2 ^ 53` on, where
the text may be a neighbour of the float, it is rounded to the float. -/
def truncateFloat (digits : String) : Int :=
  let number := splitSign digits.toList
  let mantissa := number.2.takeWhile (· ≠ 'e')
  let exponentText := splitSign ((number.2.dropWhile (· ≠ 'e')).drop 1)
  let whole := mantissa.takeWhile (· ≠ '.')
  let fraction := (mantissa.dropWhile (· ≠ '.')).drop 1
  let value (text : List Char) : Nat := digitsValue (text.map fun digit => digit.toNat - 48)
  let exponent : Int := signed exponentText.1 (value exponentText.2) - fraction.length
  let magnitude :=
    if 0 ≤ exponent then value (whole ++ fraction) * 10 ^ exponent.toNat
    else value (whole ++ fraction) / 10 ^ (-exponent).toNat
  signed number.1 (roundToDouble magnitude)

namespace PyException

def overflowError (message : String) : PyException := ⟨"OverflowError", message⟩

end PyException

namespace PyValue

def toInt : PyValue → Except PyException Int
  | .bool value => .ok (if value then 1 else 0)
  | .int value => .ok value
  | .float digits =>
    if digits = "nan" then .error (.valueError "cannot convert float NaN to integer")
    else if digits = "inf" ∨ digits = "-inf" then
      .error (.overflowError "cannot convert float infinity to integer")
    else .ok (truncateFloat digits)
  | .str text => intOfText text
  | value =>
    .error (.typeError ("int() argument must be a string, a bytes-like object or a real " ++
      s!"number, not '{value.typeName}'"))

example : (PyValue.float "20.75").toInt = .ok 20 := by decide +kernel

example : (PyValue.str " +1_0 ").toInt = .ok 10 := by decide +kernel

end PyValue

/-! ### Truth and equality -/

/-- Whether the finite float with this `repr` is a whole number. -/
def isWholeFloat (digits : String) : Bool :=
  let exponent := digits.toList.dropWhile (· ≠ 'e')
  if exponent = [] then
    let fraction := digits.toList.dropWhile (· ≠ '.')
    fraction ≠ [] && (fraction.drop 1).all (· = '0')
  else !exponent.contains '-'

namespace PyValue

/-- The integer a number is equal to. -/
def asWhole : PyValue → Option Int
  | .bool value => some (if value then 1 else 0)
  | .int value => some value
  | .float digits => if isWholeFloat digits then some (truncateFloat digits) else Option.none
  | _ => Option.none

def isTruthy : PyValue → Bool
  | .none => false
  | .str text => text ≠ ""
  | .list items => !items.isEmpty
  | .tuple items => !items.isEmpty
  | .dict items => !items.isEmpty
  | .object _ => true
  | number => number.asWhole ≠ some 0

def equalsNumber : PyValue → PyValue → Bool
  | .float left, .float right =>
    (left == right && left != "nan") ||
      ((PyValue.float left).asWhole.isSome &&
        (PyValue.float left).asWhole == (PyValue.float right).asWhole)
  | left, right => left.asWhole.isSome && left.asWhole == right.asWhole

mutual

/-- `left == right`. Of two objects nothing is known, so they differ. -/
def equals : PyValue → PyValue → Bool
  | .none, .none => true
  | .str left, .str right => left == right
  | .list left, .list right => equalsItems left right
  | .tuple left, .tuple right => equalsItems left right
  | .dict left, .dict right => left.length == right.length && equalsMembers left right
  | left, right => equalsNumber left right

def equalsItems : List PyValue → List PyValue → Bool
  | [], [] => true
  | left :: lefts, right :: rights => left.equals right && equalsItems lefts rights
  | _, _ => false

def equalsMembers : List (PyKey × PyValue) → List (PyKey × PyValue) → Bool
  | [], _ => true
  | (key, value) :: rest, other =>
    (match Dict.find key other with
      | some found => value.equals found
      | Option.none => false) && equalsMembers rest other

end

def orElse (value default : PyValue) : PyValue := if value.isTruthy then value else default

example : (PyValue.int 1).equals (.float "1.0") = true := by decide +kernel

end PyValue

end Swarmind.Library
