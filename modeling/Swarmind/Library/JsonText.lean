import Swarmind.Library.Json
import Mathlib.Data.Char

/-!
Owns the text of JSON documents: `encode` is `json.dumps` with
`ensure_ascii=False` and its default separators, `decode` the reader of
`json.loads`. The reader goes through the text one character at a time with the
open arrays and objects on a stack, so that what it makes of a text is what it
makes of the rest from where the beginning has brought it.
-/

namespace Swarmind.Library

namespace Json

/-! ### Writing -/

def hexDigit (value : Nat) : Char := "0123456789abcdef".toList.getD value '0'

/-- `ESCAPE_DCT`, and `\u00XX` for the other control characters. -/
def escapeChar (character : Char) : List Char :=
  if character = '"' then ['\\', '"']
  else if character = '\\' then ['\\', '\\']
  else if character = '\n' then ['\\', 'n']
  else if character = '\r' then ['\\', 'r']
  else if character = '\t' then ['\\', 't']
  else if character.toNat = 0x0C then ['\\', 'f']
  else if character.toNat = 0x08 then ['\\', 'b']
  else if character.toNat < 0x20 then
    ['\\', 'u', '0', '0', hexDigit (character.toNat / 16), hexDigit (character.toNat % 16)]
  else [character]

def quote (text : String) : List Char := '"' :: (text.toList.flatMap escapeChar ++ ['"'])

/-- Text of a float: its `repr`, or the names of the values JSON does not have. -/
def floatText (digits : String) : List Char :=
  if digits = "nan" then "NaN".toList
  else if digits = "inf" then "Infinity".toList
  else if digits = "-inf" then "-Infinity".toList
  else digits.toList

mutual

/-- `json.dumps(.., ensure_ascii=False)`. -/
def encode : Json → List Char
  | .null => "null".toList
  | .bool true => "true".toList
  | .bool false => "false".toList
  | .int value => (toString value).toList
  | .float digits => floatText digits
  | .str text => quote text
  | .array items => '[' :: (", ".toList.intercalate (encodeItems items) ++ [']'])
  | .object members => '\x7b' :: (", ".toList.intercalate (encodeMembers members) ++ ['\x7d'])

def encodeItems : List Json → List (List Char)
  | [] => []
  | item :: rest => item.encode :: encodeItems rest

def encodeMembers : List (String × Json) → List (List Char)
  | [] => []
  | (name, value) :: rest =>
    (quote name ++ (": ".toList ++ value.encode)) :: encodeMembers rest

end

/-! ### Reading -/

def isBlankChar (character : Char) : Bool :=
  character = ' ' || character = '\t' || character = '\n' || character = '\r'

/-- Characters of numbers and literals. -/
def isBareChar (character : Char) : Bool :=
  character.isAlphanum || character = '-' || character = '+' || character = '.'

/-- The rest behind `0|[1-9]\d*`. -/
def skipUnsigned : List Char → Option (List Char)
  | [] => none
  | first :: rest =>
    if first = '0' then some rest
    else if first.isDigit then some (rest.dropWhile Char.isDigit)
    else none

/-- The rest behind an integer part `-?(0|[1-9]\d*)`. -/
def skipInteger : List Char → Option (List Char)
  | [] => none
  | first :: rest => if first = '-' then skipUnsigned rest else skipUnsigned (first :: rest)

/-- The rest behind an optional fraction `\.\d+`. -/
def skipFraction (text : List Char) : List Char :=
  match text with
  | '.' :: first :: rest => if first.isDigit then rest.dropWhile Char.isDigit else text
  | _ => text

/-- The rest behind an optional exponent `[eE][-+]?\d+`. -/
def skipExponent (text : List Char) : List Char :=
  match text with
  | mark :: rest =>
    if mark = 'e' ∨ mark = 'E' then
      let digits := match rest with
        | '-' :: later => later
        | '+' :: later => later
        | later => later
      match digits with
      | first :: later => if first.isDigit then later.dropWhile Char.isDigit else text
      | [] => text
    else text
  | [] => text

def integerValue : List Char → Int
  | [] => 0
  | first :: rest =>
    if first = '-' then -(Nat.ofDigitChars 10 rest 0 : Int)
    else Nat.ofDigitChars 10 (first :: rest) 0

def numberValue (token : List Char) : Option Json :=
  match skipInteger token with
  | none => none
  | some [] => some (.int (integerValue token))
  | some rest =>
    if skipExponent (skipFraction rest) = [] then some (.float (String.ofList token)) else none

/-- What a number or literal stands for. -/
def tokenValue (token : List Char) : Option Json :=
  if token = "null".toList then some .null
  else if token = "true".toList then some (.bool true)
  else if token = "false".toList then some (.bool false)
  else if token = "NaN".toList then some (.float "nan")
  else if token = "Infinity".toList then some (.float "inf")
  else if token = "-Infinity".toList then some (.float "-inf")
  else numberValue token

/-- An open array or object; what has been read of it, latest first. -/
inductive Frame where
  | array (items : List Json)
  | object (members : List (String × Json)) (key : String)

/-- What a string is read for. -/
inductive Purpose where
  | value
  | key (members : List (String × Json))

/-- Where the reader stands. Characters read so far are held latest first. -/
inductive Reading where
  | value
  | firstItem
  | bare (token : List Char)
  | text (purpose : Purpose) (characters : List Char)
  | escape (purpose : Purpose) (characters : List Char)
  | hex (purpose : Purpose) (characters : List Char) (high : Option Nat) (digits : List Nat)
  | pairSlash (purpose : Purpose) (characters : List Char) (high : Nat)
  | pairMark (purpose : Purpose) (characters : List Char) (high : Nat)
  | firstKey
  | nextKey (members : List (String × Json))
  | colon (members : List (String × Json)) (key : String)
  | after (value : Json)

/-- The reader with the arrays and objects that are still open. -/
structure Reader where
  reading : Reading
  stack : List Frame

namespace Reader

/-- One character behind a complete value. -/
def stepAfter (value : Json) (stack : List Frame) (character : Char) : Option Reader :=
  if isBlankChar character then some ⟨.after value, stack⟩
  else
    match stack with
    | [] => none
    | .array items :: rest =>
      if character = ',' then some ⟨.value, .array (value :: items) :: rest⟩
      else if character = ']' then some ⟨.after (.array (value :: items).reverse), rest⟩
      else none
    | .object members key :: rest =>
      if character = ',' then some ⟨.nextKey ((key, value) :: members), rest⟩
      else if character = '\x7d' then
        some ⟨.after (.object ((key, value) :: members).reverse), rest⟩
      else none

/-- One character where a value has to follow. -/
def stepValue (stack : List Frame) (character : Char) : Option Reader :=
  if isBlankChar character then some ⟨.value, stack⟩
  else if character = '"' then some ⟨.text .value [], stack⟩
  else if character = '\x7b' then some ⟨.firstKey, stack⟩
  else if character = '[' then some ⟨.firstItem, stack⟩
  else if isBareChar character then some ⟨.bare [character], stack⟩
  else none

/-- A string is complete. -/
def endText (purpose : Purpose) (characters : List Char) (stack : List Frame) : Reader :=
  let text := String.ofList characters.reverse
  match purpose with
  | .value => ⟨.after (.str text), stack⟩
  | .key members => ⟨.colon members text, stack⟩

/-- One character behind a backslash. -/
def stepEscape (purpose : Purpose) (characters : List Char) (stack : List Frame)
    (character : Char) : Option Reader :=
  let push (escaped : Char) : Option Reader := some ⟨.text purpose (escaped :: characters), stack⟩
  if character = '"' ∨ character = '\\' ∨ character = '/' then push character
  else if character = 'n' then push '\n'
  else if character = 'r' then push '\r'
  else if character = 't' then push '\t'
  else if character = 'f' then push (Char.ofNat 0x0C)
  else if character = 'b' then push (Char.ofNat 0x08)
  else if character = 'u' then some ⟨.hex purpose characters none [], stack⟩
  else none

def hexValue (character : Char) : Option Nat :=
  if character.isDigit then some (character.toNat - '0'.toNat)
  else if 'a' ≤ character ∧ character ≤ 'f' then some (character.toNat - 'a'.toNat + 10)
  else if 'A' ≤ character ∧ character ≤ 'F' then some (character.toNat - 'A'.toNat + 10)
  else none

/-- Four hexadecimal digits are complete. -/
def endHex (purpose : Purpose) (characters : List Char) (stack : List Frame)
    (high : Option Nat) (code : Nat) : Option Reader :=
  match high with
  | some high =>
    if 0xDC00 ≤ code ∧ code ≤ 0xDFFF then
      let combined := 0x10000 + (high - 0xD800) * 0x400 + (code - 0xDC00)
      some ⟨.text purpose (Char.ofNat combined :: characters), stack⟩
    else none
  | none =>
    if 0xD800 ≤ code ∧ code ≤ 0xDBFF then some ⟨.pairSlash purpose characters code, stack⟩
    else if 0xDC00 ≤ code ∧ code ≤ 0xDFFF then none
    else some ⟨.text purpose (Char.ofNat code :: characters), stack⟩

/-- One character further. `none` is `JSONDecodeError`. -/
def step (reader : Reader) (character : Char) : Option Reader :=
  let stack := reader.stack
  match reader.reading with
  | .value => stepValue stack character
  | .firstItem =>
    if isBlankChar character then some reader
    else if character = ']' then some ⟨.after (.array []), stack⟩
    else stepValue (.array [] :: stack) character
  | .bare token =>
    if isBareChar character then some ⟨.bare (character :: token), stack⟩
    else (tokenValue token.reverse).bind fun value => stepAfter value stack character
  | .text purpose characters =>
    if character = '"' then some (endText purpose characters stack)
    else if character = '\\' then some ⟨.escape purpose characters, stack⟩
    else if character.toNat < 0x20 then none
    else some ⟨.text purpose (character :: characters), stack⟩
  | .escape purpose characters => stepEscape purpose characters stack character
  | .hex purpose characters high digits =>
    (hexValue character).bind fun digit =>
      let digits := digits ++ [digit]
      if digits.length = 4 then
        endHex purpose characters stack high
          (digits.foldl (fun code digit => 16 * code + digit) 0)
      else some ⟨.hex purpose characters high digits, stack⟩
  | .pairSlash purpose characters high =>
    if character = '\\' then some ⟨.pairMark purpose characters high, stack⟩ else none
  | .pairMark purpose characters high =>
    if character = 'u' then some ⟨.hex purpose characters (some high) [], stack⟩ else none
  | .firstKey =>
    if isBlankChar character then some reader
    else if character = '\x7d' then some ⟨.after (.object []), stack⟩
    else if character = '"' then some ⟨.text (.key []) [], stack⟩
    else none
  | .nextKey members =>
    if isBlankChar character then some reader
    else if character = '"' then some ⟨.text (.key members) [], stack⟩
    else none
  | .colon members key =>
    if isBlankChar character then some reader
    else if character = ':' then some ⟨.value, .object members key :: stack⟩
    else none
  | .after value => stepAfter value stack character

def run : Reader → List Char → Option Reader
  | reader, [] => some reader
  | reader, character :: rest => (reader.step character).bind fun next => next.run rest

/-- What has been read when the text ends here. -/
def finish (reader : Reader) : Option Json :=
  match reader with
  | ⟨.after value, []⟩ => some value
  | ⟨.bare token, []⟩ => tokenValue token.reverse
  | _ => none

def start : Reader := ⟨.value, []⟩

end Reader

/-- The document of a text; `none` is `JSONDecodeError`. -/
def decode (text : List Char) : Option Json := (Reader.start.run text).bind Reader.finish

end Json

end Swarmind.Library
