import Swarmind.Library.JsonText

/-!
Owns what the reader makes of written documents: `decode` gives back what
`encode` has written, and refuses every written object that is cut off. Both
follow what the reader does with the text of one string, number, array or object
in front of any other text.
-/

namespace Swarmind.Library

namespace Json

/-! ### Well-formed documents -/

theorem inductionOn {motive : Json → Prop} (null : motive .null)
    (bool : ∀ value, motive (.bool value)) (int : ∀ value, motive (.int value))
    (float : ∀ digits, motive (.float digits)) (str : ∀ text, motive (.str text))
    (array : ∀ items, (∀ item ∈ items, motive item) → motive (.array items))
    (object : ∀ members, (∀ entry ∈ members, motive entry.2) → motive (.object members)) :
    ∀ json, motive json :=
  @Json.rec motive (fun items => ∀ item ∈ items, motive item)
    (fun members => ∀ entry ∈ members, motive entry.2) (fun entry => motive entry.2)
    null bool int float str array object
    (fun item among => by cases among)
    (fun head rest ofHead ofRest item among => by
      rcases List.mem_cons.mp among with rfl | later
      · exact ofHead
      · exact ofRest item later)
    (fun entry among => by cases among)
    (fun head rest ofHead ofRest entry among => by
      rcases List.mem_cons.mp among with rfl | later
      · exact ofHead
      · exact ofRest entry later)
    (fun _ _ ofValue => ofValue)

def isFloatText (digits : String) : Bool :=
  (floatText digits).all isBareChar &&
    match tokenValue (floatText digits) with
    | some (.float read) => read = digits
    | _ => false

mutual

/-- Every float carries a text that is read as it. -/
def Textual : Json → Prop
  | .float digits => isFloatText digits = true
  | .array items => AllTextual items
  | .object members => MembersTextual members
  | _ => True

def AllTextual : List Json → Prop
  | [] => True
  | item :: rest => item.Textual ∧ AllTextual rest

def MembersTextual : List (String × Json) → Prop
  | [] => True
  | (_, value) :: rest => value.Textual ∧ MembersTextual rest

end

theorem allTextual_iff (items : List Json) : AllTextual items ↔ ∀ item ∈ items, item.Textual := by
  induction items with
  | nil => simp [AllTextual]
  | cons item rest ih => simp [AllTextual, ih]

theorem membersTextual_iff (members : List (String × Json)) :
    MembersTextual members ↔ ∀ entry ∈ members, entry.2.Textual := by
  induction members with
  | nil => simp [MembersTextual]
  | cons entry rest ih =>
    obtain ⟨name, value⟩ := entry
    simp [MembersTextual, ih]

/-- A document that ends with a mark of its own. -/
def Closed : Json → Prop
  | .str _ | .array _ | .object _ => True
  | _ => False

/-! ### Numbers -/

private theorem exists_toDigits_eq_cons (natural : Nat) :
    ∃ first rest, Nat.toDigits 10 natural = first :: rest ∧ (first = '0' → rest = []) := by
  induction natural using Nat.strongRecOn with
  | ind natural ih =>
    by_cases small : natural < 10
    · exact ⟨_, [], Nat.toDigits_of_lt_base small, fun _ => rfl⟩
    · obtain ⟨first, rest, digits, _⟩ := ih (natural / 10) (by omega)
      refine ⟨first, rest ++ [(natural % 10).digitChar], ?_, ?_⟩
      · rw [Nat.toDigits_of_base_le (by decide) (by omega), digits, List.cons_append]
      · rintro rfl
        obtain rfl : rest = [] := by simp_all
        have value : Nat.ofDigitChars 10 ['0'] 0 = natural / 10 := by
          rw [← digits, Nat.ofDigitChars_ten_toDigits]
        have vanishes : natural / 10 = 0 := value.symm
        omega

private theorem isDigit_of_toDigits {natural : Nat} {first : Char} {rest : List Char}
    (digits : Nat.toDigits 10 natural = first :: rest) :
    first.isDigit ∧ ∀ digit ∈ rest, digit.isDigit := by
  have each : ∀ digit ∈ first :: rest, digit.isDigit := by
    rw [← digits]
    exact fun digit among => Nat.isDigit_of_mem_toDigits (by decide) (by decide) among
  exact ⟨each first (by simp), fun digit among => each digit (by simp [among])⟩

private theorem dropWhile_isDigit {digits : List Char} (each : ∀ digit ∈ digits, digit.isDigit) :
    digits.dropWhile Char.isDigit = [] := by
  induction digits with
  | nil => rfl
  | cons digit rest ih =>
    rw [List.dropWhile_cons_of_pos (each digit (by simp))]
    exact ih fun other among => each other (by simp [among])

private theorem skipInteger_toDigits (natural : Nat) :
    skipInteger (Nat.toDigits 10 natural) = some [] ∧
      skipInteger ('-' :: Nat.toDigits 10 natural) = some [] := by
  obtain ⟨first, rest, digits, leading⟩ := exists_toDigits_eq_cons natural
  obtain ⟨isDigit, each⟩ := isDigit_of_toDigits digits
  have notMinus : first ≠ '-' := by
    rintro rfl
    exact absurd isDigit (by decide)
  rw [digits]
  by_cases isZero : first = '0'
  · obtain rfl := isZero
    obtain rfl := leading rfl
    exact ⟨rfl, rfl⟩
  · simp [skipInteger, skipUnsigned, isZero, notMinus, isDigit, dropWhile_isDigit each]


private theorem mem_of_toDigits {natural : Nat} {character : Char}
    (among : character ∈ Nat.toDigits 10 natural) : character.isDigit :=
  Nat.isDigit_of_mem_toDigits (by decide) (by decide) among

private theorem toList_toString_int (value : Int) :
    (toString value).toList =
      if value < 0 then '-' :: Nat.toDigits 10 value.natAbs else Nat.toDigits 10 value.natAbs := by
  cases value with
  | ofNat natural =>
    have notBelow : ¬Int.ofNat natural < 0 := Int.not_lt.mpr (Int.natCast_nonneg natural)
    rw [if_neg notBelow]
    exact Nat.toList_repr
  | negSucc natural =>
    rw [if_pos (by omega)]
    have text : toString (Int.negSucc natural) = "-" ++ (natural + 1).repr := rfl
    rw [text, String.toList_append, Nat.toList_repr]
    rfl

private theorem numberValue_int (value : Int) :
    numberValue (toString value).toList = some (.int value) := by
  obtain ⟨plain, negative⟩ := skipInteger_toDigits value.natAbs
  obtain ⟨first, rest, digits, _⟩ := exists_toDigits_eq_cons value.natAbs
  have notMinus : first ≠ '-' := by
    rintro rfl
    exact absurd (isDigit_of_toDigits digits).1 (by decide)
  rw [toList_toString_int, numberValue]
  by_cases below : value < 0
  · rw [if_pos below, negative]
    simp only [integerValue, if_true, Nat.ofDigitChars_ten_toDigits, Option.some.injEq, int.injEq]
    omega
  · rw [if_neg below, plain]
    simp only [digits, integerValue, notMinus, if_false]
    rw [← digits, Nat.ofDigitChars_ten_toDigits]
    simp only [Option.some.injEq, int.injEq]
    omega

private theorem mem_toString_int {value : Int} {character : Char}
    (among : character ∈ (toString value).toList) : character.isDigit ∨ character = '-' := by
  rw [toList_toString_int] at among
  split at among
  · rcases List.mem_cons.mp among with rfl | later
    · exact .inr rfl
    · exact .inl (mem_of_toDigits later)
  · exact .inl (mem_of_toDigits among)

private theorem tokenValue_of_digits {token : List Char}
    (each : ∀ character ∈ token, character.isDigit ∨ character = '-') :
    tokenValue token = numberValue token := by
  have differs (literal : List Char) (letter : Char) (among : letter ∈ literal)
      (isLetter : ¬(letter.isDigit ∨ letter = '-')) : token ≠ literal := by
    rintro rfl
    exact isLetter (each letter among)
  rw [tokenValue, if_neg (differs _ 'n' (by decide) (by decide)),
    if_neg (differs _ 't' (by decide) (by decide)), if_neg (differs _ 'f' (by decide) (by decide)),
    if_neg (differs _ 'N' (by decide) (by decide)), if_neg (differs _ 'I' (by decide) (by decide)),
    if_neg (differs _ 'I' (by decide) (by decide))]

theorem tokenValue_int (value : Int) : tokenValue (toString value).toList = some (.int value) := by
  rw [tokenValue_of_digits fun _ => mem_toString_int, numberValue_int]

private theorem isBareChar_of_int {value : Int} {character : Char}
    (among : character ∈ (toString value).toList) : isBareChar character := by
  rcases mem_toString_int among with isDigit | rfl
  · simp [isBareChar, Char.isAlphanum, isDigit]
  · decide

/-- The text of a number or a literal. -/
def Bare (json : Json) : Prop :=
  json.encode ≠ [] ∧ (∀ character ∈ json.encode, isBareChar character) ∧
    tokenValue json.encode = some json

theorem bare_of_not_closed {json : Json} (textual : json.Textual) (isOpen : ¬json.Closed) :
    json.Bare := by
  cases json with
  | null => exact ⟨by decide, List.all_eq_true.mp rfl, rfl⟩
  | bool value => cases value <;> exact ⟨by decide, List.all_eq_true.mp rfl, rfl⟩
  | int value =>
    refine ⟨?_, fun _ => isBareChar_of_int, tokenValue_int value⟩
    intro empty
    have read := tokenValue_int value
    rw [show (toString value).toList = [] from empty] at read
    cases read
  | float digits =>
    rw [Textual, isFloatText, Bool.and_eq_true, List.all_eq_true] at textual
    obtain ⟨each, read⟩ := textual
    have value : tokenValue (floatText digits) = some (.float digits) := by
      split at read
      · rename_i found outcome
        rw [outcome, of_decide_eq_true read]
      · cases read
    refine ⟨?_, each, value⟩
    intro empty
    rw [show floatText digits = [] from empty] at value
    cases value
  | str text => exact absurd trivial isOpen
  | array items => exact absurd trivial isOpen
  | object members => exact absurd trivial isOpen

/-! ### Reading what has been written -/

namespace Reader

@[simp] theorem run_nil (reader : Reader) : reader.run [] = some reader := rfl

@[simp] theorem run_cons (reader : Reader) (character : Char) (rest : List Char) :
    reader.run (character :: rest) = (reader.step character).bind fun next => next.run rest := rfl

/-- Reading is compositional. -/
theorem run_append (reader : Reader) (first second : List Char) :
    reader.run (first ++ second) = (reader.run first).bind fun next => next.run second := by
  induction first generalizing reader with
  | nil => rfl
  | cons character rest ih =>
    rw [List.cons_append, run_cons, run_cons, Option.bind_assoc]
    congr 1
    funext next
    exact ih next

private theorem hexValue_hexDigit {value : Nat} (small : value < 16) :
    hexValue (hexDigit value) = some value := by
  revert value
  decide

private theorem run_escapeChar (purpose : Purpose) (characters : List Char) (stack : List Frame)
    (character : Char) (rest : List Char) :
    run ⟨.text purpose characters, stack⟩ (escapeChar character ++ rest) =
      run ⟨.text purpose (character :: characters), stack⟩ rest := by
  by_cases isQuote : character = '"'
  · subst isQuote
    rfl
  by_cases isBackslash : character = '\\'
  · subst isBackslash
    rfl
  by_cases isNewline : character = '\n'
  · subst isNewline
    rfl
  by_cases isReturn : character = '\r'
  · subst isReturn
    rfl
  by_cases isTab : character = '\t'
  · subst isTab
    rfl
  by_cases isFormFeed : character.toNat = 0x0C
  · obtain rfl : character = Char.ofNat 0x0C := by rw [← isFormFeed, Char.ofNat_toNat]
    rfl
  by_cases isBackspace : character.toNat = 0x08
  · obtain rfl : character = Char.ofNat 0x08 := by rw [← isBackspace, Char.ofNat_toNat]
    rfl
  by_cases isControl : character.toNat < 0x20
  · have zero : hexValue '0' = some 0 := rfl
    have high : hexValue (hexDigit (character.toNat / 16)) = some (character.toNat / 16) :=
      hexValue_hexDigit (by omega)
    have low : hexValue (hexDigit (character.toNat % 16)) = some (character.toNat % 16) :=
      hexValue_hexDigit (by omega)
    have code : 16 * (character.toNat / 16) + character.toNat % 16 = character.toNat :=
      Nat.div_add_mod _ _
    have plain : ¬(0xD800 ≤ character.toNat ∧ character.toNat ≤ 0xDBFF) := by omega
    have alone : ¬(0xDC00 ≤ character.toNat ∧ character.toNat ≤ 0xDFFF) := by omega
    simp [escapeChar, isQuote, isBackslash, isNewline, isReturn, isTab, isFormFeed, isBackspace,
      isControl, step, stepEscape, zero, high, low, code, endHex, plain, alone, Char.ofNat_toNat]
  · simp [escapeChar, isQuote, isBackslash, isNewline, isReturn, isTab, isFormFeed, isBackspace,
      isControl, step]

theorem run_text (purpose : Purpose) (text characters : List Char) (stack : List Frame)
    (rest : List Char) :
    run ⟨.text purpose characters, stack⟩ (text.flatMap escapeChar ++ '"' :: rest) =
      (endText purpose (text.reverse ++ characters) stack).run rest := by
  induction text generalizing characters with
  | nil => rfl
  | cons character later ih =>
    rw [List.flatMap_cons, List.append_assoc, run_escapeChar, ih,
      List.reverse_cons, List.append_assoc, List.singleton_append]

private theorem run_quote (text : String) (stack : List Frame) (rest : List Char) :
    run ⟨.value, stack⟩ (quote text ++ rest) = run ⟨.after (.str text), stack⟩ rest := by
  have opened : stepValue stack '"' = some ⟨.text .value [], stack⟩ := rfl
  simp only [quote, List.cons_append, List.append_assoc, List.nil_append, run_cons, step, opened,
    Option.bind_some, run_text, endText, List.append_nil, List.reverse_reverse,
    String.ofList_toList]

private theorem run_name (members : List (String × Json)) (name : String) (stack : List Frame)
    (rest : List Char) :
    run ⟨.nextKey members, stack⟩ (quote name ++ (": ".toList ++ rest)) =
      run ⟨.value, .object members name :: stack⟩ rest := by
  simp [quote, step, run_text, endText, isBlankChar, stepValue]

private theorem stepValue_of_bare {character : Char} (bare : isBareChar character)
    (stack : List Frame) :
    stepValue stack character = some ⟨.bare [character], stack⟩ := by
  have differs (other : Char) (notBare : isBareChar other = false) : character ≠ other := by
    rintro rfl
    rw [notBare] at bare
    cases bare
  simp [stepValue, isBlankChar, differs ' ' rfl, differs '\t' rfl, differs '\n' rfl,
    differs '\r' rfl, differs '"' rfl, differs '\x7b' rfl, differs '[' rfl, bare]

private theorem run_bare {token : List Char} (bare : ∀ character ∈ token, isBareChar character)
    (earlier : List Char) (stack : List Frame) (rest : List Char) :
    run ⟨.bare earlier, stack⟩ (token ++ rest) =
      run ⟨.bare (token.reverse ++ earlier), stack⟩ rest := by
  induction token generalizing earlier with
  | nil => rfl
  | cons character later ih =>
    have here := bare character (by simp)
    rw [List.cons_append, run_cons]
    simp only [step, here, if_true, Option.bind_some]
    rw [ih (fun other among => bare other (by simp [among])),
      List.reverse_cons, List.append_assoc, List.singleton_append]

/-- A text that no number or literal goes on into. -/
def Stops (rest : List Char) : Prop :=
  ∃ character later, rest = character :: later ∧ isBareChar character = false

private theorem run_token {json : Json} (bare : json.Bare) (stack : List Frame) {rest : List Char}
    (stops : Stops rest) :
    run ⟨.value, stack⟩ (json.encode ++ rest) = run ⟨.after json, stack⟩ rest := by
  obtain ⟨nonempty, each, value⟩ := bare
  obtain ⟨character, later, rfl, notBare⟩ := stops
  obtain ⟨first, token, text⟩ := List.exists_cons_of_ne_nil nonempty
  rw [text] at each value
  rw [text, List.cons_append, run_cons]
  simp only [step, stepValue_of_bare (each first (by simp)), Option.bind_some]
  rw [run_bare fun other among => each other (by simp [among])]
  simp [step, notBare, value]

/-- The first character of a written value is neither blank nor a closing bracket. -/
theorem exists_encode_eq_cons {json : Json} (textual : json.Textual) :
    ∃ first later, json.encode = first :: later ∧ isBlankChar first = false ∧ first ≠ ']' := by
  by_cases closed : json.Closed
  · cases json with
    | str text => exact ⟨_, _, rfl, rfl, by decide⟩
    | array items => exact ⟨_, _, rfl, rfl, by decide⟩
    | object members => exact ⟨_, _, rfl, rfl, by decide⟩
    | null | bool _ | int _ | float _ => exact closed.elim
  · obtain ⟨nonempty, each, _⟩ := bare_of_not_closed textual closed
    obtain ⟨first, later, text⟩ := List.exists_cons_of_ne_nil nonempty
    have bare : isBareChar first := each first (by simp [text])
    have differs (other : Char) (notBare : isBareChar other = false) : first ≠ other := by
      rintro rfl
      rw [notBare] at bare
      cases bare
    exact ⟨first, later, text, by simp [isBlankChar, differs ' ' rfl, differs '\t' rfl,
      differs '\n' rfl, differs '\r' rfl], differs ']' rfl⟩

/-- What it takes to read a written value. -/
def Reads (json : Json) : Prop :=
  ∀ stack rest, Stops rest ∨ json.Closed →
    run ⟨.value, stack⟩ (json.encode ++ rest) = run ⟨.after json, stack⟩ rest

private theorem run_firstItem {json : Json} (textual : json.Textual) (stack : List Frame)
    (rest : List Char) :
    run ⟨.firstItem, stack⟩ (json.encode ++ rest) =
      run ⟨.value, .array [] :: stack⟩ (json.encode ++ rest) := by
  obtain ⟨first, later, text, notBlank, notClose⟩ := exists_encode_eq_cons textual
  simp [text, step, notBlank, notClose]

private theorem run_items (item : Json) {items : List Json}
    (each : ∀ other ∈ item :: items, Reads other)
    (done : List Json) (stack : List Frame) (rest : List Char) :
    run ⟨.value, .array done :: stack⟩
        (", ".toList.intercalate (encodeItems (item :: items)) ++ ']' :: rest) =
      run ⟨.after (.array (done.reverse ++ item :: items)), stack⟩ rest := by
  induction items generalizing item done with
  | nil =>
    have read := each item (by simp) (.array done :: stack) (']' :: rest)
      (.inl ⟨']', rest, rfl, rfl⟩)
    simp only [encodeItems, List.intercalate_singleton, read, run_cons]
    simp [step, stepAfter, isBlankChar]
  | cons next later ih =>
    have read := each item (by simp) (.array done :: stack)
      (", ".toList ++ (", ".toList.intercalate (encodeItems (next :: later)) ++ ']' :: rest))
      (.inl ⟨',', _, rfl, rfl⟩)
    have more := ih next
      (fun other among => each other (by simp [among])) (item :: done)
    rw [encodeItems, encodeItems, List.intercalate_cons_cons, ← encodeItems, List.append_assoc,
      List.append_assoc, read]
    simpa [step, stepAfter, stepValue, isBlankChar] using more

private theorem run_members (entry : String × Json) {members : List (String × Json)}
    (each : ∀ other ∈ entry :: members, Reads other.2) (done : List (String × Json))
    (stack : List Frame) (rest : List Char) :
    run ⟨.nextKey done, stack⟩
        (", ".toList.intercalate (encodeMembers (entry :: members)) ++ '\x7d' :: rest) =
      run ⟨.after (.object (done.reverse ++ entry :: members)), stack⟩ rest := by
  induction members generalizing entry done with
  | nil =>
    obtain ⟨name, value⟩ := entry
    have read := each (name, value) (by simp) (.object done name :: stack) ('\x7d' :: rest)
      (.inl ⟨'\x7d', rest, rfl, rfl⟩)
    simp only [encodeMembers, List.intercalate_singleton, List.append_assoc, run_name, read,
      run_cons]
    simp [step, stepAfter, isBlankChar]
  | cons next later ih =>
    obtain ⟨name, value⟩ := entry
    obtain ⟨nextName, nextValue⟩ := next
    have read := each (name, value) (by simp) (.object done name :: stack)
      (", ".toList ++
        (", ".toList.intercalate (encodeMembers ((nextName, nextValue) :: later)) ++
          '\x7d' :: rest))
      (.inl ⟨',', _, rfl, rfl⟩)
    have more := ih (nextName, nextValue)
      (fun other among => each other (by simp [among])) ((name, value) :: done)
    rw [encodeMembers, encodeMembers, List.intercalate_cons_cons, ← encodeMembers]
    simp only [List.append_assoc, run_name]
    rw [read]
    simpa [step, stepAfter, isBlankChar] using more

theorem exists_intercalate_eq (separator first : List Char) (later : List (List Char))
    (rest : List Char) :
    ∃ behind, separator.intercalate (first :: later) ++ rest = first ++ behind := by
  cases later with
  | nil => exact ⟨rest, by rw [List.intercalate_singleton]⟩
  | cons next others =>
    exact ⟨_, by rw [List.intercalate_cons_cons, List.append_assoc, List.append_assoc]⟩

theorem run_firstKey (name : String) (stack : List Frame) (rest : List Char) :
    run ⟨.firstKey, stack⟩ (quote name ++ rest) =
      run ⟨.nextKey [], stack⟩ (quote name ++ rest) := by
  simp [quote, step, isBlankChar]

theorem reads_of_textual {json : Json} (textual : json.Textual) : Reads json := by
  induction json using inductionOn with
  | null | bool _ | int _ | float _ =>
    intro stack rest stops
    exact run_token (bare_of_not_closed textual id) stack (stops.resolve_right id)
  | str text =>
    intro stack rest _
    exact run_quote text stack rest
  | array items ih =>
    intro stack rest _
    have each := (allTextual_iff items).mp textual
    cases items with
    | nil => rfl
    | cons item later =>
      have read := run_items item (fun other among => ih other among
        (each other among)) [] stack rest
      obtain ⟨behind, text⟩ := exists_intercalate_eq ", ".toList item.encode
        (encodeItems later) (']' :: rest)
      rw [encodeItems, text, ← run_firstItem (each item (by simp)), ← text, ← encodeItems]
        at read
      simpa [encode, step, stepValue, isBlankChar] using read
  | object members ih =>
    intro stack rest _
    have each := (membersTextual_iff members).mp textual
    cases members with
    | nil => rfl
    | cons entry later =>
      obtain ⟨name, value⟩ := entry
      have read := run_members (name, value) (fun other among =>
        ih other among (each other among)) [] stack rest
      obtain ⟨behind, text⟩ := exists_intercalate_eq ", ".toList
        (quote name ++ (": ".toList ++ value.encode)) (encodeMembers later) ('\x7d' :: rest)
      rw [encodeMembers, text, List.append_assoc, ← run_firstKey, ← List.append_assoc, ← text,
        ← encodeMembers] at read
      simpa [encode, step, stepValue, isBlankChar] using read

end Reader

/-- An encoded document is decoded. -/
theorem decode_encode {json : Json} (textual : json.Textual) : decode json.encode = some json := by
  by_cases closed : json.Closed
  · have read := Reader.reads_of_textual textual [] [] (.inr closed)
    rw [List.append_nil] at read
    rw [decode, Reader.start, read]
    rfl
  · obtain ⟨nonempty, each, value⟩ := bare_of_not_closed textual closed
    obtain ⟨first, token, text⟩ := List.exists_cons_of_ne_nil nonempty
    rw [text] at each value
    have eachLater : ∀ other ∈ token, isBareChar other :=
      fun other among => each other (by simp [among])
    have read := Reader.run_bare eachLater [first] [] []
    rw [List.append_nil] at read
    rw [decode, Reader.start, text, Reader.run_cons]
    simp only [Reader.step, Reader.stepValue_of_bare (each first (by simp)), Option.bind_some]
    rw [read]
    simpa [Reader.finish] using value

/-! ### Texts that are cut off -/

namespace Reader

/-- The reader is not about to read, or reading, an outermost number or literal. -/
def Inside (reader : Reader) : Prop :=
  reader.stack = [] → reader.reading ≠ .value ∧ ∀ token, reader.reading ≠ .bare token

private theorem Inside.of_ne_nil {reader : Reader} (nonempty : reader.stack ≠ []) : reader.Inside :=
  fun empty => absurd empty nonempty

private theorem inside_of_stepAfter {value : Json} {stack : List Frame} {character : Char}
    {next : Reader} (stepped : stepAfter value stack character = some next) : next.Inside := by
  unfold stepAfter at stepped
  split at stepped
  · obtain rfl := Option.some.inj stepped
    exact fun _ => ⟨nofun, fun _ => nofun⟩
  · split at stepped
    · cases stepped
    · split at stepped
      · obtain rfl := Option.some.inj stepped
        exact .of_ne_nil (List.cons_ne_nil _ _)
      · split at stepped
        · obtain rfl := Option.some.inj stepped
          exact fun _ => ⟨nofun, fun _ => nofun⟩
        · cases stepped
    · split at stepped
      · obtain rfl := Option.some.inj stepped
        exact fun _ => ⟨nofun, fun _ => nofun⟩
      · split at stepped
        · obtain rfl := Option.some.inj stepped
          exact fun _ => ⟨nofun, fun _ => nofun⟩
        · cases stepped

private theorem inside_of_stepValue {stack : List Frame} (nonempty : stack ≠ []) {character : Char}
    {next : Reader} (stepped : stepValue stack character = some next) : next.Inside := by
  have sameStack : next.stack = stack := by
    rw [stepValue] at stepped
    split_ifs at stepped <;> obtain rfl := Option.some.inj stepped <;> rfl
  exact .of_ne_nil (by rwa [sameStack])

theorem Inside.step {reader next : Reader} {character : Char} (inside : reader.Inside)
    (stepped : reader.step character = some next) : next.Inside := by
  obtain ⟨reading, stack⟩ := reader
  cases reading with
  | value =>
    have nonempty : stack ≠ [] := fun empty => (inside empty).1 rfl
    exact inside_of_stepValue nonempty stepped
  | bare token =>
    have nonempty : stack ≠ [] := fun empty => (inside empty).2 token rfl
    simp only [Reader.step] at stepped
    split at stepped
    · obtain rfl := Option.some.inj stepped
      exact .of_ne_nil nonempty
    · obtain ⟨value, _, stepped⟩ := Option.bind_eq_some_iff.mp stepped
      exact inside_of_stepAfter stepped
  | firstItem =>
    simp only [Reader.step] at stepped
    split_ifs at stepped
    · obtain rfl := Option.some.inj stepped
      exact inside
    · obtain rfl := Option.some.inj stepped
      exact fun _ => ⟨nofun, fun _ => nofun⟩
    · exact inside_of_stepValue (List.cons_ne_nil _ _) stepped
  | after value => exact inside_of_stepAfter stepped
  | text purpose characters =>
    simp only [Reader.step] at stepped
    split_ifs at stepped <;> obtain rfl := Option.some.inj stepped
    · cases purpose <;> exact fun _ => ⟨nofun, fun _ => nofun⟩
    · exact fun _ => ⟨nofun, fun _ => nofun⟩
    · exact fun _ => ⟨nofun, fun _ => nofun⟩
  | escape purpose characters =>
    simp only [Reader.step, stepEscape] at stepped
    split_ifs at stepped <;> obtain rfl := Option.some.inj stepped <;>
      exact fun _ => ⟨nofun, fun _ => nofun⟩
  | hex purpose characters high digits =>
    simp only [Reader.step] at stepped
    obtain ⟨digit, _, stepped⟩ := Option.bind_eq_some_iff.mp stepped
    split_ifs at stepped
    · cases high <;> simp only [endHex] at stepped <;> split_ifs at stepped <;>
        obtain rfl := Option.some.inj stepped <;> exact fun _ => ⟨nofun, fun _ => nofun⟩
    · obtain rfl := Option.some.inj stepped
      exact fun _ => ⟨nofun, fun _ => nofun⟩
  | pairSlash purpose characters high =>
    simp only [Reader.step] at stepped
    split_ifs at stepped
    obtain rfl := Option.some.inj stepped
    exact fun _ => ⟨nofun, fun _ => nofun⟩
  | pairMark purpose characters high =>
    simp only [Reader.step] at stepped
    split_ifs at stepped
    obtain rfl := Option.some.inj stepped
    exact fun _ => ⟨nofun, fun _ => nofun⟩
  | firstKey =>
    simp only [Reader.step] at stepped
    split_ifs at stepped <;> obtain rfl := Option.some.inj stepped <;>
      exact fun _ => ⟨nofun, fun _ => nofun⟩
  | nextKey members =>
    simp only [Reader.step] at stepped
    split_ifs at stepped <;> obtain rfl := Option.some.inj stepped <;>
      exact fun _ => ⟨nofun, fun _ => nofun⟩
  | colon members key =>
    simp only [Reader.step] at stepped
    split_ifs at stepped <;> obtain rfl := Option.some.inj stepped
    · exact fun _ => ⟨nofun, fun _ => nofun⟩
    · exact .of_ne_nil (List.cons_ne_nil _ _)

theorem Inside.run {reader last : Reader} {text : List Char} (inside : reader.Inside)
    (ran : reader.run text = some last) : last.Inside := by
  induction text generalizing reader with
  | nil =>
    obtain rfl := Option.some.inj ran
    exact inside
  | cons character rest ih =>
    obtain ⟨next, stepped, ran⟩ := Option.bind_eq_some_iff.mp ran
    exact ih (inside.step stepped) ran

private theorem blank_of_run_after {value : Json} {text : List Char} {last : Reader}
    (ran : run ⟨.after value, []⟩ text = some last) :
    ∀ character ∈ text, isBlankChar character := by
  induction text with
  | nil => simp
  | cons character rest ih =>
    obtain ⟨next, stepped, ran⟩ := Option.bind_eq_some_iff.mp ran
    by_cases blank : isBlankChar character
    · simp only [step, stepAfter, blank, if_true, Option.some.injEq] at stepped
      subst stepped
      intro other among
      rcases List.mem_cons.mp among with rfl | later
      · exact blank
      · exact ih ran other later
    · simp [step, stepAfter, blank] at stepped

end Reader

/-- A cut text of an object is no document. -/
theorem decode_cut {members : List (String × Json)} (textual : (Json.object members).Textual)
    {before behind : List Char} (cut : (Json.object members).encode = before ++ behind)
    (nonempty : behind ≠ []) : decode before = none := by
  have read := Reader.reads_of_textual textual [] [] (.inr trivial)
  rw [List.append_nil, cut, Reader.run_append] at read
  obtain ⟨reader, ranBefore, ranBehind⟩ := Option.bind_eq_some_iff.mp read
  rw [decode, Reader.start, ranBefore, Option.bind_some]
  cases before with
  | nil =>
    obtain rfl := Option.some.inj ranBefore
    rfl
  | cons first rest =>
    have isBrace : first = '\x7b' := (List.cons.inj cut).1.symm
    subst isBrace
    have opened : Reader.Inside ⟨.firstKey, []⟩ := fun _ => ⟨nofun, fun _ => nofun⟩
    have inside : reader.Inside := opened.run ranBefore
    cases finished : reader.finish with
    | none => rfl
    | some value =>
      unfold Reader.finish at finished
      split at finished
      · rename_i complete
        have blank := Reader.blank_of_run_after ranBehind
        have lastBrace : behind.getLast nonempty = '\x7d' := by
          have last := congrArg List.getLast? cut
          rw [encode, List.getLast?_append_of_ne_nil _ nonempty, ← List.cons_append,
            List.getLast?_concat, List.getLast?_eq_some_getLast nonempty] at last
          exact (Option.some.inj last).symm
        have isBlank := blank _ (List.getLast_mem nonempty)
        rw [lastBrace] at isBlank
        cases isBlank
      · exact absurd rfl ((inside rfl).2 _)
      · cases finished

end Json

end Swarmind.Library
