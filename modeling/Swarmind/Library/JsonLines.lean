import Swarmind.Library.JsonReading
import Swarmind.Library.Python

/-!
Owns texts of one JSON document a line: `str.splitlines` and what it makes of
written documents. `json.dumps` with `ensure_ascii=False` escapes every line
boundary of `splitlines` but three, so that the lines of a written text are the
documents exactly when no string in them holds one of the three. Where one does,
its document is cut off and the reader refuses it.
-/

namespace Swarmind.Library

/-- The boundaries of `str.splitlines`. -/
def isLineBreak (character : Char) : Bool :=
  let code := character.toNat
  (10 ≤ code && code ≤ 13) || (28 ≤ code && code ≤ 30) || code == 0x85 || code == 0x2028 ||
    code == 0x2029

/-- The boundaries that `json.dumps` leaves as they are. -/
def isLooseBreak (character : Char) : Bool :=
  let code := character.toNat
  code == 0x85 || code == 0x2028 || code == 0x2029

/-- `splitlines` behind the characters of the current line, latest first. -/
def splitLinesFrom : List Char → List Char → List (List Char)
  | [], [] => []
  | current, [] => [current.reverse]
  | current, '\r' :: '\n' :: rest => current.reverse :: splitLinesFrom [] rest
  | current, character :: rest =>
    if isLineBreak character then current.reverse :: splitLinesFrom [] rest
    else splitLinesFrom (character :: current) rest

/-- `str.splitlines`. Reading in text mode turns `\r\n` and `\r` into `\n`, which
gives the same lines. -/
def splitLines (text : List Char) : List (List Char) := splitLinesFrom [] text

private theorem splitLinesFrom_cons (current : List Char) {character : Char} (rest : List Char)
    (notReturn : character ≠ '\r') :
    splitLinesFrom current (character :: rest) =
      if isLineBreak character then current.reverse :: splitLinesFrom [] rest
      else splitLinesFrom (character :: current) rest := by
  rw [splitLinesFrom]
  intro _ isReturn
  exact absurd isReturn notReturn

private theorem splitLines_break {line : List Char} {mark : Char} (rest : List Char)
    (plain : ∀ character ∈ line, isLineBreak character = false) (isBreak : isLineBreak mark)
    (notReturn : mark ≠ '\r') : splitLines (line ++ mark :: rest) = line :: splitLines rest := by
  have general (current : List Char) :
      splitLinesFrom current (line ++ mark :: rest) =
        (current.reverse ++ line) :: splitLinesFrom [] rest := by
    induction line generalizing current with
    | nil =>
      rw [List.nil_append, splitLinesFrom_cons current rest notReturn, if_pos isBreak,
        List.append_nil]
    | cons character later ih =>
      have plainHere := plain character (by simp)
      have notReturnHere : character ≠ '\r' := by
        rintro rfl
        cases plainHere
      rw [List.cons_append, splitLinesFrom_cons current _ notReturnHere,
        if_neg (by rw [plainHere]; decide),
        ih fun other among => plain other (by simp [among])]
      simp
  exact general []

namespace Json

mutual

/-- Every string and member name of the document. -/
def texts : Json → List String
  | .str text => [text]
  | .array items => itemTexts items
  | .object members => memberTexts members
  | _ => []

def itemTexts : List Json → List String
  | [] => []
  | item :: rest => item.texts ++ itemTexts rest

def memberTexts : List (String × Json) → List String
  | [] => []
  | (name, value) :: rest => name :: value.texts ++ memberTexts rest

end

/-- No string of the document holds a boundary that stays as it is. -/
def OneLine (json : Json) : Prop :=
  ∀ text ∈ json.texts, ∀ character ∈ text.toList, isLooseBreak character = false

/-! ### Boundaries in a written document -/

private theorem isLooseBreak_of_escapeChar {character other : Char}
    (among : other ∈ escapeChar character)
    (isBreak : isLineBreak other) : other = character ∧ isLooseBreak character := by
  have hexPlain (value : Nat) (small : value < 16) : isLineBreak (hexDigit value) = false := by
    revert value
    decide
  have plain {rest : List Char} (each : rest.all (!isLineBreak ·) = true)
      (member : other ∈ rest) : other = character ∧ isLooseBreak character := by
    have noBreak := List.all_eq_true.mp each other member
    rw [isBreak] at noBreak
    cases noBreak
  rw [escapeChar] at among
  split at among
  · exact plain rfl among
  split at among
  · exact plain rfl among
  split at among
  · exact plain rfl among
  split at among
  · exact plain rfl among
  split at among
  · exact plain rfl among
  split at among
  · exact plain rfl among
  split at among
  · exact plain rfl among
  split at among
  · rename_i isControl
    refine plain ?_ among
    simp only [List.all_cons, List.all_nil, hexPlain _ (show character.toNat / 16 < 16 by omega),
      hexPlain _ (show character.toNat % 16 < 16 by omega)]
    rfl
  · rename_i notControl
    obtain rfl := List.mem_singleton.mp among
    refine ⟨rfl, ?_⟩
    simp only [isLineBreak, isLooseBreak, Bool.or_eq_true, Bool.and_eq_true, decide_eq_true_eq,
      beq_iff_eq] at isBreak ⊢
    omega

variable {character : Char}

private theorem escapeChar_of_isLooseBreak (loose : isLooseBreak character) :
    character ∈ escapeChar character := by
  have atLeast : 0x80 ≤ character.toNat := by
    simp only [isLooseBreak, Bool.or_eq_true, beq_iff_eq] at loose
    omega
  have differs (other : Char) (small : other.toNat < 0x80) : character ≠ other := by
    rintro rfl
    omega
  have notFormFeed : character.toNat ≠ 0x0C := by omega
  have notBackspace : character.toNat ≠ 0x08 := by omega
  have notControl : ¬character.toNat < 0x20 := by omega
  simp [escapeChar, differs '"' (by decide), differs '\\' (by decide), differs '\n' (by decide),
    differs '\r' (by decide), differs '\t' (by decide), notFormFeed, notBackspace, notControl]

private theorem mem_quote_iff {text : String} (isBreak : isLineBreak character) :
    character ∈ quote text ↔ character ∈ text.toList ∧ isLooseBreak character := by
  have notQuote : character ≠ '"' := by
    rintro rfl
    cases isBreak
  rw [quote, List.mem_cons, List.mem_append, List.mem_singleton, List.mem_flatMap]
  constructor
  · rintro (same | ⟨original, among, escaped⟩ | same)
    · exact absurd same notQuote
    · obtain ⟨rfl, loose⟩ := isLooseBreak_of_escapeChar escaped isBreak
      exact ⟨among, loose⟩
    · exact absurd same notQuote
  · rintro ⟨among, loose⟩
    exact .inr (.inl ⟨character, among, escapeChar_of_isLooseBreak loose⟩)

private theorem mem_intercalate_iff {separator : List Char} {parts : List (List Char)}
    (notSeparator : character ∉ separator) :
    character ∈ separator.intercalate parts ↔ ∃ part ∈ parts, character ∈ part := by
  induction parts with
  | nil => simp
  | cons part rest ih =>
    cases rest with
    | nil => simp
    | cons next later =>
      rw [List.intercalate_cons_cons, List.mem_append, List.mem_append, ih]
      simp [notSeparator]

private theorem isLineBreak_of_isLooseBreak (loose : isLooseBreak character) :
    isLineBreak character := by
  simp only [isLineBreak, isLooseBreak, Bool.or_eq_true, Bool.and_eq_true, decide_eq_true_eq,
    beq_iff_eq] at loose ⊢
  omega

private theorem isLineBreak_of_isBareChar (bare : isBareChar character) :
    isLineBreak character = false := by
  have range : 43 ≤ character.toNat ∧ character.toNat < 128 := by
    change (((((decide (65 ≤ character.val ∧ character.val ≤ 90) ||
      (decide (97 ≤ character.val) && decide (character.val ≤ 122))) ||
      (decide (48 ≤ character.val) && decide (character.val ≤ 57))) ||
      decide (character = '-')) || decide (character = '+')) ||
      decide (character = '.')) = true at bare
    simp only [Bool.or_eq_true, Bool.and_eq_true, decide_eq_true_eq,
      UInt32.le_iff_toNat_le] at bare
    change (((((65 ≤ character.toNat ∧ character.toNat ≤ 90) ∨
      (97 ≤ character.toNat ∧ character.toNat ≤ 122)) ∨
      (48 ≤ character.toNat ∧ character.toNat ≤ 57)) ∨ character = '-') ∨ character = '+') ∨
      character = '.' at bare
    rcases bare with ((((upper | lower) | digit) | rfl) | rfl) | rfl
    · omega
    · omega
    · omega
    · decide
    · decide
    · decide
  simp only [isLineBreak, Bool.or_eq_false_iff, Bool.and_eq_false_iff, decide_eq_false_iff_not,
    beq_eq_false_iff_ne]
  omega

private theorem mem_itemTexts {items : List Json} {text : String} :
    text ∈ itemTexts items ↔ ∃ item ∈ items, text ∈ item.texts := by
  induction items with
  | nil => simp [itemTexts]
  | cons item rest ih => simp [itemTexts, ih]

variable {members : List (String × Json)}

theorem mem_memberTexts {text : String} :
    text ∈ memberTexts members ↔ ∃ entry ∈ members, text = entry.1 ∨ text ∈ entry.2.texts := by
  induction members with
  | nil => simp [memberTexts]
  | cons entry rest ih =>
    obtain ⟨name, value⟩ := entry
    simp [memberTexts, ih, or_assoc]

private theorem mem_encodeItems {items : List Json} {part : List Char} :
    part ∈ encodeItems items ↔ ∃ item ∈ items, part = item.encode := by
  induction items with
  | nil => simp [encodeItems]
  | cons item rest ih => simp [encodeItems, ih]

private theorem mem_encodeMembers {part : List Char} :
    part ∈ encodeMembers members ↔
      ∃ entry ∈ members, part = quote entry.1 ++ (": ".toList ++ entry.2.encode) := by
  induction members with
  | nil => simp [encodeMembers]
  | cons entry rest ih =>
    obtain ⟨name, value⟩ := entry
    simp [encodeMembers, ih]

private theorem mem_encode_iff {json : Json} (textual : json.Textual)
    (isBreak : isLineBreak character) :
    character ∈ json.encode ↔
      isLooseBreak character ∧ ∃ text ∈ json.texts, character ∈ text.toList := by
  have differs (other : Char) (plain : isLineBreak other = false) : character ≠ other := by
    rintro rfl
    rw [plain] at isBreak
    cases isBreak
  have notSeparator : character ∉ ", ".toList := by
    simp [differs ',' rfl, differs ' ' rfl]
  have notBare {json : Json} (bare : json.Bare) : character ∉ json.encode := fun among => by
    rw [isLineBreak_of_isBareChar (bare.2.1 character among)] at isBreak
    cases isBreak
  induction json using inductionOn with
  | null | bool _ | int _ | float _ =>
    exact iff_of_false (notBare (bare_of_not_closed textual id)) (by simp [texts])
  | str text => simp [encode, texts, mem_quote_iff isBreak, and_comm]
  | array items ih =>
    have each := (allTextual_iff items).mp textual
    have notOpen := differs '[' rfl
    have notClose := differs ']' rfl
    have parts : character ∈ ", ".toList.intercalate (encodeItems items) ↔
        ∃ item ∈ items, character ∈ item.encode := by
      rw [mem_intercalate_iff notSeparator]
      simp only [mem_encodeItems]
      constructor
      · rintro ⟨_, ⟨item, among, rfl⟩, member⟩
        exact ⟨item, among, member⟩
      · rintro ⟨item, among, member⟩
        exact ⟨_, ⟨item, among, rfl⟩, member⟩
    rw [encode, List.mem_cons, List.mem_append, List.mem_singleton, parts]
    simp only [notOpen, notClose, false_or, or_false, texts, mem_itemTexts]
    constructor
    · rintro ⟨item, among, member⟩
      obtain ⟨loose, text, inItem, inText⟩ :=
        (ih item among (each item among)).mp member
      exact ⟨loose, text, ⟨item, among, inItem⟩, inText⟩
    · rintro ⟨loose, text, ⟨item, among, inItem⟩, inText⟩
      exact ⟨item, among, (ih item among (each item among)).mpr
        ⟨loose, text, inItem, inText⟩⟩
  | object members ih =>
    have each := (membersTextual_iff members).mp textual
    have notOpen := differs '\x7b' rfl
    have notClose := differs '\x7d' rfl
    have notColon : character ∉ ": ".toList := by
      simp [differs ':' rfl, differs ' ' rfl]
    have parts : character ∈ ", ".toList.intercalate (encodeMembers members) ↔
        ∃ entry ∈ members, (character ∈ entry.1.toList ∧ isLooseBreak character) ∨
          character ∈ entry.2.encode := by
      rw [mem_intercalate_iff notSeparator]
      simp only [mem_encodeMembers]
      constructor
      · rintro ⟨_, ⟨entry, among, rfl⟩, member⟩
        simp only [List.mem_append, mem_quote_iff isBreak, notColon, false_or] at member
        exact ⟨entry, among, member⟩
      · rintro ⟨entry, among, member⟩
        refine ⟨_, ⟨entry, among, rfl⟩, ?_⟩
        simpa only [List.mem_append, mem_quote_iff isBreak, notColon, false_or] using member
    rw [encode, List.mem_cons, List.mem_append, List.mem_singleton, parts]
    simp only [notOpen, notClose, false_or, or_false, texts, mem_memberTexts]
    constructor
    · rintro ⟨entry, among, ⟨inName, loose⟩ | member⟩
      · exact ⟨loose, entry.1, ⟨entry, among, .inl rfl⟩, inName⟩
      · obtain ⟨loose, text, inValue, inText⟩ :=
          (ih entry among (each entry among)).mp member
        exact ⟨loose, text, ⟨entry, among, .inr inValue⟩, inText⟩
    · rintro ⟨loose, text, ⟨entry, among, rfl | inValue⟩, inText⟩
      · exact ⟨entry, among, .inl ⟨inText, loose⟩⟩
      · exact ⟨entry, among, .inr ((ih entry among (each entry among)).mpr
          ⟨loose, text, inValue, inText⟩)⟩

/-- A document is one line exactly when no character of its text breaks lines. -/
theorem oneLine_iff {json : Json} (textual : json.Textual) :
    json.OneLine ↔ ∀ character ∈ json.encode, isLineBreak character = false := by
  constructor
  · intro oneLine character among
    by_contra isBreak
    obtain ⟨loose, text, inTexts, inText⟩ :=
      (mem_encode_iff textual (by simpa using isBreak)).mp among
    rw [oneLine text inTexts character inText] at loose
    cases loose
  · intro plain text inTexts character inText
    by_contra loose
    have isLoose : isLooseBreak character := by simpa using loose
    have isBreak := isLineBreak_of_isLooseBreak isLoose
    have among := (mem_encode_iff textual isBreak).mpr ⟨isLoose, text, inTexts, inText⟩
    rw [plain character among] at isBreak
    cases isBreak

/-! ### One document a line -/

def lines (documents : List Json) : List Char :=
  documents.flatMap fun document => document.encode ++ ['\n']

/-- Documents that are one line each are split as they were joined. -/
theorem splitLines_lines {documents : List Json} (rest : List Char)
    (each : ∀ document ∈ documents, document.Textual ∧ document.OneLine) :
    splitLines (lines documents ++ rest) = documents.map encode ++ splitLines rest := by
  induction documents with
  | nil => rfl
  | cons document later ih =>
    obtain ⟨textual, oneLine⟩ := each document (by simp)
    have text : lines (document :: later) ++ rest =
        document.encode ++ '\n' :: (lines later ++ rest) := by simp [lines]
    rw [text, splitLines_break _ ((oneLine_iff textual).mp oneLine) rfl (by decide),
      ih fun other among => each other (by simp [among]), List.map_cons,
      List.cons_append]

private theorem exists_first_break {text : List Char} (among : character ∈ text)
    (isBreak : isLineBreak character) :
    ∃ line mark behind, text = line ++ mark :: behind ∧
      (∀ other ∈ line, isLineBreak other = false) ∧ isLineBreak mark := by
  induction text with
  | nil => cases among
  | cons first rest ih =>
    by_cases breaksHere : isLineBreak first
    · exact ⟨[], first, rest, rfl, by simp, breaksHere⟩
    · have later : character ∈ rest := by
        rcases List.mem_cons.mp among with rfl | later
        · exact absurd isBreak breaksHere
        · exact later
      obtain ⟨line, mark, behind, rfl, plain, breaks⟩ := ih later
      refine ⟨first :: line, mark, behind, rfl, ?_, breaks⟩
      intro other member
      rcases List.mem_cons.mp member with rfl | inLine
      · simpa using breaksHere
      · exact plain other inLine

private theorem exists_splitLines_of_not_oneLine (textual : (Json.object members).Textual)
    (broken : ¬(Json.object members).OneLine) (rest : List Char) :
    ∃ line more, splitLines ((Json.object members).encode ++ rest) = ('\x7b' :: line) :: more ∧
      decode ('\x7b' :: line) = none := by
  have found : ∃ character ∈ (Json.object members).encode, isLineBreak character := by
    by_contra plain
    refine broken ((oneLine_iff textual).mpr fun character among => ?_)
    by_contra isBreak
    exact plain ⟨character, among, by simpa using isBreak⟩
  obtain ⟨character, among, isBreak⟩ := found
  obtain ⟨line, mark, behind, text, plain, breaks⟩ := exists_first_break among isBreak
  have loose : isLooseBreak mark :=
    ((mem_encode_iff textual breaks).mp (by simp [text])).1
  have notReturn : mark ≠ '\r' := by
    rintro rfl
    cases loose
  have refused := decode_cut textual text (List.cons_ne_nil mark behind)
  cases line with
  | nil =>
    obtain rfl : '\x7b' = mark := (List.cons.inj text).1
    cases breaks
  | cons first later =>
    obtain rfl : '\x7b' = first := (List.cons.inj text).1
    refine ⟨later, splitLines (behind ++ rest), ?_, refused⟩
    have split := splitLines_break (behind ++ rest) plain breaks notReturn
    rw [text]
    simpa using split

end Json

/-! ### Journals -/

structure JournalReader (σ : Type) where
  corrupt : Nat → PyException
  ingest : Nat → σ → PyValue → Except PyException σ

namespace JournalReader

variable {σ : Type} (reader : JournalReader σ)

/-- The loop over the lines; blank lines are passed over. -/
def readLines : Nat → List (List Char) → σ → Except PyException σ
  | _, [], state => .ok state
  | number, line :: rest, state =>
    if line.all isSpace then readLines (number + 1) rest state
    else
      match Json.decode line with
      | none => .error (reader.corrupt number)
      | some json => (reader.ingest number state json.loads).bind (readLines (number + 1) rest)

def load (start : σ) (text : List Char) : Except PyException σ :=
  reader.readLines 1 (splitLines text) start

/-- The documents one after the other. -/
def ingestAll : Nat → List Json → σ → Except PyException σ
  | _, [], state => .ok state
  | number, document :: rest, state =>
    (reader.ingest number state document.loads).bind (ingestAll (number + 1) rest)

theorem ingestAll_append (number : Nat) (first second : List Json) (state : σ) :
    reader.ingestAll number (first ++ second) state =
      (reader.ingestAll number first state).bind
        (reader.ingestAll (number + first.length) second) := by
  induction first generalizing number state with
  | nil => rfl
  | cons document rest ih =>
    rw [List.cons_append, ingestAll, ingestAll, List.length_cons, Nat.add_comm rest.length,
      ← Nat.add_assoc]
    cases reader.ingest number state document.loads with
    | error raised => rfl
    | ok next => exact ih (number + 1) next

end JournalReader

namespace Json

/-- A document as journals hold them. -/
def IsRecord (document : Json) : Prop :=
  document.Textual ∧ ∃ members, document = .object members

private theorem IsRecord.encode_not_blank {document : Json} (isRecord : document.IsRecord) :
    document.encode.all isSpace = false := by
  obtain ⟨_, members, rfl⟩ := isRecord
  rfl

theorem lines_append (first second : List Json) :
    lines (first ++ second) = lines first ++ lines second := by
  rw [lines, lines, lines, List.flatMap_append]

end Json

namespace JournalReader

variable {σ : Type} (reader : JournalReader σ)

variable {documents : List Json}

/-- The lines are read as the documents that they were written from. -/
theorem readLines_encode (each : ∀ document ∈ documents, document.IsRecord)
    (number : Nat) (more : List (List Char)) (state : σ) :
    reader.readLines number (documents.map Json.encode ++ more) state =
      (reader.ingestAll number documents state).bind
        (reader.readLines (number + documents.length) more) := by
  induction documents generalizing number state with
  | nil => rfl
  | cons document rest ih =>
    have isRecord := each document List.mem_cons_self
    rw [List.map_cons, List.cons_append, readLines, if_neg (by simp [isRecord.encode_not_blank]),
      Json.decode_encode isRecord.1, ingestAll, List.length_cons, Nat.add_comm rest.length,
      ← Nat.add_assoc]
    dsimp only
    cases reader.ingest number state document.loads with
    | error raised => rfl
    | ok next =>
      exact ih (fun other among => each other (List.mem_cons_of_mem _ among))
        (number + 1) next

/-- Every line that a reader got through, blank ones apart, is a document it ingested. -/
theorem ingested_of_readLines {number : Nat} {lines : List (List Char)} {state result : σ}
    (went : reader.readLines number lines state = .ok result) :
    ∀ line ∈ lines, line.all isSpace = false → ∃ json position before after,
      Json.decode line = some json ∧ reader.ingest position before json.loads = .ok after := by
  induction lines generalizing number state with
  | nil => exact fun _ among => absurd among List.not_mem_nil
  | cons head rest ih =>
    rw [readLines] at went
    rw [List.forall_mem_cons]
    split_ifs at went with blank
    · exact ⟨fun notBlank => absurd (blank.symm.trans notBlank) (by decide),
        ih went⟩
    · cases decoded : Json.decode head with
      | none =>
        rw [decoded] at went
        cases went
      | some json =>
        rw [decoded] at went
        obtain ⟨next, ingested, later⟩ := ok_of_bind went
        exact ⟨fun _ => ⟨json, number, state, next, rfl, ingested⟩, ih later⟩

/-- A journal of records on one line each is ingested record by record. -/
theorem load_lines (each : ∀ document ∈ documents, document.IsRecord)
    (oneLine : ∀ document ∈ documents, document.OneLine) (start : σ) :
    reader.load start (Json.lines documents) = reader.ingestAll 1 documents start := by
  have split := Json.splitLines_lines [] fun document among =>
    ⟨(each document among).1, oneLine document among⟩
  rw [List.append_nil] at split
  rw [load, split, show splitLines [] = [] from rfl, reader.readLines_encode each]
  cases reader.ingestAll 1 documents start <;> rfl

private theorem exists_first_not_oneLine (broken : ¬∀ document ∈ documents, document.OneLine) :
    ∃ first bad rest, documents = first ++ bad :: rest ∧
      (∀ document ∈ first, document.OneLine) ∧ ¬bad.OneLine := by
  induction documents with
  | nil => exact absurd (fun _ among => absurd among List.not_mem_nil) broken
  | cons document later ih =>
    by_cases here : document.OneLine
    · have brokenLater : ¬∀ other ∈ later, other.OneLine := fun fine =>
        broken (List.forall_mem_cons.mpr ⟨here, fine⟩)
      obtain ⟨first, bad, rest, rfl, good, isBad⟩ := ih brokenLater
      exact ⟨document :: first, bad, rest, rfl, List.forall_mem_cons.mpr ⟨here, good⟩, isBad⟩
    · exact ⟨[], document, later, rfl, fun _ among => absurd among List.not_mem_nil, here⟩

theorem oneLine_of_load {start result : σ} (each : ∀ document ∈ documents, document.IsRecord)
    (loaded : reader.load start (Json.lines documents) = .ok result) :
    ∀ document ∈ documents, document.OneLine := by
  by_contra broken
  obtain ⟨first, bad, rest, rfl, good, isBad⟩ := exists_first_not_oneLine broken
  obtain ⟨textual, members, rfl⟩ := each bad (by simp)
  have text : Json.lines (first ++ .object members :: rest) =
      Json.lines first ++ ((Json.object members).encode ++ '\n' :: Json.lines rest) := by
    simp [Json.lines]
  obtain ⟨line, more, cut, refused⟩ :=
    Json.exists_splitLines_of_not_oneLine textual isBad ('\n' :: Json.lines rest)
  have split := Json.splitLines_lines
    ((Json.object members).encode ++ '\n' :: Json.lines rest) fun document among =>
      ⟨(each document (List.mem_append_left _ among)).1, good document among⟩
  rw [load, text, split, cut, reader.readLines_encode fun document among =>
    each document (List.mem_append_left _ among)] at loaded
  obtain ⟨state, _, stopped⟩ := ok_of_bind loaded
  have notBlank : ('\x7b' :: line).all isSpace = false := rfl
  rw [readLines, if_neg (by rw [notBlank]; decide), refused] at stopped
  cases stopped

/-- A journal of records loads exactly when the records are on one line each and the
fold over them goes through. -/
theorem load_lines_ok_iff (each : ∀ document ∈ documents, document.IsRecord) (start result : σ) :
    reader.load start (Json.lines documents) = .ok result ↔
      (∀ document ∈ documents, document.OneLine) ∧
        reader.ingestAll 1 documents start = .ok result := by
  constructor
  · intro loaded
    have oneLine := reader.oneLine_of_load each loaded
    exact ⟨oneLine, by rw [← reader.load_lines each oneLine, loaded]⟩
  · rintro ⟨oneLine, ingested⟩
    rw [reader.load_lines each oneLine, ingested]

/-- One more document is read exactly when it is one line and is accepted. -/
theorem load_append_ok_iff {document : Json} (each : ∀ document ∈ documents, document.IsRecord)
    (isRecord : document.IsRecord) {start state : σ}
    (loaded : reader.load start (Json.lines documents) = .ok state) (result : σ) :
    reader.load start (Json.lines documents ++ Json.lines [document]) = .ok result ↔
      document.OneLine ∧
        reader.ingest (1 + documents.length) state document.loads = .ok result := by
  obtain ⟨oneLine, ingested⟩ := (reader.load_lines_ok_iff each start state).mp loaded
  have eachNext : ∀ other ∈ documents ++ [document], other.IsRecord :=
    List.forall_mem_append.mpr ⟨each, List.forall_mem_singleton.mpr isRecord⟩
  have last : reader.ingestAll (1 + documents.length) [document] state =
      reader.ingest (1 + documents.length) state document.loads := by
    rw [ingestAll]
    cases reader.ingest (1 + documents.length) state document.loads <;> rfl
  rw [← Json.lines_append, reader.load_lines_ok_iff eachNext, List.forall_mem_append,
    List.forall_mem_singleton, and_iff_right oneLine, reader.ingestAll_append, ingested]
  exact and_congr_right fun _ => by rw [Except.bind, last]

end JournalReader

end Swarmind.Library
