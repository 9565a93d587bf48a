import Swarmind.Library.JsonReading

/-!
Owns documents written without blanks, as `json.dumps` with the separators `,` and `:`
writes them. The reader gives back what has been written, so that two documents are
written alike only if they are one.
-/

namespace Swarmind.Library

namespace Json

mutual

/-- `json.dumps(.., ensure_ascii=False, separators=(",", ":"))`. -/
def compact : Json → List Char
  | .array items => '[' :: ([','].intercalate (compactItems items) ++ [']'])
  | .object members => '\x7b' :: ([','].intercalate (compactMembers members) ++ ['\x7d'])
  | json => json.encode

def compactItems : List Json → List (List Char)
  | [] => []
  | item :: rest => item.compact :: compactItems rest

def compactMembers : List (String × Json) → List (List Char)
  | [] => []
  | (name, member) :: rest => (quote name ++ ':' :: member.compact) :: compactMembers rest

end

private theorem compact_of_not_closed {json : Json} (isOpen : ¬json.Closed) :
    json.compact = json.encode := by
  cases json with
  | null | bool _ | int _ | float _ | str _ => rfl
  | array _ | object _ => exact absurd trivial isOpen

namespace Reader

private theorem run_compactName (members : List (String × Json)) (name : String)
    (stack : List Frame)
    (rest : List Char) :
    run ⟨.nextKey members, stack⟩ (quote name ++ ':' :: rest) =
      run ⟨.value, .object members name :: stack⟩ rest := by
  simp [quote, step, run_text, endText, isBlankChar]

/-- What it takes to read a value written without blanks. -/
def ReadsCompact (json : Json) : Prop :=
  ∀ stack rest, Stops rest ∨ json.Closed →
    run ⟨.value, stack⟩ (json.compact ++ rest) = run ⟨.after json, stack⟩ rest

private theorem exists_compact_eq_cons {json : Json} (textual : json.Textual) :
    ∃ first later, json.compact = first :: later ∧ isBlankChar first = false ∧ first ≠ ']' := by
  cases json with
  | array items => exact ⟨_, _, rfl, rfl, by decide⟩
  | object members => exact ⟨_, _, rfl, rfl, by decide⟩
  | null | bool _ | int _ | float _ | str _ => exact exists_encode_eq_cons textual

private theorem run_compactFirstItem {json : Json} (textual : json.Textual) (stack : List Frame)
    (rest : List Char) :
    run ⟨.firstItem, stack⟩ (json.compact ++ rest) =
      run ⟨.value, .array [] :: stack⟩ (json.compact ++ rest) := by
  obtain ⟨first, later, text, notBlank, notClose⟩ := exists_compact_eq_cons textual
  simp [text, step, notBlank, notClose]

private theorem run_compactItems (item : Json) {items : List Json}
    (each : ∀ other ∈ item :: items, ReadsCompact other) (done : List Json) (stack : List Frame)
    (rest : List Char) :
    run ⟨.value, .array done :: stack⟩
        ([','].intercalate (compactItems (item :: items)) ++ ']' :: rest) =
      run ⟨.after (.array (done.reverse ++ item :: items)), stack⟩ rest := by
  induction items generalizing item done with
  | nil =>
    have read := each item (by simp) (.array done :: stack) (']' :: rest)
      (.inl ⟨']', rest, rfl, rfl⟩)
    simp only [compactItems, List.intercalate_singleton, read, run_cons]
    simp [step, stepAfter, isBlankChar]
  | cons next later ih =>
    have read := each item (by simp) (.array done :: stack)
      ([','] ++ ([','].intercalate (compactItems (next :: later)) ++ ']' :: rest))
      (.inl ⟨',', _, rfl, rfl⟩)
    have more := ih next
      (fun other among => each other (by simp [among])) (item :: done)
    rw [compactItems, compactItems, List.intercalate_cons_cons, ← compactItems,
      List.append_assoc, List.append_assoc, read]
    simpa [step, stepAfter, isBlankChar] using more

private theorem run_compactMembers (entry : String × Json) {members : List (String × Json)}
    (each : ∀ other ∈ entry :: members, ReadsCompact other.2) (done : List (String × Json))
    (stack : List Frame) (rest : List Char) :
    run ⟨.nextKey done, stack⟩
        ([','].intercalate (compactMembers (entry :: members)) ++ '\x7d' :: rest) =
      run ⟨.after (.object (done.reverse ++ entry :: members)), stack⟩ rest := by
  induction members generalizing entry done with
  | nil =>
    obtain ⟨name, value⟩ := entry
    have read := each (name, value) (by simp) (.object done name :: stack) ('\x7d' :: rest)
      (.inl ⟨'\x7d', rest, rfl, rfl⟩)
    simp only [compactMembers, List.intercalate_singleton, List.append_assoc, List.cons_append,
      run_compactName, read, run_cons]
    simp [step, stepAfter, isBlankChar]
  | cons next later ih =>
    obtain ⟨name, value⟩ := entry
    obtain ⟨nextName, nextValue⟩ := next
    have read := each (name, value) (by simp) (.object done name :: stack)
      (',' :: ([','].intercalate (compactMembers ((nextName, nextValue) :: later)) ++
        '\x7d' :: rest))
      (.inl ⟨',', _, rfl, rfl⟩)
    have more := ih (nextName, nextValue)
      (fun other among => each other (by simp [among])) ((name, value) :: done)
    rw [compactMembers, compactMembers, List.intercalate_cons_cons, ← compactMembers]
    simp only [List.append_assoc, List.cons_append, List.nil_append, run_compactName]
    rw [read]
    simpa [step, stepAfter, isBlankChar] using more

private theorem readsCompact_of_textual {json : Json} (textual : json.Textual) :
    ReadsCompact json := by
  induction json using inductionOn with
  | null | bool _ | int _ | float _ | str _ => exact reads_of_textual textual
  | array items ih =>
    intro stack rest _
    have each := (allTextual_iff items).mp textual
    cases items with
    | nil => rfl
    | cons item later =>
      have read := run_compactItems item (fun other among => ih other among
        (each other among)) [] stack rest
      obtain ⟨behind, text⟩ := exists_intercalate_eq [','] item.compact
        (compactItems later) (']' :: rest)
      rw [compactItems, text, ← run_compactFirstItem (each item (by simp)), ← text,
        ← compactItems] at read
      simpa [compact, step, stepValue, isBlankChar] using read
  | object members ih =>
    intro stack rest _
    have each := (membersTextual_iff members).mp textual
    cases members with
    | nil => rfl
    | cons entry later =>
      obtain ⟨name, value⟩ := entry
      have read := run_compactMembers (name, value) (fun other among =>
        ih other among (each other among)) [] stack rest
      obtain ⟨behind, text⟩ := exists_intercalate_eq [',']
        (quote name ++ ':' :: value.compact) (compactMembers later) ('\x7d' :: rest)
      rw [compactMembers, text, List.append_assoc, ← run_firstKey, ← List.append_assoc, ← text,
        ← compactMembers] at read
      simpa [compact, step, stepValue, isBlankChar] using read

end Reader

/-- A compact text is read back. -/
theorem decode_compact {json : Json} (textual : json.Textual) :
    decode json.compact = some json := by
  by_cases closed : json.Closed
  · have read := Reader.readsCompact_of_textual textual [] [] (.inr closed)
    rw [List.append_nil] at read
    rw [decode, Reader.start, read]
    rfl
  · rw [compact_of_not_closed closed, decode_encode textual]

theorem compact_injective {left right : Json} (leftTextual : left.Textual)
    (rightTextual : right.Textual) (same : left.compact = right.compact) : left = right := by
  have read := decode_compact leftTextual
  rw [same, decode_compact rightTextual] at read
  exact (Option.some.inj read).symm

end Json

end Swarmind.Library
