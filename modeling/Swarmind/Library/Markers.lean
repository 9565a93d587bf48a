import Swarmind.Library.PyText
import Mathlib.Data.List.Infix

/-!
Owns the search for a marker in the text that Python makes of a dictionary. The
text is folded character by character first, as `str.lower` folds it.

A marker without commas and braces that does not start with a blank stands within
the text of one member, so writing one member leaves what the others show.
-/

namespace Swarmind.Library

section Infix

variable {α : Type*} {part left right : List α} {mark : α}

private theorem infix_append_cons_iff (absent : mark ∉ part) :
    part <:+: left ++ mark :: right ↔ part <:+: left ∨ part <:+: right := by
  constructor
  · intro held
    rcases List.infix_append_iff.mp held with inLeft | inRight | ⟨first, second, rfl, ends, starts⟩
    · exact .inl inLeft
    · rcases List.infix_cons_iff.mp inRight with atMark | inRight
      · rcases List.prefix_cons_iff.mp atMark with rfl | ⟨rest, rfl, -⟩
        · exact .inl List.nil_infix
        · exact absurd List.mem_cons_self absent
      · exact .inr inRight
    · rcases List.prefix_cons_iff.mp starts with rfl | ⟨rest, rfl, -⟩
      · rw [List.append_nil]
        exact .inl ends.isInfix
      · exact absurd (List.mem_append_right _ List.mem_cons_self) absent
  · rintro (inLeft | inRight)
    · exact List.infix_append_of_infix_left inLeft
    · exact List.infix_append_of_infix_right (List.infix_cons inRight)

private theorem infix_cons_iff_of_head (nonempty : part ≠ []) (other : part.head? ≠ some mark) :
    part <:+: mark :: right ↔ part <:+: right := by
  rw [List.infix_cons_iff]
  refine or_iff_right fun atMark => ?_
  rcases List.prefix_cons_iff.mp atMark with rfl | ⟨rest, rfl, -⟩
  · exact nonempty rfl
  · exact other rfl

theorem infix_map_iff {f : α → α} (only : ∀ mark ∈ part, ∀ other, f other = mark ↔ other = mark)
    {whole : List α} : part <:+: whole.map f ↔ part <:+: whole := by
  have fixed : part.map f = part := by
    conv_rhs => rw [← List.map_id part]
    exact List.map_congr_left fun mark held => (only mark held mark).mpr rfl
  constructor
  · rintro ⟨before, after, split⟩
    obtain ⟨upTo, last, rfl, splitFirst, -⟩ := List.map_eq_append_iff.mp split.symm
    obtain ⟨first, middle, rfl, -, image⟩ := List.map_eq_append_iff.mp splitFirst
    have same : middle = part := by
      clear split splitFirst fixed
      induction middle generalizing part with
      | nil => exact image
      | cons head rest ih =>
        subst image
        rw [List.map_cons, List.forall_mem_cons] at only
        rw [List.map_cons, ← ih only.2 rfl, ← (only.1 head).mp rfl]
    exact ⟨first, last, by rw [same]⟩
  · intro held
    have mapped := held.map f
    rwa [fixed] at mapped

end Infix

/-! ### Folded texts -/

/-- The text with every character folded. -/
def folded (fold : Char → List Char) (text : String) : List Char := text.toList.flatMap fold

section Folded

variable {fold : Char → List Char}

/-- Folding is compositional. -/
theorem folded_append (first second : String) :
    folded fold (first ++ second) = folded fold first ++ folded fold second := by
  rw [folded, String.toList_append, List.flatMap_append]
  rfl

theorem not_infix_folded {marker : List Char} {text : String} (plain : List Char)
    (chars : ∀ mark ∈ text.toList, ∀ image ∈ fold mark, image ∈ plain)
    (other : ∃ mark ∈ marker, mark ∉ plain) : ¬marker <:+: folded fold text := by
  intro held
  obtain ⟨mark, inMarker, absent⟩ := other
  obtain ⟨source, inText, image⟩ := List.mem_flatMap.mp (held.subset inMarker)
  exact absent (chars source inText mark image)

def memberText (member : PyKey × PyValue) : String := member.1.repr ++ ": " ++ member.2.repr

theorem mem_pyRepr {mark : Char} {text : String} (held : mark ∈ (pyRepr text).toList) :
    mark ∈ text.toList ∨ mark ∈ ['\'', '"', '\\', 'n', 'r', 't'] := by
  unfold pyRepr at held
  simp only [String.toList_ofList, List.cons_append, List.mem_cons, List.mem_append,
    List.mem_flatMap, List.not_mem_nil, or_false] at held
  have quoted (condition : Bool) : mark = (if condition = true then '"' else '\'') →
      mark ∈ ['\'', '"', '\\', 'n', 'r', 't'] := by
    rintro rfl
    cases condition <;> simp
  rcases held with opening | ⟨source, inText, escaped⟩ | closing
  · exact .inr (quoted _ opening)
  · split_ifs at escaped with special newline returned tab
    · rcases List.mem_cons.mp escaped with rfl | same
      · simp
      · rw [List.mem_singleton.mp same]
        exact .inl inText
    all_goals
      simp only [List.mem_cons, List.not_mem_nil, or_false] at escaped
      rcases escaped with rfl | rfl <;> simp [inText]
  · exact .inr (quoted _ closing)

private theorem reprMembers_eq (members : List (PyKey × PyValue)) :
    PyValue.reprMembers members = members.map memberText := by
  induction members with
  | nil => rfl
  | cons member rest ih =>
    obtain ⟨key, value⟩ := member
    rw [PyValue.reprMembers, ih]
    rfl

/-- A marker that does not reach beyond one member, under a folding that keeps what
stands between members. -/
structure Within (fold : Char → List Char) (marker : List Char) : Prop where
  nonempty : marker ≠ []
  head : marker.head? ≠ some ' '
  comma : ',' ∉ marker
  opening : '\x7b' ∉ marker
  closing : '\x7d' ∉ marker
  keeps : ∀ mark ∈ [',', ' ', '\x7b', '\x7d'], fold mark = [mark]

private theorem infix_intercalate_iff {marker : List Char} (within : Within fold marker)
    (parts : List String) :
    marker <:+: folded fold (", ".intercalate parts) ↔
      ∃ part ∈ parts, marker <:+: folded fold part := by
  have comma : fold ',' = [','] := within.keeps ',' (by simp)
  have blank : fold ' ' = [' '] := within.keeps ' ' (by simp)
  have separator : folded fold ", " = [',', ' '] := by
    simp [folded, comma, blank]
  induction parts with
  | nil => simp [folded, within.nonempty]
  | cons first rest ih =>
    cases rest with
    | nil => simp
    | cons second later =>
      rw [String.intercalate_cons_cons, folded_append, folded_append, separator,
        List.append_assoc, List.cons_append, infix_append_cons_iff within.comma,
        List.cons_append, List.nil_append, infix_cons_iff_of_head within.nonempty within.head,
        List.exists_mem_cons_iff]
      exact or_congr_right ih

/-- A marker stands in the text of a dictionary exactly when it stands in the text of
one of the members. -/
theorem infix_dict_iff {marker : List Char} (within : Within fold marker)
    (members : List (PyKey × PyValue)) :
    marker <:+: folded fold (PyValue.dict members).text ↔
      ∃ member ∈ members, marker <:+: folded fold (memberText member) := by
  have opening : folded fold "\x7b" = ['\x7b'] := by
    simp [folded, within.keeps '\x7b' (by simp)]
  have closing : folded fold "\x7d" = ['\x7d'] := by
    simp [folded, within.keeps '\x7d' (by simp)]
  have text : (PyValue.dict members).text = (PyValue.dict members).repr := rfl
  rw [text, PyValue.repr, folded_append, folded_append, opening, closing, reprMembers_eq,
    List.append_assoc, List.cons_append, List.nil_append]
  rw [← List.nil_append ('\x7b' :: _), infix_append_cons_iff within.opening,
    infix_append_cons_iff within.closing, infix_intercalate_iff within]
  simp [within.nonempty]

end Folded

end Swarmind.Library
