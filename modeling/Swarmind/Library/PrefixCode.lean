import Mathlib.Data.List.Infix

/-!
Owns prefix codes and the written form of terms over them. A code is a prefix
code when no text starts with the words of two letters, so that words written
one after another are told apart without a length or a mark between them.

A term is written as the head of its key, its children with a separator
between them, and a tail that carries its note. Where the key fixes how many
children follow, heads and tails being prefix codes makes the whole text one:
a written term determines the term, even in front of other text.

Unary code points are such words. They give an injective function into hexadecimal
texts that has a given value at one text: what stands for a digest where only the
digest of that text is known.
-/

namespace Swarmind.Library

universe u v w

section

variable {α : Type u} {σ : Type v}

/-- No text starts with the words of two letters. -/
def PrefixCode (code : α → List σ) : Prop :=
  ∀ left right s t, code left ++ s = code right ++ t → left = right

namespace PrefixCode

theorem of_prefix {code : α → List σ}
    (apart : ∀ left right, code left <+: code right → left = right) : PrefixCode code := by
  intro left right s t same
  have leftPrefix : code left <+: code right ++ t := ⟨s, same⟩
  rcases List.prefix_or_prefix_of_prefix leftPrefix (List.prefix_append _ _) with
    within | around
  · exact apart left right within
  · exact (apart right left around).symm

theorem cancel {code : α → List σ} (prefixCode : PrefixCode code) {left right : α}
    {s t : List σ} (same : code left ++ s = code right ++ t) : left = right ∧ s = t := by
  obtain rfl := prefixCode left right s t same
  exact ⟨rfl, List.append_cancel_left same⟩

end PrefixCode

theorem stopped_cancel {stop : σ} {left right s t : List σ} (leftFree : stop ∉ left)
    (rightFree : stop ∉ right) (same : left ++ stop :: s = right ++ stop :: t) :
    left = right ∧ s = t := by
  induction left generalizing right with
  | nil =>
    cases right with
    | nil => exact ⟨rfl, by simpa using same⟩
    | cons head rest =>
      have stopped : stop = head := by simpa using congrArg List.head? same
      exact absurd (by simp [stopped]) rightFree
  | cons head rest ih =>
    cases right with
    | nil =>
      have stopped : head = stop := by simpa using congrArg List.head? same
      exact absurd (by simp [stopped]) leftFree
    | cons other later =>
      rw [List.cons_append, List.cons_append, List.cons.injEq] at same
      obtain ⟨sameRest, sameTail⟩ := ih
        (fun member => leftFree (List.mem_cons_of_mem _ member))
        (fun member => rightFree (List.mem_cons_of_mem _ member)) same.2
      exact ⟨by rw [same.1, sameRest], sameTail⟩

/-! ### Terms -/

/-- A node with a key, a note and its children. -/
inductive Term (κ : Type u) (ω : Type v) where
  | node (key : κ) (note : ω) (children : List (Term κ ω))

/-- How terms are written down. `admits` says which notes a key may carry. -/
structure Layout (κ : Type u) (ω : Type v) (σ : Type w) where
  head : κ → List σ
  arity : κ → Nat
  separator : List σ
  tail : κ → ω → List σ
  admits : κ → ω → Prop
  heads : PrefixCode head
  tails : ∀ key left right s t, admits key left → admits key right →
    tail key left ++ s = tail key right ++ t → left = right

namespace Term

variable {κ : Type u} {ω : Type v} {σ : Type w} (layout : Layout κ ω σ)

mutual

def render : Term κ ω → List σ
  | .node key note children =>
    layout.head key ++
      (layout.separator.intercalate (renderAll children) ++ layout.tail key note)

def renderAll : List (Term κ ω) → List (List σ)
  | [] => []
  | child :: rest => child.render :: renderAll rest

end

mutual

/-- Every node has the children its key asks for and a note its key admits. -/
def WellFormed : Term κ ω → Prop
  | .node key note children =>
    children.length = layout.arity key ∧ layout.admits key note ∧ AllWellFormed children

def AllWellFormed : List (Term κ ω) → Prop
  | [] => True
  | child :: rest => child.WellFormed ∧ AllWellFormed rest

end

private theorem intercalate_cons_append (child : List σ) (rest : List (List σ)) (s : List σ) :
    layout.separator.intercalate (child :: rest) ++ s =
      child ++ (if rest = [] then s
        else layout.separator ++ (layout.separator.intercalate rest ++ s)) := by
  cases rest with
  | nil => simp
  | cons next later => simp [List.intercalate_cons_cons]

private theorem renderAll_eq_nil_iff (children : List (Term κ ω)) :
    renderAll layout children = [] ↔ children = [] := by
  cases children with
  | nil => simp [renderAll]
  | cons child rest => simp [renderAll]

mutual

private theorem render_cancel {s t : List σ} : ∀ {left right : Term κ ω},
    left.WellFormed layout → right.WellFormed layout →
    left.render layout ++ s = right.render layout ++ t → left = right ∧ s = t
  | .node leftKey leftNote leftChildren, .node rightKey rightNote rightChildren => by
    intro leftFormed rightFormed same
    rw [WellFormed] at leftFormed rightFormed
    simp only [render, List.append_assoc] at same
    obtain ⟨rfl, sameRest⟩ := layout.heads.cancel same
    obtain ⟨rfl, sameTail⟩ := renderAll_cancel leftFormed.2.2 rightFormed.2.2
      (leftFormed.1.trans rightFormed.1.symm) sameRest
    obtain rfl := layout.tails leftKey leftNote rightNote s t leftFormed.2.1 rightFormed.2.1
      sameTail
    exact ⟨rfl, List.append_cancel_left sameTail⟩

private theorem renderAll_cancel {s t : List σ} : ∀ {left right : List (Term κ ω)},
    AllWellFormed layout left → AllWellFormed layout right → left.length = right.length →
    layout.separator.intercalate (renderAll layout left) ++ s =
      layout.separator.intercalate (renderAll layout right) ++ t → left = right ∧ s = t
  | [], [] => fun _ _ _ same => ⟨rfl, by simpa [renderAll] using same⟩
  | [], _ :: _ => fun _ _ sameLength => by simp at sameLength
  | _ :: _, [] => fun _ _ sameLength => by simp at sameLength
  | child :: rest, other :: later => by
    intro leftFormed rightFormed sameLength same
    rw [AllWellFormed] at leftFormed rightFormed
    simp only [renderAll, intercalate_cons_append] at same
    obtain ⟨rfl, sameRest⟩ := render_cancel leftFormed.1 rightFormed.1 same
    have sameLater : rest.length = later.length := by simpa using sameLength
    by_cases last : rest = []
    · obtain rfl := last
      obtain rfl : later = [] := List.eq_nil_of_length_eq_zero sameLater.symm
      exact ⟨rfl, by simpa [renderAll] using sameRest⟩
    · have lastToo : later ≠ [] := by
        intro none
        exact last (List.eq_nil_of_length_eq_zero (by rw [sameLater, none, List.length_nil]))
      rw [if_neg (by rwa [renderAll_eq_nil_iff]), if_neg (by rwa [renderAll_eq_nil_iff])]
        at sameRest
      obtain ⟨rfl, sameTail⟩ := renderAll_cancel leftFormed.2 rightFormed.2 sameLater
        (List.append_cancel_left sameRest)
      exact ⟨rfl, sameTail⟩

end

/-- A rendered term can be told from every other. -/
theorem render_injective {left right : Term κ ω} (leftFormed : left.WellFormed layout)
    (rightFormed : right.WellFormed layout) (same : left.render layout = right.render layout) :
    left = right :=
  (render_cancel layout (s := []) (t := []) leftFormed rightFormed (by rw [same])).1

end Term

end

/-! ### Digests -/

def unary : List Char → List Char
  | [] => []
  | first :: rest => List.replicate first.toNat 'a' ++ 'b' :: unary rest

private theorem unary_injective : ∀
    {left right : List Char}, unary left = unary right → left = right
  | [], [], _ => rfl
  | [], _ :: _, same => absurd same.symm (by simp [unary])
  | _ :: _, [], same => absurd same (by simp [unary])
  | first :: rest, other :: later, same => by
    have digit {count : Nat} : 'b' ∉ List.replicate count 'a' := fun held =>
      absurd (List.eq_of_mem_replicate held) (by decide)
    obtain ⟨lengths, rests⟩ := stopped_cancel digit digit same
    have codes : first.toNat = other.toNat := by
      simpa using congrArg List.length lengths
    rw [unary_injective rests, Char.ext (UInt32.toNat_inj.mp codes)]

private theorem mem_unary {characters : List Char} {digit : Char}
    (held : digit ∈ unary characters) :
    digit = 'a' ∨ digit = 'b' := by
  induction characters with
  | nil => exact absurd held List.not_mem_nil
  | cons first rest ih =>
    rcases List.mem_append.mp held with letter | stop
    · exact .inl (List.eq_of_mem_replicate letter)
    · rcases List.mem_cons.mp stop with rfl | later
      · exact .inr rfl
      · exact ih later

/-- The digest of one text, and what tells the others apart. -/
def digestAt (known digest text : String) : String :=
  if text = known then digest else String.ofList ('0' :: unary text.toList)

/-- The sample digest has no collisions. -/
theorem digestAt_injective {known digest : String} (first : digest.toList.head? ≠ some '0')
    {left right : String} (same : digestAt known digest left = digestAt known digest right) :
    left = right := by
  unfold digestAt at same
  split_ifs at same with leftKnown rightKnown rightKnown
  · rw [leftKnown, rightKnown]
  · exact absurd (by rw [same]; simp) first
  · exact absurd (by rw [← same]; simp) first
  · have codes := String.ofList_injective same
    exact String.toList_inj.mp (unary_injective (List.cons.inj codes).2)

theorem mem_digestAt {known digest text : String}
    (hexadecimal : ∀ digit ∈ digest.toList, digit ∈ "0123456789abcdef".toList) :
    ∀ digit ∈ (digestAt known digest text).toList, digit ∈ "0123456789abcdef".toList := by
  unfold digestAt
  split_ifs
  · exact hexadecimal
  · rw [String.toList_ofList, List.forall_mem_cons]
    refine ⟨by decide +kernel, fun digit held => ?_⟩
    rcases mem_unary held with rfl | rfl <;> decide +kernel

theorem digestAt_ne_empty {known digest text : String} (nonempty : digest ≠ "") :
    digestAt known digest text ≠ "" := by
  unfold digestAt
  split_ifs
  · exact nonempty
  · intro same
    exact absurd (congrArg String.toList same) (by simp)

end Swarmind.Library
