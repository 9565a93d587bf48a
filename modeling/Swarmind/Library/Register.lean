import Mathlib.Data.List.Basic
import Mathlib.Order.Lattice

/-!
Owns a register with one writer that is copied between places. Everything
written has a version above the ones before, and a place adopts a copy that
another place holds when its version is above the one it has.

Whatever the order of writes and copies, a place holds something that was
written, at most as new as what the writer holds, and the version determines it.
-/

namespace Swarmind.Library

universe u v w

/-- What each place holds, and everything written so far. -/
structure Register (Place : Type u) (Value : Type v) where
  copies : Place → Option Value
  written : List Value

namespace Register

variable {Place : Type u} {Value : Type v} {Version : Type w}

/-- A register before its first write. -/
def blank : Register Place Value := ⟨fun _ => none, []⟩

variable [DecidableEq Place]

def write (register : Register Place Value) (writer : Place) (value : Value) :
    Register Place Value :=
  ⟨Function.update register.copies writer (some value), register.written ++ [value]⟩

def adopt (register : Register Place Value) (place : Place) (value : Value) :
    Register Place Value :=
  ⟨Function.update register.copies place (some value), register.written⟩

section Laws

variable (register : Register Place Value) (writer place : Place) (value : Value)

@[simp] theorem written_write :
    (register.write writer value).written = register.written ++ [value] := rfl

@[simp] theorem written_adopt : (register.adopt place value).written = register.written := rfl

@[simp] theorem copies_write_self : (register.write writer value).copies writer = some value :=
  Function.update_self ..

@[simp] theorem copies_adopt_self : (register.adopt place value).copies place = some value :=
  Function.update_self ..

variable {writer place}

theorem copies_write_of_ne {other : Place} (different : other ≠ writer) :
    (register.write writer value).copies other = register.copies other :=
  Function.update_of_ne different ..

theorem copies_adopt_of_ne {other : Place} (different : other ≠ place) :
    (register.adopt place value).copies other = register.copies other :=
  Function.update_of_ne different ..

end Laws

variable [LinearOrder Version] (version : Value → Version)

/-- The place adopts a newer copy of another place. -/
inductive Adopts (place : Place) : Register Place Value → Register Place Value → Prop where
  | newer {register : Register Place Value} {value : Value} (source : Place)
      (held : register.copies source = some value)
      (newer : ∀ current, register.copies place = some current →
        version current < version value) :
      Adopts place register (register.adopt place value)

/-- Any number of adoptions by one place. -/
abbrev Catches (place : Place) : Register Place Value → Register Place Value → Prop :=
  Relation.ReflTransGen (Adopts version place)

omit [DecidableEq Place] in
/-- Versions rise, the writer holds the last value, and every copy was written. -/
structure Sound (writer : Place) (register : Register Place Value) : Prop where
  rising : register.written.Pairwise fun earlier later => version earlier < version later
  latest : register.copies writer = register.written.getLast?
  genuine : ∀ place value, register.copies place = some value → value ∈ register.written

variable {version} {writer : Place} {register : Register Place Value}

omit [DecidableEq Place] in
theorem blank_sound : Sound version writer (blank : Register Place Value) where
  rising := List.Pairwise.nil
  latest := rfl
  genuine := by
    intro place value held
    cases held

namespace Sound

variable (sound : Sound version writer register)

include sound

omit [DecidableEq Place] in
theorem le_latest {latest value : Value} (holds : register.copies writer = some latest)
    (member : value ∈ register.written) : version value ≤ version latest := by
  have last : register.written.getLast? = some latest := sound.latest.symm.trans holds
  obtain ⟨earlier, split⟩ := List.getLast?_eq_some_iff.mp last
  have rising := sound.rising
  rw [split] at member rising
  rcases List.mem_append.mp member with before | same
  · exact ((List.pairwise_append.mp rising).2.2 value before latest (List.mem_singleton_self _)).le
  · rw [List.mem_singleton.mp same]

omit [DecidableEq Place] in
/-- Wherever there is a copy the writer holds one that is at least as new. -/
theorem exists_latest {value : Value} (member : value ∈ register.written) :
    ∃ latest, register.copies writer = some latest ∧ version value ≤ version latest := by
  cases holds : register.copies writer with
  | none =>
    rw [sound.latest, List.getLast?_eq_none_iff] at holds
    rw [holds] at member
    cases member
  | some latest => exact ⟨latest, rfl, sound.le_latest holds member⟩

omit [DecidableEq Place] in
/-- A version names one value. -/
theorem eq_of_version {first second : Value} (firstMember : first ∈ register.written)
    (secondMember : second ∈ register.written) (same : version first = version second) :
    first = second := by
  by_contra different
  have rising := sound.rising
  obtain ⟨before, after, split⟩ := List.append_of_mem firstMember
  rw [split] at secondMember rising
  rw [List.pairwise_append, List.pairwise_cons] at rising
  rcases List.mem_append.mp secondMember with early | late
  · exact (rising.2.2 second early first List.mem_cons_self).ne' same
  · rcases List.mem_cons.mp late with equal | later
    · exact different equal.symm
    · exact (rising.2.1.1 second later).ne same

omit [DecidableEq Place] in
theorem mem_of_writer {latest : Value} (holds : register.copies writer = some latest) :
    latest ∈ register.written :=
  sound.genuine writer latest holds

/-- A newer value keeps the register sound. -/
theorem write {value : Value} (newer : ∀ current, register.copies writer = some current →
    version current < version value) : Sound version writer (register.write writer value) where
  rising := by
    refine List.pairwise_append.mpr ⟨sound.rising, List.pairwise_singleton _ _, ?_⟩
    intro earlier member later last
    rw [List.mem_singleton.mp last]
    obtain ⟨latest, holds, bounded⟩ := sound.exists_latest member
    exact bounded.trans_lt (newer latest holds)
  latest := by
    rw [copies_write_self, written_write, List.getLast?_append, List.getLast?_singleton,
      Option.some_or]
  genuine := by
    intro place held holds
    rw [written_write]
    by_cases same : place = writer
    · rw [same, copies_write_self] at holds
      exact List.mem_append_right _ (List.mem_singleton.mpr (Option.some.inj holds).symm)
    · rw [copies_write_of_ne _ _ same] at holds
      exact List.mem_append_left _ (sound.genuine place held holds)

theorem place_ne_writer {place : Place} {next : Register Place Value}
    (adopts : Adopts version place register next) : place ≠ writer := by
  rintro rfl
  obtain ⟨source, held, newer⟩ := adopts
  obtain ⟨latest, holds, bounded⟩ := sound.exists_latest (sound.genuine source _ held)
  exact absurd (newer latest holds) (not_lt.mpr bounded)

theorem adopts {place : Place} {next : Register Place Value}
    (adopts : Adopts version place register next) : Sound version writer next := by
  have other := sound.place_ne_writer adopts
  obtain ⟨source, held, newer⟩ := adopts
  refine ⟨sound.rising, ?_, ?_⟩
  · rw [copies_adopt_of_ne _ _ other.symm, written_adopt, sound.latest]
  · intro holder kept holds
    rw [written_adopt]
    by_cases same : holder = place
    · rw [same, copies_adopt_self] at holds
      exact Option.some.inj holds ▸ sound.genuine source _ held
    · rw [copies_adopt_of_ne _ _ same] at holds
      exact sound.genuine holder kept holds

theorem catches {place : Place} {next : Register Place Value}
    (catches : Catches version place register next) : Sound version writer next := by
  induction catches with
  | refl => exact sound
  | tail _ last ih => exact ih.adopts last

theorem catches_current {place follower : Place} {next : Register Place Value}
    (current : register.copies follower = register.copies writer)
    (catches : Catches version place register next) :
    next.copies follower = next.copies writer := by
  suffices kept : Sound version writer next ∧ next.copies follower = next.copies writer from kept.2
  induction catches with
  | refl => exact ⟨sound, current⟩
  | tail _ last ih =>
    obtain ⟨soundBefore, same⟩ := ih
    refine ⟨soundBefore.adopts last, ?_⟩
    have other := soundBefore.place_ne_writer last
    obtain ⟨source, held, newer⟩ := last
    have apart : place ≠ follower := by
      rintro rfl
      obtain ⟨latest, holds, bounded⟩ :=
        soundBefore.exists_latest (soundBefore.genuine source _ held)
      exact absurd (newer latest (same.trans holds)) (not_lt.mpr bounded)
    rw [copies_adopt_of_ne _ _ apart.symm, copies_adopt_of_ne _ _ other.symm, same]

omit [DecidableEq Place] in
/-- A copy of the latest version is current. -/
theorem current_of_le {place : Place} {value latest : Value}
    (holds : register.copies writer = some latest) (held : register.copies place = some value)
    (newest : version latest ≤ version value) : register.copies place = register.copies writer := by
  have member := sound.genuine place value held
  rw [held, holds, sound.eq_of_version member (sound.mem_of_writer holds)
    (le_antisymm (sound.le_latest holds member) newest)]

end Sound

end Register

end Swarmind.Library
