import Mathlib.Data.List.Basic
import Swarmind.Library.Python

/-!
Owns the signatures of test files and the check that compares them.

A signature is the digest of what the files contain, one after the other. It
says nothing about where one file ends and the next begins.
-/

namespace Swarmind.Orchestrator.TDDPolicy

open Swarmind.Library

/-- The files of a moment: what each path reads as, where it is a file. -/
abbrev Files := String → Option (List UInt8)

def missingFileMsg (source : String) : String :=
  s!"WHAT: No se pudo firmar los tests: el archivo no existe: {pyRepr source}. " ++
  "WHY: hash_tests() exige rutas validas a archivos de test; " ++
  "un archivo ausente rompe la firma anti-gaming. " ++
  "WHERE: TDDPolicyEngine.hash_tests() en harness/orchestrator/workflows/tdd_policy.py."

def testsChangedMsg : String :=
  "tests_modificados_entre_fases: WHAT: El hash actual de los tests difiere " ++
  "del hash firmado en RED. " ++
  "WHY: Cambiar (borrar o debilitar) tests entre RED y DONE rompe el " ++
  "anti-gaming del TDD estricto. " ++
  "WHERE: TDDPolicyEngine.evaluate() en harness/orchestrator/workflows/tdd_policy.py."

/-- The updates of the digest: all the bytes it was fed. -/
def update (files : Files) : List UInt8 → List String → Except PyException (List UInt8)
  | fed, [] => .ok fed
  | fed, source :: rest =>
    match files source with
    | none => .error ⟨"FileNotFoundError", missingFileMsg source⟩
    | some bytes => update files (fed ++ bytes) rest

/-- `hash_tests`; `sha256` is the hexadecimal digest of what was fed. -/
def hashTests (sha256 : List UInt8 → String) (files : Files) (testSources : List String) :
    Except PyException String :=
  (update files [] testSources).map sha256

def checkAntiGaming (testsHashRed testsHashNow : Option String) : List String :=
  match testsHashRed, testsHashNow with
  | some red, some now => if red ≠ now then [testsChangedMsg] else []
  | _, _ => []

/-- What the sources read as. -/
def Reads (files : Files) (sources : List String) (contents : List (List UInt8)) : Prop :=
  sources.map files = contents.map some

private theorem update_eq {files : Files} {sources : List String} {contents : List (List UInt8)}
    (reads : Reads files sources contents) (fed : List UInt8) :
    update files fed sources = .ok (fed ++ contents.flatten) := by
  induction sources generalizing contents fed with
  | nil =>
    rw [List.map_eq_nil_iff.mp reads.symm, List.flatten_nil, List.append_nil]
    rfl
  | cons source rest ih =>
    cases contents with
    | nil => cases reads
    | cons bytes contents =>
      obtain ⟨found, later⟩ := List.cons.inj reads
      rw [update, found]
      dsimp only
      rw [ih later, List.flatten_cons, List.append_assoc]

private theorem hashTests_eq {files : Files} {sources : List String} {contents : List (List UInt8)}
    (sha256 : List UInt8 → String) (reads : Reads files sources contents) :
    hashTests sha256 files sources = .ok (sha256 contents.flatten) := by
  rw [hashTests, update_eq reads, List.nil_append]
  rfl

private theorem eq_of_flatten_eq {left right : List (List UInt8)}
    (sizes : left.map List.length = right.map List.length)
    (same : left.flatten = right.flatten) : left = right := by
  induction left generalizing right with
  | nil => exact (List.map_eq_nil_iff.mp sizes.symm).symm
  | cons first rest ih =>
    cases right with
    | nil => cases sizes
    | cons other others =>
      obtain ⟨size, later⟩ := List.cons.inj sizes
      rw [List.flatten_cons, List.flatten_cons] at same
      obtain ⟨head, tail⟩ := List.append_inj same size
      rw [head, ih later tail]

private theorem hashTests_agree_iff {sha256 : List UInt8 → String}
    (injective : Function.Injective sha256)
    {files later : Files} {sources laterSources : List String}
    {contents laterContents : List (List UInt8)} (reads : Reads files sources contents)
    (readsLater : Reads later laterSources laterContents) :
    ∃ red now, hashTests sha256 files sources = .ok red ∧
      hashTests sha256 later laterSources = .ok now ∧
      (red = now ↔ contents.flatten = laterContents.flatten) :=
  ⟨_, _, hashTests_eq sha256 reads, hashTests_eq sha256 readsLater, injective.eq_iff⟩

/-- The signatures of the two moments tell the files apart, and the check reports it. -/
def Separates (sha256 : List UInt8 → String) (files later : Files)
    (sources laterSources : List String) (contents laterContents : List (List UInt8)) : Prop :=
  ∃ red now, hashTests sha256 files sources = .ok red ∧
    hashTests sha256 later laterSources = .ok now ∧ (red = now → contents = laterContents) ∧
    (contents ≠ laterContents → checkAntiGaming (some red) (some now) = [testsChangedMsg])

/-- Files are told apart exactly where those that make the same bytes together have the
same sizes, one by one. -/
theorem hashTests_separates_iff {sha256 : List UInt8 → String}
    (injective : Function.Injective sha256) {files later : Files}
    {sources laterSources : List String} {contents laterContents : List (List UInt8)}
    (reads : Reads files sources contents)
    (readsLater : Reads later laterSources laterContents) :
    Separates sha256 files later sources laterSources contents laterContents ↔
      (contents.flatten = laterContents.flatten →
        contents.map List.length = laterContents.map List.length) := by
  obtain ⟨red, now, signed, signedLater, agree⟩ := hashTests_agree_iff injective reads readsLater
  constructor
  · rintro ⟨first, second, signedFirst, signedSecond, apart, _⟩ together
    have same : first = second := by
      rw [← Except.ok.inj (signed.symm.trans signedFirst),
        ← Except.ok.inj (signedLater.symm.trans signedSecond), agree.mpr together]
    rw [apart same]
  · intro sizes
    have apart : red = now → contents = laterContents := fun same =>
      eq_of_flatten_eq (sizes (agree.mp same)) (agree.mp same)
    refine ⟨red, now, signed, signedLater, apart, fun changed => ?_⟩
    exact if_pos fun same => changed (apart same)

/-- Bytes as characters: what stands for a digest without collisions. -/
def latin (bytes : List UInt8) : String := String.ofList (bytes.map Char.ofUInt8)

private theorem latin_injective : Function.Injective latin := by
  intro left right same
  apply List.map_injective_iff.mpr _ (String.ofList_injective same)
  intro first second equal
  exact UInt8.toUInt32_inj.mp (congrArg Char.val equal)

/-- Two test files, and the same with a byte moved from the second to the first. -/
def contentsRed : List (List UInt8) := [[1], [2, 3]]

def contentsNow : List (List UInt8) := [[1, 2], [3]]

def filesRed : Files := fun path => if path = "a" then some [1] else some [2, 3]

def filesNow : Files := fun path => if path = "a" then some [1, 2] else some [3]

private theorem reads_red : Reads filesRed ["a", "b"] contentsRed := rfl

private theorem reads_now : Reads filesNow ["a", "b"] contentsNow := rfl

/-- The equivalence on the files with the moved byte. -/
theorem hashTests_separates_two :
    Separates latin filesRed filesNow ["a", "b"] ["a", "b"] contentsRed contentsNow ↔
      (contentsRed.flatten = contentsNow.flatten →
        contentsRed.map List.length = contentsNow.map List.length) :=
  hashTests_separates_iff latin_injective reads_red reads_now

/-- No boundary between two files enters the digest. -/
theorem not_hashTests_separates :
    ¬ ∀ sha256 : List UInt8 → String, Function.Injective sha256 →
      ∀ (files later : Files) (sources laterSources : List String)
        (contents laterContents : List (List UInt8)), Reads files sources contents →
          Reads later laterSources laterContents → sources.length = laterSources.length →
            Separates sha256 files later sources laterSources contents laterContents := by
  intro promised
  obtain ⟨red, now, signed, signedNow, apart, _⟩ := promised latin latin_injective filesRed
    filesNow ["a", "b"] ["a", "b"] contentsRed contentsNow reads_red reads_now rfl
  have together : contentsNow.flatten = contentsRed.flatten := by decide
  have same : red = now := by
    rw [← Except.ok.inj ((hashTests_eq latin reads_red).symm.trans signed),
      ← Except.ok.inj ((hashTests_eq latin reads_now).symm.trans signedNow), together]
  exact absurd (apart same) (by decide)

end Swarmind.Orchestrator.TDDPolicy
