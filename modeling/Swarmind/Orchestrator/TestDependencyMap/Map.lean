import Mathlib.Data.Finset.Sort
import Mathlib.Data.String.Basic
import Swarmind.Library.Dict
import Swarmind.Library.Dotted
import Swarmind.Library.Python

/-!
Owns the map from source files to the tests that import them: the files under
the root, the imports of a test by normalised module name, the module names of a
source file, and the entries. A file is known by its path below the root. Of a
syntax tree only the import statements count; the caches are left out.
-/

namespace Swarmind.Orchestrator.TestDependencyMap

open Swarmind.Library

/-! ### Files -/

structure Path where
  isAbsolute : Bool
  parts : List String
deriving DecidableEq

namespace Path

def join (path : Path) (below : List String) : Path :=
  { path with parts := path.parts ++ below }

def absolute (cwd : List String) (path : Path) : List String :=
  if path.isAbsolute then path.parts else cwd ++ path.parts

def text (path : Path) : String :=
  if path.isAbsolute then "/" ++ "/".intercalate path.parts
  else if path.parts = [] then "."
  else "/".intercalate path.parts

end Path

/-- An alias of an import statement. -/
structure Alias where
  name : String
  asname : Option String

def Alias.bound (imported : Alias) : String :=
  match imported.asname with
  | some asname => if asname = "" then imported.name else asname
  | none => imported.name

inductive ImportNode where
  | importModules (names : List Alias)
  | importFrom (module : Option String) (names : List Alias) (level : Nat)

/-- What reading and parsing a file gives: its import statements, no tree (an
`OSError` or a `SyntaxError`), or another exception. -/
inductive Source where
  | parsed (imports : List ImportNode)
  | invalid
  | raises (exc : PyException)

/-- A directory tree: its files by their path below the root. -/
structure Project where
  cwd : List String
  root : Path
  files : Dict (List String) Source
  isPresent : Path → Bool
  isPresent_root : ∀ below ∈ files.keys, isPresent root = true
  isPresent_file : ∀ below ∈ files.keys, isPresent (root.join below) = true

/-- `fnmatch` with `*` as its only wildcard. -/
def globMatch : List Char → List Char → Bool
  | [], text => text.isEmpty
  | letter :: pattern, text =>
    if letter = '*' then text.tails.any (globMatch pattern)
    else
      match text with
      | [] => false
      | other :: text => letter == other && globMatch pattern text

def testFilePatterns : List String := ["test_*.py", "*_test.py"]

def excludedDirs : List String :=
  [".venv", "venv", "__pycache__", "node_modules", ".git", "tests"]

def nameOf (below : List String) : String := below.getLastD ""

def named (pattern : String) (below : List String) : Bool :=
  globMatch pattern.toList (nameOf below).toList

def pathOrder (first second : List String) : Bool := !decide (second < first)

namespace Project

variable (project : Project)

def path (below : List String) : Path := project.root.join below

/-- `_iter_python_files(self.root)`. -/
def sourceFiles : List (List String) :=
  if project.isPresent project.root then
    (project.files.keys.filter fun below =>
      named "*.py" below &&
        !(project.path below).parts.any excludedDirs.contains &&
        !testFilePatterns.any (named · below)).mergeSort pathOrder
  else []

def testFiles : List (List String) :=
  if project.isPresent project.root then
    (project.files.keys.filter fun below =>
      testFilePatterns.any (named · below) &&
        !(project.path below).parts.any (excludedDirs.erase "tests").contains).mergeSort pathOrder
  else []

end Project

/-! ### Imports -/

def importPatterns : List String := ["harness."]

/-- `text.removeprefix(part)`. -/
def removePrefix (text part : String) : String :=
  if part.toList <+: text.toList then String.ofList (text.toList.drop part.toList.length) else text

def normalizeModuleName (name : String) : String := importPatterns.foldl removePrefix name

def moduleMatches (imported wanted : String) : Bool :=
  let imported := normalizeModuleName imported
  let wanted := normalizeModuleName wanted
  imported = wanted || ("." ++ wanted).toList.isSuffixOf imported.toList

/-- The imported names of a file by normalised module. -/
abbrev Imports := Dict String (Finset String)

/-- `imports.setdefault(key, set()).update(names)`. -/
def record (imports : Imports) (key : String) (names : Finset String) : Imports :=
  imports.set key ((imports.get? key).getD ∅ ∪ names)

/-- The names that an `ImportFrom` binds, a star apart. -/
def boundNames (names : List Alias) : Finset String :=
  ((names.filter (·.name ≠ "*")).map Alias.bound).toFinset

def recordNode (imports : Imports) : ImportNode → Imports
  | .importModules names =>
    names.foldl (fun imports imported =>
      record imports (normalizeModuleName imported.name) {imported.bound}) imports
  | .importFrom (some module) names _ =>
    record imports (normalizeModuleName module) (boundNames names)
  | .importFrom none _ _ => imports

def importsMap : Source → Except PyException Imports
  | .parsed imports => .ok (imports.foldl recordNode Dict.empty)
  | .invalid => .ok Dict.empty
  | .raises exc => .error exc

def importsFrom (imports : Imports) (moduleName : String) : Finset String :=
  imports.entries.foldl (fun names entry =>
    if moduleMatches entry.1 (normalizeModuleName moduleName) then names ∪ entry.2 else names) ∅

/-! ### Module names -/

/-- The name without its last suffix; a dot at either end begins none. -/
def stem (name : String) : String :=
  let behind := Dotted.last '.' name.toList
  let before := name.toList.dropLast.length - behind.length
  if behind ≠ [] ∧ behind.length < name.toList.length ∧ 0 < before then
    String.ofList (name.toList.take before)
  else name

/-- The path of a file in dots. -/
def dotted (below : List String) : String :=
  ".".intercalate (below.dropLast ++ [stem (nameOf below)])

def dottedSuffixes (name : String) : List String :=
  let parts := Dotted.split '.' name.toList
  (List.range parts.length).map fun index => String.ofList (Dotted.join '.' (parts.drop index))

def moduleAliases (below : List String) : List String :=
  Dict.firsts (dottedSuffixes (normalizeModuleName (dotted below)) ++ [stem (nameOf below)])

def firstSymbols (imports : Imports) : List String → Finset String
  | [] => ∅
  | candidate :: rest =>
    let names := importsFrom imports candidate
    if names = ∅ then firstSymbols imports rest else names

def importedSymbols (below : List String) (test : Source) : Except PyException (Finset String) :=
  (importsMap test).map fun imports => firstSymbols imports (moduleAliases below)

/-! ### The map -/

structure DependencyEntry where
  srcPath : Path
  testPaths : List Path
  importedNames : List String

namespace Project

variable (project : Project)

def source (below : List String) : Source := (project.files.get? below).getD .invalid

/-- The tests that import a source file, with the names. -/
def coveredTests (below : List String) :
    List (List String) → Except PyException (List (List String × Finset String))
  | [] => .ok []
  | test :: rest =>
    (importedSymbols below (project.source test)).bind fun names =>
      (coveredTests below rest).map fun later =>
        if names = ∅ then later else (test, names) :: later

def entryOf (below : List String) (covered : List (List String × Finset String)) :
    DependencyEntry :=
  let covered := covered.mergeSort fun first second => pathOrder first.1 second.1
  { srcPath := project.path below
    testPaths := covered.map fun item => project.path item.1
    importedNames := (covered.foldl (fun names (item : List String × Finset String) =>
      names ∪ item.2) ∅).sort }

/-- The loop of `build`. -/
def entriesOf : List (List String) → Except PyException (List DependencyEntry)
  | [] => .ok []
  | below :: rest =>
    (project.coveredTests below project.testFiles).bind fun covered =>
      (entriesOf rest).map fun later =>
        if covered = [] then later else project.entryOf below covered :: later

def build : Except PyException (List DependencyEntry) :=
  (project.entriesOf project.sourceFiles).map fun entries =>
    entries.mergeSort fun first second => !decide (second.srcPath.text < first.srcPath.text)

def fileNotFound (path : Path) : PyException :=
  ⟨"FileNotFoundError", s!"WHAT: El archivo fuente no existe: {path.text}. " ++
    "WHY: tests_for() requiere una ruta valida de src para " ++
    "buscar los tests que la cubren. " ++
    "WHERE: TestDependencyMap.tests_for() en " ++
    "harness/orchestrator/workflows/test_dependency_map.py."⟩

def testsFor (path : Path) : Except PyException (List Path) :=
  if project.isPresent path then
    project.build.map fun entries =>
      match entries.find? fun entry =>
          entry.srcPath.absolute project.cwd = path.absolute project.cwd with
      | some entry => entry.testPaths
      | none => []
  else .error (fileNotFound path)

end Project

/-! ### Last components -/

def lastComponent (name : String) : List Char := Dotted.last '.' name.toList

private theorem lastComponent_removePrefix {part : String} (name : String) (before : List Char)
    (dotted : part.toList = before ++ ['.']) :
    lastComponent (removePrefix name part) = lastComponent name := by
  unfold removePrefix
  split
  · rename_i isPrefix
    obtain ⟨rest, whole⟩ := isPrefix
    rw [lastComponent, lastComponent, String.toList_ofList, ← whole, List.drop_left', dotted,
      List.append_assoc]
    · exact (Dotted.last_append_mark before rest).symm
    · rfl
  · rfl

private theorem lastComponent_normalize (name : String) :
    lastComponent (normalizeModuleName name) = lastComponent name :=
  lastComponent_removePrefix name "harness".toList rfl

private theorem lastComponent_of_matches {imported wanted : String}
    (matching : moduleMatches imported wanted = true) :
    lastComponent imported = lastComponent wanted := by
  rw [← lastComponent_normalize imported, ← lastComponent_normalize wanted]
  simp only [moduleMatches, Bool.or_eq_true, decide_eq_true_eq, List.isSuffixOf_iff_suffix,
    String.toList_append] at matching
  apply Dotted.last_eq_of_match
  rcases matching with same | suffix
  · exact .inl (congrArg String.toList same)
  · exact .inr suffix

private theorem normalize_of_plain {name : String} (plain : '.' ∉ name.toList) :
    normalizeModuleName name = name := by
  unfold normalizeModuleName importPatterns
  simp only [List.foldl_cons, List.foldl_nil]
  unfold removePrefix
  rw [if_neg]
  rintro ⟨rest, whole⟩
  apply plain
  rw [← whole]
  simp

private theorem matches_of_lastComponent {imported wanted : String} (plain : '.' ∉ wanted.toList)
    (same : lastComponent imported = wanted.toList) : moduleMatches imported wanted = true := by
  simp only [moduleMatches, normalize_of_plain plain, Bool.or_eq_true, decide_eq_true_eq,
    List.isSuffixOf_iff_suffix, String.toList_append]
  rw [← lastComponent_normalize] at same
  rcases (Dotted.eq_or_suffix_iff plain _).mpr same with whole | suffix
  · exact .inl (String.toList_injective whole)
  · exact .inr suffix

/-! ### Module names of a file -/

/-- What the last component of an import must be. -/
def component (below : List String) : List Char := lastComponent (dotted below)

private theorem component_eq (below : List String) :
    component below = lastComponent (stem (nameOf below)) := by
  have joined : (dotted below).toList =
      Dotted.join '.' (below.dropLast.map String.toList ++ [(stem (nameOf below)).toList]) := by
    rw [dotted, String.toList_intercalate, List.map_append]
    rfl
  rw [component, lastComponent, joined, Dotted.last_join_append (by simp), Dotted.join_singleton]
  rfl

private theorem lastComponent_of_mem_aliases {below : List String} {candidate : String}
    (among : candidate ∈ moduleAliases below) : lastComponent candidate = component below := by
  unfold moduleAliases at among
  rw [Dict.mem_firsts, List.mem_append] at among
  rcases among with suffix | whole
  · unfold dottedSuffixes at suffix
    obtain ⟨index, inRange, rfl⟩ := List.mem_map.mp suffix
    have some_left := List.mem_range.mp inRange
    have more : (Dotted.split '.' (normalizeModuleName (dotted below)).toList).drop index ≠ [] := by
      simpa using some_left
    have joined := Dotted.join_split '.' (normalizeModuleName (dotted below)).toList
    rw [← List.take_append_drop index (Dotted.split '.' _)] at joined
    rw [component, ← lastComponent_normalize (dotted below), lastComponent, lastComponent,
      String.toList_ofList]
    exact (Dotted.last_join_append more _).symm.trans (congrArg (Dotted.last '.') joined)
  · rw [List.mem_singleton.mp whole]
    exact (component_eq below).symm

private theorem exists_plain_alias (below : List String) :
    ∃ candidate ∈ moduleAliases below, candidate.toList = component below := by
  have nonempty := Dotted.split_ne_nil '.' (normalizeModuleName (dotted below)).toList
  refine ⟨String.ofList
    ((Dotted.split '.' (normalizeModuleName (dotted below)).toList).getLast nonempty), ?_, ?_⟩
  · unfold moduleAliases
    rw [Dict.mem_firsts, List.mem_append]
    apply Or.inl
    have positive := List.length_pos_of_ne_nil nonempty
    apply List.mem_map.mpr
    refine ⟨(Dotted.split '.' (normalizeModuleName (dotted below)).toList).length - 1,
      List.mem_range.mpr (by omega), ?_⟩
    rw [List.drop_length_sub_one nonempty, Dotted.join_singleton]
  · rw [String.toList_ofList, component, ← lastComponent_normalize (dotted below), lastComponent]
    exact Dotted.getLast_split '.' _

private theorem exists_alias_matches_iff (below : List String) (imported : String) :
    (∃ candidate ∈ moduleAliases below,
        moduleMatches imported (normalizeModuleName candidate) = true) ↔
      lastComponent imported = component below := by
  constructor
  · rintro ⟨candidate, among, matching⟩
    rw [lastComponent_of_matches matching, lastComponent_normalize,
      lastComponent_of_mem_aliases among]
  · intro same
    obtain ⟨candidate, among, plain⟩ := exists_plain_alias below
    have noDot : '.' ∉ candidate.toList := by
      rw [plain]
      exact Dotted.not_mem_last _
    refine ⟨candidate, among, ?_⟩
    rw [normalize_of_plain noDot]
    exact matches_of_lastComponent noDot (same.trans plain.symm)

/-! ### The imports of a file -/

/-- The map holds a name under the key. -/
def Filled (imports : Imports) (key : String) : Prop :=
  ∃ names, imports.get? key = some names ∧ names.Nonempty

variable (imports : Imports)

private theorem filled_record_iff (key other : String) (names : Finset String) :
    Filled (record imports key names) other ↔
      Filled imports other ∨ (key = other ∧ names.Nonempty) := by
  unfold Filled record
  simp only [Dict.get?_set]
  split
  · rename_i same
    subst same
    cases imports.get? key with
    | none => simp
    | some old => simp [Finset.union_nonempty]
  · rename_i different
    simp [different]

/-- The statement names a module with this key, and something of it. -/
def ImportNode.Records (node : ImportNode) (key : String) : Prop :=
  match node with
  | .importModules names => ∃ imported ∈ names, normalizeModuleName imported.name = key
  | .importFrom (some module) names _ =>
    normalizeModuleName module = key ∧ ∃ imported ∈ names, imported.name ≠ "*"
  | .importFrom none _ _ => False

private theorem boundNames_nonempty_iff (names : List Alias) :
    (boundNames names).Nonempty ↔ ∃ imported ∈ names, imported.name ≠ "*" := by
  unfold boundNames
  rw [List.toFinset_nonempty_iff, ne_eq, List.map_eq_nil_iff, List.filter_eq_nil_iff]
  simp

private theorem filled_foldl_record_iff (names : List Alias) (imports : Imports) (key : String) :
    Filled (names.foldl (fun imports imported =>
        record imports (normalizeModuleName imported.name) {imported.bound}) imports) key ↔
      Filled imports key ∨ ∃ imported ∈ names, normalizeModuleName imported.name = key := by
  induction names generalizing imports with
  | nil => simp
  | cons imported rest ih =>
    rw [List.foldl_cons, ih, filled_record_iff, or_assoc]
    simp

private theorem filled_recordNode_iff (node : ImportNode) (key : String) :
    Filled (recordNode imports node) key ↔ Filled imports key ∨ node.Records key := by
  cases node with
  | importModules names => exact filled_foldl_record_iff names imports key
  | importFrom module names level =>
    cases module with
    | none => simp [recordNode, ImportNode.Records]
    | some module =>
      rw [recordNode, filled_record_iff, boundNames_nonempty_iff]
      exact Iff.rfl

private theorem filled_foldl_iff (nodes : List ImportNode) (imports : Imports) (key : String) :
    Filled (nodes.foldl recordNode imports) key ↔
      Filled imports key ∨ ∃ node ∈ nodes, node.Records key := by
  induction nodes generalizing imports with
  | nil => simp
  | cons node rest ih =>
    rw [List.foldl_cons, ih, filled_recordNode_iff, or_assoc]
    simp

private theorem importsFrom_nonempty_iff (moduleName : String) :
    (importsFrom imports moduleName).Nonempty ↔
      ∃ key, Filled imports key ∧ moduleMatches key (normalizeModuleName moduleName) = true := by
  have folded (entries : List (String × Finset String)) (start : Finset String) :
      (entries.foldl (fun names entry =>
          if moduleMatches entry.1 (normalizeModuleName moduleName) then names ∪ entry.2
          else names) start).Nonempty ↔
        start.Nonempty ∨ ∃ entry ∈ entries, entry.2.Nonempty ∧
          moduleMatches entry.1 (normalizeModuleName moduleName) = true := by
    induction entries generalizing start with
    | nil => simp
    | cons entry rest ih =>
      rw [List.foldl_cons, ih]
      by_cases matching : moduleMatches entry.1 (normalizeModuleName moduleName) = true
      · simp [matching, Finset.union_nonempty, or_assoc]
      · simp [matching]
  unfold importsFrom
  rw [folded]
  unfold Filled
  simp only [Finset.not_nonempty_empty, false_or, Dict.get?_eq_some_iff]
  constructor
  · rintro ⟨⟨key, names⟩, among, nonempty, matching⟩
    exact ⟨key, ⟨names, among, nonempty⟩, matching⟩
  · rintro ⟨key, ⟨names, among, nonempty⟩, matching⟩
    exact ⟨(key, names), among, nonempty, matching⟩

private theorem firstSymbols_ne_empty_iff (candidates : List String) :
    firstSymbols imports candidates ≠ ∅ ↔
      ∃ candidate ∈ candidates, (importsFrom imports candidate).Nonempty := by
  induction candidates with
  | nil => simp [firstSymbols]
  | cons candidate rest ih =>
    rw [firstSymbols]
    split
    · rename_i none
      rw [ih]
      simp [none]
    · rename_i found
      simp [found, Finset.nonempty_iff_ne_empty]

/-- The statement names a module that ends in this component, and something of it. -/
def ImportNode.Names (node : ImportNode) (last : List Char) : Prop :=
  match node with
  | .importModules names => ∃ imported ∈ names, lastComponent imported.name = last
  | .importFrom (some module) names _ =>
    lastComponent module = last ∧ ∃ imported ∈ names, imported.name ≠ "*"
  | .importFrom none _ _ => False

private theorem ImportNode.names_iff (node : ImportNode) (last : List Char) :
    node.Names last ↔ ∃ key, node.Records key ∧ lastComponent key = last := by
  cases node with
  | importModules names =>
    constructor
    · rintro ⟨imported, among, ends⟩
      exact ⟨_, ⟨imported, among, rfl⟩, (lastComponent_normalize _).trans ends⟩
    · rintro ⟨_, ⟨imported, among, rfl⟩, ends⟩
      exact ⟨imported, among, (lastComponent_normalize _).symm.trans ends⟩
  | importFrom module names level =>
    cases module with
    | none => simp [ImportNode.Names, ImportNode.Records]
    | some module =>
      constructor
      · rintro ⟨ends, something⟩
        exact ⟨_, ⟨rfl, something⟩, (lastComponent_normalize _).trans ends⟩
      · rintro ⟨_, ⟨rfl, something⟩, ends⟩
        exact ⟨(lastComponent_normalize _).symm.trans ends, something⟩

/-- The file imports something of a module that ends in this component. -/
def Source.Names (source : Source) (last : List Char) : Prop :=
  match source with
  | .parsed imports => ∃ node ∈ imports, node.Names last
  | _ => False

/-- A test imports symbols of a source file exactly when one of its statements
names a module that ends in the stem of the file. -/
theorem importedSymbols_ne_empty_iff {below : List String} {test : Source}
    {symbols : Finset String} (imported : importedSymbols below test = .ok symbols) :
    symbols ≠ ∅ ↔ test.Names (component below) := by
  obtain ⟨imports, mapped, rfl⟩ := ok_of_map imported
  have named : (∃ key, Filled imports key ∧ lastComponent key = component below) ↔
      test.Names (component below) := by
    cases test with
    | parsed nodes =>
      obtain rfl := Except.ok.inj mapped
      simp only [filled_foldl_iff, Source.Names, ImportNode.names_iff]
      have empty (key : String) : ¬Filled Dict.empty key := by
        rintro ⟨names, stored, _⟩
        cases stored
      constructor
      · rintro ⟨key, filled | ⟨node, among, records⟩, ends⟩
        · exact absurd filled (empty key)
        · exact ⟨node, among, key, records, ends⟩
      · rintro ⟨node, among, key, records, ends⟩
        exact ⟨key, .inr ⟨node, among, records⟩, ends⟩
    | invalid =>
      obtain rfl := Except.ok.inj mapped
      refine iff_of_false ?_ id
      rintro ⟨key, ⟨names, stored, _⟩, _⟩
      cases stored
    | raises exc => cases mapped
  rw [firstSymbols_ne_empty_iff, ← named]
  simp only [importsFrom_nonempty_iff, ← exists_alias_matches_iff]
  constructor
  · rintro ⟨candidate, among, key, filled, matching⟩
    exact ⟨key, filled, candidate, among, matching⟩
  · rintro ⟨key, filled, candidate, among, matching⟩
    exact ⟨candidate, among, key, filled, matching⟩

end Swarmind.Orchestrator.TestDependencyMap
