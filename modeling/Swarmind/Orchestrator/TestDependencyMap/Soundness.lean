import Swarmind.Orchestrator.TestDependencyMap.Map

/-!
Owns the soundness of test selection: which file an import statement resolves
to, by Python's path finder and with relative levels, and whether the map lists
the test for it. The map is sound exactly where every import that resolves to a
source file comes with a statement that names the stem of the file last.
-/

namespace Swarmind.Orchestrator.TestDependencyMap

open Swarmind.Library

/-! ### The tests of a source file -/

/-- Reading and parsing the file ends in a tree or none. -/
def Source.Readable (source : Source) : Prop := ∀ exc, source ≠ .raises exc

private theorem exists_importedSymbols_iff (below : List String) (test : Source) :
    (∃ symbols, importedSymbols below test = .ok symbols) ↔ test.Readable := by
  cases test with
  | parsed imports => exact iff_of_true ⟨_, rfl⟩ (by simp [Source.Readable])
  | invalid => exact iff_of_true ⟨_, rfl⟩ (by simp [Source.Readable])
  | raises exc =>
    refine iff_of_false ?_ fun readable => readable exc rfl
    rintro ⟨symbols, imported⟩
    cases imported

private theorem Path.join_injective {path : Path} {first second : List String}
    (same : path.join first = path.join second) : first = second :=
  List.append_cancel_left (congrArg Path.parts same)

private theorem Path.absolute_join_injective {cwd : List String} {path : Path}
    {first second : List String}
    (same : (path.join first).absolute cwd = (path.join second).absolute cwd) : first = second := by
  cases kind : path.isAbsolute with
  | true => simpa [Path.absolute, Path.join, kind] using same
  | false => simpa [Path.absolute, Path.join, kind] using same

namespace Project

variable {project : Project}

/-- The loop over the tests returns when all of them are readable, with those
that name the component. -/
theorem coveredTests_spec (below : List String) (tests : List (List String)) :
    ((∃ covered, project.coveredTests below tests = .ok covered) ↔
        ∀ test ∈ tests, (project.source test).Readable) ∧
      ∀ covered, project.coveredTests below tests = .ok covered → ∀ test,
        (∃ names, (test, names) ∈ covered) ↔
          test ∈ tests ∧ (project.source test).Names (component below) := by
  induction tests with
  | nil =>
    refine ⟨by simp [coveredTests], fun covered returned test => ?_⟩
    obtain rfl := Except.ok.inj returned
    simp
  | cons first rest ih =>
    obtain ⟨returnsIff, members⟩ := ih
    have readable := exists_importedSymbols_iff below (project.source first)
    rw [List.forall_mem_cons, ← readable, ← returnsIff]
    constructor
    · constructor
      · rintro ⟨covered, returned⟩
        obtain ⟨symbols, imported, returned⟩ := ok_of_bind returned
        obtain ⟨later, others, _⟩ := ok_of_map returned
        exact ⟨⟨symbols, imported⟩, later, others⟩
      · rintro ⟨⟨symbols, imported⟩, later, others⟩
        exact ⟨_, by rw [coveredTests, imported, Except.bind, others, Except.map]⟩
    · intro covered returned test
      obtain ⟨symbols, imported, returned⟩ := ok_of_bind returned
      obtain ⟨later, others, rfl⟩ := ok_of_map returned
      have named := importedSymbols_ne_empty_iff imported
      have laterIff := members later others test
      rw [List.mem_cons, or_and_right, ← laterIff]
      split
      · rename_i none
        have unnamed : ¬(project.source first).Names (component below) :=
          mt named.mpr (by simpa using none)
        constructor
        · exact .inr
        · rintro (⟨rfl, names⟩ | among)
          · exact absurd names unnamed
          · exact among
      · rename_i found
        constructor
        · rintro ⟨names, among⟩
          rcases List.mem_cons.mp among with here | behind
          · obtain ⟨rfl, rfl⟩ := Prod.mk.inj here
            exact .inl ⟨rfl, named.mp found⟩
          · exact .inr ⟨names, behind⟩
        · rintro (⟨rfl, _⟩ | ⟨names, behind⟩)
          · exact ⟨symbols, List.mem_cons_self⟩
          · exact ⟨names, List.mem_cons_of_mem _ behind⟩

private theorem entriesOf_spec {sources : List (List String)} {entries : List DependencyEntry}
    (returned : project.entriesOf sources = .ok entries) (entry : DependencyEntry) :
    entry ∈ entries ↔ ∃ below ∈ sources, ∃ covered,
      project.coveredTests below project.testFiles = .ok covered ∧ covered ≠ [] ∧
        entry = project.entryOf below covered := by
  induction sources generalizing entries with
  | nil =>
    obtain rfl := Except.ok.inj returned
    simp
  | cons below rest ih =>
    obtain ⟨covered, here, returned⟩ := ok_of_bind returned
    obtain ⟨later, others, rfl⟩ := ok_of_map returned
    have laterIff := ih others
    simp only [List.exists_mem_cons_iff, ← laterIff, here, Except.ok.injEq, exists_eq_left']
    split
    · rename_i none
      simp [none]
    · rename_i found
      simp [found]

private theorem exists_entriesOf (sources : List (List String))
    (readable : ∀ test ∈ project.testFiles, (project.source test).Readable) :
    ∃ entries, project.entriesOf sources = .ok entries := by
  induction sources with
  | nil => exact ⟨[], rfl⟩
  | cons below rest ih =>
    obtain ⟨later, others⟩ := ih
    obtain ⟨covered, here⟩ := (coveredTests_spec below project.testFiles).1.mpr readable
    exact ⟨_, by rw [entriesOf, here, Except.bind, others, Except.map]⟩

private theorem readable_of_entriesOf {sources : List (List String)}
    {entries : List DependencyEntry}
    (returned : project.entriesOf sources = .ok entries) {below : List String}
    (among : below ∈ sources) : ∀ test ∈ project.testFiles, (project.source test).Readable := by
  cases sources with
  | nil => cases among
  | cons first rest =>
    obtain ⟨covered, here, _⟩ := ok_of_bind returned
    exact (coveredTests_spec first project.testFiles).1.mp ⟨covered, here⟩

private theorem isPresent_of_sourceFile {below : List String}
    (among : below ∈ project.sourceFiles) :
    project.isPresent (project.path below) = true := by
  unfold sourceFiles at among
  split at among
  · rw [List.mem_mergeSort] at among
    exact project.isPresent_file below (List.mem_filter.mp among).1
  · cases among

private theorem mem_testPaths_iff {below : List String}
    {covered : List (List String × Finset String)} (test : List String) :
    project.path test ∈ (project.entryOf below covered).testPaths ↔
      ∃ names, (test, names) ∈ covered := by
  unfold entryOf
  simp only [List.mem_map, List.mem_mergeSort]
  constructor
  · rintro ⟨⟨other, names⟩, among, same⟩
    obtain rfl := Path.join_injective same
    exact ⟨names, among⟩
  · rintro ⟨names, among⟩
    exact ⟨(test, names), among, rfl⟩

/-- A test is listed for a source file exactly when the whole map can be built and
the test names a module that ends in the stem of the file. -/
theorem listed_iff {below test : List String} (among : below ∈ project.sourceFiles) :
    (∃ tests, project.testsFor (project.path below) = .ok tests ∧ project.path test ∈ tests) ↔
      (∀ other ∈ project.testFiles, (project.source other).Readable) ∧
        test ∈ project.testFiles ∧ (project.source test).Names (component below) := by
  unfold testsFor
  rw [if_pos (isPresent_of_sourceFile among)]
  -- The entry that is found is the one of this file: no other has its path.
  have found_iff {entries : List DependencyEntry}
      (returned : project.entriesOf project.sourceFiles = .ok entries)
      {entry : DependencyEntry} (member : entry ∈ entries)
      (same : entry.srcPath.absolute project.cwd = (project.path below).absolute project.cwd) :
      project.path test ∈ entry.testPaths ↔
        test ∈ project.testFiles ∧ (project.source test).Names (component below) := by
    obtain ⟨other, _, covered, here, _, rfl⟩ := (entriesOf_spec returned entry).mp member
    obtain rfl := Path.absolute_join_injective same
    rw [mem_testPaths_iff, (coveredTests_spec other project.testFiles).2 covered here]
  constructor
  · rintro ⟨tests, returned, listed⟩
    obtain ⟨sorted, built, rfl⟩ := ok_of_map returned
    obtain ⟨entries, each, rfl⟩ := ok_of_map built
    refine ⟨readable_of_entriesOf each among, ?_⟩
    split at listed
    · rename_i entry found
      have member := List.mem_mergeSort.mp (List.mem_of_find?_eq_some found)
      exact (found_iff each member (by simpa using List.find?_some found)).mp listed
    · cases listed
  · rintro ⟨readable, isTest, names⟩
    obtain ⟨entries, each⟩ := exists_entriesOf project.sourceFiles readable
    obtain ⟨covered, here⟩ := (coveredTests_spec below project.testFiles).1.mpr readable
    obtain ⟨symbols, item⟩ :=
      ((coveredTests_spec below project.testFiles).2 covered here test).mpr ⟨isTest, names⟩
    have member : project.entryOf below covered ∈ entries :=
      (entriesOf_spec each _).mpr ⟨below, among, covered, here, List.ne_nil_of_mem item, rfl⟩
    refine ⟨_, by rw [build, each]; rfl, ?_⟩
    dsimp only
    split
    · rename_i entry found
      have stored := List.mem_mergeSort.mp (List.mem_of_find?_eq_some found)
      exact (found_iff each stored (by simpa using List.find?_some found)).mpr ⟨isTest, names⟩
    · rename_i absent
      have skipped := List.find?_eq_none.mp absent _ (List.mem_mergeSort.mpr member)
      exact absurd (decide_eq_true rfl) skipped

end Project

/-! ### Import resolution -/

/-- What Python's import system sees: the search path, the files and directories
there are, and which names a module's own file binds. -/
structure Finder where
  searchPath : List (List String)
  isFile : List String → Bool
  isDir : List String → Bool
  binds : List String → String → Bool

inductive Found where
  | package (directory : List String)
  | module (file : List String)

namespace Finder

variable (finder : Finder)

/-- What a directory holds under a name: a regular package goes before a module. -/
def look (name : String) (directory : List String) : Option Found :=
  if finder.isFile (directory ++ [name, "__init__.py"]) then some (.package (directory ++ [name]))
  else if finder.isFile (directory ++ [name ++ ".py"]) then
    some (.module (directory ++ [name ++ ".py"]))
  else none

/-- The file of a module below some directories. Where none of them holds a
package or a module of a name, the directories of that name are a namespace. -/
def locate : List (List String) → List String → Option (List String)
  | directories, [] => (directories.map (· ++ ["__init__.py"])).find? finder.isFile
  | directories, name :: rest =>
    match directories.findSome? (finder.look name) with
    | some (.package directory) => locate [directory] rest
    | some (.module file) => if rest = [] then some file else none
    | none => locate ((directories.map (· ++ [name])).filter finder.isDir) rest

/-- Where a statement of this level in this file begins to look. -/
def startOf (file : List String) (level : Nat) : List (List String) :=
  if level = 0 then finder.searchPath else [file.take (file.length - level)]

def components (name : String) : List String :=
  (Dotted.split '.' name.toList).map String.ofList

/-- The files that a statement of a file resolves to: the module it names, and
behind `from` the submodules among the names that the module does not bind. -/
def resolutions (file : List String) : ImportNode → List (List String)
  | .importModules names =>
    names.filterMap fun imported => finder.locate finder.searchPath (components imported.name)
  | .importFrom module names level =>
    let start := finder.startOf file level
    let parts := (module.map components).getD []
    let named := finder.locate start parts
    let submodules := names.filter fun imported =>
      imported.name ≠ "*" && !named.any (finder.binds · imported.name)
    named.toList ++
      submodules.filterMap fun imported => finder.locate start (parts ++ [imported.name])

end Finder

namespace Project

variable (project : Project)

/-- Where a file stands. -/
def location (below : List String) : List String := (project.path below).absolute project.cwd

/-- The syntax tree of the test contains an import that resolves to the file. -/
def ImportsFile (finder : Finder) (test below : List String) : Prop :=
  ∃ imports, project.source test = .parsed imports ∧ ∃ node ∈ imports,
    project.location below ∈ finder.resolutions (project.location test) node

/-- Every test that imports a source file is listed for it. -/
def Sound (finder : Finder) : Prop :=
  ∀ below ∈ project.sourceFiles, ∀ test ∈ project.testFiles,
    project.ImportsFile finder test below →
      ∃ tests, project.testsFor (project.path below) = .ok tests ∧ project.path test ∈ tests

/-- The map is sound exactly where no test file raises and every test that imports
a source file has a statement that names a module with the stem of the file as its
last component, and something of it other than a star. -/
theorem sound_iff (finder : Finder) :
    project.Sound finder ↔
      ∀ below ∈ project.sourceFiles, ∀ test ∈ project.testFiles,
        project.ImportsFile finder test below →
          (∀ other ∈ project.testFiles, (project.source other).Readable) ∧
            (project.source test).Names (component below) := by
  constructor
  · intro sound below among test isTest importsIt
    obtain ⟨readable, _, names⟩ := (listed_iff among).mp (sound below among test isTest importsIt)
    exact ⟨readable, names⟩
  · intro each below among test isTest importsIt
    obtain ⟨readable, names⟩ := each below among test isTest importsIt
    exact (listed_iff among).mpr ⟨readable, isTest, names⟩

/-- Python with the root as its only entry on the search path, where modules bind
no names of their own. -/
def finderAtRoot : Finder where
  searchPath := [project.root.absolute project.cwd]
  isFile file := (project.files.keys.map project.location).contains file
  isDir directory := (project.files.keys.map project.location).any fun file =>
    directory.isPrefixOf file
  binds _ _ := false

end Project

def modProject : Project where
  cwd := ["work"]
  root := ⟨false, []⟩
  files := Dict.ofList
    [(["pkg", "__init__.py"], .parsed []), (["pkg", "mod.py"], .parsed []),
      (["tests", "test_mod.py"], .parsed [.importFrom (some "pkg") [⟨"mod", none⟩] 0])]
  isPresent _ := true
  isPresent_root _ _ := rfl
  isPresent_file _ _ := rfl

/-- A submodule that is imported from its package is missed. -/
theorem not_sound_modProject : ¬∀ project : Project, project.Sound project.finderAtRoot := by
  intro sound
  have present : modProject.isPresent modProject.root = true := rfl
  have source : ["pkg", "mod.py"] ∈ modProject.sourceFiles := by
    unfold Project.sourceFiles
    rw [if_pos present, List.mem_mergeSort]
    decide +kernel
  have test : ["tests", "test_mod.py"] ∈ modProject.testFiles := by
    unfold Project.testFiles
    rw [if_pos present, List.mem_mergeSort]
    decide +kernel
  have importsIt : modProject.ImportsFile modProject.finderAtRoot ["tests", "test_mod.py"]
      ["pkg", "mod.py"] :=
    ⟨_, rfl, _, List.mem_cons_self, by decide +kernel⟩
  have listed := sound modProject _ source _ test importsIt
  obtain ⟨_, _, node, among, names⟩ := (Project.listed_iff source).mp listed
  obtain rfl := List.mem_singleton.mp among
  exact absurd names.1 (by decide +kernel)

end Swarmind.Orchestrator.TestDependencyMap
