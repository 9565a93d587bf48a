import Mathlib.Data.List.MinMax
import Mathlib.Data.List.Sort
import Swarmind.Library.Json
import Swarmind.Library.Merge
import Swarmind.Library.Python
import Swarmind.Library.Runs

/-!
Owns the delta channel and its state directory: one delta file for each step,
snapshots of the consolidated state, and the replay that resumes from them.
The directory holds JSON; memory holds Python values, and what is read back is
what `loads` makes of the written members.

It also owns resume over whole runs: steps, snapshots, crashes and reopened channels on
one directory. A channel that did not resume knows its own steps only, and so
do the snapshots it writes. What ties memory, snapshots and delta files
together is that each of them is a merge of the steps it lists, and that the
delta files list every accepted step.
-/

namespace Swarmind.Orchestrator.Checkpoints

open Swarmind.Library

/-- The consolidated state, or one delta: a Python dictionary. -/
abbrev Delta := Dict PyKey PyValue

/-- The dictionary read back from the members of a JSON object. -/
def loadsDict (members : List (String × Json)) : Delta := Dict.ofList (Json.loadsMembers members)

structure SnapshotFile where
  includedStepIds : List String
  state : List (String × Json)

/-- The state directory: delta files by step id, snapshots by sequence. -/
structure StateDir where
  deltas : Dict String (List (String × Json))
  snapshots : Dict Nat SnapshotFile

def StateDir.empty : StateDir := ⟨Dict.empty, Dict.empty⟩

def deltaPath (stepId : String) : String := "delta_" ++ stepId ++ ".json"

def deltaFiles (dir : StateDir) : List (String × List (String × Json)) :=
  dir.deltas.entries.insertionSort fun left right => deltaPath left.1 ≤ deltaPath right.1

structure DeltaChannel where
  snapshotEvery : Nat
  state : Delta
  appliedSteps : List String
  pendingDeltas : Nat
  positive : 1 ≤ snapshotEvery

/-- Character of `[A-Za-z0-9._-]`. -/
def isStepIdChar (character : Char) : Bool :=
  character.isAlphanum || character == '.' || character == '_' || character == '-'

def validateStepId (stepId : String) : Except PyException Unit :=
  if isBlank stepId then
    .error (.valueError ("DeltaChannel.apply_step | WHAT=step_id_vacio " ++
      "| WHY=identificador_obligatorio_no_vacio | WHERE=apply_step"))
  else if !stepId.toList.all isStepIdChar then
    .error (.valueError ("DeltaChannel.apply_step | WHAT=step_id_invalido " ++
      "| WHY=caracteres_inseguros_para_filename | WHERE=apply_step" ++
      s!" | step_id={pyRepr stepId}"))
  else .ok ()

/-- What a call leaves behind: its answer, the channel and the directory. -/
structure Outcome (β : Type) where
  result : Except PyException β
  channel : DeltaChannel
  dir : StateDir

namespace DeltaChannel

def create (snapshotEvery : Nat) : Except PyException DeltaChannel :=
  if positive : 1 ≤ snapshotEvery then .ok ⟨snapshotEvery, Dict.empty, [], 0, positive⟩
  else .error (.valueError ("DeltaChannel.__init__ | WHAT=snapshot_every_invalido " ++
    s!"| WHY=debe_ser_mayor_o_igual_a_1 | WHERE=__init__ | valor={snapshotEvery}"))

variable (channel : DeltaChannel) (dir : StateDir)

def isApplied (stepId : String) : Bool :=
  channel.appliedSteps.contains stepId || dir.deltas.contains stepId

/-- `_write_delta`; `none` is the `TypeError` of `json.dumps`. -/
def writeDelta (dir : StateDir) (stepId : String) (delta : Delta) : Option StateDir :=
  (PyValue.dumpsMembers delta.entries).map fun members =>
    { dir with deltas := dir.deltas.set stepId members }

/-- `_persist_snapshot`, whose sequence is one more than the snapshots there. -/
def persistSnapshot : Option (DeltaChannel × StateDir) :=
  (PyValue.dumpsMembers channel.state.entries).map fun members =>
    ({ channel with pendingDeltas := 0 },
      { dir with snapshots :=
          dir.snapshots.set (dir.snapshots.size + 1) ⟨channel.appliedSteps, members⟩ })

/-- Memory after the delta file of a step has been written. -/
def merge (stepId : String) (delta : Delta) : DeltaChannel :=
  { channel with
    state := channel.state.update delta
    appliedSteps := channel.appliedSteps ++ [stepId]
    pendingDeltas := channel.pendingDeltas + 1 }

def applyStep (stepId : String) (delta : Delta) : Outcome Unit :=
  match validateStepId stepId with
  | .error raised => ⟨.error raised, channel, dir⟩
  | .ok () =>
    if channel.isApplied dir stepId then ⟨.ok (), channel, dir⟩
    else
      match writeDelta dir stepId delta with
      | none => ⟨.error .notSerializable, channel, dir⟩
      | some written =>
        let merged := channel.merge stepId delta
        if merged.snapshotEvery ≤ merged.pendingDeltas then
          match merged.persistSnapshot written with
          | none => ⟨.error .notSerializable, merged, written⟩
          | some (persisted, snapshotted) => ⟨.ok (), persisted, snapshotted⟩
        else ⟨.ok (), merged, written⟩

def snapshot : Outcome Delta :=
  match channel.persistSnapshot dir with
  | none => ⟨.error .notSerializable, channel, dir⟩
  | some (persisted, snapshotted) => ⟨.ok persisted.state, persisted, snapshotted⟩

/-- The replay loop of `resume`: delta files that the snapshot includes are
skipped. -/
def replay (included : List String) (channel : DeltaChannel) :
    List (String × List (String × Json)) → DeltaChannel
  | [] => channel
  | (stepId, members) :: rest =>
    if stepId ∈ included then replay included channel rest
    else replay included (channel.merge stepId (loadsDict members)) rest

def latestSnapshot : Option SnapshotFile :=
  (dir.snapshots.entries.argmax Prod.fst).map Prod.snd

/-- `resume`: `None` where nothing is persisted, and then memory stays. -/
def resume : Option Delta × DeltaChannel :=
  if dir.snapshots.entries.isEmpty && dir.deltas.entries.isEmpty then (none, channel)
  else
    let base : SnapshotFile := (latestSnapshot dir).getD ⟨[], []⟩
    let restored := { channel with
      state := loadsDict base.state
      appliedSteps := base.includedStepIds
      pendingDeltas := 0 }
    let resumed := restored.replay base.includedStepIds (deltaFiles dir)
    (some resumed.state, resumed)

end DeltaChannel

/-! ### Deltas that are read back -/

/-- A delta that `json` reads back as it was given: string keys and native
values. -/
def JsonObject (delta : Delta) : Prop :=
  ∀ entry ∈ delta.entries, (∃ name, entry.1 = .str name) ∧ entry.2.Native

namespace JsonObject

private theorem empty : JsonObject Dict.empty := by
  intro entry member
  exact absurd member List.not_mem_nil

private theorem update {state delta : Delta} (old : JsonObject state) (new : JsonObject delta) :
    JsonObject (state.update delta) := by
  intro entry member
  rcases Dict.mem_of_mem_foldl_set member with before | written
  · exact old entry before
  · exact new entry written

private theorem loadsDict (members : List (String × Json)) : JsonObject (loadsDict members) := by
  intro entry member
  exact Json.native_loadsMembers members entry (Dict.mem_of_mem_ofList member)

private theorem dumps {delta : Delta} (object : JsonObject delta) :
    ∃ members, PyValue.dumpsMembers delta.entries = some members ∧
      Checkpoints.loadsDict members = delta := by
  obtain ⟨members, written, back⟩ := PyValue.dumpsMembers_native delta.entries object
  refine ⟨members, written, ?_⟩
  rw [Checkpoints.loadsDict, back, Dict.ofList_entries]

end JsonObject

/-! ### Sessions -/

/-- The live channel, its directory, and the delta first accepted for each
step, in the order of acceptance. -/
structure Session where
  channel : DeltaChannel
  dir : StateDir
  accepted : Dict String Delta

namespace Session

inductive Action where
  | applyStep (stepId : String) (delta : Delta)
  | snapshot
  | resume
  | reopen (snapshotEvery : Nat)

inductive Answer where
  | applied (result : Except PyException Unit)
  | snapshotted (result : Except PyException Delta)
  | resumed (state : Option Delta)
  | opened (result : Except PyException Unit)

/-- A step is accepted when its delta file is new. -/
def step (session : Session) : Action → Answer × Session
  | .applyStep stepId delta =>
    let outcome := session.channel.applyStep session.dir stepId delta
    let isNew := outcome.dir.deltas.contains stepId && !session.dir.deltas.contains stepId
    (.applied outcome.result,
      { channel := outcome.channel
        dir := outcome.dir
        accepted := if isNew then session.accepted.set stepId delta else session.accepted })
  | .snapshot =>
    let outcome := session.channel.snapshot session.dir
    (.snapshotted outcome.result,
      { session with channel := outcome.channel, dir := outcome.dir })
  | .resume =>
    let resumed := session.channel.resume session.dir
    (.resumed resumed.1, { session with channel := resumed.2 })
  | .reopen snapshotEvery =>
    match DeltaChannel.create snapshotEvery with
    | .ok channel => (.opened (.ok ()), { session with channel := channel })
    | .error raised => (.opened (.error raised), session)

def machine : Machine Session Action Answer := ⟨step⟩

/-- The first channel on an empty directory. -/
def first (snapshotEvery : Nat) (positive : 1 ≤ snapshotEvery) : Session :=
  ⟨⟨snapshotEvery, Dict.empty, [], 0, positive⟩, StateDir.empty, Dict.empty⟩

/-- Nothing has been persisted: no step was accepted and no snapshot taken. -/
def Blank (session : Session) : Prop :=
  session.accepted.entries = [] ∧ session.dir.snapshots.entries = []

/-- Deltas handed to the channel are JSON objects. -/
def Objects (_ : Session) : Action → Prop
  | .applyStep _ delta => JsonObject delta
  | _ => True

/-! ### The invariant -/

/-- `state` merges the accepted deltas of the listed steps, each listed once. -/
structure Covers (accepted : Dict String Delta) (steps : List String) (state : Delta) : Prop where
  distinct : steps.Nodup
  known : ∀ stepId ∈ steps, stepId ∈ accepted.keys
  merges : Dict.Merges (steps.filterMap accepted.get?) state
  object : JsonObject state

namespace Covers

variable {accepted : Dict String Delta} {steps : List String} {state : Delta}

private theorem nil (accepted : Dict String Delta) : Covers accepted [] Dict.empty :=
  ⟨List.nodup_nil, fun _ member => absurd member List.not_mem_nil, Dict.Merges.nil,
    JsonObject.empty⟩

private theorem snoc (covers : Covers accepted steps state) {stepId : String} {delta : Delta}
    (fresh : stepId ∉ steps) (found : accepted.get? stepId = some delta)
    (object : JsonObject delta) :
    Covers accepted (steps ++ [stepId]) (state.update delta) where
  distinct := by
    rw [List.nodup_append]
    refine ⟨covers.distinct, List.nodup_singleton _, ?_⟩
    rintro listed member other last rfl
    exact fresh (List.mem_singleton.mp last ▸ member)
  known := by
    intro other member
    rcases List.mem_append.mp member with old | new
    · exact covers.known other old
    · rw [List.mem_singleton.mp new, Dict.mem_keys_iff]
      exact ⟨delta, found⟩
  merges := by
    have last : [stepId].filterMap accepted.get? = [delta] := by simp [found]
    rw [List.filterMap_append, last]
    exact covers.merges.update delta
  object := covers.object.update object

private theorem set (covers : Covers accepted steps state) {stepId : String}
    (fresh : stepId ∉ accepted.keys) (delta : Delta) :
    Covers (accepted.set stepId delta) steps state where
  distinct := covers.distinct
  known := by
    intro other member
    rw [Dict.mem_keys_set]
    exact Or.inr (covers.known other member)
  merges := by
    have same : steps.filterMap (accepted.set stepId delta).get? =
        steps.filterMap accepted.get? := by
      apply List.filterMap_congr
      intro other member
      apply Dict.get?_set_of_ne
      rintro rfl
      exact fresh (covers.known _ member)
    rw [same]
    exact covers.merges
  object := covers.object

end Covers

/-- Delta files hold the accepted deltas; memory and every snapshot cover the
steps they list. -/
structure Sound (session : Session) : Prop where
  objects : ∀ stepId delta, session.accepted.get? stepId = some delta → JsonObject delta
  files : ∀ stepId,
    (session.dir.deltas.get? stepId).map loadsDict = session.accepted.get? stepId
  memory : Covers session.accepted session.channel.appliedSteps session.channel.state
  snapshots : ∀ sequence file, session.dir.snapshots.get? sequence = some file →
    Covers session.accepted file.includedStepIds (loadsDict file.state)

private theorem sound_first (snapshotEvery : Nat) (positive : 1 ≤ snapshotEvery) :
    Sound (first snapshotEvery positive) where
  objects := by
    intro stepId delta found
    cases found
  files := fun _ => rfl
  memory := Covers.nil _
  snapshots := by
    intro sequence file found
    cases found

namespace Sound

variable {session : Session}

section

variable (sound : session.Sound)
include sound

private theorem contains_eq (stepId : String) :
    session.dir.deltas.contains stepId = session.accepted.contains stepId := by
  rw [Dict.contains, Dict.contains, ← sound.files, Option.isSome_map]

private theorem persistSnapshot :
    ∃ channel dir, session.channel.persistSnapshot session.dir = some (channel, dir) ∧
      channel.state = session.channel.state ∧ dir.deltas = session.dir.deltas ∧
      Sound { session with channel := channel, dir := dir } := by
  obtain ⟨members, written, back⟩ := sound.memory.object.dumps
  have persisted : session.channel.persistSnapshot session.dir = some
      ({ session.channel with pendingDeltas := 0 },
        { session.dir with
          snapshots := session.dir.snapshots.set (session.dir.snapshots.size + 1)
            ⟨session.channel.appliedSteps, members⟩ }) := by
    rw [DeltaChannel.persistSnapshot, written, Option.map_some]
  refine ⟨_, _, persisted, rfl, rfl, ?_⟩
  refine ⟨sound.objects, sound.files, sound.memory, ?_⟩
  intro sequence file found
  rw [Dict.get?_set] at found
  split_ifs at found
  · cases found
    show Covers _ _ (loadsDict members)
    rw [back]
    exact sound.memory
  · exact sound.snapshots sequence file found

/-- Everything `apply_step` can do with a JSON object: leave all as it is, or
write a delta file and cover one more step. -/
theorem applyStep (stepId : String) {delta : Delta}
    (object : JsonObject delta) :
    (∃ result, session.channel.applyStep session.dir stepId delta =
        ⟨result, session.channel, session.dir⟩) ∨
      (session.dir.deltas.contains stepId = false ∧
        ∃ channel dir, session.channel.applyStep session.dir stepId delta =
            ⟨.ok (), channel, dir⟩ ∧ dir.deltas.contains stepId = true ∧
          Sound ⟨channel, dir, session.accepted.set stepId delta⟩) := by
  unfold DeltaChannel.applyStep
  cases validated : validateStepId stepId with
  | error raised => exact Or.inl ⟨_, rfl⟩
  | ok valid =>
    by_cases applied : session.channel.isApplied session.dir stepId = true
    · exact Or.inl ⟨.ok (), by simp only [applied, if_true]⟩
    · right
      rw [DeltaChannel.isApplied, Bool.or_eq_true, not_or] at applied
      obtain ⟨members, written, back⟩ := object.dumps
      have missing : session.dir.deltas.contains stepId = false := by simpa using applied.2
      have unlisted : stepId ∉ session.channel.appliedSteps := by simpa using applied.1
      have fresh : stepId ∉ session.accepted.keys := by
        rw [← Dict.contains_iff, ← sound.contains_eq, missing]
        exact Bool.false_ne_true
      -- the session between the delta file and a possible snapshot
      have merged : Sound ⟨session.channel.merge stepId delta,
          { session.dir with deltas := session.dir.deltas.set stepId members },
          session.accepted.set stepId delta⟩ := by
        constructor
        · intro other value found
          rw [Dict.get?_set] at found
          split_ifs at found
          · cases found
            exact object
          · exact sound.objects other value found
        · intro other
          show ((session.dir.deltas.set stepId members).get? other).map loadsDict = _
          rw [Dict.get?_set, Dict.get?_set]
          split_ifs
          · rw [Option.map_some, back]
          · exact sound.files other
        · exact (sound.memory.set fresh delta).snoc unlisted (Dict.get?_set_self _ _ _) object
        · intro sequence file found
          exact (sound.snapshots sequence file found).set fresh delta
      have unapplied : session.channel.isApplied session.dir stepId = false := by
        rw [DeltaChannel.isApplied, missing, Bool.or_false]
        simpa using unlisted
      refine ⟨missing, ?_⟩
      simp only [unapplied, Bool.false_eq_true, if_false, DeltaChannel.writeDelta, written,
        Option.map_some]
      split_ifs
      · obtain ⟨channel, dir, persisted, _, sameDeltas, stillSound⟩ := merged.persistSnapshot
        simp only at persisted
        simp only [persisted]
        refine ⟨channel, dir, rfl, ?_, stillSound⟩
        rw [sameDeltas]
        simp [Dict.contains]
      · exact ⟨_, _, rfl, by simp [Dict.contains], merged⟩

private theorem latestSnapshot :
    Covers session.accepted
      ((DeltaChannel.latestSnapshot session.dir).getD ⟨[], []⟩).includedStepIds
      (loadsDict ((DeltaChannel.latestSnapshot session.dir).getD ⟨[], []⟩).state) := by
  unfold DeltaChannel.latestSnapshot
  cases latest : session.dir.snapshots.entries.argmax Prod.fst with
  | none => exact Covers.nil _
  | some entry =>
    have member : entry ∈ session.dir.snapshots.entries := List.argmax_mem latest
    exact sound.snapshots entry.1 entry.2 ((Dict.get?_eq_some_iff _ _ _).mpr member)

private theorem replay {included : List String}
    {files : List (String × List (String × Json))} (channel : DeltaChannel)
    (distinct : (files.map Prod.fst).Nodup)
    (written : ∀ file ∈ files, session.dir.deltas.get? file.1 = some file.2)
    (fresh : ∀ stepId ∈ files.map Prod.fst, stepId ∉ included → stepId ∉ channel.appliedSteps)
    (covers : Covers session.accepted channel.appliedSteps channel.state) :
    Covers session.accepted (channel.replay included files).appliedSteps
        (channel.replay included files).state ∧
      (channel.replay included files).appliedSteps =
        channel.appliedSteps ++ (files.map Prod.fst).filter fun stepId => stepId ∉ included := by
  induction files generalizing channel with
  | nil => exact ⟨covers, (List.append_nil _).symm⟩
  | cons file rest ih =>
    obtain ⟨stepId, members⟩ := file
    rw [List.map_cons, List.nodup_cons] at distinct
    have writtenRest : ∀ other ∈ rest, session.dir.deltas.get? other.1 = some other.2 :=
      fun other member => written other (List.mem_cons_of_mem _ member)
    by_cases skipped : stepId ∈ included
    · have later := ih channel distinct.2 writtenRest
        (fun other member => fresh other (List.mem_cons_of_mem _ member)) covers
      simp only [DeltaChannel.replay, if_pos skipped, List.map_cons]
      rw [List.filter_cons_of_neg (by simpa using skipped)]
      exact later
    · have unlisted : stepId ∉ channel.appliedSteps :=
        fresh stepId (by simp) skipped
      have accepted : session.accepted.get? stepId = some (loadsDict members) := by
        rw [← sound.files, written _ List.mem_cons_self, Option.map_some]
      have later := ih (channel.merge stepId (loadsDict members))
        distinct.2 writtenRest ?_ (covers.snoc unlisted accepted (JsonObject.loadsDict members))
      · simp only [DeltaChannel.replay, if_neg skipped, List.map_cons]
        rw [List.filter_cons_of_pos (by simpa using skipped)]
        refine ⟨later.1, later.2.trans ?_⟩
        rw [DeltaChannel.merge, List.append_assoc]
        rfl
      · intro other member included
        rw [DeltaChannel.merge, List.mem_append, List.mem_singleton, not_or]
        refine ⟨fresh other (List.mem_cons_of_mem _ member) included, ?_⟩
        rintro rfl
        exact distinct.1 member

private theorem resume (channel : DeltaChannel) (persisted : ¬ session.Blank) :
    ∃ resumed : DeltaChannel,
      channel.resume session.dir = (some resumed.state, resumed) ∧
        Covers session.accepted resumed.appliedSteps resumed.state ∧
        resumed.appliedSteps.Perm session.accepted.keys := by
  have nonempty : (session.dir.snapshots.entries.isEmpty &&
      session.dir.deltas.entries.isEmpty) = false := by
    rw [Bool.and_eq_false_iff, List.isEmpty_eq_false_iff, List.isEmpty_eq_false_iff]
    by_contra both
    rw [not_or, not_not, not_not] at both
    refine persisted ⟨?_, both.1⟩
    rw [Dict.entries_eq_nil_iff]
    intro stepId
    rw [← sound.files, (Dict.entries_eq_nil_iff _).mp both.2, Option.map_none]
  have sorted : ((deltaFiles session.dir).map Prod.fst).Perm session.dir.deltas.keys :=
    (List.perm_insertionSort _ _).map Prod.fst
  have written : ∀ file ∈ deltaFiles session.dir,
      session.dir.deltas.get? file.1 = some file.2 := by
    intro file member
    rw [Dict.get?_eq_some_iff]
    exact (List.perm_insertionSort _ _).mem_iff.mp member
  let base := (DeltaChannel.latestSnapshot session.dir).getD ⟨[], []⟩
  let restored : DeltaChannel :=
    { channel with
      state := loadsDict base.state
      appliedSteps := base.includedStepIds
      pendingDeltas := 0 }
  obtain ⟨covers, steps⟩ := sound.replay restored
    (sorted.nodup_iff.mpr session.dir.deltas.keys_nodup) written (fun _ _ fresh => fresh)
    sound.latestSnapshot
  refine ⟨restored.replay base.includedStepIds (deltaFiles session.dir), ?_, covers, ?_⟩
  · simp only [DeltaChannel.resume, nonempty, Bool.false_eq_true, if_false]
    rfl
  · rw [List.perm_ext_iff_of_nodup covers.distinct session.accepted.keys_nodup]
    intro stepId
    refine ⟨covers.known stepId, fun accepted => ?_⟩
    have onDisk : stepId ∈ session.dir.deltas.keys := by
      rw [← Dict.contains_iff, sound.contains_eq, Dict.contains_iff]
      exact accepted
    rw [steps, List.mem_append, List.mem_filter]
    by_cases included : stepId ∈ base.includedStepIds
    · exact Or.inl included
    · exact Or.inr ⟨sorted.mem_iff.mpr onDisk, decide_eq_true included⟩

private theorem resume_blank (channel : DeltaChannel) (blank : session.Blank) :
    channel.resume session.dir = (none, channel) := by
  have noFiles : session.dir.deltas.entries = [] := by
    rw [Dict.entries_eq_nil_iff]
    intro stepId
    rw [← Option.map_eq_none_iff, sound.files]
    exact (Dict.entries_eq_nil_iff _).mp blank.1 stepId
  simp only [DeltaChannel.resume, blank.2, noFiles, List.isEmpty_nil, Bool.and_self, if_true]

end

end Sound

private theorem sound_step {session : Session} {action : Action} (sound : session.Sound)
    (objects : Objects session action) : (session.step action).2.Sound := by
  cases action with
  | applyStep stepId delta =>
    rcases sound.applyStep stepId objects with
      ⟨result, same⟩ | ⟨missing, channel, dir, applied, present, stillSound⟩
    · simp only [step, same, Bool.and_not_self, Bool.false_eq_true, if_false]
      exact sound
    · simp only [step, applied, present, missing, Bool.not_false, Bool.and_self, if_true]
      exact stillSound
  | snapshot =>
    obtain ⟨channel, dir, persisted, _, _, stillSound⟩ := sound.persistSnapshot
    simp only [step, DeltaChannel.snapshot, persisted]
    exact stillSound
  | resume =>
    by_cases blank : session.Blank
    · simp only [step, sound.resume_blank session.channel blank]
      exact sound
    · obtain ⟨resumed, equal, covers, _⟩ := sound.resume session.channel blank
      simp only [step, equal]
      exact ⟨sound.objects, sound.files, covers, sound.snapshots⟩
  | reopen snapshotEvery =>
    unfold step DeltaChannel.create
    by_cases positive : 1 ≤ snapshotEvery
    · simp only [dif_pos positive]
      exact ⟨sound.objects, sound.files, Covers.nil _, sound.snapshots⟩
    · simp only [dif_neg positive]
      exact sound

/-! ### Resume after any history -/

/-- The resumed state is the merge of the accepted deltas in whatever order
they are merged, and each accepted step is counted once. -/
structure ResumesToMerge (equal : PyValue → PyValue → Prop) (accepted : Dict String Delta)
    (resumed : Option Delta × DeltaChannel) : Prop where
  state : ∃ state, resumed.1 = some state ∧ ∀ order : List Delta, order.Perm accepted.values →
    ∀ key, Option.Rel equal (state.get? key) ((Dict.mergeAll order).get? key)
  steps : resumed.2.appliedSteps.Perm accepted.keys
  once : resumed.2.appliedSteps.Nodup

private theorem Sound.resumesToMerge {session : Session} (sound : session.Sound)
    {equal : PyValue → PyValue → Prop} (consistent : Dict.Consistent equal session.accepted.values)
    (channel : DeltaChannel) (persisted : ¬ session.Blank) :
    ResumesToMerge equal session.accepted (channel.resume session.dir) := by
  obtain ⟨resumed, equation, covers, steps⟩ := sound.resume channel persisted
  have parts : (resumed.appliedSteps.filterMap session.accepted.get?).Perm
      session.accepted.values := by
    rw [← Dict.filterMap_keys]
    exact steps.filterMap _
  rw [equation]
  refine ⟨⟨resumed.state, rfl, fun order permuted key => ?_⟩, steps, covers.distinct⟩
  have merged : Dict.Merges session.accepted.values resumed.state :=
    covers.merges.of_mem_iff fun _ => parts.mem_iff
  have ordered : Dict.Merges session.accepted.values (Dict.mergeAll order) :=
    (Dict.Merges.of_mergeAll order).of_mem_iff fun _ => permuted.mem_iff
  exact merged.related ordered consistent key

/-- After any history, `resume` on any channel of the directory gives nothing
when nothing is persisted, and the merge of the accepted deltas otherwise. -/
theorem resume_eq_merge (equal : PyValue → PyValue → Prop) (snapshotEvery : Nat)
    (positive : 1 ≤ snapshotEvery) (actions : List Action)
    (objects : machine.Along Objects (first snapshotEvery positive) actions)
    (consistent : Dict.Consistent equal
      (machine.after (first snapshotEvery positive) actions).accepted.values)
    (channel : DeltaChannel) :
    ((machine.after (first snapshotEvery positive) actions).Blank →
        (channel.resume (machine.after (first snapshotEvery positive) actions).dir).1 = none) ∧
      (¬ (machine.after (first snapshotEvery positive) actions).Blank →
        ResumesToMerge equal (machine.after (first snapshotEvery positive) actions).accepted
          (channel.resume (machine.after (first snapshotEvery positive) actions).dir)) := by
  have sound : (machine.after (first snapshotEvery positive) actions).Sound :=
    Machine.invariant_after Sound (fun session action sound objects => sound_step sound objects)
      (sound_first snapshotEvery positive) objects
  exact ⟨fun blank => congrArg Prod.fst (sound.resume_blank channel blank),
    fun persisted => sound.resumesToMerge consistent channel persisted⟩

/-- One JSON object with one key. -/
def tokens : Delta := Dict.ofList [(.str "tokens", .int 10)]

private theorem tokens_object : JsonObject tokens := by
  intro entry member
  cases List.mem_singleton.mp member
  exact ⟨⟨"tokens", rfl⟩, .int 10, rfl, rfl⟩

/-- The first channel takes a snapshot; the second one never resumes. -/
def twoChannels : List Action :=
  [.applyStep "s1" tokens, .snapshot, .reopen 1, .applyStep "s2" tokens]

/-- A third channel resumes to the merge of what the two accepted. -/
theorem twoChannels_resume :
    ((machine.after (first 2 (by decide)) twoChannels).Blank →
        (DeltaChannel.resume ⟨3, Dict.empty, [], 0, by decide⟩
          (machine.after (first 2 (by decide)) twoChannels).dir).1 = none) ∧
      (¬ (machine.after (first 2 (by decide)) twoChannels).Blank →
        ResumesToMerge Eq (machine.after (first 2 (by decide)) twoChannels).accepted
          (DeltaChannel.resume ⟨3, Dict.empty, [], 0, by decide⟩
            (machine.after (first 2 (by decide)) twoChannels).dir)) := by
  have objects : machine.Along Objects (first 2 (by decide)) twoChannels :=
    ⟨tokens_object, trivial, trivial, tokens_object, trivial⟩
  refine resume_eq_merge Eq 2 (by decide) twoChannels objects ?_ _
  have accepted : (machine.after (first 2 (by decide)) twoChannels).accepted.values =
      [tokens, tokens] := by rfl
  rw [accepted]
  intro left leftMember right rightMember key first second inLeft inRight
  have sameLeft : left = tokens := by simpa using leftMember
  have sameRight : right = tokens := by simpa using rightMember
  rw [sameLeft] at inLeft
  rw [sameRight, inLeft] at inRight
  exact Option.some.inj inRight

/-- Nothing was done: `resume` returns `None`, not the empty merge. -/
theorem resume_of_nothing :
    ¬ ResumesToMerge Eq (machine.after (first 1 (by decide)) []).accepted
        (DeltaChannel.resume ⟨1, Dict.empty, [], 0, by decide⟩
          (machine.after (first 1 (by decide)) []).dir) := by
  intro resumes
  obtain ⟨state, returned, _⟩ := resumes.state
  cases returned

end Session

end Swarmind.Orchestrator.Checkpoints
