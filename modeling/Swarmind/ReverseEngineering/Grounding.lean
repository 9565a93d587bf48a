import Swarmind.ReverseEngineering.Investigation

/-!
Owns the runs of one investigation over an append-only ledger, and the hard rules of its
findings, hypotheses and unknowns. The rules are checked by `add_finding` and
`resolve_unknown`; `add_unknown` takes over any unknown, two items of one seed have one id,
and `save` counts the revision before it writes.
-/

namespace Swarmind.ReverseEngineering.Grounding

open Swarmind.Library

/-! ### Calls -/

structure World where
  investigation : Investigation
  ledger : EvidenceLedger
  file : Option Json

def World.fresh : World := { investigation := {}, ledger := Dict.empty, file := none }

inductive Call where
  | observe (evidence : Evidence)
  | operate (operation : Operation) (basedOnRevision : Option Int)
  | save (now : String) (fault : Option Investigation.Fault)
  | load (fault : Option PyException)

/-- The arguments have their declared types. -/
def Call.Declared : Call → Prop
  | .operate operation _ => operation.Declared
  | _ => True

abbrev DeclaredCall : Type := { call : Call // call.Declared }

variable (hash : String → String)

/-- A call and what it returns; one that raises leaves the world as its last write has. -/
def step (world : World) : Call → Except PyException (Option String) × World
  | .observe evidence =>
    match EvidenceLedger.add hash world.ledger evidence with
    | .ok (id, ledger) => (.ok (some id), { world with ledger := ledger })
    | .error raised => (.error raised, world)
  | .operate operation basedOnRevision =>
    match operation.apply hash world.ledger world.investigation basedOnRevision with
    | .ok (id, next) => (.ok id, { world with investigation := next })
    | .error raised => (.error raised, world)
  | .save now fault =>
    let saved := world.investigation.save now world.file fault
    (saved.1.map fun _ => none,
      { world with investigation := saved.2.1, file := saved.2.2 })
  | .load (some raised) => (.error raised, world)
  | .load none =>
    match Investigation.load world.file with
    | .ok next => (.ok none, { world with investigation := next })
    | .error raised => (.error raised, world)

def machine : Machine World DeclaredCall (Except PyException (Option String)) where
  step world call := step hash world call.1

/-! ### The rules -/

/-- What a resolved unknown owes. -/
def Settled (ledger : EvidenceLedger) (unknown : Unknown) : Prop :=
  (∃ text, unknown.resolution = .str text ∧ isBlank text = false) ∧
    ∃ id ∈ unknown.evidenceFor, id ∈ ledger.keys

structure Grounded (ledger : EvidenceLedger) (investigation : Investigation) : Prop where
  findings : ∀ finding ∈ investigation.findings, finding.evidenceIds ≠ [] ∧
    ∀ id ∈ finding.evidenceIds, id ∈ ledger.keys
  resolved : ∀ unknown ∈ investigation.unknowns, unknown.status = .resolved →
    Settled ledger unknown
  hypothesisIds : (investigation.hypotheses.map Hypothesis.id).Nodup
  unknownIds : (investigation.unknowns.map Unknown.id).Nodup

/-- No item under the id is left in its old state. -/
def Updated (investigation : Investigation) : Operation → Prop
  | .updateHypothesis id status _ =>
    ∀ hypothesis ∈ investigation.hypotheses, hypothesis.id = id → hypothesis.status = status
  | .resolveUnknown id resolution evidenceFor =>
    ∀ unknown ∈ investigation.unknowns, unknown.id = id → unknown.status = .resolved ∧
      unknown.resolution = .str resolution ∧ unknown.evidenceFor = evidenceFor
  | _ => True

/-- A call that raises changes nothing, one that returns has updated what it names. -/
def Kept (world : World) (call : Call) : Prop :=
  match (step hash world call).1 with
  | .error _ => (step hash world call).2.investigation = world.investigation
  | .ok _ => ∀ operation basedOnRevision, call = .operate operation basedOnRevision →
      Updated (step hash world call).2.investigation operation

/-- What the entry points leave unchecked: an id that is not there yet, and what a resolved
unknown owes. -/
def Brings (ledger : EvidenceLedger) (investigation : Investigation)
    (basedOnRevision : Option Int) : Operation → Prop
  | .addHypothesis claim _ supporting contradicting =>
    investigation.checkRevision basedOnRevision = .ok () →
      checkIds ledger (supporting ++ contradicting) = .ok () →
        ∀ id, Investigation.hypothesisId hash claim = .ok id →
          id ∉ investigation.hypotheses.map Hypothesis.id
  | .addUnknown unknown =>
    investigation.checkRevision basedOnRevision = .ok () →
      unknown.id ∉ investigation.unknowns.map Unknown.id ∧
        (unknown.status = .resolved → Settled ledger unknown)
  | _ => True

/-- The condition on a call; a save has to succeed once it has counted the revision. -/
def Sound (world : World) : Call → Prop
  | .operate operation basedOnRevision =>
    Brings hash world.ledger world.investigation basedOnRevision operation
  | .save _ (some (.state _)) | .save _ (some (.markdown _)) => False
  | _ => True

/-! ### Ledgers that grow -/

private theorem Settled.mono {ledger larger : EvidenceLedger}
    (grows : ∀ id ∈ ledger.keys, id ∈ larger.keys) {unknown : Unknown}
    (settled : Settled ledger unknown) : Settled larger unknown := by
  obtain ⟨resolution, id, among, known⟩ := settled
  exact ⟨resolution, id, among, grows id known⟩

private theorem Grounded.mono {ledger larger : EvidenceLedger}
    (grows : ∀ id ∈ ledger.keys, id ∈ larger.keys) {investigation : Investigation}
    (grounded : Grounded ledger investigation) : Grounded larger investigation where
  findings finding among :=
    ⟨(grounded.findings finding among).1,
      fun id cited => grows id ((grounded.findings finding among).2 id cited)⟩
  resolved unknown among status := (grounded.resolved unknown among status).mono grows
  hypothesisIds := grounded.hypothesisIds
  unknownIds := grounded.unknownIds

private theorem add_grows {ledger next : EvidenceLedger} {evidence : Evidence} {id : String}
    (added : EvidenceLedger.add hash ledger evidence = .ok (id, next)) :
    ∀ known ∈ ledger.keys, known ∈ next.keys := by
  obtain ⟨admitted, _, same⟩ := ok_of_map added
  cases same
  intro known held
  split_ifs
  · exact held
  · exact (Dict.mem_keys_set ledger _ known _).mpr (.inr held)

/-! ### One operation -/

section Operate

variable {ledger : EvidenceLedger} {investigation next : Investigation}
  {basedOnRevision : Option Int}

private theorem append_nodup_iff {ids : List String} (distinct : ids.Nodup) (id : String) :
    (ids ++ [id]).Nodup ↔ id ∉ ids := by
  rw [List.nodup_append]
  simp [distinct, eq_comm, List.forall_mem_ne]

private theorem around_ne {α : Type} {name : α → String} {before after : List α} {item : α}
    (distinct : ((before ++ item :: after).map name).Nodup) :
    ∀ other, other ∈ before ∨ other ∈ after → name other ≠ name item := by
  rw [List.map_append, List.map_cons, List.nodup_append, List.nodup_cons] at distinct
  obtain ⟨_, ⟨notAfter, _⟩, apart⟩ := distinct
  rintro other (among | among) same
  · exact apart _ (List.mem_map_of_mem among) _ List.mem_cons_self same
  · exact notAfter (same ▸ List.mem_map_of_mem among)

section

variable (grounded : Grounded ledger investigation)
include grounded

private theorem updateHypothesis_keeps {id : String} {status : HypothesisStatus}
    {notes : List String}
    (updated : investigation.updateHypothesis id status basedOnRevision notes = .ok next) :
    Grounded ledger next ∧ Updated next (.updateHypothesis id status notes) := by
  obtain ⟨before, hypothesis, after, split, rfl, rfl⟩ := Investigation.updateHypothesis_ok updated
  have distinct := grounded.hypothesisIds
  rw [split] at distinct
  constructor
  · refine ⟨grounded.findings, grounded.resolved, ?_, grounded.unknownIds⟩
    rw [List.map_append, List.map_cons] at distinct ⊢
    exact distinct
  · intro other among same
    rcases List.mem_append.mp among with early | late
    · exact absurd same (around_ne distinct other (.inl early))
    · rcases List.mem_cons.mp late with rfl | later
      · rfl
      · exact absurd same (around_ne distinct other (.inr later))

private theorem resolveUnknown_keeps {id resolution : String} {evidenceFor : List String}
    (resolved : investigation.resolveUnknown id resolution evidenceFor ledger basedOnRevision =
      .ok next) :
    Grounded ledger next ∧ Updated next (.resolveUnknown id resolution evidenceFor) := by
  obtain ⟨notBlank, cites, known, before, unknown, after, split, rfl, rfl⟩ :=
    Investigation.resolveUnknown_ok resolved
  have distinct := grounded.unknownIds
  have settled := grounded.resolved
  rw [split] at distinct settled
  rw [List.forall_mem_append, List.forall_mem_cons] at settled
  constructor
  · refine ⟨grounded.findings, ?_, grounded.hypothesisIds, ?_⟩
    · rw [List.forall_mem_append, List.forall_mem_cons]
      refine ⟨settled.1, fun _ => ⟨⟨resolution, rfl, notBlank⟩, ?_⟩, settled.2.2⟩
      obtain ⟨cited, among⟩ := List.exists_mem_of_ne_nil evidenceFor cites
      exact ⟨cited, among, known cited among⟩
    · rw [List.map_append, List.map_cons] at distinct ⊢
      exact distinct
  · intro other among same
    rcases List.mem_append.mp among with early | late
    · exact absurd same (around_ne distinct other (.inl early))
    · rcases List.mem_cons.mp late with rfl | later
      · exact ⟨rfl, rfl, rfl⟩
      · exact absurd same (around_ne distinct other (.inr later))

private theorem addFinding_keeps {statement id confidence : String} {evidenceIds : List String}
    (added : investigation.addFinding hash statement evidenceIds ledger confidence
      basedOnRevision = .ok (id, next)) : Grounded ledger next := by
  obtain ⟨cites, known, finding, rfl, rfl⟩ := Investigation.addFinding_ok added
  refine ⟨?_, grounded.resolved, grounded.hypothesisIds, grounded.unknownIds⟩
  exact List.forall_mem_append.mpr
    ⟨grounded.findings, List.forall_mem_singleton.mpr ⟨cites, known⟩⟩

private theorem addHypothesis_grounded_iff
    {claim id : String} {prediction : PyValue} {supporting contradicting : List String}
    (added : investigation.addHypothesis hash claim ledger prediction supporting contradicting
      basedOnRevision = .ok (id, next)) :
    Grounded ledger next ↔ Brings hash ledger investigation basedOnRevision
      (.addHypothesis claim prediction supporting contradicting) := by
  obtain ⟨current, known, computed, hypothesis, rfl, _, rfl⟩ :=
    Investigation.addHypothesis_ok added
  have fresh := append_nodup_iff grounded.hypothesisIds hypothesis.id
  constructor
  · rintro after _ _ other isOther
    rw [computed, Except.ok.injEq] at isOther
    rw [← isOther, ← fresh]
    have ids := after.hypothesisIds
    rwa [List.map_append] at ids
  · intro brings
    refine ⟨grounded.findings, grounded.resolved, ?_, grounded.unknownIds⟩
    rw [List.map_append]
    exact fresh.mpr (brings current known hypothesis.id computed)

private theorem addUnknown_grounded_iff {unknown : Unknown}
    {id : String} (added : investigation.addUnknown unknown basedOnRevision = .ok (id, next)) :
    Grounded ledger next ↔
      Brings hash ledger investigation basedOnRevision (.addUnknown unknown) := by
  obtain ⟨current, rfl⟩ := Investigation.addUnknown_ok added
  have fresh := append_nodup_iff grounded.unknownIds unknown.id
  constructor
  · rintro after _
    have ids := after.unknownIds
    rw [List.map_append] at ids
    exact ⟨fresh.mp ids, after.resolved unknown (List.mem_append_right _ List.mem_cons_self)⟩
  · intro brings
    obtain ⟨isFresh, settled⟩ := brings current
    refine ⟨grounded.findings, ?_, grounded.hypothesisIds, ?_⟩
    · exact List.forall_mem_append.mpr
        ⟨grounded.resolved, List.forall_mem_singleton.mpr settled⟩
    · rw [List.map_append]
      exact fresh.mpr isFresh

private theorem apply_ok_iff {operation : Operation}
    {id : Option String}
    (applied : operation.apply hash ledger investigation basedOnRevision = .ok (id, next)) :
    (Grounded ledger next ∧ Updated next operation) ↔
      Brings hash ledger investigation basedOnRevision operation := by
  have same {other : Investigation} (findings : other.findings = investigation.findings)
      (hypotheses : other.hypotheses = investigation.hypotheses)
      (unknowns : other.unknowns = investigation.unknowns) : Grounded ledger other :=
    ⟨findings ▸ grounded.findings, unknowns ▸ grounded.resolved,
      hypotheses ▸ grounded.hypothesisIds, unknowns ▸ grounded.unknownIds⟩
  cases operation with
  | setBrief brief =>
    obtain ⟨_, set, isNext⟩ := ok_of_map applied
    cases isNext
    rw [Investigation.setBrief_ok set]
    exact iff_of_true ⟨same rfl rfl rfl, trivial⟩ trivial
  | setPlan steps =>
    obtain ⟨_, set, isNext⟩ := ok_of_map applied
    cases isNext
    rw [Investigation.setPlan_ok set]
    exact iff_of_true ⟨same rfl rfl rfl, trivial⟩ trivial
  | addHypothesis claim prediction supporting contradicting =>
    obtain ⟨_, added, isNext⟩ := ok_of_map applied
    cases isNext
    exact (and_iff_left trivial).trans (addHypothesis_grounded_iff hash grounded added)
  | updateHypothesis id status notes =>
    obtain ⟨_, updated, isNext⟩ := ok_of_map applied
    cases isNext
    exact iff_of_true (updateHypothesis_keeps grounded updated) trivial
  | addFinding statement evidenceIds confidence =>
    obtain ⟨_, added, isNext⟩ := ok_of_map applied
    cases isNext
    exact iff_of_true ⟨addFinding_keeps hash grounded added, trivial⟩ trivial
  | addUnknown unknown =>
    obtain ⟨_, added, isNext⟩ := ok_of_map applied
    cases isNext
    exact (and_iff_left trivial).trans (addUnknown_grounded_iff hash grounded added)
  | resolveUnknown id resolution evidenceFor =>
    obtain ⟨_, resolved, isNext⟩ := ok_of_map applied
    cases isNext
    exact iff_of_true (resolveUnknown_keeps grounded resolved) trivial
  | setHandoff note =>
    obtain ⟨_, set, isNext⟩ := ok_of_map applied
    cases isNext
    rw [Investigation.setHandoff_ok set]
    exact iff_of_true ⟨same rfl rfl rfl, trivial⟩ trivial

end

private theorem brings_of_raised {operation : Operation} {raised : PyException}
    (refused : operation.apply hash ledger investigation basedOnRevision = .error raised) :
    Brings hash ledger investigation basedOnRevision operation := by
  cases operation with
  | addHypothesis claim prediction supporting contradicting =>
    intro current known id computed
    rw [Operation.apply, Investigation.addHypothesis, current, known, computed] at refused
    cases refused
  | addUnknown unknown =>
    intro current
    rw [Operation.apply, Investigation.addUnknown, current] at refused
    cases refused
  | _ => trivial

end Operate

/-! ### One call -/

/-- The investigation and the file hold what the operations can have left. -/
structure Consistent (world : World) : Prop where
  declared : world.investigation.Declared
  grounded : Grounded world.ledger world.investigation
  file : ∀ json, world.file = some json → ∃ saved, Investigation.load (some json) = .ok saved ∧
    saved.Declared ∧ Grounded world.ledger saved

private theorem empty_grounded (ledger : EvidenceLedger) : Grounded ledger {} where
  findings := fun _ among => absurd among List.not_mem_nil
  resolved := fun _ among => absurd among List.not_mem_nil
  hypothesisIds := List.nodup_nil
  unknownIds := List.nodup_nil

private theorem counted_grounded {ledger : EvidenceLedger} {investigation : Investigation}
    (grounded : Grounded ledger investigation) (now : String) :
    Grounded ledger (investigation.counted now) :=
  ⟨grounded.findings, grounded.resolved, grounded.hypothesisIds, grounded.unknownIds⟩

private theorem counted_ne (investigation : Investigation) (now : String) :
    investigation.counted now ≠ investigation := by
  intro same
  have revisions := congrArg Investigation.revision same
  simp only [Investigation.counted] at revisions
  omega

section Step

variable {world : World}

/-- The rules hold after a call, and the call has kept what it must. -/
def Obeys (world : World) (call : Call) : Prop :=
  Grounded (step hash world call).2.ledger (step hash world call).2.investigation ∧
    Kept hash world call

private theorem load_consistent (consistent : Consistent world) :
    ∃ saved, Investigation.load world.file = .ok saved ∧ saved.Declared ∧
      Grounded world.ledger saved := by
  cases file : world.file with
  | none => exact ⟨{}, rfl, Investigation.empty_declared, empty_grounded world.ledger⟩
  | some json => exact consistent.file json file

private theorem operate_exact (grounded : Grounded world.ledger world.investigation)
    (operation : Operation) (basedOnRevision : Option Int) :
    Obeys hash world (.operate operation basedOnRevision) ↔
      Sound hash world (.operate operation basedOnRevision) := by
  unfold Obeys Kept Sound
  simp only [step]
  cases applied : operation.apply hash world.ledger world.investigation basedOnRevision with
  | error raised => exact iff_of_true ⟨grounded, rfl⟩ (brings_of_raised hash applied)
  | ok pair =>
    obtain ⟨id, next⟩ := pair
    rw [← apply_ok_iff hash grounded applied]
    refine and_congr_right fun _ => ⟨fun updated => updated operation basedOnRevision rfl, ?_⟩
    rintro updated other based same
    cases same
    exact updated

private theorem save_exact (declared : world.investigation.Declared)
    (grounded : Grounded world.ledger world.investigation) (now : String)
    (fault : Option Investigation.Fault) :
    Obeys hash world (.save now fault) ↔ Sound hash world (.save now fault) := by
  obtain ⟨json, _, saved⟩ := Investigation.save_eq declared now world.file fault
  unfold Obeys Kept Sound
  simp only [step, saved]
  rcases fault with _ | ⟨raised⟩ | ⟨raised⟩ | ⟨raised⟩
  · exact iff_of_true ⟨counted_grounded grounded now, fun _ _ same => by cases same⟩ trivial
  · exact iff_of_true ⟨grounded, rfl⟩ trivial
  · exact iff_of_false (fun obeys => counted_ne _ now obeys.2) id
  · exact iff_of_false (fun obeys => counted_ne _ now obeys.2) id

section

variable (consistent : Consistent world)
include consistent

/-- The rules hold after a call, and the call keeps what it must, exactly where the call
brings what its entry point leaves unchecked. -/
theorem obeys_iff (call : Call) :
    Obeys hash world call ↔ Sound hash world call := by
  have grounded := consistent.grounded
  cases call with
  | observe evidence =>
    refine iff_of_true ?_ trivial
    unfold Obeys Kept
    simp only [step]
    cases added : EvidenceLedger.add hash world.ledger evidence with
    | error raised => exact ⟨grounded, rfl⟩
    | ok pair =>
      obtain ⟨id, ledger⟩ := pair
      exact ⟨grounded.mono (add_grows hash added), fun _ _ same => by cases same⟩
  | operate operation basedOnRevision =>
    exact operate_exact hash grounded operation basedOnRevision
  | save now fault => exact save_exact hash consistent.declared grounded now fault
  | load fault =>
    refine iff_of_true ?_ trivial
    cases fault with
    | some raised => exact ⟨grounded, rfl⟩
    | none =>
      obtain ⟨saved, loaded, _, savedGrounded⟩ := load_consistent consistent
      unfold Obeys Kept
      simp only [step, loaded]
      exact ⟨savedGrounded, fun _ _ same => by cases same⟩

private theorem step_declared {call : Call} (typed : call.Declared) :
    (step hash world call).2.investigation.Declared := by
  have declared := consistent.declared
  cases call with
  | observe evidence =>
    rw [step]
    cases EvidenceLedger.add hash world.ledger evidence <;> exact declared
  | operate operation basedOnRevision =>
    rw [step]
    cases applied : operation.apply hash world.ledger world.investigation basedOnRevision with
    | error raised => exact declared
    | ok pair => exact Operation.apply_declared declared typed applied
  | save now fault =>
    obtain ⟨json, _, saved⟩ := Investigation.save_eq declared now world.file fault
    simp only [step, saved]
    rcases fault with _ | ⟨raised⟩ | ⟨raised⟩ | ⟨raised⟩
    · exact Investigation.counted_declared declared now
    · exact declared
    · exact Investigation.counted_declared declared now
    · exact Investigation.counted_declared declared now
  | load fault =>
    cases fault with
    | some raised => exact declared
    | none =>
      obtain ⟨saved, loaded, savedDeclared, _⟩ := load_consistent consistent
      simp only [step, loaded]
      exact savedDeclared

private theorem step_file (call : Call) :
    ∀ json, (step hash world call).2.file = some json → ∃ saved,
      Investigation.load (some json) = .ok saved ∧ saved.Declared ∧
        Grounded (step hash world call).2.ledger saved := by
  have file := consistent.file
  cases call with
  | observe evidence =>
    simp only [step]
    cases added : EvidenceLedger.add hash world.ledger evidence with
    | error raised => exact file
    | ok pair =>
      intro json held
      obtain ⟨saved, loaded, declared, grounded⟩ := file json held
      exact ⟨saved, loaded, declared, grounded.mono (add_grows hash added)⟩
  | operate operation basedOnRevision =>
    simp only [step]
    cases operation.apply hash world.ledger world.investigation basedOnRevision <;> exact file
  | save now fault =>
    obtain ⟨written, loaded, saved⟩ :=
      Investigation.save_eq consistent.declared now world.file fault
    have counted : ∃ saved, Investigation.load (some written) = .ok saved ∧ saved.Declared ∧
        Grounded world.ledger saved :=
      ⟨_, loaded, Investigation.counted_declared consistent.declared now,
        counted_grounded consistent.grounded now⟩
    simp only [step, saved]
    rcases fault with _ | ⟨raised⟩ | ⟨raised⟩ | ⟨raised⟩
    · exact fun json held => Option.some.inj held ▸ counted
    · exact file
    · exact file
    · exact fun json held => Option.some.inj held ▸ counted
  | load fault =>
    cases fault with
    | some raised => exact file
    | none =>
      simp only [step]
      cases Investigation.load world.file <;> exact file

private theorem step_consistent {call : Call} (typed : call.Declared)
    (sound : Sound hash world call) : Consistent (step hash world call).2 where
  declared := step_declared hash consistent typed
  grounded := ((obeys_iff hash consistent call).mpr sound).1
  file := step_file hash consistent call

end

end Step

private theorem fresh_consistent : Consistent World.fresh where
  declared := Investigation.empty_declared
  grounded := empty_grounded _
  file := fun _ held => by cases held

/-! ### Runs -/

/-- The rules hold in every state of a run, and every call keeps what it must, exactly
where every call brings what its entry point leaves unchecked. -/
theorem grounded_run_iff (calls : List DeclaredCall) :
    ((∀ before rest, calls = before ++ rest →
        Grounded ((machine hash).after World.fresh before).ledger
          ((machine hash).after World.fresh before).investigation) ∧
      ∀ before call rest, calls = before ++ call :: rest →
        Kept hash ((machine hash).after World.fresh before) call.1) ↔
      (machine hash).Along (fun world call => Sound hash world call.1) World.fresh calls := by
  have preserved (world : World) (call : DeclaredCall) (consistent : Consistent world)
      (sound : Sound hash world call.1) : Consistent ((machine hash).step world call).2 :=
    step_consistent hash consistent call.2 sound
  exact @Machine.history_iff_along _ _ _ (machine hash) Consistent
    (fun world _ => Grounded world.ledger world.investigation)
    (fun world call => Kept hash world call.1) _ preserved
    (fun _ _ call consistent _ => obeys_iff hash consistent call.1) World.fresh [] calls
    fresh_consistent fresh_consistent.grounded

/-! ### A resolved unknown without evidence -/

/-- An unknown that says it is resolved. -/
def settledByWord : Unknown where
  id := "unk_1"
  question := "q"
  domain := "native"
  status := .resolved

/-- `add_unknown` takes an unknown that says it is resolved as it is. -/
theorem not_grounded_settledByWord : ¬∃ hash : String → String, ∀ calls : List DeclaredCall,
    Grounded ((machine hash).after World.fresh calls).ledger
      ((machine hash).after World.fresh calls).investigation := by
  rintro ⟨hash, grounded⟩
  obtain ⟨⟨text, resolution, _⟩, _⟩ :=
    (grounded [⟨.operate (.addUnknown settledByWord) none, .inl rfl⟩]).resolved settledByWord
      List.mem_cons_self rfl
  cases resolution

end Swarmind.ReverseEngineering.Grounding
