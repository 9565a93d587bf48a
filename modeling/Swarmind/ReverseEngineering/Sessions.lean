import Swarmind.ReverseEngineering.Investigation

/-!
Owns the interleavings of sessions on the investigation of one project directory. A session
works on its own copy and bases its operations on the revision it loaded; `check_revision`
compares that revision with the copy, and `save` replaces the file whatever it holds.
-/

namespace Swarmind.ReverseEngineering.Sessions

open Swarmind.Library

/-! ### Interleavings -/

structure Session where
  investigation : Investigation
  loadedAt : Int
  /-- An operation since the load has raised `StaleRevision`. -/
  stale : Bool

/-- A save that has returned. -/
structure Commit where
  session : Nat
  loadedAt : Int
  stale : Bool
  saved : Investigation

/-- The copies of the sessions, the file, and the saves so far. -/
structure World where
  session : Nat → Option Session
  file : Option Json
  commits : List Commit

def World.fresh : World := { session := fun _ => none, file := none, commits := [] }

def World.put (world : World) (index : Nat) (session : Session) : World :=
  { world with session := Function.update world.session index (some session) }

inductive Action where
  | load (index : Nat)
  | operate (index : Nat) (operation : Operation) (ledger : EvidenceLedger)
  | save (index : Nat) (now : String)

/-- The arguments have their declared types. -/
def Action.Declared : Action → Prop
  | .operate _ operation _ => operation.Declared
  | _ => True

abbrev DeclaredAction : Type := { action : Action // action.Declared }

variable (hash : String → String)

/-- A step of a session; `none` where it has loaded nothing yet. -/
def step (world : World) : Action → Option (Except PyException Unit) × World
  | .load index =>
    match Investigation.load world.file with
    | .ok investigation => (some (.ok ()), world.put index {
        investigation := investigation
        loadedAt := investigation.revision
        stale := false })
    | .error raised => (some (.error raised), world)
  | .operate index operation ledger =>
    match world.session index with
    | none => (none, world)
    | some session =>
      match operation.apply hash ledger session.investigation (some session.loadedAt) with
      | .ok (_, next) => (some (.ok ()), world.put index { session with investigation := next })
      | .error raised => (some (.error raised), world.put index { session with
          stale := session.stale || raised.typeName = "StaleRevision" })
  | .save index now =>
    match world.session index with
    | none => (none, world)
    | some session =>
      match session.investigation.save now world.file none with
      | (.ok (), saved, file) => (some (.ok ()), {
          (world.put index { session with investigation := saved }) with
          file := file
          commits := world.commits ++ [{
            session := index
            loadedAt := session.loadedAt
            stale := session.stale
            saved := saved }] })
      | (.error raised, saved, file) => (some (.error raised), {
          (world.put index { session with investigation := saved }) with file := file })

def machine : Machine World DeclaredAction (Option (Except PyException Unit)) where
  step world action := step hash world action.1

/-! ### Lost updates -/

/-- The findings, hypotheses and unknowns of `earlier` are in `later`, whatever else has
become of the latter two. -/
structure Contains (later earlier : Investigation) : Prop where
  findings : earlier.findings <+: later.findings
  hypotheses : (earlier.hypotheses.map fun item => (item.id, item.claim)) <+:
    later.hypotheses.map fun item => (item.id, item.claim)
  unknowns : (earlier.unknowns.map fun item => (item.id, item.question, item.domain)) <+:
    later.unknowns.map fun item => (item.id, item.question, item.domain)

structure NoLostUpdate (commits : List Commit) : Prop where
  atMostOne : ∀ one ∈ commits, ∀ other ∈ commits, one.loadedAt = other.loadedAt →
    one.stale = false → other.stale = false → one.session = other.session
  ordered : commits.Pairwise fun earlier later =>
    earlier.saved.revision < later.saved.revision ∧ Contains later.saved earlier.saved

/-- A save happens while the file has the revision of the session's copy. -/
def Current (world : World) : Action → Prop
  | .save index _ => ∀ session current, world.session index = some session →
      Investigation.load world.file = .ok current →
        session.investigation.revision = current.revision
  | _ => True

/-! ### Operations on a copy -/

private theorem Contains.refl (investigation : Investigation) :
    Contains investigation investigation :=
  ⟨List.prefix_refl _, List.prefix_refl _, List.prefix_refl _⟩

private theorem Contains.trans {latest later earlier : Investigation}
    (first : Contains latest later)
    (second : Contains later earlier) : Contains latest earlier :=
  ⟨second.findings.trans first.findings, second.hypotheses.trans first.hypotheses,
    second.unknowns.trans first.unknowns⟩

private theorem apply_contains {ledger : EvidenceLedger} {investigation next : Investigation}
    {basedOnRevision : Option Int} {operation : Operation} {id : Option String}
    (applied : operation.apply hash ledger investigation basedOnRevision = .ok (id, next)) :
    next.revision = investigation.revision ∧ Contains next investigation := by
  cases operation with
  | setBrief brief =>
    obtain ⟨_, set, isNext⟩ := ok_of_map applied
    cases isNext
    rw [Investigation.setBrief_ok set]
    exact ⟨rfl, List.prefix_refl _, List.prefix_refl _, List.prefix_refl _⟩
  | setPlan steps =>
    obtain ⟨_, set, isNext⟩ := ok_of_map applied
    cases isNext
    rw [Investigation.setPlan_ok set]
    exact ⟨rfl, List.prefix_refl _, List.prefix_refl _, List.prefix_refl _⟩
  | addHypothesis claim prediction supporting contradicting =>
    obtain ⟨_, added, isNext⟩ := ok_of_map applied
    cases isNext
    obtain ⟨_, _, _, hypothesis, _, _, isAdded⟩ := Investigation.addHypothesis_ok added
    rw [isAdded]
    refine ⟨rfl, List.prefix_refl _, ?_, List.prefix_refl _⟩
    rw [List.map_append]
    exact List.prefix_append _ _
  | updateHypothesis id status notes =>
    obtain ⟨_, updated, isNext⟩ := ok_of_map applied
    cases isNext
    obtain ⟨before, hypothesis, after, split, _, isUpdated⟩ :=
      Investigation.updateHypothesis_ok updated
    rw [isUpdated]
    refine ⟨rfl, List.prefix_refl _, ?_, List.prefix_refl _⟩
    rw [split, List.map_append, List.map_append, List.map_cons, List.map_cons]
  | addFinding statement evidenceIds confidence =>
    obtain ⟨_, added, isNext⟩ := ok_of_map applied
    cases isNext
    obtain ⟨_, _, finding, _, isAdded⟩ := Investigation.addFinding_ok added
    rw [isAdded]
    exact ⟨rfl, List.prefix_append _ _, List.prefix_refl _, List.prefix_refl _⟩
  | addUnknown unknown =>
    obtain ⟨_, added, isNext⟩ := ok_of_map applied
    cases isNext
    obtain ⟨_, isAdded⟩ := Investigation.addUnknown_ok added
    rw [isAdded]
    refine ⟨rfl, List.prefix_refl _, List.prefix_refl _, ?_⟩
    rw [List.map_append]
    exact List.prefix_append _ _
  | resolveUnknown id resolution evidenceFor =>
    obtain ⟨_, resolved, isNext⟩ := ok_of_map applied
    cases isNext
    obtain ⟨_, _, _, before, unknown, after, split, _, isResolved⟩ :=
      Investigation.resolveUnknown_ok resolved
    rw [isResolved]
    refine ⟨rfl, List.prefix_refl _, List.prefix_refl _, ?_⟩
    rw [split, List.map_append, List.map_append, List.map_cons, List.map_cons]
  | setHandoff note =>
    obtain ⟨_, set, isNext⟩ := ok_of_map applied
    cases isNext
    rw [Investigation.setHandoff_ok set]
    exact ⟨rfl, List.prefix_refl _, List.prefix_refl _, List.prefix_refl _⟩

/-! ### Where every save is current -/

/-- A copy of a session beside what the file holds. -/
structure Follows (world : World) (current : Investigation) (index : Nat) (session : Session) :
    Prop where
  declared : session.investigation.Declared
  nonneg : 0 ≤ session.loadedAt
  loaded : session.loadedAt ≤ session.investigation.revision
  behind : session.investigation.revision ≤ current.revision
  extending : session.investigation.revision = current.revision →
    Contains session.investigation current
  saved : session.investigation.revision ≠ session.loadedAt → ∃ commit ∈ world.commits,
    commit.session = index ∧ commit.loadedAt = session.loadedAt ∧
      commit.saved.revision = session.loadedAt + 1

/-- A save beside what the file holds. The first save after its load is there too. -/
structure Kept (world : World) (current : Investigation) (commit : Commit) : Prop where
  behind : commit.saved.revision ≤ current.revision
  contained : Contains current commit.saved
  first : ∃ other ∈ world.commits, other.session = commit.session ∧
    other.loadedAt = commit.loadedAt ∧ other.saved.revision = commit.loadedAt + 1

/-- What holds where every save so far was current: the file holds the latest save. -/
structure Linear (world : World) (current : Investigation) : Prop where
  loads : Investigation.load world.file = .ok current
  declared : current.Declared
  nonneg : 0 ≤ current.revision
  sessions : ∀ index session, world.session index = some session →
    Follows world current index session
  commits : ∀ commit ∈ world.commits, Kept world current commit
  latest : current.revision = 0 ∧ world.commits = [] ∨
    ∃ commit ∈ world.commits, commit.saved.revision = current.revision
  ordered : world.commits.Pairwise fun earlier later =>
    earlier.saved.revision < later.saved.revision ∧ Contains later.saved earlier.saved

private theorem fresh_linear : Linear World.fresh {} where
  loads := rfl
  declared := Investigation.empty_declared
  nonneg := le_refl 0
  sessions := fun _ _ found => by cases found
  commits := fun _ among => absurd among List.not_mem_nil
  latest := .inl ⟨rfl, rfl⟩
  ordered := .nil

private theorem eq_of_revision_eq {commits : List Commit}
    (ordered : commits.Pairwise fun earlier later =>
      earlier.saved.revision < later.saved.revision ∧ Contains later.saved earlier.saved)
    {one other : Commit} (among : one ∈ commits) (amongOther : other ∈ commits)
    (same : one.saved.revision = other.saved.revision) : one = other := by
  have distinct : (commits.map fun commit => commit.saved.revision).Nodup :=
    List.pairwise_map.mpr (ordered.imp fun related => related.1.ne)
  exact List.inj_on_of_nodup_map distinct among amongOther same

private theorem Linear.noLostUpdate {world : World} {current : Investigation}
    (linear : Linear world current) : NoLostUpdate world.commits where
  atMostOne one among other amongOther sameLoad _ _ := by
    obtain ⟨first, firstAmong, firstSession, firstLoad, firstRevision⟩ :=
      (linear.commits one among).first
    obtain ⟨second, secondAmong, secondSession, secondLoad, secondRevision⟩ :=
      (linear.commits other amongOther).first
    have same : first = second := by
      refine eq_of_revision_eq linear.ordered firstAmong secondAmong ?_
      rw [firstRevision, secondRevision, sameLoad]
    rw [← firstSession, ← secondSession, same]
  ordered := linear.ordered

section Step

variable {world : World} {current : Investigation}

variable {index : Nat}

section

variable (linear : Linear world current)
include linear

private theorem linear_put {session : Session}
    (follows : Follows world current index session) : Linear (world.put index session) current where
  loads := linear.loads
  declared := linear.declared
  nonneg := linear.nonneg
  sessions other held found := by
    by_cases same : other = index
    · subst same
      rw [World.put] at found
      dsimp only at found
      rw [Function.update_self, Option.some.injEq] at found
      subst found
      exact { follows with }
    · rw [World.put] at found
      dsimp only at found
      rw [Function.update_of_ne same] at found
      exact { linear.sessions other held found with }
  commits commit among := { linear.commits commit among with }
  latest := linear.latest
  ordered := linear.ordered

private theorem load_linear (index : Nat) :
    Linear (step hash world (.load index)).2 current := by
  rw [step, linear.loads]
  exact linear_put linear {
    declared := linear.declared
    nonneg := linear.nonneg
    loaded := le_refl _
    behind := le_refl _
    extending := fun _ => .refl current
    saved := fun moved => absurd rfl moved }

private theorem operate_linear {operation : Operation}
    (typed : operation.Declared) (ledger : EvidenceLedger) :
    Linear (step hash world (.operate index operation ledger)).2 current := by
  rw [step]
  cases held : world.session index with
  | none => exact linear
  | some session =>
    have follows := linear.sessions index session held
    dsimp only
    cases applied : operation.apply hash ledger session.investigation
        (some session.loadedAt) with
    | error raised => exact linear_put linear { follows with }
    | ok pair =>
      obtain ⟨id, next⟩ := pair
      obtain ⟨revision, contains⟩ := apply_contains hash applied
      refine linear_put linear {
        declared := Operation.apply_declared follows.declared typed applied
        nonneg := follows.nonneg
        loaded := by rw [revision]; exact follows.loaded
        behind := by rw [revision]; exact follows.behind
        extending := fun same => contains.trans (follows.extending (revision ▸ same))
        saved := fun moved => follows.saved (revision ▸ moved) }

private theorem step_save_eq {session : Session}
    (held : world.session index = some session) (now : String) :
    ∃ json, Investigation.load (some json) = .ok (session.investigation.counted now) ∧
      (step hash world (.save index now)).2 = {
        (world.put index { session with investigation := session.investigation.counted now }) with
        file := some json
        commits := world.commits ++ [{
          session := index
          loadedAt := session.loadedAt
          stale := session.stale
          saved := session.investigation.counted now }] } := by
  obtain ⟨json, loaded, saved⟩ :=
    Investigation.save_eq (linear.sessions index session held).declared now world.file none
  refine ⟨json, loaded, ?_⟩
  rw [step, held]
  dsimp only
  rw [saved]

private theorem save_linear {session : Session}
    (held : world.session index = some session) (now : String)
    (isCurrent : session.investigation.revision = current.revision) :
    Linear (step hash world (.save index now)).2 (session.investigation.counted now) := by
  obtain ⟨json, loaded, stepped⟩ := step_save_eq hash linear held now
  have follows := linear.sessions index session held
  have revision : (session.investigation.counted now).revision = current.revision + 1 := by
    rw [Investigation.counted, isCurrent]
  have contains : Contains (session.investigation.counted now) current :=
    { follows.extending isCurrent with }
  -- The first save after the load is this one, or was there before.
  have first : ∃ other ∈ world.commits ++ [{
        session := index
        loadedAt := session.loadedAt
        stale := session.stale
        saved := session.investigation.counted now : Commit }],
      other.session = index ∧ other.loadedAt = session.loadedAt ∧
        other.saved.revision = session.loadedAt + 1 := by
    by_cases unmoved : session.investigation.revision = session.loadedAt
    · refine ⟨_, List.mem_append_right _ List.mem_cons_self, rfl, rfl, ?_⟩
      rw [revision, ← isCurrent, unmoved]
    · obtain ⟨other, among, isFirst⟩ := follows.saved unmoved
      exact ⟨other, List.mem_append_left _ among, isFirst⟩
  rw [stepped]
  refine {
    loads := loaded
    declared := Investigation.counted_declared follows.declared now
    nonneg := ?_
    sessions := ?_
    commits := ?_
    latest := .inr ⟨_, List.mem_append_right _ List.mem_cons_self, rfl⟩
    ordered := ?_ }
  · have := linear.nonneg
    omega
  · intro other otherSession found
    by_cases same : other = index
    · subst same
      rw [World.put] at found
      dsimp only at found
      rw [Function.update_self, Option.some.injEq] at found
      subst found
      have loadedBefore := follows.loaded
      exact {
        declared := Investigation.counted_declared follows.declared now
        nonneg := follows.nonneg
        loaded := by dsimp only; omega
        behind := le_refl _
        extending := fun _ => .refl _
        saved := fun _ => first }
    · rw [World.put] at found
      dsimp only at found
      rw [Function.update_of_ne same] at found
      have otherFollows := linear.sessions other otherSession found
      have behind := otherFollows.behind
      refine { otherFollows with
        behind := by omega
        extending := fun caughtUp => by omega
        saved := fun moved => ?_ }
      obtain ⟨commit, among, isFirst⟩ := otherFollows.saved moved
      exact ⟨commit, List.mem_append_left _ among, isFirst⟩
  · refine List.forall_mem_append.mpr ⟨fun commit among => ?_, List.forall_mem_singleton.mpr ?_⟩
    · have kept := linear.commits commit among
      obtain ⟨other, otherAmong, isFirst⟩ := kept.first
      have behind := kept.behind
      exact {
        behind := by omega
        contained := contains.trans kept.contained
        first := ⟨other, List.mem_append_left _ otherAmong, isFirst⟩ }
    · exact {
        behind := le_refl _
        contained := .refl _
        first := first }
  · refine List.pairwise_append.mpr ⟨linear.ordered, List.pairwise_singleton _ _, ?_⟩
    intro earlier among later isLater
    rw [List.mem_singleton] at isLater
    subst isLater
    have kept := linear.commits earlier among
    have behind := kept.behind
    exact ⟨by dsimp only; omega, contains.trans kept.contained⟩

private theorem current_of_noLostUpdate {now : String}
    (good : NoLostUpdate (step hash world (.save index now)).2.commits) :
    Current world (.save index now) := by
  intro session other held loads
  rw [linear.loads, Except.ok.injEq] at loads
  subst loads
  obtain ⟨json, _, stepped⟩ := step_save_eq hash linear held now
  have follows := linear.sessions index session held
  have behind := follows.behind
  have loaded := follows.loaded
  have nonneg := follows.nonneg
  have ordered := good.ordered
  rw [stepped] at ordered
  have apart := (List.pairwise_append.mp ordered).2.2
  rcases linear.latest with ⟨zero, _⟩ | ⟨commit, among, isLatest⟩
  · omega
  · have above := (apart commit among _ List.mem_cons_self).1
    simp only [Investigation.counted] at above
    omega

private theorem step_linear {action : Action} (typed : action.Declared)
    (isCurrent : Current world action) : ∃ next, Linear (step hash world action).2 next := by
  cases action with
  | load index => exact ⟨current, load_linear hash linear index⟩
  | operate index operation ledger => exact ⟨current, operate_linear hash linear typed ledger⟩
  | save index now =>
    cases held : world.session index with
    | none =>
      rw [step, held]
      exact ⟨current, linear⟩
    | some session =>
      exact ⟨_, save_linear hash linear held now (isCurrent session current held linear.loads)⟩

end

end Step

/-! ### Runs -/

/-- No committed update is lost in any state of an interleaving exactly where every save
happens while the file has the revision of the session's copy. -/
theorem noLostUpdate_iff (actions : List DeclaredAction) :
    (∀ before rest, actions = before ++ rest →
      NoLostUpdate ((machine hash).after World.fresh before).commits) ↔
      (machine hash).Along (fun world action => Current world action.1) World.fresh actions := by
  have preserved (world : World) (action : DeclaredAction) (linear : ∃ current, Linear world current)
      (isCurrent : Current world action.1) :
      ∃ current, Linear ((machine hash).step world action).2 current := by
    obtain ⟨current, linear⟩ := linear
    exact step_linear hash linear action.2 isCurrent
  have exact_step (world : World) (action : DeclaredAction)
      (linear : ∃ current, Linear world current) :
      NoLostUpdate ((machine hash).step world action).2.commits ∧ True ↔
        Current world action.1 := by
    constructor
    · rintro ⟨good, _⟩
      obtain ⟨current, linear⟩ := linear
      obtain ⟨action, typed⟩ := action
      cases action with
      | load index => trivial
      | operate index operation ledger => trivial
      | save index now => exact current_of_noLostUpdate hash linear good
    · intro isCurrent
      obtain ⟨next, nextLinear⟩ := preserved world action linear isCurrent
      exact ⟨nextLinear.noLostUpdate, trivial⟩
  have both := @Machine.history_iff_along _ _ _ (machine hash) (fun world => ∃ current,
    Linear world current) (fun world _ => NoLostUpdate world.commits) (fun _ _ => True) _ preserved
    (fun world _ action linear _ => exact_step world action linear) World.fresh [] actions
    ⟨{}, fresh_linear⟩ fresh_linear.noLostUpdate
  exact (and_iff_left fun _ _ _ _ => trivial).symm.trans both

/-! ### Two sessions of one revision -/

def asks (index : Nat) (id : String) : DeclaredAction :=
  ⟨.operate index (.addUnknown { id := id, question := id, domain := "native" }) Dict.empty,
    .inl rfl⟩

/-- Two sessions load, ask and save, one after the other. -/
def rivals : List DeclaredAction :=
  [⟨.load 0, trivial⟩, ⟨.load 1, trivial⟩, asks 0 "unk_a", asks 1 "unk_b",
    ⟨.save 0 "2026-01-01T00:00:00Z", trivial⟩, ⟨.save 1 "2026-01-01T00:00:01Z", trivial⟩]

private theorem commits_rivals :
    (((machine hash).after World.fresh rivals).commits.map fun commit =>
    (commit.session, commit.loadedAt, commit.stale)) = [(0, 0, false), (1, 0, false)] := by
  rfl

/-- Two sessions load one file, and the second save buries the first. -/
theorem not_noLostUpdate_rivals : ¬∃ hash : String → String, ∀ actions : List DeclaredAction,
    NoLostUpdate ((machine hash).after World.fresh actions).commits := by
  rintro ⟨hash, good⟩
  obtain ⟨one, rest, split, isOne, others⟩ := List.map_eq_cons_iff.mp (commits_rivals hash)
  obtain ⟨other, _, rfl, isOther, _⟩ := List.map_eq_cons_iff.mp others
  have kept := good rivals
  rw [split] at kept
  simp only [Prod.mk.injEq] at isOne isOther
  have same := kept.atMostOne one List.mem_cons_self other
    (List.mem_cons_of_mem _ List.mem_cons_self) (by rw [isOne.2.1, isOther.2.1]) isOne.2.2
    isOther.2.2
  rw [isOne.1, isOther.1] at same
  cases same

end Swarmind.ReverseEngineering.Sessions
