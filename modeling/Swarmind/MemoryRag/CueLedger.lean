import Swarmind.Library.PyText
import Swarmind.Library.Runs

/-!
Owns the ledger of cues: registration, the index of what is live, its injection
into sessions with the memory of what was injected, and the check for sources
that changed. The clock and the files are read as they are at each call.
-/

namespace Swarmind.MemoryRag

open Swarmind.Library

namespace CueLedger

/-- What `stat` says of a file. -/
structure Stat where
  mtimeNs : Int
  size : Nat
deriving DecidableEq, Repr

abbrev Files := String → Option Stat

structure CueEntry (T : Type) where
  cue : String
  source : String
  contentHash : String
  registeredAt : T
  ttlS : Option T := none
  validFrom : Option String := none
  validTo : Option String := none
deriving DecidableEq, Repr

def emptyCueMsg : String :=
  "WHAT: cue vacio. WHY: un cue vacio no aporta atencion al indice. WHERE: CueLedger.register"

def emptySourceMsg : String :=
  "WHAT: source vacio. WHY: la procedencia es la clave del staleness check. " ++
  "WHERE: CueLedger.register"

def invalidRangeMsg (validFrom validTo : String) : String :=
  s!"WHAT: rango invalido ({validFrom}..{validTo}). " ++
  "WHY: valid_to anterior a valid_from no cubre ningun dia. WHERE: CueLedger.register"

def emptySessionMsg : String :=
  "WHAT: session_id vacio. WHY: el dedup es por sesion. WHERE: CueLedger.inject"

/-- `text.strip()` of a text. -/
def stripped (text : String) : String := String.ofList (strip text.toList)

def hashLen : Nat := 16

/-- `short_hash`, of a positive length; `sha256` is the hexadecimal digest of a text. -/
def shortHash (sha256 : String → String) (content : String) (length : Nat) : String :=
  String.ofList ((sha256 content).toList.take length)

def contentBasis (files : Files) (source : String) : String :=
  if source = "" then source
  else
    match files source with
    | some stat => s!"{source}:{stat.mtimeNs}:{stat.size}"
    | none => source

def contentHash (sha256 : String → String) (files : Files) (source : String) : String :=
  shortHash sha256 (contentBasis files source) hashLen

end CueLedger

open CueLedger in
/-- `injected` holds the digests of the indexes that `inject` gave. -/
structure CueLedger (T : Type) where
  entries : List (CueEntry T) := []
  injected : List String := []
  dedupHits : Nat := 0
  prunedExpired : Nat := 0

namespace CueLedger

variable {T : Type} [Sub T] [LT T] [DecidableLT T]

def CueEntry.isExpired (entry : CueEntry T) (now : T) : Bool :=
  match entry.ttlS with
  | none => false
  | some ttl => decide (ttl < now - entry.registeredAt)

/-- The range that `register` refuses. -/
def inverted : Option String → Option String → Bool
  | some validFrom, some validTo => decide (validTo < validFrom)
  | _, _ => false

section Calls

variable (sha256 : String → String) (now : T) (files : Files) (ledger : CueLedger T)

def newEntry (cue source : String) (ttlS : Option T) (validFrom validTo : Option String) :
    CueEntry T :=
  { cue := stripped cue
    source := stripped source
    contentHash := contentHash sha256 files source
    registeredAt := now
    ttlS := ttlS
    validFrom := validFrom
    validTo := validTo }

def register (cue source : String) (ttlS : Option T) (validFrom validTo : Option String) :
    Except PyException (CueEntry T × CueLedger T) :=
  if isBlank cue then .error (.valueError emptyCueMsg)
  else if isBlank source then .error (.valueError emptySourceMsg)
  else if inverted validFrom validTo then
    .error (.valueError (invalidRangeMsg (validFrom.getD "") (validTo.getD "")))
  else
    let entry := newEntry sha256 now files cue source ttlS validFrom validTo
    .ok (entry, { ledger with entries := ledger.entries ++ [entry] })

def liveEntries : CueLedger T :=
  { ledger with
    entries := ledger.entries.filter fun entry => !entry.isExpired now
    prunedExpired := ledger.prunedExpired +
      ledger.entries.countP fun entry => entry.isExpired now }

def renderIndex : String × CueLedger T :=
  if ledger.entries = [] then ("", ledger)
  else
    let live := liveEntries now ledger
    ("\n".intercalate ("[cue-ledger] hechos vivos:" ::
      live.entries.map fun entry => s!"- {entry.cue} (src: {entry.source})"), live)

def inject (sessionId : String) : Except PyException (String × CueLedger T) :=
  if isBlank sessionId then .error (.valueError emptySessionMsg)
  else
    let rendered := renderIndex now ledger
    let digest := shortHash sha256 rendered.1 hashLen
    if digest ∈ rendered.2.injected then
      .ok ("", { rendered.2 with dedupHits := rendered.2.dedupHits + 1 })
    else .ok (rendered.1, { rendered.2 with injected := digest :: rendered.2.injected })

def staleCues : List (CueEntry T) :=
  ledger.entries.filter fun entry => contentHash sha256 files entry.source ≠ entry.contentHash

def reset : CueLedger T := { ledger with injected := [], dedupHits := 0 }

end Calls

/-! ### Runs -/

inductive Action (T : Type) where
  | register (cue source : String) (ttlS : Option T) (validFrom validTo : Option String)
  | renderIndex
  | inject (sessionId : String)
  | staleCues
  | reset
  | advance (now : T)
  | write (path : String) (stat : Option Stat)

inductive Reply (T : Type) where
  | entry (entry : CueEntry T)
  | text (index : String)
  | entries (entries : List (CueEntry T))
  | done

abbrev Outcome (T : Type) := Except PyException (Reply T)

structure World (T : Type) where
  ledger : CueLedger T
  now : T
  files : Files

namespace World

/-- The world with what a call returned; a call that raised leaves it as it was. -/
def settle {α : Type} (world : World T) (reply : α → Reply T) :
    Except PyException (α × CueLedger T) → Outcome T × World T
  | .error raised => (.error raised, world)
  | .ok (value, ledger) => (.ok (reply value), { world with ledger := ledger })

def step (sha256 : String → String) (world : World T) : Action T → Outcome T × World T
  | .register cue source ttlS validFrom validTo =>
    world.settle .entry
      (register sha256 world.now world.files world.ledger cue source ttlS validFrom validTo)
  | .renderIndex => world.settle .text (.ok (renderIndex world.now world.ledger))
  | .inject sessionId => world.settle .text (inject sha256 world.now world.ledger sessionId)
  | .staleCues =>
    (.ok (.entries (staleCues sha256 world.files world.ledger)), world)
  | .reset => (.ok .done, { world with ledger := reset world.ledger })
  | .advance now => (.ok .done, { world with now := now })
  | .write path stat =>
    (.ok .done, { world with files := Function.update world.files path stat })

def machine (sha256 : String → String) : Machine (World T) (Action T) (Outcome T) :=
  ⟨step sha256⟩

def start (now : T) (files : Files) : World T := ⟨{}, now, files⟩

def index (world : World T) : String := (CueLedger.renderIndex world.now world.ledger).1

end World

/-! ### What was injected -/

def note (given : List (String × String)) : Action T × Outcome T → List (String × String)
  | (.reset, _) => []
  | (.inject sessionId, .ok (.text index)) => (sessionId, index) :: given
  | _ => given

/-- The injections since the last reset: the session and what it was given. -/
def injections (history : List (Action T × Outcome T)) : List (String × String) :=
  history.foldl note []

section

variable {sha256 : String → String}

private theorem injected_renderIndex (now : T) (ledger : CueLedger T) :
    (renderIndex now ledger).2.injected = ledger.injected := by
  unfold renderIndex
  split_ifs <;> rfl

/-- The ledger remembers the digest of the index that a call finds. -/
def World.Known (sha256 : String → String) (world : World T) : Prop :=
  shortHash sha256 world.index hashLen ∈ world.ledger.injected

instance (world : World T) : Decidable (world.Known sha256) :=
  inferInstanceAs (Decidable (_ ∈ _))

private theorem step_inject_blank {sessionId : String} (blank : isBlank sessionId = true)
    (world : World T) : World.step sha256 world (.inject sessionId) =
      (.error (.valueError emptySessionMsg), world) := by
  have raised : inject sha256 world.now world.ledger sessionId =
      .error (.valueError emptySessionMsg) := if_pos blank
  rw [World.step, raised]
  rfl

variable (sha256) in
private theorem step_inject {sessionId : String} (named : isBlank sessionId = false)
    (world : World T) :
    ∃ ledger, World.step sha256 world (.inject sessionId) =
        (.ok (.text (if world.Known sha256 then "" else world.index)),
          { world with ledger := ledger }) ∧
      ledger.injected = if world.Known sha256 then world.ledger.injected
        else shortHash sha256 world.index hashLen :: world.ledger.injected := by
  have kept := injected_renderIndex world.now world.ledger
  have unfolded : inject sha256 world.now world.ledger sessionId = _ :=
    if_neg (ne_true_of_eq_false named)
  dsimp only at unfolded
  rw [kept] at unfolded
  rw [World.step, unfolded]
  by_cases known : world.Known sha256
  · rw [if_pos known, if_pos known]
    exact ⟨_, congrArg (world.settle .text) (if_pos known), rfl⟩
  · rw [if_neg known, if_neg known]
    exact ⟨_, congrArg (world.settle .text) (if_neg known), rfl⟩

/-- The digests that the ledger remembers are those of the versions that were injected
since the last reset; of an empty index it may not remember any. -/
structure Follows (sha256 : String → String) (world : World T)
    (past : List (Action T × Outcome T)) : Prop where
  remembered : ∀ sessionId version, (sessionId, version) ∈ injections past → version ≠ "" →
    shortHash sha256 version hashLen ∈ world.ledger.injected
  traced : ∀ digest ∈ world.ledger.injected, ∃ sessionId version,
    (sessionId, version) ∈ injections past ∧ shortHash sha256 version hashLen = digest

omit [Sub T] [LT T] [DecidableLT T] in
private theorem injections_concat (history : List (Action T × Outcome T))
    (entry : Action T × Outcome T) :
    injections (history ++ [entry]) = note (injections history) entry := by
  unfold injections
  rw [List.foldl_append, List.foldl_cons, List.foldl_nil]

omit [Sub T] [LT T] [DecidableLT T] in
private theorem Follows.of_same {world later : World T}
    {past extended : List (Action T × Outcome T)}
    (follows : Follows sha256 world past)
    (injected : later.ledger.injected = world.ledger.injected)
    (given : injections extended = injections past) : Follows sha256 later extended where
  remembered := by
    rw [injected, given]
    exact follows.remembered
  traced := by
    rw [injected, given]
    exact follows.traced

private theorem Follows.inject {world : World T} {past : List (Action T × Outcome T)}
    (follows : Follows sha256 world past) {sessionId : String} (named : isBlank sessionId = false) :
    Follows sha256 (World.step sha256 world (.inject sessionId)).2
      (past ++ [(.inject sessionId, (World.step sha256 world (.inject sessionId)).1)]) := by
  obtain ⟨ledger, stepped, injected⟩ := step_inject sha256 named world
  have given := injections_concat past
    (.inject sessionId, (World.step sha256 world (.inject sessionId)).1)
  rw [stepped] at given ⊢
  constructor
  · intro other version held content
    rw [given] at held
    rw [injected]
    rcases List.mem_cons.mp held with now | before
    · obtain ⟨_, rfl⟩ := Prod.mk.inj now
      split_ifs at content ⊢ with known
      · exact absurd rfl content
      · exact List.mem_cons_self
    · have earlier := follows.remembered other version before content
      split_ifs
      · exact earlier
      · exact List.mem_cons_of_mem _ earlier
  · intro digest held
    rw [given]
    rw [injected] at held
    split_ifs at held ⊢ with known
    · obtain ⟨other, version, before, same⟩ := follows.traced digest held
      exact ⟨other, version, List.mem_cons_of_mem _ before, same⟩
    · rcases List.mem_cons.mp held with rfl | before
      · exact ⟨sessionId, world.index, List.mem_cons_self, rfl⟩
      · obtain ⟨other, version, earlier, same⟩ := follows.traced digest before
        exact ⟨other, version, List.mem_cons_of_mem _ earlier, same⟩

private theorem Follows.step {world : World T} {past : List (Action T × Outcome T)}
    (follows : Follows sha256 world past) (action : Action T) :
    Follows sha256 (World.step sha256 world action).2
      (past ++ [(action, (World.step sha256 world action).1)]) := by
  have given := injections_concat past (action, (World.step sha256 world action).1)
  cases action with
  | register cue source ttlS validFrom validTo =>
    refine follows.of_same ?_ given
    unfold World.step World.settle register
    dsimp only
    split_ifs <;> rfl
  | renderIndex => exact follows.of_same (injected_renderIndex world.now world.ledger) given
  | inject sessionId =>
    by_cases blank : isBlank sessionId = true
    · rw [step_inject_blank blank] at given ⊢
      exact follows.of_same rfl given
    · exact follows.inject (eq_false_of_ne_true blank)
  | staleCues => exact follows.of_same rfl given
  | reset =>
    constructor
    · intro other version held
      rw [given] at held
      exact absurd held List.not_mem_nil
    · intro digest held
      exact absurd held List.not_mem_nil
  | advance now => exact follows.of_same rfl given
  | write path stat => exact follows.of_same rfl given

private theorem follows_replies (now : T) (files : Files) (actions : List (Action T)) :
    Follows sha256 ((World.machine sha256).after (World.start now files) actions)
      ((World.machine sha256).replies (World.start now files) actions) := by
  have nothing : Follows sha256 (World.start now files) [] :=
    ⟨fun _ _ held => absurd held List.not_mem_nil, fun _ held => absurd held List.not_mem_nil⟩
  have always : (World.machine sha256).Along (fun _ _ => True) (World.start now files) actions :=
    Machine.along_of_forall _ (fun _ _ => trivial) _ _
  exact Machine.history_invariant (Follows sha256)
    (fun _ _ action follows _ => follows.step action) nothing always

end

/-! ### Sources -/

section

variable {sha256 : String → String}

omit [LT T] [DecidableLT T] in
private theorem contentHash_congr {files later : Files} {source : String}
    (same : later source = files source) :
    contentHash sha256 later source = contentHash sha256 files source := by
  unfold contentHash contentBasis
  rw [same]

/-- `register` takes what it is given. -/
def Accepts (cue source : String) (validFrom validTo : Option String) : Prop :=
  isBlank cue = false ∧ isBlank source = false ∧ inverted validFrom validTo = false

/-- The source hashes as it is stored. -/
def Settled (sha256 : String → String) (files : Files) (source : String) : Prop :=
  contentHash sha256 files source = contentHash sha256 files (stripped source)

variable (sha256) in
private theorem step_register {cue source : String} {validFrom validTo : Option String}
    (accepts : Accepts cue source validFrom validTo) (ttlS : Option T) (world : World T) :
    let entry := newEntry sha256 world.now world.files cue source ttlS validFrom validTo
    World.step sha256 world (.register cue source ttlS validFrom validTo) =
      (.ok (.entry entry), { world with
        ledger := { world.ledger with entries := world.ledger.entries ++ [entry] } }) := by
  obtain ⟨cueFull, sourceFull, ordered⟩ := accepts
  rw [World.step, register, if_neg (ne_true_of_eq_false cueFull),
    if_neg (ne_true_of_eq_false sourceFull), if_neg (ne_true_of_eq_false ordered)]
  rfl

private theorem accepts_of_step {cue source : String} {ttlS : Option T}
    {validFrom validTo : Option String}
    {world : World T} {entry : CueEntry T}
    (took : (World.step sha256 world (.register cue source ttlS validFrom validTo)).1 =
      .ok (.entry entry)) : Accepts cue source validFrom validTo := by
  unfold World.step register at took
  dsimp only at took
  split_ifs at took with noCue noSource unordered
  · cases took
  · cases took
  · cases took
  · exact ⟨eq_false_of_ne_true noCue, eq_false_of_ne_true noSource, eq_false_of_ne_true unordered⟩

omit [Sub T] [LT T] [DecidableLT T] in
private theorem mem_staleCues_iff {files : Files} {ledger : CueLedger T} {entry : CueEntry T} :
    entry ∈ staleCues sha256 files ledger ↔
      entry ∈ ledger.entries ∧ contentHash sha256 files entry.source ≠ entry.contentHash := by
  unfold staleCues
  rw [List.mem_filter, decide_eq_true_iff]

end

/-! ### Deduplication -/

section

variable (sha256 : String → String) (now : T) (files : Files) (actions : List (Action T))

/-- The world after calls on a new ledger. -/
def reached : World T := (World.machine sha256).after (World.start now files) actions

/-- The calls on a new ledger with what they returned. -/
def history : List (Action T × Outcome T) :=
  (World.machine sha256).replies (World.start now files) actions

/-- A session is given the index where it was not given this version since the last
reset, and nothing else; an entry is not stale while its file is what it was. -/
structure Dedups : Prop where
  injects : ∀ before sessionId rest, actions = before ++ .inject sessionId :: rest →
    isBlank sessionId = false →
      (World.step sha256 (reached sha256 now files before) (.inject sessionId)).1 =
        .ok (.text (if (sessionId, (reached sha256 now files before).index) ∈
            injections (history sha256 now files before) then ""
          else (reached sha256 now files before).index))
  unchanged : ∀ before cue source ttlS validFrom validTo middle rest entry,
    actions = before ++ .register cue source ttlS validFrom validTo :: (middle ++ rest) →
      (World.step sha256 (reached sha256 now files before)
        (.register cue source ttlS validFrom validTo)).1 = .ok (.entry entry) →
      ∀ later, later = reached sha256 now files
          (before ++ .register cue source ttlS validFrom validTo :: middle) →
        later.files entry.source = (reached sha256 now files before).files entry.source →
          entry ∉ staleCues sha256 later.files later.ledger

/-- What a call may meet: a version that the ledger remembers was given to this very
session, and a source hashes as it is stored. -/
def Own (sha256 : String → String) (past : List (Action T × Outcome T)) (world : World T) :
    Action T → Prop
  | .inject sessionId => isBlank sessionId = false → world.index ≠ "" → world.Known sha256 →
      (sessionId, world.index) ∈ injections past
  | .register cue source _ validFrom validTo =>
    Accepts cue source validFrom validTo → Settled sha256 world.files source
  | _ => True

variable {sha256 now files actions}

private theorem injects_iff {past : List (Action T × Outcome T)} {world : World T}
    (follows : Follows sha256 world past) {sessionId : String} (named : isBlank sessionId = false) :
    (World.step sha256 world (.inject sessionId)).1 =
        .ok (.text (if (sessionId, world.index) ∈ injections past then "" else world.index)) ↔
      Own sha256 past world (.inject sessionId) := by
  obtain ⟨ledger, stepped, _⟩ := step_inject sha256 named world
  rw [stepped, Except.ok.injEq, Reply.text.injEq]
  constructor
  · intro gave _ content known
    rw [if_pos known] at gave
    by_contra absent
    rw [if_neg absent] at gave
    exact content gave.symm
  · intro own
    by_cases content : world.index = ""
    · rw [content, ite_self, ite_self]
    · have same : world.Known sha256 ↔ (sessionId, world.index) ∈ injections past :=
        ⟨own named content, fun given => follows.remembered sessionId world.index given content⟩
      exact if_congr same rfl rfl

variable (sha256 now files) in
private theorem reached_concat (before : List (Action T)) (action : Action T) :
    reached sha256 now files (before ++ [action]) =
      (World.step sha256 (reached sha256 now files before) action).2 :=
  (World.machine sha256).after_append _ before [action]

/-- In a run, sessions are given what they should and no unchanged entry is stale exactly
when each call meets what it may. -/
theorem dedups_iff : Dedups sha256 now files actions ↔
    ∀ before action rest, actions = before ++ action :: rest →
      Own sha256 (history sha256 now files before) (reached sha256 now files before) action := by
  constructor
  · intro dedups before action rest split
    cases action with
    | inject sessionId =>
      intro named
      exact (injects_iff (follows_replies now files before) named).mp
        (dedups.injects before sessionId rest split named) named
    | register cue source ttlS validFrom validTo =>
      intro accepts
      have stepped := step_register sha256 accepts ttlS
        (reached sha256 now files before)
      dsimp only at stepped
      have next := reached_concat sha256 now files before
        (.register cue source ttlS validFrom validTo)
      rw [stepped] at next
      by_contra moved
      refine dedups.unchanged before cue source ttlS validFrom validTo [] rest _ split
        (congrArg Prod.fst stepped) _ next.symm rfl (mem_staleCues_iff.mpr ⟨?_, ?_⟩)
      · exact List.mem_append_right _ (List.mem_singleton_self _)
      · exact fun same => moved same.symm
    | renderIndex => trivial
    | staleCues => trivial
    | reset => trivial
    | advance now => trivial
    | write path stat => trivial
  · intro own
    constructor
    · intro before sessionId rest split named
      exact (injects_iff (follows_replies now files before) named).mpr (own before _ rest split)
    · intro before cue source ttlS validFrom validTo middle rest entry split took later _ same
      have accepts := accepts_of_step took
      have settled := own before _ (middle ++ rest) split accepts
      rw [step_register sha256 accepts] at took
      obtain rfl : newEntry _ _ _ _ _ _ _ _ = entry := Reply.entry.inj (Except.ok.inj took)
      intro listed
      refine (mem_staleCues_iff.mp listed).2 ?_
      rw [contentHash_congr same]
      exact settled.symm

end

/-- A text backwards: what stands for a digest. -/
def backwards (text : String) : String := String.ofList text.toList.reverse

def otherSession : List (Action Int) :=
  [.register "regla TST 80%" "harness/rules.md" none none none, .inject "s1"]

/-- What was injected in session `s1` is not injected in session `s2`. -/
theorem not_dedups : ¬ ∀ (sha256 : String → String) (now : Int) (files : Files)
    (actions : List (Action Int)), Dedups sha256 now files actions := by
  intro promised
  have dedups := promised backwards 0 (fun _ => none) (otherSession ++ [.inject "s2"])
  have named : isBlank "s2" = false := by decide +kernel
  have gave := dedups.injects otherSession "s2" [] rfl named
  have own := (injects_iff (follows_replies 0 (fun _ => none) otherSession) named).mp gave
  have content : (reached backwards 0 (fun _ => none) otherSession).index ≠ "" := by
    decide +kernel
  have known : (reached backwards 0 (fun _ => none) otherSession).Known backwards := by
    decide +kernel
  exact absurd (own named content known) (by decide +kernel)

end CueLedger

end Swarmind.MemoryRag
