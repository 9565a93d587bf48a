import Swarmind.Orchestrator.Sessions.Context

/-!
Owns what a fresh context recovers after any run of calls. Every persist
appends a record and recovery reads the first one of the session, so a session
is recovered as it was persisted first.
-/

namespace Swarmind.Orchestrator.Sessions

open Swarmind.Library TaskPlanner
open TaskPlan (waitingFor)

variable {W : Type}

/-- `get_session` of a fresh context over the store. -/
def recover (store : Option (List Record)) (sessionId : String) : Option (SessionState W) :=
  let found := (SessionContext.create store).getSession sessionId
  found.1.bind found.2.view

private theorem loadFromStore_eq (records : List Record) (sessionId : String) :
    (loadFromStore (some records) sessionId : Option (SessionState W)) =
      (records.find? fun record => record.sessionId = sessionId).bind
        fun record => deserialize record.data := by
  have first : (search records 10 (some sessionId)).head? =
      records.find? fun record => record.sessionId = sessionId := by
    simp [search, List.head?_take]
  show (search records 10 (some sessionId)).head?.bind _ = _
  rw [first]

private theorem recover_eq (records : List Record) (sessionId : String) :
    (recover (some records) sessionId : Option (SessionState W)) =
      (records.find? fun record => record.sessionId = sessionId).bind
        fun record => deserialize record.data := by
  rw [← loadFromStore_eq]
  have inactive : (SessionContext.create (some records) : SessionContext W).active.get? sessionId =
      none := rfl
  simp only [recover, SessionContext.getSession, inactive]
  cases loaded : (loadFromStore (some records) sessionId : Option (SessionState W)) with
  | none => simp [SessionContext.create, loaded]
  | some session =>
    simp [SessionContext.create, loaded, SessionContext.newLoaded, SessionContext.newPlan,
      SessionContext.newSession, SessionContext.view]

namespace SessionContext

/-! ### Runs of calls -/

/-- One call on a context. The caller builds the plans it passes. -/
inductive Call (W : Type) where
  | newPlan (plan : TaskPlan W)
  | getOrCreate (text : String) (plan : Option Nat) (first second uuid : String)
  | markSubtaskDone (address : Nat) (subtaskId result now : String)
  | addMessage (address : Nat) (role content timestamp now : String)

def call (context : SessionContext W) : Call W → SessionContext W
  | .newPlan plan => context.newPlan plan
  | .getOrCreate text plan first second uuid =>
    (context.getOrCreate text plan first second uuid).2
  | .markSubtaskDone address subtaskId result now =>
    (context.markSubtaskDone address subtaskId result now).2
  | .addMessage address role content timestamp now =>
    context.addMessage address role content timestamp now

def calls : Machine (SessionContext W) (Call W) Unit :=
  ⟨fun context action => ((), context.call action)⟩

def lastPersisted (context : SessionContext W) (sessionId : String) : Option (SessionState W) :=
  (context.persisted.filter fun session => session.sessionId = sessionId).getLast?

def Recovers (context : SessionContext W) : Prop :=
  ∀ sessionId session, context.lastPersisted sessionId = some session →
    recover context.store sessionId = some session.recent

/-! ### What a call writes -/

/-- `after` has persisted the sessions `written` more than `before`, all of one
id. -/
structure Writes (before after : SessionContext W) (sessionId : String)
    (written : List (SessionState W)) : Prop where
  persisted : after.persisted = before.persisted ++ written
  store : after.store = before.store.map fun records => records ++ written.filterMap
    fun session => session.data.map fun document => ⟨session.sessionId, document⟩
  each : ∀ session ∈ written, session.sessionId = sessionId ∧ session.data.isSome = true
  stored : written ≠ [] → before.store.isSome = true

variable {before after : SessionContext W}

private theorem Writes.nothing (sessionId : String)
    (persisted : after.persisted = before.persisted) (store : after.store = before.store) :
    Writes before after sessionId [] where
  persisted := by rw [persisted, List.append_nil]
  store := by
    rw [store]
    cases before.store <;> simp
  each := by simp
  stored := by simp

private theorem Writes.trans {before middle after : SessionContext W} {sessionId : String}
    {first second : List (SessionState W)} (earlier : Writes before middle sessionId first)
    (later : Writes middle after sessionId second) :
    Writes before after sessionId (first ++ second) where
  persisted := by rw [later.persisted, earlier.persisted, List.append_assoc]
  store := by
    rw [later.store, earlier.store]
    cases before.store <;> simp
  each := by
    intro session member
    rcases List.mem_append.mp member with old | new
    · exact earlier.each session old
    · exact later.each session new
  stored := by
    intro some
    have stored := later.stored
    rw [earlier.store, Option.isSome_map] at stored
    by_cases nothing : first = []
    · rw [nothing] at some
      exact stored some
    · exact earlier.stored nothing

def sessionIdAt (context : SessionContext W) (address : Nat) : String :=
  ((context.sessions[address]?).map SessionObject.sessionId).getD ""

variable (context : SessionContext W)

variable (address : Nat)

private theorem persist_writes :
    ∃ written, Writes context (context.persist address) (context.sessionIdAt address) written := by
  cases store : context.store with
  | none => exact ⟨[], Writes.nothing _ (by simp [persist, store]) (by simp [persist, store])⟩
  | some records =>
    cases viewed : context.view address with
    | none =>
      exact ⟨[], Writes.nothing _ (by simp [persist, store, viewed])
        (by simp [persist, store, viewed])⟩
    | some session =>
      cases written : session.data with
      | none =>
        exact ⟨[], Writes.nothing _ (by simp [persist, store, viewed, written])
          (by simp [persist, store, viewed, written])⟩
      | some document =>
        have named : session.sessionId = context.sessionIdAt address := by
          obtain ⟨object, found, rest⟩ := Option.bind_eq_some_iff.mp viewed
          obtain ⟨plan, _, same⟩ := Option.bind_eq_some_iff.mp rest
          cases same
          simp [sessionIdAt, found]
        refine ⟨[session], ?_, ?_, ?_, ?_⟩
        · simp [persist, store, viewed, written]
        · simp [persist, store, viewed, written]
        · simp [named, written]
        · simp [store]

private theorem persist_writes_after (before context : SessionContext W) (address : Nat)
    (persisted : context.persisted = before.persisted) (store : context.store = before.store) :
    ∃ written, Writes before (context.persist address) (context.sessionIdAt address) written := by
  obtain ⟨written, writes⟩ := persist_writes context address
  exact ⟨[] ++ written, (Writes.nothing _ persisted store).trans writes⟩

private theorem persist_sessions : (context.persist address).sessions = context.sessions := by
  unfold persist
  split
  · split <;> rfl
  · rfl

private theorem updatePlanOf_kept (change : TaskPlan W → TaskPlan W) :
    (context.updatePlanOf address change).persisted = context.persisted ∧
      (context.updatePlanOf address change).store = context.store := by
  unfold updatePlanOf
  split <;> exact ⟨rfl, rfl⟩

private theorem sessionIdAt_updateSession (change : SessionObject → SessionObject)
    (named : ∀ object, (change object).sessionId = object.sessionId) :
    (context.updateSession address change).sessionIdAt address = context.sessionIdAt address := by
  unfold sessionIdAt updateSession
  rw [List.getElem?_modify_eq]
  cases context.sessions[address]? with
  | none => rfl
  | some object => exact named object

private theorem getOrCreate_writes (text : String) (plan : Option Nat)
    (first second uuid : String) :
    ∃ sessionId written,
      Writes context (context.getOrCreate text plan first second uuid).2 sessionId written := by
  unfold getOrCreate
  split
  · exact ⟨_, persist_writes_after _ _ _ rfl rfl⟩
  · split
    · exact ⟨_, persist_writes_after _ _ _ rfl rfl⟩
    · exact ⟨_, persist_writes_after _ _ _ rfl rfl⟩

private theorem markSubtaskDone_writes (subtaskId result now : String) :
    ∃ sessionId written,
      Writes context (context.markSubtaskDone address subtaskId result now).2 sessionId
        written := by
  unfold markSubtaskDone
  split
  · exact ⟨"", [], Writes.nothing _ rfl rfl⟩
  · split
    · obtain ⟨persisted, store⟩ := context.updatePlanOf_kept address
        fun plan => plan.markCompleted subtaskId result
      generalize markedEq : (context.updatePlanOf address fun plan =>
        plan.markCompleted subtaskId result).updateSession address
          (fun object => { object with updatedAt := now }) = marked
      obtain ⟨written, writes⟩ := persist_writes_after context marked address
        (by rw [← markedEq]; exact persisted) (by rw [← markedEq]; exact store)
      split
      · obtain ⟨again, writesAgain⟩ := persist_writes_after (marked.persist address)
          ((marked.persist address).updateSession address
            fun object => { object with completed := true }) address rfl rfl
        have named : ((marked.persist address).updateSession address
            fun object => { object with completed := true }).sessionIdAt address =
              marked.sessionIdAt address := by
          have kept := (marked.persist address).sessionIdAt_updateSession address
            (fun object => { object with completed := true }) fun _ => rfl
          rw [kept, sessionIdAt, sessionIdAt, persist_sessions]
        rw [named] at writesAgain
        exact ⟨_, _, writes.trans writesAgain⟩
      · exact ⟨_, written, writes⟩
    · exact ⟨"", [], Writes.nothing _ rfl rfl⟩

private theorem call_writes (action : Call W) :
    ∃ sessionId written, Writes context (context.call action) sessionId written := by
  cases action with
  | newPlan plan => exact ⟨"", [], Writes.nothing _ rfl rfl⟩
  | getOrCreate text plan first second uuid =>
    exact getOrCreate_writes context text plan first second uuid
  | markSubtaskDone address subtaskId result now =>
    exact markSubtaskDone_writes context address subtaskId result now
  | addMessage address role content timestamp now =>
    exact ⟨_, persist_writes_after _ _ _ rfl rfl⟩

/-! ### Recovery -/

def writtenBy (context : SessionContext W) (action : Call W) : List (SessionState W) :=
  (context.call action).persisted.drop context.persisted.length

/-- The call persists nothing, or the first record of the session, which it
writes itself where there is none before, reads back as what it persists last. -/
def Harmless (context : SessionContext W) (action : Call W) : Prop :=
  ∀ first last, (context.writtenBy action).head? = some first →
    (context.writtenBy action).getLast? = some last →
      (match (context.store.getD []).find? fun record => record.sessionId = last.sessionId with
        | some record => deserialize record.data
        | none => first.data.bind deserialize) = some last.recent

private theorem Writes.kept {sessionId : String}
    {written : List (SessionState W)} (writes : Writes before after sessionId written)
    {other : String} (others : ∀ session ∈ written, session.sessionId ≠ other) :
    after.lastPersisted other = before.lastPersisted other ∧
      (recover after.store other : Option (SessionState W)) = recover before.store other := by
  constructor
  · have none : (written.filter fun session => session.sessionId = other) = [] := by
      rw [List.filter_eq_nil_iff]
      intro session member
      simpa using others session member
    rw [lastPersisted, writes.persisted, List.filter_append, none, List.append_nil, lastPersisted]
  · rw [writes.store]
    cases before.store with
    | none => rfl
    | some records =>
      rw [Option.map_some, recover_eq, recover_eq, List.find?_append]
      have none : (written.filterMap fun session => session.data.map fun document =>
          (⟨session.sessionId, document⟩ : Record)).find?
            (fun record => record.sessionId = other) = none := by
        rw [List.find?_eq_none]
        intro record member
        obtain ⟨session, among, made⟩ := List.mem_filterMap.mp member
        obtain ⟨document, _, rfl⟩ := Option.map_eq_some_iff.mp made
        simpa using others session among
      rw [none, Option.or_none]

private theorem Writes.recovered {sessionId : String} {first : SessionState W}
    {rest : List (SessionState W)} (writes : Writes before after sessionId (first :: rest)) :
    (recover after.store sessionId : Option (SessionState W)) =
      match (before.store.getD []).find? fun record => record.sessionId = sessionId with
        | some record => deserialize record.data
        | none => first.data.bind deserialize := by
  obtain ⟨records, stored⟩ := Option.isSome_iff_exists.mp (writes.stored (List.cons_ne_nil _ _))
  obtain ⟨named, written⟩ := writes.each first List.mem_cons_self
  obtain ⟨document, data⟩ := Option.isSome_iff_exists.mp written
  rw [writes.store, stored, Option.map_some, recover_eq, List.find?_append, Option.getD_some]
  cases known : records.find? fun record => record.sessionId = sessionId with
  | some record => rfl
  | none => simp [data, named]

private theorem recovers_call_iff (action : Call W) (recovers : context.Recovers) :
    (context.call action).Recovers ↔ context.Harmless action := by
  obtain ⟨sessionId, written, writes⟩ := context.call_writes action
  have same : context.writtenBy action = written := by
    rw [writtenBy, writes.persisted, List.drop_left]
  have untouched : ∀ other, (∀ session ∈ written, session.sessionId ≠ other) →
      ∀ session, (context.call action).lastPersisted other = some session →
        recover (context.call action).store other = some session.recent := by
    intro other others session last
    obtain ⟨lastKept, recoveredKept⟩ := writes.kept others
    rw [lastKept] at last
    rw [recoveredKept]
    exact recovers other session last
  unfold Harmless
  rw [same]
  rcases written with _ | ⟨first, rest⟩
  · refine iff_of_true (fun other => untouched other (by simp)) ?_
    intro first last head
    cases head
  · obtain ⟨last, lastIs⟩ : ∃ last, (first :: rest).getLast? = some last :=
      ⟨_, List.getLast?_eq_some_getLast (List.cons_ne_nil first rest)⟩
    have named : last.sessionId = sessionId :=
      (writes.each last (List.mem_of_getLast? lastIs)).1
    have own : (context.call action).lastPersisted sessionId = some last := by
      have all : ((first :: rest).filter fun session => session.sessionId = sessionId) =
          first :: rest := by
        rw [List.filter_eq_self]
        intro session member
        exact decide_eq_true (writes.each session member).1
      rw [lastPersisted, writes.persisted, List.filter_append, all, List.getLast?_append, lastIs]
      rfl
    have recovered := writes.recovered
    constructor
    · intro recoversAfter other final head final'
      cases head
      rw [lastIs, Option.some.injEq] at final'
      subst final'
      rw [named, ← recovered]
      exact recoversAfter sessionId last own
    · intro harmless other session lastOf
      by_cases mine : other = sessionId
      · subst mine
        rw [own, Option.some.injEq] at lastOf
        subst lastOf
        have reads := harmless first last rfl lastIs
        rwa [named, ← recovered] at reads
      · apply untouched other _ session lastOf
        intro written member
        rw [(writes.each written member).1]
        exact fun same => mine same.symm

/-- A run of calls over a store recovers every session, after each call, exactly
when every call of it is harmless. -/
theorem recovers_iff (records : List Record) (actions : List (Call W)) :
    (∀ before rest, actions = before ++ rest →
        (calls.after (create (some records)) before).Recovers) ↔
      calls.Along Harmless (create (some records)) actions := by
  have start : (create (some records) : SessionContext W).Recovers := by
    intro sessionId session last
    cases last
  exact calls.always_iff_along_of_exact recovers_call_iff start actions

def firstDone : List (Call Nat) :=
  [.newPlan ⟨"s", "m", [waitingFor "a" [], waitingFor "b" []], ""⟩,
    .getOrCreate "m" (some 0) "t0" "t0" "",
    .markSubtaskDone 0 "a" "done" "t1"]

/-- A fresh context gets the session back with nothing done. -/
theorem firstDone_not_recovers : ¬ (calls.after (create (some [])) firstDone).Recovers := by
  intro recovers
  let flags (session : SessionState Nat) := session.plan.subtasks.map SubTask.completed
  have persisted : ((calls.after (create (some [])) firstDone).lastPersisted "s").map flags =
      some [true, false] := by decide
  have recovered : (recover (calls.after (create (some []) : SessionContext Nat) firstDone).store
      "s").map flags = some [false, false] := by decide
  obtain ⟨session, last, done⟩ := Option.map_eq_some_iff.mp persisted
  rw [recovers "s" session last, Option.map_some, Option.some.injEq] at recovered
  exact absurd (done.symm.trans recovered) (by decide)

end SessionContext

end Swarmind.Orchestrator.Sessions
