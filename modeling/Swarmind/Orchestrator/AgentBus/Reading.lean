import Swarmind.Library.Runs
import Swarmind.Library.Selection
import Swarmind.Orchestrator.AgentBus.Messaging
import Mathlib.Data.List.Sort
import Mathlib.Data.String.Basic

/-!
Owns polling: the two searches of `poll_channel`, the merge of their answers, the time filter
and the order. A search answers with any selection of the matching rows, and a record shows a
row when its columns, or else its metadata, have what the row has now.

The searches look at neither the status nor the time, and each has the whole limit.
-/

namespace Swarmind.Orchestrator.AgentBus

open Swarmind.Library

/-! ### Records -/

/-- The columns that `_deserialize_message` reads over the metadata. -/
inductive Column where
  | id
  | channel
  | threadId
  | fromAgent
  | toAgent
  | message
  | messageType
  | status
  | taskId
  | createdAt
deriving DecidableEq

structure Record where
  metadata : Message
  column : Column → Option String

def deserializeMessage (record : Record) : Message :=
  { record.metadata with
    id := (record.column .id).getD record.metadata.id
    channel := (record.column .channel).getD record.metadata.channel
    threadId := (record.column .threadId).getD record.metadata.threadId
    fromAgent := (record.column .fromAgent).getD record.metadata.fromAgent
    toAgent := (record.column .toAgent).getD record.metadata.toAgent
    message := (record.column .message).getD record.metadata.message
    messageType := (record.column .messageType).getD record.metadata.messageType
    status := (record.column .status).getD record.metadata.status
    taskId := (record.column .taskId).getD record.metadata.taskId
    createdAt := (record.column .createdAt).getD record.metadata.createdAt }

/-! ### Polling -/

/-- The filter of a search of `poll_channel`. -/
def addressed (channel agent : String) (row : Message) : Bool :=
  row.channel = channel ∧ row.toAgent = agent

def everyone : String := "@all"

/-- The loop over `all_messages`. -/
def mergeUnseen (results others : List Message) : List Message :=
  others.foldl (fun results row =>
    if row.id ∈ results.map Message.id then results else results ++ [row]) results

/-- `created_at >= since_timestamp`, where that is given. -/
def isSince (since : Option String) (row : Message) : Bool :=
  match since with
  | some timestamp => timestamp = "" ∨ timestamp ≤ row.createdAt
  | none => true

def earlier (left right : Message) : Prop := left.createdAt ≤ right.createdAt

instance : DecidableRel earlier := fun left right =>
  inferInstanceAs (Decidable (left.createdAt ≤ right.createdAt))

instance : IsTrans Message earlier := ⟨fun _ _ _ one two => String.le_trans one two⟩

instance : Std.Total earlier := ⟨fun left right => le_total left.createdAt right.createdAt⟩

def pollChannel (direct shared : List Record) (since : Option String) : List Message :=
  let results :=
    mergeUnseen (direct.map deserializeMessage) (shared.map deserializeMessage)
  (results.filter (isSince since)).insertionSort earlier

/-- The rows that a search can answer with. -/
def matching (rows : List Message) (channel agent : String) : List Message :=
  rows.filter (addressed channel agent)

/-- The answers that the searches can give. -/
structure Answers (rows : List Message) (channel agent : String) (limit : Nat)
    (direct shared : List Record) : Prop where
  direct : Picks limit (matching rows channel (normalizeAgent agent))
    (direct.map deserializeMessage)
  shared : Picks limit (matching rows channel everyone) (shared.map deserializeMessage)

def isUnread (channel agent : String) (since : Option String) (row : Message) : Bool :=
  (addressed channel (normalizeAgent agent) row || addressed channel everyone row) &&
    (isSince since row && row.status ≠ "acknowledged")

/-- What a poll should give. -/
structure Polled (rows : List Message) (channel agent : String) (since : Option String)
    (limit : Nat) (result : List Message) : Prop where
  ordered : result.Pairwise earlier
  once : (result.map Message.id).Nodup
  bounded : result.length ≤ limit
  unread : ∀ row ∈ result, row ∈ rows ∧ isUnread channel agent since row = true
  complete : rows.countP (isUnread channel agent since) ≤ limit →
    ∀ row ∈ rows, isUnread channel agent since row = true → row ∈ result

/-- None of the rows since then is acknowledged, those for the agent and those for all fit into
one limit, and where some are unread the whole group fits. -/
structure Deliverable (rows : List Message) (channel agent : String) (since : Option String)
    (limit : Nat) : Prop where
  fresh : ∀ row ∈ matching rows channel (normalizeAgent agent) ++ matching rows channel everyone,
    isSince since row = true → row.status ≠ "acknowledged"
  fits : if normalizeAgent agent = everyone then
      (matching rows channel everyone).countP (isSince since) ≤ limit
    else
      min limit ((matching rows channel (normalizeAgent agent)).countP (isSince since)) +
        min limit ((matching rows channel everyone).countP (isSince since)) ≤ limit
  reached : rows.countP (isUnread channel agent since) ≤ limit →
    ∀ group ∈ [normalizeAgent agent, everyone],
      (matching rows channel group).countP (isSince since) = 0 ∨
        (matching rows channel group).length ≤ limit

/-! ### What a poll gives -/

private theorem mergeUnseen_eq (results : List Message) {others : List Message}
    (distinct : (others.map Message.id).Nodup) :
    mergeUnseen results others =
      results ++ others.filter fun row => row.id ∉ results.map Message.id := by
  induction others generalizing results with
  | nil => exact (List.append_nil _).symm
  | cons head rest ih =>
    rw [List.map_cons, List.nodup_cons] at distinct
    have step : mergeUnseen results (head :: rest) = mergeUnseen
        (if head.id ∈ results.map Message.id then results else results ++ [head]) rest := rfl
    rw [step, ih _ distinct.2]
    split_ifs with seen
    · rw [List.filter_cons_of_neg (by simpa using seen)]
    · rw [List.filter_cons_of_pos (by simpa using seen), List.append_assoc,
        List.singleton_append]
      congr 2
      apply List.filter_congr
      intro row member
      have other : row.id ≠ head.id := fun same =>
        distinct.1 (same ▸ List.mem_map_of_mem member)
      simp [other]

section Rows

variable {rows : List Message} {channel agent : String} {since : Option String} {limit : Nat}
  {direct shared : List Record}

private theorem mem_matching {row : Message} : row ∈ matching rows channel agent ↔
    row ∈ rows ∧ row.channel = channel ∧ row.toAgent = agent := by
  rw [matching, List.mem_filter, addressed, decide_eq_true_eq]

private theorem nodup_matching (distinct : (rows.map Message.id).Nodup) :
    (matching rows channel agent).Nodup :=
  distinct.of_map.filter _

private theorem eq_of_id_eq (distinct : (rows.map Message.id).Nodup) {one other : Message}
    (among : one ∈ rows) (amongOther : other ∈ rows) (same : one.id = other.id) : one = other :=
  List.inj_on_of_nodup_map distinct among amongOther same

private theorem ids_nodup (distinct : (rows.map Message.id).Nodup) {picked : List Message}
    (picks : Picks limit (matching rows channel agent) picked) : (picked.map Message.id).Nodup := by
  refine (picks.nodup (nodup_matching distinct)).map_on ?_
  intro one among other amongOther same
  exact eq_of_id_eq distinct (mem_matching.mp (picks.mem among)).1
    (mem_matching.mp (picks.mem amongOther)).1 same

variable (answers : Answers rows channel agent limit direct shared)
  (distinct : (rows.map Message.id).Nodup)

include answers distinct

private theorem mem_pollChannel {row : Message} : row ∈ pollChannel direct shared since ↔
    (row ∈ direct.map deserializeMessage ∨ row ∈ shared.map deserializeMessage) ∧
      isSince since row = true := by
  rw [pollChannel, mergeUnseen_eq _ (ids_nodup distinct answers.shared), List.mem_insertionSort,
    List.mem_filter, List.mem_append, List.mem_filter]
  refine and_congr_left fun _ => ⟨?_, ?_⟩
  · rintro (member | ⟨member, _⟩)
    · exact .inl member
    · exact .inr member
  · rintro (member | member)
    · exact .inl member
    · by_cases seen : row.id ∈ (direct.map deserializeMessage).map Message.id
      · obtain ⟨other, among, same⟩ := List.mem_map.mp seen
        have isRow : other = row := eq_of_id_eq distinct
          (mem_matching.mp (answers.direct.mem among)).1
          (mem_matching.mp (answers.shared.mem member)).1 same
        exact .inl (isRow ▸ among)
      · exact .inr ⟨member, by simpa using seen⟩

private theorem nodup_pollChannel : ((pollChannel direct shared since).map Message.id).Nodup := by
  have merged : ((mergeUnseen (direct.map deserializeMessage)
      (shared.map deserializeMessage)).map Message.id).Nodup := by
    rw [mergeUnseen_eq _ (ids_nodup distinct answers.shared), List.map_append,
      List.nodup_append]
    refine ⟨ids_nodup distinct answers.direct, ?_, ?_⟩
    · exact (ids_nodup distinct answers.shared).sublist (List.filter_sublist.map _)
    · rintro id among _ amongOther rfl
      obtain ⟨row, member, rfl⟩ := List.mem_map.mp amongOther
      exact of_decide_eq_true (List.mem_filter.mp member).2 among
  refine ((List.perm_insertionSort earlier _).map Message.id).nodup_iff.mpr ?_
  exact merged.sublist (List.filter_sublist.map _)

private theorem length_pollChannel_le (since : Option String) :
    (pollChannel direct shared since).length ≤
    (direct.map deserializeMessage).countP (isSince since) +
      (shared.map deserializeMessage).countP (isSince since) := by
  rw [pollChannel, List.length_insertionSort, ← List.countP_eq_length_filter,
    mergeUnseen_eq _ (ids_nodup distinct answers.shared), List.countP_append]
  exact Nat.add_le_add_left List.filter_sublist.countP_le _

private theorem length_pollChannel (apart : normalizeAgent agent ≠ everyone) :
    (pollChannel direct shared since).length =
      (direct.map deserializeMessage).countP (isSince since) +
        (shared.map deserializeMessage).countP (isSince since) := by
  have unseen : ((shared.map deserializeMessage).filter fun row =>
      row.id ∉ (direct.map deserializeMessage).map Message.id) =
        shared.map deserializeMessage := by
    rw [List.filter_eq_self]
    intro row member
    rw [decide_eq_true_eq]
    intro seen
    obtain ⟨other, among, same⟩ := List.mem_map.mp seen
    obtain ⟨amongRows, _, forAgent⟩ := mem_matching.mp (answers.direct.mem among)
    obtain ⟨inRows, _, forAll⟩ := mem_matching.mp (answers.shared.mem member)
    rw [eq_of_id_eq distinct amongRows inRows same] at forAgent
    exact apart (forAgent.symm.trans forAll)
  rw [pollChannel, List.length_insertionSort, ← List.countP_eq_length_filter,
    mergeUnseen_eq _ (ids_nodup distinct answers.shared), unseen, List.countP_append]

end Rows

/-! ### Where polling delivers -/

section Delivery

variable {rows : List Message} {channel agent : String} {since : Option String} {limit : Nat}

/-- A row that a record shows by its metadata alone. -/
def recordOf (row : Message) : Record := { metadata := row, column := fun _ => none }

private theorem map_recordOf (picked : List Message) :
    (picked.map recordOf).map deserializeMessage = picked := by
  rw [List.map_map]
  exact List.map_id picked

private theorem answers_of_picks (agent : String) {direct shared : List Message}
    (first : Picks limit (matching rows channel (normalizeAgent agent)) direct)
    (second : Picks limit (matching rows channel everyone) shared) :
    Answers rows channel agent limit (direct.map recordOf) (shared.map recordOf) := by
  constructor
  · rw [map_recordOf]
    exact first
  · rw [map_recordOf]
    exact second

private theorem isUnread_iff {row : Message} : isUnread channel agent since row = true ↔
    row.channel = channel ∧ (row.toAgent = normalizeAgent agent ∨ row.toAgent = everyone) ∧
      isSince since row = true ∧ row.status ≠ "acknowledged" := by
  simp only [isUnread, addressed, Bool.and_eq_true, Bool.or_eq_true, decide_eq_true_eq]
  tauto

private theorem isUnread_of_mem {group : String}
    (isGroup : group ∈ [normalizeAgent agent, everyone])
    {row : Message} (member : row ∈ matching rows channel group)
    (recent : isSince since row = true) (pending : row.status ≠ "acknowledged") :
    row ∈ rows ∧ isUnread channel agent since row = true := by
  obtain ⟨among, inChannel, isFor⟩ := mem_matching.mp member
  refine ⟨among, isUnread_iff.mpr ⟨inChannel, ?_, recent, pending⟩⟩
  rw [isFor]
  simpa using isGroup

variable (distinct : (rows.map Message.id).Nodup)

include distinct

private theorem polled_of_deliverable (deliverable : Deliverable rows channel agent since limit)
    {direct shared : List Record} (answers : Answers rows channel agent limit direct shared) :
    Polled rows channel agent since limit (pollChannel direct shared since) where
  ordered := List.pairwise_insertionSort earlier _
  once := nodup_pollChannel answers distinct
  bounded := by
    have fits := deliverable.fits
    split_ifs at fits with forAll
    · have recent : ∀ row ∈ pollChannel direct shared since,
          row ∈ (matching rows channel everyone).filter (isSince since) := by
        intro row member
        obtain ⟨drawn, isRecent⟩ := (mem_pollChannel answers distinct).mp member
        have some : row ∈ matching rows channel everyone := by
          rcases drawn with inDirect | inShared
          · exact forAll ▸ answers.direct.mem inDirect
          · exact answers.shared.mem inShared
        exact List.mem_filter.mpr ⟨some, isRecent⟩
      have few := ((nodup_pollChannel answers distinct).of_map.subperm recent).length_le
      rw [← List.countP_eq_length_filter] at few
      exact few.trans fits
    · have few := length_pollChannel_le answers distinct since
      have first := answers.direct.countP_le (isSince since)
      have second := answers.shared.countP_le (isSince since)
      omega
  unread row member := by
    obtain ⟨drawn, recent⟩ := (mem_pollChannel answers distinct).mp member
    rcases drawn with inDirect | inShared
    · have drawn := answers.direct.mem inDirect
      exact isUnread_of_mem List.mem_cons_self drawn recent
        (deliverable.fresh row (List.mem_append_left _ drawn) recent)
    · have drawn := answers.shared.mem inShared
      exact isUnread_of_mem (List.mem_cons_of_mem _ (List.mem_singleton_self _)) drawn recent
        (deliverable.fresh row (List.mem_append_right _ drawn) recent)
  complete few row among unread := by
    obtain ⟨inChannel, isFor, recent, _⟩ := isUnread_iff.mp unread
    have reached (group : String) (isGroup : group ∈ [normalizeAgent agent, everyone])
        (forGroup : row.toAgent = group) : row ∈ matching rows channel group ∧
          (matching rows channel group).length ≤ limit := by
      have member : row ∈ matching rows channel group :=
        mem_matching.mpr ⟨among, inChannel, forGroup⟩
      refine ⟨member, (deliverable.reached few group isGroup).resolve_left ?_⟩
      intro none
      exact List.countP_eq_zero.mp none row member recent
    refine (mem_pollChannel answers distinct).mpr ⟨?_, recent⟩
    rcases isFor with forAgent | forAll
    · obtain ⟨member, fits⟩ := reached _ List.mem_cons_self forAgent
      exact .inl ((answers.direct.perm fits).mem_iff.mpr member)
    · obtain ⟨member, fits⟩ :=
        reached _ (List.mem_cons_of_mem _ (List.mem_singleton_self _)) forAll
      exact .inr ((answers.shared.perm fits).mem_iff.mpr member)

private theorem polled_zero {direct shared : List Record}
    (answers : Answers rows channel agent 0 direct shared) :
    Polled rows channel agent since 0 (pollChannel direct shared since) := by
  have few := length_pollChannel_le answers distinct since
  have first := answers.direct.countP_le (isSince since)
  have second := answers.shared.countP_le (isSince since)
  have none : pollChannel direct shared since = [] := List.length_eq_zero_iff.mp (by omega)
  rw [none]
  refine ⟨.nil, .nil, Nat.le_refl 0, fun _ member => absurd member List.not_mem_nil, ?_⟩
  intro quiet row among unread
  exact absurd unread (List.countP_eq_zero.mp (Nat.le_zero.mp quiet) row among)

section Necessity

variable (polled : ∀ direct shared, Answers rows channel agent limit direct shared →
    Polled rows channel agent since limit (pollChannel direct shared since))

include polled

private theorem fresh_of_polled (positive : 0 < limit) : ∀ row ∈
    matching rows channel (normalizeAgent agent) ++ matching rows channel everyone,
      isSince since row = true → row.status ≠ "acknowledged" := by
  intro row member recent
  have given : ∃ direct shared, Answers rows channel agent limit direct shared ∧
      row ∈ pollChannel direct shared since := by
    rcases List.mem_append.mp member with inDirect | inShared
    · obtain ⟨direct, first, drawn⟩ := exists_picks_mem positive inDirect
      obtain ⟨shared, second⟩ := exists_picks limit (matching rows channel everyone)
      have answers := answers_of_picks agent first second
      refine ⟨_, _, answers, (mem_pollChannel answers distinct).mpr ⟨.inl ?_, recent⟩⟩
      rw [map_recordOf]
      exact drawn
    · obtain ⟨shared, second, drawn⟩ := exists_picks_mem positive inShared
      obtain ⟨direct, first⟩ := exists_picks limit (matching rows channel (normalizeAgent agent))
      have answers := answers_of_picks agent first second
      refine ⟨_, _, answers, (mem_pollChannel answers distinct).mpr ⟨.inr ?_, recent⟩⟩
      rw [map_recordOf]
      exact drawn
  obtain ⟨direct, shared, answers, isGiven⟩ := given
  exact (isUnread_iff.mp ((polled direct shared answers).unread row isGiven).2).2.2.2

private theorem fits_of_polled (positive : 0 < limit) : if normalizeAgent agent = everyone then
      (matching rows channel everyone).countP (isSince since) ≤ limit
    else
      min limit ((matching rows channel (normalizeAgent agent)).countP (isSince since)) +
        min limit ((matching rows channel everyone).countP (isSince since)) ≤ limit := by
  obtain ⟨direct, first, firstCount⟩ := exists_picks_countP limit
    (matching rows channel (normalizeAgent agent)) (isSince since)
  obtain ⟨shared, second, secondCount⟩ := exists_picks_countP limit
    (matching rows channel everyone) (isSince since)
  split_ifs with forAll
  · by_contra more
    rw [forAll] at first firstCount
    have full : direct.countP (isSince since) = limit := by omega
    -- The first answer has `limit` recent rows, and the second one can have another one.
    have another : ∃ row ∈ matching rows channel everyone,
        isSince since row = true ∧ row ∉ direct := by
      by_contra none
      push Not at none
      have all : ((matching rows channel everyone).filter (isSince since)).length ≤
          direct.length := by
        refine ((nodup_matching distinct).filter _).subperm ?_ |>.length_le
        intro row member
        obtain ⟨drawn, recent⟩ := List.mem_filter.mp member
        exact none row drawn recent
      rw [← List.countP_eq_length_filter, first.size] at all
      omega
    obtain ⟨row, member, recent, missing⟩ := another
    obtain ⟨shared, second, drawn⟩ := exists_picks_mem positive member
    have answers := answers_of_picks agent (forAll ▸ first) second
    have inPoll (other : Message) (isDrawn : other ∈ direct ∨ other ∈ shared)
        (isRecent : isSince since other = true) :
        other ∈ pollChannel (direct.map recordOf) (shared.map recordOf) since := by
      rw [mem_pollChannel answers distinct, map_recordOf, map_recordOf]
      exact ⟨isDrawn, isRecent⟩
    have found : (row :: direct.filter (isSince since)).Subperm
        (pollChannel (direct.map recordOf) (shared.map recordOf) since) := by
      refine List.Nodup.subperm (List.nodup_cons.mpr ⟨?_, ?_⟩) ?_
      · exact fun among => missing (List.mem_filter.mp among).1
      · exact (first.nodup (nodup_matching distinct)).filter _
      · intro other among
        rcases List.mem_cons.mp among with rfl | inDirect
        · exact inPoll other (.inr drawn) recent
        · obtain ⟨isDrawn, isRecent⟩ := List.mem_filter.mp inDirect
          exact inPoll other (.inl isDrawn) isRecent
    have atLeast := found.length_le
    rw [List.length_cons, ← List.countP_eq_length_filter, full] at atLeast
    have bounded := (polled _ _ answers).bounded
    omega
  · have answers := answers_of_picks agent first second
    have bounded := (polled _ _ answers).bounded
    rw [length_pollChannel answers distinct forAll, map_recordOf, map_recordOf, firstCount,
      secondCount] at bounded
    exact bounded

private theorem reached_of_polled (positive : 0 < limit) :
    rows.countP (isUnread channel agent since) ≤ limit →
      ∀ group ∈ [normalizeAgent agent, everyone],
        (matching rows channel group).countP (isSince since) = 0 ∨
          (matching rows channel group).length ≤ limit := by
  intro few group isGroup
  by_contra neither
  rw [not_or, not_le] at neither
  obtain ⟨some, more⟩ := neither
  obtain ⟨row, member, recent⟩ := List.countP_pos_iff.mp (Nat.pos_of_ne_zero some)
  have misses (other : String) : ∃ picked, Picks limit (matching rows channel other) picked ∧
      row ∉ picked := by
    by_cases same : other = group
    · subst same
      exact exists_picks_not_mem (nodup_matching distinct) more member
    · obtain ⟨picked, picks⟩ := exists_picks limit (matching rows channel other)
      refine ⟨picked, picks, fun drawn => same ?_⟩
      rw [← (mem_matching.mp (picks.mem drawn)).2.2, (mem_matching.mp member).2.2]
  have pending : row.status ≠ "acknowledged" := by
    refine fresh_of_polled distinct polled positive row ?_ recent
    rcases List.mem_pair.mp isGroup with rfl | rfl
    · exact List.mem_append_left _ member
    · exact List.mem_append_right _ member
  obtain ⟨among, unread⟩ := isUnread_of_mem isGroup member recent pending
  obtain ⟨direct, first, notDirect⟩ := misses (normalizeAgent agent)
  obtain ⟨shared, second, notShared⟩ := misses everyone
  have answers := answers_of_picks agent first second
  have given := (polled _ _ answers).complete few row among unread
  rw [mem_pollChannel answers distinct, map_recordOf, map_recordOf] at given
  rcases given.1 with inDirect | inShared
  · exact notDirect inDirect
  · exact notShared inShared

end Necessity

private theorem polled_iff :
    (∀ direct shared, Answers rows channel agent limit direct shared →
      Polled rows channel agent since limit (pollChannel direct shared since)) ↔
      limit = 0 ∨ Deliverable rows channel agent since limit := by
  constructor
  · intro polled
    rcases Nat.eq_zero_or_pos limit with none | positive
    · exact .inl none
    · exact .inr ⟨fresh_of_polled distinct polled positive,
        fits_of_polled distinct polled positive, reached_of_polled distinct polled positive⟩
  · rintro (rfl | deliverable) direct shared answers
    · exact polled_zero distinct answers
    · exact polled_of_deliverable distinct deliverable answers

end Delivery

/-! ### Histories -/

inductive Action where
  | post (post : Post)
  | batch (posts : List Post)
  | delivered (messageId : String)
  | acknowledged (messageId : String)

inductive Reply where
  | posted (outcome : Except PyException (List String))
  | updated (found : Bool)

section Histories

variable (stamps : Nat → Stamp) (searchesText : Bool)

def step (state : State) : Action → Reply × State
  | .post post =>
    match postMessage stamps searchesText state post with
    | .ok (id, next) => (.posted (.ok [id]), next)
    | .error raised => (.posted (.error raised), state)
  | .batch posts =>
    match postMessageBatch stamps state posts with
    | .ok (ids, next) => (.posted (.ok ids), next)
    | .error raised => (.posted (.error raised), state)
  | .delivered messageId =>
    let (found, next) := markDelivered state messageId
    (.updated found, next)
  | .acknowledged messageId =>
    let (found, next) := markAcknowledged state messageId
    (.updated found, next)

def machine : Machine State Action Reply where
  step := step stamps searchesText

/-- `post_message` for one message after the other. -/
def postEach : State → List Post → Except PyException (List String × State)
  | state, [] => .ok ([], state)
  | state, post :: posts => do
    let (id, state) ← postMessage stamps searchesText state post
    let (ids, state) ← postEach state posts
    return (id :: ids, state)

/-- The rows of messages behind `count` rows. -/
def payloads : Nat → List Post → List Message
  | _, [] => []
  | count, post :: posts => post.payload (stamps count) :: payloads (count + 1) posts

/-- The rows have the ids that were drawn for them, in order. -/
def Numbered (rows : List Message) : Prop :=
  rows.map Message.id = (List.range rows.length).map fun count => (stamps count).id

variable {stamps searchesText}

variable {rows : List Message}

private theorem Numbered.distinct (numbered : Numbered stamps rows)
    (fresh : Function.Injective fun count => (stamps count).id) : (rows.map Message.id).Nodup := by
  rw [numbered]
  exact List.nodup_range.map fresh

private theorem ids_payloads (stamps : Nat → Stamp) (count : Nat) (posts : List Post) :
    (payloads stamps count posts).map Message.id =
      (List.range' count posts.length).map fun count => (stamps count).id := by
  induction posts generalizing count with
  | nil => rfl
  | cons post posts ih =>
    rw [payloads, List.map_cons, ih, List.length_cons, List.range'_succ,
      List.map_cons]
    rfl

private theorem length_payloads (count : Nat) (posts : List Post) :
    (payloads stamps count posts).length = posts.length := by
  have ids := congrArg List.length (ids_payloads stamps count posts)
  simpa using ids

private theorem Numbered.append (numbered : Numbered stamps rows)
    (posts : List Post) : Numbered stamps (rows ++ payloads stamps rows.length posts) := by
  have joined := List.range'_append_1 (s := 0) (m := rows.length) (n := posts.length)
  rw [Nat.zero_add] at joined
  rw [Numbered, List.map_append, numbered, ids_payloads, List.length_append, length_payloads,
    ← List.map_append, List.range_eq_range', List.range_eq_range', joined]

variable {posts : List Post}

private theorem batchRows_ok {count : Nat}
    (built : batchRows stamps count posts = .ok rows) : rows = payloads stamps count posts := by
  induction posts generalizing count rows with
  | nil => exact (Except.ok.inj built).symm
  | cons post posts ih =>
    obtain ⟨_, _, built⟩ := ok_of_bind built
    obtain ⟨later, builtLater, built⟩ := ok_of_bind built
    rw [payloads, ← ih builtLater]
    exact (Except.ok.inj built).symm

private theorem batchRows_eq (valid : ∀ post ∈ posts, post.Valid) (count : Nat) :
    batchRows stamps count posts = .ok (payloads stamps count posts) := by
  induction posts generalizing count with
  | nil => rfl
  | cons post posts ih =>
    rw [List.forall_mem_cons] at valid
    rw [batchRows, valid.1.2, ih valid.2]
    rfl

private theorem numbered_status (numbered : Numbered stamps rows) (change : Message → Message)
    (sameId : ∀ row, (change row).id = row.id) : Numbered stamps (rows.map change) := by
  have ids : (rows.map change).map Message.id = rows.map Message.id := by
    rw [List.map_map]
    exact List.map_congr_left fun row _ => sameId row
  rw [Numbered, ids, numbered, List.length_map]

private theorem updateMessageStatus_numbered {state : State} (numbered : Numbered stamps state.rows)
    (messageId status : String) :
    Numbered stamps (updateMessageStatus state messageId status).2.rows := by
  rw [updateMessageStatus]
  by_cases known : status ∈ validStatuses
  · rw [if_neg (not_not.mpr known)]
    refine numbered_status numbered _ fun row => ?_
    split_ifs <;> rfl
  · rw [if_pos known]
    exact numbered

private theorem step_numbered {state : State} (numbered : Numbered stamps state.rows)
    (action : Action) :
    Numbered stamps (step stamps searchesText state action).2.rows := by
  cases action with
  | post post =>
    rw [step]
    cases posted : postMessage stamps searchesText state post with
    | error _ => exact numbered
    | ok pair =>
      obtain ⟨_, _, posted⟩ := ok_of_bind posted
      obtain ⟨_, _, posted⟩ := ok_of_bind posted
      cases posted
      exact numbered.append [post]
  | batch posts =>
    rw [step]
    cases posted : postMessageBatch stamps state posts with
    | error _ => exact numbered
    | ok pair =>
      obtain ⟨rows, built, posted⟩ := ok_of_bind posted
      cases posted
      rw [batchRows_ok built]
      exact numbered.append posts
  | delivered messageId => exact updateMessageStatus_numbered numbered messageId "delivered"
  | acknowledged messageId => exact updateMessageStatus_numbered numbered messageId "acknowledged"

private theorem after_numbered (actions : List Action) :
    Numbered stamps ((machine stamps searchesText).after .empty actions).rows := by
  have always : (machine stamps searchesText).Along (fun _ _ => True) .empty actions :=
    Machine.along_of_forall _ (fun _ _ => trivial) _ _
  exact Machine.invariant_after (fun state : State => Numbered stamps state.rows)
    (fun _ action numbered _ => step_numbered numbered action) rfl always

/-! ### Batches -/

private theorem postEach_eq (valid : ∀ post ∈ posts, post.Valid) (state : State) :
    postEach stamps searchesText state posts =
      .ok ((payloads stamps state.rows.length posts).map Message.id, {
        rows := state.rows ++ payloads stamps state.rows.length posts
        summaries :=
          if searchesText then state.summaries ++ posts.map Post.summary
          else state.summaries }) := by
  induction posts generalizing state with
  | nil =>
    rw [postEach, payloads, List.append_nil, List.map_nil, List.map_nil, List.append_nil,
      ite_self]
  | cons post posts ih =>
    rw [List.forall_mem_cons] at valid
    rw [postEach, postMessage_eq valid.1]
    simp only [bind, Except.bind, ih valid.2, pure, Except.pure, payloads,
      List.length_append, List.length_singleton, List.append_assoc, List.singleton_append,
      List.map_cons]
    cases searchesText with
    | false => rfl
    | true =>
      simp only [if_true, List.append_assoc]
      rfl

private theorem batch_iff (valid : ∀ post ∈ posts, post.Valid) (state : State) :
    postMessageBatch stamps state posts = postEach stamps searchesText state posts ↔
      searchesText = false ∨ posts = [] := by
  rw [postEach_eq valid, postMessageBatch, batchRows_eq valid]
  cases searchesText with
  | false => simp [bind, Except.bind, pure, Except.pure]
  | true => simp [bind, Except.bind, pure, Except.pure]

variable (stamps searchesText)

/-- After every history: where polling delivers, and where a batch is as good as its messages. -/
theorem delivery_iff (fresh : Function.Injective fun count => (stamps count).id)
    (actions : List Action) (channel agent : String) (since : Option String) (limit : Nat)
    (posts : List Post) (valid : ∀ post ∈ posts, post.Valid) :
    ((∀ direct shared,
        Answers ((machine stamps searchesText).after .empty actions).rows channel agent limit
          direct shared →
        Polled ((machine stamps searchesText).after .empty actions).rows channel agent since limit
          (pollChannel direct shared since)) ↔
      limit = 0 ∨ Deliverable ((machine stamps searchesText).after .empty actions).rows channel
        agent since limit) ∧
    (postMessageBatch stamps ((machine stamps searchesText).after .empty actions) posts =
        postEach stamps searchesText ((machine stamps searchesText).after .empty actions) posts ↔
      searchesText = false ∨ posts = []) :=
  ⟨polled_iff ((after_numbered actions).distinct fresh), batch_iff valid _⟩

end Histories

def sampleStamp (count : Nat) : Stamp where
  id := String.ofList (List.replicate (count + 1) 'm')
  threadId := "thread"
  createdAt := "2026-01-01T00:00:00+00:00"

private theorem sampleStamp_injective : Function.Injective fun count => (sampleStamp count).id := by
  intro one other same
  have lists := String.ofList_injective same
  simpa using congrArg List.length lists

def samplePost : Post where
  channel := "#swe-sandbox"
  fromAgent := "@software-engineer"
  toAgent := "@quality-gate"
  message := "Tests unitarios completados"

private theorem samplePost_valid : samplePost.Valid :=
  Post.valid_of (by decide) (by decide) (by decide) (by decide) (by decide) (by decide)

/-- One posted message and the poll that reads it. -/
theorem delivery_iff_sample :
    ((∀ direct shared,
        Answers ((machine sampleStamp true).after .empty [.post samplePost]).rows "#swe-sandbox"
          "quality-gate" 50 direct shared →
        Polled ((machine sampleStamp true).after .empty [.post samplePost]).rows "#swe-sandbox"
          "quality-gate" none 50 (pollChannel direct shared none)) ↔
      50 = 0 ∨ Deliverable ((machine sampleStamp true).after .empty [.post samplePost]).rows
        "#swe-sandbox" "quality-gate" none 50) ∧
    (postMessageBatch sampleStamp ((machine sampleStamp true).after .empty [.post samplePost])
        [samplePost] =
      postEach sampleStamp true ((machine sampleStamp true).after .empty [.post samplePost])
        [samplePost] ↔ true = false ∨ [samplePost] = []) :=
  delivery_iff sampleStamp true sampleStamp_injective [.post samplePost] "#swe-sandbox"
    "quality-gate" none 50 [samplePost] (List.forall_mem_singleton.mpr samplePost_valid)

def acknowledgedRow : Message :=
  { samplePost.payload (sampleStamp 0) with status := "acknowledged" }

private theorem rows_acknowledged :
    ((machine sampleStamp true).after .empty [.post samplePost, .acknowledged "m"]).rows =
      [acknowledgedRow] := by
  decide

/-- A message is posted, read and acknowledged, and the next poll gives it again. -/
theorem not_polled_acknowledged :
    ∃ direct shared,
      Answers ((machine sampleStamp true).after .empty [.post samplePost, .acknowledged "m"]).rows
        "#swe-sandbox" "quality-gate" 50 direct shared ∧
      ¬ Polled ((machine sampleStamp true).after .empty
          [.post samplePost, .acknowledged "m"]).rows "#swe-sandbox" "quality-gate" none 50
        (pollChannel direct shared none) := by
  rw [rows_acknowledged]
  have forAgent : matching [acknowledgedRow] "#swe-sandbox" (normalizeAgent "quality-gate") =
      [acknowledgedRow] := by decide
  have forAll : matching [acknowledgedRow] "#swe-sandbox" everyone = [] := by decide
  refine ⟨[recordOf acknowledgedRow], [], ⟨?_, ?_⟩, fun polled => ?_⟩
  · rw [forAgent]
    exact ⟨List.Subperm.refl _, rfl⟩
  · rw [forAll]
    exact ⟨List.Subperm.refl _, rfl⟩
  · have given := polled.unread acknowledgedRow (List.mem_singleton_self _)
    exact (isUnread_iff.mp given.2).2.2.2 rfl

end Swarmind.Orchestrator.AgentBus
