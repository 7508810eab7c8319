import EventEngine.DecidedOnce
import EventEngine.PollOrder

/-! What a poll does. From the reading of the inbox to the end of the loop, and
whatever is posted in the meantime, it calls `processEvent` once on each
delivery that was waiting and available, in the order of the query; each is
decided or put off by it, and no other delivery is touched. -/
namespace EventEngine.PollPass
open EventEngine Relational PollOrder

/-- The deliveries on which a sequence of actions calls `processEvent`, in turn. -/
def calls : System → List Action → List ℕ
  | _, [] => []
  | sys, action :: rest =>
    (calledDelivery sys action).toList ++
      match step sys action with
      | some sys' => calls sys' rest
      | none => []

theorem calls_append {start sys : System} {actions : List Action} (run : Run step start actions sys)
    (more : List Action) : calls start (actions ++ more) = calls start actions ++ calls sys more := by
  induction run generalizing more with
  | nil => rfl
  | @snoc prior action before after _ taken ih =>
    rw [List.append_assoc, ih, ih]
    simp [calls, taken]

/-! ## A poll under way -/

/-- The delivery is decided, or put off with one more attempt. -/
def Served (s : Store) (event : RawIncomingEventEntity) : Prop :=
  ∃ row, s.rawIncomingEvents.find event.id = some row ∧
    ((s.decisionOf event.id).isSome ∧ row.processingStatus = .done ∨
      s.decisionOf event.id = none ∧ row.processingStatus = .retry ∧ row.attempts = event.attempts + 1)

/-- What has become of the inbox when a poll has passed some deliveries. -/
structure Passed (start : Store) (passed : List RawIncomingEventEntity) (s : Store) : Prop where
  served : ∀ event ∈ passed, Served s event
  others : ∀ id row, start.rawIncomingEvents.find id = some row → id ∉ passed.map (·.id) →
    s.rawIncomingEvents.find id = some row ∧ s.decisionOf id = start.decisionOf id
  new : ∀ id row, start.rawIncomingEvents.find id = none → s.rawIncomingEvents.find id = some row →
    row.processingStatus = .pending ∧ row.attempts = 0 ∧ s.decisionOf id = none

variable {start s s' : Store} {passed : List RawIncomingEventEntity} {event : RawIncomingEventEntity} {host : Host}

theorem served_enqueueBatch (served : Served s event) (events : List JsonValue) (receivedAt : Time) :
    Served (enqueueBatch s events receivedAt) event := by
  obtain ⟨row, found, fate⟩ := served
  exact ⟨row, findRow_enqueueBatch found, fate⟩

theorem passed_enqueueBatch (consistent : s.Consistent) (passes : Passed start passed s) (events : List JsonValue)
    (receivedAt : Time) : Passed start passed (enqueueBatch s events receivedAt) where
  served event member := served_enqueueBatch (passes.served event member) events receivedAt
  others id row found other := by
    obtain ⟨kept, same⟩ := passes.others id row found other
    exact ⟨findRow_enqueueBatch kept, same⟩
  new id row absent found := by
    rcases findRow_enqueueBatch_cases found with before | ⟨fresh, item, -, rfl⟩
    · exact passes.new id row absent before
    · obtain ⟨pending, unattempted, -⟩ := createRawIncomingEvent_lifecycle item receivedAt id
      exact ⟨pending, unattempted, consistent.undecided_of_absent fresh⟩

/-- A call on a delivery of the snapshot passes it, and nothing else. -/
theorem passed_call (call : Call s event host s') (passes : Passed start passed s)
    (known : start.rawIncomingEvents.find event.id = some event) (fresh : event.id ∉ passed.map (·.id)) :
    Passed start (passed ++ [event]) s' where
  served := by
    intro other member
    rcases List.mem_append.mp member with before | here
    · have apart : other.id ≠ event.id := fun same => fresh (same ▸ List.mem_map_of_mem before)
      rw [Served, findRow_outcome call.outcome apart, decisionOf_outcome call.outcome apart]
      exact passes.served other before
    · obtain rfl := List.mem_singleton.mp here
      exact DecidedOnce.attempt_of_call call
  others := by
    intro id row found other
    rw [List.map_append, List.mem_append, not_or, List.map_singleton, List.mem_singleton] at other
    rw [findRow_outcome call.outcome other.2, decisionOf_outcome call.outcome other.2]
    exact passes.others id row found other.1
  new := by
    intro id row absent found
    have apart : id ≠ event.id := by
      rintro rfl
      cases absent.symm.trans known
    rw [findRow_outcome call.outcome apart] at found
    rw [decisionOf_outcome call.outcome apart]
    exact passes.new id row absent found

/-- A poll under way has passed part of its snapshot, calling on each delivery
in turn; otherwise it has ended early. -/
def UnderWay (start opened : System) (snapshot : List RawIncomingEventEntity) (actions : List Action) (sys : System) :
    Prop :=
  (∃ passed rest, sys.polls = [.processing rest] ∧ snapshot = passed ++ rest ∧
    calls opened actions = passed.map (·.id) ∧ Passed start.store passed sys.store) ∨
  ∀ rest, sys.polls ≠ [.processing rest]

variable {first opened sys sys' closing closed : System} {snapshot : List RawIncomingEventEntity}
  {actions : List Action}

theorem underWay_step {action : Action} (consistent : sys.Consistent) (queued : Queued first.store snapshot)
    (run : Run step opened actions sys) (underWay : UnderWay first opened snapshot actions sys)
    (unread : ¬ IsRead action) (taken : step sys action = some sys') :
    UnderWay first opened snapshot (actions ++ [action]) sys' := by
  have appended : calls opened (actions ++ [action]) = calls opened actions ++ (calledDelivery sys action).toList := by
    rw [calls_append run]
    simp [calls, taken]
  unfold UnderWay
  rw [appended]
  cases moves_of_step consistent taken with
  | enqueued events receivedAt =>
    rcases underWay with ⟨passed, rest, working, whole, called, passes⟩ | ended
    · refine Or.inl ⟨passed, rest, working, whole, ?_, passed_enqueueBatch consistent.store passes events receivedAt⟩
      simpa [calledDelivery] using called
    · exact Or.inr ended
  | skipped => simpa [calledDelivery, UnderWay] using underWay
  | opened | aborted | readFailed | finished =>
    right
    intro rest working
    cases working
  | read => exact absurd trivial unread
  | @processed event rest host _ _ s' working stored undecided ran outcome =>
    rcases underWay with ⟨passed, rest', working', whole, called, passes⟩ | ended
    · obtain rfl : event :: rest = rest' := by simpa using working.symm.trans working'
      have distinct := queued.distinct
      rw [whole, List.map_append, List.nodup_append] at distinct
      have fresh : event.id ∉ passed.map (·.id) := fun before =>
        distinct.2.2 _ before event.id (by simp) rfl
      have known := queued.stored event (by simp [whole])
      refine Or.inl ⟨passed ++ [event], rest, rfl, by simp [whole], ?_,
        passed_call ⟨consistent.store, stored, undecided, outcome⟩ passes known fresh⟩
      simp [called, calledDelivery, working]
    · exact absurd working (ended _)

theorem underWay_run (consistent : opened.Consistent) (queued : Queued first.store snapshot)
    (began : UnderWay first opened snapshot [] opened) (run : Run step opened actions sys)
    (unread : ∀ action ∈ actions, ¬ IsRead action) : UnderWay first opened snapshot actions sys := by
  induction run with
  | nil => exact began
  | @snoc prior action before after run taken ih =>
    have reached : Reaches (fun _ => True) opened before := ⟨prior, fun _ _ => trivial, run⟩
    exact underWay_step (consistent_reaches reached consistent) queued run
      (ih fun a member => unread a (List.mem_append_left _ member)) (unread action (by simp)) taken

/-! ## The guarantee -/

/-- A poll that reads the inbox of one store at a time, calls on deliveries in
turn and leaves another store. -/
structure Serves (start : Store) (now : Time) (called : List ℕ) (finish : Store) : Prop where
  /-- It calls on the deliveries that wait and are available, and on no others, -/
  available : ∀ id, id ∈ called ↔
    ∃ row, start.rawIncomingEvents.find id = some row ∧ start.decisionOf id = none ∧ row.availableAt ≤ now
  /-- once on each, -/
  once : called.Nodup
  /-- in the order of the query. -/
  order : called.Pairwise fun first second => ∀ row row', start.rawIncomingEvents.find first = some row →
    start.rawIncomingEvents.find second = some row' → queuedBefore row row'
  /-- Each of them is decided or put off; -/
  served : ∀ id ∈ called, ∀ row, start.rawIncomingEvents.find id = some row → Served finish row
  /-- the others stand as they did, and what was posted in the meantime waits untouched. -/
  others : ∀ id row, start.rawIncomingEvents.find id = some row → id ∉ called →
    finish.rawIncomingEvents.find id = some row ∧ finish.decisionOf id = start.decisionOf id
  new : ∀ id row, start.rawIncomingEvents.find id = none → finish.rawIncomingEvents.find id = some row →
    row.processingStatus = .pending ∧ row.attempts = 0 ∧ finish.decisionOf id = none

theorem serves_of_passed {now : Time} (consistent : start.Consistent)
    (passes : Passed start (filterAvailableEvents (findPendingOrRetry start) now) s) :
    Serves start now ((filterAvailableEvents (findPendingOrRetry start) now).map (·.id)) s := by
  have queued := queued_snapshot consistent now
  have held : ∀ event ∈ filterAvailableEvents (findPendingOrRetry start) now, ∀ row,
      start.rawIncomingEvents.find event.id = some row → event = row := by
    intro event member row found
    exact Option.some.inj ((queued.stored event member).symm.trans found)
  refine ⟨?_, queued.distinct, ?_, ?_, passes.others, passes.new⟩
  · intro id
    constructor
    · rintro waits
      obtain ⟨event, member, rfl⟩ := List.mem_map.mp waits
      have available : event.availableAt ≤ now := by simpa using (List.mem_filter.mp member).2
      exact ⟨event, queued.stored event member, queued.undecided event member, available⟩
    · rintro ⟨row, found, undecided, available⟩
      obtain rfl : row.id = id := start.rawIncomingEvents.id_of_find found
      exact List.mem_map_of_mem (mem_snapshot consistent found undecided available)
  · rw [List.pairwise_map]
    refine (snapshot_sorted start now).imp_of_mem ?_
    intro event event' member member' sorted row row' found found'
    obtain rfl := held event member row found
    obtain rfl := held event' member' row' found'
    exact sorted
  · intro id waits row found
    obtain ⟨event, member, rfl⟩ := List.mem_map.mp waits
    obtain rfl := held event member row found
    exact passes.served event member

/-- **A poll serves what it found**: once on each, in order, and nothing else. -/
theorem poll_serves_what_it_found (reachable : Reachable first) {index : ℕ} {now : Time}
    (read : step first (.read index now) = some opened) (run : Run step opened actions closing)
    (unread : ∀ action ∈ actions, ¬ IsRead action) {index' : ℕ}
    (finished : step closing (.finish index') = some closed) :
    Serves first.store now (calls opened actions) closed.store := by
  have consistent := reachable.consistent
  have consistent' := consistent_step consistent read
  have reached : Reaches (fun _ => True) opened closing := ⟨actions, fun _ _ => trivial, run⟩
  have queued := queued_snapshot consistent.store now
  have began : UnderWay first opened (filterAvailableEvents (findPendingOrRetry first.store) now) [] opened := by
    cases moves_of_step consistent read with
    | read =>
      refine Or.inl ⟨[], _, rfl, rfl, rfl, nofun, fun _ _ found _ => ⟨found, rfl⟩, ?_⟩
      intro id row absent found
      cases absent.symm.trans found
  cases moves_of_step (consistent_reaches reached consistent') finished with
  | finished done =>
    rcases underWay_run consistent' queued began run unread with ⟨passed, rest, working, whole, called, passes⟩ | ended
    · obtain rfl : rest = [] := by simpa using working.symm.trans done
      rw [List.append_nil] at whole
      rw [called, ← whole]
      exact serves_of_passed consistent.store (whole ▸ passes)
    · exact absurd done (ended [])

/-- The second poll of a run out of order, before it reads the inbox. -/
def openedPoll : System := (execute step (.started 0) (outOfOrderActions.take 7)).get (by decide +kernel)

theorem openedPoll_read : (step openedPoll (.read 0 20000)).isSome := by decide +kernel

def workingPoll : System := (step openedPoll (.read 0 20000)).get openedPoll_read

/-- Its calls, one of which meets a busy database. -/
def pollActions : List Action := (outOfOrderActions.drop 8).take 5

theorem pollActions_enabled : (execute step workingPoll pollActions).isSome := by decide +kernel

def endingPoll : System := (execute step workingPoll pollActions).get pollActions_enabled

theorem endingPoll_finish : (step endingPoll (.finish 0)).isSome := by decide +kernel

def endedPoll : System := (step endingPoll (.finish 0)).get endingPoll_finish

theorem poll_serves_what_it_found_out_of_order :
    Serves openedPoll.store 20000 (calls workingPoll pollActions) endedPoll.store := by
  have reachable : Reachable openedPoll := reachable_of_run (run_of_enabled _)
  have read : step openedPoll (.read 0 20000) = some workingPoll := (Option.some_get _).symm
  have unread : ∀ action ∈ pollActions, ¬ IsRead action := by simp [pollActions, outOfOrderActions, IsRead]
  have finished : step endingPoll (.finish 0) = some endedPoll := (Option.some_get _).symm
  exact poll_serves_what_it_found reachable read (run_of_enabled pollActions_enabled) unread finished

example : calls workingPoll pollActions = [2, 4, 1, 5, 3] := by decide +kernel

end EventEngine.PollPass
