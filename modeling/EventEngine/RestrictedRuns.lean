import EventEngine.DecidedOnce
import EventEngine.Selections

/-! A run restricted to a selection of the deliveries. It is asked for the
selected items alone, polls when the original does, and the attempts on the
selected deliveries throw when they did; its store is the original one
restricted to the selection throughout. -/
namespace EventEngine.Selections
open EventEngine Relational

variable {sel : Selection} {ν : ℕ → ℕ} {s s' : Store}

/-! ## Requests -/

/-- The items of a request that are selected, when it is numbered from a given
number on. -/
def Selection.itemsOf (sel : Selection) (receivedAt : Time) : ℕ → List JsonValue → List JsonValue
  | _, [] => []
  | next, item :: rest =>
    if sel.takes (createRawIncomingEvent item receivedAt next) then item :: sel.itemsOf receivedAt (next + 1) rest
    else sel.itemsOf receivedAt (next + 1) rest

theorem renumbered_posted (item : JsonValue) (receivedAt : Time) (id : ℕ) :
    renumbered ν (createRawIncomingEvent item receivedAt id) = createRawIncomingEvent item receivedAt (ν id) := by
  unfold createRawIncomingEvent renumbered
  cases item.asObject? <;> rfl

theorem sound_enqueueBatch (sound : Sound s) (items : List JsonValue) (receivedAt : Time) :
    Sound (enqueueBatch s items receivedAt) :=
  ⟨consistent_enqueueBatch sound.consistent items receivedAt,
    Deduplication.claimed_enqueueBatch sound.consistent sound.claimed items receivedAt⟩

theorem keepsDeliveries_enqueueBatch (items : List JsonValue) (receivedAt : Time) :
    Atomicity.KeepsDeliveries s (enqueueBatch s items receivedAt) :=
  fun _ row found => ⟨row, findRow_enqueueBatch found, .refl row⟩

/-- A number not given out yet holds no key. -/
theorem unclaimed_next (sound : Sound s) (eventId : String) :
    s.processedEventKeys.find eventId ≠ some ⟨eventId, s.rawIncomingEvents.next⟩ := by
  intro found
  obtain ⟨event, known, -⟩ := sound.claimed.held _ _ found
  rw [Store.eventOf, s.rawIncomingEvents.find_next] at known
  cases known

theorem ne_next_of_found {id : ℕ} (known : (s.rawIncomingEvents.find id).isSome) : id ≠ s.rawIncomingEvents.next := by
  rintro rfl
  rw [s.rawIncomingEvents.find_next] at known
  cases known

theorem taken_insert (item : JsonValue) (receivedAt : Time) :
    taken sel (enqueueBatch s [item] receivedAt) = taken sel s ++
      if sel.takes (createRawIncomingEvent item receivedAt s.rawIncomingEvents.next) then
        [createRawIncomingEvent item receivedAt s.rawIncomingEvents.next]
      else [] := by
  simp only [taken, enqueueBatch, List.foldl_cons, List.foldl_nil, SerialTable.rows_insert, List.filter_append,
    List.filter_cons, List.filter_nil]

/-- What is selected after a request with one item was before, or is the item. -/
theorem has_insert {item : JsonValue} {receivedAt : Time} {id : ℕ}
    (has : sel.has (enqueueBatch s [item] receivedAt) id = true) : sel.has s id = true ∨
      id = s.rawIncomingEvents.next ∧
        sel.takes (createRawIncomingEvent item receivedAt s.rawIncomingEvents.next) = true := by
  obtain ⟨row, held, rfl⟩ := taken_of_has has
  rw [taken_insert, List.mem_append] at held
  rcases held with held | held
  · exact Or.inl (has_taken held)
  · split at held
    · rename_i takes
      rw [List.mem_singleton] at held
      refine Or.inr ⟨?_, takes⟩
      rw [held]
      exact createRawIncomingEvent_id _ _ _
    · cases held

theorem known_of_has {id : ℕ} (has : sel.has s id = true) : (s.rawIncomingEvents.find id).isSome := by
  obtain ⟨row, found, -⟩ := (Option.any_eq_true _ _).mp has
  exact Option.isSome_of_eq_some found

/-- The log does not change its selection when an item comes in. -/
theorem log_insert (sound : Sound s) (item : JsonValue) (receivedAt : Time) :
    ((enqueueBatch s [item] receivedAt).eventDecisions.rows.filter fun decision =>
      sel.has (enqueueBatch s [item] receivedAt) decision.rawIncomingEventId) =
        s.eventDecisions.rows.filter fun decision => sel.has s decision.rawIncomingEventId := by
  apply List.filter_congr
  intro decision logged
  exact has_kept (keepsDeliveries_enqueueBatch [item] receivedAt) (sound.consistent.delivered decision logged)

/-- An item that is selected is the next delivery in both stores. -/
theorem restricts_insert (sound : Sound s) (sound' : Sound s') (restricts : Restricts sel ν s s') {item : JsonValue}
    {receivedAt : Time} (takes : sel.takes (createRawIncomingEvent item receivedAt s.rawIncomingEvents.next) = true) :
    Restricts sel (Function.update ν s.rawIncomingEvents.next s'.rawIncomingEvents.next)
      (enqueueBatch s [item] receivedAt) (enqueueBatch s' [item] receivedAt) := by
  refine ⟨?_, ?_, ?_, restricts.view⟩
  · have kept : (taken sel s).map
        (renumbered (Function.update ν s.rawIncomingEvents.next s'.rawIncomingEvents.next)) =
          (taken sel s).map (renumbered ν) := by
      apply List.map_congr_left
      intro row held
      simp only [renumbered, Function.update_of_ne (ne_next_of_found (known_of_has (has_taken held)))]
    have made : createRawIncomingEvent item receivedAt s'.rawIncomingEvents.next =
        renumbered (Function.update ν s.rawIncomingEvents.next s'.rawIncomingEvents.next)
          (createRawIncomingEvent item receivedAt s.rawIncomingEvents.next) := by
      rw [renumbered_posted, Function.update_self]
    rw [taken_insert, if_pos takes, List.map_append, kept, List.map_singleton, ← made, ← restricts.inbox]
    rfl
  · have kept : (s.eventDecisions.rows.filter fun decision => sel.has s decision.rawIncomingEventId).map
        (relabelled (Function.update ν s.rawIncomingEvents.next s'.rawIncomingEvents.next)) =
          (s.eventDecisions.rows.filter fun decision => sel.has s decision.rawIncomingEventId).map
            (relabelled ν) := by
      apply List.map_congr_left
      intro decision logged
      have delivered := sound.consistent.delivered decision (List.mem_of_mem_filter logged)
      simp only [relabelled, Function.update_of_ne (ne_next_of_found delivered)]
    rw [log_insert sound, kept]
    exact restricts.log
  · intro id there eventId
    rcases has_insert there with earlier | ⟨rfl, -⟩
    · rw [Function.update_of_ne (ne_next_of_found (known_of_has earlier))]
      exact restricts.keys id earlier eventId
    · rw [Function.update_self]
      exact iff_of_false (unclaimed_next sound' eventId) (unclaimed_next sound eventId)

/-- An item that is not selected is not seen. -/
theorem restricts_insert_other (sound : Sound s) (restricts : Restricts sel ν s s') {item : JsonValue}
    {receivedAt : Time} (other : sel.takes (createRawIncomingEvent item receivedAt s.rawIncomingEvents.next) ≠ true) :
    Restricts sel ν (enqueueBatch s [item] receivedAt) s' where
  inbox := by
    rw [taken_insert, if_neg other, List.append_nil]
    exact restricts.inbox
  log := by
    rw [log_insert sound]
    exact restricts.log
  keys id there eventId := by
    rcases has_insert there with earlier | ⟨-, takes⟩
    · exact restricts.keys id earlier eventId
    · exact absurd takes other
  view := restricts.view

/-- **A request keeps the numbers given out**, and numbers the selected items
among their own as they come. -/
theorem restricts_request (sound : Sound s) (sound' : Sound s') (restricts : Restricts sel ν s s')
    (items : List JsonValue) (receivedAt : Time) :
    ∃ ν', (∀ id, (s.rawIncomingEvents.find id).isSome → ν' id = ν id) ∧
      Restricts sel ν' (enqueueBatch s items receivedAt)
        (enqueueBatch s' (sel.itemsOf receivedAt s.rawIncomingEvents.next items) receivedAt) := by
  induction items generalizing s s' ν with
  | nil => exact ⟨ν, fun _ _ => rfl, restricts⟩
  | cons item rest ih =>
    have sound₁ := sound_enqueueBatch sound [item] receivedAt
    have next : (enqueueBatch s [item] receivedAt).rawIncomingEvents.next = s.rawIncomingEvents.next + 1 :=
      congrArg (· + 1) List.length_append
    have known : ∀ id, (s.rawIncomingEvents.find id).isSome →
        ((enqueueBatch s [item] receivedAt).rawIncomingEvents.find id).isSome := by
      intro id found
      obtain ⟨row, held⟩ := Option.isSome_iff_exists.mp found
      exact Option.isSome_of_eq_some (findRow_enqueueBatch held)
    by_cases takes : sel.takes (createRawIncomingEvent item receivedAt s.rawIncomingEvents.next) = true
    · obtain ⟨ν', same, restricts'⟩ := ih sound₁ (sound_enqueueBatch sound' [item] receivedAt)
        (restricts_insert sound sound' restricts takes)
      rw [next] at restricts'
      refine ⟨ν', fun id found => ?_, ?_⟩
      · rw [same id (known id found), Function.update_of_ne (ne_next_of_found found)]
      · rw [Selection.itemsOf, if_pos takes]
        exact restricts'
    · obtain ⟨ν', same, restricts'⟩ := ih sound₁ sound' (restricts_insert_other sound restricts takes)
      rw [next] at restricts'
      refine ⟨ν', fun id found => same id (known id found), ?_⟩
      rw [Selection.itemsOf, if_neg takes]
      exact restricts'

/-! ## Snapshots -/

/-- Sorting a queue and leaving some deliveries out of it commute. -/
theorem filter_queue (table : SerialTable RawIncomingEventEntity) {rows : List RawIncomingEventEntity}
    (held : ∀ row ∈ rows, row ∈ table.rows) (p : RawIncomingEventEntity → Bool) :
    (rows.insertionSort fun first second => queuedBefore first second).filter p =
      (rows.filter p).insertionSort fun first second => queuedBefore first second := by
  have arranged := ((List.perm_insertionSort (fun first second => queuedBefore first second) rows).filter p).trans
    (List.perm_insertionSort (fun first second => queuedBefore first second) (rows.filter p)).symm
  refine arranged.eq_of_pairwise ?_ ((PollOrder.sorted_queue rows).filter p) (PollOrder.sorted_queue _)
  intro first second member member' former latter
  have first' := held first ((List.mem_insertionSort _).mp (List.mem_of_mem_filter member))
  have second' := held second (List.mem_of_mem_filter ((List.mem_insertionSort _).mp member'))
  exact table.row_unique first' second' (PollOrder.queuedBefore_antisymm former latter)

theorem queuedBefore_renumbered {first second : RawIncomingEventEntity}
    (succession : ν first.id ≤ ν second.id ↔ first.id ≤ second.id) :
    queuedBefore (renumbered ν first) (renumbered ν second) = queuedBefore first second := by
  simp only [queuedBefore, renumbered, succession]

/-- **A poll of the smaller store reads the selected part** of what a poll of
the larger one reads. -/
theorem snapshot_restricted (restricts : Restricts sel ν s s') (now : Time) :
    filterAvailableEvents (findPendingOrRetry s') now =
      ((filterAvailableEvents (findPendingOrRetry s) now).filter sel.takes).map (renumbered ν) := by
  let waits (row : RawIncomingEventEntity) : Bool := row.processingStatus = .pending ∨ row.processingStatus = .retry
  let available (row : RawIncomingEventEntity) : Bool := row.availableAt ≤ now
  let queue (rows : List RawIncomingEventEntity) := rows.insertionSort fun first second => queuedBefore first second
  have held : ∀ row ∈ s.rawIncomingEvents.rows.filter waits, row ∈ s.rawIncomingEvents.rows :=
    fun row member => List.mem_of_mem_filter member
  have order : ∀ first ∈ (taken sel s).filter waits, ∀ second ∈ (taken sel s).filter waits,
      (queuedBefore first second = true ↔ queuedBefore (renumbered ν first) (renumbered ν second) = true) := by
    intro first member second member'
    have succession := numbers_le restricts (List.mem_of_mem_filter member) (List.mem_of_mem_filter member')
    rw [queuedBefore_renumbered succession]
  calc
    (queue (s'.rawIncomingEvents.rows.filter waits)).filter available
    _ = (queue (((taken sel s).filter waits).map (renumbered ν))).filter available := by
      rw [restricts.inbox, List.filter_map]
      rfl
    _ = ((queue ((taken sel s).filter waits)).map (renumbered ν)).filter available := by
      rw [List.map_insertionSort _ (fun first second => queuedBefore first second) _ _ order]
    _ = ((queue ((taken sel s).filter waits)).filter available).map (renumbered ν) := by
      rw [List.filter_map]
      rfl
    _ = (((queue (s.rawIncomingEvents.rows.filter waits)).filter available).filter sel.takes).map (renumbered ν) := by
      rw [List.filter_comm, filter_queue _ held, List.filter_comm, taken]

/-! ## What is left of a run -/

/-- What is left of an action when only the selected deliveries are kept. -/
def kept (sel : Selection) (sys : System) : Action → List Action
  | .enqueueBatch events receivedAt =>
    [.enqueueBatch (sel.itemsOf receivedAt sys.store.rawIncomingEvents.next events) receivedAt]
  | .process index host fault _ =>
    match sys.polls[index]? with
    | some (.processing (event :: _)) =>
      if sel.takes event then [.process index host (throwOf sys.store event host fault) none] else []
    | _ => []
  | action => [action]

/-- What is left of a poll. -/
def restrictedPoll (sel : Selection) (ν : ℕ → ℕ) : Poll → Poll
  | .reading => .reading
  | .processing events => .processing ((events.filter sel.takes).map (renumbered ν))

/-- The second system is the first one restricted to the selection. -/
structure Simulates (sel : Selection) (ν : ℕ → ℕ) (sys sys' : System) : Prop where
  store : Restricts sel ν sys.store sys'.store
  isPolling : sys'.isPolling = sys.isPolling
  polls : sys'.polls = sys.polls.map (restrictedPoll sel ν)

variable {sys sys' : System}

/-- A snapshot keeps its numbers when more deliveries come in. -/
theorem restrictedPoll_congr {ν' : ℕ → ℕ} (same : ∀ id, (s.rawIncomingEvents.find id).isSome → ν' id = ν id)
    {events : List RawIncomingEventEntity} (queued : Queued s events) :
    restrictedPoll sel ν' (.processing events) = restrictedPoll sel ν (.processing events) := by
  refine congrArg Poll.processing (List.map_congr_left ?_)
  intro event member
  have stored := queued.stored event (List.mem_of_mem_filter member)
  simp only [renumbered, same event.id (Option.isSome_of_eq_some stored)]

/-- A request is matched by its selected items. -/
theorem simulates_request (reachable : Reachable sys) (reachable' : Reachable sys')
    (simulates : Simulates sel ν sys sys') (events : List JsonValue) (receivedAt : Time) :
    ∃ ν₁, Simulates sel ν₁ { sys with store := enqueueBatch sys.store events receivedAt }
      { sys' with
        store := enqueueBatch sys'.store (sel.itemsOf receivedAt sys.store.rawIncomingEvents.next events)
          receivedAt } := by
  obtain ⟨ν₁, same, restricts⟩ :=
    restricts_request (sound_reachable reachable) (sound_reachable reachable') simulates.store events receivedAt
  refine ⟨ν₁, restricts, simulates.isPolling, ?_⟩
  simp only
  rw [simulates.polls]
  apply List.map_congr_left
  intro poll member
  cases poll with
  | reading => rfl
  | processing events =>
    obtain ⟨index, found⟩ := List.mem_iff_getElem?.mp member
    have queued := reachable.consistent.queued events (only_poll reachable.consistent found).2
    exact (restrictedPoll_congr same queued).symm

/-- A call is matched by itself on a selected delivery, and by nothing on
another. -/
theorem simulates_call (reachable : Reachable sys) (reachable' : Reachable sys') (simulates : Simulates sel ν sys sys')
    {event : RawIncomingEventEntity} {rest : List RawIncomingEventEntity} {host : Host} {fault : Option Fault}
    {s₁ : Store} (closed : Closed sel sys.store) (closed' : Closed sel s₁)
    (working : sys.polls = [.processing (event :: rest)])
    (stored : sys.store.rawIncomingEvents.find event.id = some event) (undecided : sys.store.decisionOf event.id = none)
    (ran : processEvent event host fault none sys.store = (.ok (), s₁)) (outcome : Outcome sys.store event host s₁) :
    ∃ sys₁', Run step sys' (kept sel sys (.process 0 host fault none)) sys₁' ∧
      Simulates sel ν { sys with store := s₁, polls := [.processing rest] } sys₁' := by
  have sound := sound_reachable reachable
  have polls := simulates.polls
  rw [working, List.map_singleton] at polls
  simp only [kept, working, List.getElem?_cons_zero]
  cases takes : sel.takes event with
  | true =>
    have member := (sys.store.rawIncomingEvents.find_eq_some.mp stored).1
    have held : event ∈ taken sel sys.store := mem_taken.mpr ⟨member, takes⟩
    obtain ⟨s₁', ran', restricts⟩ :=
      restricts_call sound (sound_reachable reachable') simulates.store closed held undecided ran
    rw [restrictedPoll, List.filter_cons_of_pos takes, List.map_cons] at polls
    refine ⟨{ sys' with store := s₁', polls := [restrictedPoll sel ν (.processing rest)] }, Run.single ?_, restricts,
      simulates.isPolling, rfl⟩
    simp only [step, polls, List.getElem?_cons_zero, ran']
    rfl
  | false =>
    rw [restrictedPoll, List.filter_cons_of_neg (by simp [takes])] at polls
    exact ⟨sys', .nil, restricts_other sound simulates.store stored takes outcome closed', simulates.isPolling, polls⟩

/-- **Every step is matched** by what is left of it. -/
theorem simulates_step {sys₁ : System} {action : Action} (reachable : Reachable sys) (reachable' : Reachable sys')
    (simulates : Simulates sel ν sys sys') (closed : Closed sel sys.store) (closed' : Closed sel sys₁.store)
    (recorded : DecidedOnce.RecordsFailures action) (taken : step sys action = some sys₁) :
    ∃ ν₁ sys₁', Run step sys' (kept sel sys action) sys₁' ∧ Simulates sel ν₁ sys₁ sys₁' := by
  have consistent := reachable.consistent
  have polls := simulates.polls
  cases moves_of_step consistent taken with
  | enqueued events receivedAt =>
    obtain ⟨ν₁, simulates₁⟩ := simulates_request reachable reachable' simulates events receivedAt
    exact ⟨ν₁, _, Run.single rfl, simulates₁⟩
  | skipped =>
    refine ⟨ν, sys', Run.single ?_, simulates⟩
    simp only [step, simulates.isPolling, busy_of_skipped taken, ↓reduceIte]
  | opened idle =>
    rw [idle, List.map_nil] at polls
    refine ⟨ν, { sys' with isPolling := true, polls := [.reading] }, Run.single ?_, simulates.store, rfl, rfl⟩
    simp [step, simulates.isPolling, consistent.free idle, polls]
  | read now reading =>
    rw [reading, List.map_singleton, restrictedPoll] at polls
    refine ⟨ν, { sys' with polls := [.processing (filterAvailableEvents (findPendingOrRetry sys'.store) now)] },
      Run.single ?_, simulates.store, simulates.isPolling, ?_⟩
    · simp [step, polls]
    · rw [snapshot_restricted simulates.store now]
      rfl
  | @processed event rest host fault recordingFault s₁ working stored undecided ran outcome =>
    obtain rfl : recordingFault = none := recorded
    obtain ⟨sys₁', run, simulates₁⟩ :=
      simulates_call reachable reachable' simulates closed closed' working stored undecided ran outcome
    exact ⟨ν, sys₁', run, simulates₁⟩
  | aborted working unrecorded =>
    rw [recorded] at unrecorded
    cases unrecorded
  | readFailed reading =>
    rw [reading, List.map_singleton, restrictedPoll] at polls
    refine ⟨ν, { sys' with isPolling := false, polls := [] }, Run.single ?_, simulates.store, rfl, rfl⟩
    simp [step, polls, System.endPoll]
  | finished done =>
    rw [done, List.map_singleton, restrictedPoll] at polls
    refine ⟨ν, { sys' with isPolling := false, polls := [] }, Run.single ?_, simulates.store, rfl, rfl⟩
    simp [step, polls, System.endPoll]

/-! ## Runs -/

/-- A selection that is closed at the end of a run is closed all along: what is
selected stays selected, and a key stays with its holder. -/
theorem closed_before {permitted : Action → Prop} (reached : Reaches permitted sys sys') (reachable : Reachable sys)
    (closed : Closed sel sys'.store) : Closed sel sys.store := by
  have consistent := reachable.consistent
  have has : ∀ id event, sys.store.eventOf id = some event → sel.has sys'.store id = sel.has sys.store id := by
    intro id event known
    obtain ⟨row, found, -⟩ := Option.bind_eq_some_iff.mp known
    exact has_kept (Atomicity.keepsDeliveries_reaches reached consistent) (Option.isSome_of_eq_some found)
  refine ⟨?_, ?_, ?_⟩
  · intro id event there known
    exact closed.watched id event ((has id event known).trans there) (eventOf_kept reached consistent known)
  · intro id event key there known found
    obtain ⟨event', known', -⟩ := (Deduplication.claimed_reachable reachable).held _ key found
    rw [← has _ event' known']
    exact closed.holders id event key ((has id event known).trans there) (eventOf_kept reached consistent known)
      (Deduplication.keys_kept reached consistent found)
  · intro id event there known found
    exact closed.others id event ((has id event known).trans there) (eventOf_kept reached consistent known)
      (Deduplication.keys_kept reached consistent found)

/-- **Every run is matched** by what is left of it, when the selection is closed
at its end. -/
theorem simulates_run {now : Time} {actions : List Action} (run : Run step (.started now) actions sys)
    (recorded : ∀ action ∈ actions, DecidedOnce.RecordsFailures action) (closed : Closed sel sys.store) :
    ∃ sys', Run step (.started now) (residue step (kept sel) (.started now) actions) sys' ∧
      ∃ ν, Simulates sel ν sys sys' := by
  have start : ∃ ν, Simulates sel ν (.started now) (.started now) := ⟨id, restricts_migrated now, rfl, rfl⟩
  refine run.matched (fun sys => Closed sel sys.store) (fun sys sys' => ∃ ν, Simulates sel ν sys sys') recorded start
    closed ?_ ?_
  · intro prior before action after run taken closed
    have reached : Reaches (fun _ => True) before after := ⟨[action], fun _ _ => trivial, Run.single taken⟩
    exact closed_before reached (reachable_of_run run) closed
  · rintro prior before action after before' run run' recorded closed closed' ⟨ν, simulates⟩ taken
    obtain ⟨ν₁, after', step', simulates₁⟩ := simulates_step (reachable_of_run run) (reachable_of_run run') simulates
      closed closed' recorded taken
    exact ⟨after', step', ν₁, simulates₁⟩

end EventEngine.Selections
