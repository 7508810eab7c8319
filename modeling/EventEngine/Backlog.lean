import EventEngine.Content
import EventEngine.PollOrder
import EventEngine.Relational.Draining

/-! A backlog arrives while nothing waits, in however many requests, and one
poll works through it. The poll takes the items by their timestamps, which tell
them apart; what has no timestamp comes last and is refused whatever came
before. So the engine ends up knowing the same, and each item fares the same,
whatever the order of arrival. -/
namespace EventEngine.Backlog
open EventEngine Relational

/-! ## Arrival -/

/-- A request, with the time it was received. -/
structure Request where
  events : List JsonValue
  receivedAt : Time

/-- The items a sequence of requests posts. -/
def posted (requests : List Request) : List JsonValue := requests.flatMap (·.events)

/-- A posted item, when it came, and the number of its delivery. -/
structure Arrival where
  item : JsonValue
  receivedAt : Time
  id : ℕ

def Arrival.row (arrival : Arrival) : RawIncomingEventEntity :=
  createRawIncomingEvent arrival.item arrival.receivedAt arrival.id

/-- The arrivals of a sequence of requests, numbered in succession. -/
def arrivals : ℕ → List Request → List Arrival
  | _, [] => []
  | next, request :: rest =>
    (request.events.zipIdx next).map (fun numbered => ⟨numbered.1, request.receivedAt, numbered.2⟩) ++
      arrivals (next + request.events.length) rest

/-- The database after the requests. -/
def received (s : Store) (requests : List Request) : Store :=
  requests.foldl (fun s request => enqueueBatch s request.events request.receivedAt) s

theorem items_of_arrivals (next : ℕ) (requests : List Request) :
    (arrivals next requests).map (·.item) = posted requests := by
  induction requests generalizing next with
  | nil => rfl
  | cons request rest ih =>
    have items : (request.events.zipIdx next).map Prod.fst = request.events := List.zipIdx_map_fst next _
    simp only [arrivals, posted, List.map_append, List.map_map, List.flatMap_cons]
    rw [← posted, ih, ← items]
    simp [Function.comp_def]

theorem rows_enqueueBatch (s : Store) (events : List JsonValue) (receivedAt : Time) :
    (enqueueBatch s events receivedAt).rawIncomingEvents.rows = s.rawIncomingEvents.rows ++
      (events.zipIdx s.rawIncomingEvents.next).map fun numbered =>
        createRawIncomingEvent numbered.1 receivedAt numbered.2 := by
  unfold enqueueBatch
  simp only
  generalize s.rawIncomingEvents = table
  induction events generalizing table with
  | nil => simp
  | cons event rest ih =>
    have next : (table.insert (createRawIncomingEvent event receivedAt)
        (createRawIncomingEvent_id event receivedAt)).next = table.next + 1 := by
      simp [SerialTable.next]
    rw [List.foldl_cons, ih, next, SerialTable.rows_insert, List.zipIdx_cons, List.map_cons, List.append_assoc]
    rfl

theorem next_enqueueBatch (s : Store) (events : List JsonValue) (receivedAt : Time) :
    (enqueueBatch s events receivedAt).rawIncomingEvents.next = s.rawIncomingEvents.next + events.length := by
  simp only [SerialTable.next, rows_enqueueBatch, List.length_append, List.length_map, List.length_zipIdx]
  omega

/-- **The inbox after the requests**: what was there, and a row for each arrival. -/
theorem rows_received (s : Store) (requests : List Request) :
    (received s requests).rawIncomingEvents.rows =
      s.rawIncomingEvents.rows ++ (arrivals s.rawIncomingEvents.next requests).map Arrival.row := by
  induction requests generalizing s with
  | nil => simp [received, arrivals]
  | cons request rest ih =>
    have first := ih (enqueueBatch s request.events request.receivedAt)
    rw [rows_enqueueBatch, next_enqueueBatch, List.append_assoc] at first
    rw [received, List.foldl_cons, ← received, first, arrivals, List.map_append, List.map_map]
    rfl

/-! ## The poll -/

/-- A server at rest. -/
def idle (s : Store) : System := ⟨s, false, []⟩

/-- An attempt on the next delivery that nothing makes throw. -/
def attempt (host : Host) : Action := .process 0 host none none

/-- The requests arrive, then one poll reads the inbox and attempts what it has
read, delivery by delivery. -/
def backlogActions (requests : List Request) (now : Time) (hosts : List Host) : List Action :=
  requests.map (fun request => .enqueueBatch request.events request.receivedAt) ++
    .poll :: .read 0 now :: (hosts.map attempt ++ [.finish 0])

/-- No delivery is `PENDING` or `RETRY`. -/
def NothingWaits (s : Store) : Prop :=
  ∀ row ∈ s.rawIncomingEvents.rows, row.processingStatus ≠ .pending ∧ row.processingStatus ≠ .retry

/-- The arrivals in the order of the polling query. -/
def queue (arrivals : List Arrival) : List Arrival :=
  arrivals.insertionSort fun first second => queuedBefore first.row second.row

/-- When nothing waits, the server can come to rest as it is. -/
theorem reachable_idle {sys : System} (reachable : Reachable sys) (settled : NothingWaits sys.store) :
    Reachable (idle sys.store) := by
  have consistent := reachable.consistent
  rcases consistent.guarded with ⟨none, free⟩ | ⟨poll, single, busy⟩
  · have same : idle sys.store = sys := by rw [idle, ← none, ← free]
    rwa [same]
  · cases poll with
    | reading =>
      have taken : step sys (.readFails 0) = some (idle sys.store) := by
        simp [step, single, System.endPoll, idle]
      exact reachable.step taken
    | processing events =>
      have empty : events = [] := by
        rw [List.eq_nil_iff_forall_not_mem]
        intro event member
        have queued := consistent.queued events single
        have stored := queued.stored event member
        have held := settled event (sys.store.rawIncomingEvents.find_eq_some.mp stored).1
        rcases (consistent.store.undecided_iff stored).mp (queued.undecided event member) with pending | retry
        · exact held.1 pending
        · exact held.2 retry
      subst empty
      have taken : step sys (.finish 0) = some (idle sys.store) := by
        simp [step, single, System.endPoll, idle]
      exact reachable.step taken

theorem execute_requests (s : Store) (requests : List Request) (more : List Action) :
    execute step (idle s)
        (requests.map (fun request => Action.enqueueBatch request.events request.receivedAt) ++ more) =
      execute step (idle (received s requests)) more := by
  induction requests generalizing s with
  | nil => rfl
  | cons request rest ih => exact ih _

theorem consistent_received {s : Store} (consistent : s.Consistent) (requests : List Request) :
    (received s requests).Consistent := by
  induction requests generalizing s with
  | nil => exact consistent
  | cons request rest ih => exact ih (consistent_enqueueBatch consistent _ _)

/-- Requests change the inbox and nothing else. -/
theorem received_frame (s : Store) (requests : List Request) :
    (received s requests).content = s.content ∧
      (received s requests).processedEventKeys = s.processedEventKeys := by
  induction requests generalizing s with
  | nil => exact ⟨rfl, rfl⟩
  | cons request rest ih => exact ih (enqueueBatch s request.events request.receivedAt)

theorem findRow_received {s : Store} {id : ℕ} {row : RawIncomingEventEntity}
    (found : s.rawIncomingEvents.find id = some row) (requests : List Request) :
    (received s requests).rawIncomingEvents.find id = some row := by
  induction requests generalizing s with
  | nil => exact found
  | cons request rest ih => exact ih (findRow_enqueueBatch found)

theorem row_pending (arrival : Arrival) : arrival.row.processingStatus = .pending :=
  (createRawIncomingEvent_lifecycle arrival.item arrival.receivedAt arrival.id).1

theorem row_id (arrival : Arrival) : arrival.row.id = arrival.id :=
  createRawIncomingEvent_id arrival.item arrival.receivedAt arrival.id

theorem row_availableAt (arrival : Arrival) : arrival.row.availableAt = arrival.receivedAt := by
  unfold Arrival.row createRawIncomingEvent
  cases arrival.item.asObject? <;> rfl

/-- **What the poll reads**: the arrivals, in the order of the query. -/
theorem snapshot_received {s : Store} (settled : NothingWaits s) (requests : List Request) {now : Time}
    (available : ∀ arrival ∈ arrivals s.rawIncomingEvents.next requests, arrival.receivedAt ≤ now) :
    filterAvailableEvents (findPendingOrRetry (received s requests)) now =
      (queue (arrivals s.rawIncomingEvents.next requests)).map Arrival.row := by
  have old : s.rawIncomingEvents.rows.filter (fun event =>
      event.processingStatus = .pending ∨ event.processingStatus = .retry) = [] := by
    rw [List.filter_eq_nil_iff]
    intro row member
    simp [settled row member]
  have new : ((arrivals s.rawIncomingEvents.next requests).map Arrival.row).filter (fun event =>
      event.processingStatus = .pending ∨ event.processingStatus = .retry) =
      (arrivals s.rawIncomingEvents.next requests).map Arrival.row := by
    rw [List.filter_eq_self]
    intro row member
    obtain ⟨arrival, -, rfl⟩ := List.mem_map.mp member
    simp [row_pending]
  have all : filterAvailableEvents ((queue (arrivals s.rawIncomingEvents.next requests)).map Arrival.row) now =
      (queue (arrivals s.rawIncomingEvents.next requests)).map Arrival.row := by
    unfold filterAvailableEvents
    rw [List.filter_eq_self]
    intro row member
    obtain ⟨arrival, held, rfl⟩ := List.mem_map.mp member
    rw [queue, List.mem_insertionSort] at held
    simpa [row_availableAt] using available arrival held
  rw [findPendingOrRetry, rows_received, List.filter_append, old, new, List.nil_append, ← all, queue,
    List.map_insertionSort _ (fun first second => queuedBefore first second)]
  exact fun _ _ _ _ => Iff.rfl

/-! ## Working through the queue -/

/-- Arrivals nobody has attempted: undecided as they stand, and without a claim. -/
structure Fresh (s : Store) (queue : List Arrival) : Prop where
  queued : Queued s (queue.map Arrival.row)
  unclaimed : ∀ arrival ∈ queue, ∀ eventId key, s.processedEventKeys.find eventId = some key →
    key.firstRawIncomingEventId ≠ arrival.id

theorem fresh_received {s : Store} (consistent : s.Consistent) (claimed : Deduplication.Claimed s)
    (settled : NothingWaits s) (requests : List Request) {now : Time}
    (available : ∀ arrival ∈ arrivals s.rawIncomingEvents.next requests, arrival.receivedAt ≤ now) :
    Fresh (received s requests) (queue (arrivals s.rawIncomingEvents.next requests)) := by
  have queued := queued_snapshot (consistent_received consistent requests) now
  rw [snapshot_received settled requests available] at queued
  refine ⟨queued, ?_⟩
  rintro arrival member eventId key held holds
  -- A claim is held by a delivery that was there before, and that one does not wait.
  rw [(received_frame s requests).2] at held
  obtain ⟨event, known, -⟩ := claimed.held eventId key held
  obtain ⟨row, found, -⟩ := Option.bind_eq_some_iff.mp known
  have stored := queued.stored arrival.row (List.mem_map_of_mem member)
  rw [row_id, ← holds, findRow_received found requests, Option.some.injEq] at stored
  exact (settled row (s.rawIncomingEvents.find_eq_some.mp found).1).1 (stored ▸ row_pending arrival)

theorem fresh_head {s : Store} {arrival : Arrival} {rest : List Arrival} (fresh : Fresh s (arrival :: rest)) :
    arrival.id ∉ rest.map (·.id) := by
  have ids : ((arrival :: rest).map Arrival.row).map (·.id) = arrival.id :: rest.map (·.id) := by simp [row_id]
  have distinct := fresh.queued.distinct
  rw [ids] at distinct
  exact (List.nodup_cons.mp distinct).1

theorem fresh_tail {s s' : Store} {arrival : Arrival} {rest : List Arrival} {host : Host}
    (fresh : Fresh s (arrival :: rest)) (outcome : Outcome s arrival.row host s') : Fresh s' rest := by
  refine ⟨queued_tail fresh.queued outcome, ?_⟩
  intro later member eventId key held
  rcases Deduplication.key_of_outcome outcome held with before | ⟨holds, -⟩
  · exact fresh.unclaimed later (List.mem_cons_of_mem _ member) eventId key before
  · rw [holds, row_id]
    intro same
    exact fresh_head fresh (same ▸ List.mem_map_of_mem member)

/-- What has become of each arrival. -/
def fates (s : Store) (arrivals : List Arrival) : List (JsonValue × Option Report) :=
  arrivals.map fun arrival => (arrival.item, s.report arrival.id)

/-- **A poll drains its queue**: it attempts every arrival, and comes to the
content and the reports the items lead to one after the other. -/
theorem drained {s : Store} {queue : List Arrival} {hosts : List Host} (consistent : s.Consistent)
    (fresh : Fresh s queue) (fits : hosts.length = queue.length) :
    ∃ finish, execute step ⟨s, true, [.processing (queue.map Arrival.row)]⟩ (hosts.map attempt ++ [.finish 0]) =
        some (idle finish) ∧
      finish.content = (drain Content.process s.content (queue.map (·.item))).1 ∧
      fates finish queue =
        (drain Content.process s.content (queue.map (·.item))).2.map (fun fate => (fate.1, some fate.2)) ∧
      ∀ id, id ∉ queue.map (·.id) → finish.report id = s.report id := by
  induction queue generalizing s hosts with
  | nil =>
    obtain rfl := List.eq_nil_of_length_eq_zero fits
    exact ⟨s, rfl, rfl, rfl, fun _ _ => rfl⟩
  | cons arrival rest ih =>
    obtain ⟨host, hosts, rfl⟩ := List.exists_cons_of_length_eq_add_one fits
    have stored := fresh.queued.stored arrival.row List.mem_cons_self
    have undecided := fresh.queued.undecided arrival.row List.mem_cons_self
    have outcome := Outcome.committed (processed_committed host undecided)
    have lifecycle := createRawIncomingEvent_lifecycle arrival.item arrival.receivedAt arrival.id
    have unclaimed := fresh.unclaimed arrival List.mem_cons_self
    rw [← row_id arrival] at unclaimed
    obtain ⟨content, report⟩ := processed_content stored undecided lifecycle.2.2 lifecycle.2.1 unclaimed host
    obtain ⟨finish, ran, content', reports, others⟩ := ih (consistent_outcome consistent stored undecided outcome)
      (fresh_tail fresh outcome) (by simpa using fits)
    have taken : step ⟨s, true, [.processing ((arrival :: rest).map Arrival.row)]⟩ (attempt host) =
        some ⟨s.processed arrival.row host, true, [.processing (rest.map Arrival.row)]⟩ := by
      simp [step, attempt, processEvent_clean consistent.toOperational]
    refine ⟨finish, ?_, ?_, ?_, ?_⟩
    · change execute step _ (attempt host :: (hosts.map attempt ++ [.finish 0])) = _
      rw [execute, taken]
      exact ran
    · rw [content', content]
      rfl
    · have first : finish.report arrival.id = some (s.content.process arrival.item).2 := by
        rw [others _ (fresh_head fresh), ← row_id arrival, report]
      rw [content] at reports
      rw [fates, List.map_cons, ← fates, first, reports]
      rfl
    · intro id other
      rw [List.map_cons, List.mem_cons, not_or] at other
      rw [others id other.2, report_outcome outcome (row_id arrival ▸ other.1)]

/-! ## Timestamps -/

/-- The finite timestamp an item carries. -/
def timestampOf (item : JsonValue) : Option ℚ :=
  item.asObject?.bind fun fields => finiteNumberOrNull (fields.get "timestamp")

/-- What the query sorts an item by: its timestamp, and last without one. -/
def sortKey (item : JsonValue) : WithTop ℚ := (timestampOf item).elim ⊤ fun timestamp => timestamp

theorem row_timestamp (arrival : Arrival) : arrival.row.eventTimestamp = timestampOf arrival.item := by
  unfold Arrival.row createRawIncomingEvent timestampOf
  cases arrival.item.asObject? <;> rfl

theorem sortKey_le {first second : Arrival} (queued : queuedBefore first.row second.row) :
    sortKey first.item ≤ sortKey second.item := by
  unfold sortKey
  simp only [queuedBefore, row_timestamp] at queued
  cases one : timestampOf first.item <;> cases two : timestampOf second.item <;>
    simp only [one, two, Option.elim_none, Option.elim_some, le_refl, le_top, Bool.false_eq_true, Bool.or_eq_true,
      Bool.and_eq_true, decide_eq_true_eq, beq_iff_eq] at queued ⊢
  case some.some =>
    rcases queued with earlier | ⟨same, -⟩
    · exact WithTop.coe_le_coe.mpr earlier.le
    · rw [same]

/-- Items are sorted alike when they have no timestamp, or the same. -/
theorem timestamps_of_sortKey {first second : JsonValue} (keyed : sortKey first ≠ ⊤)
    (same : sortKey first = sortKey second) :
    ∃ timestamp, timestampOf first = some timestamp ∧ timestampOf second = some timestamp := by
  unfold sortKey at keyed same
  cases carried : timestampOf first with
  | none => simp [carried] at keyed
  | some timestamp =>
    cases carried' : timestampOf second with
    | none => simp [carried, carried'] at same
    | some timestamp' =>
      rw [carried, carried', Option.elim_some, Option.elim_some, WithTop.coe_eq_coe] at same
      exact ⟨timestamp, rfl, by rw [same]⟩

/-- **An item without a timestamp is refused wherever it stands**, and changes
nothing. -/
theorem inert_item {item : JsonValue} (last : sortKey item = ⊤) : Inert Content.process item := by
  cases valid : validate (createRawIncomingEvent item 0 0) with
  | invalid reasonCode reasonMessage =>
    refine ⟨.decided (invalidRecord (createRawIncomingEvent item 0 0) (stoppedAt 0) reasonCode reasonMessage), ?_⟩
    intro c
    simp only [Content.process, valid]
  | valid event =>
    have timestamp := createRawIncomingEvent_timestamp valid
    rw [show (createRawIncomingEvent item 0 0).eventTimestamp = timestampOf item from row_timestamp ⟨item, 0, 0⟩]
      at timestamp
    simp [sortKey, timestamp] at last

theorem items_sorted (arrivals : List Arrival) :
    ((queue arrivals).map (·.item)).Pairwise fun first second => sortKey first ≤ sortKey second := by
  have rows := PollOrder.sorted_queue (arrivals.map Arrival.row)
  rw [← List.map_insertionSort (fun first second => queuedBefore first.row second.row)
    (fun first second => queuedBefore first second) Arrival.row arrivals fun _ _ _ _ => Iff.rfl] at rows
  rw [List.pairwise_map]
  exact (List.pairwise_map.mp rows).imp sortKey_le

/-! ## Two backlogs of the same items -/

/-- Two databases, and the arrivals that made them, agree on everything but
times and numbers. -/
structure Agree (s s' : Store) (posted posted' : List Arrival) : Prop where
  orders : ∀ orderId, (s'.orders.find orderId).map (·.untimed) = (s.orders.find orderId).map (·.untimed)
  versions : s'.orderFieldVersions = s.orderFieldVersions
  claimed : ∀ eventId, (s'.processedEventKeys.find eventId).isSome = (s.processedEventKeys.find eventId).isSome
  /-- Item by item: the status, the attempts, and the decision with its reason,
  statuses and fields. -/
  fates : (fates s' posted').Perm (fates s posted)

theorem agree_of_content {s s' : Store} {posted posted' : List Arrival} (same : s'.content = s.content)
    (fates : (fates s' posted').Perm (fates s posted)) : Agree s s' posted posted' where
  orders orderId := congrArg OrderView.order (congrFun (congrArg Content.view same) orderId)
  versions := by
    ext1
    funext key
    exact congrFun (congrArg OrderView.version (congrFun (congrArg Content.view same) key.1)) key.2
  claimed := congrFun (congrArg Content.claimed same)
  fates := fates

/-- One poll of a backlog comes to what its queue leads to. -/
theorem backlog_drained {sys : System} (reachable : Reachable sys) (settled : NothingWaits sys.store)
    (requests : List Request) {now : Time} {hosts : List Host}
    (available : ∀ arrival ∈ arrivals sys.store.rawIncomingEvents.next requests, arrival.receivedAt ≤ now)
    (fits : hosts.length = (posted requests).length) :
    let items := (queue (arrivals sys.store.rawIncomingEvents.next requests)).map (·.item)
    ∃ finish, execute step (idle sys.store) (backlogActions requests now hosts) = some (idle finish) ∧
      finish.content = (drain Content.process sys.store.content items).1 ∧
      (fates finish (arrivals sys.store.rawIncomingEvents.next requests)).Perm
        ((drain Content.process sys.store.content items).2.map fun fate => (fate.1, some fate.2)) := by
  have consistent := reachable.consistent.store
  have fresh := fresh_received consistent (Deduplication.claimed_reachable reachable) settled requests available
  have arranged : (queue (arrivals sys.store.rawIncomingEvents.next requests)).Perm
      (arrivals sys.store.rawIncomingEvents.next requests) := List.perm_insertionSort _ _
  have fits : hosts.length = (queue (arrivals sys.store.rawIncomingEvents.next requests)).length := by
    rw [fits, ← items_of_arrivals sys.store.rawIncomingEvents.next, List.length_map, arranged.length_eq]
  obtain ⟨finish, ran, content, reports, -⟩ := drained (consistent_received consistent requests) fresh fits
  rw [(received_frame sys.store requests).1] at content reports
  refine ⟨finish, ?_, content, ?_⟩
  · rw [backlogActions, execute_requests, ← ran, ← snapshot_received settled requests available]
    rfl
  · rw [← reports]
    exact (arranged.map _).symm

/-- **Arrival order inside a backlog does not matter**: two backlogs of the
same items, whose timestamps tell them apart, lead to the same orders, claims
and decisions. -/
theorem arrival_order_does_not_matter {sys : System} (reachable : Reachable sys) (settled : NothingWaits sys.store)
    {requests requests' : List Request} (perm : (posted requests).Perm (posted requests'))
    (identical : ∀ first ∈ posted requests, ∀ second ∈ posted requests, ∀ timestamp,
      timestampOf first = some timestamp → timestampOf second = some timestamp → first = second)
    {now now' : Time} {hosts hosts' : List Host}
    (available : ∀ arrival ∈ arrivals sys.store.rawIncomingEvents.next requests, arrival.receivedAt ≤ now)
    (available' : ∀ arrival ∈ arrivals sys.store.rawIncomingEvents.next requests', arrival.receivedAt ≤ now')
    (fits : hosts.length = (posted requests).length) (fits' : hosts'.length = (posted requests').length) :
    Reachable (idle sys.store) ∧ ∃ finish finish',
      execute step (idle sys.store) (backlogActions requests now hosts) = some (idle finish) ∧
      execute step (idle sys.store) (backlogActions requests' now' hosts') = some (idle finish') ∧
      Agree finish finish' (arrivals sys.store.rawIncomingEvents.next requests)
        (arrivals sys.store.rawIncomingEvents.next requests') := by
  let items (requests : List Request) := (queue (arrivals sys.store.rawIncomingEvents.next requests)).map (·.item)
  have arranged : ∀ requests, (items requests).Perm (posted requests) := by
    intro requests
    rw [← items_of_arrivals sys.store.rawIncomingEvents.next requests]
    exact (List.perm_insertionSort _ _).map _
  have told : ∀ first ∈ items requests', ∀ second ∈ items requests', sortKey first ≠ ⊤ →
      sortKey first = sortKey second → first = second := by
    intro first member second member' keyed same
    obtain ⟨timestamp, carried, carried'⟩ := timestamps_of_sortKey keyed same
    exact identical first (perm.mem_iff.mpr ((arranged requests').mem_iff.mp member)) second
      (perm.mem_iff.mpr ((arranged requests').mem_iff.mp member')) timestamp carried carried'
  obtain ⟨finish, ran, content, reports⟩ := backlog_drained reachable settled requests available fits
  obtain ⟨finish', ran', content', reports'⟩ := backlog_drained reachable settled requests' available' fits'
  obtain ⟨same, alike⟩ := drain_sorted_perm ((arranged requests').trans (perm.symm.trans (arranged requests).symm))
    (items_sorted _) (items_sorted _) (fun _ => inert_item) told sys.store.content
  refine ⟨reachable_idle reachable settled, finish, finish', ran, ran', agree_of_content ?_ ?_⟩
  · rw [content, content']
    exact same
  · exact reports'.trans ((alike.map _).trans reports.symm)

/-- A refund and a payment come before their order is created; the creation
comes twice, around an item that is no event at all. -/
def lateFirst : List Request :=
  [⟨[postedItem "r" "o" .refundIssued 3 (amountPayload "refundAmount" 20),
      postedItem "p" "o" .paymentCaptured 2 (amountPayload "amount" 50)], 0⟩,
    ⟨[postedItem "c" "o" .orderCreated 1 (amountPayload "amount" 50), .number (.finite 1),
      postedItem "c" "o" .orderCreated 1 (amountPayload "amount" 50)], 5⟩]

/-- The same items the other way round, in requests of their own. -/
def earlyFirst : List Request :=
  [⟨[postedItem "c" "o" .orderCreated 1 (amountPayload "amount" 50)], 2⟩,
    ⟨[.number (.finite 1), postedItem "c" "o" .orderCreated 1 (amountPayload "amount" 50),
      postedItem "p" "o" .paymentCaptured 2 (amountPayload "amount" 50),
      postedItem "r" "o" .refundIssued 3 (amountPayload "refundAmount" 20)], 7⟩]

theorem arrival_order_does_not_matter_late_first :
    Reachable (idle (Store.migrated 0)) ∧ ∃ finish finish',
      execute step (idle (Store.migrated 0)) (backlogActions lateFirst 10 (List.replicate 5 (stoppedAt 10))) =
        some (idle finish) ∧
      execute step (idle (Store.migrated 0)) (backlogActions earlyFirst 20 (List.replicate 5 (stoppedAt 20))) =
        some (idle finish') ∧
      Agree finish finish' (arrivals 1 lateFirst) (arrivals 1 earlyFirst) := by
  have reachable : Reachable (.started 0) := reachable_of_run .nil
  have settled : NothingWaits (System.started 0).store := by
    intro row member
    cases member
  have reversed : (posted lateFirst).Perm (posted earlyFirst) := (List.reverse_perm (posted lateFirst)).symm
  have identical : ∀ first ∈ posted lateFirst, ∀ second ∈ posted lateFirst, ∀ timestamp,
      timestampOf first = some timestamp → timestampOf second = some timestamp → first = second := by
    simp [posted, lateFirst, timestampOf, postedItem, JsonValue.asObject?, finiteNumberOrNull]
  exact arrival_order_does_not_matter reachable settled reversed identical (by decide +kernel) (by decide +kernel)
    rfl rfl

/-- Either way the order is created, paid and refunded, in that order. -/
example : [backlogActions lateFirst 10 (List.replicate 5 (stoppedAt 10)),
      backlogActions earlyFirst 20 (List.replicate 5 (stoppedAt 20))].map (fun actions =>
        ((execute step (idle (Store.migrated 0)) actions).bind fun sys => sys.store.orders.find "o").map
          fun order => (order.status, order.paidAmountMinor, order.refundedAmountMinor)) =
    [some (.partiallyRefunded, 5000, 2000), some (.partiallyRefunded, 5000, 2000)] := by decide +kernel

end EventEngine.Backlog
