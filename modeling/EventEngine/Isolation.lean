import EventEngine.RestrictedRuns

/-! Orders do not interfere. A run without the deliveries of other orders, which
polls when the original does and in which the attempts on the order's own
deliveries throw when they did, keeps a store that is the original one
restricted to the order throughout. -/
namespace EventEngine.Isolation
open EventEngine Relational Selections

/-! ## A run without the other orders -/

/-- The deliveries of one order, with that order. -/
def ofOrder (orderId : String) : Selection where
  takes row := row.orderId == some orderId
  watches other := other = orderId
  steady row row' same := by rw [same.orderId]

/-- What is left of a sequence of actions performed from a state when the
deliveries of other orders are removed. -/
def restricted (orderId : String) : System → List Action → List Action := residue step (kept (ofOrder orderId))

/-- The item is projected to the order. -/
def projectedTo (orderId : String) (item : JsonValue) : Bool :=
  (createRawIncomingEvent item 0 0).orderId == some orderId

variable {orderId : String}

theorem createRawIncomingEvent_orderId (item : JsonValue) (receivedAt : Time) (id : ℕ) :
    (createRawIncomingEvent item receivedAt id).orderId = (createRawIncomingEvent item 0 0).orderId := by
  unfold createRawIncomingEvent
  cases item.asObject? <;> rfl

/-- Of a request, the items projected to the order are left. -/
theorem itemsOf_ofOrder (receivedAt : Time) (next : ℕ) (items : List JsonValue) :
    (ofOrder orderId).itemsOf receivedAt next items = items.filter (projectedTo orderId) := by
  induction items generalizing next with
  | nil => rfl
  | cons item rest ih =>
    have same : (ofOrder orderId).takes (createRawIncomingEvent item receivedAt next) = projectedTo orderId item := by
      simp only [ofOrder, projectedTo, createRawIncomingEvent_orderId item receivedAt next]
    rw [Selection.itemsOf, same, List.filter_cons, ih]

theorem kept_request (sys : System) (events : List JsonValue) (receivedAt : Time) :
    kept (ofOrder orderId) sys (.enqueueBatch events receivedAt) =
      [.enqueueBatch (events.filter (projectedTo orderId)) receivedAt] := by
  rw [kept, itemsOf_ofOrder]

/-! ## Orders with event ids of their own -/

/-- No valid delivery of another order uses an event id that one of the order uses. -/
def KeysApart (s : Store) (orderId : String) : Prop :=
  ∀ id id' event event', s.eventOf id = some event → s.eventOf id' = some event' → event.orderId = orderId →
    event'.orderId ≠ orderId → event.eventId ≠ event'.eventId

variable {s s' : Store}

/-- A valid delivery is one of the order's exactly when its event is. -/
theorem own_iff (posted : Projections.Posted s) {id : ℕ} {event : ValidOrderEvent} (known : s.eventOf id = some event) :
    (ofOrder orderId).has s id = true ↔ event.orderId = orderId := by
  obtain ⟨row, stored, -⟩ := Option.bind_eq_some_iff.mp known
  have projects := Projections.projects_of_posted posted stored known
  simp [Selection.has, stored, ofOrder, projects.orderId]

/-- **An order whose event ids no other order uses is closed.** -/
theorem closed_ofOrder (posted : Projections.Posted s) (claimed : Deduplication.Claimed s)
    (apart : KeysApart s orderId) : Closed (ofOrder orderId) s where
  watched id event has known := (own_iff posted known).mp has
  holders id event key has known found := by
    obtain ⟨event', known', same⟩ := claimed.held _ key found
    rw [own_iff posted known']
    by_contra other
    exact apart id _ event event' known known' ((own_iff posted known).mp has) other same.symm
  others id event has known _ own := by
    rw [(own_iff posted known).mpr own] at has
    cases has

/-! ## The guarantee -/

/-- The order, and everything about its deliveries, is the same in a store that
has no others. -/
structure Undisturbed (orderId : String) (s s' : Store) : Prop where
  order : s'.orders.find orderId = s.orders.find orderId
  versions : ∀ fieldName, s'.orderFieldVersions.find (orderId, fieldName) = s.orderFieldVersions.find (orderId, fieldName)
  /-- Delivery by delivery: the status, the attempts, the availability and the
  last error, and the decision with its reason, statuses and fields. -/
  deliveries : s'.rawIncomingEvents.rows.map (standing s') = (rawEventsOf s orderId).map (standing s)

theorem undisturbed_of_restricts {ν : ℕ → ℕ} (sound : Sound s) (sound' : Sound s')
    (restricts : Restricts (ofOrder orderId) ν s s') : Undisturbed orderId s s' where
  order := congrArg OrderView.order (restricts.view orderId rfl)
  versions := congrFun (congrArg OrderView.version (restricts.view orderId rfl))
  deliveries := standings_of_restricts sound sound' restricts

/-- **Orders do not interfere**: at every point of a run, the order and its
deliveries are as they are at the corresponding point of the run without the
deliveries of other orders. -/
theorem orders_do_not_interfere {now : Time} {actions : List Action} {sys : System}
    (run : Run step (.started now) actions sys)
    (recorded : ∀ action ∈ actions, DecidedOnce.RecordsFailures action) (orderId : String)
    (apart : KeysApart sys.store orderId) :
    ∀ before after, actions = before ++ after → ∃ point point' rest,
      Run step (.started now) before point ∧
      Run step (.started now) (restricted orderId (.started now) before) point' ∧
      restricted orderId (.started now) actions = restricted orderId (.started now) before ++ rest ∧
      Undisturbed orderId point.store point'.store := by
  rintro before after rfl
  obtain ⟨point, former, latter⟩ := run.split
  have reachable := reachable_of_run former
  have reached : Reaches (fun _ => True) point sys := ⟨after, fun _ _ => trivial, latter⟩
  have posted := Projections.posted_reachable (reachable_of_run run)
  have closed := closed_ofOrder posted (Deduplication.claimed_reachable (reachable_of_run run)) apart
  obtain ⟨point', run', ν, simulates⟩ := simulates_run former
    (fun a member => recorded a (List.mem_append_left _ member)) (closed_before reached reachable closed)
  exact ⟨point, point', _, former, run', former.residue_append after,
    undisturbed_of_restricts (sound_reachable reachable) (sound_reachable (reachable_of_run run')) simulates.store⟩

/-- Event ids are apart when those of the rows are. -/
theorem keysApart_of_rows {s : Store} (apart : ∀ row ∈ s.rawIncomingEvents.rows, ∀ row' ∈ s.rawIncomingEvents.rows,
    ∀ event ∈ validEvent? row, ∀ event' ∈ validEvent? row', event.orderId = orderId → event'.orderId ≠ orderId →
      event.eventId ≠ event'.eventId) : KeysApart s orderId := by
  intro id id' event event' known known'
  obtain ⟨row, found, valid⟩ := Option.bind_eq_some_iff.mp known
  obtain ⟨row', found', valid'⟩ := Option.bind_eq_some_iff.mp known'
  exact apart row (s.rawIncomingEvents.find_eq_some.mp found).1 row' (s.rawIncomingEvents.find_eq_some.mp found').1
    event valid event' valid'

/-- Two orders are created and paid in one backlog, between an item that is no
event at all; the first attempt on the payment of `o` meets a busy database. -/
def twoOrderActions : List Action :=
  [.enqueueBatch
      [postedItem "p" "o" .paymentCaptured 3 (amountPayload "amount" 50),
        postedItem "d" "x" .orderCreated 1 (amountPayload "amount" 70), .number (.finite 1),
        postedItem "q" "x" .paymentCaptured 4 (amountPayload "amount" 70),
        postedItem "c" "o" .orderCreated 2 (amountPayload "amount" 50)] 0,
    .poll, .read 0 0, .process 0 (stoppedAt 0) none none, .process 0 (stoppedAt 0) none none,
    .process 0 (stoppedAt 0) (some ⟨2, "SQLITE_BUSY: database is locked"⟩) none,
    .process 0 (stoppedAt 0) none none, .process 0 (stoppedAt 0) none none, .finish 0,
    .poll, .read 0 20000, .process 0 (stoppedAt 20000) none none, .finish 0]

theorem twoOrderActions_enabled : (execute step (.started 0) twoOrderActions).isSome := by decide +kernel

def twoOrderSystem : System := (execute step (.started 0) twoOrderActions).get twoOrderActions_enabled

theorem orders_do_not_interfere_two_orders : ∃ point point' rest,
    Run step (.started 0) twoOrderActions point ∧
    Run step (.started 0) (restricted "o" (.started 0) twoOrderActions) point' ∧
    restricted "o" (.started 0) twoOrderActions = restricted "o" (.started 0) twoOrderActions ++ rest ∧
    Undisturbed "o" point.store point'.store := by
  have run : Run step (.started 0) twoOrderActions twoOrderSystem := run_of_enabled _
  have recorded : ∀ action ∈ twoOrderActions, DecidedOnce.RecordsFailures action := by
    simp [twoOrderActions, DecidedOnce.RecordsFailures]
  have apart : KeysApart twoOrderSystem.store "o" := keysApart_of_rows (by decide +kernel)
  exact orders_do_not_interfere run recorded "o" apart twoOrderActions [] (List.append_nil _).symm

example : (rawEventsOf twoOrderSystem.store "o").map (·.attempts) = [1, 0] ∧
    twoOrderSystem.store.eventDecisions.rows.map (·.rawIncomingEventId) = [2, 5, 4, 3, 1] := by decide +kernel

end EventEngine.Isolation
