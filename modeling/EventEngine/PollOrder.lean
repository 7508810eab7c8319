import EventEngine.Projections

/-! The order in which a poll decides. A poll works through the deliveries that
were available when it read the inbox, by event timestamp and then by delivery;
one that is waiting out a retry delay is passed over. -/
namespace EventEngine.PollOrder
open EventEngine Relational Projections

/-! ## The sort -/

theorem queuedBefore_total (first second : RawIncomingEventEntity) :
    queuedBefore first second ∨ queuedBefore second first := by
  unfold queuedBefore
  cases first.eventTimestamp with
  | none =>
    cases second.eventTimestamp with
    | none => simpa using le_total first.id second.id
    | some later => exact Or.inr rfl
  | some earlier =>
    cases second.eventTimestamp with
    | none => exact Or.inl rfl
    | some later =>
      simp only [Bool.or_eq_true, Bool.and_eq_true, decide_eq_true_eq, beq_iff_eq]
      rcases lt_trichotomy earlier later with before | same | after
      · exact Or.inl (Or.inl before)
      · rcases le_total first.id second.id with below | above
        · exact Or.inl (Or.inr ⟨same, below⟩)
        · exact Or.inr (Or.inr ⟨same.symm, above⟩)
      · exact Or.inr (Or.inl after)

theorem queuedBefore_trans (first second third : RawIncomingEventEntity) (former : queuedBefore first second)
    (latter : queuedBefore second third) : queuedBefore first third := by
  unfold queuedBefore at former latter ⊢
  cases one : first.eventTimestamp <;> cases two : second.eventTimestamp <;> cases three : third.eventTimestamp <;>
    simp only [one, two, three, Bool.or_eq_true, Bool.and_eq_true, decide_eq_true_eq, beq_iff_eq,
      Bool.false_eq_true] at former latter ⊢
  case none.none.none => exact former.trans latter
  case some.some.some =>
    rcases former with older | ⟨same, below⟩ <;> rcases latter with older' | ⟨same', below'⟩
    · exact Or.inl (older.trans older')
    · exact Or.inl (same' ▸ older)
    · exact Or.inl (same ▸ older')
    · exact Or.inr ⟨same.trans same', below.trans below'⟩

/-- Only a delivery and itself are in the queue before each other. -/
theorem queuedBefore_antisymm {first second : RawIncomingEventEntity} (former : queuedBefore first second)
    (latter : queuedBefore second first) : first.id = second.id := by
  unfold queuedBefore at former latter
  cases one : first.eventTimestamp <;> cases two : second.eventTimestamp <;>
    simp only [one, two, Bool.or_eq_true, Bool.and_eq_true, decide_eq_true_eq, beq_iff_eq,
      Bool.false_eq_true] at former latter
  case none.none => exact le_antisymm former latter
  case some.some =>
    rcases former with older | ⟨same, below⟩ <;> rcases latter with older' | ⟨same', below'⟩
    · exact absurd older' (lt_asymm older)
    · exact absurd older (same' ▸ lt_irrefl _)
    · exact absurd older' (same ▸ lt_irrefl _)
    · exact le_antisymm below below'

theorem sorted_queue (rows : List RawIncomingEventEntity) :
    (rows.insertionSort fun first second => queuedBefore first second).Pairwise
      fun first second => queuedBefore first second := by
  have total : Std.Total fun first second : RawIncomingEventEntity => queuedBefore first second = true :=
    ⟨queuedBefore_total⟩
  have transitive : IsTrans RawIncomingEventEntity fun first second => queuedBefore first second = true :=
    ⟨queuedBefore_trans⟩
  exact List.pairwise_insertionSort _ _

/-- A snapshot is sorted. -/
theorem snapshot_sorted (s : Store) (now : Time) :
    (filterAvailableEvents (findPendingOrRetry s) now).Pairwise fun first second => queuedBefore first second :=
  (sorted_queue _).filter _

/-! ## The projected timestamp -/

/-- The column the inbox is sorted by is the timestamp of the event. -/
def Projected (s : Store) : Prop :=
  ∀ id row, s.rawIncomingEvents.find id = some row →
    ∀ event, validate row = .valid event → row.eventTimestamp = some event.timestamp

theorem projected_reachable {sys : System} (reachable : Reachable sys) : Projected sys.store :=
  fun _ _ found _ valid => (projects_of_valid (posted_reachable reachable) found valid).timestamp

/-! ## A poll -/

/-- An action that makes nothing throw. -/
def Untroubled : Action → Prop
  | .process _ _ fault recordingFault => fault = none ∧ recordingFault = none
  | .readFails _ => False
  | _ => True

/-- The reading of the inbox with which a poll begins. -/
def IsRead : Action → Prop
  | .read _ _ => True
  | _ => False

/-- What has become of a delivery its poll has passed: it is decided, or it
waits for an order that was not there when the poll began. -/
def Handled (start : Store) (s : Store) (event : RawIncomingEventEntity) : Prop :=
  (s.decisionOf event.id).isSome ∨
    ∃ valid, validate event = .valid valid ∧ start.orders.find valid.orderId = none ∧
      ∃ availableAt, s.rawIncomingEvents.find event.id =
        some (event.postponed (event.attempts + 1) notReadyMessage availableAt)

/-- A poll under way: the snapshot it took, up to where it is. -/
structure Progress (start : Store) (snapshot : List RawIncomingEventEntity) (sys : System) : Prop where
  consistent : sys.Consistent
  orders : ∀ orderId, (start.orders.find orderId).isSome → (sys.store.orders.find orderId).isSome
  under_way : ∀ rest, sys.polls = [.processing rest] →
    ∃ passed, snapshot = passed ++ rest ∧ ∀ event ∈ passed, Handled start sys.store event

theorem handled_enqueueBatch {start s : Store} {event : RawIncomingEventEntity} (handled : Handled start s event)
    (events : List JsonValue) (receivedAt : Time) : Handled start (enqueueBatch s events receivedAt) event := by
  rcases handled with decided | ⟨valid, validates, absent, availableAt, waits⟩
  · exact Or.inl decided
  · exact Or.inr ⟨valid, validates, absent, availableAt, findRow_enqueueBatch waits⟩

theorem handled_outcome {start s s' : Store} {event delivery : RawIncomingEventEntity} {host : Host}
    (outcome : Outcome s delivery host s') (other : event.id ≠ delivery.id) (handled : Handled start s event) :
    Handled start s' event := by
  rcases handled with decided | ⟨valid, validates, absent, availableAt, waits⟩
  · left
    rwa [decisionOf_outcome outcome other]
  · refine Or.inr ⟨valid, validates, absent, availableAt, ?_⟩
    rwa [findRow_outcome outcome other]

/-- A call that does not throw handles its delivery. -/
theorem handled_of_committed {start s s' : Store} {event : RawIncomingEventEntity} {host : Host}
    (committed : Committed s event host s') (stored : s.rawIncomingEvents.find event.id = some event)
    (orders : ∀ orderId, (start.orders.find orderId).isSome → (s.orders.find orderId).isSome) :
    Handled start s' event := by
  cases committed with
  | @deferred valid validates _ waits _ =>
    have absent : s.orders.find valid.orderId = none := (judge_notReady.mp waits).1
    refine Or.inr ⟨valid, validates, ?_, host.nextAvailableAt, ?_⟩
    · cases before : start.orders.find valid.orderId with
      | none => rfl
      | some order =>
        have kept := orders valid.orderId (by rw [before]; rfl)
        rw [absent] at kept
        cases kept
    · rw [findRow_postpone, rawIncomingEvents_claim, stored]
      simp only [Option.map_some, ↓reduceIte]
  | invalid | duplicate | expired | rejected | applied => exact Or.inl (decisionOf_settle_isSome _ _ _ _)

theorem progress_step {start : Store} {snapshot : List RawIncomingEventEntity} {sys sys' : System} {action : Action}
    (distinct : (snapshot.map (·.id)).Nodup) (progress : Progress start snapshot sys)
    (permitted : Untroubled action ∧ ¬ IsRead action) (taken : step sys action = some sys') :
    Progress start snapshot sys' := by
  have consistent := consistent_step progress.consistent taken
  obtain ⟨untroubled, notRead⟩ := permitted
  cases moves_of_step progress.consistent taken with
  | skipped => exact progress
  | enqueued events receivedAt =>
    refine ⟨consistent, progress.orders, ?_⟩
    intro rest working
    obtain ⟨passed, split, handled⟩ := progress.under_way rest working
    exact ⟨passed, split, fun event member => handled_enqueueBatch (handled event member) _ _⟩
  | opened =>
    refine ⟨consistent, progress.orders, ?_⟩
    intro rest working
    cases working
  | read => exact absurd trivial notRead
  | @processed event rest host fault recordingFault s' working stored undecided ran outcome =>
    obtain ⟨rfl, rfl⟩ := untroubled
    rw [processEvent_clean progress.consistent.store.toOperational, Prod.mk.injEq] at ran
    obtain ⟨-, rfl⟩ := ran
    refine ⟨consistent, fun orderId present => order_kept outcome (progress.orders orderId present), ?_⟩
    intro left working'
    obtain rfl : rest = left := by simpa using working'
    obtain ⟨passed, split, handled⟩ := progress.under_way _ working
    refine ⟨passed ++ [event], by simp [split], ?_⟩
    intro earlier member
    rw [List.mem_append, List.mem_singleton] at member
    rcases member with before | rfl
    · refine handled_outcome outcome ?_ (handled earlier before)
      rw [split, List.map_append, List.nodup_append] at distinct
      exact distinct.2.2 _ (List.mem_map_of_mem before) _ (by simp)
    · exact handled_of_committed (processed_committed _ undecided) stored progress.orders
  | aborted _ unrecorded =>
    obtain ⟨-, rfl⟩ := untroubled
    cases unrecorded
  | readFailed => exact untroubled.elim
  | finished =>
    refine ⟨consistent, progress.orders, ?_⟩
    intro rest working
    cases working

/-! ## What a poll decides, and when -/

/-- A poll that reads the inbox in state `start`, at clock reading `now`,
decides a delivery when the system is in state `before`, in a run without
technical failures. -/
structure Decides (start : System) (now : Time) (before : System) (deciding : ℕ) : Prop where
  reached : ∃ migratedAt, Reaches Untroubled (.started migratedAt) start
  reading : ∃ index opened, step start (.read index now) = some opened ∧
    Reaches (fun action => Untroubled action ∧ ¬ IsRead action) opened before
  undecided : before.store.decisionOf deciding = none
  decided : ∃ action after, Untroubled action ∧ step before action = some after ∧
    (after.store.decisionOf deciding).isSome

/-- The documented processing order: event timestamp, then delivery. -/
def SortsBefore (first : ℕ) (earlier : ValidOrderEvent) (second : ℕ) (later : ValidOrderEvent) : Prop :=
  earlier.timestamp < later.timestamp ∨ earlier.timestamp = later.timestamp ∧ first < second

theorem progress_of_read {start opened before : System} {index : ℕ} {now : Time} (consistent : start.Consistent)
    (read : step start (.read index now) = some opened)
    (between : Reaches (fun action => Untroubled action ∧ ¬ IsRead action) opened before) :
    Progress start.store (filterAvailableEvents (findPendingOrRetry start.store) now) before := by
  have distinct := (queued_snapshot consistent.store now).distinct
  have began : Progress start.store (filterAvailableEvents (findPendingOrRetry start.store) now) opened := by
    have consistent' := consistent_step consistent read
    cases moves_of_step consistent read with
    | read =>
      refine ⟨consistent', fun _ present => present, ?_⟩
      intro rest working
      cases working
      exact ⟨[], rfl, fun _ absurd => by cases absurd⟩
  obtain ⟨actions, permitted, run⟩ := between
  exact run.invariant permitted began fun _ _ _ progress permitted taken => progress_step distinct progress permitted taken

/-- The step that decides a delivery is the call on it. -/
theorem deciding_call {before after : System} {action : Action} {deciding : ℕ} (consistent : before.Consistent)
    (taken : step before action = some after) (undecided : before.store.decisionOf deciding = none)
    (decided : (after.store.decisionOf deciding).isSome) :
    ∃ delivery rest, delivery.id = deciding ∧ before.polls = [.processing (delivery :: rest)] ∧
      before.store.rawIncomingEvents.find delivery.id = some delivery := by
  have unchanged : before.store.decisionOf deciding = after.store.decisionOf deciding → False := by
    intro same
    rw [← same, undecided] at decided
    cases decided
  cases moves_of_step consistent taken with
  | @processed event rest _ _ _ s' working stored _ _ outcome =>
    by_cases same : deciding = event.id
    · exact ⟨event, rest, same.symm, working, stored⟩
    · exact (unchanged (decisionOf_outcome outcome same).symm).elim
  | enqueued | skipped | opened | read | aborted | readFailed | finished => exact (unchanged rfl).elim

/-- In a sorted queue nothing sorts strictly before the head. -/
theorem head_first {delivery other : RawIncomingEventEntity} {event earlier : ValidOrderEvent}
    (queued : queuedBefore delivery other) (projected : delivery.eventTimestamp = some event.timestamp)
    (projected' : other.eventTimestamp = some earlier.timestamp) :
    ¬ SortsBefore other.id earlier delivery.id event := by
  simp only [queuedBefore, projected, projected', Bool.or_eq_true, Bool.and_eq_true, decide_eq_true_eq,
    beq_iff_eq] at queued
  rintro (older | ⟨same, below⟩)
  · rcases queued with newer | ⟨same, -⟩
    · exact lt_asymm older newer
    · exact older.ne same.symm
  · rcases queued with newer | ⟨-, above⟩
    · exact newer.ne same.symm
    · omega

/-- An undecided delivery that is available is in the snapshot of a poll. -/
theorem mem_snapshot {s : Store} (consistent : s.Consistent) {row : RawIncomingEventEntity} {now : Time}
    (stored : s.rawIncomingEvents.find row.id = some row) (undecided : s.decisionOf row.id = none)
    (available : row.availableAt ≤ now) : row ∈ filterAvailableEvents (findPendingOrRetry s) now := by
  unfold filterAvailableEvents
  rw [List.mem_filter, mem_findPendingOrRetry]
  exact ⟨⟨(s.rawIncomingEvents.find_eq_some.mp stored).1, (consistent.undecided_iff stored).mp undecided⟩,
    by simpa using available⟩

/-- A delivery that was available when its poll began, and sorts before the one
being decided, has been handled. -/
theorem handled_before {start before : System} {now : Time} {deciding waiting : ℕ} {event earlier : ValidOrderEvent}
    {row : RawIncomingEventEntity} (decides : Decides start now before deciding)
    (known : before.store.eventOf deciding = some event)
    (stored : start.store.rawIncomingEvents.find waiting = some row) (available : row.availableAt ≤ now)
    (known' : start.store.eventOf waiting = some earlier)
    (sorts : SortsBefore waiting earlier deciding event) : Handled start.store before.store row := by
  obtain ⟨migratedAt, actions, -, run⟩ := decides.reached
  obtain ⟨index, opened, read, between⟩ := decides.reading
  obtain ⟨action, after, -, taken, decided⟩ := decides.decided
  have reachable := reachable_of_run run
  have later : Reaches (fun _ => True) start before := by
    obtain ⟨more, -, rest⟩ := between
    exact ⟨_, fun _ _ => trivial, (Run.single read).append rest⟩
  have progress := progress_of_read reachable.consistent read between
  have named : row.id = waiting := start.store.rawIncomingEvents.id_of_find stored
  subst named
  obtain ⟨delivery, rest, rfl, working, held⟩ := deciding_call progress.consistent taken decides.undecided decided
  obtain ⟨passed, split, handled⟩ := progress.under_way _ working
  cases decidedBefore : start.store.decisionOf row.id with
  | some decision =>
    have kept := (keepsDecided_reaches later reachable.consistent _ _ _ stored decidedBefore).2
    exact Or.inl (by rw [kept]; rfl)
  | none =>
    have waits := mem_snapshot reachable.consistent.store stored decidedBefore available
    have sorted := snapshot_sorted start.store now
    rw [split] at waits sorted
    rw [List.mem_append, List.mem_cons] at waits
    have valid : validate delivery = .valid event := by
      rwa [eventOf_stored held, validEvent?_eq_some] at known
    have valid' : validate row = .valid earlier := by
      rwa [eventOf_stored stored, validEvent?_eq_some] at known'
    rcases waits with already | rfl | queued
    · exact handled row already
    · obtain rfl := EventValidation.valid.inj (valid.symm.trans valid')
      rcases sorts with older | ⟨-, below⟩
      · exact absurd older (lt_irrefl _)
      · exact absurd below (lt_irrefl _)
    · have first := (List.pairwise_cons.mp (List.pairwise_append.mp sorted).2.1).1 row queued
      have projected := projected_reachable (reachable.later later) _ _ held _ valid
      have projected' := projected_reachable reachable _ _ stored _ valid'
      exact absurd sorts (head_first first projected projected')

/-- **A poll decides in order among what was available**: while a delivery of
an order is decided, no delivery of the order that was available when the poll
began and sorts before it still waits, unless this poll has deferred it because
the order did not exist when it began. -/
theorem available_deliveries_decided_in_order {start before : System} {now : Time} {deciding waiting : ℕ}
    {event earlier : ValidOrderEvent} {row row' : RawIncomingEventEntity}
    (decides : Decides start now before deciding) (known : before.store.eventOf deciding = some event)
    (stored : start.store.rawIncomingEvents.find waiting = some row) (available : row.availableAt ≤ now)
    (known' : start.store.eventOf waiting = some earlier) (same : earlier.orderId = event.orderId)
    (sorts : SortsBefore waiting earlier deciding event)
    (stored' : before.store.rawIncomingEvents.find waiting = some row') :
    row'.processingStatus = .done ∨
      start.store.orders.find event.orderId = none ∧ row'.processingStatus = .retry ∧
        row'.attempts = row.attempts + 1 ∧ row'.lastErrorMessage = some notReadyMessage := by
  obtain ⟨migratedAt, actions, -, run⟩ := decides.reached
  obtain ⟨index, opened, read, more, -, rest⟩ := decides.reading
  have consistent := (reachable_of_run ((run.append (Run.single read)).append rest)).consistent
  have named : row.id = waiting := start.store.rawIncomingEvents.id_of_find stored
  have named' : row'.id = waiting := before.store.rawIncomingEvents.id_of_find stored'
  subst named
  have validates : validate row = .valid earlier := by
    rwa [eventOf_stored stored, validEvent?_eq_some] at known'
  rcases handled_before decides known stored available known' sorts with
    decided | ⟨valid, valid', absent, availableAt, waits⟩
  · left
    rw [← named'] at stored' decided
    exact (consistent.store.done_iff stored').mpr decided
  · right
    obtain rfl := EventValidation.valid.inj (validates.symm.trans valid')
    obtain rfl := Option.some.inj (stored'.symm.trans waits)
    exact ⟨same ▸ absent, rfl, rfl, rfl⟩

/-! ## A payment that waits out its delay -/

/-- A payment is polled before its order exists. Before its delay is over, the
creation and a refund arrive, and a poll begins. -/
def latePaymentActions : List Action :=
  [.enqueueBatch [postedItem "p" "o" .paymentCaptured 2 (amountPayload "amount" 50)] 0,
    .poll, .read 0 0, .process 0 (stoppedAt 0) none none, .finish 0,
    .enqueueBatch
      [postedItem "c" "o" .orderCreated 1 [],
        postedItem "r" "o" .refundIssued 3 (amountPayload "refundAmount" 50)] 100,
    .poll]

def nextCall : Action := .process 0 (stoppedAt 100) none none

/-- Where those actions lead; the poll has read nothing yet. -/
def latePaymentStart : System := (execute step (.started 0) latePaymentActions).get (by decide +kernel)

/-- The poll has read the inbox. -/
def latePaymentOpened : System := (step latePaymentStart (.read 0 100)).get (by decide +kernel)

/-- The poll has decided the creation, and is about to decide the refund. -/
def latePaymentBefore : System := (execute step latePaymentOpened [nextCall]).get (by decide +kernel)

def latePaymentAfter : System := (step latePaymentBefore nextCall).get (by decide +kernel)

theorem latePayment_decides : Decides latePaymentStart 100 latePaymentBefore 3 where
  reached := ⟨0, latePaymentActions, by simp [latePaymentActions, Untroubled], run_of_enabled _⟩
  reading := by
    refine ⟨0, latePaymentOpened, (Option.some_get _).symm, [nextCall], ?_, run_of_enabled _⟩
    simp [nextCall, Untroubled, IsRead]
  undecided := by
    rw [← Option.not_isSome_iff_eq_none]
    decide +kernel
  decided := by
    refine ⟨nextCall, latePaymentAfter, by simp [nextCall, Untroubled], (Option.some_get _).symm, ?_⟩
    decide +kernel

/-- The refund is refused for good while the earlier payment still waits. -/
example : (latePaymentAfter.store.decisionOf 3).map (fun decision => (decision.decision, decision.reasonCode)) =
    some (.rejected, .forbiddenTransition) := by decide +kernel

/-- What a store knows of a delivery posted for order `o`. -/
theorem latePayment_event {s : Store} {delivery : ℕ} {timestamp : ℚ}
    (posted : (s.eventOf delivery).map (fun event => (event.orderId, event.timestamp)) = some ("o", timestamp)) :
    ∃ event, s.eventOf delivery = some event ∧ event.orderId = "o" ∧ event.timestamp = timestamp := by
  obtain ⟨event, known, read⟩ := Option.map_eq_some_iff.mp posted
  exact ⟨event, known, (Prod.mk.inj read).1, (Prod.mk.inj read).2⟩

/-- A delivery that waits out its delay is overtaken, though its order exists. -/
theorem waiting_delivery_overtaken :
    ¬ ∀ (start before : System) (now : Time) (deciding waiting : ℕ) (event earlier : ValidOrderEvent)
        (row' : RawIncomingEventEntity), Decides start now before deciding →
      before.store.eventOf deciding = some event → (start.store.rawIncomingEvents.find waiting).isSome →
      start.store.eventOf waiting = some earlier → earlier.orderId = event.orderId →
      SortsBefore waiting earlier deciding event → (before.store.orders.find event.orderId).isSome →
      before.store.rawIncomingEvents.find waiting = some row' → row'.processingStatus = .done := by
  intro kept
  obtain ⟨refund, known, order, timestamp⟩ := @latePayment_event latePaymentBefore.store 3 3 (by decide +kernel)
  obtain ⟨payment, known', order', timestamp'⟩ :=
    @latePayment_event latePaymentStart.store 1 2 (by decide +kernel)
  have waits : (latePaymentBefore.store.rawIncomingEvents.find 1).map (·.processingStatus) = some .retry := by
    decide +kernel
  obtain ⟨row, stored, retry⟩ := Option.map_eq_some_iff.mp waits
  have posted : (latePaymentStart.store.rawIncomingEvents.find 1).isSome := by decide +kernel
  have created : (latePaymentBefore.store.orders.find "o").isSome := by decide +kernel
  have sorts : SortsBefore 1 payment 3 refund := by
    left
    rw [timestamp, timestamp']
    decide
  have done := kept _ _ _ _ _ _ _ row latePayment_decides known posted known' (order'.trans order.symm) sorts
    (by rw [order]; exact created) stored
  rw [retry] at done
  cases done

theorem available_deliveries_decided_in_order_late_payment :
    ∃ row', latePaymentBefore.store.rawIncomingEvents.find 2 = some row' ∧
      (row'.processingStatus = .done ∨
        latePaymentStart.store.orders.find "o" = none ∧ row'.processingStatus = .retry ∧
          row'.attempts = 1 ∧ row'.lastErrorMessage = some notReadyMessage) := by
  obtain ⟨refund, known, order, timestamp⟩ := @latePayment_event latePaymentBefore.store 3 3 (by decide +kernel)
  obtain ⟨creation, known', order', timestamp'⟩ :=
    @latePayment_event latePaymentStart.store 2 1 (by decide +kernel)
  have stored : (latePaymentStart.store.rawIncomingEvents.find 2).map (fun row => (row.availableAt, row.attempts)) =
      some (100, 0) := by decide +kernel
  obtain ⟨row, stored, read⟩ := Option.map_eq_some_iff.mp stored
  obtain ⟨available, unattempted⟩ := Prod.mk.inj read
  have stored' : (latePaymentBefore.store.rawIncomingEvents.find 2).isSome := by decide +kernel
  obtain ⟨row', stored'⟩ := Option.isSome_iff_exists.mp stored'
  have sorts : SortsBefore 2 creation 3 refund := by
    left
    rw [timestamp, timestamp']
    decide
  have decided := available_deliveries_decided_in_order latePayment_decides known stored available.le known'
    (order'.trans order.symm) sorts stored'
  rw [order, unattempted] at decided
  exact ⟨row', stored', decided⟩

end EventEngine.PollOrder
