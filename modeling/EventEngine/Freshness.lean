import EventEngine.Money
import EventEngine.Relational.LastWriter

/-! Status freshness. The version row of an order's status is the running
maximum over the events that moved the status. A refund moves the status
whether or not it is fresh, but stamps it only when it is. -/
namespace EventEngine.Freshness
open EventEngine Relational LastWriter

/-! ## What moves a status -/

/-- An accepted creation, capture, cancellation or refund. -/
def MovesStatus (entry : LogEntry) : Prop :=
  entry.1.decision = .accepted ∧ (entry.2.type = .orderCreated ∨ entry.2.type = .paymentCaptured ∨
    entry.2.type = .orderCancelled ∨ entry.2.type = .refundIssued)

instance (entry : LogEntry) : Decidable (MovesStatus entry) := inferInstanceAs (Decidable (_ ∧ _))

/-- The accepted deliveries of an order that moved its status, as processed. -/
def statusMoves (log : List LogEntry) : List LogEntry := log.filter (MovesStatus ·)

/-- The stamp such a delivery offers the status. -/
def statusWrite (entry : LogEntry) : Write ℚ String := ⟨entry.2.timestamp, entry.2.eventId⟩

def statusWrites (log : List LogEntry) : List (Write ℚ String) := (statusMoves log).map statusWrite

/-- The version row a stamp leaves. -/
def statusVersion (orderId : String) (write : Write ℚ String) : OrderFieldVersionEntity :=
  ⟨orderId, .status, write.stamp, write.content⟩

variable {view : OrderView} {event : ValidOrderEvent} {now : Time} {application : Application}

/-- A capture or a cancellation is accepted only when it is fresh. -/
theorem fresh_of_judge (judged : judge view event now = .applied application)
    (type : event.type = .paymentCaptured ∨ event.type = .orderCancelled) :
    isFresh (view.version .status) event.timestamp = true := by
  have gated : ∀ {order : OrderEntity} {toStatus : OrderStatus} {changedFields : JsonObject},
      judgeStatusChange view order event now toStatus changedFields = .applied application →
      isFresh (view.version .status) event.timestamp = true := by
    intro order toStatus changedFields changed
    unfold judgeStatusChange at changed
    split at changed
    · assumption
    · cases changed
  unfold judge at judged
  cases present : view.order with
  | none => rcases type with type | type <;> simp [present, type] at judged
  | some order =>
    rcases type with type | type <;> simp only [present, type] at judged
    · split at judged
      · cases judged
      · unfold judgeCapture at judged
        split at judged
        · cases judged
        · split at judged
          · cases judged
          · exact gated judged
    · split at judged
      · exact gated judged
      · cases judged

/-- An update stamps no status; every other accepted event stamps it exactly
when it is fresh. -/
theorem stamps_status (judged : judge view event now = .applied application)
    (unstamped : view.order = none → view.version .status = none) :
    (event.type = .orderUpdated ∧ .status ∉ application.stamped) ∨
      (event.type ≠ .orderUpdated ∧ application.decision = .accepted ∧
        (.status ∈ application.stamped ↔ isFresh (view.version .status) event.timestamp = true)) := by
  have gated := fresh_of_judge judged
  cases accepts_of_judge judged with
  | created absent type =>
    refine Or.inr ⟨by simp [type], rfl, ?_⟩
    simp [unstamped absent, isFresh, creation, Application.accepted, createdFields_eq]
  | updated _ type => exact Or.inl ⟨type, status_not_mem_writtenVersions _ _⟩
  | captured _ type =>
    refine Or.inr ⟨by simp [type], rfl, ?_⟩
    simp [Application.accepted, gated (Or.inl type)]
  | cancelled _ type =>
    refine Or.inr ⟨by simp [type], rfl, ?_⟩
    simp [Application.accepted, gated (Or.inr type)]
  | refunded _ type =>
    refine Or.inr ⟨by simp [type], rfl, ?_⟩
    simp only [Application.accepted]
    split <;> simp_all

/-! ## One call -/

variable {s s' : Store} {delivery : RawIncomingEventEntity} {host : Host} {orderId : String}

/-- What a call does to an order: it logs at most decisions that applied
nothing, or it logs the application of its delivery's event. -/
inductive Progress (s : Store) (delivery : RawIncomingEventEntity) (host : Host) (orderId : String) (s' : Store) : Prop
    where
  | still (entries : List LogEntry)
      (unapplied : ∀ entry ∈ entries, entry.1.decision ≠ .accepted ∧ entry.1.decision ≠ .partiallyApplied)
      (log : s'.orderLog orderId = s.orderLog orderId ++ entries) (view : s'.view orderId = s.view orderId)
  | applied (event : ValidOrderEvent) (application : Application) (record : EventDecisionEntity)
      (valid : validate delivery = .valid event) (own : event.orderId = orderId)
      (judged : judge (s.view orderId) event host.now = .applied application) (records : Records record application)
      (log : s'.orderLog orderId = s.orderLog orderId ++ [(record, event)])
      (view : s'.view orderId = (s.view orderId).apply event application)

theorem progress_call (call : Call s delivery host s') (orderId : String) :
    Progress s delivery host orderId s' := by
  cases call.outcome.effect with
  | unapplied orders versions log =>
    have view : s'.view orderId = s.view orderId := by rw [Store.view, orders, versions, Store.view]
    rcases log with unlogged | ⟨record, logged, about, unapplied⟩
    · exact .still [] (by simp) (by rw [List.append_nil, orderLog_unlogged call.outcome unlogged]) view
    · refine .still _ ?_ (orderLog_logged call logged about) view
      intro entry member
      obtain ⟨event, -, rfl⟩ := Option.map_eq_some_iff.mp (Option.mem_toList.mp member)
      exact unapplied
  | @applied event application valid judged written =>
    have moved := @view_applied s delivery host event application judged orderId
    rw [← written] at moved
    have logged := @orderLog_logged s s' delivery host orderId call _ (by rw [written]; rfl) rfl
    rw [validEvent?_eq_some.mpr valid, Option.filter_some] at logged
    by_cases same : event.orderId = orderId
    · subst same
      rw [if_pos (beq_self_eq_true _)] at logged
      rw [if_pos rfl] at moved
      exact .applied event application _ valid rfl judged ⟨rfl, rfl, rfl, rfl⟩ logged moved
    · rw [if_neg (by simpa using same)] at logged
      rw [if_neg (Ne.symm same)] at moved
      exact .still [] (by simp) logged moved

/-! ## The status version is the newest status move -/

/-- The status version of an order is that of its newest status move, and there
is one exactly when the order exists. -/
structure Stamped (orderId : String) (log : List LogEntry) (view : OrderView) : Prop where
  version : view.version .status = (winner (statusWrites log)).map (statusVersion orderId)
  present : view.order.isSome ↔ (view.version .status).isSome

theorem statusWrites_append (log : List LogEntry) (entry : LogEntry) :
    statusWrites (log ++ [entry]) = statusWrites log ++ if MovesStatus entry then [statusWrite entry] else [] := by
  by_cases moves : MovesStatus entry <;>
    simp [statusWrites, statusMoves, List.filter_append, moves]

theorem statusWrites_still (log entries : List LogEntry)
    (unapplied : ∀ entry ∈ entries, entry.1.decision ≠ .accepted ∧ entry.1.decision ≠ .partiallyApplied) :
    statusWrites (log ++ entries) = statusWrites log := by
  have none_moves : entries.filter (MovesStatus ·) = [] := by
    rw [List.filter_eq_nil_iff]
    intro entry member moves
    exact (unapplied entry member).1 (of_decide_eq_true moves).1
  simp only [statusWrites, statusMoves, List.filter_append, none_moves, List.append_nil]

theorem unstamped_of_absent {log : List LogEntry} (stamped : Stamped orderId log view) (absent : view.order = none) :
    view.version .status = none := by
  have none := stamped.present
  rw [absent] at none
  simpa using none

theorem isFresh_status {log : List LogEntry} (stamped : Stamped orderId log view) (timestamp : ℚ) :
    isFresh (view.version .status) timestamp = takes (winner (statusWrites log)) timestamp := by
  rw [stamped.version]
  cases winner (statusWrites log) <;> rfl

/-- An applied event takes the status version exactly when it moves the status
and is newer. -/
theorem stamped_applied {log : List LogEntry} (stamped : Stamped orderId log view) (own : event.orderId = orderId)
    (judged : judge view event now = .applied application) {record : EventDecisionEntity}
    (records : Records record application) :
    Stamped orderId (log ++ [(record, event)]) (view.apply event application) := by
  have unstamped := unstamped_of_absent stamped
  have fresh := isFresh_status stamped event.timestamp
  rcases stamps_status judged unstamped with ⟨update, silent⟩ | ⟨lifecycle, accepted, stamps⟩
  · have still : ¬ MovesStatus (record, event) := by simp [MovesStatus, update]
    have kept : (view.apply event application).version .status = view.version .status := by
      simp only [OrderView.apply, silent, ↓reduceIte]
    have present : view.order.isSome := by
      cases accepts_of_judge judged with
      | updated present => rw [present]; rfl
      | created _ type | captured _ type | cancelled _ type | refunded _ type => cases update.symm.trans type
    refine ⟨?_, ⟨fun _ => ?_, fun _ => rfl⟩⟩
    · rw [kept, statusWrites_append, if_neg still, List.append_nil, stamped.version]
    · rw [kept]
      exact stamped.present.mp present
  · have moves : MovesStatus (record, event) := by
      refine ⟨records.verdict.trans accepted, ?_⟩
      cases type : event.type <;> simp_all
    have written : (view.apply event application).version .status =
        (write (winner (statusWrites log)) (statusWrite (record, event))).map (statusVersion orderId) := by
      simp only [OrderView.apply, stamps, fresh, write, statusWrite]
      by_cases newer : takes (winner (statusWrites log)) event.timestamp = true
      · simp [newer, statusVersion, ValidOrderEvent.stamp, own]
      · simp only [newer, ↓reduceIte, Bool.false_eq_true]
        exact stamped.version
    refine ⟨?_, ⟨fun _ => ?_, fun _ => rfl⟩⟩
    · rw [written, statusWrites_append, if_pos moves, winner_append]
    · rw [written, Option.isSome_map, write]
      split
      · rfl
      · rename_i stale
        cases held : winner (statusWrites log) with
        | none => simp [held, takes] at stale
        | some w => rfl

theorem stamped_call (call : Call s delivery host s') (stamped : Stamped orderId (s.orderLog orderId) (s.view orderId)) :
    Stamped orderId (s'.orderLog orderId) (s'.view orderId) := by
  cases progress_call call orderId with
  | still entries unapplied log view =>
    refine ⟨?_, ?_⟩
    · rw [log, view, statusWrites_still _ _ unapplied]
      exact stamped.version
    · rw [view]
      exact stamped.present
  | applied event application record valid own judged records log view =>
    rw [log, view]
    exact stamped_applied stamped own judged records

theorem stamped_reachable {sys : System} (reachable : Reachable sys) (orderId : String) :
    Stamped orderId (sys.store.orderLog orderId) (sys.store.view orderId) := by
  apply reachable_invariant (fun s => Stamped orderId (s.orderLog orderId) (s.view orderId)) reachable
  · exact fun now => ⟨rfl, Iff.rfl⟩
  · intro s events receivedAt consistent stamped
    rw [orderLog_enqueueBatch consistent, view_enqueueBatch]
    exact stamped
  · exact fun s delivery host s' call stamped => stamped_call call stamped

/-! ## The version never decreases -/

theorem statusWrites_call (call : Call s delivery host s') (orderId : String) :
    statusWrites (s.orderLog orderId) <+: statusWrites (s'.orderLog orderId) := by
  cases progress_call call orderId with
  | still entries unapplied log =>
    exact ⟨[], by rw [log, statusWrites_still _ _ unapplied, List.append_nil]⟩
  | applied event application record _ _ _ _ log =>
    rw [log, statusWrites_append]
    exact List.prefix_append _ _

theorem statusWrites_kept {permitted : Action → Prop} {start finish : System}
    (reached : Reaches permitted start finish) (consistent : start.Consistent) (orderId : String) :
    statusWrites (start.store.orderLog orderId) <+: statusWrites (finish.store.orderLog orderId) := by
  apply store_relates (fun s t => statusWrites (s.orderLog orderId) <+: statusWrites (t.orderLog orderId)) reached
    consistent
  · exact fun s => List.prefix_rfl
  · exact fun s t u former latter => former.trans latter
  · intro s events receivedAt _ consistent
    exact ⟨[], by rw [orderLog_enqueueBatch consistent, List.append_nil]⟩
  · exact fun s delivery host s' call => statusWrites_call call orderId

/-! ## The gate of a new order -/

/-- The event would capture an amount that is positive in minor units, or cancel. -/
def Closes (event : ValidOrderEvent) : Prop :=
  event.type = .paymentCaptured ∧ (readPositiveAmountMinor event.payload "amount").isSome ∨
    event.type = .orderCancelled

theorem closes_iff {event : ValidOrderEvent} : Closes event ↔
    (event.type = .paymentCaptured ∧
      ∃ value, event.payload.get "amount" = some (.number (.finite value)) ∧ 0 < mathRound (value * 100)) ∨
    event.type = .orderCancelled := by
  rw [Closes, readPositiveAmountMinor_isSome]

/-- While an order is `CREATED`, only freshness decides on such an event. -/
theorem judge_closes {order : OrderEntity} (present : view.order = some order) (created : order.status = .created)
    (unpaid : order.paidAmountMinor ≤ 0) (closes : Closes event) (now : Time) :
    (isFresh (view.version .status) event.timestamp = true →
      ∃ application, judge view event now = .applied application ∧ application.decision = .accepted) ∧
    (isFresh (view.version .status) event.timestamp = false → ∃ reasonMessage skippedFields,
      judge view event now = .rejected .obsoleteEvent reasonMessage skippedFields) := by
  rcases closes with ⟨type, carried⟩ | type
  · obtain ⟨amountMinor, read⟩ := Option.isSome_iff_exists.mp carried
    have judged : judge view event now = judgeStatusChange view order event now .paid
        [("paidAmountMinor", .minor amountMinor), ("status", .status .paid)] := by
      simp [judge, present, type, created, judgeCapture, read, not_lt.mpr unpaid]
    rw [judged, judgeStatusChange]
    constructor
    · intro fresh
      rw [if_pos fresh]
      exact ⟨_, rfl, rfl⟩
    · intro stale
      rw [if_neg (by simp [stale])]
      exact ⟨_, _, rfl⟩
  · have judged : judge view event now = judgeStatusChange view order event now .cancelled
        [("status", .status .cancelled)] := by
      simp [judge, present, type, created, judgeCancel]
    rw [judged, judgeStatusChange]
    constructor
    · intro fresh
      rw [if_pos fresh]
      exact ⟨_, rfl, rfl⟩
    · intro stale
      rw [if_neg (by simp [stale])]
      exact ⟨_, _, rfl⟩

/-- What a committed transaction decides on such an event. -/
theorem decided_closes (committed : Committed s delivery host s') (undecided : s.decisionOf delivery.id = none)
    {order : OrderEntity} (valid : validate delivery = .valid event) (claimable : s.Claimable event delivery.id)
    (present : (s.view event.orderId).order = some order) (created : order.status = .created)
    (unpaid : order.paidAmountMinor ≤ 0) (closes : Closes event) :
    ∃ decision, s'.decisionOf delivery.id = some decision ∧
      (isFresh ((s.view event.orderId).version .status) event.timestamp = true → decision.decision = .accepted) ∧
      (isFresh ((s.view event.orderId).version .status) event.timestamp = false →
        decision.decision = .rejected ∧ decision.reasonCode = .obsoleteEvent) := by
  obtain ⟨applies, refuses⟩ := judge_closes present created unpaid closes host.now
  rw [committed.judged valid claimable, Store.judged, view_claim]
  cases fresh : isFresh ((s.view event.orderId).version .status) event.timestamp with
  | true =>
    obtain ⟨application, judged, accepted⟩ := applies fresh
    rw [judged]
    refine ⟨_, decisionOf_settle_self _ (application.record delivery host) none none undecided, fun _ => accepted, ?_⟩
    intro stale
    cases stale
  | false =>
    obtain ⟨message, skipped, judged⟩ := refuses fresh
    rw [judged]
    refine ⟨_, decisionOf_settle_self (s.claim event.eventId delivery.id) (rejection ..) none none undecided, ?_,
      fun _ => ⟨rfl, rfl⟩⟩
    intro absurd
    cases absurd

/-! ## The guarantee -/

/-- What governs the status version of an order. -/
structure RunningMaximum (sys : System) (orderId : String) : Prop where
  /-- The version exists exactly when the order does. -/
  exists_iff : (sys.store.orderFieldVersions.find (orderId, .status)).isSome ↔ (sys.store.orders.find orderId).isSome
  /-- It is that of the first processed of the status moves with the greatest timestamp. -/
  greatest : ∀ version, sys.store.orderFieldVersions.find (orderId, .status) = some version →
    ∃ earlier entry later, statusMoves (sys.store.orderLog orderId) = earlier ++ entry :: later ∧
      (∀ x ∈ earlier, x.2.timestamp < entry.2.timestamp) ∧ (∀ x ∈ later, x.2.timestamp ≤ entry.2.timestamp) ∧
      version.lastEventTimestamp = entry.2.timestamp ∧ version.lastEventId = entry.2.eventId
  /-- However the run goes on, it does not decrease. -/
  never_decreases : ∀ later, Reaches (fun _ => True) sys later →
    ∀ version, sys.store.orderFieldVersions.find (orderId, .status) = some version →
      ∃ version', later.store.orderFieldVersions.find (orderId, .status) = some version' ∧
        version.lastEventTimestamp ≤ version'.lastEventTimestamp
  /-- A capture of a positive amount or a cancellation, when it is not a copy, is
  accepted on a `CREATED` order if it is newer than every status move so far,
  and rejected as obsolete if not. -/
  gate : ∀ delivery ∈ sys.store.rawIncomingEvents.rows,
    delivery.processingStatus = .pending ∨ delivery.processingStatus = .retry →
    ∀ event order, validate delivery = .valid event → event.orderId = orderId → Closes event →
      sys.store.Claimable event delivery.id → sys.store.orders.find orderId = some order → order.status = .created →
    ∀ host fault recordingFault s',
      (transaction fault (processEventTransaction delivery host) sys.store).1 = .ok () →
      processEvent delivery host fault recordingFault sys.store = (.ok (), s') →
      ∃ decision, s'.decisionOf delivery.id = some decision ∧
        ((∀ entry ∈ statusMoves (sys.store.orderLog orderId), entry.2.timestamp < event.timestamp) →
          decision.decision = .accepted) ∧
        ((¬ ∀ entry ∈ statusMoves (sys.store.orderLog orderId), entry.2.timestamp < event.timestamp) →
          decision.decision = .rejected ∧ decision.reasonCode = .obsoleteEvent)

theorem isFresh_iff_newer {log : List LogEntry} (stamped : Stamped orderId log view) (timestamp : ℚ) :
    isFresh (view.version .status) timestamp = true ↔ ∀ entry ∈ statusMoves log, entry.2.timestamp < timestamp := by
  rw [isFresh_status stamped, takes_winner, statusWrites, List.forall_mem_map]
  rfl

/-- **Status freshness is a running maximum.** -/
theorem status_version_is_running_maximum {sys : System} (reachable : Reachable sys) (orderId : String) :
    RunningMaximum sys orderId := by
  have consistent := reachable.consistent
  have stamped := stamped_reachable reachable orderId
  refine ⟨stamped.present.symm, ?_, ?_, ?_⟩
  · intro version found
    obtain ⟨w, won, rfl⟩ := Option.map_eq_some_iff.mp (stamped.version.symm.trans found)
    obtain ⟨earlier, later, split, older, notNewer⟩ := winner_first won
    obtain ⟨before, after, moves, rfl, tail⟩ := List.map_eq_append_iff.mp split
    obtain ⟨entry, rest, rfl, rfl, rfl⟩ := List.map_eq_cons_iff.mp tail
    refine ⟨before, entry, rest, moves, ?_, ?_, rfl, rfl⟩
    · exact fun x member => older (statusWrite x) (List.mem_map_of_mem member)
    · exact fun x member => notNewer (statusWrite x) (List.mem_map_of_mem member)
  · intro later reached version found
    obtain ⟨w, won, rfl⟩ := Option.map_eq_some_iff.mp (stamped.version.symm.trans found)
    obtain ⟨w', won', newer⟩ := winner_prefix (statusWrites_kept reached consistent orderId) won
    have stamped' := stamped_reachable (reachable.later reached) orderId
    refine ⟨statusVersion orderId w', ?_, newer⟩
    exact stamped'.version.trans (by rw [won']; rfl)
  · intro delivery member waits event order valid own closes claimable present created host fault recordingFault s'
      returned ran
    subst own
    have stored := sys.store.rawIncomingEvents.find_self member
    have undecided := (consistent.store.undecided_iff stored).mpr waits
    have committed := Deduplication.committed_of_returned consistent.store.toOperational undecided ran returned
    have unpaid : order.paidAmountMinor ≤ 0 := by
      obtain ⟨-, -, money⟩ := Money.balanced_history (history_reachable reachable event.orderId) order present
      rw [created] at money
      exact money.1.le
    obtain ⟨decision, decided, accepted, obsolete⟩ :=
      decided_closes committed undecided valid claimable present created unpaid closes
    rw [isFresh_iff_newer stamped] at accepted
    rw [← Bool.not_eq_true, isFresh_iff_newer stamped] at obsolete
    exact ⟨decision, decided, accepted, obsolete⟩

/-- An order is there when a newer payment of it and an older cancellation arrive. -/
def gatedActions : List Action :=
  [.enqueueBatch [postedItem "c" "o" .orderCreated 2 (fieldsPayload 50 "PLN")] 0,
    .poll, .read 0 0, .process 0 (stoppedAt 0) none none, .finish 0,
    .enqueueBatch
      [postedItem "p" "o" .paymentCaptured 3 (amountPayload "amount" 50), postedItem "x" "o" .orderCancelled 1 []] 0]

def gatedSystem : System := (execute step (.started 0) gatedActions).get (by decide +kernel)

theorem gated_reachable : Reachable gatedSystem := reachable_of_run (run_of_enabled (by decide +kernel))

/-- The store after a call on the delivery with an identifier. -/
def gatedAfter (id : ℕ) : Store :=
  match gatedSystem.store.rawIncomingEvents.find id with
  | some delivery => (processEvent delivery (stoppedAt 0) none none gatedSystem.store).2
  | none => gatedSystem.store

theorem gated_returned (delivery : RawIncomingEventEntity) :
    transaction none (processEventTransaction delivery (stoppedAt 0)) gatedSystem.store =
      (.ok (), gatedSystem.store.processed delivery (stoppedAt 0)) :=
  transaction_of_run (processEventTransaction_run gated_reachable.consistent.store.toOperational delivery (stoppedAt 0))

theorem gated_ran {delivery : RawIncomingEventEntity}
    (found : gatedSystem.store.rawIncomingEvents.find delivery.id = some delivery) :
    processEvent delivery (stoppedAt 0) none none gatedSystem.store = (.ok (), gatedAfter delivery.id) := by
  simp only [gatedAfter, found, processEvent, gated_returned]

/-- What a delivery asks for: the id of its event, the order, the timestamp, and
whether it closes the order. -/
def asked (id : ℕ) : Option (String × String × ℚ × Bool) :=
  (gatedSystem.store.eventOf id).map fun event =>
    (event.eventId, event.orderId, event.timestamp, event.type == .orderCancelled ||
      event.type == .paymentCaptured && (readPositiveAmountMinor event.payload "amount").isSome)

theorem closes_of_asked {id : ℕ} {eventId orderId : String} {timestamp : ℚ}
    (read : asked id = some (eventId, orderId, timestamp, true)) :
    ∃ event, gatedSystem.store.eventOf id = some event ∧ event.eventId = eventId ∧ event.orderId = orderId ∧
      event.timestamp = timestamp ∧ Closes event := by
  obtain ⟨event, known, read⟩ := Option.map_eq_some_iff.mp read
  simp only [Prod.mk.injEq, Bool.or_eq_true, Bool.and_eq_true, beq_iff_eq] at read
  exact ⟨event, known, read.1, read.2.1, read.2.2.1, read.2.2.2.symm⟩

theorem status_version_is_running_maximum_gated :
    (∃ decision, (gatedAfter 2).decisionOf 2 = some decision ∧ decision.decision = .accepted) ∧
      ∃ decision, (gatedAfter 3).decisionOf 3 = some decision ∧ decision.decision = .rejected ∧
        decision.reasonCode = .obsoleteEvent := by
  have maximum := status_version_is_running_maximum gated_reachable "o"
  have moves : (statusMoves (gatedSystem.store.orderLog "o")).map (·.2.timestamp) = [2] := by decide +kernel
  have newer : ∀ {timestamp}, (∀ entry ∈ statusMoves (gatedSystem.store.orderLog "o"), entry.2.timestamp < timestamp) ↔
      2 < timestamp := by
    intro timestamp
    have timestamps : (∀ earlier ∈ (statusMoves (gatedSystem.store.orderLog "o")).map (·.2.timestamp),
        earlier < timestamp) ↔ _ := List.forall_mem_map
    rw [← timestamps, moves, List.forall_mem_singleton]
  have created : (gatedSystem.store.orders.find "o").map (·.status) = some .created := by decide +kernel
  obtain ⟨order, present, created⟩ := Option.map_eq_some_iff.mp created
  -- both calls are made of the same store, in which neither key is claimed
  have decided : ∀ id eventId timestamp, asked id = some (eventId, "o", timestamp, true) →
      (gatedSystem.store.rawIncomingEvents.find id).map (·.processingStatus) = some .pending →
      gatedSystem.store.processedEventKeys.find eventId = none →
      ∃ decision, (gatedAfter id).decisionOf id = some decision ∧ (2 < timestamp → decision.decision = .accepted) ∧
        (¬ 2 < timestamp → decision.decision = .rejected ∧ decision.reasonCode = .obsoleteEvent) := by
    intro id eventId timestamp read waits unclaimed
    obtain ⟨event, known, rfl, own, rfl, closes⟩ := closes_of_asked read
    obtain ⟨delivery, found, pending⟩ := Option.map_eq_some_iff.mp waits
    obtain ⟨member, rfl⟩ := gatedSystem.store.rawIncomingEvents.find_eq_some.mp found
    have valid : validate delivery = .valid event := validEvent?_eq_some.mp ((eventOf_stored found).symm.trans known)
    obtain ⟨decision, made, accepted, obsolete⟩ := maximum.gate delivery member (Or.inl pending) event order valid own
      closes (fun key held => by cases unclaimed.symm.trans held) present created (stoppedAt 0) none none _
      (congrArg Prod.fst (gated_returned delivery)) (gated_ran found)
    rw [newer] at accepted obsolete
    exact ⟨decision, made, accepted, obsolete⟩
  obtain ⟨paid, made, accepted, -⟩ := decided 2 "p" 3 (by decide +kernel) (by decide +kernel) (by decide +kernel)
  obtain ⟨cancelled, made', -, obsolete⟩ := decided 3 "x" 1 (by decide +kernel) (by decide +kernel) (by decide +kernel)
  exact ⟨⟨paid, made, accepted (by decide)⟩, ⟨cancelled, made', obsolete (by decide)⟩⟩

end EventEngine.Freshness
