import EventEngine.Ledger
import EventEngine.OrderDetails
import EventEngine.Projections

/-! The order view accounts for every delivery once. The view is put together
from three tables by different rules; what makes it complete are invariants
across them: the projected columns are those of the event, a delivery is `DONE`
exactly when it is decided, and an order begins with its accepted creation. -/
namespace EventEngine.OrderViews
open EventEngine Relational Projections

variable {s s' : Store} {delivery : RawIncomingEventEntity} {host : Host}

/-! ## The audit log of an order -/

variable {orderId : String}

theorem mem_rawEventsOf {raw : RawIncomingEventEntity} :
    raw ∈ rawEventsOf s orderId ↔ raw ∈ s.rawIncomingEvents.rows ∧ raw.orderId = some orderId := by
  simp [rawEventsOf]

/-- The audit log is the decisions on the order's deliveries, in their order. -/
theorem readAuditLog_eq : readAuditLog s orderId = s.eventDecisions.rows.filterMap fun decision =>
    ((s.rawIncomingEvents.find decision.rawIncomingEventId).filter (·.orderId == some orderId)).map
      (mapDecision decision) := by
  have joined := s.rawIncomingEvents.join_selected (·.orderId == some orderId)
    EventDecisionEntity.rawIncomingEventId mapDecision s.eventDecisions.rows
  unfold readAuditLog
  simp only
  split
  · rename_i nothing
    rw [← joined, ← rawEventsOf, List.isEmpty_iff.mp nothing]
    simp
  · exact joined

theorem mem_readAuditLog {entry : OrderDecisionEntry} : entry ∈ readAuditLog s orderId ↔
    ∃ decision ∈ s.eventDecisions.rows, ∃ raw, s.rawIncomingEvents.find decision.rawIncomingEventId = some raw ∧
      raw.orderId = some orderId ∧ mapDecision decision raw = entry := by
  rw [readAuditLog_eq]
  simp only [List.mem_filterMap, Option.map_eq_some_iff, Option.filter_eq_some_iff, beq_iff_eq, and_assoc]

theorem mem_readPendingJobs {job : OrderPendingJob} : job ∈ readPendingJobs s orderId ↔
    ∃ raw ∈ s.rawIncomingEvents.rows, raw.orderId = some orderId ∧
      (raw.processingStatus = .pending ∨ raw.processingStatus = .retry) ∧ raw.pendingJob = job := by
  simp only [readPendingJobs, List.mem_map, List.mem_filter, mem_rawEventsOf, decide_eq_true_eq, and_assoc]

/-! ## The history of an order -/

/-- What an applied decision needs to be reported as history: an event, and the
status it led to. -/
def Reportable (decision : EventDecisionEntity) (known : Option ValidOrderEvent) : Prop :=
  decision.decision = .accepted ∨ decision.decision = .partiallyApplied →
    known.isSome ∧ decision.toStatus.isSome

theorem reportable_reachable {sys : System} (reachable : Reachable sys) :
    ∀ decision ∈ sys.store.eventDecisions.rows,
      Reportable decision (sys.store.eventOf decision.rawIncomingEventId) := by
  intro decision member verdict
  obtain ⟨event, known, reached⟩ := applications_reachable (fun decision _ => decision.toStatus.isSome) reachable
    (fun _ _ _ _ _ _ _ => rfl) decision member verdict
  exact ⟨by rw [known]; rfl, reached⟩

/-- How the history reports an applied decision on an event. -/
def historyEntry (entry : LogEntry) (toStatus : OrderStatus) : OrderHistoryEntry where
  id := entry.1.id
  eventId := entry.2.eventId
  type := entry.2.type.text
  timestamp := entry.2.timestamp
  processedAt := entry.1.createdAt
  fromStatus := entry.1.fromStatus
  toStatus := toStatus
  changedFields := mapMoneyFieldsForResponse (mapMoneyFieldsForResponse (parseJsonObject entry.1.changedFieldsJson))
  skippedFields := mapMoneyFieldsForResponse (mapMoneyFieldsForResponse (parseJsonObject entry.1.skippedFieldsJson))
  decision := entry.1.decision
  reasonCode := entry.1.reasonCode
  createdAt := entry.1.createdAt

/-- The null filters of the history drop no applied decision. -/
theorem toHistory?_mapDecision {decision : EventDecisionEntity} {raw : RawIncomingEventEntity} {event : ValidOrderEvent}
    {toStatus : OrderStatus} (projects : Projects raw event) (reached : decision.toStatus = some toStatus)
    (applied : decision.decision = .accepted ∨ decision.decision = .partiallyApplied) :
    (mapDecision decision raw).toHistory? = some (historyEntry (decision, event) toStatus) := by
  simp only [OrderDecisionEntry.toHistory?, mapDecision, applied, ↓reduceIte, projects.eventId, projects.type,
    projects.timestamp, reached, historyEntry]

/-- A history entry keeps the identifier of its decision. -/
theorem toHistory?_id {entry : OrderDecisionEntry} {report : OrderHistoryEntry}
    (shown : entry.toHistory? = some report) : report.id = entry.id := by
  unfold OrderDecisionEntry.toHistory? at shown
  split at shown
  · split at shown
    · cases shown
      rfl
    · cases shown
  · cases shown

/-- **The history is what was applied**, decision by decision. -/
theorem readHistory_eq (posted : Posted s)
    (reportable : ∀ decision ∈ s.eventDecisions.rows, Reportable decision (s.eventOf decision.rawIncomingEventId)) :
    readHistory (readAuditLog s orderId) =
      (applied (s.orderLog orderId)).filterMap fun entry => entry.1.toStatus.map (historyEntry entry) := by
  rw [readHistory, readAuditLog_eq, List.filterMap_filterMap, applied, Store.orderLog, List.filterMap_filter,
    List.filterMap_filterMap]
  apply List.filterMap_congr
  intro decision member
  by_cases verdict : decision.decision = .accepted ∨ decision.decision = .partiallyApplied
  · obtain ⟨known, reached⟩ := reportable decision member verdict
    obtain ⟨event, known⟩ := Option.isSome_iff_exists.mp known
    obtain ⟨toStatus, reached⟩ := Option.isSome_iff_exists.mp reached
    obtain ⟨raw, found, -⟩ := Option.bind_eq_some_iff.mp known
    have projects := projects_of_posted posted found known
    rw [found, known, Option.filter_some, Option.filter_some]
    by_cases own : event.orderId = orderId
    · simp [projects.orderId, own, toHistory?_mapDecision projects reached verdict, verdict, reached]
    · simp [projects.orderId, own]
  · have dropped : ∀ raw, (mapDecision decision raw).toHistory? = none := by
      intro raw
      simp only [OrderDecisionEntry.toHistory?, mapDecision, verdict, ↓reduceIte]
    rw [Option.bind_map]
    cases (s.rawIncomingEvents.find decision.rawIncomingEventId).filter (·.orderId == some orderId) <;>
      cases (s.eventOf decision.rawIncomingEventId).filter (·.orderId == orderId) <;> simp [dropped, verdict]

/-- An order that exists begins with its accepted creation. -/
theorem history_head {log : List LogEntry} {view : OrderView} (history : History orderId log view) :
    log = [] ∧ view = .absent ∨ ∃ decision event rest, log = (decision, event) :: rest ∧
      event.type = .orderCreated ∧ decision.decision = .accepted ∧ decision.fromStatus = none ∧
      decision.toStatus = some .created := by
  induction history with
  | opened => exact Or.inl ⟨rfl, rfl⟩
  | @applied log view decision event now application prior own accepts records ih =>
    right
    rcases ih with ⟨rfl, rfl⟩ | ⟨first, creation, rest, rfl, created⟩
    · cases accepts with
      | created absent type =>
        exact ⟨decision, event, [], rfl, type, records.verdict, records.fromStatus, records.toStatus⟩
      | updated present | captured present | cancelled present | refunded present => cases present
    · exact ⟨first, creation, rest ++ [(decision, event)], rfl, created⟩

/-! ## Where a delivery is listed -/

theorem readAuditLog_keys {κ : Type} {key : EventDecisionEntity → κ} {key' : OrderDecisionEntry → κ}
    (kept : ∀ decision raw, key' (mapDecision decision raw) = key decision) :
    ((readAuditLog s orderId).map key').Sublist (s.eventDecisions.rows.map key) := by
  rw [readAuditLog_eq]
  apply filterMap_keys
  intro decision entry mapped
  obtain ⟨raw, -, rfl⟩ := Option.map_eq_some_iff.mp mapped
  exact kept decision raw

theorem readAuditLog_ids_nodup : ((readAuditLog s orderId).map (·.id)).Nodup :=
  s.eventDecisions.ids_nodup.sublist (readAuditLog_keys fun _ _ => rfl)

theorem readPendingJobs_keys : ((readPendingJobs s orderId).map (·.rawIncomingEventId)).Nodup := by
  rw [readPendingJobs, List.map_map]
  exact s.rawIncomingEvents.ids_nodup.sublist ((List.filter_sublist.trans List.filter_sublist).map _)

/-- An entry says of a decision what the row in the log says. -/
structure Repeats (entry : OrderDecisionEntry) (record : EventDecisionEntity) : Prop where
  decision : entry.decision = record.decision
  reasonCode : entry.reasonCode = record.reasonCode
  reasonMessage : entry.reasonMessage = record.reasonMessage
  fromStatus : entry.fromStatus = record.fromStatus
  toStatus : entry.toStatus = record.toStatus

theorem repeats_mapDecision (decision : EventDecisionEntity) (raw : RawIncomingEventEntity) :
    Repeats (mapDecision decision raw) decision := ⟨rfl, rfl, rfl, rfl, rfl⟩

/-- A delivery of the order is listed once, where its decision or the lack of
one puts it. -/
def Listed (s : Store) (raw : RawIncomingEventEntity) (auditLog : List OrderDecisionEntry)
    (pendingJobs : List OrderPendingJob) : Prop :=
  (∃ decision, s.decisionOf raw.id = some decision ∧
    auditLog.filter (·.rawIncomingEventId == raw.id) = [mapDecision decision raw] ∧
    Repeats (mapDecision decision raw) decision ∧
    pendingJobs.filter (·.rawIncomingEventId == raw.id) = []) ∨
  s.decisionOf raw.id = none ∧
    auditLog.filter (·.rawIncomingEventId == raw.id) = [] ∧
    pendingJobs.filter (·.rawIncomingEventId == raw.id) = [raw.pendingJob]

theorem listed (consistent : s.Consistent) {raw : RawIncomingEventEntity} (member : raw ∈ s.rawIncomingEvents.rows)
    (own : raw.orderId = some orderId) : Listed s raw (readAuditLog s orderId) (readPendingJobs s orderId) := by
  have stored : s.rawIncomingEvents.find raw.id = some raw := s.rawIncomingEvents.find_self member
  cases decided : s.decisionOf raw.id with
  | some decision =>
    left
    obtain ⟨logged, about⟩ := (decisionOf_eq_some consistent).mp decided
    have entry : mapDecision decision raw ∈ readAuditLog s orderId :=
      mem_readAuditLog.mpr ⟨decision, logged, raw, about ▸ stored, own, rfl⟩
    have done := (consistent.done_iff stored).mpr (by rw [decided]; rfl)
    have keys : ((readAuditLog s orderId).map (·.rawIncomingEventId)).Nodup :=
      consistent.decided_once.sublist (readAuditLog_keys fun _ _ => rfl)
    refine ⟨decision, decided, ?_, repeats_mapDecision decision raw, ?_⟩
    · have alone := filter_key keys entry
      rwa [show (mapDecision decision raw).rawIncomingEventId = raw.id from about] at alone
    · rw [List.filter_eq_nil_iff]
      intro job waiting same
      obtain ⟨raw', member', -, waits, rfl⟩ := mem_readPendingJobs.mp waiting
      obtain rfl := s.rawIncomingEvents.row_unique member' member (beq_iff_eq.mp same)
      rcases waits with pending | retry
      · cases done.symm.trans pending
      · cases done.symm.trans retry
  | none =>
    right
    have waits := (consistent.undecided_iff stored).mp decided
    refine ⟨decided, ?_, filter_key readPendingJobs_keys (mem_readPendingJobs.mpr ⟨raw, member, own, waits, rfl⟩)⟩
    rw [List.filter_eq_nil_iff]
    intro entry logged same
    obtain ⟨decision, held, raw', -, -, rfl⟩ := mem_readAuditLog.mp logged
    rw [(decisionOf_eq_some consistent).mpr ⟨held, beq_iff_eq.mp same⟩] at decided
    cases decided

/-- An order with an entry in its audit log is found. -/
theorem getOrderDetails_of_logged {entry : OrderDecisionEntry} (logged : entry ∈ readAuditLog s orderId) :
    ∃ details, getOrderDetails s orderId = .ok details ∧ details.auditLog = readAuditLog s orderId ∧
      details.history = readHistory (readAuditLog s orderId) := by
  unfold getOrderDetails
  simp only
  split
  · rename_i nothing
    rw [List.isEmpty_iff.mp nothing.2.1] at logged
    cases logged
  · exact ⟨_, rfl, rfl, rfl⟩

/-! ## The guarantee -/

/-- What an order view that was found shows. -/
structure Accounts (s : Store) (orderId : String) (details : OrderDetailsResponse) : Prop where
  named : details.orderId = orderId
  /-- Each delivery projected to the order is listed, once. -/
  listed : ∀ raw ∈ s.rawIncomingEvents.rows, raw.orderId = some orderId →
    Listed s raw details.auditLog details.pendingJobs
  /-- Nothing else is. -/
  decisions : ∀ entry ∈ details.auditLog, ∃ raw ∈ s.rawIncomingEvents.rows,
    raw.orderId = some orderId ∧ entry.rawIncomingEventId = raw.id
  jobs : ∀ job ∈ details.pendingJobs, ∃ raw ∈ s.rawIncomingEvents.rows,
    raw.orderId = some orderId ∧ job.rawIncomingEventId = raw.id
  /-- The audit log is the disjoint union of the history and the rejected events. -/
  distinct : (details.auditLog.map (·.id)).Nodup
  union : (details.history.map (·.id) ++ details.rejectedEvents.map (·.id)).Perm (details.auditLog.map (·.id))
  /-- What was applied is in the history, and what was not among the rejected events. -/
  history : ∀ entry ∈ details.auditLog, entry.decision = .accepted ∨ entry.decision = .partiallyApplied →
    ∃ reported ∈ details.history, entry.toHistory? = some reported
  rejected : ∀ entry, entry ∈ details.rejectedEvents ↔ entry ∈ details.auditLog ∧
    (entry.decision = .rejected ∨ entry.decision = .duplicate ∨ entry.decision = .failed)
  /-- A stored order is shown as it is, and its history begins with its creation. -/
  state : ∀ order, s.orders.find orderId = some order → details.currentState = some order.currentState ∧
    ∃ first rest, details.history = first :: rest ∧ first.type = SupportedEventType.orderCreated.text ∧
      first.decision = .accepted ∧ first.fromStatus = none ∧ first.toStatus = .created

/-- The history and the rejected events are together the audit log. -/
theorem union_of_reported {auditLog : List OrderDecisionEntry}
    (reported : ∀ entry ∈ auditLog, entry.decision = .accepted ∨ entry.decision = .partiallyApplied →
      entry.toHistory?.isSome) :
    ((readHistory auditLog).map (·.id) ++
      (auditLog.filter fun entry => [.rejected, .duplicate, .failed].contains entry.decision).map (·.id)).Perm
        (auditLog.map (·.id)) := by
  have histories : (readHistory auditLog).map (·.id) =
      (auditLog.filter fun entry => !([.rejected, .duplicate, .failed].contains entry.decision)).map (·.id) := by
    rw [readHistory, List.map_filterMap, ← List.filterMap_eq_map, List.filterMap_filter]
    apply List.filterMap_congr
    intro entry member
    by_cases verdict : entry.decision = .accepted ∨ entry.decision = .partiallyApplied
    · obtain ⟨report, shown⟩ := Option.isSome_iff_exists.mp (reported entry member verdict)
      have same := toHistory?_id shown
      rw [shown]
      rcases verdict with accepted | merged <;> simp [*]
    · have dropped : entry.toHistory? = none := by simp only [OrderDecisionEntry.toHistory?, verdict, ↓reduceIte]
      rw [dropped]
      cases decided : entry.decision <;> simp_all
  rw [histories, ← List.map_append]
  exact (List.perm_append_comm.trans (List.filter_append_perm _ auditLog)).map _

/-- An order that exists has an applied decision, and so a delivery. -/
theorem history_of_order {sys : System} (reachable : Reachable sys) {order : OrderEntity}
    (found : sys.store.orders.find orderId = some order) :
    ∃ first rest, readHistory (readAuditLog sys.store orderId) = first :: rest ∧
      first.type = SupportedEventType.orderCreated.text ∧ first.decision = .accepted ∧ first.fromStatus = none ∧
      first.toStatus = .created := by
  rcases history_head (history_reachable reachable orderId) with ⟨-, absent⟩ | ⟨decision, event, rest, log, type, creation⟩
  · have none : sys.store.orders.find orderId = none := congrArg OrderView.order absent
    cases found.symm.trans none
  · rw [readHistory_eq (posted_reachable reachable) (reportable_reachable reachable), log,
      List.filterMap_cons_some (by rw [creation.2.2]; rfl)]
    refine ⟨_, _, rfl, ?_, creation.1, creation.2.1, rfl⟩
    simp only [historyEntry, type]

/-- History's null filters drop no applied decision. -/
theorem reported_of_reachable {sys : System} (reachable : Reachable sys) :
    ∀ entry ∈ readAuditLog sys.store orderId, entry.decision = .accepted ∨ entry.decision = .partiallyApplied →
      entry.toHistory?.isSome := by
  intro entry member verdict
  obtain ⟨decision, logged, raw, found, -, rfl⟩ := mem_readAuditLog.mp member
  obtain ⟨known, reached⟩ := reportable_reachable reachable decision logged verdict
  obtain ⟨event, known⟩ := Option.isSome_iff_exists.mp known
  obtain ⟨toStatus, reached⟩ := Option.isSome_iff_exists.mp reached
  rw [toHistory?_mapDecision (projects_of_posted (posted_reachable reachable) found known) reached verdict]
  rfl

theorem accounts_of_found {sys : System} (reachable : Reachable sys) {details : OrderDetailsResponse}
    (answered : getOrderDetails sys.store orderId = .ok details) : Accounts sys.store orderId details := by
  unfold getOrderDetails at answered
  simp only at answered
  split at answered
  · cases answered
  · obtain rfl := Except.ok.inj answered
    have reported := @reported_of_reachable orderId sys reachable
    refine ⟨?_, fun raw member own => listed reachable.consistent.store member own, ?_, ?_, ?_,
      union_of_reported reported, ?_, ?_, ?_⟩
    · cases found : sys.store.orders.find orderId with
      | none => simp [findCurrentState, found]
      | some order =>
        have named : order.orderId = orderId := KeyedTable.key_of_find found
        simp [findCurrentState, found, OrderEntity.currentState, named]
    · intro entry member
      obtain ⟨decision, -, raw, found, own, rfl⟩ := mem_readAuditLog.mp member
      obtain ⟨held, named⟩ := sys.store.rawIncomingEvents.find_eq_some.mp found
      exact ⟨raw, held, own, named.symm⟩
    · intro job member
      obtain ⟨raw, held, own, -, rfl⟩ := mem_readPendingJobs.mp member
      exact ⟨raw, held, own, rfl⟩
    · exact readAuditLog_ids_nodup
    · intro entry member verdict
      obtain ⟨report, shown⟩ := Option.isSome_iff_exists.mp (reported entry member verdict)
      exact ⟨report, List.mem_filterMap.mpr ⟨entry, member, shown⟩, shown⟩
    · intro entry
      simp
    · intro order found
      exact ⟨by simp [findCurrentState, found], history_of_order reachable found⟩

theorem not_found_iff {sys : System} (reachable : Reachable sys) :
    getOrderDetails sys.store orderId = .error ("Order " ++ orderId ++ " was not found") ↔
      ∀ raw ∈ sys.store.rawIncomingEvents.rows, raw.orderId ≠ some orderId := by
  unfold getOrderDetails
  constructor
  · intro missing raw member own
    simp only at missing
    split at missing
    · rename_i nothing
      obtain ⟨-, unlogged, idle⟩ := nothing
      rcases listed reachable.consistent.store member own with ⟨decision, -, entry, -⟩ | ⟨-, -, job⟩
      · rw [List.isEmpty_iff.mp unlogged] at entry
        cases entry
      · rw [List.isEmpty_iff.mp idle] at job
        cases job
    · cases missing
  · intro unknown
    have nothing : rawEventsOf sys.store orderId = [] := by
      rw [List.eq_nil_iff_forall_not_mem]
      intro raw member
      obtain ⟨held, own⟩ := mem_rawEventsOf.mp member
      exact unknown raw held own
    have unlogged : readAuditLog sys.store orderId = [] := by simp [readAuditLog, nothing]
    have idle : readPendingJobs sys.store orderId = [] := by simp [readPendingJobs, nothing]
    have absent : findCurrentState sys.store orderId = none := by
      rw [findCurrentState, Option.map_eq_none_iff]
      cases found : sys.store.orders.find orderId with
      | none => rfl
      | some order =>
        obtain ⟨first, rest, history, -⟩ := history_of_order reachable found
        rw [unlogged] at history
        cases history
    simp [unlogged, idle, absent]

/-- **The order view accounts for every delivery once**, and answers not-found
exactly when there is none. -/
theorem view_accounts_for_every_delivery {sys : System} (reachable : Reachable sys) (orderId : String) :
    (∀ details, getOrderDetails sys.store orderId = .ok details → Accounts sys.store orderId details) ∧
      (getOrderDetails sys.store orderId = .error ("Order " ++ orderId ++ " was not found") ↔
        ∀ raw ∈ sys.store.rawIncomingEvents.rows, raw.orderId ≠ some orderId) :=
  ⟨fun _ answered => accounts_of_found reachable answered, not_found_iff reachable⟩

theorem view_accounts_for_every_delivery_out_of_order :
    (∀ details, getOrderDetails outOfOrderSystem.store "o" = .ok details →
      Accounts outOfOrderSystem.store "o" details) ∧
      (getOrderDetails outOfOrderSystem.store "o" = .error ("Order " ++ "o" ++ " was not found") ↔
        ∀ raw ∈ outOfOrderSystem.store.rawIncomingEvents.rows, raw.orderId ≠ some "o") :=
  view_accounts_for_every_delivery (reachable_of_run outOfOrder_run) "o"

end EventEngine.OrderViews
