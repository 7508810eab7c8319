import EventEngine.Deduplication
import EventEngine.EventInspector
import EventEngine.OrderViews

/-! What is reported of an event. Every delivery under its id is listed, with
its decision once it has one; and however often the event was delivered, one
delivery stands for it, the others being shown as its copies. -/
namespace EventEngine.EventReports
open EventEngine Relational Deduplication EventInspector

/-! ## Decisions reported -/

variable {s t : Store} {sys : System} {eventId : String}

/-- A decision that took effect. -/
def TookEffect (decision : EventDecisionDetails) : Prop :=
  decision.decision = .accepted ∨ decision.decision = .partiallyApplied

/-- The decisions `EventInspectorService.getEventDetails` reports, its two
queries served from two states. -/
def readDecisionsAcross (atDeliveries atDecisions : Store) (eventId : String) : List EventDecisionDetails :=
  let deliveries := deliveriesOf atDeliveries eventId
  let decisions := atDecisions.eventDecisions.rows.filter fun decision =>
    (deliveries.map (·.id)).contains decision.rawIncomingEventId
  decisions.filterMap fun decision =>
    (deliveries.find? (·.id == decision.rawIncomingEventId)).map (EventInspector.mapDecision decision)

theorem readDecisionsAcross_once : readDecisionsAcross s s eventId = readDecisions s eventId := rfl

theorem readDecisionsAcross_eq : readDecisionsAcross s t eventId = t.eventDecisions.rows.filterMap fun decision =>
    ((s.rawIncomingEvents.find decision.rawIncomingEventId).filter (·.eventId == some eventId)).map
      (EventInspector.mapDecision decision) :=
  s.rawIncomingEvents.join_selected (·.eventId == some eventId) EventDecisionEntity.rawIncomingEventId
    EventInspector.mapDecision t.eventDecisions.rows

theorem mem_readDecisionsAcross {entry : EventDecisionDetails} : entry ∈ readDecisionsAcross s t eventId ↔
    ∃ decision ∈ t.eventDecisions.rows, ∃ raw, s.rawIncomingEvents.find decision.rawIncomingEventId = some raw ∧
      raw.eventId = some eventId ∧ EventInspector.mapDecision decision raw = entry := by
  rw [readDecisionsAcross_eq]
  simp only [List.mem_filterMap, Option.map_eq_some_iff, Option.filter_eq_some_iff, beq_iff_eq, and_assoc]

/-- No two decisions reported are on the same delivery. -/
theorem readDecisionsAcross_deliveries_nodup (consistent : t.Consistent) :
    ((readDecisionsAcross s t eventId).map (·.rawIncomingEventId)).Nodup := by
  refine consistent.decided_once.sublist ?_
  rw [readDecisionsAcross_eq]
  apply filterMap_keys
  intro decision entry mapped
  obtain ⟨raw, -, rfl⟩ := Option.map_eq_some_iff.mp mapped
  rfl

/-- A delivery of the event is reported with its decision, if it has one by then. -/
theorem decisions_on (consistent : t.Consistent) {raw : RawIncomingEventEntity}
    (member : raw ∈ deliveriesOf s eventId) :
    (readDecisionsAcross s t eventId).filter (·.rawIncomingEventId == raw.id) =
      ((t.decisionOf raw.id).map (EventInspector.mapDecision · raw)).toList := by
  obtain ⟨held, named⟩ := mem_deliveriesOf.mp member
  have stored : s.rawIncomingEvents.find raw.id = some raw := s.rawIncomingEvents.find_self held
  cases decided : t.decisionOf raw.id with
  | some decision =>
    obtain ⟨logged, about⟩ := (decisionOf_eq_some consistent).mp decided
    have reported : EventInspector.mapDecision decision raw ∈ readDecisionsAcross s t eventId :=
      mem_readDecisionsAcross.mpr ⟨decision, logged, raw, about ▸ stored, named, rfl⟩
    have alone := filter_key (readDecisionsAcross_deliveries_nodup consistent) reported
    rwa [show (EventInspector.mapDecision decision raw).rawIncomingEventId = raw.id from about] at alone
  | none =>
    rw [Option.map_none, Option.toList_none, List.filter_eq_nil_iff]
    intro entry reported same
    obtain ⟨decision, logged, _, -, -, rfl⟩ := mem_readDecisionsAcross.mp reported
    rw [(decisionOf_eq_some consistent).mpr ⟨logged, beq_iff_eq.mp same⟩] at decided
    cases decided

/-- The history shows nothing else than what took effect, -/
theorem toHistory?_of_ineffective {decision : EventDecisionDetails} (ineffective : ¬ TookEffect decision) :
    decision.toHistory? = none := by
  unfold TookEffect at ineffective
  simp only [EventDecisionDetails.toHistory?, ineffective, ↓reduceIte]

/-- and that on an order. -/
theorem toHistory?_order {decision : EventDecisionDetails} {report : EventHistoryDetails}
    (kept : decision.toHistory? = some report) : decision.orderId = some report.orderId ∧ TookEffect decision := by
  unfold EventDecisionDetails.toHistory? at kept
  split at kept
  · rename_i effect
    split at kept
    · rename_i orderId _ _ _ _ owned _ _ _ _
      cases kept
      exact ⟨owned, effect⟩
    · cases kept
  · cases kept

/-- An event is unknown when no delivery carries its id. -/
theorem deliveriesOf_eq_nil :
    deliveriesOf s eventId = [] ↔ ∀ raw ∈ s.rawIncomingEvents.rows, raw.eventId ≠ some eventId := by
  simp only [List.eq_nil_iff_forall_not_mem, mem_deliveriesOf, not_and, ne_eq]

/-- What a decision that took effect is known by: its delivery holds the key of
its event, and shows the columns of the event. -/
theorem effective (reachable : Reachable sys) {entry : EventDecisionDetails}
    (reported : entry ∈ readDecisions sys.store eventId) (effect : TookEffect entry) :
    sys.store.processedEventKeys.find eventId = some ⟨eventId, entry.rawIncomingEventId⟩ ∧ entry.toHistory?.isSome := by
  obtain ⟨decision, logged, raw, found, named, rfl⟩ := mem_readDecisions.mp reported
  obtain ⟨known, reached⟩ := OrderViews.reportable_reachable reachable decision logged effect
  obtain ⟨event, known⟩ := Option.isSome_iff_exists.mp known
  obtain ⟨toStatus, reached⟩ := Option.isSome_iff_exists.mp reached
  have projects := Projections.projects_of_posted (Projections.posted_reachable reachable) found known
  have same : event.eventId = eventId := Option.some.inj (projects.eventId.symm.trans named)
  refine ⟨?_, ?_⟩
  · have merits : OnMerits decision := effect.imp_right Or.inl
    rw [← same]
    exact (claimed_reachable reachable).merits decision logged merits event known
  · have verdict : decision.decision = .accepted ∨ decision.decision = .partiallyApplied := effect
    simp [EventDecisionDetails.toHistory?, EventInspector.mapDecision, verdict, projects.orderId, projects.eventId,
      projects.type, projects.timestamp, reached]

/-- A duplicate is a copy of a delivery that holds the key and is reported too. -/
theorem copied (reachable : Reachable sys) {entry : EventDecisionDetails}
    (reported : entry ∈ readDecisions sys.store eventId) (duplicate : entry.decision = .duplicate) :
    ∃ key, sys.store.processedEventKeys.find eventId = some key ∧
      entry.rawIncomingEventId ≠ key.firstRawIncomingEventId ∧
      ∃ original ∈ deliveriesOf sys.store eventId, original.id = key.firstRawIncomingEventId := by
  obtain ⟨decision, logged, raw, found, named, rfl⟩ := mem_readDecisions.mp reported
  have claimed := claimed_reachable reachable
  have posted := Projections.posted_reachable reachable
  obtain ⟨event, key, known, held, other⟩ := claimed.duplicates decision logged duplicate
  have projects := Projections.projects_of_posted posted found known
  obtain rfl : event.eventId = eventId := Option.some.inj (projects.eventId.symm.trans named)
  -- the holder validates with the key, so it is found under the same event id
  obtain ⟨event', known', same⟩ := claimed.held _ key held
  obtain ⟨original, found', -⟩ := Option.bind_eq_some_iff.mp known'
  have projects' := Projections.projects_of_posted posted found' known'
  obtain ⟨member, id⟩ := sys.store.rawIncomingEvents.find_eq_some.mp found'
  exact ⟨key, held, other.symm, original, mem_deliveriesOf.mpr ⟨member, by rw [projects'.eventId, same]⟩, id⟩

/-! ## The report -/

/-- An entry says of a decision what the row in the log says. -/
structure Repeats (entry : EventDecisionDetails) (record : EventDecisionEntity) : Prop where
  decision : entry.decision = record.decision
  reasonCode : entry.reasonCode = record.reasonCode
  reasonMessage : entry.reasonMessage = record.reasonMessage
  fromStatus : entry.fromStatus = record.fromStatus
  toStatus : entry.toStatus = record.toStatus

/-- A delivery of the event is reported with the decision a store has on it. -/
def Recorded (s : Store) (raw : RawIncomingEventEntity) (decisions : List EventDecisionDetails) : Prop :=
  (∃ decision, s.decisionOf raw.id = some decision ∧
    decisions.filter (·.rawIncomingEventId == raw.id) = [EventInspector.mapDecision decision raw] ∧
    Repeats (EventInspector.mapDecision decision raw) decision) ∨
  s.decisionOf raw.id = none ∧ decisions.filter (·.rawIncomingEventId == raw.id) = []

theorem recorded (consistent : t.Consistent) {raw : RawIncomingEventEntity} (member : raw ∈ deliveriesOf s eventId) :
    Recorded t raw (readDecisionsAcross s t eventId) := by
  have reported := decisions_on consistent member
  cases decided : t.decisionOf raw.id with
  | some decision =>
    rw [decided] at reported
    exact Or.inl ⟨decision, decided, reported, rfl, rfl, rfl, rfl, rfl⟩
  | none =>
    rw [decided] at reported
    exact Or.inr ⟨decided, reported⟩

/-- What the report on an event shows. -/
structure Explains (s : Store) (eventId : String) (details : EventDetailsResponse) : Prop where
  /-- Each delivery of the event is listed as it stands, -/
  deliveries : details.deliveries = (deliveriesOf s eventId).map mapDelivery
  /-- once, and is `DONE` exactly when it is listed with a decision. -/
  listed_once : (details.deliveries.map (·.rawIncomingEventId)).Nodup
  decided : ∀ delivery ∈ details.deliveries,
    (∃ decision, details.decisions.filter (·.rawIncomingEventId == delivery.rawIncomingEventId) = [decision] ∧
      delivery.processing.status = .done) ∨
    details.decisions.filter (·.rawIncomingEventId == delivery.rawIncomingEventId) = [] ∧
      (delivery.processing.status = .pending ∨ delivery.processing.status = .retry)
  /-- It is the decision that was taken on it. -/
  recorded : ∀ raw ∈ deliveriesOf s eventId, Recorded s raw details.decisions
  /-- No decision is on a delivery that is not listed. -/
  about : ∀ decision ∈ details.decisions, ∃ delivery ∈ details.deliveries,
    delivery.rawIncomingEventId = decision.rawIncomingEventId ∧ delivery.orderId = decision.orderId
  /-- One delivery stands for the event: what took effect is its decision, and
  every duplicate is a copy of it. -/
  original : ∃ original,
    (∀ decision ∈ details.decisions, TookEffect decision → decision.rawIncomingEventId = original) ∧
    ∀ decision ∈ details.decisions, decision.decision = .duplicate → decision.rawIncomingEventId ≠ original ∧
      ∃ delivery ∈ details.deliveries, delivery.rawIncomingEventId = original
  /-- The history is what took effect, which is one decision at most. -/
  history : ∀ decision ∈ details.decisions, TookEffect decision → details.history.map (·.id) = [decision.id]
  no_history : (∀ decision ∈ details.decisions, ¬ TookEffect decision) → details.history = []
  /-- It is on an order the report names, whose own history has it. -/
  order : ∀ entry ∈ details.history, entry.orderId ∈ details.orderIds ∧
    ∃ order, getOrderDetails s entry.orderId = .ok order ∧ ∃ shown ∈ order.history, shown.id = entry.id

/-- An effective decision is in the history of its order. -/
theorem order_shows (reachable : Reachable sys) {entry : EventHistoryDetails}
    (shown : entry ∈ EventInspector.readHistory (readDecisions sys.store eventId)) :
    entry.orderId ∈ (deliveriesOf sys.store eventId).filterMap (·.orderId) ∧
      ∃ order, getOrderDetails sys.store entry.orderId = .ok order ∧ ∃ shown ∈ order.history, shown.id = entry.id := by
  obtain ⟨reported, member, kept⟩ := List.mem_filterMap.mp shown
  obtain ⟨decision, logged, raw, found, named, rfl⟩ := mem_readDecisions.mp member
  have same := EventInspector.toHistory?_id kept
  have own : raw.orderId = some entry.orderId ∧ TookEffect (EventInspector.mapDecision decision raw) :=
    toHistory?_order kept
  obtain ⟨held, -⟩ := sys.store.rawIncomingEvents.find_eq_some.mp found
  refine ⟨List.mem_filterMap.mpr ⟨raw, mem_deliveriesOf.mpr ⟨held, named⟩, own.1⟩, ?_⟩
  have audited : mapDecision decision raw ∈ readAuditLog sys.store entry.orderId :=
    OrderViews.mem_readAuditLog.mpr ⟨decision, logged, raw, found, own.1, rfl⟩
  obtain ⟨order, answered, -, history⟩ := OrderViews.getOrderDetails_of_logged audited
  obtain ⟨report, reports⟩ := Option.isSome_iff_exists.mp (OrderViews.reported_of_reachable reachable _ audited own.2)
  refine ⟨order, answered, report, ?_, ?_⟩
  · rw [history]
    exact List.mem_filterMap.mpr ⟨_, audited, reports⟩
  · rw [same, OrderViews.toHistory?_id reports]
    rfl

/-- The effective decisions reported are one at most, and are the history. -/
theorem history_of_effective (reachable : Reachable sys) :
    (∀ decision ∈ readDecisions sys.store eventId, TookEffect decision →
      (EventInspector.readHistory (readDecisions sys.store eventId)).map (·.id) = [decision.id]) ∧
    ((∀ decision ∈ readDecisions sys.store eventId, ¬ TookEffect decision) →
      EventInspector.readHistory (readDecisions sys.store eventId) = []) := by
  refine ⟨fun decision reported effect => ?_, fun none => ?_⟩
  · have key := (effective reachable reported effect).1
    have keys := @readDecisionsAcross_deliveries_nodup sys.store sys.store eventId reachable.consistent.store
    rw [readDecisionsAcross_once] at keys
    -- whatever else took effect would hold the same key, and so be on the same delivery
    have alone : (EventInspector.readHistory (readDecisions sys.store eventId)).map (·.id) =
        ((readDecisions sys.store eventId).filter
          (·.rawIncomingEventId == decision.rawIncomingEventId)).map (·.id) := by
      rw [EventInspector.readHistory, List.map_filterMap, ← List.filterMap_eq_map, List.filterMap_filter]
      apply List.filterMap_congr
      intro other member
      by_cases effect' : TookEffect other
      · obtain ⟨key', shown⟩ := effective reachable member effect'
        obtain ⟨report, shown⟩ := Option.isSome_iff_exists.mp shown
        rw [key, Option.some.injEq, ProcessedEventKeyEntity.mk.injEq] at key'
        simp [shown, EventInspector.toHistory?_id shown, key'.2]
      · rw [toHistory?_of_ineffective effect']
        have apart : other.rawIncomingEventId ≠ decision.rawIncomingEventId := by
          intro same
          have here := filter_key keys reported
          have there := filter_key keys member
          rw [same, here, List.cons.injEq] at there
          exact effect' (there.1 ▸ effect)
        simp [apart]
    rw [alone, filter_key keys reported, List.map_singleton]
  · rw [EventInspector.readHistory, List.filterMap_eq_nil_iff]
    exact fun decision member => toHistory?_of_ineffective (none decision member)

theorem explains_of_found (reachable : Reachable sys) {details : EventDetailsResponse}
    (answered : getEventDetails sys.store eventId = .ok details) : Explains sys.store eventId details := by
  have consistent := reachable.consistent.store
  unfold getEventDetails at answered
  simp only at answered
  split at answered
  · cases answered
  · obtain rfl := Except.ok.inj answered
    refine ⟨rfl, ?_, ?_, fun raw member => recorded consistent member, ?_, ?_, ?_, ?_, ?_⟩
    · simp only [List.map_map]
      exact sys.store.rawIncomingEvents.ids_nodup.sublist (List.filter_sublist.map _)
    · intro delivery listed
      obtain ⟨raw, member, rfl⟩ := List.mem_map.mp listed
      have stored := sys.store.rawIncomingEvents.find_self (mem_deliveriesOf.mp member).1
      rcases recorded consistent member with ⟨decision, decided, reported, -⟩ | ⟨undecided, unreported⟩
      · exact Or.inl ⟨_, reported, (consistent.done_iff stored).mpr (Option.isSome_of_eq_some decided)⟩
      · exact Or.inr ⟨unreported, (consistent.undecided_iff stored).mp undecided⟩
    · intro decision reported
      obtain ⟨entry, logged, raw, found, named, rfl⟩ := mem_readDecisions.mp reported
      obtain ⟨held, id⟩ := sys.store.rawIncomingEvents.find_eq_some.mp found
      exact ⟨mapDelivery raw, List.mem_map_of_mem (mem_deliveriesOf.mpr ⟨held, named⟩), id, rfl⟩
    · cases held : sys.store.processedEventKeys.find eventId with
      | some key =>
        refine ⟨key.firstRawIncomingEventId, fun decision reported effect => ?_, fun decision reported duplicate => ?_⟩
        · have holds := (effective reachable reported effect).1
          rw [held, Option.some.injEq] at holds
          rw [holds]
        · obtain ⟨key', held', other, original, member, id⟩ := copied reachable reported duplicate
          obtain rfl := Option.some.inj (held.symm.trans held')
          exact ⟨other, mapDelivery original, List.mem_map_of_mem member, id⟩
      | none =>
        refine ⟨0, fun decision reported effect => ?_, fun decision reported duplicate => ?_⟩
        · have holds := (effective reachable reported effect).1
          cases held.symm.trans holds
        · obtain ⟨key', held', -⟩ := copied reachable reported duplicate
          cases held.symm.trans held'
    · exact (history_of_effective reachable).1
    · exact (history_of_effective reachable).2
    · intro entry shown
      obtain ⟨owned, order⟩ := order_shows reachable shown
      exact ⟨List.mem_eraseDups.mpr owned, order⟩

/-- **The report on an event accounts for every delivery of it**, and answers
not-found exactly when there is none. -/
theorem event_is_accounted_for (reachable : Reachable sys) (eventId : String) :
    (∀ details, getEventDetails sys.store eventId = .ok details → Explains sys.store eventId details) ∧
      (getEventDetails sys.store eventId = .error ("Event " ++ eventId ++ " was not found") ↔
        ∀ raw ∈ sys.store.rawIncomingEvents.rows, raw.eventId ≠ some eventId) := by
  refine ⟨fun _ answered => explains_of_found reachable answered, ?_⟩
  unfold getEventDetails
  simp only
  split
  · rename_i nothing
    exact iff_of_true rfl (deliveriesOf_eq_nil.mp (List.isEmpty_iff.mp nothing))
  · rename_i something
    refine iff_of_false nofun fun unknown => something ?_
    exact List.isEmpty_iff.mpr (deliveriesOf_eq_nil.mpr unknown)

theorem event_is_accounted_for_out_of_order :
    (∀ details, getEventDetails outOfOrderSystem.store "c" = .ok details →
      Explains outOfOrderSystem.store "c" details) ∧
      (getEventDetails outOfOrderSystem.store "c" = .error ("Event " ++ "c" ++ " was not found") ↔
        ∀ raw ∈ outOfOrderSystem.store.rawIncomingEvents.rows, raw.eventId ≠ some "c") :=
  event_is_accounted_for (reachable_of_run outOfOrder_run) "c"

end EventEngine.EventReports
