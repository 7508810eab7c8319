import EventEngine.Answers
import EventEngine.EventReports

/-! Event reports that are read while the worker goes on. The deliveries are
read first and the decisions on them later, both between two transactions; some
that are listed as waiting may have got theirs by then, and the report is
between the one of the first moment and the one of the second. -/
namespace EventEngine.TornReports
open EventEngine Relational Growth EventInspector EventReports

/-- `EventInspectorService.getEventDetails`, its two queries served from two states. -/
def getEventDetailsAcross (atDeliveries atDecisions : Store) (eventId : String) : Except String EventDetailsResponse :=
  let deliveries := deliveriesOf atDeliveries eventId
  if deliveries.isEmpty then .error ("Event " ++ eventId ++ " was not found")
  else
    let decisions := readDecisionsAcross atDeliveries atDecisions eventId
    .ok
      { eventId
        orderIds := (deliveries.filterMap (·.orderId)).eraseDups
        deliveries := deliveries.map mapDelivery
        decisions
        history := EventInspector.readHistory decisions }

/-- Served from one state, a request gets the report of that state. -/
theorem getEventDetailsAcross_once (s : Store) (eventId : String) :
    getEventDetailsAcross s s eventId = getEventDetails s eventId := rfl

/-! ## The decisions across two states -/

variable {s t : Store} {before after : System} {eventId : String} {permitted : Action → Prop}

/-- They begin with those there were when the deliveries were read. -/
theorem since_deliveries (grows : Grows s t) : readDecisions s eventId <+: readDecisionsAcross s t eventId := by
  rw [readDecisions_eq, readDecisionsAcross_eq]
  exact grows.log.filterMap _

/-- And are among those there are now: of a delivery that came later, none is. -/
theorem until_decisions (grows : Grows s t) :
    (readDecisionsAcross s t eventId).Sublist (readDecisions t eventId) := by
  rw [readDecisions_eq, readDecisionsAcross_eq]
  apply filterMap_sublist
  intro decision entry reported
  obtain ⟨raw, found, rfl⟩ := Option.map_eq_some_iff.mp reported
  obtain ⟨found, own⟩ := Option.filter_eq_some_iff.mp found
  obtain ⟨raw', found', same⟩ := grows.deliveries _ raw found
  rw [found', Option.filter_some, if_pos (by rw [same.eventId]; exact own), Option.map_some, Option.some.injEq]
  simp only [EventInspector.mapDecision, same.eventId, same.orderId, same.type, same.eventTimestamp]

/-! ## The guarantee -/

/-- What a report shows whose deliveries are those of one store and whose
decisions are those of a later one. -/
structure Relates (s t : Store) (eventId : String) (details : EventDetailsResponse) : Prop where
  /-- Every delivery of the first moment is listed, as it stood then, -/
  deliveries : details.deliveries = (deliveriesOf s eventId).map mapDelivery
  /-- with the decision it has at the second, if it has one. -/
  recorded : ∀ raw ∈ deliveriesOf s eventId, Recorded t raw details.decisions
  /-- A delivery that is listed as `DONE` is listed with its one decision, made before. -/
  finished : ∀ delivery ∈ details.deliveries, delivery.processing.status = .done →
    ∃ decision ∈ readDecisions s eventId,
      details.decisions.filter (·.rawIncomingEventId == delivery.rawIncomingEventId) = [decision]
  /-- One that is listed as waiting had no decision; if one is listed all the
  same, it was made in the meantime. -/
  waiting : ∀ delivery ∈ details.deliveries, delivery.processing.status ≠ .done →
    s.decisionOf delivery.rawIncomingEventId = none ∧
      ((∃ decision, details.decisions.filter (·.rawIncomingEventId == delivery.rawIncomingEventId) = [decision]) ∧
          (t.decisionOf delivery.rawIncomingEventId).isSome ∨
        details.decisions.filter (·.rawIncomingEventId == delivery.rawIncomingEventId) = [] ∧
          t.decisionOf delivery.rawIncomingEventId = none)
  /-- The decisions are between those of the two stores. -/
  atLeast : readDecisions s eventId <+: details.decisions
  atMost : details.decisions.Sublist (readDecisions t eventId)
  /-- The history is what took effect, which is still one decision at most, -/
  history : ∀ decision ∈ details.decisions, TookEffect decision → details.history.map (·.id) = [decision.id]
  no_history : (∀ decision ∈ details.decisions, ¬ TookEffect decision) → details.history = []
  /-- on an order the report names, whose own history has it by now. -/
  order : ∀ entry ∈ details.history, entry.orderId ∈ details.orderIds ∧
    ∃ order, getOrderDetails t entry.orderId = .ok order ∧ ∃ shown ∈ order.history, shown.id = entry.id

/-- A delivery, as it was read and as it is decided now. -/
theorem listed_across (grows : Grows s t) (consistent : s.Consistent) (consistent' : t.Consistent)
    {raw : RawIncomingEventEntity} (member : raw ∈ deliveriesOf s eventId) :
    (raw.processingStatus = .done → ∃ decision ∈ readDecisions s eventId,
      (readDecisionsAcross s t eventId).filter (·.rawIncomingEventId == raw.id) = [decision]) ∧
    (raw.processingStatus ≠ .done → s.decisionOf raw.id = none) := by
  obtain ⟨held, named⟩ := mem_deliveriesOf.mp member
  have stored := s.rawIncomingEvents.find_self held
  refine ⟨fun done => ?_, fun undone => ?_⟩
  · obtain ⟨decision, decided⟩ := Option.isSome_iff_exists.mp ((consistent.done_iff stored).mp done)
    have kept : t.decisionOf raw.id = some decision := (grows.decided raw.id raw decision stored decided).2
    obtain ⟨logged, about⟩ := (decisionOf_eq_some consistent).mp decided
    refine ⟨EventInspector.mapDecision decision raw, ?_, ?_⟩
    · exact mem_readDecisions.mpr ⟨decision, logged, raw, about ▸ stored, named, rfl⟩
    · rw [decisions_on consistent' member, kept]
      rfl
  · cases decided : s.decisionOf raw.id with
    | none => rfl
    | some decision => exact absurd ((consistent.done_iff stored).mpr (Option.isSome_of_eq_some decided)) undone

/-- What took effect is the history, also when it did so in the meantime. -/
theorem history_across (reachable : Reachable after) (grows : Grows s after.store) {decision : EventDecisionDetails}
    (reported : decision ∈ readDecisionsAcross s after.store eventId) (effect : TookEffect decision) :
    (EventInspector.readHistory (readDecisionsAcross s after.store eventId)).map (·.id) = [decision.id] := by
  have among := @until_decisions s after.store eventId grows
  have reported' := among.subset reported
  have alone := (history_of_effective reachable).1 decision reported' effect
  obtain ⟨report, shown⟩ := Option.isSome_iff_exists.mp (effective reachable reported' effect).2
  have part : ((EventInspector.readHistory (readDecisionsAcross s after.store eventId)).map (·.id)).Sublist
      [decision.id] := by
    rw [← alone]
    exact (among.filterMap _).map _
  have some' : report.id ∈ (EventInspector.readHistory (readDecisionsAcross s after.store eventId)).map (·.id) :=
    List.mem_map_of_mem (List.mem_filterMap.mpr ⟨decision, reported, shown⟩)
  rcases List.sublist_singleton.mp part with nothing | whole
  · rw [nothing] at some'
    cases some'
  · exact whole

theorem relates_of_answer (reachable : Reachable before) (reached : Reaches permitted before after)
    {details : EventDetailsResponse} (answered : getEventDetailsAcross before.store after.store eventId = .ok details) :
    Relates before.store after.store eventId details := by
  have grows := store_grows reachable reached
  have reachable' := reachable.later reached
  have consistent := reachable.consistent.store
  have consistent' := reachable'.consistent.store
  unfold getEventDetailsAcross at answered
  simp only at answered
  split at answered
  · cases answered
  · obtain rfl := Except.ok.inj answered
    have decided := fun raw (member : raw ∈ deliveriesOf before.store eventId) => recorded consistent' member
    refine ⟨rfl, decided, ?_, ?_, since_deliveries grows, until_decisions grows, ?_, ?_, ?_⟩
    · intro delivery listed done
      obtain ⟨raw, member, rfl⟩ := List.mem_map.mp listed
      exact (listed_across grows consistent consistent' member).1 done
    · intro delivery listed undone
      obtain ⟨raw, member, rfl⟩ := List.mem_map.mp listed
      refine ⟨(listed_across grows consistent consistent' member).2 undone, ?_⟩
      rcases decided raw member with ⟨decision, decided, reported, -⟩ | ⟨undecided, unreported⟩
      · exact Or.inl ⟨⟨_, reported⟩, Option.isSome_of_eq_some decided⟩
      · exact Or.inr ⟨unreported, undecided⟩
    · exact fun decision reported effect => history_across reachable' grows reported effect
    · intro ineffective
      rw [EventInspector.readHistory, List.filterMap_eq_nil_iff]
      exact fun decision member => toHistory?_of_ineffective (ineffective decision member)
    · intro entry shown
      obtain ⟨decision, member, kept⟩ := List.mem_filterMap.mp shown
      obtain ⟨record, logged, raw, found, named, rfl⟩ := mem_readDecisionsAcross.mp member
      have own : raw.orderId = some entry.orderId := (toHistory?_order kept).1
      obtain ⟨held, -⟩ := before.store.rawIncomingEvents.find_eq_some.mp found
      refine ⟨List.mem_eraseDups.mpr (List.mem_filterMap.mpr ⟨raw, mem_deliveriesOf.mpr ⟨held, named⟩, own⟩), ?_⟩
      exact (order_shows reachable' (((until_decisions grows).filterMap _).subset shown)).2

/-- **A report on an event read while the worker goes on** lists every delivery
as it stood, with its decision as it is now; it is not-found only when nothing
was delivered under the id. -/
theorem overlapping_report_relates (reachable : Reachable before) (reached : Reaches permitted before after)
    (eventId : String) :
    (∀ details, getEventDetailsAcross before.store after.store eventId = .ok details →
      Relates before.store after.store eventId details) ∧
      ((∀ details, getEventDetailsAcross before.store after.store eventId ≠ .ok details) ↔
        ∀ raw ∈ before.store.rawIncomingEvents.rows, raw.eventId ≠ some eventId) := by
  refine ⟨fun details answered => relates_of_answer reachable reached answered, ?_⟩
  rw [← deliveriesOf_eq_nil]
  unfold getEventDetailsAcross
  simp only
  split
  · rename_i nothing
    exact iff_of_true (fun details answered => by cases answered) (List.isEmpty_iff.mp nothing)
  · rename_i something
    exact iff_of_false (fun unanswered => unanswered _ rfl) fun nothing => something (List.isEmpty_iff.mpr nothing)

/-- The payment waits when its deliveries are read, and is accepted before the
decisions are. -/
theorem overlapping_report_relates_resumed :
    (∀ details, getEventDetailsAcross midwaySystem.store resumedSystem.store "p" = .ok details →
      Relates midwaySystem.store resumedSystem.store "p" details) ∧
      ((∀ details, getEventDetailsAcross midwaySystem.store resumedSystem.store "p" ≠ .ok details) ↔
        ∀ raw ∈ midwaySystem.store.rawIncomingEvents.rows, raw.eventId ≠ some "p") :=
  overlapping_report_relates midway_reachable midway_resumed "p"

example : (deliveriesOf midwaySystem.store "p").map (·.processingStatus) = [.retry] ∧
    (readDecisionsAcross midwaySystem.store resumedSystem.store "p").map (·.decision) = [.accepted] := by
  decide +kernel

end EventEngine.TornReports
