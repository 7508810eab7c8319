import EventEngine.EventInspector
import EventEngine.Growth
import EventEngine.OrderViews

/-! What clients are told. Every later answer of the read side continues an
earlier one; and an order view whose queries are served while the worker goes
on still leaves no delivery out. -/
namespace EventEngine.Answers
open EventEngine Relational Atomicity Growth OrderViews

/-! ## Later answers -/

/-- A later answer about the same order. -/
structure OrderContinues (before after : OrderDetailsResponse) : Prop where
  auditLog : before.auditLog <+: after.auditLog
  history : before.history <+: after.history
  rejectedEvents : before.rejectedEvents <+: after.rejectedEvents
  /-- A payment is shown for good, and refunds only grow. -/
  state : ∀ state, before.currentState = some state → ∃ state', after.currentState = some state' ∧
    state'.createdAt = state.createdAt ∧ (state.paidAmount = 0 ∨ state'.paidAmount = state.paidAmount) ∧
    state.refundedAmount ≤ state'.refundedAmount
  /-- A delivery that waited still waits, or has an entry in the audit log. -/
  jobs : ∀ job ∈ before.pendingJobs, (∃ job' ∈ after.pendingJobs, job'.rawIncomingEventId = job.rawIncomingEventId) ∨
    ∃ entry ∈ after.auditLog, entry.rawIncomingEventId = job.rawIncomingEventId

/-- A delivery as the event inspector reports it, wherever it stands. -/
def withoutStanding (delivery : EventInspector.EventDeliveryDetails) : EventInspector.EventDeliveryDetails :=
  { delivery with processing := ⟨.pending, 0, 0, none⟩ }

/-- A later answer about the same event. -/
structure EventContinues (before after : EventInspector.EventDetailsResponse) : Prop where
  orderIds : before.orderIds <+: after.orderIds
  deliveries : before.deliveries.map withoutStanding <+: after.deliveries.map withoutStanding
  decisions : before.decisions <+: after.decisions
  history : before.history <+: after.history

/-- A later report of the statistics. -/
structure StatsContinue (before after : Statistics.EngineStats) : Prop where
  valid : before.validEventsCount ≤ after.validEventsCount
  rejected : before.rejectedEventsCount ≤ after.rejectedEventsCount
  duplicate : before.duplicateEventsCount ≤ after.duplicateEventsCount

/-- Whatever was answered from one store, the other continues. -/
structure Continues (s t : Store) : Prop where
  orders : ∀ orderId before, getOrderDetails s orderId = .ok before →
    ∃ after, getOrderDetails t orderId = .ok after ∧ OrderContinues before after
  events : ∀ eventId before, EventInspector.getEventDetails s eventId = .ok before →
    ∃ after, EventInspector.getEventDetails t eventId = .ok after ∧ EventContinues before after
  stats : ∀ before, Statistics.getStats s = .ok before →
    ∃ after, Statistics.getStats t = .ok after ∧ StatsContinue before after

variable {s t : Store} {orderId eventId : String}

/-! ## Reports on the log -/

/-- Reports on decisions and their deliveries are continued, when they do not
depend on where a delivery stands. -/
theorem reports_continued (grows : Grows s t) (consistent : s.Consistent) {β : Type}
    {selected : RawIncomingEventEntity → Bool} {report : EventDecisionEntity → RawIncomingEventEntity → β}
    (alike : ∀ row row', SameDelivery row row' →
      selected row' = selected row ∧ ∀ decision, report decision row' = report decision row) :
    (s.eventDecisions.rows.filterMap fun decision =>
      ((s.rawIncomingEvents.find decision.rawIncomingEventId).filter selected).map (report decision)) <+:
      t.eventDecisions.rows.filterMap fun decision =>
        ((t.rawIncomingEvents.find decision.rawIncomingEventId).filter selected).map (report decision) := by
  have same : ∀ decision ∈ s.eventDecisions.rows,
      ((s.rawIncomingEvents.find decision.rawIncomingEventId).filter selected).map (report decision) =
        ((t.rawIncomingEvents.find decision.rawIncomingEventId).filter selected).map (report decision) := by
    intro decision logged
    obtain ⟨row, found⟩ := Option.isSome_iff_exists.mp (consistent.delivered decision logged)
    obtain ⟨row', found', delivery⟩ := grows.deliveries _ row found
    obtain ⟨kept, reads⟩ := alike row row' delivery
    rw [found, found', Option.filter_some, Option.filter_some, kept]
    split
    · rw [Option.map_some, Option.map_some, reads]
    · rfl
  rw [List.filterMap_congr same]
  exact grows.log.filterMap _

theorem auditLog_continued (grows : Grows s t) (consistent : s.Consistent) :
    readAuditLog s orderId <+: readAuditLog t orderId := by
  rw [readAuditLog_eq, readAuditLog_eq]
  refine reports_continued grows consistent fun row row' same => ⟨by rw [same.orderId], fun decision => ?_⟩
  simp only [mapDecision, same.eventId, same.orderId, same.type, same.eventTimestamp]

theorem decisions_continued (grows : Grows s t) (consistent : s.Consistent) :
    EventInspector.readDecisions s eventId <+: EventInspector.readDecisions t eventId := by
  rw [EventInspector.readDecisions_eq, EventInspector.readDecisions_eq]
  refine reports_continued grows consistent fun row row' same => ⟨by rw [same.eventId], fun decision => ?_⟩
  simp only [EventInspector.mapDecision, same.eventId, same.orderId, same.type, same.eventTimestamp]

/-! ## Later orders -/

/-- What `OrdersService.getOrderDetails` makes of what it has read. -/
def answer (currentState : Option OrderCurrentState) (auditLog : List OrderDecisionEntry)
    (pendingJobs : List OrderPendingJob) (orderId : String) : Except String OrderDetailsResponse :=
  if currentState.isNone ∧ auditLog.isEmpty ∧ pendingJobs.isEmpty then
    .error ("Order " ++ orderId ++ " was not found")
  else .ok
    { orderId := (currentState.map (·.orderId)).getD orderId
      currentState
      history := readHistory auditLog
      rejectedEvents := auditLog.filter fun entry => [.rejected, .duplicate, .failed].contains entry.decision
      pendingJobs
      auditLog }

theorem getOrderDetails_eq : getOrderDetails s orderId =
    answer (findCurrentState s orderId) (readAuditLog s orderId) (readPendingJobs s orderId) orderId := rfl

/-- An answer shows what was read. -/
structure Shows (currentState : Option OrderCurrentState) (auditLog : List OrderDecisionEntry)
    (pendingJobs : List OrderPendingJob) (details : OrderDetailsResponse) : Prop where
  state : details.currentState = currentState
  log : details.auditLog = auditLog
  history : details.history = readHistory auditLog
  rejected :
    details.rejectedEvents = auditLog.filter fun entry => [.rejected, .duplicate, .failed].contains entry.decision
  jobs : details.pendingJobs = pendingJobs

variable {currentState : Option OrderCurrentState} {auditLog : List OrderDecisionEntry}
  {pendingJobs : List OrderPendingJob} {details : OrderDetailsResponse}

theorem shows_of_answer (answered : answer currentState auditLog pendingJobs orderId = .ok details) :
    Shows currentState auditLog pendingJobs details := by
  unfold answer at answered
  split at answered
  · cases answered
  · cases answered
    exact ⟨rfl, rfl, rfl, rfl, rfl⟩

theorem answered_iff : (∃ details, answer currentState auditLog pendingJobs orderId = .ok details) ↔
    currentState.isSome ∨ auditLog ≠ [] ∨ pendingJobs ≠ [] := by
  unfold answer
  split
  · rename_i nothing
    simp only [Option.isNone_iff_eq_none, List.isEmpty_iff] at nothing
    obtain ⟨rfl, rfl, rfl⟩ := nothing
    simp
  · rename_i something
    simp only [Option.isNone_iff_eq_none, List.isEmpty_iff] at something
    refine ⟨fun _ => ?_, fun _ => ⟨_, rfl⟩⟩
    rw [← Option.ne_none_iff_isSome]
    tauto

/-- A delivery is there in a later store, with at most its standing changed. -/
theorem later_row (grows : Grows s t) {raw : RawIncomingEventEntity} (member : raw ∈ s.rawIncomingEvents.rows) :
    ∃ row ∈ t.rawIncomingEvents.rows, row.id = raw.id ∧ SameDelivery raw row := by
  obtain ⟨row, found, same⟩ := grows.deliveries _ raw (s.rawIncomingEvents.find_self member)
  exact ⟨row, (t.rawIncomingEvents.find_eq_some.mp found).1, same.id, same⟩

/-- A delivery of the order waits, or has an entry in the audit log. -/
theorem waits_or_logged (consistent : s.Consistent) {raw : RawIncomingEventEntity}
    (member : raw ∈ s.rawIncomingEvents.rows) (own : raw.orderId = some orderId) :
    (∃ job ∈ readPendingJobs s orderId, job.rawIncomingEventId = raw.id) ∨
      ∃ decision, s.decisionOf raw.id = some decision ∧ mapDecision decision raw ∈ readAuditLog s orderId := by
  have stored : s.rawIncomingEvents.find raw.id = some raw := s.rawIncomingEvents.find_self member
  cases decided : s.decisionOf raw.id with
  | some decision =>
    obtain ⟨logged, about⟩ := (decisionOf_eq_some consistent).mp decided
    exact Or.inr ⟨decision, rfl, mem_readAuditLog.mpr ⟨decision, logged, raw, about ▸ stored, own, rfl⟩⟩
  | none =>
    have waits := (consistent.undecided_iff stored).mp decided
    exact Or.inl ⟨raw.pendingJob, mem_readPendingJobs.mpr ⟨raw, member, own, waits, rfl⟩, rfl⟩

theorem jobs_continue (grows : Grows s t) (consistent : t.Consistent) :
    ∀ job ∈ readPendingJobs s orderId,
      (∃ job' ∈ readPendingJobs t orderId, job'.rawIncomingEventId = job.rawIncomingEventId) ∨
        ∃ entry ∈ readAuditLog t orderId, entry.rawIncomingEventId = job.rawIncomingEventId := by
  intro job waiting
  obtain ⟨raw, member, own, -, rfl⟩ := mem_readPendingJobs.mp waiting
  obtain ⟨row, member', named, same⟩ := later_row grows member
  rcases waits_or_logged consistent member' (same.orderId.trans own) with
    ⟨job', waits, about⟩ | ⟨decision, decided, logged⟩
  · exact Or.inl ⟨job', waits, about.trans named⟩
  · exact Or.inr ⟨_, logged, ((decisionOf_eq_some consistent).mp decided).2.trans named⟩

theorem state_continues (grows : Grows s t) {state : OrderCurrentState}
    (shown : findCurrentState s orderId = some state) :
    ∃ state', findCurrentState t orderId = some state' ∧ state'.createdAt = state.createdAt ∧
      (state.paidAmount = 0 ∨ state'.paidAmount = state.paidAmount) ∧ state.refundedAmount ≤ state'.refundedAmount := by
  obtain ⟨order, found, rfl⟩ := Option.map_eq_some_iff.mp shown
  obtain ⟨order', found', later⟩ := grows.orders orderId order found
  refine ⟨order'.currentState, Option.map_eq_some_iff.mpr ⟨order', found', rfl⟩, later.createdAt, ?_, ?_⟩
  · rcases later.paid with unpaid | kept
    · left
      simp [OrderEntity.currentState, minorUnitsToAmount, unpaid]
    · right
      simp [OrderEntity.currentState, kept]
  · have refunded := later.refunded
    simp only [OrderEntity.currentState, minorUnitsToAmount]
    gcongr

theorem order_continues (grows : Grows s t) (consistent : s.Consistent) (consistent' : t.Consistent)
    {before : OrderDetailsResponse} (answered : getOrderDetails s orderId = .ok before) :
    ∃ after, getOrderDetails t orderId = .ok after ∧ OrderContinues before after := by
  have shows := shows_of_answer answered
  have logs : readAuditLog s orderId <+: readAuditLog t orderId := auditLog_continued grows consistent
  have jobs := @jobs_continue s t orderId grows consistent'
  obtain ⟨after, answered'⟩ : ∃ after, getOrderDetails t orderId = .ok after := by
    rw [getOrderDetails_eq, answered_iff]
    rcases answered_iff.mp ⟨before, answered⟩ with state | log | waiting
    · obtain ⟨state, shown⟩ := Option.isSome_iff_exists.mp state
      obtain ⟨state', shown', -⟩ := state_continues grows shown
      exact Or.inl (by rw [shown']; rfl)
    · refine Or.inr (Or.inl fun nothing => log ?_)
      rw [nothing] at logs
      exact List.prefix_nil.mp logs
    · obtain ⟨job, member⟩ := List.exists_mem_of_ne_nil _ waiting
      rcases jobs job member with ⟨job', member', -⟩ | ⟨entry, member', -⟩
      · exact Or.inr (Or.inr (List.ne_nil_of_mem member'))
      · exact Or.inr (Or.inl (List.ne_nil_of_mem member'))
  have shows' := shows_of_answer answered'
  refine ⟨after, answered', ?_, ?_, ?_, ?_, ?_⟩
  · rw [shows.log, shows'.log]
    exact logs
  · rw [shows.history, shows'.history]
    exact logs.filterMap _
  · rw [shows.rejected, shows'.rejected]
    exact logs.filter _
  · intro state shown
    rw [shows.state] at shown
    rw [shows'.state]
    exact state_continues grows shown
  · rw [shows.jobs, shows'.jobs, shows'.log]
    exact jobs

/-! ## Later events -/

/-- What is read of the deliveries of an event, wherever they stand, is continued. -/
theorem deliveries_continued (grows : Grows s t) {β : Type} (reading : RawIncomingEventEntity → β)
    (alike : ∀ row row', SameDelivery row row' → reading row' = reading row) :
    (EventInspector.deliveriesOf s eventId).map reading <+: (EventInspector.deliveriesOf t eventId).map reading := by
  apply s.rawIncomingEvents.selected_prefix
  intro row member
  obtain ⟨row', found, same⟩ := grows.deliveries _ row (s.rawIncomingEvents.find_self member)
  exact ⟨row', found, by rw [same.eventId], alike row row' same⟩

theorem eraseDups_continued {names names' : List String} (continued : names <+: names') :
    names.eraseDups <+: names'.eraseDups := by
  obtain ⟨more, rfl⟩ := continued
  rw [List.eraseDups_append]
  exact List.prefix_append _ _

theorem event_continues (grows : Grows s t) (consistent : s.Consistent)
    {before : EventInspector.EventDetailsResponse} (answered : EventInspector.getEventDetails s eventId = .ok before) :
    ∃ after, EventInspector.getEventDetails t eventId = .ok after ∧ EventContinues before after := by
  have ids := @deliveries_continued s t eventId grows _ RawIncomingEventEntity.orderId fun _ _ same => same.orderId
  have details := @deliveries_continued s t eventId grows _ (withoutStanding ∘ EventInspector.mapDelivery) (by
    intro row row' same
    simp [withoutStanding, EventInspector.mapDelivery, same.id, same.eventId, same.orderId, same.type,
      same.eventTimestamp, same.rawEventJson, same.receivedAt])
  have decisions := @decisions_continued s t eventId grows consistent
  unfold EventInspector.getEventDetails at answered ⊢
  simp only at answered ⊢
  split at answered
  · cases answered
  · rename_i known
    obtain rfl := Except.ok.inj answered
    have known' : ¬ (EventInspector.deliveriesOf t eventId).isEmpty = true := by
      intro unknown
      rw [List.isEmpty_iff.mp unknown, List.map_nil, List.prefix_nil, List.map_eq_nil_iff] at ids
      exact known (List.isEmpty_iff.mpr ids)
    rw [if_neg known']
    refine ⟨_, rfl, ?_, ?_, decisions, decisions.filterMap _⟩
    · have named : ∀ deliveries : List RawIncomingEventEntity,
          deliveries.filterMap (·.orderId) = (deliveries.map (·.orderId)).filterMap id := by
        intro deliveries
        rw [List.filterMap_map]
        rfl
      simp only [named]
      exact eraseDups_continued (ids.filterMap _)
    · simp only [List.map_map]
      exact details

/-! ## Later statistics -/

theorem stats_continue (grows : Grows s t) {before : Statistics.EngineStats}
    (answered : Statistics.getStats s = .ok before) :
    ∃ after, Statistics.getStats t = .ok after ∧ StatsContinue before after := by
  unfold Statistics.getStats at answered
  cases kept : s.stats with
  | none =>
    rw [kept] at answered
    cases answered
  | some stats =>
    rw [kept] at answered
    obtain rfl := Except.ok.inj answered
    obtain ⟨stats', kept', later⟩ := grows.stats stats kept
    unfold Statistics.getStats
    rw [kept']
    exact ⟨_, rfl, later.valid, later.rejected, later.duplicate⟩

/-- **Answers are continued**: what a client was told of an order, of an event
or of the statistics, every later answer goes on from. -/
theorem answers_are_continued {permitted : Action → Prop} {sys sys' : System} (reachable : Reachable sys)
    (reached : Reaches permitted sys sys') : Continues sys.store sys'.store := by
  have grows := store_grows reachable reached
  have consistent := reachable.consistent.store
  have consistent' := (reachable.later reached).consistent.store
  exact ⟨fun _ _ answered => order_continues grows consistent consistent' answered,
    fun _ _ answered => event_continues grows consistent answered, fun _ answered => stats_continue grows answered⟩

theorem answers_are_continued_resumed : Continues midwaySystem.store resumedSystem.store :=
  answers_are_continued midway_reachable midway_resumed

example : (getOrderDetails midwaySystem.store "o").toOption.map (fun details =>
    (details.history.length, details.auditLog.length, details.pendingJobs.length)) = some (1, 1, 1) ∧
    (getOrderDetails resumedSystem.store "o").toOption.map (fun details =>
      (details.history.length, details.auditLog.length, details.pendingJobs.length)) = some (2, 2, 0) := by
  decide +kernel

end EventEngine.Answers
