import EventEngine.Answers

/-! Order views that are read while the worker goes on. The four queries of a
request are served one after the other, and transactions may be committed in
between, so the parts of a view need not be of one moment. It still leaves no
delivery out, and the state it shows is never ahead of the history beside it. -/
namespace EventEngine.TornViews
open EventEngine Relational Growth OrderViews Answers

/-! ## A request and its queries -/

/-- `OrdersService.readAuditLog`, its two queries served from two states. -/
def readAuditLogAcross (atRawEvents atDecisions : Store) (orderId : String) : List OrderDecisionEntry :=
  let rawEvents := rawEventsOf atRawEvents orderId
  if rawEvents.isEmpty then []
  else
    let decisions := atDecisions.eventDecisions.rows.filter fun decision =>
      (rawEvents.map (·.id)).contains decision.rawIncomingEventId
    decisions.filterMap fun decision =>
      (rawEvents.find? (·.id == decision.rawIncomingEventId)).map (mapDecision decision)

/-- The states from which the queries of one request are served. -/
structure Served where
  order : System
  rawEvents : System
  pendingJobs : System
  decisions : System

/-- `OrdersService.getOrderDetails`, each query served from its own state. -/
def getOrderDetailsAcross (served : Served) (orderId : String) : Except String OrderDetailsResponse :=
  answer (findCurrentState served.order.store orderId)
    (readAuditLogAcross served.rawEvents.store served.decisions.store orderId)
    (readPendingJobs served.pendingJobs.store orderId) orderId

/-- Served from one state, a request gets the view of that state. -/
theorem getOrderDetailsAcross_once (sys : System) (orderId : String) :
    getOrderDetailsAcross ⟨sys, sys, sys, sys⟩ orderId = getOrderDetails sys.store orderId := rfl

/-- The queries are served in the order in which they are asked, each of them
between two transactions. The three reads are asked for together; the decisions
come last, as they need the raw events. -/
structure Served.InOrder (served : Served) : Prop where
  reachable : Reachable served.order
  rawEvents : Reaches (fun _ => True) served.order served.rawEvents
  pendingJobs : Reaches (fun _ => True) served.rawEvents served.pendingJobs
  decisions : Reaches (fun _ => True) served.pendingJobs served.decisions

/-! ## The audit log across two states -/

variable {s t : Store} {orderId : String}

theorem readAuditLogAcross_eq : readAuditLogAcross s t orderId = t.eventDecisions.rows.filterMap fun decision =>
    ((s.rawIncomingEvents.find decision.rawIncomingEventId).filter (·.orderId == some orderId)).map
      (mapDecision decision) := by
  have joined := s.rawIncomingEvents.join_selected (·.orderId == some orderId)
    EventDecisionEntity.rawIncomingEventId mapDecision t.eventDecisions.rows
  unfold readAuditLogAcross
  simp only
  split
  · rename_i nothing
    unfold rawEventsOf at nothing
    rw [List.isEmpty_iff.mp nothing] at joined
    simpa using joined
  · exact joined

theorem mem_readAuditLogAcross {entry : OrderDecisionEntry} : entry ∈ readAuditLogAcross s t orderId ↔
    ∃ decision ∈ t.eventDecisions.rows, ∃ raw, s.rawIncomingEvents.find decision.rawIncomingEventId = some raw ∧
      raw.orderId = some orderId ∧ mapDecision decision raw = entry := by
  rw [readAuditLogAcross_eq]
  simp only [List.mem_filterMap, Option.map_eq_some_iff, Option.filter_eq_some_iff, beq_iff_eq, and_assoc]

/-- It has everything that was in the log when the raw events were read. -/
theorem since_rawEvents (grows : Grows s t) : readAuditLog s orderId <+: readAuditLogAcross s t orderId := by
  rw [readAuditLog_eq, readAuditLogAcross_eq]
  exact grows.log.filterMap _

/-- And nothing that is not in the log when the decisions are read. -/
theorem until_decisions (grows : Grows s t) :
    (readAuditLogAcross s t orderId).Sublist (readAuditLog t orderId) := by
  rw [readAuditLog_eq, readAuditLogAcross_eq]
  apply filterMap_sublist
  intro decision entry reported
  obtain ⟨raw, found, rfl⟩ := Option.map_eq_some_iff.mp reported
  obtain ⟨found, own⟩ := Option.filter_eq_some_iff.mp found
  obtain ⟨raw', found', same⟩ := grows.deliveries _ raw found
  rw [found', Option.filter_some, if_pos (by rw [same.orderId]; exact own), Option.map_some, Option.some.injEq]
  simp only [mapDecision, same.eventId, same.orderId, same.type, same.eventTimestamp]

/-! ## The guarantee -/

/-- What a view shows whose queries were served apart. -/
structure Accounts (served : Served) (orderId : String) (details : OrderDetailsResponse) : Prop where
  /-- No delivery that was there when the raw events were read is left out. -/
  listed : ∀ raw ∈ served.rawEvents.store.rawIncomingEvents.rows, raw.orderId = some orderId →
    (∃ entry ∈ details.auditLog, entry.rawIncomingEventId = raw.id) ∨
      ∃ job ∈ details.pendingJobs, job.rawIncomingEventId = raw.id
  /-- One that is listed twice was decided while the view was read. -/
  twice : ∀ entry ∈ details.auditLog, ∀ job ∈ details.pendingJobs,
    entry.rawIncomingEventId = job.rawIncomingEventId →
      served.pendingJobs.store.decisionOf job.rawIncomingEventId = none ∧
        (served.decisions.store.decisionOf job.rawIncomingEventId).isSome
  /-- The audit log has what it had when the raw events were read, and nothing
  that it has not when the decisions are. -/
  atLeast : readAuditLog served.rawEvents.store orderId <+: details.auditLog
  atMost : details.auditLog.Sublist (readAuditLog served.decisions.store orderId)
  /-- The state is one that the history beside it explains. -/
  state : ∀ order, served.order.store.orders.find orderId = some order →
    details.currentState = some order.currentState ∧
      readHistory (readAuditLog served.order.store orderId) <+: details.history ∧
      ∃ first rest, details.history = first :: rest ∧ first.type = SupportedEventType.orderCreated.text ∧
        first.decision = .accepted ∧ first.toStatus = .created

variable {served : Served}

theorem decided_of_logged (consistent : t.Consistent) {entry : OrderDecisionEntry}
    (logged : entry ∈ readAuditLogAcross s t orderId) : (t.decisionOf entry.rawIncomingEventId).isSome := by
  obtain ⟨decision, member, raw, -, -, rfl⟩ := mem_readAuditLogAcross.mp logged
  have decided := (decisionOf_eq_some consistent).mpr ⟨member, rfl⟩
  exact Option.isSome_iff_exists.mpr ⟨decision, decided⟩

/-- A delivery that is decided later than it waits is logged by then. -/
theorem listed_across {u : Store} (waiting : Grows s t) (logging : Grows t u) (consistent : t.Consistent)
    {raw : RawIncomingEventEntity} (member : raw ∈ s.rawIncomingEvents.rows) (own : raw.orderId = some orderId) :
    (∃ entry ∈ readAuditLogAcross s u orderId, entry.rawIncomingEventId = raw.id) ∨
      ∃ job ∈ readPendingJobs t orderId, job.rawIncomingEventId = raw.id := by
  obtain ⟨row, member', named, same⟩ := later_row waiting member
  rcases waits_or_logged consistent member' (same.orderId.trans own) with ⟨job, waits, about⟩ | ⟨decision, decided, -⟩
  · exact Or.inr ⟨job, waits, about.trans named⟩
  · obtain ⟨logged, about⟩ := (decisionOf_eq_some consistent).mp decided
    have found : s.rawIncomingEvents.find decision.rawIncomingEventId = some raw := by
      rw [about, named]
      exact s.rawIncomingEvents.find_self member
    refine Or.inl ⟨mapDecision decision raw, ?_, about.trans named⟩
    exact mem_readAuditLogAcross.mpr ⟨decision, logging.log.subset logged, raw, found, own, rfl⟩

theorem accounts_of_answer (inOrder : served.InOrder) {details : OrderDetailsResponse}
    (answered : getOrderDetailsAcross served orderId = .ok details) : Accounts served orderId details := by
  have shows := shows_of_answer answered
  have atRawEvents := inOrder.reachable.later inOrder.rawEvents
  have atPendingJobs := atRawEvents.later inOrder.pendingJobs
  have atDecisions := atPendingJobs.later inOrder.decisions
  have started := store_grows inOrder.reachable inOrder.rawEvents
  have waiting := store_grows atRawEvents inOrder.pendingJobs
  have logging := store_grows atPendingJobs inOrder.decisions
  refine ⟨?_, ?_, ?_, ?_, ?_⟩
  · intro raw member own
    rw [shows.log, shows.jobs]
    exact listed_across waiting logging atPendingJobs.consistent.store member own
  · intro entry logged job waits same
    rw [shows.log] at logged
    rw [shows.jobs] at waits
    obtain ⟨raw, member, -, status, rfl⟩ := mem_readPendingJobs.mp waits
    have stored := served.pendingJobs.store.rawIncomingEvents.find_self member
    refine ⟨(atPendingJobs.consistent.store.undecided_iff stored).mpr status, ?_⟩
    rw [← same]
    exact decided_of_logged atDecisions.consistent.store logged
  · rw [shows.log]
    exact since_rawEvents (waiting.trans logging)
  · rw [shows.log]
    exact until_decisions (waiting.trans logging)
  · intro order found
    have earlier : readAuditLog served.order.store orderId <+: details.auditLog := by
      rw [shows.log]
      exact (auditLog_continued started inOrder.reachable.consistent.store).trans (since_rawEvents (waiting.trans logging))
    have past : readHistory (readAuditLog served.order.store orderId) <+: details.history := by
      rw [shows.history, ← shows.log]
      exact earlier.filterMap _
    obtain ⟨first, rest, begins, type, accepted, -, toStatus⟩ := history_of_order inOrder.reachable found
    obtain ⟨more, longer⟩ := past
    refine ⟨by rw [shows.state, findCurrentState, found]; rfl, ⟨more, longer⟩, first, rest ++ more, ?_, type, accepted,
      toStatus⟩
    rw [← longer, begins]
    rfl

/-- **A view read while the worker goes on leaves no delivery out**; and it is
not-found only for an order that no delivery named when the reading began. -/
theorem overlapping_view_accounts (inOrder : served.InOrder) (orderId : String) :
    (∀ details, getOrderDetailsAcross served orderId = .ok details → Accounts served orderId details) ∧
      ((∀ details, getOrderDetailsAcross served orderId ≠ .ok details) →
        ∀ raw ∈ served.rawEvents.store.rawIncomingEvents.rows, raw.orderId ≠ some orderId) := by
  refine ⟨fun details answered => accounts_of_answer inOrder answered, ?_⟩
  intro unanswered raw member own
  have atRawEvents := inOrder.reachable.later inOrder.rawEvents
  have atPendingJobs := atRawEvents.later inOrder.pendingJobs
  have waiting := store_grows atRawEvents inOrder.pendingJobs
  have logging := store_grows atPendingJobs inOrder.decisions
  have found : ∃ details, getOrderDetailsAcross served orderId = .ok details := by
    rw [getOrderDetailsAcross, answered_iff]
    rcases listed_across waiting logging atPendingJobs.consistent.store member own with
      ⟨entry, logged, -⟩ | ⟨job, waits, -⟩
    · exact Or.inr (Or.inl (List.ne_nil_of_mem logged))
    · exact Or.inr (Or.inr (List.ne_nil_of_mem waits))
  obtain ⟨details, answered⟩ := found
  exact unanswered details answered

/-- The order is there from the first query on. An update of it still waits when
the pending jobs are read, and is accepted before the decisions are. -/
def servedApart : Served := ⟨midwaySystem, midwaySystem, midwaySystem, resumedSystem⟩

theorem servedApart_inOrder : servedApart.InOrder :=
  ⟨midway_reachable, ⟨[], by simp, .nil⟩, ⟨[], by simp, .nil⟩, midway_resumed⟩

theorem overlapping_view_accounts_apart :
    (∀ details, getOrderDetailsAcross servedApart "o" = .ok details → Accounts servedApart "o" details) ∧
      ((∀ details, getOrderDetailsAcross servedApart "o" ≠ .ok details) →
        ∀ raw ∈ servedApart.rawEvents.store.rawIncomingEvents.rows, raw.orderId ≠ some "o") :=
  overlapping_view_accounts servedApart_inOrder "o"

example : (getOrderDetailsAcross servedApart "o").toOption.map (fun details =>
    (details.currentState.map (·.amount), details.history.length, details.pendingJobs.length)) =
      some (some (some 50), 2, 1) := by decide +kernel

end EventEngine.TornViews
