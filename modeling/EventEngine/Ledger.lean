import EventEngine.Polling

/-! The ledger of an order: the decisions on its deliveries, each with the
event it was taken on, and the view of the order they add up to. Facts about an
order's history are inductions over its ledger; nothing else of the store or of
its interleavings matters to them. -/
namespace EventEngine
open Relational

/-- A decision with the event of the delivery it is about. -/
abbrev LogEntry := EventDecisionEntity × ValidOrderEvent

/-- The decisions on an order's deliveries, in the order of their identifiers. -/
def Store.orderLog (s : Store) (orderId : String) : List LogEntry :=
  s.eventDecisions.rows.filterMap fun decision =>
    ((s.eventOf decision.rawIncomingEventId).filter (·.orderId == orderId)).map (decision, ·)

/-- A decision that records an application. -/
structure Records (decision : EventDecisionEntity) (application : Application) : Prop where
  verdict : decision.decision = application.decision
  fromStatus : decision.fromStatus = application.fromStatus
  toStatus : decision.toStatus = some application.toStatus
  changedFields : decision.changedFieldsJson = stringify (.object application.changedFields)

/-- The decisions on an order's deliveries, and where they leave the order. -/
inductive Ledger (orderId : String) : List LogEntry → OrderView → Prop where
  | opened : Ledger orderId [] .absent
  /-- The delivery was a copy, or could not be processed. -/
  | passed {log : List LogEntry} {view : OrderView} {decision : EventDecisionEntity} {event : ValidOrderEvent}
      (prior : Ledger orderId log view) (own : event.orderId = orderId)
      (passed : decision.decision = .duplicate ∨ decision.decision = .failed) :
      Ledger orderId (log ++ [(decision, event)]) view
  /-- The order was waited for in vain. -/
  | expired {log : List LogEntry} {view : OrderView} {decision : EventDecisionEntity} {event : ValidOrderEvent}
      (prior : Ledger orderId log view) (own : event.orderId = orderId)
      (absent : view.order = none) (rejected : decision.decision = .rejected) :
      Ledger orderId (log ++ [(decision, event)]) view
  | refused {log : List LogEntry} {view : OrderView} {decision : EventDecisionEntity} {event : ValidOrderEvent}
      (prior : Ledger orderId log view) (own : event.orderId = orderId)
      (refusal : Refusal view event decision.reasonCode) (rejected : decision.decision = .rejected) :
      Ledger orderId (log ++ [(decision, event)]) view
  | applied {log : List LogEntry} {view : OrderView} {decision : EventDecisionEntity} {event : ValidOrderEvent}
      {now : Time} {application : Application} (prior : Ledger orderId log view) (own : event.orderId = orderId)
      (accepts : Accepts view event now application) (records : Records decision application) :
      Ledger orderId (log ++ [(decision, event)]) (view.apply event application)

variable {s s' : Store} {delivery : RawIncomingEventEntity} {host : Host} {orderId : String}

/-! ## The log of a store -/

theorem mem_orderLog {entry : LogEntry} : entry ∈ s.orderLog orderId ↔
    entry.1 ∈ s.eventDecisions.rows ∧ s.eventOf entry.1.rawIncomingEventId = some entry.2 ∧
      entry.2.orderId = orderId := by
  obtain ⟨decision, event⟩ := entry
  simp only [Store.orderLog, List.mem_filterMap, Option.map_eq_some_iff, Option.filter_eq_some_iff,
    beq_iff_eq, Prod.mk.injEq]
  constructor
  · rintro ⟨_, member, _, ⟨known, own⟩, rfl, rfl⟩
    exact ⟨member, known, own⟩
  · rintro ⟨member, known, own⟩
    exact ⟨decision, member, event, ⟨known, own⟩, rfl, rfl⟩

theorem orderLog_enqueueBatch (consistent : s.Consistent) (events : List JsonValue) (receivedAt : Time) :
    (enqueueBatch s events receivedAt).orderLog orderId = s.orderLog orderId := by
  unfold Store.orderLog
  apply List.filterMap_congr
  intro decision member
  rw [eventOf_enqueueBatch_of_found (consistent.delivered decision member)]

theorem orderLog_unlogged (outcome : Outcome s delivery host s')
    (unlogged : s'.eventDecisions.rows = s.eventDecisions.rows) : s'.orderLog orderId = s.orderLog orderId := by
  unfold Store.orderLog
  rw [unlogged]
  apply List.filterMap_congr
  intro decision _
  rw [eventOf_outcome outcome]

/-- A record about the delivery enters the log of its event's order. -/
theorem orderLog_logged (call : Call s delivery host s') {record : EventDecisionEntity}
    (logged : s'.eventDecisions.rows = s.eventDecisions.rows ++ [record])
    (about : record.rawIncomingEventId = delivery.id) :
    s'.orderLog orderId = s.orderLog orderId ++
      (((validEvent? delivery).filter (·.orderId == orderId)).map (record, ·)).toList := by
  have same : s'.eventOf = s.eventOf := funext (eventOf_outcome call.outcome)
  unfold Store.orderLog
  rw [logged, same, List.filterMap_append, List.filterMap_cons, List.filterMap_nil, about,
    eventOf_stored call.stored]
  rfl

/-! ## Every store keeps its ledgers -/

/-- A ledger is carried over a record that moves no view, when the record
continues the ledger of its event's order. -/
theorem ledger_logged (call : Call s delivery host s') {record : EventDecisionEntity}
    (logged : s'.eventDecisions.rows = s.eventDecisions.rows ++ [record])
    (about : record.rawIncomingEventId = delivery.id) (prior : Ledger orderId (s.orderLog orderId) (s.view orderId))
    (kept : (∀ event, validate delivery = .valid event → event.orderId ≠ orderId) →
      s'.view orderId = s.view orderId)
    (continued : ∀ event, validate delivery = .valid event → event.orderId = orderId →
      Ledger orderId (s.orderLog orderId ++ [(record, event)]) (s'.view orderId)) :
    Ledger orderId (s'.orderLog orderId) (s'.view orderId) := by
  rw [orderLog_logged call logged about]
  by_cases concerned : ∃ event, validate delivery = .valid event ∧ event.orderId = orderId
  · obtain ⟨event, valid, own⟩ := concerned
    have continued := continued event valid own
    rw [validEvent?_eq_some.mpr valid, Option.filter_some, if_pos (beq_iff_eq.mpr own)]
    exact continued
  · have other : ∀ event, validate delivery = .valid event → event.orderId ≠ orderId :=
      fun event valid own => concerned ⟨event, valid, own⟩
    have unlogged : (validEvent? delivery).filter (·.orderId == orderId) = none := by
      rw [Option.filter_eq_none_iff]
      intro event known
      simpa using other event (validEvent?_eq_some.mp known)
    rw [kept other, unlogged]
    simpa using prior

theorem ledger_call (call : Call s delivery host s') (prior : Ledger orderId (s.orderLog orderId) (s.view orderId)) :
    Ledger orderId (s'.orderLog orderId) (s'.view orderId) := by
  have outcome := call.outcome
  cases outcome with
  | retried errorMessage =>
    rw [orderLog_unlogged call.outcome rfl]
    exact prior
  | failed errorMessage =>
    refine ledger_logged call rfl rfl prior (fun _ => rfl) ?_
    exact fun event _ own => .passed prior own (Or.inr rfl)
  | committed committed =>
    cases committed with
    | invalid invalid =>
      refine ledger_logged call rfl rfl prior (fun _ => rfl) ?_
      exact fun event valid => by cases invalid.symm.trans valid
    | duplicate =>
      refine ledger_logged call rfl rfl prior (fun _ => rfl) ?_
      exact fun event _ own => .passed prior own (Or.inl rfl)
    | deferred =>
      rw [orderLog_unlogged call.outcome rfl]
      exact prior
    | expired valid _ waits =>
      refine ledger_logged call rfl rfl prior (fun _ => rfl) ?_
      intro event valid' own
      obtain rfl := EventValidation.valid.inj (valid.symm.trans valid')
      subst own
      exact .expired prior rfl (judge_notReady.mp waits).1 rfl
    | rejected valid _ judged =>
      refine ledger_logged call rfl rfl prior (fun _ => rfl) ?_
      intro event valid' own
      obtain rfl := EventValidation.valid.inj (valid.symm.trans valid')
      subst own
      exact .refused prior rfl (refusal_of_judge judged) rfl
    | @applied applied application valid _ judged =>
      have moved := @view_applied s delivery host applied application judged orderId
      refine ledger_logged call rfl rfl prior ?_ ?_
      · intro other
        exact moved.trans (if_neg (Ne.symm (other applied valid)))
      · intro event valid' same
        obtain rfl := EventValidation.valid.inj (valid.symm.trans valid')
        subst same
        rw [moved, if_pos rfl]
        exact .applied prior rfl (accepts_of_judge judged) ⟨rfl, rfl, rfl, rfl⟩

/-- **Every reachable store keeps a ledger of every order**: the decisions on
its deliveries add up to what is stored of it. -/
theorem ledger_reachable {sys : System} (reachable : Reachable sys) (orderId : String) :
    Ledger orderId (sys.store.orderLog orderId) (sys.store.view orderId) := by
  apply reachable_invariant (fun s => Ledger orderId (s.orderLog orderId) (s.view orderId)) reachable
  · exact fun now => .opened
  · intro s events receivedAt consistent prior
    rw [orderLog_enqueueBatch consistent, view_enqueueBatch]
    exact prior
  · exact fun s delivery host s' call prior => ledger_call call prior

/-! ## The history of an order -/

/-- The decisions of a log that applied their event. -/
def applied (log : List LogEntry) : List LogEntry :=
  log.filter fun entry => entry.1.decision = .accepted ∨ entry.1.decision = .partiallyApplied

/-- A ledger without the decisions that left the order alone. -/
inductive History (orderId : String) : List LogEntry → OrderView → Prop where
  | opened : History orderId [] .absent
  | applied {log : List LogEntry} {view : OrderView} {decision : EventDecisionEntity} {event : ValidOrderEvent}
      {now : Time} {application : Application} (prior : History orderId log view) (own : event.orderId = orderId)
      (accepts : Accepts view event now application) (records : Records decision application) :
      History orderId (log ++ [(decision, event)]) (view.apply event application)

theorem applied_append (log : List LogEntry) (entry : LogEntry) :
    applied (log ++ [entry]) = applied log ++
      if entry.1.decision = .accepted ∨ entry.1.decision = .partiallyApplied then [entry] else [] := by
  simp only [applied, List.filter_append, List.filter_cons, List.filter_nil, decide_eq_true_eq]

theorem history_of_ledger {log : List LogEntry} {view : OrderView} (ledger : Ledger orderId log view) :
    History orderId (applied log) view := by
  induction ledger with
  | opened => exact .opened
  | passed _ _ passed ih =>
    rw [applied_append]
    rcases passed with duplicate | failed
    · simpa [duplicate] using ih
    · simpa [failed] using ih
  | expired _ _ _ rejected ih | refused _ _ _ rejected ih =>
    rw [applied_append]
    simpa [rejected] using ih
  | applied _ own accepts records ih =>
    have decided := accepts.decision
    rw [← records.verdict] at decided
    rw [applied_append, if_pos decided]
    exact .applied ih own accepts records

/-- Nothing is stamped on an order before it is created. -/
theorem unstamped_of_history {orderId : String} {log : List LogEntry} {view : OrderView}
    (history : History orderId log view) : ∀ fieldName, (view.version fieldName).isSome → view.order.isSome := by
  cases history with
  | opened => exact fun _ stamped => by cases stamped
  | applied => exact fun _ _ => rfl

theorem history_reachable {sys : System} (reachable : Reachable sys) (orderId : String) :
    History orderId (applied (sys.store.orderLog orderId)) (sys.store.view orderId) :=
  history_of_ledger (ledger_reachable reachable orderId)

end EventEngine
