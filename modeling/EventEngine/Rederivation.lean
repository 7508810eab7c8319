import EventEngine.Content
import EventEngine.Ledger
import EventEngine.Relational.Draining

/-! The audit log can be derived again. An order whose decided deliveries are
judged over from nothing, in the order of their decisions, gets the same rulings,
word for word, and ends as it is stored, apart from the times of its row. No
decision rests on anything that the log and the inbox do not show. -/
namespace EventEngine.Rederivation
open EventEngine Relational

/-- A rejection leaves the order in the status it has. -/
def rejecting (view : OrderView) (reasonCode : ReasonCode) (reasonMessage : String) (skippedFields : JsonObject) :
    Ruling :=
  ⟨.rejected, reasonCode, reasonMessage, view.order.map (·.status), view.order.map (·.status),
    stringify (.object []), stringify (.object skippedFields)⟩

/-- The final ruling a verdict calls for. An event that still waits for its
order when its attempts are used up is rejected. -/
def ruling (view : OrderView) : Verdict → Ruling
  | .notReady => rejecting view .orderNotReady notReadyMessage []
  | .rejected reasonCode reasonMessage skippedFields => rejecting view reasonCode reasonMessage skippedFields
  | .applied application =>
    ⟨application.decision, application.reasonCode, application.reasonMessage, application.fromStatus,
      some application.toStatus, stringify (.object application.changedFields),
      stringify (.object application.skippedFields)⟩

/-- The view after a verdict on the event. -/
def afterVerdict (view : OrderView) (event : ValidOrderEvent) : Verdict → OrderView
  | .applied application => view.apply event application
  | .notReady | .rejected _ _ _ => view

/-- Judge an event on its merits alone, with no clock to read. -/
def rejudge (view : OrderView) (event : ValidOrderEvent) : OrderView × Ruling :=
  let verdict := judge view event 0
  (afterVerdict view event verdict, ruling view verdict)

/-- A decision that was taken on the merits of its event: it does not report a
copy or a technical failure. -/
def OnMerits (entry : LogEntry) : Prop := entry.1.decision ≠ .duplicate ∧ entry.1.decision ≠ .failed

instance : DecidablePred OnMerits := fun _ => inferInstanceAs (Decidable (_ ∧ _))

/-- The decisions on an order's deliveries that were taken on their merits. -/
def meritLog (s : Store) (orderId : String) : List LogEntry := (s.orderLog orderId).filter (OnMerits ·)

/-- Judged over again from nothing, the order's deliveries get the rulings they
got, and the order comes out as it is stored. -/
def Rederivable (s : Store) (orderId : String) : Prop :=
  drain rejudge .absent ((meritLog s orderId).map (·.2)) =
    ((s.view orderId).untimed, (meritLog s orderId).map fun entry => (entry.2, entry.1.ruling))

variable {s s' : Store} {delivery : RawIncomingEventEntity} {host : Host} {orderId : String}

/-! ## Judged with and without a clock -/

theorem afterVerdict_untimed (view : OrderView) (event : ValidOrderEvent) (verdict : Verdict) :
    (afterVerdict view event verdict).untimed = afterVerdict view.untimed event verdict.untimed := by
  cases verdict <;> rfl

theorem ruling_untimed (view : OrderView) (verdict : Verdict) :
    ruling view.untimed verdict.untimed = ruling view verdict := by
  have status : view.untimed.order.map (·.status) = view.order.map (·.status) := by
    cases order : view.order <;> simp [OrderView.untimed, order]
  cases verdict with
  | applied => rfl
  | notReady | rejected => simp only [Verdict.untimed, ruling, rejecting, status]

/-- **Judging over** does what was done, whatever the clock showed then. -/
theorem rejudge_untimed (view : OrderView) (event : ValidOrderEvent) (now : Time) :
    rejudge view.untimed event =
      ((afterVerdict view event (judge view event now)).untimed, ruling view (judge view event now)) := by
  simp only [rejudge, ← judge_untimed view event now, afterVerdict_untimed, ruling_untimed]

/-! ## One more decision -/

/-- What a call does to an order: it logs nothing about it, or a decision that
was not taken on the merits, or the ruling on the event of its delivery. -/
inductive Enters (s : Store) (orderId : String) (s' : Store) : Prop where
  | still (log : s'.orderLog orderId = s.orderLog orderId) (view : s'.view orderId = s.view orderId)
  | passed (entry : LogEntry) (unjudged : ¬ OnMerits entry) (log : s'.orderLog orderId = s.orderLog orderId ++ [entry])
      (view : s'.view orderId = s.view orderId)
  | judged (entry : LogEntry) (merits : OnMerits entry) (log : s'.orderLog orderId = s.orderLog orderId ++ [entry])
      (ruled : rejudge (s.view orderId).untimed entry.2 = ((s'.view orderId).untimed, entry.1.ruling))

/-- A record of a decision that was not taken on the merits. -/
theorem enters_unjudged (call : Call s delivery host s') {record : EventDecisionEntity}
    (logged : s'.eventDecisions.rows = s.eventDecisions.rows ++ [record])
    (about : record.rawIncomingEventId = delivery.id)
    (unjudged : ∀ event, validate delivery = .valid event → ¬ OnMerits (record, event))
    (kept : s'.view orderId = s.view orderId) : Enters s orderId s' := by
  have log : s'.orderLog orderId = _ := orderLog_logged call logged about
  cases concerned : (validEvent? delivery).filter (·.orderId == orderId) with
  | none =>
    rw [concerned] at log
    exact .still (by simpa using log) kept
  | some event =>
    rw [concerned] at log
    have valid := validEvent?_eq_some.mp (Option.filter_eq_some_iff.mp concerned).1
    exact .passed (record, event) (unjudged event valid) log kept

/-- A record of a ruling on the delivery's event. -/
theorem enters_judged (call : Call s delivery host s') {event : ValidOrderEvent}
    (valid : validate delivery = .valid event) {record : EventDecisionEntity}
    (logged : s'.eventDecisions.rows = s.eventDecisions.rows ++ [record])
    (about : record.rawIncomingEventId = delivery.id) (merits : OnMerits (record, event))
    (ruled : rejudge (s.view event.orderId).untimed event = ((s'.view event.orderId).untimed, record.ruling))
    (others : orderId ≠ event.orderId → s'.view orderId = s.view orderId) : Enters s orderId s' := by
  have log : s'.orderLog orderId = _ := orderLog_logged call logged about
  rw [validEvent?_eq_some.mpr valid, Option.filter_some] at log
  by_cases own : event.orderId = orderId
  · subst own
    rw [if_pos (beq_self_eq_true _)] at log
    exact .judged (record, event) merits log ruled
  · rw [if_neg (by simpa using own)] at log
    exact .still (by simpa using log) (others (Ne.symm own))

theorem onMerits_of_rejected {entry : LogEntry} (rejected : entry.1.decision = .rejected) : OnMerits entry := by
  constructor <;> simp [rejected]

theorem enters_call (call : Call s delivery host s') (orderId : String) : Enters s orderId s' := by
  have outcome := call.outcome
  cases outcome with
  | retried => exact .still (orderLog_unlogged call.outcome rfl) rfl
  | failed => exact enters_unjudged call rfl rfl (fun _ _ merits => merits.2 rfl) rfl
  | committed committed =>
    cases committed with
    | invalid invalid =>
      refine enters_unjudged call rfl rfl ?_ rfl
      intro event valid
      cases invalid.symm.trans valid
    | duplicate => exact enters_unjudged call rfl rfl (fun _ _ merits => merits.1 rfl) rfl
    | deferred => exact .still (orderLog_unlogged call.outcome rfl) rfl
    | expired valid _ waits =>
      refine enters_judged call valid rfl rfl ?_ ?_ fun _ => rfl
      · exact onMerits_of_rejected rfl
      · have judged : judge _ _ host.now = _ := waits
        rw [rejudge_untimed _ _ host.now, judged]
        have absent := (judge_notReady.mp waits).1
        simp [rejection, FinalDecisionInput.record, afterVerdict, ruling, rejecting, EventDecisionEntity.ruling, absent]
    | rejected valid _ judged =>
      refine enters_judged call valid rfl rfl ?_ ?_ fun _ => rfl
      · exact onMerits_of_rejected rfl
      · have judged : judge _ _ host.now = _ := judged
        rw [rejudge_untimed _ _ host.now, judged]
        rfl
    | @applied event application valid _ judged =>
      have moved := fun orderId => @view_applied s delivery host event application judged orderId
      refine enters_judged call valid rfl rfl ?_ ?_ ?_
      · rcases (accepts_of_judge judged).decision with accepted | merged <;>
          exact ⟨by simp [Application.record, FinalDecisionInput.record, *],
            by simp [Application.record, FinalDecisionInput.record, *]⟩
      · rw [moved, if_pos rfl]
        have judged : judge _ _ host.now = _ := judged
        rw [rejudge_untimed _ _ host.now, judged]
        rfl
      · intro other
        exact (moved orderId).trans (if_neg other)

theorem rederivable_call (call : Call s delivery host s') (prior : Rederivable s orderId) : Rederivable s' orderId := by
  unfold Rederivable meritLog at prior ⊢
  cases enters_call call orderId with
  | still log view =>
    rw [log, view]
    exact prior
  | passed entry unjudged log view =>
    have same : (s.orderLog orderId ++ [entry]).filter (OnMerits ·) = (s.orderLog orderId).filter (OnMerits ·) := by
      simp [List.filter_append, unjudged]
    rw [log, view, same]
    exact prior
  | judged entry merits log ruled =>
    have longer : (s.orderLog orderId ++ [entry]).filter (OnMerits ·) =
        (s.orderLog orderId).filter (OnMerits ·) ++ [entry] := by
      simp [List.filter_append, merits]
    rw [log, longer, List.map_append, List.map_append, drain_append, prior]
    simp only [List.map_cons, List.map_nil, drain, ruled]

/-! ## The guarantee -/

/-- **Every decision can be derived again**: judged over from nothing, the
deliveries of an order that were decided on their merits get, word for word, the
rulings in the audit log, and leave the order, but for the times of its row, and
its versions as stored. -/
theorem decisions_rederivable {sys : System} (reachable : Reachable sys) (orderId : String) :
    Rederivable sys.store orderId := by
  apply reachable_invariant (Rederivable · orderId) reachable
  · exact fun now => rfl
  · intro s events receivedAt consistent prior
    rw [Rederivable, meritLog, orderLog_enqueueBatch consistent, view_enqueueBatch]
    exact prior
  · exact fun s delivery host s' call prior => rederivable_call call prior

theorem decisions_rederivable_out_of_order : Rederivable outOfOrderSystem.store "o" :=
  decisions_rederivable (reachable_of_run outOfOrder_run) "o"

end EventEngine.Rederivation
