import EventEngine.Freshness
import EventEngine.Rederivation
import EventEngine.Registers

/-! Rejections have grounds. An event that was decided on its merits was turned
down exactly when the log of its order, as it stood then, spoke against it, and
the reason on record names what did. -/
namespace EventEngine.Justification
open EventEngine Relational LastWriter Money Freshness Registers Rederivation

/-! ## Grounds -/

/-- A value that the event carries for a field comes too late: an earlier
contribution to the field is at least as new. -/
def Overtaken {α : Type} (r : Register α) (prior : List LogEntry) (event : ValidOrderEvent) : Prop :=
  (r.value event.payload).isSome → ∃ w ∈ contributions r prior, event.timestamp ≤ w.stamp

/-- What the log of an order, up to an event, shows against it. -/
inductive Grounds (prior : List LogEntry) (event : ValidOrderEvent) : ReasonCode → Prop where
  | orderNotReady (waits : event.type ≠ .orderCreated) (uncreated : ∀ entry ∈ prior, ¬ IsCreation entry) :
      Grounds prior event .orderNotReady
  | orderAlreadyExists (type : event.type = .orderCreated) (created : ∃ entry ∈ prior, IsCreation entry) :
      Grounds prior event .orderAlreadyExists
  | noApplicableChanges (type : event.type = .orderUpdated) (amount : Overtaken amountRegister prior event)
      (currency : Overtaken currencyRegister prior event) : Grounds prior event .noApplicableChanges
  | paymentForbidden (type : event.type = .paymentCaptured) (cancelled : acceptedOf .orderCancelled prior ≠ []) :
      Grounds prior event .forbiddenTransition
  | cancellationForbidden (type : event.type = .orderCancelled)
      (closed : acceptedOf .orderCancelled prior ≠ [] ∨ captures prior ≠ []) :
      Grounds prior event .forbiddenTransition
  | refundForbidden (type : event.type = .refundIssued) (uncaptured : captures prior = []) :
      Grounds prior event .forbiddenTransition
  | paymentAmountRequired (type : event.type = .paymentCaptured)
      (missing : readPositiveAmountMinor event.payload "amount" = none) : Grounds prior event .paymentAmountRequired
  | paymentAlreadyCaptured (type : event.type = .paymentCaptured) (captured : captures prior ≠ []) :
      Grounds prior event .paymentAlreadyCaptured
  | refundAmountRequired (type : event.type = .refundIssued) (missing : readRefundAmountMinor event.payload = none) :
      Grounds prior event .refundAmountRequired
  /-- The refunds accepted so far leave less than this one asks for. -/
  | refundExceedsCaptured (type : event.type = .refundIssued) {capture : LogEntry} {amountMinor capturedMinor : ℤ}
      (captured : capture ∈ captures prior)
      (read : readPositiveAmountMinor capture.2.payload "amount" = some capturedMinor)
      (asked : readRefundAmountMinor event.payload = some amountMinor)
      (exceeds : capturedMinor < ((refunds prior).map refundAmount).sum + amountMinor) :
      Grounds prior event .refundExceedsCaptured
  /-- The status was moved by an event that is at least as new. -/
  | obsoleteEvent (type : event.type = .paymentCaptured ∨ event.type = .orderCancelled)
      (newer : ∃ entry ∈ statusMoves prior, event.timestamp ≤ entry.2.timestamp) :
      Grounds prior event .obsoleteEvent

/-! ## What a log shows of its order -/

/-- The log and the view it leads to, as far as grounds go. -/
structure Shows (orderId : String) (log : List LogEntry) (view : OrderView) : Prop where
  balanced : ∀ order, view.order = some order → Balanced order
  tallied : Tallied log view
  stamped : Stamped orderId log view
  amount : Registered amountRegister orderId log view
  currency : Registered currencyRegister orderId log view
  cancelled : acceptedOf .orderCancelled log ≠ [] ↔ ∃ order, view.order = some order ∧ order.status = .cancelled

variable {orderId : String} {log : List LogEntry} {view : OrderView} {event : ValidOrderEvent} {now : Time}
  {order : OrderEntity} {reasonCode : ReasonCode}

theorem acceptedOf_other {type : SupportedEventType} {entry : LogEntry}
    (other : entry.1.decision = .accepted → entry.2.type ≠ type) :
    acceptedOf type (log ++ [entry]) = acceptedOf type log := by
  rw [acceptedOf_append, if_neg fun counted => other counted.1 counted.2, List.append_nil]

/-- An order is cancelled exactly when a cancellation was accepted. -/
theorem cancelled_ledger (ledger : Ledger orderId log view) :
    acceptedOf .orderCancelled log ≠ [] ↔ ∃ order, view.order = some order ∧ order.status = .cancelled := by
  induction ledger with
  | opened => simp [acceptedOf, OrderView.absent]
  | passed _ _ passed ih =>
    rw [acceptedOf_other fun accepted => ?_]
    · exact ih
    · rcases passed with duplicate | failed
      · cases duplicate.symm.trans accepted
      · cases failed.symm.trans accepted
  | expired _ _ _ rejected ih | refused _ _ _ rejected ih =>
    rw [acceptedOf_other fun accepted => by cases rejected.symm.trans accepted]
    exact ih
  | applied _ _ accepts records ih =>
    have verdict := records.verdict
    cases accepts with
    | created absent type =>
      rw [acceptedOf_other fun _ => by simp [type], ih, absent]
      simp [OrderView.apply, creation, Application.accepted, OrderCreationApplication.createdOrder]
    | updated present type =>
      rw [acceptedOf_other fun _ => by simp [type], ih, present]
      simp [OrderView.apply, OrderEntity.overwrite]
    | captured present type open' =>
      rw [acceptedOf_other fun _ => by simp [type], ih, present]
      simp [OrderView.apply, Application.accepted, open']
    | cancelled present type =>
      rw [acceptedOf_append, if_pos ⟨verdict, type⟩]
      simp [OrderView.apply, Application.accepted]
    | refunded present type captured =>
      rw [acceptedOf_other fun _ => by simp [type], ih, present]
      simp only [OrderView.apply, Application.accepted, OrderLifecycleApplication.refundStatus]
      split <;> simp [captured.2]

theorem shows_of_ledger (ledger : Ledger orderId log view) (stamped : Stamped orderId log view) :
    Shows orderId log view :=
  ⟨balanced_history (history_of_ledger ledger), tallied_ledger ledger, stamped, registered_ledger _ ledger,
    registered_ledger _ ledger, cancelled_ledger ledger⟩

namespace Shows

theorem created (shows : Shows orderId log view) : view.order.isSome ↔ ∃ entry ∈ log, IsCreation entry :=
  shows.amount.created

/-- A payment was captured exactly when the order has one. -/
theorem captured (shows : Shows orderId log view) (present : view.order = some order) :
    captures log ≠ [] ↔ 0 < order.paidAmountMinor := by
  have tallied := shows.tallied.captured
  rw [present] at tallied
  rcases tallied with ⟨none, unpaid⟩ | ⟨entry, one, carried⟩
  · have unpaid : order.paidAmountMinor = 0 := unpaid
    simp [none, unpaid]
  · have positive : 0 < order.paidAmountMinor := readPositiveAmountMinor_pos carried
    simp [one, positive]

/-- The captured payment is what the order has been paid, and the accepted
refunds are what was paid back. -/
theorem covers (shows : Shows orderId log view) (present : view.order = some order) {capture : LogEntry}
    (captured : capture ∈ captures log) :
    readPositiveAmountMinor capture.2.payload "amount" = some order.paidAmountMinor ∧
      order.refundedAmountMinor = ((refunds log).map refundAmount).sum := by
  have refunded := shows.tallied.refunded
  have tallied := shows.tallied.captured
  rw [present] at refunded tallied
  rcases tallied with ⟨none, -⟩ | ⟨only, one, carried⟩
  · rw [none] at captured
    cases captured
  · rw [one, List.mem_singleton] at captured
    subst captured
    exact ⟨carried, refunded⟩

/-- And has one exactly when it is neither new nor cancelled. -/
theorem refundable (shows : Shows orderId log view) (present : view.order = some order) :
    captures log ≠ [] ↔ order.status ≠ .created ∧ order.status ≠ .cancelled := by
  rw [shows.captured present]
  obtain ⟨nonneg, covered, allowed⟩ := shows.balanced order present
  cases status : order.status <;> simp only [status] at allowed <;> simp <;> omega

theorem isFresh_iff (shows : Shows orderId log view) :
    isFresh (view.version .status) event.timestamp = true ↔
      ∀ entry ∈ statusMoves log, entry.2.timestamp < event.timestamp := by
  rw [isFresh_status shows.stamped, takes_winner]
  exact List.forall_mem_map

/-- A field takes nothing of an update exactly when what it offers was overtaken. -/
theorem overtaken {α : Type} {r : Register α} (registered : Registered r orderId log view)
    (type : event.type = .orderUpdated) :
    fresh r.value (view.version r.field) event = none ↔ Overtaken r log event := by
  rw [fresh, isFresh_version registered, offered, if_pos (Or.inr type), Overtaken]
  have newer := @takes_winner _ _ _ (contributions r log) event.timestamp
  cases carried : r.value event.payload with
  | none => simp
  | some value =>
    simp only [Option.isSome_some, forall_const]
    by_cases takes' : takes (winner (contributions r log)) event.timestamp = true
    · simp only [takes', ↓reduceIte, reduceCtorEq, false_iff, not_exists, not_and, not_le]
      exact newer.mp takes'
    · simp only [takes', Bool.false_eq_true, ↓reduceIte, true_iff]
      rw [newer] at takes'
      push Not at takes'
      exact takes'

theorem overtaken_update (shows : Shows orderId log view) (type : event.type = .orderUpdated) :
    freshAmount view event = none ∧ freshCurrency view event = none ↔
      Overtaken amountRegister log event ∧ Overtaken currencyRegister log event := by
  rw [← overtaken shows.amount type, ← overtaken shows.currency type, ← fresh_amount type, ← fresh_currency type]
  rfl

end Shows

/-! ## Verdicts and grounds -/

theorem grounds_of_status (shows : Shows orderId log view) {toStatus : OrderStatus} {changedFields : JsonObject}
    {reasonMessage : String} {skippedFields : JsonObject}
    (type : event.type = .paymentCaptured ∨ event.type = .orderCancelled)
    (judged : judgeStatusChange view order event now toStatus changedFields =
      .rejected reasonCode reasonMessage skippedFields) : Grounds log event reasonCode := by
  unfold judgeStatusChange at judged
  split at judged
  · cases judged
  · rename_i stale
    rw [shows.isFresh_iff] at stale
    push Not at stale
    cases judged
    exact .obsoleteEvent type stale

theorem grounds_of_update (shows : Shows orderId log view) {reasonMessage : String} {skippedFields : JsonObject}
    (present : view.order = some order) (type : event.type = .orderUpdated)
    (judged : judge view event now = .rejected reasonCode reasonMessage skippedFields) :
    Grounds log event reasonCode := by
  obtain ⟨amount, currency⟩ := (shows.overtaken_update type).mp ((refusal_of_judge judged).unapplied type)
  simp only [judge, present, type, judgeUpdate] at judged
  split at judged
  · cases judged
    exact .noApplicableChanges type amount currency
  · cases judged

theorem grounds_of_capture (shows : Shows orderId log view) {reasonMessage : String} {skippedFields : JsonObject}
    (present : view.order = some order) (type : event.type = .paymentCaptured)
    (judged : judge view event now = .rejected reasonCode reasonMessage skippedFields) :
    Grounds log event reasonCode := by
  simp only [judge, present, type] at judged
  split at judged
  · rename_i cancelled
    cases judged
    exact .paymentForbidden type (shows.cancelled.mpr ⟨order, present, cancelled⟩)
  · unfold judgeCapture at judged
    split at judged
    · rename_i missing
      cases judged
      exact .paymentAmountRequired type missing
    · split at judged
      · rename_i paid
        cases judged
        exact .paymentAlreadyCaptured type ((shows.captured present).mpr paid)
      · exact grounds_of_status shows (Or.inl type) judged

theorem grounds_of_cancel (shows : Shows orderId log view) {reasonMessage : String} {skippedFields : JsonObject}
    (present : view.order = some order) (type : event.type = .orderCancelled)
    (judged : judge view event now = .rejected reasonCode reasonMessage skippedFields) :
    Grounds log event reasonCode := by
  simp only [judge, present, type] at judged
  split at judged
  · exact grounds_of_status shows (Or.inr type) judged
  · rename_i closed
    cases judged
    refine .cancellationForbidden type ?_
    by_cases cancelled : order.status = .cancelled
    · exact Or.inl (shows.cancelled.mpr ⟨order, present, cancelled⟩)
    · exact Or.inr ((shows.refundable present).mpr ⟨closed, cancelled⟩)

theorem grounds_of_refund (shows : Shows orderId log view) {reasonMessage : String} {skippedFields : JsonObject}
    (present : view.order = some order) (type : event.type = .refundIssued)
    (judged : judge view event now = .rejected reasonCode reasonMessage skippedFields) :
    Grounds log event reasonCode := by
  have refundable := shows.refundable present
  simp only [judge, present, type] at judged
  split at judged
  · rename_i unpaid
    cases judged
    refine .refundForbidden type ?_
    by_contra captured
    obtain ⟨created, cancelled⟩ := refundable.mp captured
    exact unpaid.elim created cancelled
  · rename_i paid
    unfold judgeRefund at judged
    split at judged
    · rename_i missing
      cases judged
      exact .refundAmountRequired type missing
    · rename_i amountMinor asked
      split at judged
      · rename_i exceeds
        cases judged
        obtain ⟨capture, captured⟩ := List.exists_mem_of_ne_nil _ (refundable.mpr (not_or.mp paid))
        obtain ⟨read, refunded⟩ := shows.covers present captured
        unfold OrderLifecycleApplication.refundableAmountMinor at exceeds
        refine .refundExceedsCaptured type captured read asked ?_
        omega
      · cases judged

/-- A rejection names grounds. -/
theorem grounds_of_judge (shows : Shows orderId log view) {reasonMessage : String} {skippedFields : JsonObject}
    (judged : judge view event now = .rejected reasonCode reasonMessage skippedFields) :
    Grounds log event reasonCode := by
  obtain ⟨order, present⟩ := Option.isSome_iff_exists.mp (refusal_of_judge judged).present
  cases type : event.type with
  | orderCreated =>
    simp only [judge, present, type] at judged
    cases judged
    exact .orderAlreadyExists type (shows.created.mp (by rw [present]; rfl))
  | orderUpdated => exact grounds_of_update shows present type judged
  | paymentCaptured => exact grounds_of_capture shows present type judged
  | orderCancelled => exact grounds_of_cancel shows present type judged
  | refundIssued => exact grounds_of_refund shows present type judged

/-! ## Acceptances and grounds -/

/-- An event that finds its order does not wait for it. -/
theorem Shows.not_uncreated (shows : Shows orderId log view) (present : view.order = some order) :
    ¬ ∀ entry ∈ log, ¬ IsCreation entry := by
  obtain ⟨entry, member, creation⟩ := shows.created.mp (by rw [present]; rfl)
  exact fun uncreated => uncreated entry member creation

theorem ungrounded_creation (shows : Shows orderId log view) (absent : view.order = none)
    (type : event.type = .orderCreated) : ¬ Grounds log event reasonCode := by
  intro grounds
  cases grounds with
  | orderNotReady waits => exact waits type
  | orderAlreadyExists _ created =>
    have present := shows.created.mpr created
    rw [absent] at present
    cases present
  | obsoleteEvent type' => rcases type' with type' | type' <;> cases type.symm.trans type'
  | noApplicableChanges type' | paymentForbidden type' | cancellationForbidden type' | refundForbidden type'
  | paymentAmountRequired type' | paymentAlreadyCaptured type' | refundAmountRequired type'
  | refundExceedsCaptured type' => cases type.symm.trans type'

theorem ungrounded_update (shows : Shows orderId log view) (present : view.order = some order)
    (type : event.type = .orderUpdated)
    (applicable : (freshAmount view event).isSome ∨ (freshCurrency view event).isSome) :
    ¬ Grounds log event reasonCode := by
  intro grounds
  cases grounds with
  | orderNotReady _ uncreated => exact shows.not_uncreated present uncreated
  | noApplicableChanges _ amount currency =>
    obtain ⟨noAmount, noCurrency⟩ := (shows.overtaken_update type).mpr ⟨amount, currency⟩
    rw [noAmount, noCurrency] at applicable
    simp at applicable
  | obsoleteEvent type' => rcases type' with type' | type' <;> cases type.symm.trans type'
  | orderAlreadyExists type' | paymentForbidden type' | cancellationForbidden type' | refundForbidden type'
  | paymentAmountRequired type' | paymentAlreadyCaptured type' | refundAmountRequired type'
  | refundExceedsCaptured type' => cases type.symm.trans type'

theorem ungrounded_capture (shows : Shows orderId log view) (present : view.order = some order)
    (type : event.type = .paymentCaptured) (open' : order.status ≠ .cancelled) {amountMinor : ℤ}
    (read : readPositiveAmountMinor event.payload "amount" = some amountMinor) (unpaid : order.paidAmountMinor ≤ 0)
    (newest : ∀ entry ∈ statusMoves log, entry.2.timestamp < event.timestamp) : ¬ Grounds log event reasonCode := by
  intro grounds
  cases grounds with
  | orderNotReady _ uncreated => exact shows.not_uncreated present uncreated
  | paymentForbidden _ cancelled =>
    obtain ⟨order', present', cancelled⟩ := shows.cancelled.mp cancelled
    obtain rfl := Option.some.inj (present.symm.trans present')
    exact open' cancelled
  | paymentAmountRequired _ missing => cases missing.symm.trans read
  | paymentAlreadyCaptured _ captured => exact absurd ((shows.captured present).mp captured) (not_lt.mpr unpaid)
  | obsoleteEvent _ newer =>
    obtain ⟨entry, member, newer⟩ := newer
    exact absurd (newest entry member) (not_lt.mpr newer)
  | orderAlreadyExists type' | noApplicableChanges type' | cancellationForbidden type' | refundForbidden type'
  | refundAmountRequired type' | refundExceedsCaptured type' => cases type.symm.trans type'

theorem ungrounded_cancel (shows : Shows orderId log view) (present : view.order = some order)
    (type : event.type = .orderCancelled) (open' : order.status = .created)
    (newest : ∀ entry ∈ statusMoves log, entry.2.timestamp < event.timestamp) : ¬ Grounds log event reasonCode := by
  intro grounds
  cases grounds with
  | orderNotReady _ uncreated => exact shows.not_uncreated present uncreated
  | cancellationForbidden _ closed =>
    rcases closed with cancelled | captured
    · obtain ⟨order', present', cancelled⟩ := shows.cancelled.mp cancelled
      obtain rfl := Option.some.inj (present.symm.trans present')
      cases open'.symm.trans cancelled
    · exact ((shows.refundable present).mp captured).1 open'
  | obsoleteEvent _ newer =>
    obtain ⟨entry, member, newer⟩ := newer
    exact absurd (newest entry member) (not_lt.mpr newer)
  | orderAlreadyExists type' | noApplicableChanges type' | paymentForbidden type' | refundForbidden type'
  | paymentAmountRequired type' | paymentAlreadyCaptured type' | refundAmountRequired type'
  | refundExceedsCaptured type' => cases type.symm.trans type'

theorem ungrounded_refund (shows : Shows orderId log view) (present : view.order = some order)
    (type : event.type = .refundIssued) (captured : order.status ≠ .created ∧ order.status ≠ .cancelled)
    {amountMinor : ℤ} (read : readRefundAmountMinor event.payload = some amountMinor)
    (covered : order.refundedAmountMinor + amountMinor ≤ order.paidAmountMinor) : ¬ Grounds log event reasonCode := by
  intro grounds
  cases grounds with
  | orderNotReady _ uncreated => exact shows.not_uncreated present uncreated
  | refundForbidden _ uncaptured => exact (shows.refundable present).mpr captured uncaptured
  | refundAmountRequired _ missing => cases missing.symm.trans read
  | @refundExceedsCaptured _ capture asked capturedMinor member paid asks exceeds =>
    obtain rfl := Option.some.inj (read.symm.trans asks)
    obtain ⟨covers, refunded⟩ := shows.covers present member
    obtain rfl := Option.some.inj (paid.symm.trans covers)
    omega
  | obsoleteEvent type' => rcases type' with type' | type' <;> cases type.symm.trans type'
  | orderAlreadyExists type' | noApplicableChanges type' | paymentForbidden type' | cancellationForbidden type'
  | paymentAmountRequired type' | paymentAlreadyCaptured type' => cases type.symm.trans type'

/-- Nothing speaks against an event that is accepted. -/
theorem ungrounded_of_accepts (shows : Shows orderId log view) {application : Application}
    (judged : judge view event now = .applied application) : ¬ Grounds log event reasonCode := by
  have gated := fresh_of_judge judged
  rw [shows.isFresh_iff] at gated
  cases accepts_of_judge judged with
  | created absent type => exact ungrounded_creation shows absent type
  | updated present type _ applicable => exact ungrounded_update shows present type applicable
  | captured present type open' read unpaid =>
    exact ungrounded_capture shows present type open' read unpaid (gated (Or.inl type))
  | cancelled present type open' => exact ungrounded_cancel shows present type open' (gated (Or.inr type))
  | refunded present type captured read covered => exact ungrounded_refund shows present type captured read covered

/-! ## Every store -/

/-- Of an entry decided on its merits after a part of the log: it was rejected
exactly when there were grounds, and for one of them. -/
structure Reasoned (prior : List LogEntry) (entry : LogEntry) : Prop where
  rejected_iff : entry.1.decision = .rejected ↔ ∃ reasonCode, Grounds prior entry.2 reasonCode
  named : entry.1.decision = .rejected → Grounds prior entry.2 entry.1.reasonCode

/-- Every ruling of a log was reasoned by the log before it. -/
def AllReasoned (log : List LogEntry) : Prop :=
  ∀ prior entry later, log = prior ++ entry :: later → OnMerits entry → Reasoned prior entry

theorem allReasoned_snoc {entry : LogEntry} (reasoned : AllReasoned log) (last : OnMerits entry → Reasoned log entry) :
    AllReasoned (log ++ [entry]) := by
  intro prior entry' later cut merits
  rcases List.eq_nil_or_concat later with rfl | ⟨between, final, rfl⟩
  · obtain ⟨rfl, same⟩ := List.append_inj' cut rfl
    obtain rfl := List.singleton_inj.mp same
    exact last merits
  · rw [List.concat_eq_append, ← List.cons_append, ← List.append_assoc] at cut
    exact reasoned prior entry' between (List.append_inj' cut rfl).1 merits

/-- The ruling on an event is reasoned by what the log shows. -/
theorem reasoned_of_rejudge (shows : Shows orderId log view) {entry : LogEntry} {view' : OrderView}
    (ruled : rejudge view.untimed entry.2 = (view', entry.1.ruling)) : Reasoned log entry := by
  rw [rejudge_untimed view entry.2 0] at ruled
  obtain ⟨-, ruled⟩ := Prod.mk.inj ruled
  have decision := congrArg Ruling.decision ruled
  have reason := congrArg Ruling.reasonCode ruled
  cases judged : judge view entry.2 0 with
  | notReady =>
    rw [judged] at decision reason
    obtain ⟨absent, waits⟩ := judge_notReady.mp judged
    have grounds : Grounds log entry.2 .orderNotReady :=
      .orderNotReady waits (uncreated_of_absent shows.amount absent)
    have reason : ReasonCode.orderNotReady = entry.1.reasonCode := reason
    exact ⟨⟨fun _ => ⟨_, grounds⟩, fun _ => decision.symm⟩, fun _ => reason ▸ grounds⟩
  | rejected reasonCode reasonMessage skippedFields =>
    rw [judged] at decision reason
    have grounds := grounds_of_judge shows judged
    have reason : reasonCode = entry.1.reasonCode := reason
    exact ⟨⟨fun _ => ⟨_, grounds⟩, fun _ => decision.symm⟩, fun _ => reason ▸ grounds⟩
  | applied application =>
    rw [judged] at decision
    have decision : application.decision = entry.1.decision := decision
    have accepted : entry.1.decision ≠ .rejected := by
      rcases (accepts_of_judge judged).decision with accepted | merged
      · simp [← decision, accepted]
      · simp [← decision, merged]
    refine ⟨⟨fun rejected => absurd rejected accepted, ?_⟩, fun rejected => absurd rejected accepted⟩
    rintro ⟨reasonCode, grounds⟩
    exact absurd grounds (ungrounded_of_accepts shows judged)

/-- **Rejections have grounds**: in every reachable store, each event decided on
its merits was rejected exactly when the log of its order, as it stood, spoke
against it, and for a reason that it gave. -/
theorem rejections_have_grounds {sys : System} (reachable : Reachable sys) (orderId : String) :
    AllReasoned (sys.store.orderLog orderId) := by
  suffices kept : Ledger orderId (sys.store.orderLog orderId) (sys.store.view orderId) ∧
      Stamped orderId (sys.store.orderLog orderId) (sys.store.view orderId) ∧
      AllReasoned (sys.store.orderLog orderId) from kept.2.2
  apply reachable_invariant (fun s => Ledger orderId (s.orderLog orderId) (s.view orderId) ∧
    Stamped orderId (s.orderLog orderId) (s.view orderId) ∧ AllReasoned (s.orderLog orderId)) reachable
  · intro now
    refine ⟨.opened, ⟨rfl, Iff.rfl⟩, ?_⟩
    intro prior entry later cut
    have cut : [] = prior ++ entry :: later := cut
    simp at cut
  · intro s events receivedAt consistent prior
    rw [orderLog_enqueueBatch consistent, view_enqueueBatch]
    exact prior
  · rintro s delivery host s' call ⟨ledger, stamped, reasoned⟩
    refine ⟨ledger_call call ledger, stamped_call call stamped, ?_⟩
    cases enters_call call orderId with
    | still log =>
      rw [log]
      exact reasoned
    | passed entry unjudged log =>
      rw [log]
      exact allReasoned_snoc reasoned fun merits => absurd merits unjudged
    | judged entry merits log ruled =>
      rw [log]
      exact allReasoned_snoc reasoned fun _ => reasoned_of_rejudge (shows_of_ledger ledger stamped) ruled

/-- A paid order meets a second payment, a cancellation, a refund of more than
was paid, and an update older than the order. -/
def disputedActions : List Action :=
  [.enqueueBatch
      [postedItem "c" "o" .orderCreated 2 (amountPayload "amount" 50),
        postedItem "u" "o" .orderUpdated 1 (amountPayload "amount" 60),
        postedItem "p" "o" .paymentCaptured 3 (amountPayload "amount" 50),
        postedItem "q" "o" .paymentCaptured 4 (amountPayload "amount" 50),
        postedItem "x" "o" .orderCancelled 5 [],
        postedItem "r" "o" .refundIssued 6 (amountPayload "refundAmount" 80)] 0,
    .poll, .read 0 0] ++ List.replicate 6 (.process 0 (stoppedAt 0) none none) ++
    [.finish 0, .poll, .read 0 20000, .process 0 (stoppedAt 20000) none none]

def disputedSystem : System := (execute step (.started 0) disputedActions).get (by decide +kernel)

example : (disputedSystem.store.eventDecisions.rows.map (·.reasonCode)) =
    [.applied, .applied, .paymentAlreadyCaptured, .forbiddenTransition, .refundExceedsCaptured,
      .noApplicableChanges] := by decide +kernel

theorem rejections_have_grounds_disputed : AllReasoned (disputedSystem.store.orderLog "o") :=
  rejections_have_grounds (reachable_of_run (run_of_enabled (by decide +kernel))) "o"

end EventEngine.Justification
