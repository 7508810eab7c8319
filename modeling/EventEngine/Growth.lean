import EventEngine.Freshness
import EventEngine.Projections
import EventEngine.Statistics
import EventEngine.Transitions
import Mathlib.Logic.Relation

/-! Nothing is taken back. From one moment of a run to any later one the store
only grows: the audit log is continued, claims and decided deliveries stay, an
order moves along the state machine and its versions forward in event time. -/
namespace EventEngine.Growth
open EventEngine Relational Atomicity Transitions

/-! ## What can become of the rows -/

/-- Some documented transition leads from one status to the other. -/
def Leads (before after : OrderStatus) : Prop := ∃ type, documented type before after

/-- What can become of an order. -/
structure OrderGrows (order order' : OrderEntity) : Prop where
  orderId : order'.orderId = order.orderId
  createdAt : order'.createdAt = order.createdAt
  status : Relation.ReflTransGen Leads order.status order'.status
  /-- A captured payment stays as it was captured. -/
  paid : order.paidAmountMinor = 0 ∨ order'.paidAmountMinor = order.paidAmountMinor
  refunded : order.refundedAmountMinor ≤ order'.refundedAmountMinor
  /-- A set-like field is never cleared. -/
  amount : order.amountMinor.isSome → order'.amountMinor.isSome
  currency : order.currency.isSome → order'.currency.isSome

/-- What can become of a version: it is replaced by a strictly newer one. -/
def VersionGrows (version version' : OrderFieldVersionEntity) : Prop :=
  version' = version ∨ version.lastEventTimestamp < version'.lastEventTimestamp

structure StatsGrow (stats stats' : EngineStatsEntity) : Prop where
  valid : stats.validEventsCount ≤ stats'.validEventsCount
  rejected : stats.rejectedEventsCount ≤ stats'.rejectedEventsCount
  duplicate : stats.duplicateEventsCount ≤ stats'.duplicateEventsCount
  processed : stats.processedEventsCount ≤ stats'.processedEventsCount
  time : stats.totalProcessingTimeMs ≤ stats'.totalProcessingTimeMs

/-- The second store is a later one. -/
structure Grows (s t : Store) : Prop where
  deliveries : KeepsDeliveries s t
  decided : KeepsDecided s t
  log : s.eventDecisions.rows <+: t.eventDecisions.rows
  keys : ∀ eventId key, s.processedEventKeys.find eventId = some key → t.processedEventKeys.find eventId = some key
  orders : ∀ orderId order, s.orders.find orderId = some order →
    ∃ order', t.orders.find orderId = some order' ∧ OrderGrows order order'
  versions : ∀ orderId fieldName version, s.orderFieldVersions.find (orderId, fieldName) = some version →
    ∃ version', t.orderFieldVersions.find (orderId, fieldName) = some version' ∧ VersionGrows version version'
  stats : ∀ stats, s.stats = some stats → ∃ stats', t.stats = some stats' ∧ StatsGrow stats stats'

theorem OrderGrows.refl (order : OrderEntity) : OrderGrows order order :=
  ⟨rfl, rfl, .refl, Or.inr rfl, le_rfl, id, id⟩

theorem OrderGrows.trans {first second third : OrderEntity} (former : OrderGrows first second)
    (latter : OrderGrows second third) : OrderGrows first third where
  orderId := latter.orderId.trans former.orderId
  createdAt := latter.createdAt.trans former.createdAt
  status := former.status.trans latter.status
  paid := by
    rcases former.paid with unpaid | kept
    · exact Or.inl unpaid
    · rw [← kept]
      exact latter.paid
  refunded := former.refunded.trans latter.refunded
  amount := latter.amount ∘ former.amount
  currency := latter.currency ∘ former.currency

theorem VersionGrows.trans {first second third : OrderFieldVersionEntity} (former : VersionGrows first second)
    (latter : VersionGrows second third) : VersionGrows first third := by
  rcases former with rfl | newer
  · exact latter
  · rcases latter with rfl | newer'
    · exact Or.inr newer
    · exact Or.inr (newer.trans newer')

theorem StatsGrow.refl (stats : EngineStatsEntity) : StatsGrow stats stats := ⟨le_rfl, le_rfl, le_rfl, le_rfl, le_rfl⟩

theorem StatsGrow.trans {first second third : EngineStatsEntity} (former : StatsGrow first second)
    (latter : StatsGrow second third) : StatsGrow first third :=
  ⟨former.valid.trans latter.valid, former.rejected.trans latter.rejected,
    former.duplicate.trans latter.duplicate, former.processed.trans latter.processed,
    former.time.trans latter.time⟩

theorem Grows.refl (s : Store) : Grows s s where
  deliveries := fun _ row found => ⟨row, found, .refl row⟩
  decided := fun _ _ _ found decided => ⟨found, decided⟩
  log := List.prefix_rfl
  keys := fun _ _ held => held
  orders := fun _ order found => ⟨order, found, .refl order⟩
  versions := fun _ _ version found => ⟨version, found, Or.inl rfl⟩
  stats := fun stats kept => ⟨stats, kept, .refl stats⟩

theorem Grows.trans {s t u : Store} (former : Grows s t) (latter : Grows t u) : Grows s u where
  deliveries := by
    intro id row found
    obtain ⟨row', found', same⟩ := former.deliveries id row found
    obtain ⟨row'', found'', same'⟩ := latter.deliveries id row' found'
    exact ⟨row'', found'', same.trans same'⟩
  decided := by
    intro id row decision found decided
    obtain ⟨found', decided'⟩ := former.decided id row decision found decided
    exact latter.decided id row decision found' decided'
  log := former.log.trans latter.log
  keys := fun eventId key held => latter.keys eventId key (former.keys eventId key held)
  orders := by
    intro orderId order found
    obtain ⟨order', found', grows⟩ := former.orders orderId order found
    obtain ⟨order'', found'', grows'⟩ := latter.orders orderId order' found'
    exact ⟨order'', found'', grows.trans grows'⟩
  versions := by
    intro orderId fieldName version found
    obtain ⟨version', found', grows⟩ := former.versions orderId fieldName version found
    obtain ⟨version'', found'', grows'⟩ := latter.versions orderId fieldName version' found'
    exact ⟨version'', found'', grows.trans grows'⟩
  stats := by
    intro stats kept
    obtain ⟨stats', kept', grows⟩ := former.stats stats kept
    obtain ⟨stats'', kept'', grows'⟩ := latter.stats stats' kept'
    exact ⟨stats'', kept'', grows.trans grows'⟩

/-! ## One application -/

variable {view : OrderView} {event : ValidOrderEvent} {now : Time} {application : Application}

theorem orderGrows_of_accepts {order : OrderEntity} (accepts : Accepts view event now application)
    (present : view.order = some order) (balanced : Money.Balanced order) : OrderGrows order application.order := by
  have step : Leads order.status application.order.status :=
    ⟨event.type, accepts.status ▸ documented_of_accepts accepts present balanced⟩
  have status : Relation.ReflTransGen Leads order.status application.order.status := .single step
  cases accepts with
  | created absent =>
    rw [absent] at present
    cases present
  | updated present' =>
    obtain rfl := Option.some.inj (present.symm.trans present')
    refine ⟨rfl, rfl, status, Or.inr rfl, le_rfl, ?_, ?_⟩
    all_goals
      intro held
      simp [OrderEntity.overwrite, held]
  | captured present' _ _ _ unpaid =>
    obtain rfl := Option.some.inj (present.symm.trans present')
    refine ⟨rfl, rfl, status, Or.inl ?_, le_rfl, id, id⟩
    exact le_antisymm unpaid (balanced.1.trans balanced.2.1)
  | cancelled present' =>
    obtain rfl := Option.some.inj (present.symm.trans present')
    exact ⟨rfl, rfl, status, Or.inr rfl, le_rfl, id, id⟩
  | refunded present' _ _ read =>
    obtain rfl := Option.some.inj (present.symm.trans present')
    have positive := readRefundAmountMinor_pos read
    refine ⟨rfl, rfl, status, Or.inr rfl, ?_, id, id⟩
    simp only [Application.accepted]
    omega

/-- An application stamps only fields for which its event is fresh. -/
theorem fresh_of_stamped (judged : judge view event now = .applied application)
    (unstamped : ∀ fieldName, (view.version fieldName).isSome → view.order.isSome) :
    ∀ fieldName ∈ application.stamped, isFresh (view.version fieldName) event.timestamp = true := by
  have gated := Freshness.fresh_of_judge judged
  cases accepts_of_judge judged with
  | created absent =>
    intro fieldName _
    have none : view.version fieldName = none := by
      rw [← Option.not_isSome_iff_eq_none]
      intro stamped
      have present := unstamped fieldName stamped
      rw [absent] at present
      cases present
    rw [none]
    rfl
  | updated =>
    intro fieldName member
    cases fieldName with
    | status => simp at member
    | amountMinor =>
      by_contra stale
      simp [freshAmount, stale] at member
    | currency =>
      by_contra stale
      simp [freshCurrency, stale] at member
  | captured _ type =>
    intro fieldName member
    obtain rfl := List.mem_singleton.mp member
    exact gated (Or.inl type)
  | cancelled _ type =>
    intro fieldName member
    obtain rfl := List.mem_singleton.mp member
    exact gated (Or.inr type)
  | refunded =>
    intro fieldName member
    simp only [Application.accepted] at member
    split at member
    · obtain rfl := List.mem_singleton.mp member
      assumption
    · cases member

/-! ## One step -/

variable {s s' : Store} {delivery : RawIncomingEventEntity} {host : Host}

/-- Every order of the store has a history. -/
def Historied (s : Store) : Prop := ∀ orderId, ∃ log, History orderId log (s.view orderId)

theorem historied_reachable {sys : System} (reachable : Reachable sys) : Historied sys.store :=
  fun orderId => ⟨_, history_reachable reachable orderId⟩

theorem Historied.balanced (historied : Historied s) {orderId : String} {order : OrderEntity}
    (stored : s.orders.find orderId = some order) : Money.Balanced order := by
  obtain ⟨log, history⟩ := historied orderId
  exact Money.balanced_history history order stored

theorem grows_enqueueBatch (events : List JsonValue) (receivedAt : Time) : Grows s (enqueueBatch s events receivedAt) :=
  { Grows.refl s with
    deliveries := fun _ row found => ⟨row, findRow_enqueueBatch found, .refl row⟩
    decided := fun _ _ _ found decided => ⟨findRow_enqueueBatch found, decided⟩ }

theorem statsGrow_counted (stats : EngineStatsEntity) (decision : EngineDecision) {processingTimeMs : ℤ}
    (nonneg : 0 ≤ processingTimeMs) (updatedAt : Time) :
    StatsGrow stats (stats.counted decision processingTimeMs updatedAt) := by
  cases decision <;> refine ⟨?_, ?_, ?_, ?_, ?_⟩ <;> simp [EngineStatsEntity.counted, nonneg]

/-- A call counts at most one decision, and the time it took. -/
theorem stats_outcome (outcome : Outcome s delivery host s') :
    s'.stats = s.stats ∨ ∃ decision,
      s'.stats = s.stats.map (·.counted decision host.processingTimeMs host.now) := by
  cases outcome with
  | retried => exact Or.inl rfl
  | failed => exact Or.inr ⟨_, rfl⟩
  | committed committed =>
    cases committed with
    | deferred => exact Or.inl rfl
    | invalid | duplicate | expired | rejected | applied => exact Or.inr ⟨_, rfl⟩

theorem log_outcome (outcome : Outcome s delivery host s') : s.eventDecisions.rows <+: s'.eventDecisions.rows := by
  rcases Statistics.books_outcome outcome with ⟨same, -⟩ | ⟨record, logged, -⟩
  · exact ⟨[], by rw [List.append_nil, same]⟩
  · rw [logged]
    exact List.prefix_append _ _

theorem decided_call (call : Call s delivery host s') : KeepsDecided s s' := by
  intro id row decision found decided
  have other : id ≠ delivery.id := by
    rintro rfl
    rw [call.undecided] at decided
    cases decided
  rw [findRow_outcome call.outcome other, decisionOf_outcome call.outcome other]
  exact ⟨found, decided⟩

/-- What a call does to one order and its versions. -/
theorem order_call (historied : Historied s) (call : Call s delivery host s') (orderId : String) :
    s'.view orderId = s.view orderId ∨ ∃ (event : ValidOrderEvent) (application : Application),
      (s'.view orderId).order = some application.order ∧
      (∀ order, (s.view orderId).order = some order → OrderGrows order application.order) ∧
      ∀ fieldName, (s'.view orderId).version fieldName = (s.view orderId).version fieldName ∨
        (s'.view orderId).version fieldName = some (event.stamp fieldName) ∧
          isFresh ((s.view orderId).version fieldName) event.timestamp = true := by
  cases call.outcome.effect with
  | unapplied orders versions => exact Or.inl (by rw [Store.view, orders, versions, Store.view])
  | @applied event application valid judged written =>
    rw [written, view_applied judged]
    split
    · rename_i same
      subst same
      refine Or.inr ⟨event, application, rfl, ?_, fun fieldName => ?_⟩
      · exact fun order present => orderGrows_of_accepts (accepts_of_judge judged) present (historied.balanced present)
      · have fresh := fresh_of_stamped judged (unstamped_of_history (historied event.orderId).choose_spec) fieldName
        simp only [OrderView.apply]
        split
        · rename_i stamped
          exact Or.inr ⟨rfl, fresh stamped⟩
        · exact Or.inl rfl
    · exact Or.inl rfl

theorem grows_call (historied : Historied s) (call : Call s delivery host s') : Grows s s' where
  deliveries := keepsDeliveries_outcome call.outcome
  decided := decided_call call
  log := log_outcome call.outcome
  keys := fun _ _ held => Deduplication.key_kept call.outcome held
  orders := by
    intro orderId order found
    rcases order_call historied call orderId with same | ⟨event, application, written, grows, -⟩
    · exact ⟨order, (congrArg OrderView.order same).trans found, .refl order⟩
    · exact ⟨application.order, written, grows order found⟩
  versions := by
    intro orderId fieldName version found
    have found : (s.view orderId).version fieldName = some version := found
    rcases order_call historied call orderId with same | ⟨event, application, -, -, versions⟩
    · exact ⟨version, (congrFun (congrArg OrderView.version same) fieldName).trans found, Or.inl rfl⟩
    · rcases versions fieldName with kept | ⟨stamped, fresh⟩
      · exact ⟨version, kept.trans found, Or.inl rfl⟩
      · rw [found] at fresh
        exact ⟨_, stamped, Or.inr (by simpa [isFresh, ValidOrderEvent.stamp] using fresh)⟩
  stats := by
    intro stats kept
    rcases stats_outcome call.outcome with same | ⟨decision, counted⟩
    · exact ⟨stats, same.trans kept, .refl stats⟩
    · rw [kept] at counted
      exact ⟨_, counted, statsGrow_counted stats decision (le_max_right _ _) _⟩

/-! ## Runs -/

/-- **Nothing is taken back**: whatever a store of a run holds, every later store
of the run continues. -/
theorem store_grows {permitted : Action → Prop} {sys sys' : System} (reachable : Reachable sys)
    (reached : Reaches permitted sys sys') : Grows sys.store sys'.store := by
  obtain ⟨actions, allowed, run⟩ := reached
  refine @Run.relates _ _ _ _ _ _ Reachable permitted (fun before after => Grows before.store after.store) run allowed
    reachable (fun _ _ _ before _ taken => before.step taken) (fun _ => .refl _) (fun _ _ _ => .trans) ?_
  intro before action after holds _ taken
  rcases store_of_step holds.consistent taken with same | ⟨events, receivedAt, -, same⟩ | ⟨delivery, host, -, call⟩
  · rw [same]
    exact .refl _
  · rw [same]
    exact grows_enqueueBatch _ _
  · exact grows_call (historied_reachable holds) call

/-- An order that is cancelled or fully refunded is settled: neither its status
nor its money moves again. -/
theorem settled_of_grows {order order' : OrderEntity} (grows : OrderGrows order order') (balanced : Money.Balanced order)
    (balanced' : Money.Balanced order') (terminal : order.status = .cancelled ∨ order.status = .refunded) :
    order'.status = order.status ∧ order'.paidAmountMinor = order.paidAmountMinor ∧
      order'.refundedAmountMinor = order.refundedAmountMinor := by
  have kept : order'.status = order.status := by
    have path := grows.status
    generalize order'.status = status at path
    induction path with
    | refl => rfl
    | tail _ step ih =>
      obtain ⟨type, step⟩ := step
      rw [ih] at step
      exact terminal_of_documented step terminal
  have paid := grows.paid
  have refunded := grows.refunded
  obtain ⟨-, -, allowed⟩ := balanced
  obtain ⟨-, covered', allowed'⟩ := balanced'
  rw [kept] at allowed'
  rcases terminal with status | status <;> rw [status] at allowed allowed' <;> simp only at allowed allowed'
  · exact ⟨kept, by omega, by omega⟩
  · refine ⟨kept, by omega, by omega⟩

/-- **Nothing is taken back**, and what is settled stays: a cancelled or fully
refunded order keeps its status and its money. -/
theorem nothing_is_taken_back {permitted : Action → Prop} {sys sys' : System} (reachable : Reachable sys)
    (reached : Reaches permitted sys sys') :
    Grows sys.store sys'.store ∧
      ∀ orderId order, sys.store.orders.find orderId = some order →
        order.status = .cancelled ∨ order.status = .refunded →
        ∃ order', sys'.store.orders.find orderId = some order' ∧ order'.status = order.status ∧
          order'.paidAmountMinor = order.paidAmountMinor ∧
          order'.refundedAmountMinor = order.refundedAmountMinor := by
  have grows := store_grows reachable reached
  refine ⟨grows, fun orderId order stored terminal => ?_⟩
  obtain ⟨order', stored', orderGrows⟩ := grows.orders orderId order stored
  have balanced := (historied_reachable reachable).balanced stored
  have balanced' := (historied_reachable (reachable.later reached)).balanced stored'
  exact ⟨order', stored', settled_of_grows orderGrows balanced balanced' terminal⟩

/-- One order is created, another is created and cancelled, and the payment of a
third is deferred. Then an update of the first arrives, a payment of the second,
and the creation of the third. -/
def midwayActions : List Action :=
  [.enqueueBatch
      [postedItem "c" "o" .orderCreated 1 (amountPayload "amount" 50),
        postedItem "d" "x" .orderCreated 1 (amountPayload "amount" 30), postedItem "e" "x" .orderCancelled 2 [],
        postedItem "p" "y" .paymentCaptured 2 (amountPayload "amount" 40)] 0,
    .poll, .read 0 0] ++ List.replicate 4 (.process 0 (stoppedAt 0) none none) ++
    [.finish 0,
      .enqueueBatch
        [postedItem "u" "o" .orderUpdated 3 (amountPayload "amount" 60),
          postedItem "q" "x" .paymentCaptured 3 (amountPayload "amount" 30),
          postedItem "f" "y" .orderCreated 1 (amountPayload "amount" 40)] 100]

def midwaySystem : System := (execute step (.started 0) midwayActions).get (by decide +kernel)

/-- From there on. -/
def resumingActions : List Action :=
  [.poll, .read 0 20000] ++ List.replicate 4 (.process 0 (stoppedAt 20000) none none) ++ [.finish 0]

def resumedSystem : System := (execute step midwaySystem resumingActions).get (by decide +kernel)

theorem midway_reachable : Reachable midwaySystem := reachable_of_run (run_of_enabled (by decide +kernel))

theorem midway_resumed : Reaches (fun _ => True) midwaySystem resumedSystem :=
  ⟨_, fun _ _ => trivial, run_of_enabled (by decide +kernel)⟩

/-- The order that is settled midway. -/
def cancelledOrder : OrderEntity := (midwaySystem.store.orders.find "x").get (by decide +kernel)

theorem nothing_is_taken_back_resumed :
    Grows midwaySystem.store resumedSystem.store ∧
      ∃ order', resumedSystem.store.orders.find "x" = some order' ∧ order'.status = cancelledOrder.status ∧
        order'.paidAmountMinor = cancelledOrder.paidAmountMinor ∧
        order'.refundedAmountMinor = cancelledOrder.refundedAmountMinor :=
  ⟨(nothing_is_taken_back midway_reachable midway_resumed).1,
    (nothing_is_taken_back midway_reachable midway_resumed).2 "x" cancelledOrder (Option.some_get _).symm
      (Or.inl (by decide +kernel))⟩

example : midwaySystem.store.eventDecisions.rows.map (·.decision) = [.accepted, .accepted, .accepted] ∧
    resumedSystem.store.eventDecisions.rows.map (·.decision) =
      [.accepted, .accepted, .accepted, .accepted, .accepted, .accepted, .rejected] := by decide +kernel

end EventEngine.Growth
