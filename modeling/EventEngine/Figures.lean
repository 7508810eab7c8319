import EventEngine.Money
import EventEngine.Registers

/-! The figures a payload may carry. The engine bounds no amount from above, so
stored money is exact only as far as posted amounts are; and it tests signs
after rounding and, for refunds, after falling back from one field to another. -/
namespace EventEngine.Figures
open EventEngine Relational Money Registers

/-! ## Reading a figure -/

theorem readAmountMinor_of_positive {payload : JsonObject} {name : String} {amountMinor : ℤ}
    (read : readPositiveAmountMinor payload name = some amountMinor) :
    readAmountMinor payload name = some amountMinor :=
  (Option.filter_eq_some_iff.mp read).1

theorem readAmountMinor_of_nonNegative {payload : JsonObject} {name : String} {amountMinor : ℤ}
    (read : readNonNegativeAmountMinor payload name = some amountMinor) :
    readAmountMinor payload name = some amountMinor :=
  (Option.filter_eq_some_iff.mp read).1

theorem readAmountMinor_figure {payload : JsonObject} {name : String} {value : ℚ}
    (figure : payload.get name = some (.number (.finite value))) :
    readAmountMinor payload name = some (mathRound (value * 100)) := by
  rw [readAmountMinor, figure]

/-- A negative figure rounds to zero at most. -/
theorem mathRound_nonpos {value : ℚ} (negative : value < 0) : mathRound (value * 100) ≤ 0 := by
  unfold mathRound
  rw [Int.floor_le_iff]
  push_cast
  linarith

theorem readPositive_of_negative {payload : JsonObject} {name : String} {value : ℚ}
    (figure : payload.get name = some (.number (.finite value))) (negative : value < 0) :
    readPositiveAmountMinor payload name = none := by
  rw [readPositiveAmountMinor, readAmountMinor_figure figure, Option.filter_eq_none_iff]
  intro amountMinor read
  obtain rfl := Option.some.inj read
  simpa using mathRound_nonpos negative

/-! ## Amounts up to a limit -/

/-- An amount of money between nothing and a limit. -/
def UpTo (limit amountMinor : ℤ) : Prop := 0 ≤ amountMinor ∧ amountMinor ≤ limit

/-- The types whose `amount` is stored. -/
def StoresAmount (type : SupportedEventType) : Prop :=
  type = .orderCreated ∨ type = .orderUpdated ∨ type = .paymentCaptured

/-- An event whose stored amount is at most the limit. -/
def EventUpTo (limit : ℤ) (event : ValidOrderEvent) : Prop :=
  StoresAmount event.type → ∀ amountMinor, readAmountMinor event.payload "amount" = some amountMinor →
    amountMinor ≤ limit

/-- An item that, posted, is such an event. -/
def ItemUpTo (limit : ℤ) (item : JsonValue) : Prop :=
  ∀ (fields payload : JsonObject) (type : SupportedEventType) (value : ℚ), item = .object fields →
    fields.get "type" = some (.string type.text) → StoresAmount type →
    fields.get "payload" = some (.object payload) → payload.get "amount" = some (.number (.finite value)) →
    mathRound (value * 100) ≤ limit

/-- The money columns of an order are in range. -/
def ColumnsUpTo (limit : ℤ) (order : OrderEntity) : Prop :=
  (∀ amountMinor, order.amountMinor = some amountMinor → UpTo limit amountMinor) ∧
    UpTo limit order.paidAmountMinor ∧ UpTo limit order.refundedAmountMinor

/-! ## Safe integers -/

/-- `Number.MAX_SAFE_INTEGER`. -/
def maxSafeInteger : ℤ := 2 ^ 53 - 1

/-- An amount on which double arithmetic is exact. -/
def Safe (amountMinor : ℤ) : Prop := UpTo maxSafeInteger amountMinor

/-- An event whose stored amount is at most the greatest safe integer. -/
def SafeEvent (event : ValidOrderEvent) : Prop := EventUpTo maxSafeInteger event

/-- An item that, posted, is such an event. -/
def SafeItem (item : JsonValue) : Prop := ItemUpTo maxSafeInteger item

/-- An action that posts such items only. -/
def PostsSafe : Action → Prop
  | .enqueueBatch events _ => ∀ item ∈ events, SafeItem item
  | _ => True

theorem eventUpTo_of_item {limit : ℤ} {item : JsonValue} {receivedAt : Time} {id : ℕ} {event : ValidOrderEvent}
    (upTo : ItemUpTo limit item) (valid : validate (createRawIncomingEvent item receivedAt id) = .valid event) :
    EventUpTo limit event := by
  intro stores amountMinor read
  obtain ⟨fields, posted, reads⟩ := reads_of_item valid
  obtain ⟨value, figure, rfl⟩ := readAmountMinor_eq_some.mp read
  have type := reads.type
  rw [get_writtenFields, Option.map_eq_some_iff] at type
  obtain ⟨typeValue, typed, written⟩ := type
  rw [written_eq_string.mp written] at typed
  obtain ⟨payloadValue, found, object⟩ := Option.bind_eq_some_iff.mp reads.payload
  rw [get_writtenFields, Option.map_eq_some_iff] at found
  obtain ⟨postedPayload, held, rfl⟩ := found
  obtain ⟨payload, rfl, same⟩ := written_eq_object.mp (asObject?_eq_some.mp object)
  rw [← same, get_writtenFields, Option.map_eq_some_iff] at figure
  obtain ⟨postedFigure, amount, written'⟩ := figure
  rw [written_eq_finite.mp written'] at amount
  exact upTo fields payload event.type value posted typed stores held amount

/-- An item as a client posts it keeps to the limit when its payload does. -/
theorem itemUpTo_postedItem {limit : ℤ} (eventId orderId : String) (type : SupportedEventType) (timestamp : ℚ)
    {payload : JsonObject}
    (upTo : ∀ value, payload.get "amount" = some (.number (.finite value)) → mathRound (value * 100) ≤ limit) :
    ItemUpTo limit (postedItem eventId orderId type timestamp payload) := by
  intro fields held _ value posted _ _ found amount
  obtain rfl := JsonValue.object.inj posted
  obtain rfl : payload = held := by simpa using found
  exact upTo value amount

/-! ## Stored money is as exact as the posted amounts -/

/-- The columns of an order that double arithmetic keeps exact. -/
def Exact (order : OrderEntity) : Prop := ColumnsUpTo maxSafeInteger order

/-- The bounds that hold along a run. -/
structure Bounded (s : Store) : Prop where
  events : ∀ id event, s.eventOf id = some event → SafeEvent event
  amounts : ∀ orderId order, s.orders.find orderId = some order →
    ∀ amountMinor, order.amountMinor = some amountMinor → Safe amountMinor
  paid : ∀ orderId order, s.orders.find orderId = some order → order.paidAmountMinor ≤ maxSafeInteger

theorem upTo_of_nonNegative {limit : ℤ} {event : ValidOrderEvent} (upTo : EventUpTo limit event)
    (stores : StoresAmount event.type) {amountMinor : ℤ}
    (read : readNonNegativeAmountMinor event.payload "amount" = some amountMinor) : UpTo limit amountMinor :=
  ⟨readNonNegativeAmountMinor_nonneg read, upTo stores amountMinor (readAmountMinor_of_nonNegative read)⟩

section Accepted
variable {view : OrderView} {event : ValidOrderEvent} {now : Time} {application : Application}

theorem amount_of_accepts (accepts : Accepts view event now application) (safe : SafeEvent event)
    (before : ∀ order, view.order = some order → ∀ amountMinor, order.amountMinor = some amountMinor → Safe amountMinor)
    {amountMinor : ℤ} (stored : application.order.amountMinor = some amountMinor) : Safe amountMinor := by
  cases accepts with
  | created _ type => exact upTo_of_nonNegative safe (Or.inl type) stored
  | updated present type =>
    simp only [OrderEntity.overwrite, Option.or_eq_some_iff] at stored
    rcases stored with written | ⟨-, kept⟩
    · unfold freshAmount at written
      split at written
      · exact upTo_of_nonNegative safe (Or.inr (Or.inl type)) written
      · cases written
    · exact before _ present amountMinor kept
  | captured present | cancelled present | refunded present =>
    have kept := before _ present amountMinor stored
    exact kept

theorem paid_of_accepts (accepts : Accepts view event now application) (safe : SafeEvent event)
    (before : ∀ order, view.order = some order → order.paidAmountMinor ≤ maxSafeInteger) :
    application.order.paidAmountMinor ≤ maxSafeInteger := by
  cases accepts with
  | created => exact (by decide : (0 : ℤ) ≤ maxSafeInteger)
  | captured _ type _ read =>
    have bound := safe (Or.inr (Or.inr type)) _ (readAmountMinor_of_positive read)
    exact bound
  | updated present | cancelled present | refunded present =>
    have kept := before _ present
    exact kept

end Accepted

theorem bounded_call {s s' : Store} {delivery : RawIncomingEventEntity} {host : Host}
    (call : Call s delivery host s') (bounded : Bounded s) : Bounded s' := by
  have events : ∀ id event, s'.eventOf id = some event → SafeEvent event := by
    intro id event known
    rw [eventOf_outcome call.outcome] at known
    exact bounded.events id event known
  have safe : ∀ event, validate delivery = .valid event → SafeEvent event := by
    intro event valid
    refine bounded.events delivery.id event ?_
    rw [eventOf_stored call.stored]
    exact validEvent?_eq_some.mpr valid
  refine ⟨events, ?_, ?_⟩ <;> intro orderId order stored
  · rcases view_outcome call.outcome orderId with same | ⟨event, application, valid, -, accepts, applied⟩
    · exact bounded.amounts orderId order ((congrArg OrderView.order same).symm.trans stored)
    · intro amountMinor held
      obtain rfl : application.order = order :=
        Option.some.inj ((congrArg OrderView.order applied).symm.trans stored)
      exact amount_of_accepts accepts (safe event valid) (bounded.amounts orderId) held
  · rcases view_outcome call.outcome orderId with same | ⟨event, application, valid, -, accepts, applied⟩
    · exact bounded.paid orderId order ((congrArg OrderView.order same).symm.trans stored)
    · obtain rfl : application.order = order :=
        Option.some.inj ((congrArg OrderView.order applied).symm.trans stored)
      exact paid_of_accepts accepts (safe event valid) (bounded.paid orderId)

theorem bounded_enqueueBatch {s : Store} (bounded : Bounded s) {events : List JsonValue}
    (safe : ∀ item ∈ events, SafeItem item) (receivedAt : Time) : Bounded (enqueueBatch s events receivedAt) := by
  refine ⟨?_, bounded.amounts, bounded.paid⟩
  intro id event known
  obtain ⟨row, found, valid⟩ := Option.bind_eq_some_iff.mp known
  rcases findRow_enqueueBatch_cases found with before | ⟨-, item, member, rfl⟩
  · exact bounded.events id event (Option.bind_eq_some_iff.mpr ⟨row, before, valid⟩)
  · exact eventUpTo_of_item (safe item member) (validEvent?_eq_some.mp valid)

theorem bounded_reaches {now : Time} {sys : System} (reached : Reaches PostsSafe (.started now) sys) :
    Bounded sys.store := by
  apply store_invariant Bounded reached (consistent_started now)
  · refine ⟨?_, ?_, ?_⟩
    · intro id event known
      cases known
    · intro orderId order stored
      cases stored
    · intro orderId order stored
      cases stored
  · exact fun s events receivedAt safe _ bounded => bounded_enqueueBatch bounded safe receivedAt
  · exact fun s delivery host s' call bounded => bounded_call call bounded

/-- **Stored money is exact when the posted amounts are**: if every amount that
is posted to be stored rounds to a safe integer, then so is every column, and
the arithmetic of a refund stays within the safe integers; a refund that would
leave them is not applied. -/
theorem stored_money_exact {now : Time} {sys : System} (reached : Reaches PostsSafe (.started now) sys)
    {orderId : String} {order : OrderEntity} (stored : sys.store.orders.find orderId = some order) :
    Exact order ∧ Safe (OrderLifecycleApplication.refundableAmountMinor order) ∧
      ∀ action sys' delivery event amountMinor, step sys action = some sys' →
        calledDelivery sys action = some delivery → sys.store.eventOf delivery = some event →
        event.orderId = orderId → event.type = .refundIssued →
        readRefundAmountMinor event.payload = some amountMinor →
        sys'.store.orders.find orderId = some order ∨
          Safe amountMinor ∧ Safe (order.refundedAmountMinor + amountMinor) ∧
            refunded (sys'.store.orders.find orderId) = order.refundedAmountMinor + amountMinor := by
  have reachable : Reachable sys := by
    obtain ⟨actions, -, run⟩ := reached
    exact reachable_of_run run
  have bounded := bounded_reaches reached
  have most := bounded.paid orderId order stored
  obtain ⟨nonneg, covered, -⟩ := balanced_history (history_reachable reachable orderId) order stored
  refine ⟨⟨bounded.amounts orderId order stored, ⟨by omega, most⟩, ⟨nonneg, by omega⟩⟩, ?_, ?_⟩
  · unfold Safe UpTo OrderLifecycleApplication.refundableAmountMinor
    omega
  · intro action sys' delivery event amountMinor taken called known own type read
    rcases view_of_step reachable.consistent taken called known orderId with
      same | ⟨now, application, -, accepts, applied⟩
    · exact Or.inl ((congrArg OrderView.order same).trans stored)
    · right
      have applied : sys'.store.orders.find orderId = some application.order := congrArg OrderView.order applied
      rw [applied]
      cases accepts with
      | refunded present _ _ read' covers =>
        obtain rfl := Option.some.inj (stored.symm.trans present)
        obtain rfl := Option.some.inj (read.symm.trans read')
        have positive := readRefundAmountMinor_pos read
        refine ⟨⟨by omega, by omega⟩, ⟨by omega, by omega⟩, rfl⟩
      | created _ type' | updated _ type' | captured _ type' | cancelled _ type' =>
        rw [type] at type'
        cases type'

/-- An order is created with that amount. -/
def creationActions (amount : ℚ) : List Action :=
  [.enqueueBatch [postedItem "c" "o" .orderCreated 1 (amountPayload "amount" amount)] 0,
    .poll, .read 0 0, .process 0 (stoppedAt 0) none none]

def hugeCreation : System := (execute step (.started 0) (creationActions (2 ^ 53))).get (by decide +kernel)

/-- An order is created and paid, and a part of the payment is about to be refunded. -/
def refundedInPartActions : List Action :=
  [.enqueueBatch
      [postedItem "c" "o" .orderCreated 1 (amountPayload "amount" 50),
        postedItem "p" "o" .paymentCaptured 2 (amountPayload "amount" 50),
        postedItem "r" "o" .refundIssued 3 (amountPayload "refundAmount" 20)] 0,
    .poll, .read 0 0, .process 0 (stoppedAt 0) none none, .process 0 (stoppedAt 0) none none]

def refundCall : Action := .process 0 (stoppedAt 0) none none

def refundedInPartBefore : System := (execute step (.started 0) refundedInPartActions).get (by decide +kernel)

def refundedInPartAfter : System := (step refundedInPartBefore refundCall).get (by decide +kernel)

theorem refundedInPart_reached : Reaches PostsSafe (.started 0) refundedInPartBefore := by
  have most : mathRound (50 * 100) ≤ maxSafeInteger := by decide +kernel
  refine ⟨refundedInPartActions, ?_, run_of_enabled _⟩
  have safe : ∀ (eventId : String) (type : SupportedEventType) (timestamp : ℚ) (name : String) (value : ℚ),
      (name = "amount" → value = 50) →
        SafeItem (postedItem eventId "o" type timestamp (amountPayload name value)) := by
    intro eventId type timestamp name value fifty
    refine itemUpTo_postedItem eventId "o" type timestamp fun read found => ?_
    by_cases named : "amount" = name
    · obtain rfl : value = read := by simpa [amountPayload, named] using found
      rw [fifty named.symm]
      exact most
    · simp [amountPayload, named] at found
  simp only [refundedInPartActions, List.mem_cons, List.not_mem_nil, or_false, forall_eq_or_imp, forall_eq, PostsSafe,
    and_true]
  exact ⟨safe _ _ _ _ _ fun _ => rfl, safe _ _ _ _ _ fun _ => rfl, safe _ _ _ _ _ (by decide)⟩

theorem stored_money_exact_refunded_in_part :
    ∃ order, refundedInPartBefore.store.orders.find "o" = some order ∧ Exact order ∧
      Safe (OrderLifecycleApplication.refundableAmountMinor order) ∧ Safe 2000 ∧
      Safe (order.refundedAmountMinor + 2000) ∧
      refunded (refundedInPartAfter.store.orders.find "o") = order.refundedAmountMinor + 2000 := by
  have created : (refundedInPartBefore.store.orders.find "o").isSome := by decide +kernel
  obtain ⟨order, stored⟩ := Option.isSome_iff_exists.mp created
  obtain ⟨columns, refundable, moves⟩ := stored_money_exact refundedInPart_reached stored
  have asked : (refundedInPartBefore.store.eventOf 3).map (fun event =>
      (event.orderId, event.type, readRefundAmountMinor event.payload)) = some ("o", .refundIssued, some 2000) := by
    decide +kernel
  obtain ⟨event, known, asked⟩ := Option.map_eq_some_iff.mp asked
  simp only [Prod.mk.injEq] at asked
  have called : calledDelivery refundedInPartBefore refundCall = some 3 := by decide +kernel
  have taken : step refundedInPartBefore refundCall = some refundedInPartAfter := (Option.some_get _).symm
  refine ⟨order, stored, columns, refundable, ?_⟩
  refine (moves refundCall _ 3 event 2000 taken called known asked.1 asked.2.1 asked.2.2).resolve_left fun same => ?_
  have before : refunded (refundedInPartBefore.store.orders.find "o") = 0 := by decide +kernel
  have after : refunded (refundedInPartAfter.store.orders.find "o") = 2000 := by decide +kernel
  rw [stored] at before
  rw [same, before] at after
  cases after

/-- An action that posts finite numbers only. -/
def PostsFinite : Action → Prop
  | .enqueueBatch events _ => ∀ item ∈ events, item.FiniteNumbers
  | _ => True

/-- Nothing bounds an amount from above: one whose minor units are no safe
integer is stored. -/
theorem huge_amount_stored :
    ¬ ∀ (now : Time) (sys : System), Reaches PostsFinite (.started now) sys →
      ∀ orderId order, sys.store.orders.find orderId = some order → Exact order := by
  intro always
  have reached : Reaches PostsFinite (.started 0) hugeCreation := by
    refine ⟨creationActions (2 ^ 53), ?_, run_of_enabled _⟩
    simp [creationActions, PostsFinite, postedItem, amountPayload, JsonValue.FiniteNumbers, FiniteFields]
  have stored : (hugeCreation.store.orders.find "o").map (·.amountMinor) = some (some (2 ^ 53 * 100)) := by
    decide +kernel
  obtain ⟨order, found, amount⟩ := Option.map_eq_some_iff.mp stored
  have safe := (always 0 hugeCreation reached "o" order found).1 _ amount
  exact absurd safe.2 (by decide)

/-! ## Negative figures -/

/-- The payload's own money field for a type. -/
def ownFigure : SupportedEventType → Option String
  | .orderCreated | .orderUpdated | .paymentCaptured => some "amount"
  | .refundIssued => some "refundAmount"
  | .orderCancelled => none

/-- The amount column of an order, null when there is no order. -/
def amountColumn (order : Option OrderEntity) : Option ℤ := order.bind (·.amountMinor)

section NegativeFigure
variable {view : OrderView} {event : ValidOrderEvent} {now : Time} {application : Application} {name : String}
  {value : ℚ}

theorem paid_of_negative (accepts : Accepts view event now application) (own : ownFigure event.type = some name)
    (figure : event.payload.get name = some (.number (.finite value))) (negative : value < 0) :
    paid (some application.order) = paid view.order := by
  by_contra moved
  have type := (moved_by_type accepts).1 moved
  rw [type] at own
  obtain rfl := Option.some.inj own
  cases accepts with
  | captured _ _ _ read =>
    rw [readPositive_of_negative figure negative] at read
    cases read
  | created _ type' | updated _ type' | cancelled _ type' | refunded _ type' =>
    rw [type] at type'
    cases type'

/-- An accepted refund with a negative `refundAmount` is one of its `amount`. -/
theorem refunded_of_negative (accepts : Accepts view event now application)
    (own : ownFigure event.type = some name)
    (figure : event.payload.get name = some (.number (.finite value))) (negative : value < 0) :
    refunded (some application.order) = refunded view.order ∨
      event.type = .refundIssued ∧ ∃ amountMinor, readPositiveAmountMinor event.payload "amount" = some amountMinor ∧
        refunded (some application.order) = refunded view.order + amountMinor := by
  by_cases moved : refunded (some application.order) = refunded view.order
  · exact Or.inl moved
  · have type := (moved_by_type accepts).2 moved
    rw [type] at own
    obtain rfl := Option.some.inj own
    cases accepts with
    | refunded present _ _ read =>
      rw [readRefundAmountMinor, readPositive_of_negative figure negative, Option.none_or] at read
      refine Or.inr ⟨type, _, read, ?_⟩
      rw [present]
      rfl
    | created _ type' | updated _ type' | captured _ type' | cancelled _ type' =>
      rw [type] at type'
      cases type'

/-- A figure that is negative in minor units offers the amount column nothing. -/
theorem unoffered_of_negative (own : ownFigure event.type = some name)
    (figure : event.payload.get name = some (.number (.finite value)))
    (rounded : event.type = .orderCreated ∨ event.type = .orderUpdated → mathRound (value * 100) < 0) :
    offered amountRegister.value event = none := by
  unfold offered
  split
  · rename_i stores
    have below := rounded stores
    have amount : name = "amount" := by
      rcases stores with type | type <;> rw [type] at own <;> exact (Option.some.inj own).symm
    subst amount
    simp [amountRegister, readNonNegativeAmountMinor, readAmountMinor_figure figure, Option.filter_some, below]
  · rfl

end NegativeFigure

/-- **A negative figure moves no money**, except that a refund whose payload
also carries a positive `amount` is a refund of that; and a creation or update
whose figure is still negative in minor units writes no amount. -/
theorem negative_figure_moves_no_money {sys sys' : System} {action : Action} {delivery : ℕ}
    {event : ValidOrderEvent} {name : String} {value : ℚ} (reachable : Reachable sys)
    (taken : step sys action = some sys') (called : calledDelivery sys action = some delivery)
    (known : sys.store.eventOf delivery = some event) (own : ownFigure event.type = some name)
    (figure : event.payload.get name = some (.number (.finite value))) (negative : value < 0) :
    (∀ orderId, paid (sys'.store.orders.find orderId) = paid (sys.store.orders.find orderId)) ∧
    (∀ orderId, refunded (sys'.store.orders.find orderId) = refunded (sys.store.orders.find orderId) ∨
      event.type = .refundIssued ∧ event.orderId = orderId ∧
        ∃ amountMinor, readPositiveAmountMinor event.payload "amount" = some amountMinor ∧
          refunded (sys'.store.orders.find orderId) = refunded (sys.store.orders.find orderId) + amountMinor) ∧
    ((event.type = .orderCreated ∨ event.type = .orderUpdated → mathRound (value * 100) < 0) → ∀ orderId,
      amountColumn (sys'.store.orders.find orderId) = amountColumn (sys.store.orders.find orderId)) := by
  have moved := view_of_step reachable.consistent taken called known
  refine ⟨fun orderId => ?_, fun orderId => ?_, fun rounded orderId => ?_⟩
  · rcases moved orderId with same | ⟨now, application, -, accepts, applied⟩
    · exact congrArg (paid ·.order) same
    · have applied : sys'.store.orders.find orderId = some application.order := congrArg OrderView.order applied
      rw [applied]
      exact paid_of_negative accepts own figure negative
  · rcases moved orderId with same | ⟨now, application, ownOrder, accepts, applied⟩
    · exact Or.inl (congrArg (refunded ·.order) same)
    · have applied : sys'.store.orders.find orderId = some application.order := congrArg OrderView.order applied
      rw [applied]
      rcases refunded_of_negative accepts own figure negative with unmoved | ⟨type, fallback⟩
      · exact Or.inl unmoved
      · exact Or.inr ⟨type, ownOrder, fallback⟩
  · have unoffered := unoffered_of_negative own figure rounded
    exact congrArg Prod.fst (held_of_unoffered amountRegister reachable orderId taken called known unoffered)

/-- A capture of 50 major units, and a refund of minus 30 with more in its payload. -/
def negativeRefundActions (more : JsonObject) : List Action :=
  [.enqueueBatch
      [postedItem "c" "o" .orderCreated 1 [], postedItem "p" "o" .paymentCaptured 2 (amountPayload "amount" 50),
        postedItem "r" "o" .refundIssued 3 (amountPayload "refundAmount" (-30) ++ more)] 0,
    .poll, .read 0 0, .process 0 (stoppedAt 0) none none, .process 0 (stoppedAt 0) none none]

/-- The refund carries nothing else, and is about to be processed. -/
def loneRefundBefore : System := (execute step (.started 0) (negativeRefundActions [])).get (by decide +kernel)

def loneRefundAfter : System := (step loneRefundBefore refundCall).get (by decide +kernel)

/-- The refund also carries a positive amount. -/
def mixedRefundBefore : System :=
  (execute step (.started 0) (negativeRefundActions (amountPayload "amount" 20))).get (by decide +kernel)

def mixedRefundAfter : System := (step mixedRefundBefore refundCall).get (by decide +kernel)

/-- What the next call reads of the refund. -/
theorem refund_read {fallback : Option ℤ} {sys : System}
    (read : (sys.store.eventOf 3).map (fun event => (event.type, finiteNumber? (event.payload.get "refundAmount"),
      readPositiveAmountMinor event.payload "amount")) = some (.refundIssued, some (-30), fallback)) :
    ∃ event, sys.store.eventOf 3 = some event ∧ event.type = .refundIssued ∧
      event.payload.get "refundAmount" = some (.number (.finite (-30))) ∧
      readPositiveAmountMinor event.payload "amount" = fallback := by
  obtain ⟨event, known, read⟩ := Option.map_eq_some_iff.mp read
  simp only [Prod.mk.injEq, finiteNumber?_eq_some] at read
  exact ⟨event, known, read⟩

theorem negative_figure_moves_no_money_lone_refund :
    refunded (loneRefundAfter.store.orders.find "o") = refunded (loneRefundBefore.store.orders.find "o") := by
  obtain ⟨event, known, type, figure, noFallback⟩ := @refund_read none loneRefundBefore (by decide +kernel)
  have own : ownFigure event.type = some "refundAmount" := by
    rw [type]
    rfl
  have called : calledDelivery loneRefundBefore refundCall = some 3 := by decide +kernel
  have taken : step loneRefundBefore refundCall = some loneRefundAfter := (Option.some_get _).symm
  have unmoved := negative_figure_moves_no_money (reachable_of_run (run_of_enabled _)) taken called known own figure
    (by decide)
  rcases unmoved.2.1 "o" with same | ⟨-, -, amountMinor, read, -⟩
  · exact same
  · rw [noFallback] at read
    cases read

/-- A refund of a negative figure that falls back to a positive one moves money. -/
theorem negative_refund_falls_back :
    ¬ ∀ (sys sys' : System) (action : Action) (delivery : ℕ) (event : ValidOrderEvent) (name : String) (value : ℚ),
      Reachable sys → step sys action = some sys' → calledDelivery sys action = some delivery →
      sys.store.eventOf delivery = some event → ownFigure event.type = some name →
      event.payload.get name = some (.number (.finite value)) → value < 0 → ∀ orderId,
        paid (sys'.store.orders.find orderId) = paid (sys.store.orders.find orderId) ∧
        refunded (sys'.store.orders.find orderId) = refunded (sys.store.orders.find orderId) ∧
        amountColumn (sys'.store.orders.find orderId) = amountColumn (sys.store.orders.find orderId) := by
  intro unmoved
  obtain ⟨event, known, type, figure, -⟩ := @refund_read (some 2000) mixedRefundBefore (by decide +kernel)
  have own : ownFigure event.type = some "refundAmount" := by
    rw [type]
    rfl
  have called : calledDelivery mixedRefundBefore refundCall = some 3 := by decide +kernel
  have taken : step mixedRefundBefore refundCall = some mixedRefundAfter := (Option.some_get _).symm
  have reachable : Reachable mixedRefundBefore := reachable_of_run (run_of_enabled _)
  have same := (unmoved _ _ _ _ _ _ _ reachable taken called known own figure (by decide) "o").2.1
  have before : refunded (mixedRefundBefore.store.orders.find "o") = 0 := by decide +kernel
  have after : refunded (mixedRefundAfter.store.orders.find "o") = 2000 := by decide +kernel
  rw [before, after] at same
  cases same

end EventEngine.Figures
