import EventEngine.Ledger
import EventEngine.Relational.LastWriter
import Mathlib.Data.List.TakeWhile

/-! The set-like fields. `amountMinor` and `currency` are last-writer-wins
registers: the column and its field version are those of the newest of the
order's contributions, whatever else happens to the order in between. -/
namespace EventEngine.Registers
open EventEngine Relational LastWriter OrderCreationApplication

/-! ## Registers -/

/-- What an event offers to a field: creations and updates offer the value
their payload carries, other events nothing. -/
def offered {α : Type} (value : JsonObject → Option α) (event : ValidOrderEvent) : Option α :=
  if event.type = .orderCreated ∨ event.type = .orderUpdated then value event.payload else none

/-- What an event writes to a field: what it offers, when it is fresh. -/
def fresh {α : Type} (value : JsonObject → Option α) (version : Option OrderFieldVersionEntity)
    (event : ValidOrderEvent) : Option α :=
  if isFresh version event.timestamp then offered value event else none

/-- A column with its field version, that an accepted event writes exactly when
it offers it a fresh value, and that no rejected update had a fresh value for. -/
structure Register (α : Type) where
  field : OrderVersionedField
  value : JsonObject → Option α
  column : OrderEntity → Option α
  obeys : ∀ {view : OrderView} {event : ValidOrderEvent} {now : Time} {application : Application},
    Accepts view event now application → (view.order = none → view.version field = none) →
    column application.order = (fresh value (view.version field) event).or (view.order.bind column) ∧
      (field ∈ application.stamped ↔ (fresh value (view.version field) event).isSome)
  declined : ∀ {view : OrderView} {event : ValidOrderEvent} {reasonCode : ReasonCode},
    Refusal view event reasonCode → event.type = .orderUpdated → fresh value (view.version field) event = none

theorem fresh_of_lifecycle {α : Type} (value : JsonObject → Option α) (version : Option OrderFieldVersionEntity)
    {event : ValidOrderEvent} (created : event.type ≠ .orderCreated) (updated : event.type ≠ .orderUpdated) :
    fresh value version event = none := by
  simp [fresh, offered, created, updated]

/-- A column obeys accepted events when it takes what a creation and an update
write to it, and is left alone by what moves the status. -/
theorem obeys_of_writes {α : Type} {field : OrderVersionedField} {value : JsonObject → Option α}
    {column : OrderEntity → Option α} (notStatus : field ≠ .status)
    (created : ∀ (event : ValidOrderEvent) (now : Time), column (createdOrder event now) = value event.payload ∧
      (field ∈ createdFields event ↔ (value event.payload).isSome))
    (updated : ∀ (view : OrderView) (event : ValidOrderEvent) (order : OrderEntity) (now : Time),
      event.type = .orderUpdated →
      column (order.overwrite (freshAmount view event) (freshCurrency view event) now) =
        (fresh value (view.version field) event).or (column order) ∧
      (field ∈ writtenVersions (freshAmount view event) (freshCurrency view event) ↔
        (fresh value (view.version field) event).isSome))
    (fixed : ∀ (order : OrderEntity) (status : OrderStatus) (paidAmountMinor refundedAmountMinor : ℤ)
      (updatedAt : Time),
      column { order with status, paidAmountMinor, refundedAmountMinor, updatedAt } = column order)
    {view : OrderView} {event : ValidOrderEvent} {now : Time} {application : Application}
    (accepts : Accepts view event now application) (unstamped : view.order = none → view.version field = none) :
    column application.order = (fresh value (view.version field) event).or (view.order.bind column) ∧
      (field ∈ application.stamped ↔ (fresh value (view.version field) event).isSome) := by
  cases accepts with
  | created absent type =>
    have offers : fresh value (view.version field) event = value event.payload := by
      simp [fresh, offered, type, unstamped absent, isFresh]
    rw [offers, absent, Option.bind_none, Option.or_none]
    exact created event now
  | @updated order _ _ _ _ present type =>
    rw [present]
    exact updated view event order now type
  | @captured order amountMinor present type =>
    rw [fresh_of_lifecycle _ _ (by simp [type]) (by simp [type]), present]
    have kept := fixed order .paid amountMinor order.refundedAmountMinor now
    exact ⟨kept, by simp [Application.accepted, notStatus]⟩
  | @cancelled order present type =>
    rw [fresh_of_lifecycle _ _ (by simp [type]) (by simp [type]), present]
    have kept := fixed order .cancelled order.paidAmountMinor order.refundedAmountMinor now
    exact ⟨kept, by simp [Application.accepted, notStatus]⟩
  | @refunded order amountMinor present type =>
    rw [fresh_of_lifecycle _ _ (by simp [type]) (by simp [type]), present]
    have kept := fixed order (OrderLifecycleApplication.refundStatus order (order.refundedAmountMinor + amountMinor))
      order.paidAmountMinor (order.refundedAmountMinor + amountMinor) now
    refine ⟨kept, ?_⟩
    simp only [Application.accepted]
    split <;> simp [notStatus]

theorem fresh_amount {view : OrderView} {event : ValidOrderEvent} (type : event.type = .orderUpdated) :
    fresh (readNonNegativeAmountMinor · "amount") (view.version .amountMinor) event = freshAmount view event := by
  simp [fresh, offered, type, freshAmount]

theorem fresh_currency {view : OrderView} {event : ValidOrderEvent} (type : event.type = .orderUpdated) :
    fresh readCurrency (view.version .currency) event = freshCurrency view event := by
  simp [fresh, offered, type, freshCurrency]

def amountRegister : Register ℤ where
  field := .amountMinor
  value := (readNonNegativeAmountMinor · "amount")
  column := (·.amountMinor)
  obeys := by
    refine obeys_of_writes (by decide) ?_ ?_ fun _ _ _ _ _ => rfl
    · intro event now
      exact ⟨rfl, by simp [createdFields_eq]⟩
    · intro view event order now type
      rw [fresh_amount type]
      exact ⟨rfl, by simp⟩
  declined := by
    intro view event reasonCode refusal type
    rw [fresh_amount type]
    exact (refusal.unapplied type).1

def currencyRegister : Register String where
  field := .currency
  value := readCurrency
  column := (·.currency)
  obeys := by
    refine obeys_of_writes (by decide) ?_ ?_ fun _ _ _ _ _ => rfl
    · intro event now
      exact ⟨rfl, by simp [createdFields_eq]⟩
    · intro view event order now type
      rw [fresh_currency type]
      exact ⟨rfl, by simp⟩
  declined := by
    intro view event reasonCode refusal type
    rw [fresh_currency type]
    exact (refusal.unapplied type).2

/-- An amount is valid when it is a number whose rounded minor amount is not negative; -/
theorem amountRegister_valid {payload : JsonObject} : (amountRegister.value payload).isSome ↔
    ∃ value, payload.get "amount" = some (.number (.finite value)) ∧ 0 ≤ mathRound (value * 100) :=
  readNonNegativeAmountMinor_isSome

/-- a currency, when it is a string with something in it besides white space. -/
theorem currencyRegister_valid {payload : JsonObject} : (currencyRegister.value payload).isSome ↔
    ∃ text, payload.get "currency" = some (.string text) ∧ ∃ c ∈ text.toList, isTrimmed c = false :=
  readCurrency_isSome

/-! ## Contributions -/

/-- The accepted creation of an order. -/
def IsCreation (entry : LogEntry) : Prop := entry.2.type = .orderCreated ∧ entry.1.decision = .accepted

instance (entry : LogEntry) : Decidable (IsCreation entry) := inferInstanceAs (Decidable (_ ∧ _))

/-- The creation, and the updates decided on their merits. -/
def Contributes (entry : LogEntry) : Prop :=
  IsCreation entry ∨ entry.2.type = .orderUpdated ∧
    (entry.1.decision = .accepted ∨ entry.1.decision = .partiallyApplied ∨ entry.1.decision = .rejected)

instance (entry : LogEntry) : Decidable (Contributes entry) := inferInstanceAs (Decidable (_ ∨ _))

/-- The part of a log from which on the order exists. -/
def sinceCreation (log : List LogEntry) : List LogEntry := log.dropWhile fun entry => ¬ IsCreation entry

variable {α : Type}

def contribution (r : Register α) (entry : LogEntry) : Option (Write ℚ (String × α)) :=
  if Contributes entry then
    (r.value entry.2.payload).map fun value => ⟨entry.2.timestamp, entry.2.eventId, value⟩
  else none

/-- The writes to a field: every contribution whose payload carries a valid value. -/
def contributions (r : Register α) (log : List LogEntry) : List (Write ℚ (String × α)) :=
  (sinceCreation log).filterMap (contribution r)

theorem sinceCreation_eq_nil {log : List LogEntry} : sinceCreation log = [] ↔ ∀ entry ∈ log, ¬ IsCreation entry := by
  rw [sinceCreation, List.dropWhile_eq_nil_iff]
  simp only [decide_eq_true_eq]

theorem contributions_append_created (r : Register α) {log : List LogEntry} (created : ∃ entry ∈ log, IsCreation entry)
    (entry : LogEntry) :
    contributions r (log ++ [entry]) = contributions r log ++ (contribution r entry).toList := by
  have begun : sinceCreation log ≠ [] := by
    rw [ne_eq, sinceCreation_eq_nil]
    obtain ⟨creation, member, is_creation⟩ := created
    exact fun none_created => none_created creation member is_creation
  have longer : sinceCreation (log ++ [entry]) = sinceCreation log ++ [entry] := by
    unfold sinceCreation at begun ⊢
    rw [List.dropWhile_append, if_neg (by simpa using begun)]
  unfold contributions
  rw [longer, List.filterMap_append]
  cases found : contribution r entry <;> simp [found]

theorem contributions_append_uncreated (r : Register α) {log : List LogEntry}
    (uncreated : ∀ entry ∈ log, ¬ IsCreation entry) (entry : LogEntry) :
    contributions r (log ++ [entry]) =
      if IsCreation entry then (contribution r entry).toList else [] := by
  have unbegun := sinceCreation_eq_nil.mpr uncreated
  have only : sinceCreation (log ++ [entry]) = if IsCreation entry then [entry] else [] := by
    unfold sinceCreation at unbegun ⊢
    rw [List.dropWhile_append, unbegun]
    by_cases creation : IsCreation entry <;> simp [creation]
  unfold contributions
  rw [only]
  split
  · cases found : contribution r entry <;> simp [found]
  · rfl

/-! ## Registers hold their newest contribution -/

/-- The version row a write leaves. -/
def versionOf (orderId : String) (field : OrderVersionedField) (write : Write ℚ (String × α)) :
    OrderFieldVersionEntity :=
  ⟨orderId, field, write.stamp, write.content.1⟩

/-- A log and the view it leads to agree on a register. -/
structure Registered (r : Register α) (orderId : String) (log : List LogEntry) (view : OrderView) : Prop where
  created : view.order.isSome ↔ ∃ entry ∈ log, IsCreation entry
  version : view.version r.field = (winner (contributions r log)).map (versionOf orderId r.field)
  column : view.order.bind r.column = (winner (contributions r log)).map (·.content.2)

variable {r : Register α} {orderId : String} {log : List LogEntry} {view : OrderView} {entry : LogEntry}

theorem uncreated_of_absent (registered : Registered r orderId log view) (absent : view.order = none) :
    ∀ entry ∈ log, ¬ IsCreation entry := by
  intro entry member creation
  have present := registered.created.mpr ⟨entry, member, creation⟩
  rw [absent] at present
  cases present

theorem contributions_of_uncreated (uncreated : ∀ entry ∈ log, ¬ IsCreation entry) : contributions r log = [] := by
  rw [contributions, sinceCreation_eq_nil.mpr uncreated]
  rfl

theorem unstamped_of_absent (registered : Registered r orderId log view) (absent : view.order = none) :
    view.version r.field = none := by
  rw [registered.version, contributions_of_uncreated (uncreated_of_absent registered absent)]
  rfl

/-- Freshness against the version row is freshness against the register. -/
theorem isFresh_version (registered : Registered r orderId log view) (timestamp : ℚ) :
    isFresh (view.version r.field) timestamp = takes (winner (contributions r log)) timestamp := by
  rw [registered.version]
  cases winner (contributions r log) <;> rfl

/-- An entry that does not move the newest contribution leaves a register alone. -/
theorem registered_quiet (registered : Registered r orderId log view) (notCreation : ¬ IsCreation entry)
    (quiet : view.order.isSome → winner (contributions r (log ++ [entry])) = winner (contributions r log)) :
    Registered r orderId (log ++ [entry]) view := by
  have same : winner (contributions r (log ++ [entry])) = winner (contributions r log) := by
    cases present : view.order with
    | some order => exact quiet (by rw [present]; rfl)
    | none =>
      have uncreated := uncreated_of_absent registered present
      rw [contributions_append_uncreated r uncreated, if_neg notCreation, contributions_of_uncreated uncreated]
  refine ⟨?_, ?_, ?_⟩
  · rw [registered.created]
    simp [or_and_right, exists_or, notCreation]
  · rw [same]
    exact registered.version
  · rw [same]
    exact registered.column

theorem contributions_append (registered : Registered r orderId log view)
    (begins : view.order = none → IsCreation entry) :
    contributions r (log ++ [entry]) = contributions r log ++ (contribution r entry).toList := by
  cases present : view.order with
  | some order =>
    have created := registered.created.mp (by rw [present]; rfl)
    exact contributions_append_created r created entry
  | none =>
    have uncreated := uncreated_of_absent registered present
    rw [contributions_append_uncreated r uncreated, if_pos (begins present), contributions_of_uncreated uncreated,
      List.nil_append]

variable {event : ValidOrderEvent} {decision : EventDecisionEntity} {now : Time} {application : Application}

/-- What an accepted event contributes is what it offers. -/
theorem contribution_of_accepts (accepts : Accepts view event now application)
    (records : Records decision application) :
    contribution r (decision, event) =
      (offered r.value event).map fun value => ⟨event.timestamp, event.eventId, value⟩ := by
  have verdict := records.verdict
  unfold contribution offered
  cases accepts with
  | created _ type =>
    have contributes : Contributes (decision, event) := Or.inl ⟨type, verdict⟩
    rw [if_pos contributes, if_pos (Or.inl type)]
  | updated _ type merged =>
    have contributes : Contributes (decision, event) := by
      refine Or.inr ⟨type, ?_⟩
      rw [verdict]
      rcases merged with accepted | merged
      · exact Or.inl accepted
      · exact Or.inr (Or.inl merged)
    rw [if_pos contributes, if_pos (Or.inr type)]
  | captured _ type | cancelled _ type | refunded _ type =>
    have silent : ¬ Contributes (decision, event) := by simp [Contributes, IsCreation, type]
    rw [if_neg silent, if_neg (by simp [type])]
    rfl

theorem creation_of_accepts (accepts : Accepts view event now application) (records : Records decision application)
    (absent : view.order = none) : IsCreation (decision, event) := by
  cases accepts with
  | created _ type => exact ⟨type, records.verdict⟩
  | updated present | captured present | cancelled present | refunded present =>
    rw [absent] at present
    cases present

theorem registered_applied (registered : Registered r orderId log view) (own : event.orderId = orderId)
    (accepts : Accepts view event now application) (records : Records decision application) :
    Registered r orderId (log ++ [(decision, event)]) (view.apply event application) := by
  have appended := contributions_append registered (creation_of_accepts accepts records)
  rw [contribution_of_accepts accepts records] at appended
  obtain ⟨column, stamped⟩ := r.obeys accepts (unstamped_of_absent registered)
  have newer := isFresh_version registered event.timestamp
  have created : ∃ entry ∈ log ++ [(decision, event)], IsCreation entry := by
    cases present : view.order with
    | none => exact ⟨_, by simp, creation_of_accepts accepts records present⟩
    | some order =>
      obtain ⟨entry, member, creation⟩ := registered.created.mp (by rw [present]; rfl)
      exact ⟨entry, List.mem_append_left _ member, creation⟩
  -- either the event writes the register, or the register keeps what it held
  have moved : (∃ value, fresh r.value (view.version r.field) event = some value ∧
        winner (contributions r (log ++ [(decision, event)])) = some ⟨event.timestamp, event.eventId, value⟩) ∨
      fresh r.value (view.version r.field) event = none ∧
        winner (contributions r (log ++ [(decision, event)])) = winner (contributions r log) := by
    rw [appended, fresh, newer]
    cases offered r.value event with
    | none => exact Or.inr ⟨by simp, by simp⟩
    | some value =>
      rw [Option.map_some, Option.toList_some, winner_append, write]
      cases takes (winner (contributions r log)) event.timestamp
      · exact Or.inr ⟨rfl, rfl⟩
      · exact Or.inl ⟨value, rfl, rfl⟩
  rcases moved with ⟨value, written, won⟩ | ⟨unwritten, held⟩
  · rw [written] at column stamped
    refine ⟨⟨fun _ => created, fun _ => rfl⟩, ?_, ?_⟩
    · have stamped : r.field ∈ application.stamped := stamped.mpr rfl
      simp only [OrderView.apply, stamped, ↓reduceIte, won, Option.map_some, ValidOrderEvent.stamp, own, versionOf]
    · rw [won]
      exact column
  · rw [unwritten] at column stamped
    refine ⟨⟨fun _ => created, fun _ => rfl⟩, ?_, ?_⟩
    · have unstamped : r.field ∉ application.stamped := fun member => by simpa using stamped.mp member
      simp only [OrderView.apply, unstamped, ↓reduceIte, held]
      exact registered.version
    · rw [held, ← registered.column]
      exact column

theorem registered_refused (registered : Registered r orderId log view)
    (refusal : Refusal view event decision.reasonCode) (rejected : decision.decision = .rejected) :
    Registered r orderId (log ++ [(decision, event)]) view := by
  have notCreation : ¬ IsCreation (decision, event) := by
    rintro ⟨-, accepted⟩
    cases rejected.symm.trans accepted
  refine registered_quiet registered notCreation fun present => ?_
  have begins : view.order = none → IsCreation (decision, event) := by
    intro absent
    rw [absent] at present
    cases present
  rw [contributions_append registered begins]
  by_cases update : event.type = .orderUpdated
  · have contributes : Contributes (decision, event) := Or.inr ⟨update, Or.inr (Or.inr rejected)⟩
    have declined := r.declined refusal update
    rw [contribution, if_pos contributes]
    simp only [fresh, offered, update, or_true, ↓reduceIte, isFresh_version registered] at declined
    cases carried : r.value event.payload with
    | none => simp
    | some value =>
      -- the payload carries a value, so it was not fresh
      rw [carried] at declined
      have stale : takes (winner (contributions r log)) event.timestamp = false := by simpa using declined
      rw [Option.map_some, Option.toList_some, winner_append, write, stale]
      rfl
  · have silent : ¬ Contributes (decision, event) := fun contributes => contributes.elim notCreation (update ·.1)
    rw [contribution, if_neg silent, Option.toList_none, List.append_nil]

theorem registered_ledger (r : Register α) {orderId : String} {log : List LogEntry} {view : OrderView}
    (ledger : Ledger orderId log view) : Registered r orderId log view := by
  induction ledger with
  | opened => exact ⟨by simp [OrderView.absent], rfl, rfl⟩
  | @passed log view decision event _ _ passed ih =>
    have notCreation : ¬ IsCreation (decision, event) := by
      rintro ⟨-, accepted⟩
      rcases passed with duplicate | failed
      · cases duplicate.symm.trans accepted
      · cases failed.symm.trans accepted
    have silent : ¬ Contributes (decision, event) := by
      rintro (creation | ⟨-, merits⟩)
      · exact notCreation creation
      · rcases passed with duplicate | failed <;> rcases merits with h | h | h <;> simp_all
    refine registered_quiet ih notCreation fun present => ?_
    rw [contributions_append_created r (ih.created.mp present), contribution, if_neg silent, Option.toList_none,
      List.append_nil]
  | @expired log view decision event _ _ absent rejected ih =>
    refine registered_quiet ih ?_ fun present => ?_
    · rintro ⟨-, accepted⟩
      cases rejected.symm.trans accepted
    · rw [absent] at present
      cases present
  | refused _ _ refusal rejected ih => exact registered_refused ih refusal rejected
  | applied _ own accepts records ih => exact registered_applied ih own accepts records

/-! ## The guarantee -/

/-- A field of an order in a store: the column, and its version row. -/
def held (r : Register α) (s : Store) (orderId : String) : Option α × Option OrderFieldVersionEntity :=
  ((s.orders.find orderId).bind r.column, s.orderFieldVersions.find (orderId, r.field))

/-- In a store, a field of an order is a last-writer-wins register. -/
structure LastWriterWins (r : Register α) (sys : System) (orderId : String) : Prop where
  /-- Without contributions the column is null and there is no version row. -/
  unwritten : contributions r (sys.store.orderLog orderId) = [] → held r sys.store orderId = (none, none)
  /-- Otherwise both are those of the first contribution with the greatest timestamp. -/
  newest : contributions r (sys.store.orderLog orderId) ≠ [] → ∃ earlier w later,
    contributions r (sys.store.orderLog orderId) = earlier ++ w :: later ∧
    (∀ x ∈ earlier, x.stamp < w.stamp) ∧ (∀ x ∈ later, x.stamp ≤ w.stamp) ∧
    held r sys.store orderId = (some w.content.2, some ⟨orderId, r.field, w.stamp, w.content.1⟩)
  /-- Contributions with distinct timestamps lead to one outcome, in whatever
  order they were processed and whatever else happened to the order. -/
  order_irrelevant : ∀ sys', Reachable sys' →
    ((contributions r (sys.store.orderLog orderId)).map (·.stamp)).Nodup →
    (contributions r (sys.store.orderLog orderId)).Perm (contributions r (sys'.store.orderLog orderId)) →
    held r sys'.store orderId = held r sys.store orderId
  /-- An event whose payload carries no valid value never changes the field. -/
  omitted : ∀ action sys', step sys action = some sys' →
    ∀ delivery event, calledDelivery sys action = some delivery → sys.store.eventOf delivery = some event →
      r.value event.payload = none → held r sys'.store orderId = held r sys.store orderId

theorem registered_reachable (r : Register α) {sys : System} (reachable : Reachable sys) (orderId : String) :
    Registered r orderId (sys.store.orderLog orderId) (sys.store.view orderId) :=
  registered_ledger r (ledger_reachable reachable orderId)

/-- What is stored of a field is read off its newest contribution. -/
theorem held_eq (r : Register α) {sys : System} (reachable : Reachable sys) (orderId : String) :
    held r sys.store orderId =
      ((winner (contributions r (sys.store.orderLog orderId))).map (·.content.2),
        (winner (contributions r (sys.store.orderLog orderId))).map (versionOf orderId r.field)) := by
  have registered := registered_reachable r reachable orderId
  exact Prod.ext registered.column registered.version

/-- A call on a delivery whose event offers a field nothing leaves the field alone. -/
theorem held_of_unoffered (r : Register α) {sys sys' : System} {action : Action} (reachable : Reachable sys)
    (orderId : String) (taken : step sys action = some sys') {delivery : ℕ} {event : ValidOrderEvent}
    (called : calledDelivery sys action = some delivery) (known : sys.store.eventOf delivery = some event)
    (unoffered : offered r.value event = none) : held r sys'.store orderId = held r sys.store orderId := by
  rcases view_of_step reachable.consistent taken called known orderId with
    same | ⟨now, application, own, accepts, applied⟩
  · have order : sys'.store.orders.find orderId = sys.store.orders.find orderId := congrArg OrderView.order same
    have version : sys'.store.orderFieldVersions.find (orderId, r.field) =
        sys.store.orderFieldVersions.find (orderId, r.field) := congrArg (OrderView.version · r.field) same
    rw [held, held, order, version]
  · have silent : fresh r.value ((sys.store.view orderId).version r.field) event = none := by
      simp [fresh, unoffered]
    obtain ⟨column, stamped⟩ := r.obeys accepts (unstamped_of_absent (registered_reachable r reachable orderId))
    rw [silent] at column stamped
    have order : sys'.store.orders.find orderId = some application.order := congrArg OrderView.order applied
    have unstamped : r.field ∉ application.stamped := fun member => by simpa using stamped.mp member
    have version : sys'.store.orderFieldVersions.find (orderId, r.field) =
        sys.store.orderFieldVersions.find (orderId, r.field) := by
      have moved : (sys'.store.view orderId).version r.field = (sys.store.view orderId).version r.field := by
        rw [applied]
        simp only [OrderView.apply, unstamped, ↓reduceIte]
      exact moved
    rw [held, held, order, version]
    exact congrArg (·, _) column

theorem last_writer_wins (r : Register α) {sys : System} (reachable : Reachable sys) (orderId : String) :
    LastWriterWins r sys orderId := by
  have stored := held_eq r reachable orderId
  refine ⟨?_, ?_, ?_, ?_⟩
  · intro unwritten
    rw [stored, unwritten]
    rfl
  · intro written
    cases won : winner (contributions r (sys.store.orderLog orderId)) with
    | none => exact absurd (winner_eq_none.mp won) written
    | some w =>
      obtain ⟨earlier, later, split, older, notNewer⟩ := winner_first won
      refine ⟨earlier, w, later, split, older, notNewer, ?_⟩
      rw [stored, won]
      rfl
  · intro sys' reachable' distinct same
    rw [held_eq r reachable' orderId, stored, winner_perm distinct same]
  · intro action sys' taken delivery event called known omitted
    exact held_of_unoffered r reachable orderId taken called known (by simp [offered, omitted])

/-- **`amountMinor` and `currency` are last-writer-wins registers** in every
reachable store and for every order. -/
theorem set_like_fields_are_registers {sys : System} (reachable : Reachable sys) (orderId : String) :
    LastWriterWins amountRegister sys orderId ∧ LastWriterWins currencyRegister sys orderId :=
  ⟨last_writer_wins amountRegister reachable orderId, last_writer_wins currencyRegister reachable orderId⟩

theorem set_like_fields_are_registers_out_of_order :
    LastWriterWins amountRegister outOfOrderSystem "o" ∧ LastWriterWins currencyRegister outOfOrderSystem "o" :=
  set_like_fields_are_registers (reachable_of_run outOfOrder_run) "o"

example : (outOfOrderSystem.store.orders.find "o").map (fun order => (order.amountMinor, order.currency)) =
    some (some 6000, some "EUR") := by decide +kernel

end EventEngine.Registers
