import EventEngine.OrderViews
import EventEngine.Deduplication
import EventEngine.PollOrder

/-! A store restricted to a selection of its deliveries. The smaller store has
the selected deliveries alone, renumbered in the same succession, and says of
each of them, and of the orders that go with them, what the larger one says.
Whatever a call does to a selected delivery it does alike in both; a call on
another delivery is not seen in the smaller one. -/
namespace EventEngine.Selections
open EventEngine Relational

/-! ## Selections -/

/-- Some of the deliveries, and the orders that go with them. Processing a
delivery does not change whether it is selected. -/
structure Selection where
  takes : RawIncomingEventEntity → Bool
  watches : String → Prop
  steady : ∀ row row', Atomicity.SameDelivery row row' → takes row' = takes row

/-- The selected deliveries of a store. -/
def taken (sel : Selection) (s : Store) : List RawIncomingEventEntity := s.rawIncomingEvents.rows.filter sel.takes

/-- The store has a selected delivery of that number. -/
def Selection.has (sel : Selection) (s : Store) (id : ℕ) : Bool := (s.rawIncomingEvents.find id).any sel.takes

variable {sel : Selection} {ν : ℕ → ℕ} {s s' : Store} {row delivery : RawIncomingEventEntity} {host : Host}

theorem mem_taken : row ∈ taken sel s ↔ row ∈ s.rawIncomingEvents.rows ∧ sel.takes row = true := List.mem_filter

theorem has_stored (stored : s.rawIncomingEvents.find delivery.id = some delivery) :
    sel.has s delivery.id = sel.takes delivery := by
  rw [Selection.has, stored, Option.any_some]

theorem has_taken (held : row ∈ taken sel s) : sel.has s row.id = true := by
  obtain ⟨member, takes⟩ := mem_taken.mp held
  rw [has_stored (s.rawIncomingEvents.find_self member), takes]

theorem taken_of_has {id : ℕ} (has : sel.has s id = true) : ∃ row ∈ taken sel s, row.id = id := by
  obtain ⟨row, found, takes⟩ := (Option.any_eq_true _ _).mp has
  obtain ⟨member, named⟩ := s.rawIncomingEvents.find_eq_some.mp found
  exact ⟨row, mem_taken.mpr ⟨member, takes⟩, named⟩

/-- What has come in stays in the selection, or out of it. -/
theorem has_kept {t : Store} (kept : Atomicity.KeepsDeliveries s t) {id : ℕ}
    (known : (s.rawIncomingEvents.find id).isSome) : sel.has t id = sel.has s id := by
  obtain ⟨row, found⟩ := Option.isSome_iff_exists.mp known
  obtain ⟨row', found', same⟩ := kept id row found
  rw [Selection.has, Selection.has, found, found', Option.any_some, Option.any_some, sel.steady row row' same]

/-- Rewriting the standing of a delivery does not change the selection. -/
theorem has_modify {s₁ : Store} {number : ℕ} {change : RawIncomingEventEntity → RawIncomingEventEntity}
    (same : ∀ row, Atomicity.SameDelivery row (change row))
    (rewritten : s₁.rawIncomingEvents = s.rawIncomingEvents.modify number change fun row => (same row).id) (id : ℕ) :
    sel.has s₁ id = sel.has s id := by
  rw [Selection.has, rewritten, SerialTable.find_modify, Option.any_map, Selection.has]
  congr 1
  funext row
  split
  · exact sel.steady row _ (same row)
  · rfl

/-! ## Restricted stores -/

/-- A delivery under another number. -/
def renumbered (ν : ℕ → ℕ) (row : RawIncomingEventEntity) : RawIncomingEventEntity := { row with id := ν row.id }

/-- A decision under no number of its own, on a delivery under another number. -/
def relabelled (ν : ℕ → ℕ) (decision : EventDecisionEntity) : EventDecisionEntity :=
  { decision with id := 0, rawIncomingEventId := ν decision.rawIncomingEventId }

/-- The second store is the first one restricted to the selection. -/
structure Restricts (sel : Selection) (ν : ℕ → ℕ) (s s' : Store) : Prop where
  inbox : s'.rawIncomingEvents.rows = (taken sel s).map (renumbered ν)
  log : s'.eventDecisions.rows.map (relabelled id) =
    (s.eventDecisions.rows.filter fun decision => sel.has s decision.rawIncomingEventId).map (relabelled ν)
  keys : ∀ id, sel.has s id = true → ∀ eventId,
    s'.processedEventKeys.find eventId = some ⟨eventId, ν id⟩ ↔ s.processedEventKeys.find eventId = some ⟨eventId, id⟩
  view : ∀ orderId, sel.watches orderId → s'.view orderId = s.view orderId

theorem restricts_migrated (now : Time) : Restricts sel id (Store.migrated now) (Store.migrated now) where
  inbox := rfl
  log := rfl
  keys _ _ _ := Iff.rfl
  view _ _ := rfl

/-! ## Numbers -/

theorem rows_ascending (table : SerialTable RawIncomingEventEntity) :
    table.rows.Pairwise fun first second => first.id < second.id := by
  have ascending : (table.rows.map Serial.id).Pairwise (· < ·) := by
    rw [table.numbered]
    exact List.pairwise_lt_range' 1
  exact List.pairwise_map.mp ascending

/-- Renumbering keeps the succession of the deliveries. -/
theorem numbers_le (restricts : Restricts sel ν s s') {first second : RawIncomingEventEntity}
    (held : first ∈ taken sel s) (held' : second ∈ taken sel s) : ν first.id ≤ ν second.id ↔ first.id ≤ second.id := by
  have ascending : (taken sel s).Pairwise fun first second => first.id < second.id :=
    (rows_ascending s.rawIncomingEvents).filter _
  have renumbering : (taken sel s).Pairwise fun first second => ν first.id < ν second.id := by
    have ascending' := rows_ascending s'.rawIncomingEvents
    rw [restricts.inbox, List.pairwise_map] at ascending'
    exact ascending'
  have both := ascending.and renumbering
  have upward : (taken sel s).Pairwise fun first second => ν first.id ≤ ν second.id ↔ first.id ≤ second.id :=
    both.imp fun {_ _} less => by omega
  have downward : (taken sel s).Pairwise fun first second => ν second.id ≤ ν first.id ↔ second.id ≤ first.id :=
    both.imp fun {_ _} less => by omega
  exact List.Pairwise.forall_of_forall_of_flip (fun _ _ => by simp) upward downward held held'

theorem numbers_inj (restricts : Restricts sel ν s s') {first second : ℕ} (has : sel.has s first = true)
    (has' : sel.has s second = true) : ν first = ν second ↔ first = second := by
  obtain ⟨row, held, rfl⟩ := taken_of_has has
  obtain ⟨row', held', rfl⟩ := taken_of_has has'
  have up := numbers_le restricts held held'
  have down := numbers_le restricts held' held
  omega

/-- A selected delivery is in the smaller store under its number there. -/
theorem found_of_restricts (restricts : Restricts sel ν s s') (held : row ∈ taken sel s) :
    s'.rawIncomingEvents.find (ν row.id) = some (renumbered ν row) := by
  have member : renumbered ν row ∈ s'.rawIncomingEvents.rows := by
    rw [restricts.inbox]
    exact List.mem_map_of_mem held
  exact s'.rawIncomingEvents.find_self member

/-- What is in the smaller store is a selected delivery of the larger one. -/
theorem taken_of_found (restricts : Restricts sel ν s s') {id : ℕ} {mirrored : RawIncomingEventEntity}
    (found : s'.rawIncomingEvents.find id = some mirrored) : ∃ row ∈ taken sel s, ν row.id = id := by
  obtain ⟨member, named⟩ := s'.rawIncomingEvents.find_eq_some.mp found
  rw [restricts.inbox] at member
  obtain ⟨row, held, rfl⟩ := List.mem_map.mp member
  exact ⟨row, held, named⟩

/-- A decision in the smaller store is one of the larger one, on the delivery. -/
theorem logged_of_restricts (restricts : Restricts sel ν s s') (held : row ∈ taken sel s)
    {decision' : EventDecisionEntity} (logged' : decision' ∈ s'.eventDecisions.rows)
    (about' : decision'.rawIncomingEventId = ν row.id) :
    ∃ decision ∈ s.eventDecisions.rows, decision.rawIncomingEventId = row.id ∧
      relabelled ν decision = relabelled id decision' := by
  have shown : relabelled id decision' ∈ s'.eventDecisions.rows.map (relabelled id) := List.mem_map_of_mem logged'
  rw [restricts.log] at shown
  obtain ⟨decision, logged, alike⟩ := List.mem_map.mp shown
  obtain ⟨logged, has⟩ := List.mem_filter.mp logged
  have number : ν decision.rawIncomingEventId = decision'.rawIncomingEventId :=
    congrArg EventDecisionEntity.rawIncomingEventId alike
  exact ⟨decision, logged, (numbers_inj restricts has (has_taken held)).mp (number.trans about'), alike⟩

theorem undecided_of_restricts (consistent : s.Consistent) (restricts : Restricts sel ν s s')
    (held : row ∈ taken sel s) (undecided : s.decisionOf row.id = none) : s'.decisionOf (ν row.id) = none := by
  rw [Store.decisionOf, List.find?_eq_none]
  intro decision' logged' about'
  obtain ⟨decision, logged, about, -⟩ := logged_of_restricts restricts held logged' (beq_iff_eq.mp about')
  rw [(decisionOf_eq_some consistent).mpr ⟨logged, about⟩] at undecided
  cases undecided

/-! ## Effects on a selected delivery -/

/-- The same rewriting of one delivery in both inboxes. -/
theorem inbox_modify (restricts : Restricts sel ν s s') (held : delivery ∈ taken sel s) {s₁ s₁' : Store}
    {change : RawIncomingEventEntity → RawIncomingEventEntity}
    (same : ∀ row, Atomicity.SameDelivery row (change row))
    (alike : ∀ row, change (renumbered ν row) = renumbered ν (change row))
    (rewritten : s₁.rawIncomingEvents = s.rawIncomingEvents.modify delivery.id change fun row => (same row).id)
    (rewritten' : s₁'.rawIncomingEvents =
      s'.rawIncomingEvents.modify (ν delivery.id) change fun row => (same row).id) :
    s₁'.rawIncomingEvents.rows = (taken sel s₁).map (renumbered ν) := by
  have rows : taken sel s₁ = (taken sel s).map fun row => if row.id = delivery.id then change row else row := by
    rw [taken, rewritten, SerialTable.rows_modify, List.filter_map, taken]
    congr 1
    apply List.filter_congr
    intro row _
    simp only [Function.comp_apply]
    split
    · exact sel.steady row _ (same row)
    · rfl
  rw [rows, rewritten', SerialTable.rows_modify, restricts.inbox, List.map_map, List.map_map]
  apply List.map_congr_left
  intro row member
  have number := numbers_inj restricts (has_taken member) (has_taken held)
  simp only [Function.comp_apply]
  by_cases here : row.id = delivery.id
  · rw [if_pos (show Serial.id (renumbered ν row) = ν delivery.id from number.mpr here), if_pos here, alike]
  · rw [if_neg (show Serial.id (renumbered ν row) ≠ ν delivery.id from fun eq => here (number.mp eq)), if_neg here]

theorem restricts_claim (restricts : Restricts sel ν s s') (held : delivery ∈ taken sel s) (eventId : String) :
    Restricts sel ν (s.claim eventId delivery.id) (s'.claim eventId (ν delivery.id)) where
  inbox := restricts.inbox
  log := restricts.log
  keys id has probe := by
    rw [find_claim, find_claim]
    split
    · rename_i here
      subst here
      have number := numbers_inj restricts (has_taken held) has
      simpa using number
    · exact restricts.keys id has probe
  view := restricts.view

theorem restricts_postpone (restricts : Restricts sel ν s s') (held : delivery ∈ taken sel s) (errorMessage : String)
    (availableAt : Time) :
    Restricts sel ν (s.postpone delivery errorMessage availableAt)
      (s'.postpone (renumbered ν delivery) errorMessage availableAt) := by
  have same : ∀ row, Atomicity.SameDelivery row
      (row.postponed (delivery.attempts + 1) errorMessage availableAt) := fun _ => ⟨rfl, rfl, rfl, rfl, rfl, rfl, rfl⟩
  have has : ∀ id, sel.has (s.postpone delivery errorMessage availableAt) id = sel.has s id := has_modify same rfl
  refine ⟨inbox_modify restricts held same (fun _ => rfl) rfl rfl, ?_, ?_, restricts.view⟩
  · simp only [has]
    exact restricts.log
  · simp only [has]
    exact restricts.keys

theorem restricts_settle (restricts : Restricts sel ν s s') (held : delivery ∈ taken sel s)
    {record record' : EventDecisionEntity} (about : record.rawIncomingEventId = delivery.id)
    (alike : relabelled id record' = relabelled ν record) (message : Option String) (count : Option ℕ) :
    Restricts sel ν (s.settle record message count) (s'.settle record' message count) := by
  have about' : record'.rawIncomingEventId = ν delivery.id :=
    (congrArg EventDecisionEntity.rawIncomingEventId alike).trans (congrArg ν about)
  have written : record'.createdAt = record.createdAt := by
    have same := congrArg (·.createdAt) alike
    exact same
  have same : ∀ row, Atomicity.SameDelivery row (row.settled record.createdAt message count) :=
    fun _ => ⟨rfl, rfl, rfl, rfl, rfl, rfl, rfl⟩
  have has : ∀ id, sel.has (s.settle record message count) id = sel.has s id := has_modify same rfl
  refine ⟨inbox_modify restricts held same (fun _ => rfl) ?_ ?_, ?_, ?_, restricts.view⟩
  · simp only [Store.settle, about]
  · simp only [Store.settle, about', written]
  · simp only [has]
    have own : sel.has s record.rawIncomingEventId = true := by rw [about, has_taken held]
    rw [rows_settle, rows_settle, List.map_append, restricts.log, List.filter_append, List.map_append,
      List.filter_cons_of_pos (by exact own), List.filter_nil]
    exact congrArg (_ ++ [·]) alike
  · simp only [has]
    exact restricts.keys

theorem restricts_write (restricts : Restricts sel ν s s') {event : ValidOrderEvent} {application : Application}
    (named : application.order.orderId = event.orderId) :
    Restricts sel ν (s.write event application) (s'.write event application) where
  inbox := restricts.inbox
  log := restricts.log
  keys := restricts.keys
  view orderId watched := by rw [view_write _ _ _ named, view_write _ _ _ named, restricts.view orderId watched]

/-! ## A call on a selected delivery -/

/-- What holds of every reachable store, and is used of both. -/
structure Sound (s : Store) : Prop where
  consistent : s.Consistent
  claimed : Deduplication.Claimed s

theorem sound_reachable {sys : System} (reachable : Reachable sys) : Sound sys.store :=
  ⟨reachable.consistent.store, Deduplication.claimed_reachable reachable⟩

/-- The selection is a world of its own: its events are of watched orders, a
key that one of them needs is held by one of them if at all, and no other
delivery holds the key of an event of a watched order. -/
structure Closed (sel : Selection) (s : Store) : Prop where
  watched : ∀ id event, sel.has s id = true → s.eventOf id = some event → sel.watches event.orderId
  holders : ∀ id event key, sel.has s id = true → s.eventOf id = some event →
    s.processedEventKeys.find event.eventId = some key → sel.has s key.firstRawIncomingEventId = true
  others : ∀ id event, sel.has s id = false → s.eventOf id = some event →
    s.processedEventKeys.find event.eventId = some ⟨event.eventId, id⟩ → ¬ sel.watches event.orderId

theorem eventOf_taken (held : delivery ∈ taken sel s) {event : ValidOrderEvent}
    (valid : validate delivery = .valid event) : s.eventOf delivery.id = some event := by
  rw [eventOf_stored (s.rawIncomingEvents.find_self (mem_taken.mp held).1), validEvent?_eq_some.mpr valid]

/-- A key held in the smaller store is held by the same delivery in the larger one. -/
theorem holder_of_restricts (sound' : Sound s') (restricts : Restricts sel ν s s') {eventId : String}
    {key : ProcessedEventKeyEntity} (found : s'.processedEventKeys.find eventId = some key) :
    ∃ id, sel.has s id = true ∧ ν id = key.firstRawIncomingEventId ∧
      s.processedEventKeys.find eventId = some ⟨eventId, id⟩ := by
  have named : key.eventId = eventId := KeyedTable.key_of_find found
  obtain ⟨event', known', -⟩ := sound'.claimed.held _ key found
  obtain ⟨mirrored, stored', -⟩ := Option.bind_eq_some_iff.mp known'
  obtain ⟨holder, holds, number⟩ := taken_of_found restricts stored'
  refine ⟨holder.id, has_taken holds, number, ?_⟩
  exact (restricts.keys holder.id (has_taken holds) eventId).mp (by rw [found, ← named, number])

/-- **A selected event is as free to claim its key** in the smaller store. -/
theorem claimable_iff (sound' : Sound s') (restricts : Restricts sel ν s s') (closed : Closed sel s)
    (held : delivery ∈ taken sel s) {event : ValidOrderEvent} (valid : validate delivery = .valid event) :
    s'.Claimable event (ν delivery.id) ↔ s.Claimable event delivery.id := by
  have known := eventOf_taken held valid
  constructor
  · intro claimable key found
    have named : key.eventId = event.eventId := KeyedTable.key_of_find found
    have holds := closed.holders delivery.id event key (has_taken held) known found
    have mirrored := (restricts.keys _ holds event.eventId).mpr (by rw [found, ← named])
    exact (numbers_inj restricts holds (has_taken held)).mp (claimable _ mirrored)
  · intro claimable key found
    obtain ⟨id, holds, number, original⟩ := holder_of_restricts sound' restricts found
    rw [← number]
    exact (numbers_inj restricts holds (has_taken held)).mpr (claimable _ original)

theorem restricts_judged (restricts : Restricts sel ν s s') (held : delivery ∈ taken sel s) {event : ValidOrderEvent}
    (watched : sel.watches event.orderId) (host : Host) :
    Restricts sel ν (s.judged delivery event host) (s'.judged (renumbered ν delivery) event host) := by
  have seen := restricts.view event.orderId watched
  unfold Store.judged
  rw [seen]
  cases judged : judge (s.view event.orderId) event host.now with
  | notReady =>
    simp only [Store.carryOut, seen]
    split
    · rename_i exhausted
      rw [if_pos (show _ ≤ (renumbered ν delivery).attempts + 1 from exhausted)]
      refine restricts_settle restricts held ?_ ?_ _ _ <;> rfl
    · rename_i again
      rw [if_neg (show ¬ _ ≤ (renumbered ν delivery).attempts + 1 from again)]
      exact restricts_postpone restricts held _ _
  | rejected reasonCode reasonMessage skippedFields =>
    simp only [Store.carryOut, seen]
    refine restricts_settle restricts held ?_ ?_ _ _ <;> rfl
  | applied application =>
    have named := (accepts_of_judge judged).orderId fun _ found => orderId_of_view found
    refine restricts_settle (restricts_write restricts named) held ?_ ?_ _ _ <;> rfl

theorem restricts_processed (sound : Sound s) (sound' : Sound s') (restricts : Restricts sel ν s s')
    (closed : Closed sel s) (held : delivery ∈ taken sel s) (undecided : s.decisionOf delivery.id = none)
    (host : Host) : Restricts sel ν (s.processed delivery host) (s'.processed (renumbered ν delivery) host) := by
  have undecided' : s'.decisionOf (renumbered ν delivery).id = none :=
    undecided_of_restricts sound.consistent restricts held undecided
  have alike : validate (renumbered ν delivery) = validate delivery := validate_congr rfl
  cases valid : validate delivery with
  | invalid reasonCode reasonMessage =>
    rw [processed_of_invalid host undecided valid, processed_of_invalid host undecided' (alike.trans valid)]
    refine restricts_settle restricts held ?_ ?_ _ _ <;> rfl
  | valid event =>
    have claims := claimable_iff sound' restricts closed held valid
    by_cases claimable : s.Claimable event delivery.id
    · rw [processed_of_claimable host undecided valid claimable,
        processed_of_claimable host undecided' (alike.trans valid) (claims.mpr claimable)]
      have watched := closed.watched delivery.id event (has_taken held) (eventOf_taken held valid)
      exact restricts_judged (restricts_claim restricts held event.eventId) held watched host
    · have copy : ¬ s'.Claimable event (renumbered ν delivery).id := fun free => claimable (claims.mp free)
      unfold Store.Claimable at claimable copy
      push Not at claimable copy
      obtain ⟨key, found, other⟩ := claimable
      obtain ⟨key', found', other'⟩ := copy
      rw [processed_of_held host undecided valid found other,
        processed_of_held host undecided' (alike.trans valid) found' other']
      refine restricts_settle restricts held ?_ ?_ _ _ <;> rfl

theorem restricts_failed (restricts : Restricts sel ν s s') (held : delivery ∈ taken sel s) (errorMessage : String)
    (host : Host) :
    Restricts sel ν (s.failed delivery errorMessage host) (s'.failed (renumbered ν delivery) errorMessage host) := by
  have stored : s.rawIncomingEvents.find delivery.id = some delivery :=
    s.rawIncomingEvents.find_self (mem_taken.mp held).1
  have stored' : s'.rawIncomingEvents.find (renumbered ν delivery).id = some (renumbered ν delivery) :=
    found_of_restricts restricts held
  unfold Store.failed
  rw [stored, stored']
  simp only
  split
  · rename_i exhausted
    rw [if_pos (show _ ≤ (renumbered ν delivery).attempts + 1 from exhausted)]
    refine restricts_settle restricts held ?_ ?_ _ _ <;> rfl
  · rename_i again
    rw [if_neg (show ¬ _ ≤ (renumbered ν delivery).attempts + 1 from again)]
    exact restricts_postpone restricts held _ _

/-- The throw of an attempt, if it throws, as a fault of its first statement. -/
def throwOf (s : Store) (delivery : RawIncomingEventEntity) (host : Host) (fault : Option Fault) : Option Fault :=
  match (transaction fault (processEventTransaction delivery host) s).1 with
  | .ok _ => none
  | .error errorMessage => some ⟨0, errorMessage⟩

/-- **A call on a selected delivery ends alike in both stores**, when the
attempt that throws in one throws in the other. -/
theorem restricts_call (sound : Sound s) (sound' : Sound s') (restricts : Restricts sel ν s s')
    (closed : Closed sel s) (held : delivery ∈ taken sel s) (undecided : s.decisionOf delivery.id = none)
    {fault : Option Fault} {s₁ : Store} (ran : processEvent delivery host fault none s = (.ok (), s₁)) :
    ∃ s₁', processEvent (renumbered ν delivery) host (throwOf s delivery host fault) none s' = (.ok (), s₁') ∧
      Restricts sel ν s₁ s₁' := by
  have undecided' : s'.decisionOf (renumbered ν delivery).id = none :=
    undecided_of_restricts sound.consistent restricts held undecided
  rcases transaction_cases fault (processEventTransaction delivery host) s with
    ⟨message, thrown⟩ | ⟨value, t, committed, returned⟩
  · have recorded := handleUnexpectedFailure_run undecided sound.consistent.stats message host
    have recorded' := handleUnexpectedFailure_run undecided' sound'.consistent.stats message host
    have left : processEvent delivery host fault none s = (.ok (), s.failed delivery message host) := by
      simp only [processEvent, thrown]
      exact transaction_of_run recorded
    obtain rfl : s.failed delivery message host = s₁ := (Prod.mk.inj (left.symm.trans ran)).2
    refine ⟨_, ?_, restricts_failed restricts held message host⟩
    simp only [throwOf, thrown]
    rw [processEvent_thrown]
    exact transaction_of_run recorded'
  · rw [processEventTransaction_run sound.consistent.toOperational delivery host] at committed
    cases committed
    have left : processEvent delivery host fault none s = (.ok (), s.processed delivery host) := by
      simp only [processEvent, returned]
    obtain rfl : s.processed delivery host = s₁ := (Prod.mk.inj (left.symm.trans ran)).2
    refine ⟨_, ?_, restricts_processed sound sound' restricts closed held undecided host⟩
    simp only [throwOf, returned]
    exact processEvent_clean sound'.consistent.toOperational none

/-! ## A call on another delivery -/

theorem taken_other {s₁ : Store} (stored : s.rawIncomingEvents.find delivery.id = some delivery)
    (other : sel.takes delivery = false) (outcome : Outcome s delivery host s₁) : taken sel s₁ = taken sel s := by
  obtain ⟨delivery', same, inbox⟩ := Atomicity.inbox_outcome stored outcome
  have elsewhere : ∀ row ∈ taken sel s, row.id ≠ delivery.id := by
    intro row held here
    have takes := has_taken held
    rw [here, has_stored stored, other] at takes
    cases takes
  calc
    taken sel s₁
    _ = (taken sel s).map fun row => if row.id = delivery.id then delivery' else row := by
      rw [taken, inbox, List.filter_map, taken]
      congr 1
      apply List.filter_congr
      intro row held
      simp only [Function.comp_apply]
      split
      · rename_i here
        rw [s.rawIncomingEvents.row_unique held (s.rawIncomingEvents.find_eq_some.mp stored).1 here,
          sel.steady delivery delivery' same]
      · rfl
    _ = (taken sel s).map id := by
      apply List.map_congr_left
      intro row held
      rw [if_neg (elsewhere row held), id_eq]
    _ = taken sel s := List.map_id _

/-- A call that changes an order holds the key of its event afterwards. -/
theorem view_unheld {s₁ : Store} (outcome : Outcome s delivery host s₁) {orderId : String}
    (unheld : ∀ event, validate delivery = .valid event → event.orderId = orderId →
      s₁.processedEventKeys.find event.eventId ≠ some ⟨event.eventId, delivery.id⟩) :
    s₁.view orderId = s.view orderId := by
  cases outcome.effect with
  | unapplied orders versions => rw [Store.view, orders, versions, Store.view]
  | @applied event application valid judged written =>
    rw [written, view_applied judged]
    refine if_neg ?_
    rintro rfl
    refine unheld event valid rfl ?_
    rw [written]
    exact (find_claim s event.eventId delivery.id event.eventId).trans (if_pos rfl)

/-- **A call on a delivery that is not selected is not seen.** -/
theorem restricts_other {s₁ : Store} (sound : Sound s) (restricts : Restricts sel ν s s')
    (stored : s.rawIncomingEvents.find delivery.id = some delivery) (other : sel.takes delivery = false)
    (outcome : Outcome s delivery host s₁) (closed : Closed sel s₁) : Restricts sel ν s₁ s' := by
  have keeps := Atomicity.keepsDeliveries_outcome outcome
  have rows := taken_other stored other outcome
  have own : (s.rawIncomingEvents.find delivery.id).isSome := Option.isSome_of_eq_some stored
  have has : sel.has s delivery.id = false := (has_stored stored).trans other
  have before : ∀ id, sel.has s₁ id = true → sel.has s id = true ∧ id ≠ delivery.id := by
    intro id there
    obtain ⟨row, held, rfl⟩ := taken_of_has there
    rw [rows] at held
    refine ⟨has_taken held, ?_⟩
    intro here
    rw [← here, has_taken held] at has
    cases has
  have logged : (s.eventDecisions.rows.filter fun decision => sel.has s₁ decision.rawIncomingEventId) =
      s.eventDecisions.rows.filter fun decision => sel.has s decision.rawIncomingEventId := by
    apply List.filter_congr
    intro decision logged
    rw [has_kept keeps (sound.consistent.delivered decision logged)]
  refine ⟨?_, ?_, ?_, ?_⟩
  · rw [rows, restricts.inbox]
  · rw [restricts.log]
    rcases Deduplication.logged_outcome outcome with log | ⟨record, log, about, -⟩
    · rw [log, logged]
    · rw [log, List.filter_append, logged, List.filter_cons_of_neg (by rw [about, has_kept keeps own, has]; decide),
        List.filter_nil, List.append_nil]
  · intro id there eventId
    obtain ⟨there, elsewhere⟩ := before id there
    rw [restricts.keys id there eventId]
    constructor
    · exact Deduplication.key_kept outcome
    · intro found
      rcases Deduplication.key_of_outcome outcome found with earlier | ⟨claims, -⟩
      · exact earlier
      · exact absurd claims elsewhere
  · intro orderId watched
    rw [restricts.view orderId watched]
    refine (view_unheld outcome ?_).symm
    rintro event valid rfl found
    have known : s₁.eventOf delivery.id = some event := by
      rw [eventOf_outcome outcome, eventOf_stored stored, validEvent?_eq_some.mpr valid]
    exact closed.others delivery.id event ((has_kept keeps own).trans has) known found watched

/-! ## What the two stores say alike -/

/-- What a decision says, whatever its number and that of its delivery. -/
def content (decision : EventDecisionEntity) : EventDecisionEntity :=
  { decision with id := 0, rawIncomingEventId := 0 }

/-- A delivery and its decision, whatever their numbers. -/
def standing (s : Store) (row : RawIncomingEventEntity) : RawIncomingEventEntity × Option EventDecisionEntity :=
  ({ row with id := 0 }, (s.decisionOf row.id).map content)

/-- A selected delivery has the same decision, if any. -/
theorem standing_of_restricts (sound : Sound s) (sound' : Sound s') (restricts : Restricts sel ν s s')
    (held : row ∈ taken sel s) : standing s' (renumbered ν row) = standing s row := by
  have same : (s'.decisionOf (ν row.id)).map content = (s.decisionOf row.id).map content := by
    cases decided : s.decisionOf row.id with
    | none => rw [undecided_of_restricts sound.consistent restricts held decided, Option.map_none]
    | some decision =>
      obtain ⟨logged, about⟩ := (decisionOf_eq_some sound.consistent).mp decided
      have listed : relabelled ν decision ∈ s'.eventDecisions.rows.map (relabelled id) := by
        rw [restricts.log]
        exact List.mem_map_of_mem (List.mem_filter.mpr ⟨logged, by rw [about, has_taken held]⟩)
      obtain ⟨decision', logged', alike⟩ := List.mem_map.mp listed
      have about' : decision'.rawIncomingEventId = ν row.id :=
        (congrArg EventDecisionEntity.rawIncomingEventId alike).trans (congrArg ν about)
      rw [(decisionOf_eq_some sound'.consistent).mpr ⟨logged', about'⟩, Option.map_some, Option.map_some]
      have said := congrArg content alike
      exact congrArg some said
  simp only [standing, renumbered, same]

theorem standings_of_restricts (sound : Sound s) (sound' : Sound s') (restricts : Restricts sel ν s s') :
    s'.rawIncomingEvents.rows.map (standing s') = (taken sel s).map (standing s) := by
  rw [restricts.inbox, List.map_map]
  exact List.map_congr_left fun row held => standing_of_restricts sound sound' restricts held

theorem log_of_restricts (restricts : Restricts sel ν s s') : s'.eventDecisions.rows.map content =
    (s.eventDecisions.rows.filter fun decision => sel.has s decision.rawIncomingEventId).map content := by
  have same := congrArg (List.map content) restricts.log
  simp only [List.map_map] at same
  exact same

end EventEngine.Selections
