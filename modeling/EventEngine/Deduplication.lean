import EventEngine.Polling

/-! Deduplication: an event key, once claimed, is held for good by a delivery
that validates with it, and only its holder is ever decided on its merits. -/
namespace EventEngine.Deduplication
open EventEngine Relational

/-- A decision on the merits of an event, as opposed to on the delivery. -/
def OnMerits (decision : EventDecisionEntity) : Prop :=
  decision.decision = .accepted ∨ decision.decision = .partiallyApplied ∨ decision.decision = .rejected

/-- The claims and the decisions agree. -/
structure Claimed (s : Store) : Prop where
  held : ∀ eventId key, s.processedEventKeys.find eventId = some key →
    ∃ event, s.eventOf key.firstRawIncomingEventId = some event ∧ event.eventId = eventId
  merits : ∀ decision ∈ s.eventDecisions.rows, OnMerits decision →
    ∀ event, s.eventOf decision.rawIncomingEventId = some event →
      s.processedEventKeys.find event.eventId = some ⟨event.eventId, decision.rawIncomingEventId⟩
  duplicates : ∀ decision ∈ s.eventDecisions.rows, decision.decision = .duplicate →
    ∃ event key, s.eventOf decision.rawIncomingEventId = some event ∧
      s.processedEventKeys.find event.eventId = some key ∧
      key.firstRawIncomingEventId ≠ decision.rawIncomingEventId

variable {s s' : Store} {delivery : RawIncomingEventEntity} {host : Host}

/-! ## Claims are permanent -/

/-- A call leaves the keys alone, or claims the key of its delivery's event. -/
theorem keys_outcome (outcome : Outcome s delivery host s') :
    s'.processedEventKeys = s.processedEventKeys ∨
      ∃ event, validate delivery = .valid event ∧ s.Claimable event delivery.id ∧
        s'.processedEventKeys = (s.claim event.eventId delivery.id).processedEventKeys := by
  cases outcome with
  | retried | failed => exact Or.inl rfl
  | committed committed =>
    cases committed with
    | invalid | duplicate => exact Or.inl rfl
    | deferred valid claimable | expired valid claimable | rejected valid claimable | applied valid claimable =>
      exact Or.inr ⟨_, valid, claimable, rfl⟩

theorem key_kept (outcome : Outcome s delivery host s') {eventId : String} {key : ProcessedEventKeyEntity}
    (held : s.processedEventKeys.find eventId = some key) : s'.processedEventKeys.find eventId = some key := by
  rcases keys_outcome outcome with same | ⟨event, -, claimable, same⟩
  · rw [same]
    exact held
  · rw [same, find_claim]
    split
    · rename_i here
      subst here
      have named : key.eventId = event.eventId := KeyedTable.key_of_find held
      rw [← named, ← claimable key held]
    · exact held

theorem key_of_outcome (outcome : Outcome s delivery host s') {eventId : String} {key : ProcessedEventKeyEntity}
    (held : s'.processedEventKeys.find eventId = some key) :
    s.processedEventKeys.find eventId = some key ∨
      key.firstRawIncomingEventId = delivery.id ∧
        ∃ event, validate delivery = .valid event ∧ event.eventId = eventId := by
  rcases keys_outcome outcome with same | ⟨event, valid, -, same⟩
  · rw [same] at held
    exact Or.inl held
  · rw [same, find_claim] at held
    split at held
    · rename_i here
      obtain rfl := Option.some.inj held
      exact Or.inr ⟨rfl, event, valid, here.symm⟩
    · exact Or.inl held

theorem keys_kept {permitted : Action → Prop} {start finish : System} (reached : Reaches permitted start finish)
    (consistent : start.Consistent) {eventId : String} {key : ProcessedEventKeyEntity}
    (held : start.store.processedEventKeys.find eventId = some key) :
    finish.store.processedEventKeys.find eventId = some key := by
  refine store_invariant (·.processedEventKeys.find eventId = some key) reached consistent held ?_ ?_
  · exact fun _ _ _ _ _ kept => kept
  · exact fun _ _ _ _ call kept => key_kept call.outcome kept

/-! ## Decisions follow the claims -/

theorem claimed_migrated (now : Time) : Claimed (Store.migrated now) where
  held := by
    intro eventId key held
    cases held
  merits := by
    intro decision member
    cases member
  duplicates := by
    intro decision member
    cases member

theorem claimed_enqueueBatch (consistent : s.Consistent) (claimed : Claimed s) (events : List JsonValue)
    (receivedAt : Time) : Claimed (enqueueBatch s events receivedAt) where
  held := by
    intro eventId key held
    obtain ⟨event, known, named⟩ := claimed.held eventId key held
    exact ⟨event, eventOf_enqueueBatch known _ _, named⟩
  merits := by
    intro decision member merits event known
    rw [eventOf_enqueueBatch_of_found (consistent.delivered decision member)] at known
    exact claimed.merits decision member merits event known
  duplicates := by
    intro decision member duplicate
    obtain ⟨event, key, known, held, other⟩ := claimed.duplicates decision member duplicate
    exact ⟨event, key, eventOf_enqueueBatch known _ _, held, other⟩

/-- A call logs nothing, or a record about its delivery: one on the merits only
when the delivery now holds its event's key, a duplicate only when another
delivery does. -/
theorem logged_outcome (outcome : Outcome s delivery host s') :
    s'.eventDecisions.rows = s.eventDecisions.rows ∨
      ∃ record : EventDecisionEntity, s'.eventDecisions.rows = s.eventDecisions.rows ++ [record] ∧
        record.rawIncomingEventId = delivery.id ∧
        (OnMerits record → ∀ event, validate delivery = .valid event →
          s'.processedEventKeys.find event.eventId = some ⟨event.eventId, delivery.id⟩) ∧
        (record.decision = .duplicate → ∃ event key, validate delivery = .valid event ∧
          s'.processedEventKeys.find event.eventId = some key ∧ key.firstRawIncomingEventId ≠ delivery.id) := by
  cases outcome with
  | retried => exact Or.inl rfl
  | failed =>
    refine Or.inr ⟨_, rfl, rfl, ?_, fun duplicate => by cases duplicate⟩
    rintro (absurd | absurd | absurd) <;> cases absurd
  | committed committed =>
    cases committed with
    | deferred => exact Or.inl rfl
    | invalid invalid =>
      refine Or.inr ⟨_, rfl, rfl, ?_, fun duplicate => by cases duplicate⟩
      intro _ event valid
      rw [invalid] at valid
      cases valid
    | duplicate valid held other =>
      refine Or.inr ⟨_, rfl, rfl, ?_, fun _ => ⟨_, _, valid, held, other⟩⟩
      rintro (absurd | absurd | absurd) <;> cases absurd
    | expired valid | rejected valid =>
      refine Or.inr ⟨_, rfl, rfl, ?_, fun duplicate => by cases duplicate⟩
      intro _ event valid'
      obtain rfl := EventValidation.valid.inj (valid.symm.trans valid')
      exact (find_claim s _ _ _).trans (if_pos rfl)
    | applied valid _ judged =>
      refine Or.inr ⟨_, rfl, rfl, ?_, ?_⟩
      · intro _ event valid'
        obtain rfl := EventValidation.valid.inj (valid.symm.trans valid')
        exact (find_claim s _ _ _).trans (if_pos rfl)
      · intro duplicate
        rcases (accepts_of_judge judged).decision with accepted | merged
        · cases accepted.symm.trans duplicate
        · cases merged.symm.trans duplicate

theorem claimed_call (call : Call s delivery host s') (claimed : Claimed s) : Claimed s' := by
  have own : s.eventOf delivery.id = validEvent? delivery := eventOf_stored call.stored
  refine ⟨?_, ?_, ?_⟩
  · intro eventId key held
    rw [eventOf_outcome call.outcome]
    rcases key_of_outcome call.outcome held with before | ⟨first, event, valid, named⟩
    · exact claimed.held eventId key before
    · rw [first, own]
      exact ⟨event, validEvent?_eq_some.mpr valid, named⟩
  · intro decision member merits event known
    rw [eventOf_outcome call.outcome] at known
    rcases logged_outcome call.outcome with same | ⟨record, same, about, onMerits, -⟩
    · rw [same] at member
      exact key_kept call.outcome (claimed.merits decision member merits event known)
    · rw [same, List.mem_append, List.mem_singleton] at member
      rcases member with before | rfl
      · exact key_kept call.outcome (claimed.merits decision before merits event known)
      · rw [about, own, validEvent?_eq_some] at known
        rw [about]
        exact onMerits merits event known
  · intro decision member duplicate
    rw [eventOf_outcome call.outcome]
    have earlier : decision ∈ s.eventDecisions.rows → ∃ event key,
        s.eventOf decision.rawIncomingEventId = some event ∧
          s'.processedEventKeys.find event.eventId = some key ∧
          key.firstRawIncomingEventId ≠ decision.rawIncomingEventId := by
      intro before
      obtain ⟨event, key, known, held, other⟩ := claimed.duplicates decision before duplicate
      exact ⟨event, key, known, key_kept call.outcome held, other⟩
    rcases logged_outcome call.outcome with same | ⟨record, same, about, -, copies⟩
    · rw [same] at member
      exact earlier member
    · rw [same, List.mem_append, List.mem_singleton] at member
      rcases member with before | rfl
      · exact earlier before
      · obtain ⟨event, key, valid, held, other⟩ := copies duplicate
        rw [about, own]
        exact ⟨event, key, validEvent?_eq_some.mpr valid, held, other⟩

theorem claimed_reachable {sys : System} (reachable : Reachable sys) : Claimed sys.store := by
  apply reachable_invariant Claimed reachable claimed_migrated
  · exact fun s events receivedAt consistent claimed => claimed_enqueueBatch consistent claimed events receivedAt
  · exact fun s delivery host s' call claimed => claimed_call call claimed

/-! ## The guarantee -/

/-- A delivery a transaction leaves in `RETRY` without throwing holds its key. -/
theorem deferred_holds (committed : Committed s delivery host s') {row : RawIncomingEventEntity}
    (stored : s'.rawIncomingEvents.find delivery.id = some row) (waits : row.processingStatus = .retry)
    {event : ValidOrderEvent} (valid : validate delivery = .valid event) :
    s'.processedEventKeys.find event.eventId = some ⟨event.eventId, delivery.id⟩ := by
  have settles : ∀ (t : Store) (record : EventDecisionEntity) (message : Option String) (count : Option ℕ),
      record.rawIncomingEventId = delivery.id →
      (t.settle record message count).rawIncomingEvents.find delivery.id = some row → False := by
    intro t record message count about found
    rw [findRow_settle, about] at found
    obtain ⟨old, -, rfl⟩ := Option.map_eq_some_iff.mp found
    simp only [↓reduceIte] at waits
    cases waits
  cases committed with
  | deferred valid' =>
    obtain rfl := EventValidation.valid.inj (valid.symm.trans valid')
    exact (find_claim s _ _ _).trans (if_pos rfl)
  | invalid | duplicate | expired | rejected | applied => exact (settles _ _ _ _ rfl stored).elim

/-- What holds of every event key in a reachable system, and of it for good. -/
structure Exact (sys : System) : Prop where
  /-- A key, once claimed, keeps its holder, which validates with it. -/
  permanent : ∀ eventId key, sys.store.processedEventKeys.find eventId = some key →
    (∃ event, sys.store.eventOf key.firstRawIncomingEventId = some event ∧ event.eventId = eventId) ∧
    ∀ later, Reaches (fun _ => True) sys later → later.store.processedEventKeys.find eventId = some key
  /-- A delivery decided on its merits holds its event's key. -/
  holder : ∀ decision ∈ sys.store.eventDecisions.rows, OnMerits decision →
    ∀ event, sys.store.eventOf decision.rawIncomingEventId = some event →
      sys.store.processedEventKeys.find event.eventId = some ⟨event.eventId, decision.rawIncomingEventId⟩
  /-- Of the deliveries that validate with one key, at most one is decided on its merits. -/
  at_most_one : ∀ first ∈ sys.store.eventDecisions.rows, ∀ second ∈ sys.store.eventDecisions.rows,
    OnMerits first → OnMerits second → ∀ event event',
      sys.store.eventOf first.rawIncomingEventId = some event →
      sys.store.eventOf second.rawIncomingEventId = some event' → event.eventId = event'.eventId →
      first = second
  /-- A duplicate is a duplicate of another delivery. -/
  duplicate : ∀ decision ∈ sys.store.eventDecisions.rows, decision.decision = .duplicate →
    ∃ event key, sys.store.eventOf decision.rawIncomingEventId = some event ∧
      sys.store.processedEventKeys.find event.eventId = some key ∧
      key.firstRawIncomingEventId ≠ decision.rawIncomingEventId
  /-- A delivery deferred by a transaction that did not throw holds its key from
  then on, and is never decided a duplicate. -/
  deferred : ∀ index host fault recordingFault after delivery rest,
    sys.polls[index]? = some (.processing (delivery :: rest)) →
    (transaction fault (processEventTransaction delivery host) sys.store).1 = .ok () →
    step sys (.process index host fault recordingFault) = some after →
    ∀ row, after.store.rawIncomingEvents.find delivery.id = some row → row.processingStatus = .retry →
    ∀ event, after.store.eventOf delivery.id = some event →
    ∀ later, Reaches (fun _ => True) after later →
      later.store.processedEventKeys.find event.eventId = some ⟨event.eventId, delivery.id⟩ ∧
      ∀ decision ∈ later.store.eventDecisions.rows, decision.rawIncomingEventId = delivery.id →
        decision.decision ≠ .duplicate

/-- A call whose transaction returned committed it. -/
theorem committed_of_returned (operational : s.Operational) (undecided : s.decisionOf delivery.id = none)
    {fault recordingFault : Option Fault} (ran : processEvent delivery host fault recordingFault s = (.ok (), s'))
    (returned : (transaction fault (processEventTransaction delivery host) s).1 = .ok ()) :
    Committed s delivery host s' := by
  have result := processEventTransaction_run operational delivery host
  have committed := processed_committed host undecided
  rcases transaction_cases fault (processEventTransaction delivery host) s with
    ⟨message, thrown⟩ | ⟨value, s'', same, done⟩
  · rw [thrown] at returned
    cases returned
  · rw [result] at same
    cases same
    simp only [processEvent, done, Prod.mk.injEq, true_and] at ran
    rwa [ran] at committed

/-- A delivery that holds its event's key is not a duplicate. -/
theorem holder_not_duplicate {sys : System} (reachable : Reachable sys) {id : ℕ} {event : ValidOrderEvent}
    (known : sys.store.eventOf id = some event)
    (held : sys.store.processedEventKeys.find event.eventId = some ⟨event.eventId, id⟩) :
    ∀ decision ∈ sys.store.eventDecisions.rows, decision.rawIncomingEventId = id → decision.decision ≠ .duplicate := by
  intro decision member about duplicate
  obtain ⟨copied, key, known', held', other⟩ := (claimed_reachable reachable).duplicates decision member duplicate
  rw [about, known, Option.some.injEq] at known'
  subst known'
  rw [held, Option.some.injEq] at held'
  rw [← held', about] at other
  exact other rfl

/-- **Deduplication is exact over whole runs.** -/
theorem deduplication_exact {sys : System} (reachable : Reachable sys) : Exact sys := by
  have consistent := reachable.consistent
  have claimed := claimed_reachable reachable
  refine ⟨?_, claimed.merits, ?_, claimed.duplicates, ?_⟩
  · intro eventId key held
    exact ⟨claimed.held eventId key held, fun later reached => keys_kept reached consistent held⟩
  · intro first member second member' merits merits' event event' known known' same
    have held := claimed.merits first member merits event known
    rw [same, claimed.merits second member' merits' event' known', Option.some.injEq,
      ProcessedEventKeyEntity.mk.injEq] at held
    exact List.inj_on_of_nodup_map consistent.store.decided_once member member' held.2.symm
  · intro index host fault recordingFault after delivery rest working returned taken row stored waits event known
      later reached
    have reachable' := reachable.step taken
    cases moves_of_step consistent taken with
    | @processed queued _ _ _ _ s' only stored' undecided ran outcome =>
      rw [only, List.getElem?_cons_zero, Option.some.injEq, Poll.processing.injEq, List.cons.injEq] at working
      obtain rfl := working.1
      have committed := committed_of_returned consistent.store.toOperational undecided ran returned
      have valid : validate queued = .valid event := by
        have before := known
        rwa [eventOf_outcome outcome, eventOf_stored stored', validEvent?_eq_some] at before
      have held := keys_kept reached reachable'.consistent (deferred_holds committed stored waits valid)
      have known' := eventOf_kept reached reachable'.consistent known
      exact ⟨held, holder_not_duplicate (reachable'.later reached) known' held⟩
    | aborted only unrecorded ran =>
      rw [only, List.getElem?_cons_zero, Option.some.injEq, Poll.processing.injEq, List.cons.injEq] at working
      obtain rfl := working.1
      unfold processEvent at ran
      split at ran
      · cases ran
      · rename_i thrown
        rw [thrown] at returned
        cases returned

/-- The guarantee at the end of a run with a deferral, a failure and a copy. -/
theorem deduplication_exact_out_of_order : Exact outOfOrderSystem :=
  deduplication_exact (reachable_of_run outOfOrder_run)

end EventEngine.Deduplication
