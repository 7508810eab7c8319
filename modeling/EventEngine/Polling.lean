import EventEngine.Lifecycle
import EventEngine.Scheduler
import Mathlib.Data.List.Perm.Basic

/-! The system between two steps. The guard admits one poll, whose remaining
snapshot is still what the inbox stores, so every call of `processEvent` is on
an undecided delivery as it stands. -/
namespace EventEngine
open Relational

/-- The rest of a poll's snapshot: undecided deliveries, each as the inbox
stores it and each once. -/
structure Queued (s : Store) (events : List RawIncomingEventEntity) : Prop where
  stored : ∀ event ∈ events, s.rawIncomingEvents.find event.id = some event
  undecided : ∀ event ∈ events, s.decisionOf event.id = none
  distinct : (events.map (·.id)).Nodup

structure System.Consistent (sys : System) : Prop where
  store : sys.store.Consistent
  guarded : sys.polls = [] ∧ sys.isPolling = false ∨ ∃ poll, sys.polls = [poll] ∧ sys.isPolling = true
  queued : ∀ events, sys.polls = [.processing events] → Queued sys.store events

/-! ## The snapshot -/

theorem mem_findPendingOrRetry {s : Store} {event : RawIncomingEventEntity} :
    event ∈ findPendingOrRetry s ↔ event ∈ s.rawIncomingEvents.rows ∧
      (event.processingStatus = .pending ∨ event.processingStatus = .retry) := by
  unfold findPendingOrRetry
  rw [(List.perm_insertionSort _ _).mem_iff]
  simp

theorem queued_snapshot {s : Store} (consistent : s.Consistent) (now : Time) :
    Queued s (filterAvailableEvents (findPendingOrRetry s) now) := by
  have taken : ∀ event ∈ filterAvailableEvents (findPendingOrRetry s) now, event ∈ findPendingOrRetry s :=
    fun event member => List.mem_of_mem_filter member
  have stored : ∀ event ∈ filterAvailableEvents (findPendingOrRetry s) now,
      s.rawIncomingEvents.find event.id = some event := fun event member =>
    s.rawIncomingEvents.find_self (mem_findPendingOrRetry.mp (taken event member)).1
  refine ⟨stored, ?_, ?_⟩
  · intro event member
    exact (consistent.undecided_iff (stored event member)).mpr (mem_findPendingOrRetry.mp (taken event member)).2
  · have ids : ((findPendingOrRetry s).map (·.id)).Nodup := by
      unfold findPendingOrRetry
      rw [((List.perm_insertionSort _ _).map _).nodup_iff]
      exact s.rawIncomingEvents.ids_nodup.sublist (List.filter_sublist.map _)
    exact ids.sublist (List.filter_sublist.map _)

/-- The first delivery of a queue does not come again. -/
theorem Queued.apart {s : Store} {event : RawIncomingEventEntity} {rest : List RawIncomingEventEntity}
    (queued : Queued s (event :: rest)) : ∀ later ∈ rest, later.id ≠ event.id := by
  have distinct := queued.distinct
  rw [List.map_cons, List.nodup_cons] at distinct
  intro later member same
  exact distinct.1 (same ▸ List.mem_map_of_mem member)

/-- The rest of a snapshot outlives a call on its first delivery. -/
theorem queued_tail {s s' : Store} {event : RawIncomingEventEntity} {rest : List RawIncomingEventEntity}
    {host : Host} (queued : Queued s (event :: rest)) (outcome : Outcome s event host s') : Queued s' rest := by
  refine ⟨?_, ?_, (List.nodup_cons.mp queued.distinct).2⟩
  · intro later member
    rw [findRow_outcome outcome (queued.apart later member)]
    exact queued.stored later (List.mem_cons_of_mem _ member)
  · intro later member
    rw [decisionOf_outcome outcome (queued.apart later member)]
    exact queued.undecided later (List.mem_cons_of_mem _ member)

/-! ## Steps -/

/-- The delivery on which the action calls `processEvent`. -/
def calledDelivery (sys : System) : Action → Option ℕ
  | .process index _ _ _ =>
    match sys.polls[index]? with
    | some (.processing (event :: _)) => some event.id
    | _ => none
  | _ => none

/-- What a step of a consistent system can do. -/
inductive Moves (sys : System) : Action → System → Prop where
  | enqueued (events : List JsonValue) (receivedAt : Time) :
      Moves sys (.enqueueBatch events receivedAt)
        { sys with store := EventEngine.enqueueBatch sys.store events receivedAt }
  | skipped : Moves sys .poll sys
  | opened (idle : sys.polls = []) : Moves sys .poll { sys with isPolling := true, polls := [.reading] }
  | read (now : Time) (reading : sys.polls = [.reading]) :
      Moves sys (.read 0 now)
        { sys with polls := [.processing (filterAvailableEvents (findPendingOrRetry sys.store) now)] }
  | processed {event : RawIncomingEventEntity} {rest : List RawIncomingEventEntity} {host : Host}
      {fault recordingFault : Option Fault} {s' : Store} (working : sys.polls = [.processing (event :: rest)])
      (stored : sys.store.rawIncomingEvents.find event.id = some event)
      (undecided : sys.store.decisionOf event.id = none)
      (ran : processEvent event host fault recordingFault sys.store = (.ok (), s'))
      (outcome : Outcome sys.store event host s') :
      Moves sys (.process 0 host fault recordingFault) { sys with store := s', polls := [.processing rest] }
  | aborted {event : RawIncomingEventEntity} {rest : List RawIncomingEventEntity} {host : Host}
      {fault recordingFault : Option Fault} {errorMessage : String}
      (working : sys.polls = [.processing (event :: rest)]) (unrecorded : recordingFault.isSome)
      (ran : processEvent event host fault recordingFault sys.store = (.error errorMessage, sys.store)) :
      Moves sys (.process 0 host fault recordingFault) { sys with isPolling := false, polls := [] }
  | readFailed (reading : sys.polls = [.reading]) :
      Moves sys (.readFails 0) { sys with isPolling := false, polls := [] }
  | finished (done : sys.polls = [.processing []]) :
      Moves sys (.finish 0) { sys with isPolling := false, polls := [] }

/-- With one poll past the guard, an index that has a poll is the first. -/
theorem only_poll {sys : System} (consistent : sys.Consistent) {index : ℕ} {poll : Poll}
    (found : sys.polls[index]? = some poll) : index = 0 ∧ sys.polls = [poll] := by
  rcases consistent.guarded with ⟨idle, -⟩ | ⟨only, single, -⟩
  · simp [idle] at found
  · rw [single] at found
    cases index with
    | zero =>
      rw [List.getElem?_cons_zero, Option.some.injEq] at found
      exact ⟨rfl, by rw [single, found]⟩
    | succ index => simp at found

/-- **What a step can do.** -/
theorem moves_of_step {sys sys' : System} {action : Action} (consistent : sys.Consistent)
    (taken : step sys action = some sys') : Moves sys action sys' := by
  cases action with
  | enqueueBatch events receivedAt =>
    obtain rfl := Option.some.inj taken
    exact .enqueued events receivedAt
  | poll =>
    rcases consistent.guarded with ⟨idle, free⟩ | ⟨poll, -, busy⟩
    · simp only [step, free, idle, List.nil_append, Bool.false_eq_true, ↓reduceIte, Option.some.injEq] at taken
      subst taken
      exact .opened idle
    · simp only [step, busy, ↓reduceIte, Option.some.injEq] at taken
      subst taken
      exact .skipped
  | read index now =>
    simp only [step] at taken
    split at taken
    · rename_i found
      obtain ⟨rfl, single⟩ := only_poll consistent found
      obtain rfl := Option.some.inj taken
      rw [single]
      exact .read now single
    · cases taken
  | readFails index =>
    simp only [step] at taken
    split at taken
    · rename_i found
      obtain ⟨rfl, single⟩ := only_poll consistent found
      obtain rfl := Option.some.inj taken
      rw [System.endPoll, single]
      exact .readFailed single
    · cases taken
  | process index host fault recordingFault =>
    simp only [step] at taken
    split at taken
    · rename_i event rest found
      obtain ⟨rfl, single⟩ := only_poll consistent found
      have queued := consistent.queued _ single
      have stored := queued.stored event List.mem_cons_self
      have undecided := queued.undecided event List.mem_cons_self
      have operational := consistent.store.toOperational
      rcases processEvent_outcome operational undecided stored host fault recordingFault with
        ⟨s', ran, outcome⟩ | ⟨message, unrecorded, ran⟩
      · rw [ran] at taken
        obtain rfl := Option.some.inj taken
        rw [single]
        exact .processed single stored undecided ran outcome
      · rw [ran] at taken
        obtain rfl := Option.some.inj taken
        rw [System.endPoll, single]
        exact .aborted single unrecorded ran
    · cases taken
  | finish index =>
    simp only [step] at taken
    split at taken
    · rename_i found
      obtain ⟨rfl, single⟩ := only_poll consistent found
      obtain rfl := Option.some.inj taken
      rw [System.endPoll, single]
      exact .finished single
    · cases taken

/-- Without a poll under way the guard is free. -/
theorem System.Consistent.free {sys : System} (consistent : sys.Consistent) (idle : sys.polls = []) :
    sys.isPolling = false := by
  rcases consistent.guarded with ⟨-, free⟩ | ⟨poll, single, -⟩
  · exact free
  · cases idle.symm.trans single

/-- A tick that changes nothing found the guard taken. -/
theorem busy_of_skipped {sys : System} (taken : step sys .poll = some sys) : sys.isPolling = true := by
  by_contra free
  rw [Bool.not_eq_true] at free
  simp only [step, free, Bool.false_eq_true, ↓reduceIte, Option.some.injEq] at taken
  have guard := congrArg System.isPolling taken
  rw [free] at guard
  cases guard

theorem consistent_started (now : Time) : (System.started now).Consistent where
  store := consistent_migrated now
  guarded := Or.inl ⟨rfl, rfl⟩
  queued := by
    intro events working
    cases working

/-- **Every step keeps the system consistent.** -/
theorem consistent_step {sys sys' : System} {action : Action} (consistent : sys.Consistent)
    (taken : step sys action = some sys') : sys'.Consistent := by
  have busy : ∀ {poll}, sys.polls = [poll] → sys.isPolling = true := by
    intro poll single
    rcases consistent.guarded with ⟨idle, -⟩ | ⟨-, -, busy⟩
    · rw [idle] at single
      cases single
    · exact busy
  cases moves_of_step consistent taken with
  | skipped => exact consistent
  | enqueued events receivedAt =>
    refine ⟨consistent_enqueueBatch consistent.store _ _, consistent.guarded, ?_⟩
    intro queue working
    have queued := consistent.queued queue working
    exact ⟨fun event member => findRow_enqueueBatch (queued.stored event member), queued.undecided, queued.distinct⟩
  | opened idle =>
    refine ⟨consistent.store, Or.inr ⟨_, rfl, rfl⟩, ?_⟩
    intro events working
    cases working
  | read now reading =>
    refine ⟨consistent.store, Or.inr ⟨_, rfl, busy reading⟩, ?_⟩
    intro events working
    cases working
    exact queued_snapshot consistent.store now
  | processed working stored undecided ran outcome =>
    refine ⟨consistent_outcome consistent.store stored undecided outcome, Or.inr ⟨_, rfl, busy working⟩, ?_⟩
    intro events left
    cases left
    exact queued_tail (consistent.queued _ working) outcome
  | aborted | readFailed | finished =>
    refine ⟨consistent.store, Or.inl ⟨rfl, rfl⟩, ?_⟩
    intro events working
    cases working

/-! ## Runs -/

/-- A call of `processEvent` on a delivery that is still undecided, and the
store it leaves. -/
structure Call (s : Store) (delivery : RawIncomingEventEntity) (host : Host) (s' : Store) : Prop where
  consistent : s.Consistent
  stored : s.rawIncomingEvents.find delivery.id = some delivery
  undecided : s.decisionOf delivery.id = none
  outcome : Outcome s delivery host s'

variable {permitted : Action → Prop} {start finish : System}

theorem consistent_reaches (reached : Reaches permitted start finish) (consistent : start.Consistent) :
    finish.Consistent := by
  obtain ⟨actions, allowed, run⟩ := reached
  exact run.invariant allowed consistent fun _ _ _ before _ taken => consistent_step before taken

theorem reachable_of_run {now : Time} {actions : List Action} {sys : System}
    (run : Run step (.started now) actions sys) : Reachable sys :=
  ⟨now, actions, fun _ _ => trivial, run⟩

theorem Reachable.step {sys sys' : System} {action : Action} (reachable : Reachable sys)
    (taken : EventEngine.step sys action = some sys') : Reachable sys' := by
  obtain ⟨now, actions, -, run⟩ := reachable
  exact reachable_of_run (run.snoc taken)

theorem Reachable.later {sys sys' : System} (reachable : Reachable sys) (reached : Reaches permitted sys sys') :
    Reachable sys' := by
  obtain ⟨now, actions, -, run⟩ := reachable
  obtain ⟨more, -, rest⟩ := reached
  exact reachable_of_run (run.append rest)

theorem Reachable.consistent {sys : System} (reachable : Reachable sys) : sys.Consistent := by
  obtain ⟨now, reached⟩ := reachable
  exact consistent_reaches reached (consistent_started now)

/-- A step changes the store by a request, by a call, or not at all. -/
theorem store_of_step {sys sys' : System} {action : Action} (consistent : sys.Consistent)
    (taken : step sys action = some sys') :
    sys'.store = sys.store ∨
      (∃ events receivedAt, action = .enqueueBatch events receivedAt ∧
        sys'.store = enqueueBatch sys.store events receivedAt) ∨
      ∃ delivery host, calledDelivery sys action = some delivery.id ∧ Call sys.store delivery host sys'.store := by
  cases moves_of_step consistent taken with
  | enqueued events receivedAt => exact Or.inr (Or.inl ⟨events, receivedAt, rfl, rfl⟩)
  | processed working stored undecided ran outcome =>
    exact Or.inr (Or.inr ⟨_, _, by simp [calledDelivery, working], consistent.store, stored, undecided, outcome⟩)
  | skipped | opened | read | aborted | readFailed | finished => exact Or.inl rfl

/-- A step that calls `processEvent` on a delivery leaves the view of an order
alone, or applies the delivery's event to it. -/
theorem view_of_step {sys sys' : System} {action : Action} (consistent : sys.Consistent)
    (taken : step sys action = some sys') {delivery : ℕ} {event : ValidOrderEvent}
    (called : calledDelivery sys action = some delivery) (known : sys.store.eventOf delivery = some event)
    (orderId : String) :
    sys'.store.view orderId = sys.store.view orderId ∨
      ∃ now application, event.orderId = orderId ∧ Accepts (sys.store.view orderId) event now application ∧
        sys'.store.view orderId = (sys.store.view orderId).apply event application := by
  rcases store_of_step consistent taken with
    same | ⟨events, receivedAt, rfl, same⟩ | ⟨delivery', host, called', call⟩
  · rw [same]
    exact Or.inl rfl
  · cases called
  · obtain rfl : delivery = delivery'.id := Option.some.inj (called.symm.trans called')
    rcases view_outcome call.outcome orderId with same | ⟨event', application, valid, own, accepts, applied⟩
    · exact Or.inl same
    · rw [eventOf_stored call.stored, validEvent?_eq_some, valid, EventValidation.valid.injEq] at known
      subst known
      exact Or.inr ⟨host.now, application, own, accepts, applied⟩

/-- **The invariant rule**: what requests and calls keep holds in every store
of a run. -/
theorem store_invariant (Q : Store → Prop) (reached : Reaches permitted start finish) (consistent : start.Consistent)
    (initial : Q start.store)
    (posted : ∀ s events receivedAt, permitted (.enqueueBatch events receivedAt) → s.Consistent → Q s →
      Q (enqueueBatch s events receivedAt))
    (called : ∀ s delivery host s', Call s delivery host s' → Q s → Q s') : Q finish.store := by
  obtain ⟨actions, allowed, run⟩ := reached
  have holds : finish.Consistent ∧ Q finish.store := by
    apply run.invariant allowed ⟨consistent, initial⟩
    rintro before action after ⟨consistent, holds⟩ allowed taken
    refine ⟨consistent_step consistent taken, ?_⟩
    rcases store_of_step consistent taken with same | ⟨events, receivedAt, rfl, same⟩ | ⟨delivery, host, -, call⟩
    · rw [same]
      exact holds
    · rw [same]
      exact posted _ _ _ allowed consistent.store holds
    · exact called _ _ _ _ call holds
  exact holds.2

/-- What the migrated database has, and requests and calls keep, holds in every
reachable store. -/
theorem reachable_invariant (Q : Store → Prop) {sys : System} (reachable : Reachable sys)
    (migrated : ∀ now, Q (Store.migrated now))
    (posted : ∀ s events receivedAt, s.Consistent → Q s → Q (enqueueBatch s events receivedAt))
    (called : ∀ s delivery host s', Call s delivery host s' → Q s → Q s') : Q sys.store := by
  obtain ⟨now, reached⟩ := reachable
  exact store_invariant Q reached (consistent_started now) (migrated now)
    (fun s events receivedAt _ => posted s events receivedAt) called

/-- **The history rule**: what relates a store to the one after a request or a
call relates it to every store later in the run. -/
theorem store_relates (R : Store → Store → Prop) (reached : Reaches permitted start finish)
    (consistent : start.Consistent) (refl : ∀ s, R s s) (trans : ∀ s t u, R s t → R t u → R s u)
    (posted : ∀ s events receivedAt, permitted (.enqueueBatch events receivedAt) → s.Consistent →
      R s (enqueueBatch s events receivedAt))
    (called : ∀ s delivery host s', Call s delivery host s' → R s s') : R start.store finish.store := by
  refine store_invariant (R start.store) reached consistent (refl _) ?_ ?_
  · intro s events receivedAt allowed consistent before
    exact trans _ _ _ before (posted s events receivedAt allowed consistent)
  · intro s delivery host s' call before
    exact trans _ _ _ before (called s delivery host s' call)

/-- What a delivery validates with is known for good. -/
theorem eventOf_kept (reached : Reaches permitted start finish) (consistent : start.Consistent) {id : ℕ}
    {event : ValidOrderEvent} (known : start.store.eventOf id = some event) :
    finish.store.eventOf id = some event := by
  refine store_invariant (·.eventOf id = some event) reached consistent known ?_ ?_
  · exact fun _ events receivedAt _ _ known => eventOf_enqueueBatch known events receivedAt
  · exact fun _ _ _ _ call known => (eventOf_outcome call.outcome id).trans known

/-! ## Decisions -/

/-- **The log rule**: what every call records of its delivery's event holds of
every decision in the log, and of the event of the delivery it is about. -/
theorem decisions_reachable (Q : EventDecisionEntity → Option ValidOrderEvent → Prop) {sys : System}
    (reachable : Reachable sys)
    (logs : ∀ s delivery host s', Outcome s delivery host s' → s'.eventDecisions.rows = s.eventDecisions.rows ∨
      ∃ record : EventDecisionEntity, s'.eventDecisions.rows = s.eventDecisions.rows ++ [record] ∧
        record.rawIncomingEventId = delivery.id ∧ Q record (validEvent? delivery)) :
    ∀ decision ∈ sys.store.eventDecisions.rows, Q decision (sys.store.eventOf decision.rawIncomingEventId) := by
  apply reachable_invariant
    (fun s => ∀ decision ∈ s.eventDecisions.rows, Q decision (s.eventOf decision.rawIncomingEventId)) reachable
  · intro now decision member
    cases member
  · intro s events receivedAt consistent recorded decision member
    rw [eventOf_enqueueBatch_of_found (consistent.delivered decision member)]
    exact recorded decision member
  · intro s delivery host s' call recorded decision member
    rw [eventOf_outcome call.outcome]
    rcases logs s delivery host s' call.outcome with same | ⟨record, same, about, holds⟩
    · rw [same] at member
      exact recorded decision member
    · rw [same, List.mem_append, List.mem_singleton] at member
      rcases member with before | rfl
      · exact recorded decision before
      · rw [about, eventOf_stored call.stored]
        exact holds

/-- **The application rule**: what the record of every application has, every
applied decision in the log has. -/
theorem applications_reachable (Q : EventDecisionEntity → ValidOrderEvent → Prop) {sys : System}
    (reachable : Reachable sys)
    (records : ∀ view event (host : Host) application delivery id, judge view event host.now = .applied application →
      Q { application.record delivery host with id } event) :
    ∀ decision ∈ sys.store.eventDecisions.rows,
      decision.decision = .accepted ∨ decision.decision = .partiallyApplied →
        ∃ event, sys.store.eventOf decision.rawIncomingEventId = some event ∧ Q decision event := by
  apply decisions_reachable (fun decision known =>
    decision.decision = .accepted ∨ decision.decision = .partiallyApplied → ∃ event, known = some event ∧ Q decision event)
    reachable
  intro s delivery host s' outcome
  cases outcome.effect with
  | unapplied _ _ log =>
    rcases log with unlogged | ⟨record, logged, about, notAccepted, notMerged⟩
    · exact Or.inl unlogged
    · refine Or.inr ⟨record, logged, about, ?_⟩
      rintro (accepted | merged)
      · exact absurd accepted notAccepted
      · exact absurd merged notMerged
  | @applied event application valid judged written =>
    subst written
    exact Or.inr ⟨_, rfl, rfl, fun _ => ⟨event, validEvent?_eq_some.mpr valid, records _ _ _ _ _ _ judged⟩⟩

/-! ## Decisions are final -/

/-- A decided delivery, with its decision, is found unchanged in a later store. -/
def KeepsDecided (s t : Store) : Prop :=
  ∀ id row decision, s.rawIncomingEvents.find id = some row → s.decisionOf id = some decision →
    t.rawIncomingEvents.find id = some row ∧ t.decisionOf id = some decision

theorem keepsDecided_reaches {permitted : Action → Prop} {start finish : System}
    (reached : Reaches permitted start finish) (consistent : start.Consistent) :
    KeepsDecided start.store finish.store := by
  apply store_relates KeepsDecided reached consistent
  · intro s id row decision found decided
    exact ⟨found, decided⟩
  · intro s t u first second id row decision found decided
    obtain ⟨found, decided⟩ := first id row decision found decided
    exact second id row decision found decided
  · intro s events receivedAt _ _ id row decision found decided
    exact ⟨findRow_enqueueBatch found, decided⟩
  · intro s delivery host s' call id row decision found decided
    have other : id ≠ delivery.id := by
      rintro rfl
      rw [call.undecided] at decided
      cases decided
    rw [findRow_outcome call.outcome other, decisionOf_outcome call.outcome other]
    exact ⟨found, decided⟩

end EventEngine
