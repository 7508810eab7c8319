import EventEngine.RestrictedRuns
import EventEngine.Statistics

/-! What is delivered again does no harm. Of a whole run, the deliveries that
hold no event key in the end can be left out, with every call on them: orders,
versions, claims and the decisions on all other deliveries stay what they were.
Copies of an event are such deliveries, and so are items that are no events. -/
namespace EventEngine.Redelivery
open EventEngine Relational Selections

/-! ## A run without some deliveries -/

/-- All deliveries but some, with all orders. -/
def allBut (leftOut : ℕ → Bool) : Selection where
  takes row := !leftOut row.id
  watches _ := True
  steady row row' same := by rw [same.id]

/-- What is left of a sequence of actions performed from a state when some
deliveries are left out. -/
def without (leftOut : ℕ → Bool) : System → List Action → List Action := residue step (kept (allBut leftOut))

/-- The deliveries that are not left out. -/
def remaining (leftOut : ℕ → Bool) (s : Store) : List RawIncomingEventEntity :=
  s.rawIncomingEvents.rows.filter fun row => !leftOut row.id

/-- No delivery left out holds an event key. -/
def Unheld (leftOut : ℕ → Bool) (s : Store) : Prop :=
  ∀ eventId key, s.processedEventKeys.find eventId = some key → leftOut key.firstRawIncomingEventId = false

variable {leftOut : ℕ → Bool} {ν : ℕ → ℕ} {sys sys' : System} {s s' : Store}

theorem has_allBut {id : ℕ} (known : (s.rawIncomingEvents.find id).isSome) :
    (allBut leftOut).has s id = !leftOut id := by
  obtain ⟨row, found⟩ := Option.isSome_iff_exists.mp known
  have named : row.id = id := s.rawIncomingEvents.id_of_find found
  simp only [Selection.has, found, Option.any_some, allBut, named]

/-- The holder of a key remains. -/
theorem has_holder (claimed : Deduplication.Claimed s) (unheld : Unheld leftOut s) {eventId : String}
    {key : ProcessedEventKeyEntity} (found : s.processedEventKeys.find eventId = some key) :
    (allBut leftOut).has s key.firstRawIncomingEventId = true := by
  obtain ⟨event, known, -⟩ := claimed.held eventId key found
  obtain ⟨row, stored, -⟩ := Option.bind_eq_some_iff.mp known
  rw [has_allBut (Option.isSome_of_eq_some stored), unheld eventId key found, Bool.not_false]

/-- **What is left when no holder of a key is left out is closed.** -/
theorem closed_allBut (claimed : Deduplication.Claimed s) (unheld : Unheld leftOut s) : Closed (allBut leftOut) s where
  watched _ _ _ _ := trivial
  holders _ _ _ _ _ found := has_holder claimed unheld found
  others id event has known found := by
    rw [has_holder claimed unheld found] at has
    cases has

/-- Deliveries that hold no key in the end never held one. -/
theorem unheld_before {permitted : Action → Prop} (reached : Reaches permitted sys sys') (consistent : sys.Consistent)
    (unheld : Unheld leftOut sys'.store) : Unheld leftOut sys.store :=
  fun eventId key found => unheld eventId key (Deduplication.keys_kept reached consistent found)

/-! ## The guarantee -/

/-- All but the deliveries left out is the same in a store that never had them. -/
structure UnchangedBut (leftOut : ℕ → Bool) (s s' : Store) : Prop where
  orders : ∀ orderId, s'.orders.find orderId = s.orders.find orderId
  versions : ∀ orderId fieldName,
    s'.orderFieldVersions.find (orderId, fieldName) = s.orderFieldVersions.find (orderId, fieldName)
  claimed : ∀ eventId, (s'.processedEventKeys.find eventId).isSome = (s.processedEventKeys.find eventId).isSome
  /-- Delivery by delivery: the status, the attempts, the availability and the
  last error, and the decision with its reason, statuses and fields. -/
  deliveries : s'.rawIncomingEvents.rows.map (standing s') = (remaining leftOut s).map (standing s)
  /-- The audit log is the same, but for the decisions on the deliveries left out. -/
  log : s'.eventDecisions.rows.map content =
    (s.eventDecisions.rows.filter fun decision => !leftOut decision.rawIncomingEventId).map content
  /-- So many events are reported as valid. -/
  valid : ∀ stats, s.stats = some stats → ∃ stats', s'.stats = some stats' ∧
    stats'.validEventsCount = stats.validEventsCount

theorem log_of_allBut (consistent : s.Consistent) (restricts : Restricts (allBut leftOut) ν s s') :
    s'.eventDecisions.rows.map content =
      (s.eventDecisions.rows.filter fun decision => !leftOut decision.rawIncomingEventId).map content := by
  rw [log_of_restricts restricts]
  congr 1
  apply List.filter_congr
  intro decision logged
  exact has_allBut (consistent.delivered decision logged)

/-- An event is claimed in both stores or in neither. -/
theorem claimed_of_allBut (sound : Sound s) (sound' : Sound s') (unheld : Unheld leftOut s)
    (restricts : Restricts (allBut leftOut) ν s s') (eventId : String) :
    (s'.processedEventKeys.find eventId).isSome = (s.processedEventKeys.find eventId).isSome := by
  rw [Bool.eq_iff_iff, Option.isSome_iff_exists, Option.isSome_iff_exists]
  constructor
  · rintro ⟨key, found⟩
    obtain ⟨id, -, -, original⟩ := holder_of_restricts sound' restricts found
    exact ⟨_, original⟩
  · rintro ⟨key, found⟩
    have named : key.eventId = eventId := KeyedTable.key_of_find found
    have has := has_holder sound.claimed unheld found
    exact ⟨_, (restricts.keys _ has eventId).mpr (by rw [found, ← named])⟩

/-- What was decided on its merits and took effect holds its key. -/
theorem valid_remains (reachable : Reachable sys) (unheld : Unheld leftOut sys.store) {decision : EventDecisionEntity}
    (logged : decision ∈ sys.store.eventDecisions.rows)
    (applied : decision.decision = .accepted ∨ decision.decision = .partiallyApplied) :
    leftOut decision.rawIncomingEventId = false := by
  obtain ⟨known, -⟩ := OrderViews.reportable_reachable reachable decision logged applied
  obtain ⟨event, known⟩ := Option.isSome_iff_exists.mp known
  have claimed := Deduplication.claimed_reachable reachable
  exact unheld _ _ (claimed.merits decision logged (applied.imp_right Or.inl) event known)

theorem valid_of_allBut (reachable : Reachable sys) (reachable' : Reachable sys')
    (unheld : Unheld leftOut sys.store) (restricts : Restricts (allBut leftOut) ν sys.store sys'.store)
    {stats : EngineStatsEntity} (kept : sys.store.stats = some stats) :
    ∃ stats', sys'.store.stats = some stats' ∧ stats'.validEventsCount = stats.validEventsCount := by
  obtain ⟨stats₁, kept₁, counts⟩ := Statistics.counted_reachable reachable
  obtain ⟨stats', kept', counts'⟩ := Statistics.counted_reachable reachable'
  obtain rfl := Option.some.inj (kept.symm.trans kept₁)
  refine ⟨stats', kept', ?_⟩
  have applies : ∀ log : List EventDecisionEntity,
      Statistics.decidedAs [.accepted, .partiallyApplied] log =
        Statistics.decidedAs [.accepted, .partiallyApplied] (log.map content) := by
    intro log
    simp only [Statistics.decidedAs, List.countP_map]
    rfl
  rw [counts'.valid, counts.valid, applies, log_of_allBut reachable.consistent.store restricts, ← applies,
    Statistics.decidedAs, List.countP_filter]
  apply List.countP_congr
  intro decision logged
  have remains := valid_remains reachable unheld logged
  simp only [List.mem_cons, List.not_mem_nil, or_false, Bool.and_eq_true, decide_eq_true_eq, Bool.not_eq_true']
  exact ⟨fun both => both.1, fun applied => ⟨applied, remains applied⟩⟩

theorem unchanged_of_allBut (reachable : Reachable sys) (reachable' : Reachable sys')
    (unheld : Unheld leftOut sys.store) (restricts : Restricts (allBut leftOut) ν sys.store sys'.store) :
    UnchangedBut leftOut sys.store sys'.store where
  orders orderId := congrArg OrderView.order (restricts.view orderId trivial)
  versions orderId fieldName := congrFun (congrArg OrderView.version (restricts.view orderId trivial)) fieldName
  claimed := claimed_of_allBut (sound_reachable reachable) (sound_reachable reachable') unheld restricts
  deliveries := standings_of_restricts (sound_reachable reachable) (sound_reachable reachable') restricts
  log := log_of_allBut reachable.consistent.store restricts
  valid _ kept := valid_of_allBut reachable reachable' unheld restricts kept

/-- **Deliveries that end up without a key are invisible**: at every point of a
run, all else is as it is at the corresponding point of the run without them. -/
theorem keyless_deliveries_are_invisible {now : Time} {actions : List Action}
    (run : Run step (.started now) actions sys)
    (recorded : ∀ action ∈ actions, DecidedOnce.RecordsFailures action) (unheld : Unheld leftOut sys.store) :
    ∀ before after, actions = before ++ after → ∃ point point' rest,
      Run step (.started now) before point ∧
      Run step (.started now) (without leftOut (.started now) before) point' ∧
      without leftOut (.started now) actions = without leftOut (.started now) before ++ rest ∧
      UnchangedBut leftOut point.store point'.store := by
  rintro before after rfl
  obtain ⟨point, former, latter⟩ := run.split
  have reachable := reachable_of_run former
  have reached : Reaches (fun _ => True) point sys := ⟨after, fun _ _ => trivial, latter⟩
  have earlier := unheld_before reached reachable.consistent unheld
  have closed := closed_allBut (Deduplication.claimed_reachable reachable) earlier
  obtain ⟨point', run', ν, simulates⟩ :=
    simulates_run former (fun a member => recorded a (List.mem_append_left _ member)) closed
  exact ⟨point, point', _, former, run', former.residue_append after,
    unchanged_of_allBut reachable (reachable_of_run run') earlier simulates.store⟩

/-! ## Copies and items that are no events -/

/-- The deliveries that were decided to be copies, or are not events at all. -/
def unneeded (s : Store) (id : ℕ) : Bool :=
  (s.decisionOf id).any (·.decision = .duplicate) || (s.eventOf id).isNone

/-- The holder of a key is an event, and is not decided a copy. -/
theorem unheld_of_unneeded (reachable : Reachable sys) : Unheld (unneeded sys.store) sys.store := by
  intro eventId key found
  obtain ⟨event, known, named⟩ := (Deduplication.claimed_reachable reachable).held eventId key found
  rw [← named] at found
  have named' : key.eventId = event.eventId := KeyedTable.key_of_find found
  have original := Deduplication.holder_not_duplicate reachable known (by rw [found, ← named'])
  cases decided : sys.store.decisionOf key.firstRawIncomingEventId with
  | none => simp [unneeded, decided, known]
  | some decision =>
    obtain ⟨logged, about⟩ := (decisionOf_eq_some reachable.consistent.store).mp decided
    simpa [unneeded, decided, known] using original decision logged about

/-- A creation comes twice, with a payment and an item that is no event; the
first attempt on the copy meets a busy database. -/
def repeatedActions : List Action :=
  [.enqueueBatch
      [postedItem "c" "o" .orderCreated 1 (amountPayload "amount" 50),
        postedItem "p" "o" .paymentCaptured 2 (amountPayload "amount" 50),
        postedItem "c" "o" .orderCreated 1 (amountPayload "amount" 50), .number (.finite 1)] 0,
    .poll, .read 0 0, .process 0 (stoppedAt 0) none none,
    .process 0 (stoppedAt 0) (some ⟨1, "SQLITE_BUSY: database is locked"⟩) none,
    .process 0 (stoppedAt 0) none none, .process 0 (stoppedAt 0) none none, .finish 0,
    .poll, .read 0 20000, .process 0 (stoppedAt 20000) none none, .finish 0]

theorem repeatedActions_enabled : (execute step (.started 0) repeatedActions).isSome := by decide +kernel

def repeatedSystem : System := (execute step (.started 0) repeatedActions).get repeatedActions_enabled

theorem keyless_deliveries_are_invisible_repeated : ∃ point point' rest,
    Run step (.started 0) repeatedActions point ∧
    Run step (.started 0) (without (unneeded repeatedSystem.store) (.started 0) repeatedActions) point' ∧
    without (unneeded repeatedSystem.store) (.started 0) repeatedActions =
      without (unneeded repeatedSystem.store) (.started 0) repeatedActions ++ rest ∧
    UnchangedBut (unneeded repeatedSystem.store) point.store point'.store := by
  have run : Run step (.started 0) repeatedActions repeatedSystem := run_of_enabled _
  have recorded : ∀ action ∈ repeatedActions, DecidedOnce.RecordsFailures action := by
    simp [repeatedActions, DecidedOnce.RecordsFailures]
  exact keyless_deliveries_are_invisible run recorded (unheld_of_unneeded (reachable_of_run run)) repeatedActions []
    (List.append_nil _).symm

example : (remaining (unneeded repeatedSystem.store) repeatedSystem.store).map (·.id) = [1, 2] := by decide +kernel

end EventEngine.Redelivery
