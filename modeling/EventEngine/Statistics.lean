import EventEngine.Polling
import Mathlib.Algebra.BigOperators.Group.List.Basic
import Mathlib.Data.Rat.Defs

/-! The statistics are the audit log counted. They are kept by adding to a row
on each final decision; nothing else touches them, so every rollback, deferral
and retry leaves them equal to what a fresh count of the log would give. -/
namespace EventEngine.Statistics
open EventEngine Relational

/-! ## The report -/

/-- `stats.types.ts::EngineStats`. -/
structure EngineStats where
  validEventsCount : ℕ
  rejectedEventsCount : ℕ
  duplicateEventsCount : ℕ
  averageProcessingTimeMs : ℚ
  deriving DecidableEq, Repr

/-- `StatsService.getStats`. -/
def getStats (s : Store) : Except String EngineStats :=
  match s.stats with
  | none => .error "Stats row was not initialized"
  | some row => .ok
    { validEventsCount := row.validEventsCount
      rejectedEventsCount := row.rejectedEventsCount
      duplicateEventsCount := row.duplicateEventsCount
      averageProcessingTimeMs :=
        if row.processedEventsCount = 0 then 0 else row.totalProcessingTimeMs / row.processedEventsCount }

/-! ## The log, counted -/

/-- How many decisions of a log have one of the given verdicts. -/
def decidedAs (verdicts : List EngineDecision) (log : List EventDecisionEntity) : ℕ :=
  log.countP (·.decision ∈ verdicts)

def totalTime (log : List EventDecisionEntity) : ℤ := (log.map (·.processingTimeMs)).sum

/-- A statistics row that counts a log. -/
structure Counts (stats : EngineStatsEntity) (log : List EventDecisionEntity) : Prop where
  valid : stats.validEventsCount = decidedAs [.accepted, .partiallyApplied] log
  rejected : stats.rejectedEventsCount = decidedAs [.rejected, .failed] log
  duplicate : stats.duplicateEventsCount = decidedAs [.duplicate] log
  processed : stats.processedEventsCount = log.length
  time : stats.totalProcessingTimeMs = totalTime log

variable {s s' : Store} {delivery : RawIncomingEventEntity} {host : Host}

theorem decidedAs_append (verdicts : List EngineDecision) (log : List EventDecisionEntity)
    (record : EventDecisionEntity) :
    decidedAs verdicts (log ++ [record]) =
      decidedAs verdicts log + if record.decision ∈ verdicts then 1 else 0 := by
  simp [decidedAs, List.countP_append, List.countP_singleton]

theorem totalTime_append (log : List EventDecisionEntity) (record : EventDecisionEntity) :
    totalTime (log ++ [record]) = totalTime log + record.processingTimeMs := by
  simp [totalTime]

/-- Every verdict is counted under exactly one heading. -/
theorem decidedAs_total (log : List EventDecisionEntity) :
    decidedAs [.accepted, .partiallyApplied] log + decidedAs [.rejected, .failed] log +
      decidedAs [.duplicate] log = log.length := by
  induction log using List.reverseRecOn with
  | nil => rfl
  | append_singleton log record ih =>
    rw [decidedAs_append, decidedAs_append, decidedAs_append, List.length_append, List.length_singleton, ← ih]
    cases record.decision <;> simp <;> omega

/-- Counting one more decision is counting the longer log. -/
theorem counts_counted {stats : EngineStatsEntity} {log : List EventDecisionEntity} (counts : Counts stats log)
    (record : EventDecisionEntity) :
    Counts (stats.counted record.decision record.processingTimeMs record.createdAt) (log ++ [record]) := by
  obtain ⟨valid, rejected, duplicate, processed, time⟩ := counts
  constructor
  · rw [decidedAs_append, ← valid]
    cases record.decision <;> rfl
  · rw [decidedAs_append, ← rejected]
    cases record.decision <;> rfl
  · rw [decidedAs_append, ← duplicate]
    cases record.decision <;> rfl
  · rw [List.length_append, ← processed]
    cases record.decision <;> rfl
  · rw [totalTime_append, ← time]
    cases record.decision <;> rfl

/-! ## Calls and requests -/

/-- A call logs a decision and counts it, or does neither. -/
theorem books_outcome (outcome : Outcome s delivery host s') :
    (s'.eventDecisions = s.eventDecisions ∧ s'.stats = s.stats) ∨
      ∃ record : EventDecisionEntity, s'.eventDecisions.rows = s.eventDecisions.rows ++ [record] ∧
        s'.stats = s.stats.map (·.counted record.decision record.processingTimeMs record.createdAt) := by
  cases outcome with
  | retried => exact Or.inl ⟨rfl, rfl⟩
  | failed => exact Or.inr ⟨_, rfl, rfl⟩
  | committed committed =>
    cases committed with
    | deferred => exact Or.inl ⟨rfl, rfl⟩
    | invalid | duplicate | expired | rejected | applied => exact Or.inr ⟨_, rfl, rfl⟩

/-- The store's statistics row counts its audit log. -/
def Counted (s : Store) : Prop := ∃ stats, s.stats = some stats ∧ Counts stats s.eventDecisions.rows

theorem counted_outcome (outcome : Outcome s delivery host s') (counted : Counted s) : Counted s' := by
  obtain ⟨stats, kept, counts⟩ := counted
  rcases books_outcome outcome with ⟨log, same⟩ | ⟨record, log, recounted⟩
  · exact ⟨stats, same.trans kept, by rw [log]; exact counts⟩
  · rw [kept, Option.map_some] at recounted
    exact ⟨_, recounted, by rw [log]; exact counts_counted counts record⟩

theorem counted_reachable {sys : System} (reachable : Reachable sys) : Counted sys.store := by
  apply reachable_invariant Counted reachable
  · exact fun now => ⟨_, rfl, rfl, rfl, rfl, rfl, rfl⟩
  · exact fun s events receivedAt _ counted => counted
  · exact fun s delivery host s' call counted => counted_outcome call.outcome counted

/-! ## Decided deliveries -/

/-- The deliveries that are finalised. -/
def doneDeliveries (s : Store) : List RawIncomingEventEntity :=
  s.rawIncomingEvents.rows.filter (·.processingStatus = .done)

/-- The log has one row for each finalised delivery, and no other. -/
theorem decided_deliveries (consistent : s.Consistent) :
    (s.eventDecisions.rows.map (·.rawIncomingEventId)).Perm ((doneDeliveries s).map (·.id)) := by
  have ids : ((doneDeliveries s).map (·.id)).Nodup :=
    s.rawIncomingEvents.ids_nodup.sublist (List.filter_sublist.map _)
  rw [List.perm_ext_iff_of_nodup consistent.decided_once ids]
  intro id
  simp only [doneDeliveries, List.mem_map, List.mem_filter, decide_eq_true_eq]
  constructor
  · rintro ⟨decision, member, rfl⟩
    obtain ⟨row, found⟩ := Option.isSome_iff_exists.mp (consistent.delivered decision member)
    have named : row.id = decision.rawIncomingEventId := s.rawIncomingEvents.id_of_find found
    refine ⟨row, ⟨(s.rawIncomingEvents.find_eq_some.mp found).1, ?_⟩, named⟩
    rw [← named] at found
    rw [consistent.done_iff found, named, (decisionOf_eq_some consistent).mpr ⟨member, rfl⟩]
    rfl
  · rintro ⟨row, ⟨member, done⟩, rfl⟩
    have decided := (consistent.done_iff (s.rawIncomingEvents.find_self member)).mp done
    obtain ⟨decision, decided⟩ := Option.isSome_iff_exists.mp decided
    exact ⟨decision, (decisionOf_eq_some consistent).mp decided⟩

/-! ## The guarantee -/

/-- The statistics row of a store, as the audit log and the inbox give it. -/
structure EqualsLog (s : Store) (stats : EngineStatsEntity) : Prop where
  validEventsCount : stats.validEventsCount = decidedAs [.accepted, .partiallyApplied] s.eventDecisions.rows
  rejectedEventsCount : stats.rejectedEventsCount = decidedAs [.rejected, .failed] s.eventDecisions.rows
  duplicateEventsCount : stats.duplicateEventsCount = decidedAs [.duplicate] s.eventDecisions.rows
  processed_by_verdict : stats.processedEventsCount =
    stats.validEventsCount + stats.rejectedEventsCount + stats.duplicateEventsCount
  processed_by_decision : stats.processedEventsCount = s.eventDecisions.rows.length
  processed_by_delivery : stats.processedEventsCount = (doneDeliveries s).length
  totalProcessingTimeMs : stats.totalProcessingTimeMs = totalTime s.eventDecisions.rows
  /-- What is counted is finalised: a delivery that waits for a retry is not. -/
  finalised : (s.eventDecisions.rows.map (·.rawIncomingEventId)).Perm ((doneDeliveries s).map (·.id))
  /-- The reported average is the mean over the finalised deliveries. -/
  reported : ∃ report, getStats s = .ok report ∧ report.validEventsCount = stats.validEventsCount ∧
    report.rejectedEventsCount = stats.rejectedEventsCount ∧
    report.duplicateEventsCount = stats.duplicateEventsCount ∧
    report.averageProcessingTimeMs =
      if doneDeliveries s = [] then 0 else (totalTime s.eventDecisions.rows : ℚ) / (doneDeliveries s).length

/-- **Statistics always equal the audit log.** -/
theorem statistics_equal_audit_log {sys : System} (reachable : Reachable sys) :
    ∃ stats, sys.store.stats = some stats ∧ EqualsLog sys.store stats := by
  obtain ⟨stats, kept, counts⟩ := counted_reachable reachable
  have finalised := decided_deliveries reachable.consistent.store
  have decided : sys.store.eventDecisions.rows.length = (doneDeliveries sys.store).length := by
    simpa using finalised.length_eq
  have total := decidedAs_total sys.store.eventDecisions.rows
  refine ⟨stats, kept, counts.valid, counts.rejected, counts.duplicate, ?_, counts.processed,
    counts.processed.trans decided, counts.time, finalised, ?_⟩
  · rw [counts.valid, counts.rejected, counts.duplicate, counts.processed, total]
  · have report : getStats sys.store = .ok
        { validEventsCount := stats.validEventsCount, rejectedEventsCount := stats.rejectedEventsCount
          duplicateEventsCount := stats.duplicateEventsCount
          averageProcessingTimeMs := if stats.processedEventsCount = 0 then 0
            else stats.totalProcessingTimeMs / stats.processedEventsCount } := by
      simp only [getStats, kept]
    refine ⟨_, report, rfl, rfl, rfl, ?_⟩
    simp only [counts.processed, counts.time, decided, List.length_eq_zero_iff]

theorem statistics_equal_audit_log_out_of_order :
    ∃ stats, outOfOrderSystem.store.stats = some stats ∧ EqualsLog outOfOrderSystem.store stats :=
  statistics_equal_audit_log (reachable_of_run outOfOrder_run)

end EventEngine.Statistics
