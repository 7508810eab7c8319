import EventEngine.Ledger

/-! The merge explanation. What a decision records of an order's fields is
exactly what the payload readers could read: each such field is changed or
skipped, never both and never neither. A supplied amount or currency that the
readers cannot read counts as not supplied. -/
namespace EventEngine.Explanation
open EventEngine Relational OrderCreationApplication OrderUpdateApplication

/-! ## Fields of a payload -/

/-- The payload supplies the field: an amount or a currency that its reader
reads, or any `status` of its own. -/
def supplies (payload : JsonObject) : OrderVersionedField → Bool
  | .amountMinor => (readNonNegativeAmountMinor payload "amount").isSome
  | .currency => (readCurrency payload).isSome
  | .status => payload.hasOwn "status"

theorem supplies_amountMinor {payload : JsonObject} : supplies payload .amountMinor = true ↔
    ∃ value, payload.get "amount" = some (.number (.finite value)) ∧ 0 ≤ mathRound (value * 100) :=
  readNonNegativeAmountMinor_isSome

theorem supplies_currency {payload : JsonObject} : supplies payload .currency = true ↔
    ∃ text, payload.get "currency" = some (.string text) ∧ ∃ c ∈ text.toList, isTrimmed c = false :=
  readCurrency_isSome

theorem supplies_status {payload : JsonObject} :
    supplies payload .status = true ↔ ∃ value, ("status", value) ∈ payload := by
  simp [supplies, JsonObject.hasOwn]

/-- Two records that explain an update: every field the payload supplies is in
exactly one of them, no other field is in either, and the status is not changed. -/
structure Explains (payload changedFields skippedFields : JsonObject) : Prop where
  recorded : ∀ field, supplies payload field = true ↔
    changedFields.hasOwn field.text = true ∨ skippedFields.hasOwn field.text = true
  once : ∀ field : OrderVersionedField,
    ¬ (changedFields.hasOwn field.text = true ∧ skippedFields.hasOwn field.text = true)
  status : changedFields.hasOwn "status" = false

theorem hasOwn_cons (known name : String) (held : JsonValue) (rest : JsonObject) :
    JsonObject.hasOwn ((known, held) :: rest) name = (known == name || JsonObject.hasOwn rest name) := rfl

theorem hasOwn_set (fields : JsonObject) (name : String) (value : JsonValue) (probe : String) :
    (fields.set name value).hasOwn probe = (fields.hasOwn probe || name == probe) := by
  induction fields with
  | nil => simp [JsonObject.set, JsonObject.hasOwn]
  | cons field rest ih =>
    obtain ⟨known, held⟩ := field
    simp only [JsonObject.set]
    by_cases same : known = name
    · subst same
      rw [if_pos rfl, hasOwn_cons, hasOwn_cons]
      cases known == probe <;> simp
    · rw [if_neg same, hasOwn_cons, hasOwn_cons, ih, Bool.or_assoc]

/-- Writing a record as text keeps its properties. -/
theorem hasOwn_stringify (fields : JsonObject) (name : String) :
    (parseJsonObject (stringify (.object fields))).hasOwn name = fields.hasOwn name := by
  have kept : ∀ fields : JsonObject, JsonObject.hasOwn (writtenFields fields) name = fields.hasOwn name := by
    intro fields
    induction fields with
    | nil => rfl
    | cons field rest ih =>
      obtain ⟨known, held⟩ := field
      rw [writtenFields, hasOwn_cons, hasOwn_cons, ih]
  exact kept fields

theorem field_text_beq (field field' : OrderVersionedField) : (field.text == field'.text) = (field == field') := by
  cases field <;> cases field' <;> decide

/-! ## The update loop -/

/-- The loop records each field it reads: as changed when the field is fresh,
as skipped when it is not. -/
theorem merge_records (version : OrderVersionedField → Option OrderFieldVersionEntity) (timestamp : ℚ)
    (changes : List VersionedFieldChange) (merge : Merge) (field : OrderVersionedField) :
    ((mergeAgainst version timestamp changes merge).changedFields.hasOwn field.text =
        (merge.changedFields.hasOwn field.text ||
          (changes.any (·.field == field) && isFresh (version field) timestamp))) ∧
      (mergeAgainst version timestamp changes merge).skippedFields.hasOwn field.text =
        (merge.skippedFields.hasOwn field.text ||
          (changes.any (·.field == field) && !isFresh (version field) timestamp)) := by
  induction changes generalizing merge with
  | nil => simp [mergeAgainst]
  | cons change rest ih =>
    have split : mergeAgainst version timestamp (change :: rest) merge = mergeAgainst version timestamp rest
        (if isFresh (version change.field) timestamp then merge.apply change else merge.skip change) := rfl
    rw [split, (ih _).1, (ih _).2, List.any_cons]
    by_cases same : change.field = field
    · subst same
      by_cases fresh : isFresh (version change.field) timestamp = true
      · simp [fresh, Merge.apply, hasOwn_set]
      · simp [fresh, Merge.skip, hasOwn_set]
    · have other : (change.field == field) = false := beq_false_of_ne same
      have kept : (change.field.text == field.text) = false := (field_text_beq _ _).trans other
      by_cases fresh : isFresh (version change.field) timestamp = true
      · simp [fresh, Merge.apply, hasOwn_set, kept, other]
      · simp [fresh, Merge.skip, hasOwn_set, kept, other]

/-- What the payload reader reads is what the payload supplies, but for the status. -/
theorem read_supplied (payload : JsonObject) (field : OrderVersionedField) :
    (readOrderUpdateChanges payload).any (·.field == field) = (supplies payload field && decide (field ≠ .status)) := by
  unfold readOrderUpdateChanges
  cases amount : readNonNegativeAmountMinor payload "amount" <;> cases currency : readCurrency payload <;>
    cases field <;> simp [supplies, amount, currency]

/-- What the update loop of an event leaves. -/
def updateMerge (view : OrderView) (event : ValidOrderEvent) : Merge :=
  mergeAgainst view.version event.timestamp (readOrderUpdateChanges event.payload) {}

/-- The skipped fields of an update, a supplied status among them. -/
def updateSkipped (view : OrderView) (event : ValidOrderEvent) : JsonObject :=
  if event.payload.hasOwn "status" then
    (updateMerge view event).skippedFields.set "status" (.reason .forbiddenTransition)
  else (updateMerge view event).skippedFields

/-- An update ends with two records that explain it. -/
theorem explains_update (view : OrderView) (event : ValidOrderEvent) :
    Explains event.payload (updateMerge view event).changedFields (updateSkipped view event) := by
  have records := merge_records view.version event.timestamp (readOrderUpdateChanges event.payload) {}
  have nothing : ∀ name, JsonObject.hasOwn [] name = false := fun _ => rfl
  simp only [nothing, Bool.false_or, read_supplied, ← updateMerge.eq_1] at records
  have skipped : ∀ field : OrderVersionedField, (updateSkipped view event).hasOwn field.text =
      (supplies event.payload field && (decide (field = .status) || !isFresh (view.version field) event.timestamp)) := by
    intro field
    have status : ("status" == field.text) = decide (field = .status) := by cases field <;> decide
    unfold updateSkipped
    by_cases own : event.payload.hasOwn "status" = true
    · rw [if_pos own, hasOwn_set, (records field).2, status]
      cases field <;> simp [supplies, own]
    · rw [if_neg own, (records field).2]
      cases field <;> simp [supplies, own]
  refine ⟨?_, ?_, ?_⟩
  · intro field
    rw [(records field).1, skipped field]
    cases field <;> cases isFresh (view.version _) event.timestamp <;> simp
  · intro field
    rw [(records field).1, skipped field]
    cases field <;> cases isFresh (view.version _) event.timestamp <;> simp
  · have status := (records .status).1
    simpa [OrderVersionedField.text] using status

/-! ## Verdicts -/

/-- The verdict on an update: rejected when nothing was changed, and accepted
only when nothing was skipped. -/
theorem judge_update {order : OrderEntity} (present : view.order = some order) (type : event.type = .orderUpdated)
    (now : Time) :
    ((updateMerge view event).changedFields = [] ∧ ∃ reasonCode reasonMessage,
      judge view event now = .rejected reasonCode reasonMessage (updateSkipped view event)) ∨
    ∃ application, judge view event now = .applied application ∧
      application.changedFields = (updateMerge view event).changedFields ∧
      application.skippedFields = updateSkipped view event ∧
      (application.decision = .accepted → updateSkipped view event = []) := by
  have judged : judge view event now = judgeUpdate view order event now := by simp only [judge, present, type]
  rw [judged]
  by_cases unchanged : (updateMerge view event).changedFields.isEmpty = true
  · exact Or.inl ⟨List.isEmpty_iff.mp unchanged, _, _, if_pos unchanged⟩
  · right
    refine ⟨_, if_neg unchanged, rfl, rfl, ?_⟩
    intro accepted
    cases skipped : updateSkipped view event with
    | nil => rfl
    | cons field rest =>
      have merged : (if !(updateSkipped view event).isEmpty then EngineDecision.partiallyApplied else .accepted) =
          .accepted := accepted
      rw [skipped] at merged
      cases merged

theorem explains_rejected (type : event.type = .orderUpdated) {reasonCode : ReasonCode} {reasonMessage : String}
    {skippedFields : JsonObject}
    (judged : judge view event now = .rejected reasonCode reasonMessage skippedFields) :
    Explains event.payload [] skippedFields := by
  obtain ⟨order, present⟩ := Option.isSome_iff_exists.mp (refusal_of_judge judged).present
  have explains := explains_update view event
  rcases judge_update present type now with ⟨unchanged, code, message, rejected⟩ | ⟨application, applied, -⟩
  · obtain ⟨-, -, rfl⟩ := Verdict.rejected.inj (judged.symm.trans rejected)
    rwa [unchanged] at explains
  · cases judged.symm.trans applied

theorem explains_applied (type : event.type = .orderUpdated) {application : Application}
    (judged : judge view event now = .applied application) :
    Explains event.payload application.changedFields application.skippedFields ∧
      (application.decision = .accepted → application.skippedFields = []) := by
  cases accepts_of_judge judged with
  | created _ type' | captured _ type' | cancelled _ type' | refunded _ type' => cases type.symm.trans type'
  | updated present =>
    rcases judge_update present type now with ⟨-, code, message, rejected⟩ | ⟨_, applied, changed, skipped, complete⟩
    · cases judged.symm.trans rejected
    · obtain rfl := Verdict.applied.inj (judged.symm.trans applied)
      rw [changed, skipped]
      exact ⟨explains_update view event, complete⟩

/-- The record of a creation: what the payload supplies is recorded as changed. -/
theorem creation_records (event : ValidOrderEvent) (now : Time) {field : OrderVersionedField} (notStatus : field ≠ .status) :
    (supplies event.payload field = true ↔ (creation event now).changedFields.hasOwn field.text = true) ∧
      (creation event now).skippedFields.hasOwn field.text = false := by
  have recorded : (creation event now).changedFields = ("status", .status .created) ::
      writtenColumns (readNonNegativeAmountMinor event.payload "amount") (readCurrency event.payload) :=
    buildChangedFields_eq _ _
  rw [recorded]
  refine ⟨?_, rfl⟩
  cases amount : readNonNegativeAmountMinor event.payload "amount" <;>
    cases currency : readCurrency event.payload <;> cases field <;>
    simp_all [supplies, writtenColumns, JsonObject.hasOwn, OrderVersionedField.text]

/-! ## The guarantee -/

/-- The fields a decision records as changed. -/
def changed (decision : EventDecisionEntity) (field : OrderVersionedField) : Prop :=
  (parseJsonObject decision.changedFieldsJson).hasOwn field.text = true

def skipped (decision : EventDecisionEntity) (field : OrderVersionedField) : Prop :=
  (parseJsonObject decision.skippedFieldsJson).hasOwn field.text = true

/-- The merge explanation of a decision on an event. -/
structure Explained (decision : EventDecisionEntity) (event : ValidOrderEvent) : Prop where
  /-- An accepted creation records every amount and currency it supplies as changed. -/
  creation : event.type = .orderCreated → decision.decision = .accepted →
    ∀ field, field ≠ .status → (supplies event.payload field = true ↔ changed decision field) ∧ ¬ skipped decision field
  /-- An update decided on its merits for an existing order records every field it
  supplies exactly once, and no other; the status never as changed. -/
  update : event.type = .orderUpdated →
    decision.decision = .accepted ∨ decision.decision = .partiallyApplied ∨
      decision.decision = .rejected ∧ decision.reasonCode ≠ .orderNotReady →
    (∀ field, (supplies event.payload field = true ↔ changed decision field ∨ skipped decision field) ∧
      ¬ (changed decision field ∧ skipped decision field)) ∧
    ¬ changed decision .status
  /-- It is accepted only when it applied every field it supplies. -/
  accepted : event.type = .orderUpdated → decision.decision = .accepted →
    ∀ field, supplies event.payload field = true → changed decision field

/-- A record that explains an update, written as text. -/
theorem explained_update {decision : EventDecisionEntity} {changedFields skippedFields : JsonObject}
    (update : event.type = .orderUpdated) (explains : Explains event.payload changedFields skippedFields)
    (complete : decision.decision = .accepted → skippedFields = [])
    (changedText : decision.changedFieldsJson = stringify (.object changedFields))
    (skippedText : decision.skippedFieldsJson = stringify (.object skippedFields)) : Explained decision event := by
  have changedIff : ∀ field, changed decision field ↔ changedFields.hasOwn field.text = true := by
    intro field
    rw [changed, changedText, hasOwn_stringify]
  have skippedIff : ∀ field, skipped decision field ↔ skippedFields.hasOwn field.text = true := by
    intro field
    rw [skipped, skippedText, hasOwn_stringify]
  refine ⟨?_, ?_, ?_⟩
  · intro type
    cases update.symm.trans type
  · intro _ _
    refine ⟨?_, ?_⟩
    · intro field
      rw [changedIff, skippedIff]
      exact ⟨explains.recorded field, explains.once field⟩
    · rw [changedIff, Bool.not_eq_true]
      exact explains.status
  · intro _ accepted field supplied
    rw [changedIff]
    rcases (explains.recorded field).mp supplied with applied | left
    · exact applied
    · rw [complete accepted] at left
      cases left

variable {s s' : Store} {delivery : RawIncomingEventEntity} {host : Host}

/-- Decisions that apply nothing and judge nothing have nothing to explain. -/
theorem explained_unjudged {decision : EventDecisionEntity} (notAccepted : decision.decision ≠ .accepted)
    (notMerged : decision.decision ≠ .partiallyApplied)
    (notRejected : decision.decision = .rejected → decision.reasonCode = .orderNotReady) :
    Explained decision event := by
  refine ⟨fun _ accepted => absurd accepted notAccepted, ?_, fun _ accepted => absurd accepted notAccepted⟩
  rintro - (accepted | merged | ⟨rejected, other⟩)
  · exact absurd accepted notAccepted
  · exact absurd merged notMerged
  · exact absurd (notRejected rejected) other

/-- Whatever a call logs about a valid event explains itself. -/
theorem explained_outcome (outcome : Outcome s delivery host s') :
    s'.eventDecisions.rows = s.eventDecisions.rows ∨
      ∃ record : EventDecisionEntity, s'.eventDecisions.rows = s.eventDecisions.rows ++ [record] ∧
        record.rawIncomingEventId = delivery.id ∧
        ∀ event, validate delivery = .valid event → Explained record event := by
  cases outcome with
  | retried => exact Or.inl rfl
  | failed =>
    refine Or.inr ⟨_, rfl, rfl, fun event _ => explained_unjudged ?_ ?_ ?_⟩ <;>
      simp [failedRecord, FinalDecisionInput.record]
  | committed committed =>
    cases committed with
    | deferred => exact Or.inl rfl
    | invalid invalid =>
      refine Or.inr ⟨_, rfl, rfl, fun event valid => ?_⟩
      cases invalid.symm.trans valid
    | duplicate =>
      refine Or.inr ⟨_, rfl, rfl, fun event _ => explained_unjudged ?_ ?_ ?_⟩ <;>
        simp [duplicateRecord, FinalDecisionInput.record]
    | expired =>
      refine Or.inr ⟨_, rfl, rfl, fun event _ => explained_unjudged ?_ ?_ ?_⟩ <;>
        simp [rejection, FinalDecisionInput.record]
    | @rejected event _ _ _ valid _ judged =>
      refine Or.inr ⟨_, rfl, rfl, fun event' valid' => ?_⟩
      obtain rfl := EventValidation.valid.inj (valid.symm.trans valid')
      by_cases update : event.type = .orderUpdated
      · exact explained_update update (explains_rejected update judged) (fun accepted => by cases accepted) rfl rfl
      · exact ⟨fun _ accepted => (by cases accepted), fun type => absurd type update, fun type => absurd type update⟩
    | @applied event application valid _ judged =>
      refine Or.inr ⟨_, rfl, rfl, fun event' valid' => ?_⟩
      obtain rfl := EventValidation.valid.inj (valid.symm.trans valid')
      by_cases update : event.type = .orderUpdated
      · obtain ⟨explains, complete⟩ := explains_applied update judged
        exact explained_update update explains complete rfl rfl
      · refine ⟨?_, fun type => absurd type update, fun type => absurd type update⟩
        intro type _ field notStatus
        cases accepts_of_judge judged with
        | updated _ type' | captured _ type' | cancelled _ type' | refunded _ type' => cases type.symm.trans type'
        | created =>
          obtain ⟨recorded, unskipped⟩ := creation_records event host.now notStatus
          refine ⟨?_, ?_⟩
          · rw [recorded, changed, ← hasOwn_stringify]
            rfl
          · rw [skipped, Bool.not_eq_true, ← unskipped]
            exact hasOwn_stringify _ _

/-- An update is decided on its merits for an existing order when it is not said
to come too early. -/
theorem judged_for_existing_order (outcome : Outcome s delivery host s') {event : ValidOrderEvent}
    (valid : validate delivery = .valid event) (update : event.type = .orderUpdated) {record : EventDecisionEntity}
    (logged : s'.eventDecisions.rows = s.eventDecisions.rows ++ [record]) :
    (record.decision = .accepted ∨ record.decision = .partiallyApplied ∨
        record.decision = .rejected ∧ record.reasonCode ≠ .orderNotReady) ↔
      (record.decision ≠ .duplicate ∧ record.decision ≠ .failed) ∧ (s.orders.find event.orderId).isSome := by
  have last : ∀ {added : EventDecisionEntity}, s.eventDecisions.rows ++ [added] = s.eventDecisions.rows ++ [record] →
      added = record := fun same => List.singleton_inj.mp (List.append_cancel_left same)
  have unlogged : s.eventDecisions.rows ≠ s.eventDecisions.rows ++ [record] := by simp
  cases outcome with
  | retried => exact absurd logged unlogged
  | failed =>
    obtain rfl := last logged
    simp [failedRecord, FinalDecisionInput.record]
  | committed committed =>
    cases committed with
    | deferred => exact absurd logged unlogged
    | invalid invalid => cases invalid.symm.trans valid
    | duplicate =>
      obtain rfl := last logged
      simp [duplicateRecord, FinalDecisionInput.record]
    | expired valid' _ waits =>
      obtain rfl := EventValidation.valid.inj (valid.symm.trans valid')
      obtain rfl := last logged
      have absent : s.orders.find event.orderId = none := (judge_notReady.mp waits).1
      simp [rejection, FinalDecisionInput.record, absent]
    | rejected valid' _ judged =>
      obtain rfl := EventValidation.valid.inj (valid.symm.trans valid')
      obtain rfl := last logged
      have refusal := refusal_of_judge judged
      have present : (s.orders.find event.orderId).isSome := refusal.present
      simp [rejection, FinalDecisionInput.record, refusal.reason, present]
    | @applied _ application valid' _ judged =>
      obtain rfl := EventValidation.valid.inj (valid.symm.trans valid')
      obtain rfl := last logged
      have present : (s.orders.find event.orderId).isSome := by
        cases accepts_of_judge judged with
        | updated present => exact Option.isSome_of_eq_some present
        | created _ type | captured _ type | cancelled _ type | refunded _ type => cases update.symm.trans type
      rcases (accepts_of_judge judged).decision with accepted | merged
      · simp [Application.record, FinalDecisionInput.record, accepted, present]
      · simp [Application.record, FinalDecisionInput.record, merged, present]

/-- Every decision on a valid event explains itself. -/
def AllExplained (s : Store) : Prop :=
  ∀ decision ∈ s.eventDecisions.rows, ∀ event, s.eventOf decision.rawIncomingEventId = some event →
    Explained decision event

/-- **The merge explanation is complete** for what the payload readers read: in
every reachable store, every decision on a valid event explains itself. -/
theorem merge_explanation_complete {sys : System} (reachable : Reachable sys) : AllExplained sys.store := by
  have recorded := decisions_reachable (fun decision known => ∀ event, known = some event → Explained decision event)
    reachable
  apply recorded
  intro s delivery host s' outcome
  simp only [validEvent?_eq_some]
  exact explained_outcome outcome

theorem merge_explanation_complete_out_of_order : AllExplained outOfOrderSystem.store :=
  merge_explanation_complete (reachable_of_run outOfOrder_run)

/-! ## Fields without a record -/

/-- An order is created and updated twice. The first update carries a currency
that is not a string; the database is busy on each attempt at the second. -/
def unreadFieldActions : List Action :=
  [.enqueueBatch
      [postedItem "c" "o" .orderCreated 1 [],
        postedItem "u" "o" .orderUpdated 2
          [("amount", .number (.finite 50)), ("currency", .number (.finite 5))],
        postedItem "v" "o" .orderUpdated 3 (amountPayload "amount" 60)] 0,
    .poll, .read 0 0, .process 0 (stoppedAt 0) none none, .process 0 (stoppedAt 0) none none,
    .process 0 (stoppedAt 0) (some ⟨0, "SQLITE_BUSY: database is locked"⟩) none, .finish 0,
    .poll, .read 0 10000, .process 0 (stoppedAt 10000) (some ⟨0, "SQLITE_BUSY: database is locked"⟩) none, .finish 0,
    .poll, .read 0 20000, .process 0 (stoppedAt 20000) (some ⟨0, "SQLITE_BUSY: database is locked"⟩) none, .finish 0]

def unreadFieldSystem : System := (execute step (.started 0) unreadFieldActions).get (by decide +kernel)

/-- The decision with an identifier, on an update whose payload has a value
under a name, records nothing about a field. -/
def Unrecorded (s : Store) (id : ℕ) (verdict : EngineDecision) (name : String) (field : OrderVersionedField) : Bool :=
  s.eventDecisions.rows.any fun decision => decision.id == id && decision.decision == verdict &&
    !(parseJsonObject decision.changedFieldsJson).hasOwn field.text &&
    !(parseJsonObject decision.skippedFieldsJson).hasOwn field.text &&
    ((s.eventOf decision.rawIncomingEventId).any fun event => event.type == .orderUpdated &&
      (finiteNumber? (event.payload.get name)).isSome)

theorem unrecorded_decision {s : Store} {id : ℕ} {verdict : EngineDecision} {name : String}
    {field : OrderVersionedField} (unrecorded : Unrecorded s id verdict name field = true) :
    ∃ decision ∈ s.eventDecisions.rows, ∃ event value, s.eventOf decision.rawIncomingEventId = some event ∧
      event.type = .orderUpdated ∧ decision.decision = verdict ∧ event.payload.get name = some value ∧
      value ≠ .null ∧ ¬ (changed decision field ∨ skipped decision field) := by
  obtain ⟨decision, member, found⟩ := List.any_eq_true.mp unrecorded
  simp only [Bool.and_eq_true, beq_iff_eq, Bool.not_eq_true', Option.any_eq_true] at found
  obtain ⟨⟨⟨⟨-, decided⟩, unchanged⟩, unskipped⟩, event, known, type, supplied⟩ := found
  obtain ⟨number, read⟩ := Option.isSome_iff_exists.mp supplied
  refine ⟨decision, member, event, _, known, type, decided, finiteNumber?_eq_some.mp read, by simp, ?_⟩
  simp [changed, skipped, unchanged, unskipped]

/-- A supplied currency that is not a string is ignored by an update that is
`ACCEPTED`; and an update that fails records none of its fields. -/
theorem unread_fields_unrecorded :
    (¬ ∀ sys : System, Reachable sys → ∀ decision ∈ sys.store.eventDecisions.rows, ∀ event value,
      sys.store.eventOf decision.rawIncomingEventId = some event → event.type = .orderUpdated →
      decision.decision = .accepted → event.payload.get "currency" = some value → value ≠ .null →
      changed decision .currency ∨ skipped decision .currency) ∧
    ¬ ∀ sys : System, Reachable sys → ∀ decision ∈ sys.store.eventDecisions.rows, ∀ event value,
      sys.store.eventOf decision.rawIncomingEventId = some event → event.type = .orderUpdated →
      decision.decision = .failed → event.payload.get "amount" = some value → value ≠ .null →
      changed decision .amountMinor ∨ skipped decision .amountMinor := by
  have reachable : Reachable unreadFieldSystem := reachable_of_run (run_of_enabled _)
  constructor
  · intro complete
    obtain ⟨decision, member, event, value, known, type, decided, supplied, present, unrecorded⟩ :=
      @unrecorded_decision unreadFieldSystem.store 2 .accepted "currency" .currency (by decide +kernel)
    exact unrecorded (complete _ reachable decision member event value known type decided supplied present)
  · intro complete
    obtain ⟨decision, member, event, value, known, type, decided, supplied, present, unrecorded⟩ :=
      @unrecorded_decision unreadFieldSystem.store 3 .failed "amount" .amountMinor (by decide +kernel)
    exact unrecorded (complete _ reachable decision member event value known type decided supplied present)

end EventEngine.Explanation
