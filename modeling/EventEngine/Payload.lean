import EventEngine.Types

/-! Reading a payload: the money and currency a field carries, and the changes
an `ORDER_UPDATED` payload asks for. -/
namespace EventEngine

/-- `EventMoneyService.readAmountMinor`. The product is exact: that `value * 100`
overflows to `Infinity` is left out. -/
def readAmountMinor (payload : JsonObject) (fieldName : String) : Option ℤ :=
  match payload.get fieldName with
  | some (.number (.finite value)) => some (mathRound (value * 100))
  | _ => none

/-- `EventMoneyService.readPositiveAmountMinor`. -/
def readPositiveAmountMinor (payload : JsonObject) (fieldName : String) : Option ℤ :=
  (readAmountMinor payload fieldName).filter (fun amountMinor => 0 < amountMinor)

/-- `EventMoneyService.readNonNegativeAmountMinor`. -/
def readNonNegativeAmountMinor (payload : JsonObject) (fieldName : String) : Option ℤ :=
  (readAmountMinor payload fieldName).filter (fun amountMinor => 0 ≤ amountMinor)

/-- `OrderLifecycleApplicationService.readRefundAmountMinor`: `refundAmount`,
or `amount` when that is not a positive amount. -/
def readRefundAmountMinor (payload : JsonObject) : Option ℤ :=
  (readPositiveAmountMinor payload "refundAmount").or (readPositiveAmountMinor payload "amount")

/-- `OrderPayloadReaderService.readCurrency`. -/
def readCurrency (payload : JsonObject) : Option String :=
  match payload.get "currency" with
  | some (.string value) => if isNonBlank value then some (trim value) else none
  | _ => none

/-- `order-payload-reader.service.ts::VersionedFieldChange`. -/
structure VersionedFieldChange where
  column : String
  field : OrderVersionedField
  value : JsonValue
  deriving Repr

/-- `OrderPayloadReaderService.readOrderUpdateChanges`. -/
def readOrderUpdateChanges (payload : JsonObject) : List VersionedFieldChange :=
  ((readNonNegativeAmountMinor payload "amount").map fun amountMinor =>
    (⟨"amountMinor", .amountMinor, .minor amountMinor⟩ : VersionedFieldChange)).toList ++
  ((readCurrency payload).map fun currency =>
    (⟨"currency", .currency, .string currency⟩ : VersionedFieldChange)).toList

/-! ## What the readers accept -/

theorem readAmountMinor_eq_some {payload : JsonObject} {fieldName : String} {amountMinor : ℤ} :
    readAmountMinor payload fieldName = some amountMinor ↔
      ∃ value, payload.get fieldName = some (.number (.finite value)) ∧ mathRound (value * 100) = amountMinor := by
  unfold readAmountMinor
  split <;> simp_all

/-- A valid amount is a finite number that is not negative in minor units. -/
theorem readNonNegativeAmountMinor_isSome {payload : JsonObject} {fieldName : String} :
    (readNonNegativeAmountMinor payload fieldName).isSome ↔
      ∃ value, payload.get fieldName = some (.number (.finite value)) ∧ 0 ≤ mathRound (value * 100) := by
  simp only [readNonNegativeAmountMinor, Option.isSome_iff_exists, Option.filter_eq_some_iff, readAmountMinor_eq_some,
    decide_eq_true_eq]
  constructor
  · rintro ⟨_, ⟨value, found, rfl⟩, nonNegative⟩
    exact ⟨value, found, nonNegative⟩
  · rintro ⟨value, found, nonNegative⟩
    exact ⟨_, ⟨value, found, rfl⟩, nonNegative⟩

/-- A positive amount is a finite number that is positive in minor units. -/
theorem readPositiveAmountMinor_isSome {payload : JsonObject} {fieldName : String} :
    (readPositiveAmountMinor payload fieldName).isSome ↔
      ∃ value, payload.get fieldName = some (.number (.finite value)) ∧ 0 < mathRound (value * 100) := by
  simp only [readPositiveAmountMinor, Option.isSome_iff_exists, Option.filter_eq_some_iff, readAmountMinor_eq_some,
    decide_eq_true_eq]
  constructor
  · rintro ⟨_, ⟨value, found, rfl⟩, positive⟩
    exact ⟨value, found, positive⟩
  · rintro ⟨value, found, positive⟩
    exact ⟨_, ⟨value, found, rfl⟩, positive⟩

/-- A currency is read trimmed from a string that is not blank. -/
theorem readCurrency_eq_some {payload : JsonObject} {currency : String} : readCurrency payload = some currency ↔
    ∃ text, payload.get "currency" = some (.string text) ∧ (∃ c ∈ text.toList, isTrimmed c = false) ∧
      trim text = currency := by
  unfold readCurrency
  split
  · rename_i text found
    simp only [found, Option.some.injEq, JsonValue.string.injEq, exists_eq_left', ← isNonBlank_iff]
    split <;> simp_all
  · rename_i other
    exact iff_of_false (fun none => by cases none) fun ⟨text, found, _⟩ => other text found

theorem readCurrency_isSome {payload : JsonObject} : (readCurrency payload).isSome ↔
    ∃ text, payload.get "currency" = some (.string text) ∧ ∃ c ∈ text.toList, isTrimmed c = false := by
  simp [Option.isSome_iff_exists, readCurrency_eq_some]

theorem readPositiveAmountMinor_pos {payload : JsonObject} {fieldName : String} {amountMinor : ℤ}
    (read : readPositiveAmountMinor payload fieldName = some amountMinor) : 0 < amountMinor := by
  simpa using (Option.filter_eq_some_iff.mp read).2

theorem readNonNegativeAmountMinor_nonneg {payload : JsonObject} {fieldName : String} {amountMinor : ℤ}
    (read : readNonNegativeAmountMinor payload fieldName = some amountMinor) : 0 ≤ amountMinor := by
  simpa using (Option.filter_eq_some_iff.mp read).2

theorem readRefundAmountMinor_pos {payload : JsonObject} {amountMinor : ℤ}
    (read : readRefundAmountMinor payload = some amountMinor) : 0 < amountMinor := by
  rw [readRefundAmountMinor, Option.or_eq_some_iff] at read
  rcases read with first | ⟨_, second⟩
  · exact readPositiveAmountMinor_pos first
  · exact readPositiveAmountMinor_pos second

/-- No payload asks for two changes of one field. -/
theorem readOrderUpdateChanges_fields_nodup (payload : JsonObject) :
    ((readOrderUpdateChanges payload).map (·.field)).Nodup := by
  unfold readOrderUpdateChanges
  cases readNonNegativeAmountMinor payload "amount" <;> cases readCurrency payload <;> simp

end EventEngine
