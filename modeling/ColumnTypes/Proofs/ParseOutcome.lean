import ColumnTypes.Parser
namespace ColumnTypes
variable {parser : Parser}

def Answer.inputs (answer : Answer α) : List Text := answer.events.filterMap Event.normalizerInput?

def Answer.complaints (answer : Answer α) : List Text := answer.events.filterMap Event.report?

def Answer.requests (answer : Answer α) : List Request := answer.events.filterMap Event.request?

-- An aborted call is like no other.
inductive Outcome.Related (faults : Fault → Fault → Prop) (values : α → β → Prop) :
    Outcome α → Outcome β → Prop
  | done : values one other → Outcome.Related faults values (.done one) (.done other)
  | failed : faults one other → Outcome.Related faults values (.failed one) (.failed other)

-- The descriptor that a parse comes to, without the call that it takes.
def Reading.describe (reading : Reading) (normalizer : Normalizer) (isOptional : Bool) :
    Descriptor :=
  reading.named (normalizer reading.baseType) isOptional

theorem related_mono {one : Outcome α} {other : Outcome β} (related : Outcome.Related faults values one other)
    (faultsAlso : ∀ fault twin, faults fault twin → faults' fault twin)
    (valuesAlso : ∀ value twin, values value twin → values' value twin) :
    Outcome.Related faults' values' one other := by
  cases related with
  | done values => exact .done (valuesAlso _ _ values)
  | failed faults => exact .failed (faultsAlso _ _ faults)

theorem related_done {other : Outcome β} (related : Outcome.Related faults values (.done value) other) :
    ∃ twin, other = .done twin ∧ values value twin := by
  cases related with
  | done both => exact ⟨_,rfl,both⟩

theorem parse_read (accepted : Reading.ofText? raw = some reading) :
    parser.parse column raw isOptional .given =
      ⟨.done (reading.describe parser.normalizer isOptional),[.normalized reading.baseType]⟩ := by
  simp only [Parser.parse,accepted]
  rfl

theorem parse_unread (refused : Reading.ofText? raw = none) :
    parser.parse column raw isOptional .given =
      ⟨.failed (.malformed column raw),[.rejected column raw]⟩ := by
  simp [Parser.parse,refused]

-- A description keeps the whole reading, so equal descriptors come from texts
-- that say the same.
theorem parse_describe : (parser.parse column raw isOptional .given).outcome =
      .done (reading.describe parser.normalizer isOptional) ↔ Reading.ofText? raw = some reading := by
  constructor
  · intro done
    cases read : Reading.ofText? raw with
    | none =>
      rw [parse_unread read] at done
      cases done
    | some other =>
      rw [parse_read read] at done
      have same := congrArg Descriptor.toReading (Outcome.done.inj done)
      exact congrArg some same
  · intro accepted
    rw [parse_read accepted]

theorem parse_done : (parser.parse column raw isOptional .given).outcome = .done descriptor ↔
    ∃ reading, Reading.ofText? raw = some reading ∧
      descriptor = reading.describe parser.normalizer isOptional := by
  constructor
  · intro done
    cases read : Reading.ofText? raw with
    | none =>
      rw [parse_unread read] at done
      cases done
    | some reading =>
      rw [parse_read read] at done
      exact ⟨reading,rfl,(Outcome.done.inj done).symm⟩
  · intro described
    obtain ⟨reading,accepted,rfl⟩ := described
    exact parse_describe.mpr accepted

theorem parse_related {one other : Parser}
    (readings : Option.Rel relation (Reading.ofText? raw) (Reading.ofText? raw')) :
    Outcome.Related
      (fun fault fault' => fault = .malformed column raw ∧ fault' = .malformed column' raw')
      (fun descriptor descriptor' => ∃ reading reading', relation reading reading' ∧
        descriptor = reading.describe one.normalizer isOptional ∧
        descriptor' = reading'.describe other.normalizer isOptional')
      (one.parse column raw isOptional .given).outcome
      (other.parse column' raw' isOptional' .given).outcome := by
  cases read : Reading.ofText? raw with
  | none =>
    cases read' : Reading.ofText? raw' with
    | none =>
      rw [parse_unread read,parse_unread read']
      exact .failed ⟨rfl,rfl⟩
    | some reading' =>
      rw [read,read'] at readings
      cases readings
  | some reading =>
    cases read' : Reading.ofText? raw' with
    | none =>
      rw [read,read'] at readings
      cases readings
    | some reading' =>
      rw [read,read'] at readings
      cases readings with
      | some related =>
        rw [parse_read read,parse_read read']
        exact .done ⟨reading,reading',related,rfl,rfl⟩

theorem describe_name (reading : Reading) (normalizer : Normalizer) (isOptional : Bool) :
    (reading.describe normalizer isOptional).normalizedName =
      (if reading.isArray then [catalogArrayMark] else []) ++ normalizer reading.baseType := by
  unfold Reading.describe Reading.named
  cases reading.isArray <;> rfl

theorem describe_element (reading : Reading) (normalizer : Normalizer) (isOptional : Bool) :
    (reading.describe normalizer isOptional).elementTypeName = normalizer reading.baseType := by
  have kept : (reading.describe normalizer isOptional).isArray = reading.isArray := rfl
  rw [Descriptor.elementTypeName,describe_name,kept]
  cases reading.isArray with
  | true => simp
  | false => cases normalizer reading.baseType <;> simp

end ColumnTypes
