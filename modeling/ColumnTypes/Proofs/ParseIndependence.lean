import ColumnTypes.Proofs.CatalogNames
import ColumnTypes.Proofs.ParseOutcome
namespace ColumnTypes
variable {column otherColumn : Text}

structure Descriptor.NamedBy (descriptor : Descriptor) (normalizer : Normalizer) (isOptional : Bool) :
    Prop where
  normalizedName : descriptor.normalizedName =
    catalogName descriptor.isArray (normalizer descriptor.baseType)
  element : descriptor.elementTypeName = normalizer descriptor.baseType
  isOptional : descriptor.isOptional = isOptional

def SameMessage (column otherColumn : Text) (fault twin : Fault) : Prop :=
  ∃ message, fault.status = .parseError (message ++ column) ∧
    twin.status = .parseError (message ++ otherColumn)

def SameLog (column otherColumn : Text) (reports twins : List Text) : Prop :=
  reports = [] ∧ twins = [] ∨
    ∃ front behind, reports = [front ++ column ++ behind] ∧ twins = [front ++ otherColumn ++ behind]

theorem describe_named (reading : Reading) (normalizer : Normalizer) (isOptional : Bool) :
    (reading.describe normalizer isOptional).NamedBy normalizer isOptional := by
  constructor
  case normalizedName => rfl
  case element => exact describe_element reading normalizer isOptional
  case isOptional => rfl

theorem unread_message (column otherColumn raw : Text) :
    SameMessage column otherColumn (.malformed column raw) (.malformed otherColumn raw) :=
  ⟨"Failed to parse column type '".toList ++ raw ++ "' for column ".toList,rfl,rfl⟩

theorem parse_inputs (parser : Parser) (column raw : Text) (isOptional : Bool) :
    (parser.parse column raw isOptional .given).inputs =
      ((Reading.ofText? raw).map fun reading => reading.baseType).toList := by
  cases read : Reading.ofText? raw with
  | none =>
    rw [parse_unread read]
    rfl
  | some reading =>
    rw [parse_read read]
    rfl

theorem parse_logs (parser other : Parser) (raw : Text) (isOptional otherOptional : Bool) :
    SameLog column otherColumn (parser.parse column raw isOptional .given).complaints
      (other.parse otherColumn raw otherOptional .given).complaints := by
  cases read : Reading.ofText? raw with
  | none =>
    rw [parse_unread read,parse_unread read]
    refine .inr ⟨"Failed to parse column type for ".toList," '".toList ++ raw ++ "'".toList,?_,?_⟩
    all_goals simp [Answer.complaints,Event.report?]
  | some reading =>
    rw [parse_read read,parse_read read]
    exact .inl ⟨rfl,rfl⟩

-- The text alone decides whether it is parsed and what it says. The column's
-- name, its nullability and the normalizer are only carried along.
theorem parse_independent (parser other : Parser) (column otherColumn raw : Text)
    (isOptional otherOptional : Bool) :
    Outcome.Related (SameMessage column otherColumn)
      (fun descriptor twin => descriptor.toReading = twin.toReading ∧
        descriptor.NamedBy parser.normalizer isOptional ∧ twin.NamedBy other.normalizer otherOptional)
      (parser.parse column raw isOptional .given).outcome
      (other.parse otherColumn raw otherOptional .given).outcome ∧
    SameLog column otherColumn (parser.parse column raw isOptional .given).complaints
      (other.parse otherColumn raw otherOptional .given).complaints ∧
    (parser.parse column raw isOptional .given).inputs =
      (other.parse otherColumn raw otherOptional .given).inputs := by
  have same : Option.Rel Eq (Reading.ofText? raw) (Reading.ofText? raw) := by
    cases Reading.ofText? raw with
    | none => exact .none
    | some reading => exact .some rfl
  refine ⟨?_,parse_logs parser other raw isOptional otherOptional,?_⟩
  · apply related_mono (parse_related same)
    · intro fault twin malformed
      obtain ⟨rfl,rfl⟩ := malformed
      exact unread_message column otherColumn raw
    · intro descriptor twin described
      obtain ⟨reading,_,rfl,rfl,rfl⟩ := described
      exact ⟨rfl,describe_named reading _ _,describe_named reading _ _⟩
  · rw [parse_inputs,parse_inputs]

end ColumnTypes
