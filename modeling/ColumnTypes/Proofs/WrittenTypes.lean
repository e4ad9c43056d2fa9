import ColumnTypes.Proofs.ParseOutcome
import ColumnTypes.Proofs.ReadingForms
namespace ColumnTypes
variable {schema : Option Text} {base inside suffix : Text} {one other : Spelling}

-- A base that is found again where it is written. Behind a schema it may hold
-- dots of its own; without one a dot could end a schema.
structure BaseText (schema : Option Text) (base : Text) : Prop where
  named : ∀ name, schema = some name → SchemaName name
  inhabited : base ≠ []
  plain : ∀ c ∈ base, endsBase c = false
  undotted : schema = none → schemaMark ∉ base

def Spelling.bare (schema : Option Text) (base : Text) (isArray : Bool) : Spelling :=
  ⟨schema,⟨base,none,[],isArray⟩⟩

def Spelling.grouped (schema : Option Text) (base inside suffix : Text) (isArray : Bool) : Spelling :=
  ⟨schema,⟨base,some inside,suffix,isArray⟩⟩

def BothMalformed (fault twin : Fault) : Prop :=
  fault.status.code = .parseError ∧ twin.status.code = .parseError

theorem bare_valid (text : BaseText schema base) (isArray : Bool) :
    (Spelling.bare schema base isArray).WellFormed := by
  refine ⟨⟨text.inhabited,text.plain,?_,?_,fun _ => rfl⟩,text.named,?_⟩
  · intro inside grouped
    cases grouped
  · intro c member
    cases member
  · intro unnamed
    exact undotted_inseparable (text.undotted unnamed)

theorem grouped_valid (text : BaseText schema base) (filled : inside ≠ []) (balanced : Balanced inside)
    (plain : ∀ c ∈ suffix, isBracket c = false) (isArray : Bool) :
    (Spelling.grouped schema base inside suffix isArray).WellFormed := by
  refine ⟨⟨text.inhabited,text.plain,?_,plain,?_⟩,text.named,?_⟩
  · intro other grouped
    cases grouped
    exact ⟨filled,balanced⟩
  · intro ungrouped
    cases ungrouped
  · intro unnamed
    exact undotted_inseparable (text.undotted unnamed)

theorem baseText_within (text : BaseText schema base) (plain : ∀ c ∈ front ++ behind, endsBase c = false)
    (undotted : schema = none → schemaMark ∉ front ++ behind) : BaseText schema (front ++ base ++ behind) := by
  constructor
  case named => exact text.named
  case inhabited => simp [text.inhabited]
  case plain =>
    intro c member
    rcases List.mem_append.mp member with within | after
    · rcases List.mem_append.mp within with before | inBase
      · exact plain c (List.mem_append_left _ before)
      · exact text.plain c inBase
    · exact plain c (List.mem_append_right _ after)
  case undotted =>
    intro unnamed
    have inBase := text.undotted unnamed
    have around := undotted unnamed
    simp only [List.mem_append,not_or] at around ⊢
    exact ⟨⟨around.1,inBase⟩,around.2⟩

theorem spelled_related (parser : Parser) (column : Text) (isOptional : Bool)
    (valid : one.WellFormed) (otherValid : other.WellFormed)
    (words : one.body.words? = other.body.words?) (marks : one.body.isArray = other.body.isArray) :
    Outcome.Related BothMalformed
      (fun descriptor twin => ∃ baseType isArray full full',
        descriptor = (one.readAs baseType full isArray).describe parser.normalizer isOptional ∧
        twin = (other.readAs baseType full' isArray).describe parser.normalizer isOptional)
      (parser.parse column one.text isOptional .given).outcome
      (parser.parse column other.text isOptional .given).outcome := by
  have readings := reading_twins words marks
  rw [← ofText_text valid,← ofText_text otherValid] at readings
  apply related_mono (parse_related readings)
  · intro fault twin malformed
    obtain ⟨rfl,rfl⟩ := malformed
    exact ⟨rfl,rfl⟩
  · intro descriptor twin described
    obtain ⟨_,_,⟨baseType,isArray,full,full',rfl,rfl⟩,same,sameTwin⟩ := described
    exact ⟨baseType,isArray,full,full',same,sameTwin⟩

end ColumnTypes
