import ColumnTypes.Column
import ColumnTypes.Proofs.ParseOutcome
namespace ColumnTypes

-- There is no place in a form for anything that a call could leave behind.
structure ColumnForm (r : Nat) where
  name : Text
  rawType : Text
  isOptional : Bool
  hasMetadata : Bool
  resolver : Fin r
  normalizer : Normalizer

def Column.form (column : Column r) : ColumnForm r :=
  ⟨column.name,column.rawType,column.isOptional,column.hasMetadata,column.resolver,column.normalizer⟩

def ColumnForm.draft (form : ColumnForm r) : ColumnDraft r :=
  ⟨form.name,form.rawType,form.isOptional,form.hasMetadata,some form.resolver,some form.normalizer⟩

def ColumnForm.unread (form : ColumnForm r) : Column r :=
  ⟨form.name,form.rawType,form.isOptional,form.hasMetadata,form.resolver,form.normalizer,none⟩

def ColumnForm.parse (form : ColumnForm r) : Answer Descriptor :=
  (Parser.mk form.normalizer).parse form.name form.rawType form.isOptional .given

def Column.Coherent (column : Column r) : Prop :=
  ∀ descriptor, column.cache = some descriptor →
    column.hasMetadata = true ∧ column.form.parse.outcome = .done descriptor

theorem unread_form (form : ColumnForm r) : form.unread.form = form := rfl

theorem unread_coherent (form : ColumnForm r) : form.unread.Coherent := by
  intro descriptor cached
  cases cached

inductive Column.Look (column : Column r) : Answer Descriptor × Column r → Prop where
  | blind (absent : column.hasMetadata = false) :
      column.Look (⟨.aborted (.noMetadata column.name),[]⟩,column)
  | cached (metadata : column.hasMetadata = true) (known : column.cache = some descriptor) :
      column.Look (⟨.done descriptor,[]⟩,column)
  | read (metadata : column.hasMetadata = true) (unparsed : column.cache = none)
      (accepted : Reading.ofText? column.rawType = some reading) :
      column.Look (⟨.done (reading.describe column.normalizer column.isOptional),
          [.normalized reading.baseType]⟩,
        {column with cache := some (reading.describe column.normalizer column.isOptional)})
  | refused (metadata : column.hasMetadata = true) (unparsed : column.cache = none)
      (malformed : Reading.ofText? column.rawType = none) :
      column.Look (⟨.failed (.malformed column.name column.rawType),
        [.rejected column.name column.rawType]⟩,column)

theorem describe_blind (absent : column.hasMetadata = false) :
    Column.describe column = (⟨.aborted (.noMetadata column.name),[]⟩,column) := by
  simp [Column.describe,absent]

theorem describe_look (column : Column r) : column.Look column.describe := by
  cases metadata : column.hasMetadata with
  | false =>
    rw [describe_blind metadata]
    exact .blind metadata
  | true =>
    rw [Column.describe,if_pos metadata]
    cases known : column.cache with
    | some descriptor => exact .cached metadata known
    | none =>
      cases read : Reading.ofText? column.rawType with
      | some reading =>
        simp only [parse_read read]
        exact .read metadata known read
      | none =>
        simp only [parse_unread read]
        exact .refused metadata known read

theorem describe_form (column : Column r) : column.describe.2.form = column.form := by
  have look := describe_look column
  generalize column.describe = result at look ⊢
  cases look <;> rfl

theorem describe_coherent {column : Column r} (coherent : column.Coherent) :
    column.describe.2.Coherent := by
  have look := describe_look column
  generalize column.describe = result at look ⊢
  cases look with
  | blind absent => exact coherent
  | cached metadata known => exact coherent
  | read metadata unparsed accepted =>
    intro descriptor cached
    cases cached
    exact ⟨metadata,parse_describe.mpr accepted⟩
  | refused metadata unparsed malformed => exact coherent

theorem describe_outcome {column : Column r} (coherent : column.Coherent)
    (metadata : column.hasMetadata = true) :
    column.describe.1.outcome = column.form.parse.outcome := by
  have look := describe_look column
  generalize column.describe = result at look ⊢
  cases look with
  | blind absent =>
    rw [metadata] at absent
    cases absent
  | cached metadata known => exact (coherent _ known).2.symm
  | @read reading metadata unparsed accepted =>
    have parsed : column.form.parse.outcome =
      .done (reading.describe column.normalizer column.isOptional) := parse_describe.mpr accepted
    exact parsed.symm
  | refused metadata unparsed malformed => exact (congrArg Answer.outcome (parse_unread malformed)).symm

def ColumnCall.asks : ColumnCall → Bool
  | .typeMetadata .given | .oidType .given | .componentOidType .given => true
  | .info | .typeMetadata .missing | .oidType .missing | .componentOidType .missing => false

theorem step_state (column : Column r) (resolvers : Vector Resolver r) (call : ColumnCall) :
    (column.step resolvers call).2 = if call.asks then column.describe.2 else column := by
  cases call with
  | info => rfl
  | typeMetadata target => cases target <;> rfl
  | componentOidType target => cases target <;> rfl
  | oidType target =>
    cases target with
    | missing => rfl
    | given =>
      cases metadata : column.hasMetadata with
      | true => simp [Column.step,Column.oidType,metadata,ColumnCall.asks]
      | false => simp [Column.step,Column.oidType,metadata,ColumnCall.asks,describe_blind metadata]

theorem step_form (column : Column r) (resolvers : Vector Resolver r) (call : ColumnCall) :
    (column.step resolvers call).2.form = column.form := by
  rw [step_state]
  split
  · exact describe_form column
  · rfl

theorem step_coherent {column : Column r} (coherent : column.Coherent)
    (resolvers : Vector Resolver r) (call : ColumnCall) :
    (column.step resolvers call).2.Coherent := by
  rw [step_state]
  split
  · exact describe_coherent coherent
  · exact coherent

end ColumnTypes
