import ColumnTypes.Proofs.ColumnLedger
import ColumnTypes.Proofs.GuardedColumn
namespace ColumnTypes

inductive ColumnQuery where
  | typeMetadata
  | oidType
  | componentOidType
deriving DecidableEq, Repr

def ColumnQuery.call : ColumnQuery → Target → ColumnCall
  | .typeMetadata => .typeMetadata
  | .oidType => .oidType
  | .componentOidType => .componentOidType

def Outcome.status? : Outcome α → Option Status
  | .done _ => some .success
  | .failed fault => some fault.status
  | .aborted _ => none

def Outcome.code? (outcome : Outcome α) : Option StatusCode := outcome.status?.map Status.code

def Scalar (raw : Text) : Prop := ∃ reading, Reading.ofText? raw = some reading ∧ reading.isArray = false

-- The guards come in different orders in the three queries, but no two of these
-- cases overlap.
inductive ColumnForm.Ends (form : ColumnForm r) (resolvers : Vector Resolver r) :
    ColumnQuery → Target → Report Value → Prop where
  | refused : form.Ends resolvers query .missing ⟨.failed .noResultTarget,[]⟩
  | blind (absent : form.hasMetadata = false) (reads : query ≠ .oidType) :
      form.Ends resolvers query .given ⟨.aborted (.noMetadata form.name),[]⟩
  | named (absent : form.hasMetadata = false) :
      form.Ends resolvers .oidType .given ((form.ask resolvers none).map .oid)
  | malformed (metadata : form.hasMetadata = true) (unread : Malformed form.rawType) :
      form.Ends resolvers query .given ⟨.failed (.malformed form.name form.rawType),[]⟩
  | described (metadata : form.hasMetadata = true) (accepted : Reading.ofText? form.rawType = some reading) :
      form.Ends resolvers .typeMetadata .given
        ⟨.done (.descriptor (reading.describe form.normalizer form.isOptional)),[]⟩
  | generic (metadata : form.hasMetadata = true) (accepted : Reading.ofText? form.rawType = some reading)
      (array : reading.isArray = true) :
      form.Ends resolvers .oidType .given ⟨.done (.oid genericArrayOid),[]⟩
  | scalar (metadata : form.hasMetadata = true) (accepted : Reading.ofText? form.rawType = some reading)
      (plain : reading.isArray = false) :
      form.Ends resolvers .oidType .given
        ((form.ask resolvers (some (reading.describe form.normalizer form.isOptional))).map .oid)
  | elements (metadata : form.hasMetadata = true) (accepted : Reading.ofText? form.rawType = some reading)
      (array : reading.isArray = true) :
      form.Ends resolvers .componentOidType .given
        ((form.ask resolvers (some (reading.describe form.normalizer form.isOptional))).map .oid)
  | notArray (metadata : form.hasMetadata = true) (accepted : Reading.ofText? form.rawType = some reading)
      (plain : reading.isArray = false) :
      form.Ends resolvers .componentOidType .given ⟨.aborted (.notArray form.name form.rawType),[]⟩

inductive ColumnDraft.Breaks (draft : ColumnDraft r) : ColumnQuery → Violation → Prop where
  | noMetadata (absent : draft.hasMetadata = false) (reads : query ≠ .oidType) :
      draft.Breaks query (.noMetadata draft.name)
  | notArray (metadata : draft.hasMetadata = true) (plain : Scalar draft.rawType) :
      draft.Breaks .componentOidType (.notArray draft.name draft.rawType)

variable {form : ColumnForm r} {resolvers : Vector Resolver r} {query : ColumnQuery} {target : Target}

theorem blind_ends (absent : form.hasMetadata = false) (resolvers : Vector Resolver r)
    (query : ColumnQuery) : form.Ends resolvers query .given (form.report resolvers (query.call .given)) := by
  have described : form.described = .aborted (.noMetadata form.name) := by
    simp [ColumnForm.described,absent]
  cases query with
  | typeMetadata =>
    simp only [ColumnQuery.call,ColumnForm.report,described]
    exact .blind absent (by decide)
  | oidType =>
    simp only [ColumnQuery.call,ColumnForm.report,ColumnForm.oidType,absent,Bool.false_eq_true,if_false]
    exact .named absent
  | componentOidType =>
    simp only [ColumnQuery.call,ColumnForm.report,ColumnForm.componentOidType,described]
    exact .blind absent (by decide)

theorem malformed_ends (metadata : form.hasMetadata = true) (unread : Malformed form.rawType)
    (resolvers : Vector Resolver r) (query : ColumnQuery) :
    form.Ends resolvers query .given (form.report resolvers (query.call .given)) := by
  have failed := malformed_parse unread
  have described : form.described = .failed (.malformed form.name form.rawType) := by
    simp [ColumnForm.described,metadata,failed]
  have ended : form.report resolvers (query.call .given) =
      ⟨.failed (.malformed form.name form.rawType),[]⟩ := by
    cases query with
    | typeMetadata => simp [ColumnQuery.call,ColumnForm.report,described,Outcome.map]
    | oidType => simp [ColumnQuery.call,ColumnForm.report,ColumnForm.oidType,metadata,failed,Report.map,Outcome.map]
    | componentOidType =>
      simp [ColumnQuery.call,ColumnForm.report,ColumnForm.componentOidType,described,Report.map,Outcome.map]
  rw [ended]
  exact .malformed metadata unread

theorem read_ends (metadata : form.hasMetadata = true)
    (accepted : Reading.ofText? form.rawType = some reading) (resolvers : Vector Resolver r)
    (query : ColumnQuery) : form.Ends resolvers query .given (form.report resolvers (query.call .given)) := by
  have parsed : form.parse.outcome = .done (reading.describe form.normalizer form.isOptional) :=
    parse_describe.mpr accepted
  have described : form.described = .done (reading.describe form.normalizer form.isOptional) := by
    rw [ColumnForm.described,if_pos metadata,parsed]
  have kept : (reading.describe form.normalizer form.isOptional).isArray = reading.isArray := rfl
  cases query with
  | typeMetadata =>
    simp only [ColumnQuery.call,ColumnForm.report,described]
    exact .described metadata accepted
  | oidType =>
    simp only [ColumnQuery.call,ColumnForm.report,ColumnForm.oidType,metadata,parsed,kept,if_true]
    cases array : reading.isArray with
    | true => exact .generic metadata accepted array
    | false => exact .scalar metadata accepted array
  | componentOidType =>
    simp only [ColumnQuery.call,ColumnForm.report,ColumnForm.componentOidType,described,kept]
    cases array : reading.isArray with
    | true => exact .elements metadata accepted array
    | false => exact .notArray metadata accepted array

theorem report_ends (form : ColumnForm r) (resolvers : Vector Resolver r) (query : ColumnQuery)
    (target : Target) : form.Ends resolvers query target (form.report resolvers (query.call target)) := by
  cases target with
  | missing => cases query <;> exact .refused
  | given =>
    cases metadata : form.hasMetadata with
    | false => exact blind_ends metadata resolvers query
    | true =>
      cases read : Reading.ofText? form.rawType with
      | none => exact malformed_ends metadata read resolvers query
      | some reading => exact read_ends metadata read resolvers query

theorem scalar_read (accepted : Reading.ofText? raw = some reading) :
    Scalar raw ↔ reading.isArray = false := by
  constructor
  · rintro ⟨other,read,plain⟩
    rw [accepted] at read
    cases read
    exact plain
  · exact fun plain => ⟨reading,accepted,plain⟩

theorem malformed_scalar (unread : Malformed raw) : ¬Scalar raw := by
  rintro ⟨reading,accepted,_⟩
  rw [unread] at accepted
  cases accepted

theorem read_wellformed (accepted : Reading.ofText? raw = some reading) : ¬Malformed raw := by
  simp [Malformed,accepted]

@[simp] theorem code_done (value : α) : (Outcome.done value).code? = some .ok := rfl

@[simp] theorem code_aborted (violation : Violation) : (Outcome.aborted violation : Outcome α).code? = none := rfl

@[simp] theorem code_refused : (Outcome.failed .noResultTarget : Outcome α).code? = some .invalidArgument := rfl

@[simp] theorem code_malformed (column raw : Text) :
    (Outcome.failed (.malformed column raw) : Outcome α).code? = some .parseError := rfl

theorem status_map (f : α → β) (outcome : Outcome α) : (outcome.map f).status? = outcome.status? := by
  cases outcome <;> rfl

theorem ask_status (form : ColumnForm r) (resolvers : Vector Resolver r) (descriptor : Option Descriptor) :
    ((form.ask resolvers descriptor).map Value.oid).outcome.status? =
      (Outcome.ofExcept
        ((resolvers.get form.resolver).resolve ⟨form.name,descriptor⟩ .given)).status? :=
  status_map Value.oid _

theorem ask_unaborted (form : ColumnForm r) (resolvers : Vector Resolver r) (descriptor : Option Descriptor) :
    ((form.ask resolvers descriptor).map Value.oid).outcome ≠ .aborted violation := by
  simp only [ColumnForm.ask,Report.map]
  cases (resolvers.get form.resolver).resolve ⟨form.name,descriptor⟩ .given <;> simp [Outcome.ofExcept,Outcome.map]

theorem resolve_code (resolver : Resolver) (request : Request) :
    (Outcome.ofExcept (resolver.resolve request .given)).code? = some .ok ∨
      (Outcome.ofExcept (resolver.resolve request .given)).code? = some .unknownType := by
  cases resolver with
  | fixed oid => exact .inl rfl
  | registry types =>
    simp only [Resolver.resolve]
    cases request.descriptor with
    | none => exact .inr rfl
    | some descriptor =>
      dsimp only
      cases types.find? descriptor.elementTypeName with
      | none => exact .inr rfl
      | some oid => exact .inl rfl

theorem ask_code (form : ColumnForm r) (resolvers : Vector Resolver r) (descriptor : Option Descriptor) :
    ((form.ask resolvers descriptor).map Value.oid).outcome.code? ≠ some .invalidArgument ∧
      ((form.ask resolvers descriptor).map Value.oid).outcome.code? ≠ some .parseError := by
  have same := congrArg (Option.map Status.code) (ask_status form resolvers descriptor)
  change ((form.ask resolvers descriptor).map Value.oid).outcome.code? = Outcome.code? _ at same
  rw [same]
  rcases resolve_code (resolvers.get form.resolver) ⟨form.name,descriptor⟩ with known | unknown
  · rw [known]
    decide
  · rw [unknown]
    decide

theorem breaks_parts {draft : ColumnDraft r} : draft.Breaks query violation ↔
    draft.hasMetadata = false ∧ query ≠ .oidType ∧ violation = .noMetadata draft.name ∨
      draft.hasMetadata = true ∧ query = .componentOidType ∧ Scalar draft.rawType ∧
        violation = .notArray draft.name draft.rawType := by
  constructor
  · intro breaks
    cases breaks with
    | noMetadata absent reads => exact .inl ⟨absent,reads,rfl⟩
    | notArray metadata plain => exact .inr ⟨metadata,rfl,plain,rfl⟩
  · rintro (⟨absent,reads,rfl⟩ | ⟨metadata,rfl,plain,rfl⟩)
    · exact .noMetadata absent reads
    · exact .notArray metadata plain

theorem ends_aborted (ends : form.Ends resolvers query target report) :
    report.outcome = .aborted violation ↔ target = .given ∧ form.draft.Breaks query violation := by
  rw [breaks_parts]
  simp only [ColumnForm.draft]
  cases ends with
  | refused => simp
  | blind absent reads => simp [absent,reads,eq_comm]
  | named absent => simp [absent,ask_unaborted]
  | malformed metadata unread => simp [metadata,malformed_scalar unread]
  | described metadata accepted => simp [metadata]
  | generic metadata accepted array => simp [metadata]
  | scalar metadata accepted plain => simp [metadata,ask_unaborted]
  | elements metadata accepted array => simp [metadata,ask_unaborted,scalar_read accepted,array]
  | notArray metadata accepted plain => simp [metadata,scalar_read accepted,plain,eq_comm]

theorem ends_refused (ends : form.Ends resolvers query target report) :
    report.outcome.code? = some .invalidArgument ↔ target = .missing := by
  cases ends with
  | refused => simp
  | blind absent reads => simp
  | named absent => simp [ask_code]
  | malformed metadata unread => simp
  | described metadata accepted => simp
  | generic metadata accepted array => simp
  | scalar metadata accepted plain => simp [ask_code]
  | elements metadata accepted array => simp [ask_code]
  | notArray metadata accepted plain => simp

theorem ends_malformed (ends : form.Ends resolvers query target report) :
    report.outcome.code? = some .parseError ↔
      target = .given ∧ form.hasMetadata = true ∧ Malformed form.rawType := by
  cases ends with
  | refused => simp
  | blind absent reads => simp [absent]
  | named absent => simp [ask_code,absent]
  | malformed metadata unread => simp [metadata,unread]
  | described metadata accepted => simp [read_wellformed accepted]
  | generic metadata accepted array => simp [read_wellformed accepted]
  | scalar metadata accepted plain => simp [ask_code,read_wellformed accepted]
  | elements metadata accepted array => simp [ask_code,read_wellformed accepted]
  | notArray metadata accepted plain => simp [read_wellformed accepted]

def Report.Answers (report : Report Value) (resolver : Resolver) : Prop :=
  report.requests = [] ∧ report.outcome.status? = some .success ∨
    ∃ request, report.requests = [request] ∧
      report.outcome.status? = (Outcome.ofExcept (resolver.resolve request .given)).status?

theorem ask_answers (form : ColumnForm r) (resolvers : Vector Resolver r) (descriptor : Option Descriptor) :
    ((form.ask resolvers descriptor).map Value.oid).Answers (resolvers.get form.resolver) :=
  .inr ⟨⟨form.name,descriptor⟩,rfl,ask_status form resolvers descriptor⟩

theorem ends_answered (ends : form.Ends resolvers query .given report)
    (kept : ∀ violation, ¬form.draft.Breaks query violation)
    (readable : ¬(form.hasMetadata = true ∧ Malformed form.rawType)) :
    report.Answers (resolvers.get form.resolver) := by
  cases ends with
  | blind absent reads => exact False.elim (kept _ (.noMetadata absent reads))
  | named absent => exact ask_answers form resolvers none
  | malformed metadata unread => exact False.elim (readable ⟨metadata,unread⟩)
  | described metadata accepted => exact .inl ⟨rfl,rfl⟩
  | generic metadata accepted array => exact .inl ⟨rfl,rfl⟩
  | scalar metadata accepted plain => exact ask_answers form resolvers _
  | elements metadata accepted array => exact ask_answers form resolvers _
  | notArray metadata accepted plain =>
    exact False.elim (kept _ (.notArray metadata ((scalar_read accepted).mpr plain)))

theorem make_form {draft : ColumnDraft r} (made : Column.make? draft = .ok column) :
    ∃ form : ColumnForm r, form.draft = draft ∧ form.unread = column := by
  obtain ⟨name,rawType,isOptional,hasMetadata,resolver,normalizer⟩ := draft
  cases resolver with
  | none => cases made
  | some resolver =>
    cases normalizer with
    | none => cases made
    | some normalizer =>
      cases made
      exact ⟨⟨name,rawType,isOptional,hasMetadata,resolver,normalizer⟩,rfl,rfl⟩

theorem untouched (column : Column r) (resolvers : Vector Resolver r) (query : ColumnQuery) :
    (column.step resolvers (query.call .missing)).1.events = [] ∧
      (column.step resolvers (query.call .missing)).2 = column := by
  cases query <;> exact ⟨rfl,rfl⟩

-- Told from what the column was made of and from the call alone. `guarded` runs
-- the same history with every check and every read in its place.
structure QueryEnding (draft : ColumnDraft r) (column : Column r) (visits : List (Visit r))
    (resolvers : Vector Resolver r) (query : ColumnQuery) (target : Target)
    (result : Answer Value × Column r) : Prop where
  aborted : ∀ violation, result.1.outcome = .aborted violation ↔
    target = .given ∧ draft.Breaks query violation
  refused : result.1.outcome.code? = some .invalidArgument ↔ target = .missing
  untouched : target = .missing → result.1.events = [] ∧ result.2 = column.after visits
  malformed : result.1.outcome.code? = some .parseError ↔
    target = .given ∧ draft.hasMetadata = true ∧ Malformed draft.rawType
  answered : target = .given → (∀ violation, ¬draft.Breaks query violation) →
    ¬(draft.hasMetadata = true ∧ Malformed draft.rawType) →
      ∃ place, draft.resolver = some place ∧ result.1.report.Answers (resolvers.get place)
  guarded : ((GuardedColumn.mk draft none).after visits).step resolvers (query.call target) =
    ⟨result.1.outcome.guarded,result.1.events,⟨draft,result.2.cache⟩⟩
  met : ∀ halt, (((GuardedColumn.mk draft none).after visits).step resolvers (query.call target)).result =
    .error halt → halt ≠ .unparsed ∧ halt ≠ .unset ∧ halt ≠ .violation .normalizerUnset

theorem guarded_ending (form : ColumnForm r) (visits : List (Visit r)) (resolvers : Vector Resolver r)
    (call : ColumnCall) :
    ((GuardedColumn.mk form.draft none).after visits).step resolvers call =
      ⟨((form.unread.after visits).step resolvers call).1.outcome.guarded,
        ((form.unread.after visits).step resolvers call).1.events,
        ⟨form.draft,((form.unread.after visits).step resolvers call).2.cache⟩⟩ := by
  have start : GuardedColumn.mk form.draft none = form.unread.guarded := rfl
  have kept : ((form.unread.after visits).step resolvers call).2.form = form :=
    (step_form _ resolvers call).trans (after_form form.unread visits)
  rw [start,guarded_after,guarded_step,guardedPair,Column.guarded,kept]

theorem breaks_normalized {draft : ColumnDraft r} (breaks : draft.Breaks query violation) :
    violation ≠ .normalizerUnset := by
  cases breaks with
  | noMetadata absent reads => exact Violation.noConfusion
  | notArray metadata plain => exact Violation.noConfusion

theorem guarded_met {outcome : Outcome α} (halted : outcome.guarded = .error halt)
    (normalized : ∀ violation, outcome = .aborted violation → violation ≠ .normalizerUnset) :
    halt ≠ .unparsed ∧ halt ≠ .unset ∧ halt ≠ .violation .normalizerUnset := by
  cases outcome with
  | done value => cases halted
  | failed fault =>
    cases halted
    exact ⟨Halt.noConfusion,Halt.noConfusion,Halt.noConfusion⟩
  | aborted violation =>
    cases halted
    refine ⟨Halt.noConfusion,Halt.noConfusion,?_⟩
    intro unset
    exact normalized violation rfl (Halt.violation.inj unset)

theorem query_endings (draft : ColumnDraft r) (column : Column r) (made : Column.make? draft = .ok column)
    (visits : List (Visit r)) (resolvers : Vector Resolver r) (query : ColumnQuery) (target : Target) :
    QueryEnding draft column visits resolvers query target
      ((column.after visits).step resolvers (query.call target)) := by
  obtain ⟨form,rfl,rfl⟩ := make_form made
  have ends := report_ends form resolvers query target
  rw [← after_report form visits] at ends
  constructor
  case aborted => exact fun violation => ends_aborted ends
  case refused => exact ends_refused ends
  case untouched =>
    rintro rfl
    exact untouched (form.unread.after visits) resolvers query
  case malformed => exact ends_malformed ends
  case answered =>
    rintro rfl kept readable
    exact ⟨form.resolver,rfl,ends_answered ends kept readable⟩
  case guarded => exact guarded_ending form visits resolvers (query.call target)
  case met =>
    rw [guarded_ending]
    intro halt halted
    apply guarded_met halted
    intro violation aborted
    exact breaks_normalized ((ends_aborted ends).mp aborted).2

theorem query_endings_scalar :
    let draft : ColumnDraft 1 := ⟨"c".toList,"s.geo (1)".toList,true,true,some 0,some normalizeTypeName⟩
    let column : Column 1 := ⟨"c".toList,"s.geo (1)".toList,true,true,0,normalizeTypeName,none⟩
    let resolvers : Vector Resolver 1 := #v[.fixed 7]
    let parsed : Column 1 := column.after [⟨resolvers,.oidType .given⟩]
    Column.make? draft = .ok column ∧
    (parsed.step resolvers (.componentOidType .given)).1.outcome =
      .aborted (.notArray "c".toList "s.geo (1)".toList) ∧
    (parsed.step resolvers (.oidType .missing)).2 = parsed := by
  intro draft column resolvers parsed
  have made : Column.make? draft = .ok column := rfl
  have plain : Scalar "s.geo (1)".toList :=
    ⟨⟨some "s".toList,"geo".toList,"geo (1)".toList,false,["1".toList],some 1,none⟩,by decide,rfl⟩
  have asked := query_endings draft column made [⟨resolvers,.oidType .given⟩] resolvers
  exact ⟨made,((asked .componentOidType .given).aborted _).mpr ⟨rfl,.notArray rfl plain⟩,
    ((asked .oidType .missing).untouched rfl).2⟩

end ColumnTypes
