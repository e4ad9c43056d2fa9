import ColumnTypes.Proofs.ColumnHistory
namespace ColumnTypes
variable {column : Column r}

-- A column that takes nothing for granted. Its resolver and its normalizer may
-- be unset, and each check and each read is made where a call comes to it.
structure GuardedColumn (r : Nat) where
  draft : ColumnDraft r
  cache : Option Descriptor

-- Why a call got no further. The last two are no answers at all: a descriptor
-- read before there is one, and a resolver asked where none is set.
inductive Halt where
  | fault (fault : Fault)
  | violation (violation : Violation)
  | unparsed
  | unset
deriving DecidableEq, Repr

structure Attempt (r : Nat) (α : Type) where
  result : Except Halt α
  events : List Event
  after : GuardedColumn r

def Attempt.andThen (attempt : Attempt r α) (next : α → GuardedColumn r → Attempt r β) :
    Attempt r β :=
  match attempt.result with
  | .ok value =>
    let second := next value attempt.after
    ⟨second.result,attempt.events ++ second.events,second.after⟩
  | .error halt => ⟨.error halt,attempt.events,attempt.after⟩

def Attempt.map (f : α → β) (attempt : Attempt r α) : Attempt r β :=
  ⟨attempt.result.map f,attempt.events,attempt.after⟩

def GuardedColumn.halt (column : GuardedColumn r) (halt : Halt) : Attempt r α :=
  ⟨.error halt,[],column⟩

def GuardedColumn.ensureParsed (column : GuardedColumn r) : Attempt r Unit :=
  if column.draft.hasMetadata then
    if column.cache.isSome then ⟨.ok (),[],column⟩
    else
      match Parser.make? column.draft.normalizer with
      | .error violation => column.halt (.violation violation)
      | .ok parser =>
        let answer := parser.parse column.draft.name column.draft.rawType column.draft.isOptional .given
        match answer.outcome with
        | .done descriptor => ⟨.ok (),answer.events,{column with cache := some descriptor}⟩
        | .failed fault => ⟨.error (.fault fault),answer.events,column⟩
        | .aborted violation => ⟨.error (.violation violation),answer.events,column⟩
  else column.halt (.violation (.noMetadata column.draft.name))

def GuardedColumn.descriptor (column : GuardedColumn r) : Attempt r Descriptor :=
  match column.cache with
  | some descriptor => ⟨.ok descriptor,[],column⟩
  | none => column.halt .unparsed

def GuardedColumn.ask (column : GuardedColumn r) (resolvers : Vector Resolver r)
    (descriptor : Option Descriptor) : Attempt r Oid :=
  match column.draft.resolver with
  | none => column.halt .unset
  | some place =>
    let request : Request := ⟨column.draft.name,descriptor⟩
    match (resolvers.get place).resolve request .given with
    | .ok oid => ⟨.ok oid,[.requested request],column⟩
    | .error fault => ⟨.error (.fault fault),[.requested request],column⟩

def GuardedColumn.described (column : GuardedColumn r) : Attempt r Descriptor :=
  column.ensureParsed.andThen fun _ after => after.descriptor

def GuardedColumn.oidType (column : GuardedColumn r) (resolvers : Vector Resolver r) : Attempt r Oid :=
  if column.draft.hasMetadata then
    column.described.andThen fun descriptor after =>
      if descriptor.isArray then ⟨.ok genericArrayOid,[],after⟩
      else after.descriptor.andThen fun descriptor after => after.ask resolvers (some descriptor)
  else column.ask resolvers none

def GuardedColumn.componentOidType (column : GuardedColumn r) (resolvers : Vector Resolver r) :
    Attempt r Oid :=
  column.described.andThen fun descriptor after =>
    if descriptor.isArray then
      after.descriptor.andThen fun descriptor after => after.ask resolvers (some descriptor)
    else after.halt (.violation (.notArray after.draft.name after.draft.rawType))

def GuardedColumn.step (column : GuardedColumn r) (resolvers : Vector Resolver r) :
    ColumnCall → Attempt r Value
  | .info =>
    ⟨.ok (.info column.draft.name column.draft.rawType column.draft.isOptional column.draft.hasMetadata),
      [],column⟩
  | .typeMetadata .given => column.described.map .descriptor
  | .oidType .given => (column.oidType resolvers).map .oid
  | .componentOidType .given => (column.componentOidType resolvers).map .oid
  | .typeMetadata .missing | .oidType .missing | .componentOidType .missing =>
    column.halt (.fault .noResultTarget)

def GuardedColumn.after (column : GuardedColumn r) (visits : List (Visit r)) : GuardedColumn r :=
  visits.foldl (fun column visit => (column.step visit.resolvers visit.call).after) column

def Column.guarded (column : Column r) : GuardedColumn r := ⟨column.form.draft,column.cache⟩

def Outcome.guarded : Outcome α → Except Halt α
  | .done value => .ok value
  | .failed fault => .error (.fault fault)
  | .aborted violation => .error (.violation violation)

def guardedPair (pair : Answer α × Column r) : Attempt r α :=
  ⟨pair.1.outcome.guarded,pair.1.events,pair.2.guarded⟩

theorem describe_kept (described : column.describe.1.outcome = .done descriptor) :
    column.describe.2.cache = some descriptor := by
  have look := describe_look column
  generalize column.describe = result at look described ⊢
  cases look with
  | blind absent => cases described
  | cached metadata known =>
    cases described
    exact known
  | read metadata unparsed accepted =>
    cases described
    rfl
  | refused metadata unparsed malformed => cases described

theorem guarded_read (known : column.cache = some descriptor) :
    column.guarded.descriptor = ⟨.ok descriptor,[],column.guarded⟩ := by
  have cached : column.guarded.cache = some descriptor := known
  rw [GuardedColumn.descriptor,cached]

theorem guarded_ensured (column : Column r) : column.guarded.ensureParsed =
    guardedPair (column.describe.1.map fun _ => (),column.describe.2) := by
  have look := describe_look column
  generalize column.describe = result at look ⊢
  cases look with
  | blind absent =>
    have without : column.guarded.draft.hasMetadata = false := absent
    rw [GuardedColumn.ensureParsed,without]
    rfl
  | cached metadata known =>
    have present : column.guarded.draft.hasMetadata = true := metadata
    have parsed : column.guarded.cache.isSome = true := by rw [Column.guarded,known]; rfl
    rw [GuardedColumn.ensureParsed,if_pos present,if_pos parsed]
    rfl
  | read metadata unparsed accepted =>
    have present : column.guarded.draft.hasMetadata = true := metadata
    have empty : ¬column.guarded.cache.isSome = true := by simp [Column.guarded,unparsed]
    rw [GuardedColumn.ensureParsed,if_pos present,if_neg empty]
    simp only [Column.guarded,ColumnForm.draft,Column.form,Parser.make?,parse_read accepted]
    rfl
  | refused metadata unparsed malformed =>
    have present : column.guarded.draft.hasMetadata = true := metadata
    have empty : ¬column.guarded.cache.isSome = true := by simp [Column.guarded,unparsed]
    rw [GuardedColumn.ensureParsed,if_pos present,if_neg empty]
    simp only [Column.guarded,ColumnForm.draft,Column.form,Parser.make?,parse_unread malformed]
    rfl

theorem guarded_andThen {pair : Answer α × Column r} {next : α → Answer β}
    {guardedNext : α → GuardedColumn r → Attempt r β}
    (each : ∀ value, pair.1.outcome = .done value →
      guardedNext value pair.2.guarded = guardedPair (next value,pair.2)) :
    (guardedPair pair).andThen guardedNext = guardedPair (pair.1.andThen next,pair.2) := by
  cases ended : pair.1.outcome with
  | done value =>
    have second := each value ended
    simp only [guardedPair,Attempt.andThen,Answer.andThen,ended,Outcome.guarded,second]
  | failed fault => simp only [guardedPair,Attempt.andThen,Answer.andThen,ended,Outcome.guarded]
  | aborted violation => simp only [guardedPair,Attempt.andThen,Answer.andThen,ended,Outcome.guarded]

theorem guarded_map (f : α → β) (pair : Answer α × Column r) :
    (guardedPair pair).map f = guardedPair (pair.1.map f,pair.2) := by
  unfold guardedPair Attempt.map Answer.map
  cases pair.1.outcome <;> rfl

theorem guarded_described (column : Column r) :
    column.guarded.described = guardedPair column.describe := by
  rw [GuardedColumn.described,guarded_ensured]
  unfold guardedPair Attempt.andThen Answer.map
  cases ended : column.describe.1.outcome with
  | done descriptor =>
    simp only [Outcome.map,Outcome.guarded,guarded_read (describe_kept ended),List.append_nil]
  | failed fault => rfl
  | aborted violation => rfl

theorem guarded_ask (column : Column r) (resolvers : Vector Resolver r) (descriptor : Option Descriptor) :
    column.guarded.ask resolvers descriptor = guardedPair (column.request resolvers descriptor,column) := by
  have reply : ((resolvers.get column.resolver).resolve ⟨column.name,descriptor⟩ .given) =
      (resolvers[column.resolver].resolve ⟨column.name,descriptor⟩ .given) := rfl
  simp only [GuardedColumn.ask,Column.guarded,ColumnForm.draft,Column.form,guardedPair,Column.request]
  rw [reply]
  cases resolvers[column.resolver].resolve ⟨column.name,descriptor⟩ .given <;> rfl

theorem guarded_asked (known : column.cache = some descriptor) (resolvers : Vector Resolver r) :
    (column.guarded.descriptor.andThen fun descriptor after => after.ask resolvers (some descriptor)) =
      guardedPair (column.request resolvers (some descriptor),column) := by
  rw [guarded_read known,← guarded_ask]
  rfl

theorem request_kept (column : Column r) (resolvers : Vector Resolver r) (descriptor : Option Descriptor) :
    column.describe.2.request resolvers descriptor = column.request resolvers descriptor := by
  have look := describe_look column
  generalize column.describe = result at look ⊢
  cases look <;> rfl

theorem guarded_oidType (column : Column r) (resolvers : Vector Resolver r) :
    column.guarded.oidType resolvers = guardedPair (column.oidType resolvers .given) := by
  cases metadata : column.hasMetadata with
  | false =>
    have without : column.guarded.draft.hasMetadata = false := metadata
    simp only [GuardedColumn.oidType,Column.oidType,without,metadata]
    exact guarded_ask column resolvers none
  | true =>
    have present : column.guarded.draft.hasMetadata = true := metadata
    simp only [GuardedColumn.oidType,Column.oidType,present,metadata,if_true]
    rw [guarded_described]
    apply guarded_andThen
    intro descriptor described
    rw [← request_kept]
    cases descriptor.isArray with
    | true => rfl
    | false => exact guarded_asked (describe_kept described) resolvers

theorem guarded_componentOidType (column : Column r) (resolvers : Vector Resolver r) :
    column.guarded.componentOidType resolvers = guardedPair (column.componentOidType resolvers .given) := by
  simp only [GuardedColumn.componentOidType,Column.componentOidType]
  rw [guarded_described]
  apply guarded_andThen
  intro descriptor described
  rw [← request_kept]
  cases descriptor.isArray with
  | true => exact guarded_asked (describe_kept described) resolvers
  | false =>
    have same := describe_form column
    have names : column.describe.2.name = column.name := congrArg ColumnForm.name same
    have types : column.describe.2.rawType = column.rawType := congrArg ColumnForm.rawType same
    rw [← names,← types]
    rfl

theorem guarded_step (column : Column r) (resolvers : Vector Resolver r) (call : ColumnCall) :
    column.guarded.step resolvers call = guardedPair (column.step resolvers call) := by
  cases call with
  | info => rfl
  | typeMetadata target =>
    cases target with
    | missing => rfl
    | given =>
      rw [GuardedColumn.step,guarded_described]
      exact guarded_map Value.descriptor _
  | oidType target =>
    cases target with
    | missing => rfl
    | given =>
      rw [GuardedColumn.step,guarded_oidType]
      exact guarded_map Value.oid _
  | componentOidType target =>
    cases target with
    | missing => rfl
    | given =>
      rw [GuardedColumn.step,guarded_componentOidType]
      exact guarded_map Value.oid _

theorem guarded_after (column : Column r) (visits : List (Visit r)) :
    column.guarded.after visits = (column.after visits).guarded := by
  induction visits generalizing column with
  | nil => rfl
  | cons visit rest ih =>
    have first : (column.guarded.step visit.resolvers visit.call).after =
      (column.step visit.resolvers visit.call).2.guarded := by rw [guarded_step]; rfl
    have later := ih (column.step visit.resolvers visit.call).2
    rw [← first] at later
    exact later

end ColumnTypes
