import ColumnTypes.Proofs.ColumnHistory
import ColumnTypes.Proofs.RegistryHistory
import ColumnTypes.Session
namespace ColumnTypes

-- What a caller and a resolver see of a call. Normalizer calls and log reports
-- are left out: they are where a cache is meant to make a difference.
structure Report (α : Type) where
  outcome : Outcome α
  requests : List Request
deriving DecidableEq, Repr

def Answer.report (answer : Answer α) : Report α :=
  ⟨answer.outcome,answer.events.filterMap Event.request?⟩

def Report.map (f : α → β) (report : Report α) : Report β := ⟨report.outcome.map f,report.requests⟩

-- The reference. It has the form of a column and nothing else: the raw type is
-- parsed in every call, and the resolver is asked as it stands.
def ColumnForm.described (form : ColumnForm r) : Outcome Descriptor :=
  if form.hasMetadata then form.parse.outcome else .aborted (.noMetadata form.name)

def ColumnForm.ask (form : ColumnForm r) (resolvers : Vector Resolver r)
    (descriptor : Option Descriptor) : Report Oid :=
  let request : Request := ⟨form.name,descriptor⟩
  ⟨.ofExcept ((resolvers.get form.resolver).resolve request .given),[request]⟩

def ColumnForm.oidType (form : ColumnForm r) (resolvers : Vector Resolver r) : Report Oid :=
  if form.hasMetadata then
    match form.parse.outcome with
    | .done descriptor =>
      if descriptor.isArray then ⟨.done genericArrayOid,[]⟩ else form.ask resolvers (some descriptor)
    | .failed fault => ⟨.failed fault,[]⟩
    | .aborted violation => ⟨.aborted violation,[]⟩
  else form.ask resolvers none

def ColumnForm.componentOidType (form : ColumnForm r) (resolvers : Vector Resolver r) : Report Oid :=
  match form.described with
  | .done descriptor =>
    if descriptor.isArray then form.ask resolvers (some descriptor)
    else ⟨.aborted (.notArray form.name form.rawType),[]⟩
  | .failed fault => ⟨.failed fault,[]⟩
  | .aborted violation => ⟨.aborted violation,[]⟩

def ColumnForm.report (form : ColumnForm r) (resolvers : Vector Resolver r) :
    ColumnCall → Report Value
  | .info => ⟨.done (.info form.name form.rawType form.isOptional form.hasMetadata),[]⟩
  | .typeMetadata .given => ⟨form.described.map .descriptor,[]⟩
  | .oidType .given => (form.oidType resolvers).map .oid
  | .componentOidType .given => (form.componentOidType resolvers).map .oid
  | .typeMetadata .missing | .oidType .missing | .componentOidType .missing =>
    ⟨.failed .noResultTarget,[]⟩

def statelessStep (forms : Vector (ColumnForm r) c) (resolvers : Vector Resolver r) :
    Call r c → Report Value × Vector Resolver r
  | .onResolver place call =>
    let (answer,after) := (resolvers.get place).step call
    (answer.report,resolvers.set place after place.isLt)
  | .onColumn place call => ((forms.get place).report resolvers call,resolvers)

def statelessRun (forms : Vector (ColumnForm r) c) (resolvers : Vector Resolver r) :
    List (Call r c) → List (Report Value)
  | [] => []
  | call :: rest =>
    let (report,after) := statelessStep forms resolvers call
    if report.outcome.isAborted then [report] else report :: statelessRun forms after rest

theorem request_report (column : Column r) (resolvers : Vector Resolver r)
    (descriptor : Option Descriptor) :
    (column.request resolvers descriptor).report = column.form.ask resolvers descriptor := rfl

theorem describe_requests (column : Column r) :
    column.describe.1.events.filterMap Event.request? = [] := by
  have look := describe_look column
  generalize column.describe = result at look ⊢
  cases look <;> rfl

theorem describe_report {column : Column r} (coherent : column.Coherent) :
    column.describe.1.report = ⟨column.form.described,[]⟩ := by
  unfold Answer.report ColumnForm.described
  rw [describe_requests]
  cases metadata : column.hasMetadata with
  | false =>
    have absent : column.form.hasMetadata = false := metadata
    rw [describe_blind metadata,absent]
    rfl
  | true =>
    have present : column.form.hasMetadata = true := metadata
    rw [describe_outcome coherent metadata,present]
    rfl

theorem andThen_report (answer : Answer α) (next : α → Answer β) :
    (answer.andThen next).report =
      match answer.report.outcome with
      | .done value => ⟨(next value).report.outcome,answer.report.requests ++ (next value).report.requests⟩
      | .failed fault => ⟨.failed fault,answer.report.requests⟩
      | .aborted violation => ⟨.aborted violation,answer.report.requests⟩ := by
  cases ended : answer.outcome with
  | done value => simp [Answer.report,Answer.andThen,ended]
  | failed fault => simp [Answer.report,Answer.andThen,ended]
  | aborted violation => simp [Answer.report,Answer.andThen,ended]

theorem oidType_report {column : Column r} (coherent : column.Coherent)
    (resolvers : Vector Resolver r) :
    (column.oidType resolvers .given).1.report = column.form.oidType resolvers := by
  unfold Column.oidType ColumnForm.oidType
  cases metadata : column.hasMetadata with
  | false =>
    have absent : column.form.hasMetadata = false := metadata
    simp only [absent,Bool.false_eq_true,if_false]
    exact request_report column resolvers none
  | true =>
    have described : column.form.described = column.form.parse.outcome := by
      simp [ColumnForm.described,Column.form,metadata]
    have kept : column.form.hasMetadata = true := metadata
    simp only [if_pos,kept]
    rw [andThen_report,describe_report coherent,described]
    cases ended : column.form.parse.outcome with
    | done descriptor =>
      cases array : descriptor.isArray with
      | true => simp [array,Answer.report]
      | false => simp [array,request_report]
    | failed fault => rfl
    | aborted violation => rfl

theorem componentOidType_report {column : Column r} (coherent : column.Coherent)
    (resolvers : Vector Resolver r) :
    (column.componentOidType resolvers .given).1.report = column.form.componentOidType resolvers := by
  unfold Column.componentOidType ColumnForm.componentOidType
  dsimp only
  rw [andThen_report,describe_report coherent]
  cases ended : column.form.described with
  | done descriptor =>
    cases array : descriptor.isArray with
    | true => simp [array,request_report]
    | false =>
      simp only [array,Bool.false_eq_true,if_false]
      rfl
  | failed fault => rfl
  | aborted violation => rfl

theorem step_report {column : Column r} (coherent : column.Coherent)
    (resolvers : Vector Resolver r) (call : ColumnCall) :
    (column.step resolvers call).1.report = column.form.report resolvers call := by
  cases call with
  | info => rfl
  | typeMetadata target =>
    cases target with
    | missing => rfl
    | given =>
      have described := congrArg (Report.map Value.descriptor) (describe_report coherent)
      exact described
  | oidType target =>
    cases target with
    | missing => rfl
    | given => exact congrArg (Report.map Value.oid) (oidType_report coherent resolvers)
  | componentOidType target =>
    cases target with
    | missing => rfl
    | given => exact congrArg (Report.map Value.oid) (componentOidType_report coherent resolvers)

theorem after_report (form : ColumnForm r) (visits : List (Visit r)) (resolvers : Vector Resolver r)
    (call : ColumnCall) : ((form.unread.after visits).step resolvers call).1.report =
      form.report resolvers call := by
  have coherent := after_coherent (unread_coherent form) visits
  rw [step_report coherent,after_form,unread_form]

def Session.forms (session : Session r c) : Vector (ColumnForm r) c := session.columns.map Column.form

def Session.Coherent (session : Session r c) : Prop := ∀ place : Fin c, (session.columns.get place).Coherent

def Session.reach (session : Session r c) (calls : List (Call r c)) : Session r c :=
  calls.foldl (fun session call => (session.step call).after) session

def resolversReached (resolvers : Vector Resolver r) (calls : List (Call r c)) : Vector Resolver r :=
  calls.foldl (fun resolvers call =>
    match call with
    | .onResolver place call => resolvers.set place ((resolvers.get place).step call).2 place.isLt
    | .onColumn _ _ => resolvers) resolvers

theorem form_at (session : Session r c) (place : Fin c) :
    session.forms.get place = (session.columns.get place).form := Vector.getElem_map _ place.isLt

theorem step_forms (session : Session r c) (call : Call r c) :
    (session.step call).after.forms = session.forms := by
  cases call with
  | onResolver place call => rfl
  | onColumn place call =>
    have same := step_form (session.columns.get place) session.resolvers call
    rw [← form_at] at same
    have kept : session.forms.set place (session.forms.get place) place.isLt = session.forms :=
      Vector.set_getElem_self place.isLt
    rw [← same,Session.forms,← Vector.map_set] at kept
    exact kept

theorem step_own (session : Session r c) (place : Fin c) (call : ColumnCall) :
    (session.step (.onColumn place call)).after.columns.get place =
      ((session.columns.get place).step session.resolvers call).2 :=
  Vector.getElem_set_self place.isLt

theorem step_other (session : Session r c) (call : ColumnCall) (apart : place ≠ other) :
    (session.step (.onColumn place call)).after.columns.get other = session.columns.get other := by
  have places : place.val ≠ other.val := fun equal => apart (Fin.ext equal)
  exact Vector.getElem_set_ne place.isLt other.isLt places

theorem session_coherent {session : Session r c} (coherent : session.Coherent) (call : Call r c) :
    (session.step call).after.Coherent := by
  cases call with
  | onResolver place call => exact coherent
  | onColumn place call =>
    intro other
    by_cases same : place = other
    · subst other
      rw [step_own]
      exact step_coherent (coherent place) session.resolvers call
    · rw [step_other session call same]
      exact coherent other

theorem session_report {session : Session r c} (coherent : session.Coherent) (call : Call r c) :
    (session.step call).answer.report = (statelessStep session.forms session.resolvers call).1 := by
  cases call with
  | onResolver place call => rfl
  | onColumn place call =>
    have reported := step_report (coherent place) session.resolvers call
    rw [← form_at] at reported
    exact reported

theorem session_resolvers (session : Session r c) (call : Call r c) :
    (session.step call).after.resolvers =
      (statelessStep session.forms session.resolvers call).2 := by
  cases call with
  | onResolver place call => rfl
  | onColumn place call => rfl

theorem run_report {session : Session r c} (coherent : session.Coherent) (calls : List (Call r c)) :
    (session.run calls).map (fun step => step.answer.report) =
      statelessRun session.forms session.resolvers calls := by
  -- Coherence carries the induction; the forms stay those of the start.
  induction calls generalizing session with
  | nil => rfl
  | cons call rest ih =>
    have reported := session_report coherent call
    have continued := ih (session_coherent coherent call)
    rw [step_forms,session_resolvers] at continued
    have ended : (session.step call).answer.outcome =
      (statelessStep session.forms session.resolvers call).1.outcome := congrArg Report.outcome reported
    simp only [Session.run,statelessRun,← ended]
    split
    · simp [reported]
    · simp [reported,continued]

theorem reach_forms (session : Session r c) (calls : List (Call r c)) :
    (session.reach calls).forms = session.forms := by
  induction calls generalizing session with
  | nil => rfl
  | cons call rest ih =>
    have continued := ih (session.step call).after
    rw [step_forms] at continued
    exact continued

theorem reach_coherent {session : Session r c} (coherent : session.Coherent)
    (calls : List (Call r c)) : (session.reach calls).Coherent := by
  induction calls generalizing session with
  | nil => exact coherent
  | cons call rest ih => exact ih (session_coherent coherent call)

theorem reach_resolvers (session : Session r c) (calls : List (Call r c)) :
    (session.reach calls).resolvers = resolversReached session.resolvers calls := by
  induction calls generalizing session with
  | nil => rfl
  | cons call rest ih =>
    have continued := ih (session.step call).after
    cases call with
    | onResolver place call => exact continued
    | onColumn place call => exact continued

theorem reach_report {session : Session r c} (coherent : session.Coherent)
    (before : List (Call r c)) (place : Fin c) (call : ColumnCall) :
    ((session.reach before).step (.onColumn place call)).answer.report =
      (session.forms.get place).report (resolversReached session.resolvers before) call := by
  rw [session_report (reach_coherent coherent before)]
  simp only [statelessStep,reach_forms,reach_resolvers]

def startSession (resolvers : Vector Resolver r) (forms : Vector (ColumnForm r) c) : Session r c :=
  ⟨resolvers,forms.map ColumnForm.unread⟩

theorem start_made (resolvers : Vector Resolver r) (forms : Vector (ColumnForm r) c) :
    Session.start? resolvers (forms.map ColumnForm.draft) = .ok (startSession resolvers forms) := by
  have made : (forms.map ColumnForm.draft).mapM Column.make? =
      (.ok (forms.map ColumnForm.unread) : Except Violation _) := by
    rw [Vector.mapM_map]
    exact Vector.mapM_pure ColumnForm.unread
  simp [Session.start?,made,startSession]

theorem start_coherent (resolvers : Vector Resolver r) (forms : Vector (ColumnForm r) c) :
    (startSession resolvers forms).Coherent := by
  intro place
  have made : (startSession resolvers forms).columns.get place = (forms.get place).unread :=
    Vector.getElem_map _ place.isLt
  rw [made]
  exact unread_coherent (forms.get place)

theorem start_forms (resolvers : Vector Resolver r) (forms : Vector (ColumnForm r) c) :
    (startSession resolvers forms).forms = forms := by
  ext place inside
  simp [startSession,Session.forms,unread_form]

def elementCall (descriptor : Descriptor) : ColumnCall :=
  if descriptor.isArray then .componentOidType .given else .oidType .given

theorem described_parts {form : ColumnForm r} (described : form.described = .done descriptor) :
    form.hasMetadata = true ∧ form.parse.outcome = .done descriptor := by
  unfold ColumnForm.described at described
  split at described
  · rename_i metadata
    exact ⟨metadata,described⟩
  · cases described

theorem element_report {form : ColumnForm r} (resolvers : Vector Resolver r)
    (described : form.described = .done descriptor) :
    form.report resolvers (elementCall descriptor) = (form.ask resolvers (some descriptor)).map .oid := by
  obtain ⟨metadata,parsed⟩ := described_parts described
  unfold elementCall
  cases array : descriptor.isArray with
  | true => simp [ColumnForm.report,ColumnForm.componentOidType,described,array]
  | false => simp [ColumnForm.report,ColumnForm.oidType,metadata,parsed,array]

theorem register_found (types : Registry) (name : Text) (oid : Oid) :
    (types.register name oid).find? name = some oid := by
  rw [register_find,if_pos rfl]

theorem register_seen {form : ColumnForm r} (resolvers : Vector Resolver r) (oid : Oid)
    (described : form.described = .done descriptor)
    (registry : resolvers.get form.resolver = .registry types) :
    form.report (resolvers.set form.resolver
        ((resolvers.get form.resolver).step (.register descriptor.elementTypeName oid)).2)
      (elementCall descriptor) = ⟨.done (.oid oid),[⟨form.name,some descriptor⟩]⟩ := by
  have known : (resolvers.set form.resolver
      (.registry (types.register descriptor.elementTypeName oid)) form.resolver.isLt).get form.resolver =
      .registry (types.register descriptor.elementTypeName oid) :=
    Vector.getElem_set_self form.resolver.isLt
  rw [element_report _ described,registry]
  simp only [ColumnForm.ask,Resolver.step,known,Resolver.resolve,register_found,Report.map,
    Outcome.ofExcept,Outcome.map]

-- Columns that parse on first use and keep the result answer every history of
-- calls as columns that keep nothing. What was called before matters only
-- through the resolvers, and a registration is seen by the very next call.
theorem sessions_stateless (resolvers : Vector Resolver r) (forms : Vector (ColumnForm r) c) :
    ∃ session, Session.start? resolvers (forms.map ColumnForm.draft) = .ok session ∧
      (∀ calls, (session.run calls).map (fun step => step.answer.report) =
        statelessRun forms resolvers calls) ∧
      (∀ before (place : Fin c) call,
        ((session.reach before).step (.onColumn place call)).answer.report =
          (forms.get place).report (resolversReached resolvers before) call) ∧
      ∀ before (place : Fin c) types descriptor oid,
        (forms.get place).described = .done descriptor →
        (resolversReached resolvers before).get (forms.get place).resolver = .registry types →
        ((session.reach (before ++
            [.onResolver (forms.get place).resolver (.register descriptor.elementTypeName oid)])).step
          (.onColumn place (elementCall descriptor))).answer.report =
            ⟨.done (.oid oid),[⟨(forms.get place).name,some descriptor⟩]⟩ := by
  have coherent := start_coherent resolvers forms
  have formed := start_forms resolvers forms
  refine ⟨startSession resolvers forms,start_made resolvers forms,?_,?_,?_⟩
  · intro calls
    have reported := run_report coherent calls
    rw [formed] at reported
    exact reported
  · intro before place call
    have reported := reach_report coherent before place call
    rw [formed] at reported
    exact reported
  · intro before place types descriptor oid described registry
    have reported := reach_report coherent (before ++
      [.onResolver (forms.get place).resolver (.register descriptor.elementTypeName oid)]) place
      (elementCall descriptor)
    have seen := register_seen (resolversReached resolvers before) oid described registry
    rw [reported,formed,← seen]
    simp only [startSession,resolversReached,List.foldl_append,List.foldl_cons,List.foldl_nil]

theorem sessions_stateless_registered :
    let resolvers : Vector Resolver 1 := #v[.registry .empty]
    let form : ColumnForm 1 := ⟨"c".toList,"_geo(2)".toList,true,true,0,normalizeTypeName⟩
    let asked : Call 1 1 := .onColumn 0 (.componentOidType .given)
    ∃ session descriptor, Session.start? resolvers (#v[form].map ColumnForm.draft) = .ok session ∧
      form.described = .done descriptor ∧
      (session.step asked).answer.outcome = .failed (.unknownType "geo".toList "c".toList) ∧
      ((session.reach [asked,.onResolver 0 (.register "geo".toList 7)]).step asked).answer.outcome =
        .done (.oid 7) := by
  intro resolvers form asked
  obtain ⟨session,started,_,fresh,seen⟩ := sessions_stateless resolvers #v[form]
  let descriptor : Descriptor :=
    ⟨⟨none,"geo".toList,"geo(2)".toList,true,["2".toList],some 2,none⟩,"_geo".toList,true⟩
  have described : form.described = .done descriptor := by decide
  refine ⟨session,descriptor,started,described,?_,?_⟩
  · have unknown : (form.report resolvers (elementCall descriptor)).outcome =
        .failed (.unknownType "geo".toList "c".toList) := by
      rw [element_report resolvers described]
      have unregistered : Registry.empty.find? "geo".toList = none :=
        Std.ExtHashMap.getElem?_empty
      have asked : (Resolver.registry .empty).resolve ⟨"c".toList,some descriptor⟩ .given =
          .error (.unknownType "geo".toList "c".toList) := by
        have elements : descriptor.elementTypeName = "geo".toList := by decide
        simp only [Resolver.resolve,elements,unregistered]
      exact congrArg (fun found => (Outcome.ofExcept found).map Value.oid) asked
    have reported := congrArg Report.outcome (fresh [] 0 (.componentOidType .given))
    exact reported.trans unknown
  · have reported := seen [asked] 0 .empty descriptor 7 described rfl
    exact congrArg Report.outcome reported

end ColumnTypes
