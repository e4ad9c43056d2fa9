import ColumnTypes.Proofs.StatelessColumns
namespace ColumnTypes

def Column.known (column : Column r) : List Text :=
  match column.cache with
  | none => []
  | some descriptor => [descriptor.baseType]

def Column.inputs (column : Column r) (visits : List (Visit r)) : List Text :=
  (column.answers visits).flatMap Answer.inputs

def Column.complaints (column : Column r) (visits : List (Visit r)) : List Text :=
  (column.answers visits).flatMap Answer.complaints

def Malformed (raw : Text) : Prop := Reading.ofText? raw = none

instance (raw : Text) : Decidable (Malformed raw) := inferInstanceAs (Decidable (_ = _))

def ColumnForm.complaint (form : ColumnForm r) : Text :=
  "Failed to parse column type for ".toList ++ form.name ++ " '".toList ++ form.rawType ++ "'".toList

def ColumnForm.dues (form : ColumnForm r) : List Text :=
  if form.hasMetadata ∧ Malformed form.rawType then [form.complaint] else []

-- Calls behind one that breaks its contract are accounted for as well: nothing
-- here depends on how a call ends.
structure ColumnForm.Ledger (form : ColumnForm r) (column : Column r) (visits : List (Visit r)) :
    Prop where
  lasting : ∀ before later descriptor, visits = before ++ later →
    (column.after before).cache = some descriptor → (column.after visits).cache = some descriptor
  cached : ∀ descriptor, (column.after visits).cache = some descriptor →
    form.hasMetadata = true ∧ form.parse.outcome = .done descriptor
  normalized : column.inputs visits = (column.after visits).known
  malformed : Malformed form.rawType → (column.after visits).isParsed = false ∧
    (form.hasMetadata = true → (∀ answer ∈ column.answers visits, answer.requests = []) ∧
      column.complaints visits = List.replicate (visits.countP fun visit => visit.call.asks) form.complaint)
  silent : ¬Malformed form.rawType → column.complaints visits = []
  blind : form.hasMetadata = false → (column.after visits).isParsed = false ∧
    column.inputs visits = [] ∧ column.complaints visits = [] ∧
    (column.answers visits).map Answer.requests =
      visits.map fun visit => if visit.call = .oidType .given then [⟨form.name,none⟩] else []

variable {column : Column r} {form : ColumnForm r}

theorem malformed_parse (malformed : Malformed form.rawType) :
    form.parse.outcome = .failed (.malformed form.name form.rawType) := by
  rw [ColumnForm.parse,parse_unread malformed]

theorem malformed_uncached (coherent : column.Coherent) (malformed : Malformed column.form.rawType) :
    column.cache = none := by
  cases cached : column.cache with
  | none => rfl
  | some descriptor =>
    have parsed := (coherent descriptor cached).2
    rw [malformed_parse malformed] at parsed
    cases parsed

theorem blind_uncached (coherent : column.Coherent) (absent : column.form.hasMetadata = false) :
    column.cache = none := by
  cases cached : column.cache with
  | none => rfl
  | some descriptor =>
    have metadata : column.form.hasMetadata = true := (coherent descriptor cached).1
    rw [absent] at metadata
    cases metadata

theorem describe_lasting (known : column.cache = some descriptor) : column.describe.2 = column := by
  have look := describe_look column
  generalize column.describe = result at look ⊢
  cases look with
  | blind absent => rfl
  | cached metadata known => rfl
  | read metadata unparsed accepted =>
    rw [unparsed] at known
    cases known
  | refused metadata unparsed malformed => rfl

theorem describe_inputs (column : Column r) :
    column.known ++ column.describe.1.inputs = column.describe.2.known := by
  have look := describe_look column
  generalize column.describe = result at look ⊢
  cases look with
  | blind absent => exact List.append_nil _
  | cached metadata known => exact List.append_nil _
  | read metadata unparsed accepted =>
    rw [Column.known,unparsed]
    rfl
  | refused metadata unparsed malformed => exact List.append_nil _

theorem describe_complaints (coherent : column.Coherent) :
    column.describe.1.complaints = column.form.dues := by
  have look := describe_look column
  generalize column.describe = result at look ⊢
  unfold ColumnForm.dues
  cases look with
  | blind absent =>
    have none : column.form.hasMetadata = false := absent
    simp [none,Answer.complaints]
  | cached metadata known =>
    have readable : ¬Malformed column.form.rawType := by
      intro malformed
      rw [malformed_uncached coherent malformed] at known
      cases known
    simp [readable,Answer.complaints]
  | read metadata unparsed accepted =>
    have readable : ¬Malformed column.form.rawType := by simp [Malformed,Column.form,accepted]
    simp [readable,Answer.complaints,Event.report?]
  | refused metadata unparsed malformed =>
    rw [if_pos ⟨metadata,malformed⟩]
    rfl

theorem step_noted (note : Event → Option Text) (unasked : ∀ request, note (.requested request) = none)
    (column : Column r) (resolvers : Vector Resolver r) (call : ColumnCall) :
    (column.step resolvers call).1.events.filterMap note =
      if call.asks then column.describe.1.events.filterMap note else [] := by
  obtain ⟨asked,events⟩ := step_events column resolvers call
  have nothing : (asked.map Event.requested).filterMap note = [] := by
    simp [unasked]
  rw [events,List.filterMap_append,nothing,List.append_nil]
  split <;> rfl

theorem step_inputs (column : Column r) (resolvers : Vector Resolver r) (call : ColumnCall) :
    column.known ++ (column.step resolvers call).1.inputs = (column.step resolvers call).2.known := by
  rw [Answer.inputs,step_noted _ (fun _ => rfl),step_state]
  split
  · exact describe_inputs column
  · exact List.append_nil _

theorem step_complaints (coherent : column.Coherent) (resolvers : Vector Resolver r)
    (call : ColumnCall) : (column.step resolvers call).1.complaints =
      if call.asks then column.form.dues else [] := by
  rw [Answer.complaints,step_noted _ (fun _ => rfl),← describe_complaints coherent]
  rfl

theorem run_inputs (column : Column r) (visits : List (Visit r)) :
    column.known ++ column.inputs visits = (column.after visits).known := by
  induction visits generalizing column with
  | nil => exact List.append_nil _
  | cons visit rest ih =>
    have first := step_inputs column visit.resolvers visit.call
    have later := ih (column.step visit.resolvers visit.call).2
    rw [← first,List.append_assoc] at later
    exact later

theorem run_complaints (coherent : column.Coherent) (visits : List (Visit r)) :
    column.complaints visits =
      (visits.filter fun visit => visit.call.asks).flatMap fun _ => column.form.dues := by
  -- The form of the column is that of the start all along, and so are its dues.
  induction visits generalizing column with
  | nil => rfl
  | cons visit rest ih =>
    have first := step_complaints coherent visit.resolvers visit.call
    have later := ih (step_coherent coherent visit.resolvers visit.call)
    rw [step_form] at later
    have split : column.complaints (visit :: rest) =
      (column.step visit.resolvers visit.call).1.complaints ++
        (column.step visit.resolvers visit.call).2.complaints rest := rfl
    rw [split,first,later]
    cases asks : visit.call.asks with
    | true => simp [asks]
    | false => simp [asks]

theorem after_lasting (cached : column.cache = some descriptor) (visits : List (Visit r)) :
    (column.after visits).cache = some descriptor := by
  induction visits generalizing column with
  | nil => exact cached
  | cons visit rest ih =>
    have first : (column.step visit.resolvers visit.call).2.cache = some descriptor := by
      rw [step_state]
      split
      · rw [describe_lasting cached]
        exact cached
      · exact cached
    exact ih first

theorem answers_reports (coherent : column.Coherent) (visits : List (Visit r)) :
    (column.answers visits).map Answer.report =
      visits.map fun visit => column.form.report visit.resolvers visit.call := by
  induction visits generalizing column with
  | nil => rfl
  | cons visit rest ih =>
    have first := step_report coherent visit.resolvers visit.call
    have later := ih (step_coherent coherent visit.resolvers visit.call)
    rw [step_form] at later
    simp only [Column.answers,List.map_cons,first,later]

theorem malformed_requests (malformed : Malformed form.rawType) (metadata : form.hasMetadata = true)
    (resolvers : Vector Resolver r) (call : ColumnCall) : (form.report resolvers call).requests = [] := by
  have failed := malformed_parse malformed
  cases call with
  | info => rfl
  | typeMetadata target => cases target <;> rfl
  | oidType target =>
    cases target with
    | missing => rfl
    | given => simp [ColumnForm.report,ColumnForm.oidType,metadata,failed,Report.map]
  | componentOidType target =>
    cases target with
    | missing => rfl
    | given =>
      simp [ColumnForm.report,ColumnForm.componentOidType,ColumnForm.described,metadata,failed,Report.map]

theorem blind_requests (absent : form.hasMetadata = false) (resolvers : Vector Resolver r)
    (call : ColumnCall) : (form.report resolvers call).requests =
      if call = .oidType .given then [⟨form.name,none⟩] else [] := by
  cases call with
  | info => rfl
  | typeMetadata target => cases target <;> rfl
  | oidType target =>
    cases target with
    | missing => rfl
    | given => simp [ColumnForm.report,ColumnForm.oidType,absent,ColumnForm.ask,Report.map]
  | componentOidType target =>
    cases target with
    | missing => rfl
    | given =>
      simp [ColumnForm.report,ColumnForm.componentOidType,ColumnForm.described,absent,Report.map]

theorem answers_requests (coherent : column.Coherent) (visits : List (Visit r)) :
    (column.answers visits).map Answer.requests =
      visits.map fun visit => (column.form.report visit.resolvers visit.call).requests := by
  have reports := congrArg (List.map Report.requests) (answers_reports coherent visits)
  rw [List.map_map,List.map_map] at reports
  exact reports

theorem malformed_unasked (coherent : column.Coherent) (malformed : Malformed column.form.rawType)
    (metadata : column.form.hasMetadata = true) (visits : List (Visit r)) :
    ∀ answer ∈ column.answers visits, answer.requests = [] := by
  intro answer member
  have listed := List.mem_map_of_mem (f := Answer.requests) member
  rw [answers_requests coherent] at listed
  obtain ⟨visit,_,same⟩ := List.mem_map.mp listed
  rw [← same]
  exact malformed_requests malformed metadata visit.resolvers visit.call

theorem malformed_complaints (coherent : column.Coherent) (malformed : Malformed column.form.rawType)
    (metadata : column.form.hasMetadata = true) (visits : List (Visit r)) : column.complaints visits =
      List.replicate (visits.countP fun visit => visit.call.asks) column.form.complaint := by
  have due : column.form.dues = [column.form.complaint] := by
    simp [ColumnForm.dues,malformed,metadata]
  rw [run_complaints coherent,due,List.countP_eq_length_filter,← List.map_const',List.map_eq_flatMap]

theorem no_complaints (coherent : column.Coherent) (clear : column.form.dues = [])
    (visits : List (Visit r)) : column.complaints visits = [] := by
  rw [run_complaints coherent,clear]
  simp

theorem column_ledger (form : ColumnForm r) :
    ∃ column, Column.make? form.draft = .ok column ∧ ∀ visits, form.Ledger column visits := by
  refine ⟨form.unread,unread_made form,?_⟩
  intro visits
  have coherent := unread_coherent form
  have kept : (form.unread.after visits).form = form := after_form form.unread visits
  have reached := after_coherent coherent visits
  have inputs : form.unread.inputs visits = (form.unread.after visits).known :=
    run_inputs form.unread visits
  constructor
  case lasting =>
    intro before later descriptor whole cached
    rw [whole,after_append]
    exact after_lasting cached later
  case cached =>
    intro descriptor cached
    have parsed : (form.unread.after visits).form.hasMetadata = true ∧
      (form.unread.after visits).form.parse.outcome = .done descriptor := reached descriptor cached
    rw [kept] at parsed
    exact parsed
  case normalized => exact inputs
  case malformed =>
    intro malformed
    have unparsed := malformed_uncached reached (by rw [kept]; exact malformed)
    refine ⟨by simp [Column.isParsed,unparsed],?_⟩
    intro metadata
    exact ⟨malformed_unasked coherent malformed metadata visits,
      malformed_complaints coherent malformed metadata visits⟩
  case silent =>
    intro readable
    have clear : form.dues = [] := by simp [ColumnForm.dues,readable]
    exact no_complaints coherent clear visits
  case blind =>
    intro absent
    have unparsed := blind_uncached reached (by rw [kept]; exact absent)
    have clear : form.dues = [] := by simp [ColumnForm.dues,absent]
    have requests := answers_requests coherent visits
    simp only [unread_form,blind_requests absent] at requests
    refine ⟨by simp [Column.isParsed,unparsed],?_,no_complaints coherent clear visits,requests⟩
    rw [inputs]
    simp [Column.known,unparsed]

end ColumnTypes
