import ColumnTypes.Proofs.ColumnCache
namespace ColumnTypes

-- A call on one column, with the resolvers as they stand when it is made.
structure Visit (r : Nat) where
  resolvers : Vector Resolver r
  call : ColumnCall

def Column.after (column : Column r) (visits : List (Visit r)) : Column r :=
  visits.foldl (fun column visit => (column.step visit.resolvers visit.call).2) column

def Column.answers (column : Column r) : List (Visit r) → List (Answer Value)
  | [] => []
  | visit :: rest =>
    (column.step visit.resolvers visit.call).1 ::
      (column.step visit.resolvers visit.call).2.answers rest

theorem unread_made (form : ColumnForm r) : Column.make? form.draft = .ok form.unread := rfl

theorem andThen_events (answer : Answer α) (next : α → Answer β)
    (only : ∀ value, ∃ asked : List Request, (next value).events = asked.map .requested) :
    ∃ asked : List Request, (answer.andThen next).events = answer.events ++ asked.map .requested := by
  cases ended : answer.outcome with
  | done value =>
    obtain ⟨asked,events⟩ := only value
    exact ⟨asked,by simp [Answer.andThen,ended,events]⟩
  | failed fault => exact ⟨[],by simp [Answer.andThen,ended]⟩
  | aborted violation => exact ⟨[],by simp [Answer.andThen,ended]⟩

-- Looking at the type comes first in every call, and only requests follow it.
theorem step_events (column : Column r) (resolvers : Vector Resolver r) (call : ColumnCall) :
    ∃ asked : List Request, (column.step resolvers call).1.events =
      (if call.asks then column.describe.1.events else []) ++ asked.map .requested := by
  have request : ∀ descriptor, ∃ asked : List Request,
      (column.request resolvers descriptor).events = asked.map .requested :=
    fun descriptor => ⟨[⟨column.name,descriptor⟩],rfl⟩
  cases call with
  | info => exact ⟨[],rfl⟩
  | typeMetadata target =>
    cases target with
    | missing => exact ⟨[],rfl⟩
    | given => exact ⟨[],(List.append_nil _).symm⟩
  | oidType target =>
    cases target with
    | missing => exact ⟨[],rfl⟩
    | given =>
      cases metadata : column.hasMetadata with
      | true =>
        simp only [Column.step,Column.oidType,metadata,if_true,ColumnCall.asks,Answer.map]
        apply andThen_events
        intro descriptor
        split
        · exact ⟨[],rfl⟩
        · exact request _
      | false =>
        simp only [Column.step,Column.oidType,metadata,ColumnCall.asks,Answer.map,
          describe_blind metadata]
        exact request none
  | componentOidType target =>
    cases target with
    | missing => exact ⟨[],rfl⟩
    | given =>
      simp only [Column.step,Column.componentOidType,if_true,ColumnCall.asks,Answer.map]
      apply andThen_events
      intro descriptor
      split
      · exact request _
      · exact ⟨[],rfl⟩

theorem after_append (column : Column r) (before later : List (Visit r)) :
    column.after (before ++ later) = (column.after before).after later :=
  List.foldl_append

theorem after_form (column : Column r) (visits : List (Visit r)) :
    (column.after visits).form = column.form := by
  induction visits generalizing column with
  | nil => rfl
  | cons visit rest ih => exact (ih _).trans (step_form column visit.resolvers visit.call)

theorem after_coherent {column : Column r} (coherent : column.Coherent) (visits : List (Visit r)) :
    (column.after visits).Coherent := by
  induction visits generalizing column with
  | nil => exact coherent
  | cons visit rest ih => exact ih (step_coherent coherent visit.resolvers visit.call)

end ColumnTypes
