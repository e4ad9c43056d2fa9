import ColumnTypes.Proofs.StatelessColumns
namespace ColumnTypes
variable {place p q : Fin c} {session one other : Session r c}

def Call.concerns (place : Fin c) : Call r c → Bool
  | .onResolver _ _ => true
  | .onColumn other _ => other == place

def Session.Unbroken (session : Session r c) (calls : List (Call r c)) : Prop :=
  ∀ step ∈ session.run calls, step.answer.outcome.isAborted = false

def Session.answers (session : Session r c) (calls : List (Call r c)) : List (Answer Value) :=
  (session.run calls).map Step.answer

structure Sight (r : Nat) where
  answer : Answer Value
  column : Column r
  resolvers : Vector Resolver r

def Step.sight (place : Fin c) (step : Step r c) : Sight r :=
  ⟨step.answer,step.after.columns.get place,step.after.resolvers⟩

def Session.sights (session : Session r c) (place : Fin c) (calls : List (Call r c)) :
    List (Sight r) :=
  (calls.zip (session.run calls)).filterMap fun pair =>
    if pair.1.concerns place then some (pair.2.sight place) else none

structure Alike (place : Fin c) (one other : Session r c) : Prop where
  resolvers : one.resolvers = other.resolvers
  column : one.columns.get place = other.columns.get place

theorem unbroken_cons {call : Call r c} : session.Unbroken (call :: rest) ↔
    (session.step call).answer.outcome.isAborted = false ∧ (session.step call).after.Unbroken rest := by
  unfold Session.Unbroken
  cases broken : (session.step call).answer.outcome.isAborted with
  | true => simp [Session.run,broken]
  | false => simp [Session.run,broken]

theorem run_unbroken {call : Call r c} (unbroken : session.Unbroken (call :: rest)) :
    session.run (call :: rest) = session.step call :: (session.step call).after.run rest := by
  simp [Session.run,(unbroken_cons.mp unbroken).1]

theorem run_append {before : List (Call r c)} (unbroken : session.Unbroken before) (later : List (Call r c)) :
    session.run (before ++ later) = session.run before ++ (session.reach before).run later := by
  induction before generalizing session with
  | nil => rfl
  | cons call rest ih =>
    obtain ⟨ended,continued⟩ := unbroken_cons.mp unbroken
    have behind := ih continued
    simp only [List.cons_append,Session.run,ended,Bool.false_eq_true,if_false,behind]
    rfl

theorem reach_append (session : Session r c) (before later : List (Call r c)) :
    session.reach (before ++ later) = (session.reach before).reach later :=
  List.foldl_append

theorem unbroken_append {before later : List (Call r c)} :
    session.Unbroken (before ++ later) ↔
      session.Unbroken before ∧ (session.reach before).Unbroken later := by
  induction before generalizing session with
  | nil => simp [Session.Unbroken,Session.run,Session.reach]
  | cons call rest ih =>
    rw [List.cons_append,unbroken_cons,unbroken_cons,ih,and_assoc]
    rfl

theorem alike_refl (place : Fin c) (session : Session r c) : Alike place session session := ⟨rfl,rfl⟩

theorem alike_dropped (alike : Alike place one other) {call : Call r c}
    (elsewhere : call.concerns place = false) : Alike place (one.step call).after other := by
  cases call with
  | onResolver _ _ => cases elsewhere
  | onColumn p call =>
    have apart : p ≠ place := by simpa [Call.concerns] using elsewhere
    exact ⟨alike.resolvers,(step_other one call apart).trans alike.column⟩

theorem alike_kept (alike : Alike place one other) {call : Call r c}
    (here : call.concerns place = true) : (one.step call).answer = (other.step call).answer ∧
      Alike place (one.step call).after (other.step call).after := by
  obtain ⟨resolvers,column⟩ := alike
  cases call with
  | onResolver p call =>
    have sameStep : (one.resolvers.get p).step call = (other.resolvers.get p).step call := by rw [resolvers]
    refine ⟨congrArg Prod.fst sameStep,?_,column⟩
    change one.resolvers.set p ((one.resolvers.get p).step call).2 p.isLt =
      other.resolvers.set p ((other.resolvers.get p).step call).2 p.isLt
    rw [resolvers]
  | onColumn p call =>
    have same : p = place := by simpa [Call.concerns] using here
    subst p
    have sameStep : (one.columns.get place).step one.resolvers call =
      (other.columns.get place).step other.resolvers call := by rw [resolvers,column]
    refine ⟨congrArg Prod.fst sameStep,resolvers,?_⟩
    rw [step_own,step_own,sameStep]

theorem alike_run {calls : List (Call r c)} (alike : Alike place one other)
    (unbroken : one.Unbroken calls) :
    other.Unbroken (calls.filter (Call.concerns place)) ∧ one.sights place calls =
      (other.run (calls.filter (Call.concerns place))).map (Step.sight place) := by
  -- The other session skips the calls elsewhere and looks the same all along.
  induction calls generalizing one other with
  | nil => exact ⟨by simp [Session.Unbroken,Session.run],rfl⟩
  | cons call rest ih =>
    obtain ⟨ended,continued⟩ := unbroken_cons.mp unbroken
    cases here : call.concerns place with
    | true =>
      obtain ⟨answer,after⟩ := alike_kept alike here
      obtain ⟨front,sights⟩ := ih after continued
      rw [List.filter_cons_of_pos here]
      have kept : other.Unbroken (call :: rest.filter (Call.concerns place)) :=
        unbroken_cons.mpr ⟨by rw [← answer]; exact ended,front⟩
      refine ⟨kept,?_⟩
      have sight : (one.step call).sight place = (other.step call).sight place := by
        simp only [Step.sight,answer,after.resolvers,after.column]
      rw [run_unbroken kept,List.map_cons,← sights,← sight]
      simp only [Session.sights,run_unbroken unbroken,List.zip_cons_cons,List.filterMap_cons,here,if_true]
    | false =>
      obtain ⟨front,sights⟩ := ih (alike_dropped alike here) continued
      rw [List.filter_cons_of_neg (by simp [here])]
      refine ⟨front,?_⟩
      rw [← sights]
      simp [Session.sights,run_unbroken unbroken,here]

theorem column_resolvers (session : Session r c) (place : Fin c) (call : ColumnCall) :
    (session.step (.onColumn place call)).after.resolvers = session.resolvers := rfl

theorem swap_answer (session : Session r c) (apart : p ≠ q) (first second : ColumnCall) :
    ((session.step (.onColumn p first)).after.step (.onColumn q second)).answer =
      (session.step (.onColumn q second)).answer := by
  have untouched := step_other session first apart
  exact congrArg (fun column => (column.step session.resolvers second).1) untouched

theorem two_columns (session : Session r c) (apart : p ≠ q) (first second : ColumnCall) :
    ((session.step (.onColumn p first)).after.step (.onColumn q second)).after =
      ⟨session.resolvers,
        (session.columns.set p ((session.columns.get p).step session.resolvers first).2 p.isLt).set q
          ((session.columns.get q).step session.resolvers second).2 q.isLt⟩ := by
  have untouched := step_other session first apart
  exact congrArg (fun column => Session.mk session.resolvers
    ((session.step (.onColumn p first)).after.columns.set q
      (column.step session.resolvers second).2 q.isLt)) untouched

theorem swap_after (session : Session r c) (apart : p ≠ q) (first second : ColumnCall) :
    ((session.step (.onColumn q second)).after.step (.onColumn p first)).after =
      ((session.step (.onColumn p first)).after.step (.onColumn q second)).after := by
  have places : q.val ≠ p.val := fun equal => apart (Fin.ext equal.symm)
  rw [two_columns session apart,two_columns session apart.symm,Vector.set_comm _ _ places]

theorem run_length {calls : List (Call r c)} (unbroken : session.Unbroken calls) :
    (session.run calls).length = calls.length := by
  induction calls generalizing session with
  | nil => rfl
  | cons call rest ih => simp [run_unbroken unbroken,ih (unbroken_cons.mp unbroken).2]

theorem answers_cons {call : Call r c} (unbroken : session.Unbroken (call :: rest)) :
    session.answers (call :: rest) =
      (session.step call).answer :: (session.step call).after.answers rest := by
  rw [Session.answers,run_unbroken unbroken]
  rfl

theorem answers_append {before : List (Call r c)} (unbroken : session.Unbroken before)
    (later : List (Call r c)) :
    session.answers (before ++ later) = session.answers before ++ (session.reach before).answers later := by
  rw [Session.answers,run_append unbroken,List.map_append]
  rfl

theorem swap_front {later : List (Call r c)} (apart : p ≠ q) (first second : ColumnCall)
    (unbroken : session.Unbroken (.onColumn p first :: .onColumn q second :: later)) :
    session.Unbroken (.onColumn q second :: .onColumn p first :: later) ∧
    ∃ one two back, session.answers (.onColumn p first :: .onColumn q second :: later) =
        one :: two :: back ∧
      session.answers (.onColumn q second :: .onColumn p first :: later) = two :: one :: back := by
  have after := swap_after session apart first second
  have firstAnswer := swap_answer session apart.symm second first
  have secondAnswer := swap_answer session apart first second
  obtain ⟨firstEnded,remaining⟩ := unbroken_cons.mp unbroken
  obtain ⟨secondEnded,rest⟩ := unbroken_cons.mp remaining
  rw [secondAnswer] at secondEnded
  rw [← firstAnswer] at firstEnded
  rw [← after] at rest
  have reversed := unbroken_cons.mpr ⟨firstEnded,rest⟩
  have swapped : session.Unbroken (.onColumn q second :: .onColumn p first :: later) :=
    unbroken_cons.mpr ⟨secondEnded,reversed⟩
  refine ⟨swapped,_,_,_,(answers_cons unbroken).trans (congrArg _ (answers_cons remaining)),?_⟩
  rw [answers_cons swapped,answers_cons reversed,firstAnswer,secondAnswer,after]

theorem swap_run {before later : List (Call r c)} (apart : p ≠ q) (first second : ColumnCall)
    (unbroken : session.Unbroken (before ++ .onColumn p first :: .onColumn q second :: later)) :
    session.Unbroken (before ++ .onColumn q second :: .onColumn p first :: later) ∧
    session.reach (before ++ .onColumn q second :: .onColumn p first :: later) =
      session.reach (before ++ .onColumn p first :: .onColumn q second :: later) ∧
    ∃ front one two back, front.length = before.length ∧
      session.answers (before ++ .onColumn p first :: .onColumn q second :: later) =
        front ++ one :: two :: back ∧
      session.answers (before ++ .onColumn q second :: .onColumn p first :: later) =
        front ++ two :: one :: back := by
  obtain ⟨front,behind⟩ := unbroken_append.mp unbroken
  obtain ⟨swapped,one,two,back,inOrder,reversed⟩ := swap_front apart first second behind
  refine ⟨unbroken_append.mpr ⟨front,swapped⟩,?_,session.answers before,one,two,back,?_,?_,?_⟩
  · rw [reach_append,reach_append]
    exact congrArg (fun session => session.reach later)
      (swap_after (session.reach before) apart first second)
  · rw [Session.answers,List.length_map,run_length front]
  · rw [answers_append front,inOrder]
  · rw [answers_append front,reversed]

-- What is seen from one column does not change when the calls on all others are
-- left out, and neighbouring calls on different columns can be made in either order.
theorem columns_apart (session : Session r c) (calls : List (Call r c))
    (unbroken : session.Unbroken calls) :
    (∀ place, session.Unbroken (calls.filter (Call.concerns place)) ∧
      session.sights place calls =
        (session.run (calls.filter (Call.concerns place))).map (Step.sight place)) ∧
    (∀ before place call,
      (session.reach (before ++ [.onColumn place call])).resolvers = (session.reach before).resolvers) ∧
    ∀ before p first q second later, p ≠ q →
      calls = before ++ .onColumn p first :: .onColumn q second :: later →
      session.Unbroken (before ++ .onColumn q second :: .onColumn p first :: later) ∧
      session.reach (before ++ .onColumn q second :: .onColumn p first :: later) =
        session.reach calls ∧
      ∃ front one two back, front.length = before.length ∧
        session.answers calls = front ++ one :: two :: back ∧
        session.answers (before ++ .onColumn q second :: .onColumn p first :: later) =
          front ++ two :: one :: back := by
  refine ⟨?_,?_,?_⟩
  · intro place
    exact alike_run (alike_refl place session) unbroken
  · intro before place call
    rw [reach_append]
    exact column_resolvers (session.reach before) place call
  · intro before p first q second later apart whole
    subst whole
    exact swap_run apart first second unbroken

theorem columns_apart_shared :
    let session : Session 1 2 := ⟨#v[.registry .empty],
      #v[⟨"a".toList,"geo[]".toList,true,true,0,normalizeTypeName,none⟩,
        ⟨"b".toList,"geo(".toList,true,true,0,normalizeTypeName,none⟩]⟩
    let read : Call 1 2 := .onColumn 0 (.typeMetadata .given)
    let register : Call 1 2 := .onResolver 0 (.register "geo".toList 7)
    let refused : Call 1 2 := .onColumn 1 (.oidType .given)
    let again : Call 1 2 := .onColumn 0 (.oidType .given)
    session.Unbroken [read,register,refused,again] ∧
    session.sights 0 [read,register,refused,again] =
      (session.run [read,register,again]).map (Step.sight 0) ∧
    session.reach [read,register,again,refused] = session.reach [read,register,refused,again] := by
  intro session read register refused again
  have unbroken : session.Unbroken [read,register,refused,again] := by
    unfold Session.Unbroken
    decide
  obtain ⟨seen,_,swapped⟩ := columns_apart session [read,register,refused,again] unbroken
  have reached := (swapped [read,register] 1 (.oidType .given) 0 (.oidType .given) [] (by decide) rfl).2.1
  exact ⟨unbroken,(seen 0).2,reached⟩

end ColumnTypes
