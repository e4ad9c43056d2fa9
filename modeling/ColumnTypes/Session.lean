import ColumnTypes.Column
namespace ColumnTypes

-- Columns may share a resolver; they share nothing else.
structure Session (r c : Nat) where
  resolvers : Vector Resolver r
  columns : Vector (Column r) c

def Session.start? (resolvers : Vector Resolver r) (drafts : Vector (ColumnDraft r) c) :
    Except Violation (Session r c) :=
  match drafts.mapM Column.make? with
  | .error violation => .error violation
  | .ok columns => .ok ⟨resolvers,columns⟩

inductive Call (r c : Nat) where
  | onResolver (place : Fin r) (call : ResolverCall)
  | onColumn (place : Fin c) (call : ColumnCall)

structure Step (r c : Nat) where
  answer : Answer Value
  after : Session r c

def Session.step (session : Session r c) : Call r c → Step r c
  | .onResolver place call =>
    let (answer,after) := session.resolvers[place].step call
    ⟨answer,{session with resolvers := session.resolvers.set place after}⟩
  | .onColumn place call =>
    let (answer,after) := session.columns[place].step session.resolvers call
    ⟨answer,{session with columns := session.columns.set place after}⟩

def Session.run (session : Session r c) : List (Call r c) → List (Step r c)
  | [] => []
  | call :: rest =>
    let first := session.step call
    if first.answer.outcome.isAborted then [first] else first :: first.after.run rest

end ColumnTypes
