import ColumnTypes.Resolver
namespace ColumnTypes

structure Column (r : Nat) where
  name : Text
  rawType : Text
  isOptional : Bool
  hasMetadata : Bool
  resolver : Fin r
  normalizer : Normalizer
  cache : Option Descriptor := none

structure ColumnDraft (r : Nat) where
  name : Text
  rawType : Text
  isOptional : Bool
  hasMetadata : Bool
  resolver : Option (Fin r)
  normalizer : Option Normalizer

def Column.make? (draft : ColumnDraft r) : Except Violation (Column r) :=
  match draft.resolver with
  | none => .error .resolverUnset
  | some resolver =>
    match draft.normalizer with
    | none => .error .normalizerUnset
    | some normalizer => .ok ⟨draft.name,draft.rawType,draft.isOptional,draft.hasMetadata,
        resolver,normalizer,none⟩

def Column.isParsed (column : Column r) : Bool := column.cache.isSome

-- A failed parse leaves the cache empty, so the next call tries again.
def Column.describe (column : Column r) : Answer Descriptor × Column r :=
  if column.hasMetadata then
    match column.cache with
    | some descriptor => (⟨.done descriptor,[]⟩,column)
    | none =>
      let answer := (Parser.mk column.normalizer).parse column.name column.rawType
        column.isOptional .given
      match answer.outcome with
      | .done descriptor => (answer,{column with cache := some descriptor})
      | _ => (answer,column)
  else (⟨.aborted (.noMetadata column.name),[]⟩,column)

def Column.request (column : Column r) (resolvers : Vector Resolver r)
    (descriptor : Option Descriptor) : Answer Oid :=
  let request : Request := ⟨column.name,descriptor⟩
  ⟨.ofExcept (resolvers[column.resolver].resolve request .given),[.requested request]⟩

def Column.typeMetadata (column : Column r) : Target → Answer Descriptor × Column r
  | .missing => (⟨.failed .noResultTarget,[]⟩,column)
  | .given => column.describe

def Column.oidType (column : Column r) (resolvers : Vector Resolver r) :
    Target → Answer Oid × Column r
  | .missing => (⟨.failed .noResultTarget,[]⟩,column)
  | .given =>
    if column.hasMetadata then
      let (described,after) := column.describe
      (described.andThen fun descriptor =>
        if descriptor.isArray then ⟨.done genericArrayOid,[]⟩
        else column.request resolvers (some descriptor),after)
    else (column.request resolvers none,column)

def Column.componentOidType (column : Column r) (resolvers : Vector Resolver r) :
    Target → Answer Oid × Column r
  | .missing => (⟨.failed .noResultTarget,[]⟩,column)
  | .given =>
    let (described,after) := column.describe
    (described.andThen fun descriptor =>
      if descriptor.isArray then column.request resolvers (some descriptor)
      else ⟨.aborted (.notArray column.name column.rawType),[]⟩,after)

inductive ColumnCall where
  | info
  | typeMetadata (target : Target)
  | oidType (target : Target)
  | componentOidType (target : Target)
deriving DecidableEq, Repr

def Column.step (column : Column r) (resolvers : Vector Resolver r) :
    ColumnCall → Answer Value × Column r
  | .info =>
    (⟨.done (.info column.name column.rawType column.isOptional column.hasMetadata),[]⟩,column)
  | .typeMetadata target =>
    let (answer,after) := column.typeMetadata target
    (answer.map .descriptor,after)
  | .oidType target =>
    let (answer,after) := column.oidType resolvers target
    (answer.map .oid,after)
  | .componentOidType target =>
    let (answer,after) := column.componentOidType resolvers target
    (answer.map .oid,after)

end ColumnTypes
