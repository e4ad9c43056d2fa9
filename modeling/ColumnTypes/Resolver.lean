import ColumnTypes.Parser
import ColumnTypes.Value
namespace ColumnTypes

inductive Resolver where
  | fixed (oid : Oid)
  | registry (types : Registry)

def Resolver.resolve (resolver : Resolver) (request : Request) : Target → Except Fault Oid
  | .missing => .error .noOidTarget
  | .given =>
    match resolver with
    | .fixed oid => .ok oid
    | .registry types =>
      match request.descriptor with
      | none => .error (.noTypeName request.column)
      | some descriptor =>
        match types.find? descriptor.elementTypeName with
        | none => .error (.unknownType descriptor.elementTypeName request.column)
        | some oid => .ok oid

inductive ResolverCall where
  | oid
  | register (name : Text) (oid : Oid)
  | contains (name : Text)
  | size
  | resolve (column : Text) (raw : Option Text) (normalizer : Option Normalizer) (target : Target)

def Resolver.resolveText (resolver : Resolver) (column : Text) (raw : Option Text)
    (normalizer : Option Normalizer) (target : Target) : Answer Oid :=
  let ask := fun descriptor =>
    (⟨.ofExcept (resolver.resolve ⟨column,descriptor⟩ target),[]⟩ : Answer Oid)
  match raw with
  | none => ask none
  | some raw =>
    match Parser.make? normalizer with
    | .error violation => ⟨.aborted violation,[]⟩
    | .ok parser => (parser.parse column raw true .given).andThen fun descriptor => ask (some descriptor)

def Resolver.step (resolver : Resolver) : ResolverCall → Answer Value × Resolver
  | .oid =>
    match resolver with
    | .fixed oid => (⟨.done (.oid oid),[]⟩,resolver)
    | .registry _ => (⟨.done .unavailable,[]⟩,resolver)
  | .register name oid =>
    match resolver with
    | .fixed _ => (⟨.done .unavailable,[]⟩,resolver)
    | .registry types =>
      let after := types.register name oid
      (⟨.done (.size after.size),[]⟩,.registry after)
  | .contains name =>
    match resolver with
    | .fixed _ => (⟨.done .unavailable,[]⟩,resolver)
    | .registry types => (⟨.done (.contains (types.contains name)),[]⟩,resolver)
  | .size =>
    match resolver with
    | .fixed _ => (⟨.done .unavailable,[]⟩,resolver)
    | .registry types => (⟨.done (.size types.size),[]⟩,resolver)
  | .resolve column raw normalizer target =>
    ((resolver.resolveText column raw normalizer target).map .oid,resolver)

end ColumnTypes
