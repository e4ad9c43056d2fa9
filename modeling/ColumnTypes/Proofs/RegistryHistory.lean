import ColumnTypes.Proofs.ParseOutcome
import ColumnTypes.Resolver
namespace ColumnTypes

inductive RegistryStart where
  | empty
  | builtin
deriving DecidableEq, Repr

def RegistryStart.types : RegistryStart → Registry
  | .empty => .empty
  | .builtin => .builtin

def RegistryStart.entries : RegistryStart → List (Text × Oid)
  | .empty => []
  | .builtin => builtinTypes

def ResolverCall.entry? : ResolverCall → Option (Text × Oid)
  | .register name assigned => some (name,assigned)
  | .oid | .contains _ | .size | .resolve _ _ _ _ => none

def registrations (calls : List ResolverCall) : List (Text × Oid) := calls.filterMap ResolverCall.entry?

def Resolver.after (resolver : Resolver) (calls : List ResolverCall) : Resolver :=
  calls.foldl (fun resolver call => (resolver.step call).2) resolver

def ofName (name : Text) (entry : Text × Oid) : Bool := entry.1 == name

def lastOid (entries : List (Text × Oid)) (name : Text) : Option Oid :=
  ((entries.filter (ofName name)).getLast?).map Prod.snd

-- Registrations of different names may stand in any order to each other.
def SameOrders (entries later : List (Text × Oid)) : Prop :=
  ∀ name, entries.filter (ofName name) = later.filter (ofName name)

-- The descriptor comes out of a parse, and `key` is what the normalizer of that
-- parse makes of its base type.
def Descriptor.ParsedAs (descriptor : Descriptor) (key : Text) : Prop :=
  ∃ (parser : Parser) (column raw : Text) (isOptional : Bool),
    (parser.parse column raw isOptional .given).outcome = .done descriptor ∧
      parser.normalizer descriptor.baseType = key

def Named (start : RegistryStart) (entries : List (Text × Oid)) (name : Text) : Prop :=
  name ∈ start.entries.map Prod.fst ∨ name ∈ entries.map Prod.fst

structure Registry.Follows (types : Registry) (start : RegistryStart) (entries : List (Text × Oid)) :
    Prop where
  contains : ∀ name, types.contains name = true ↔ Named start entries name
  size : ∃ names : List Text, names.Nodup ∧ (∀ name, name ∈ names ↔ Named start entries name) ∧
    types.size = names.length
  known : ∀ (descriptor : Descriptor) key column, descriptor.ParsedAs key → types.contains key = true →
    ∃ oid, (lastOid entries key).or (start.entries.lookup key) = some oid ∧
      (Resolver.registry types).resolve ⟨column,some descriptor⟩ .given = .ok oid
  unknown : ∀ (descriptor : Descriptor) key column, descriptor.ParsedAs key → types.contains key = false →
    ∃ fault, (Resolver.registry types).resolve ⟨column,some descriptor⟩ .given = .error fault ∧
      fault.status = .unknownType ("Unknown type '".toList ++ key ++ "' for column ".toList ++ column)
  alike : ∀ (descriptor twin : Descriptor) key column target, descriptor.ParsedAs key → twin.ParsedAs key →
    (Resolver.registry types).resolve ⟨column,some descriptor⟩ target =
      (Resolver.registry types).resolve ⟨column,some twin⟩ target

variable {types one other : Registry} {entries : List (Text × Oid)} {descriptor : Descriptor}

theorem lastOid_cons (entry : Text × Oid) (rest : List (Text × Oid)) (name : Text) :
    lastOid (entry :: rest) name =
      (lastOid rest name).or (if entry.1 = name then some entry.2 else none) := by
  unfold lastOid
  by_cases same : entry.1 = name
  · rw [List.filter_cons_of_pos (by simp [ofName,same]),List.getLast?_cons]
    cases (rest.filter (ofName name)).getLast? <;> simp [same]
  · rw [List.filter_cons_of_neg (by simp [ofName,same])]
    simp [same]

theorem lastOid_none : lastOid entries name = none ↔ name ∉ entries.map Prod.fst := by
  induction entries with
  | nil => simp [lastOid]
  | cons entry rest ih =>
    rw [lastOid_cons,List.map_cons,List.mem_cons,Option.or_eq_none_iff,ih]
    by_cases same : entry.1 = name
    · simp [same]
    · simp [same,Ne.symm same]

theorem lastOid_some : name ∈ entries.map Prod.fst ↔ (lastOid entries name).isSome = true := by
  rw [← Decidable.not_iff_not,← lastOid_none,Bool.not_eq_true,Option.isSome_eq_false_iff,
    Option.isNone_iff_eq_none]

theorem lastOid_lookup (distinct : (entries.map Prod.fst).Nodup) :
    lastOid entries name = entries.lookup name := by
  induction entries with
  | nil => rfl
  | cons entry rest ih =>
    obtain ⟨fresh,distinct⟩ := List.nodup_cons.mp distinct
    rw [lastOid_cons,List.lookup_cons]
    by_cases same : entry.1 = name
    · subst name
      simp [lastOid_none.mpr fresh]
    · have other : (name == entry.1) = false := beq_false_of_ne (Ne.symm same)
      simp [same,other,ih distinct]

theorem register_find (types : Registry) (name : Text) (oid : Oid) (asked : Text) :
    (types.register name oid).find? asked = if name = asked then some oid else types.find? asked := by
  simp [Registry.register,Registry.find?,Std.ExtHashMap.getElem?_insert]

theorem registerAll_find (types : Registry) (entries : List (Text × Oid)) (name : Text) :
    (types.registerAll entries).find? name = (lastOid entries name).or (types.find? name) := by
  induction entries generalizing types with
  | nil => rfl
  | cons entry rest ih =>
    have later : (types.registerAll (entry :: rest)).find? name = _ := ih (types.register entry.1 entry.2)
    rw [later,register_find,lastOid_cons,Option.or_assoc]
    by_cases same : entry.1 = name
    · simp [same]
    · simp [same]

theorem contains_find (types : Registry) (name : Text) :
    types.contains name = (types.find? name).isSome :=
  Std.ExtHashMap.contains_eq_isSome_getElem?

theorem registry_ext (same : ∀ name, one.find? name = other.find? name) : one = other := by
  obtain ⟨oids⟩ := one
  obtain ⟨others⟩ := other
  exact congrArg Registry.mk (Std.ExtHashMap.ext_getElem? same)

theorem builtin_distinct : (builtinTypes.map Prod.fst).Nodup := by decide +kernel

theorem start_registerAll (start : RegistryStart) :
    start.types = Registry.empty.registerAll start.entries := by
  cases start <;> rfl

theorem start_find (start : RegistryStart) (name : Text) :
    start.types.find? name = start.entries.lookup name := by
  have distinct : (start.entries.map Prod.fst).Nodup := by
    cases start with
    | empty => exact List.nodup_nil
    | builtin => exact builtin_distinct
  have nothing : Registry.empty.find? name = none := Std.ExtHashMap.getElem?_empty
  rw [start_registerAll,registerAll_find,nothing,Option.or_none,lastOid_lookup distinct]

theorem registerAll_contains (types : Registry) (entries : List (Text × Oid)) (name : Text) :
    (types.registerAll entries).contains name = true ↔
      name ∈ entries.map Prod.fst ∨ types.contains name = true := by
  rw [contains_find,contains_find,registerAll_find,Option.isSome_or,Bool.or_eq_true,← lastOid_some]

theorem start_contains (start : RegistryStart) (name : Text) :
    start.types.contains name = true ↔ name ∈ start.entries.map Prod.fst := by
  have nothing : Registry.empty.contains name = false := Std.ExtHashMap.contains_empty
  simp [start_registerAll,registerAll_contains,nothing]

structure Registry.Counts (types : Registry) (names : List Text) : Prop where
  distinct : names.Nodup
  listed : ∀ name, name ∈ names ↔ types.contains name = true
  counted : types.size = names.length

theorem empty_counts : Registry.empty.Counts [] := by
  refine ⟨List.nodup_nil,?_,Std.ExtHashMap.size_empty⟩
  intro name
  simp [Registry.contains,Registry.empty]

theorem register_contains (types : Registry) (name : Text) (oid : Oid) (asked : Text) :
    (types.register name oid).contains asked = true ↔ asked = name ∨ types.contains asked = true := by
  rw [Registry.contains,Registry.register,Std.ExtHashMap.contains_insert,Bool.or_eq_true,beq_iff_eq]
  exact or_congr_left eq_comm

theorem register_counts (counts : types.Counts names) (name : Text) (oid : Oid) :
    ∃ names, (types.register name oid).Counts names := by
  obtain ⟨distinct,listed,counted⟩ := counts
  have size : (types.register name oid).size =
      if types.contains name = true then types.size else types.size + 1 := by
    simp [Registry.register,Registry.size,Registry.contains,Std.ExtHashMap.size_insert]
  by_cases present : types.contains name = true
  · refine ⟨names,distinct,?_,?_⟩
    · intro asked
      rw [listed,register_contains]
      constructor
      · exact Or.inr
      · rintro (rfl | before)
        · exact present
        · exact before
    · rw [size,if_pos present,counted]
  · have fresh : name ∉ names := fun member => present ((listed name).mp member)
    refine ⟨name :: names,List.nodup_cons.mpr ⟨fresh,distinct⟩,?_,?_⟩
    · intro asked
      rw [List.mem_cons,listed,register_contains]
    · rw [size,if_neg present,counted,List.length_cons]

theorem registerAll_counts (counts : types.Counts names) (entries : List (Text × Oid)) :
    ∃ names, (types.registerAll entries).Counts names := by
  induction entries generalizing types names with
  | nil => exact ⟨names,counts⟩
  | cons entry rest ih =>
    obtain ⟨_,first⟩ := register_counts counts entry.1 entry.2
    exact ih first

theorem step_registry (types : Registry) (call : ResolverCall) :
    ((Resolver.registry types).step call).2 = .registry (types.registerAll call.entry?.toList) := by
  cases call <;> rfl

theorem after_registry (types : Registry) (calls : List ResolverCall) :
    (Resolver.registry types).after calls = .registry (types.registerAll (registrations calls)) := by
  induction calls generalizing types with
  | nil => rfl
  | cons call rest ih =>
    have first := step_registry types call
    have later := ih (types.registerAll call.entry?.toList)
    rw [← first] at later
    have split : registrations (call :: rest) = call.entry?.toList ++ registrations rest := by
      unfold registrations
      cases entry : call.entry? <;> simp [entry]
    rw [split,Registry.registerAll,List.foldl_append]
    exact later

theorem resolve_element {one other : Descriptor} (same : one.elementTypeName = other.elementTypeName)
    (resolver : Resolver) (column : Text) (target : Target) :
    resolver.resolve ⟨column,some one⟩ target = resolver.resolve ⟨column,some other⟩ target := by
  cases target with
  | missing => rfl
  | given =>
    cases resolver with
    | fixed oid => rfl
    | registry types => simp only [Resolver.resolve,same]

theorem parsedAs_element (parsed : descriptor.ParsedAs key) : descriptor.elementTypeName = key := by
  obtain ⟨parser,column,raw,isOptional,done,rfl⟩ := parsed
  obtain ⟨reading,_,rfl⟩ := parse_done.mp done
  exact describe_element reading parser.normalizer isOptional

theorem resolve_parsed (types : Registry) (column : Text) (parsed : descriptor.ParsedAs key) :
    (Resolver.registry types).resolve ⟨column,some descriptor⟩ .given =
      match types.find? key with
      | none => .error (.unknownType key column)
      | some oid => .ok oid := by
  rw [← parsedAs_element parsed]
  rfl

theorem reached_named (start : RegistryStart) (entries : List (Text × Oid)) (name : Text) :
    (start.types.registerAll entries).contains name = true ↔ Named start entries name := by
  rw [registerAll_contains,start_contains,Named,or_comm]

theorem reached_find (start : RegistryStart) (entries : List (Text × Oid)) (name : Text) :
    (start.types.registerAll entries).find? name =
      (lastOid entries name).or (start.entries.lookup name) := by
  rw [registerAll_find,start_find]

theorem reached_counts (start : RegistryStart) (entries : List (Text × Oid)) :
    ∃ names, (start.types.registerAll entries).Counts names := by
  obtain ⟨_,initial⟩ := registerAll_counts empty_counts start.entries
  rw [← start_registerAll] at initial
  exact registerAll_counts initial entries

theorem reached_follows (start : RegistryStart) (entries : List (Text × Oid)) :
    (start.types.registerAll entries).Follows start entries := by
  constructor
  case contains =>
    intro name
    exact reached_named start entries name
  case size =>
    obtain ⟨names,distinct,listed,counted⟩ := reached_counts start entries
    refine ⟨names,distinct,?_,counted⟩
    intro name
    rw [listed,reached_named]
  case known =>
    intro descriptor key column parsed present
    rw [contains_find] at present
    obtain ⟨oid,found⟩ := Option.isSome_iff_exists.mp present
    refine ⟨oid,?_,?_⟩
    · rw [← reached_find,found]
    · rw [resolve_parsed _ column parsed,found]
  case unknown =>
    intro descriptor key column parsed absent
    rw [contains_find,Option.isSome_eq_false_iff,Option.isNone_iff_eq_none] at absent
    refine ⟨.unknownType key column,?_,rfl⟩
    rw [resolve_parsed _ column parsed,absent]
  case alike =>
    intro descriptor twin key column target parsed twinParsed
    have same := (parsedAs_element parsed).trans (parsedAs_element twinParsed).symm
    exact resolve_element same _ column target

theorem sameOrders_swap (before later : List (Text × Oid)) {a b : Text × Oid} (apart : a.1 ≠ b.1) :
    SameOrders (before ++ a :: b :: later) (before ++ b :: a :: later) := by
  intro name
  rw [List.filter_append,List.filter_append,List.filter_cons,List.filter_cons,List.filter_cons,
    List.filter_cons]
  by_cases first : a.1 = name
  · have second : b.1 ≠ name := fun same => apart (first.trans same.symm)
    simp [ofName,first,second]
  · simp [ofName,first]

theorem sameOrders_registerAll (types : Registry) (same : SameOrders entries later) :
    types.registerAll entries = types.registerAll later := by
  apply registry_ext
  intro name
  rw [registerAll_find,registerAll_find,lastOid,lastOid,same name]

-- A registry knows the names it began with and those registered since, each
-- under its last OID. Of a parsed type it sees the catalog name alone, and of the
-- order of registrations only what concerns one name.
theorem registry_resolution (start : RegistryStart) (calls : List ResolverCall) :
    ∃ types, (Resolver.registry start.types).after calls = .registry types ∧
      types.Follows start (registrations calls) ∧
      ∀ later, SameOrders (registrations calls) (registrations later) →
        (Resolver.registry start.types).after later = .registry types := by
  refine ⟨_,after_registry start.types calls,reached_follows start _,?_⟩
  intro later same
  rw [after_registry,sameOrders_registerAll start.types same]

theorem registry_resolution_replaced :
    let geo : Text := "geo".toList
    let int4 : Text := "int4".toList
    let calls : List ResolverCall := [.register geo 7,.register int4 9,.size,.register geo 8]
    let swapped : List ResolverCall := [.register int4 9,.register geo 7,.register geo 8]
    let descriptor : Descriptor :=
      ⟨⟨some "s".toList,geo,"geo(2)".toList,true,["2".toList],some 2,none⟩,"_geo".toList,true⟩
    ∃ types, (Resolver.registry (RegistryStart.types .builtin)).after calls = .registry types ∧
      descriptor.ParsedAs geo ∧ types.contains geo = true ∧ types.contains "_geo".toList = false ∧
      (Resolver.registry types).resolve ⟨"c".toList,some descriptor⟩ .given = .ok 8 ∧
      SameOrders (registrations calls) (registrations swapped) ∧
      (Resolver.registry (RegistryStart.types .builtin)).after swapped = .registry types := by
  intro geo int4 calls swapped descriptor
  obtain ⟨types,reached,follows,reordered⟩ := registry_resolution .builtin calls
  have parsed : descriptor.ParsedAs geo :=
    ⟨⟨normalizeTypeName⟩,[],"s._geo(2)".toList,true,by decide,by decide⟩
  have present : types.contains geo = true := (follows.contains geo).mpr (.inr (by decide))
  have absent : types.contains "_geo".toList = false := by
    rw [← Bool.not_eq_true,follows.contains]
    unfold Named
    decide +kernel
  have orders : SameOrders (registrations calls) (registrations swapped) :=
    sameOrders_swap [] [(geo,8)] (a := (geo,7)) (b := (int4,9)) (by decide)
  obtain ⟨oid,last,resolved⟩ := follows.known descriptor geo "c".toList parsed present
  have replaced : oid = 8 := Option.some.inj (last.symm.trans (by decide))
  subst oid
  exact ⟨types,reached,parsed,present,absent,resolved,orders,reordered swapped orders⟩

end ColumnTypes
