import ColumnTypes.Proofs.ArrayMarks
import ColumnTypes.Proofs.DescriptorFields
import ColumnTypes.Proofs.RegistryHistory
import ColumnTypes.Proofs.WrittenTypes
namespace ColumnTypes
variable {reading : Reading} {name : Text} {isArray : Bool}

def endsName (c : Char) : Bool := endsBase c || c == schemaMark

structure BareName (name : Text) : Prop where
  inhabited : name ≠ []
  plain : ∀ c ∈ name, endsName c = false
  finish : ∀ c, name.getLast? = some c → isBlank c = false

def Reading.bare (name : Text) (isArray : Bool) : Reading := ⟨none,name,name,isArray,[],none,none⟩

def catalogName (isArray : Bool) (element : Text) : Text :=
  if isArray then catalogArrayMark :: element else element

def Spelling.ofBase (base : Text) : Spelling := ⟨none,⟨base,none,[],false⟩⟩

theorem ofBase_text (base : Text) : (Spelling.ofBase base).text = base := by
  simp [Spelling.ofBase,Spelling.text,Body.text,Body.full,Body.group]

theorem ofBase_valid (inhabited : base ≠ []) (plain : ∀ c ∈ base, endsName c = false) :
    (Spelling.ofBase base).WellFormed := by
  have free : ∀ c ∈ base, endsBase c = false ∧ c ≠ schemaMark := by
    intro c member
    simpa [endsName] using plain c member
  have text : BaseText none base := by
    constructor
    case named => simp
    case inhabited => exact inhabited
    case plain => exact fun c member => (free c member).1
    case undotted => exact fun _ member => (free _ member).2 rfl
  exact bare_valid text false

theorem ofBase_read (inhabited : base ≠ []) (plain : ∀ c ∈ base, endsName c = false) :
    Reading.ofText? base = (Spelling.ofBase base).reading? := by
  have read := ofText_text (ofBase_valid inhabited plain)
  rw [ofBase_text] at read
  exact read

theorem ofBase_further (base : Text) : (Spelling.ofBase base).body.furtherWords = [] := rfl

theorem ofBase_full (base : Text) : (Spelling.ofBase base).body.full = base := by
  simp [Spelling.ofBase,Body.full,Body.group]

theorem ofBase_marked (inhabited : name ≠ []) (kept : trimEnd name = name) :
    (Spelling.ofBase (catalogArrayMark :: name)).reading? = some (.bare name true) := by
  have led : Led (Spelling.ofBase (catalogArrayMark :: name)).body.base [] catalogArrayMark name :=
    ⟨rfl,by simp [Blank],rfl⟩
  rw [reading_marked led (by simp [kept,inhabited]),kept,ofBase_further,List.append_nil]
  simp [Spelling.ofBase,Spelling.readAs,Body.group,Body.tokens,integerAt,Reading.bare]

theorem ofBase_plain (start : PlainStart name) (kept : trimEnd name = name) :
    (Spelling.ofBase name).reading? = some (.bare name false) := by
  obtain ⟨c,rest,rfl,plain,solid⟩ := start
  have led : Led (Spelling.ofBase (c :: rest)).body.base [] c rest := ⟨rfl,by simp [Blank],solid⟩
  rw [reading_plain led plain,ofBase_further,List.append_nil,← trimEnd_cons solid,kept,ofBase_full]
  rfl

theorem bare_read (bare : BareName name) (start : isArray = false → PlainStart name) :
    Reading.ofText? (catalogName isArray name) = some (.bare name isArray) := by
  have kept : trimEnd name = name := trimEnd_kept bare.finish
  cases isArray with
  | true =>
    have plain : ∀ c ∈ catalogArrayMark :: name, endsName c = false := by
      intro c member
      rcases List.mem_cons.mp member with rfl | member
      · rfl
      · exact bare.plain c member
    exact (ofBase_read (by simp) plain).trans (ofBase_marked bare.inhabited kept)
  | false => exact (ofBase_read bare.inhabited bare.plain).trans (ofBase_plain (start rfl) kept)

theorem longNames_settled : ∀ entry ∈ longNames,
    longNames.lookup entry.2 = none ∧ entry.2.all Char.isAlphanum = true ∧ entry.2.isEmpty = false := by
  decide

theorem normalize_parts (name : Text) :
    normalizeTypeName name = name ∨ ∃ entry ∈ longNames, normalizeTypeName name = entry.2 := by
  unfold normalizeTypeName
  cases found : longNames.lookup name with
  | none => exact .inl rfl
  | some known =>
    obtain ⟨before,later,split,_⟩ := List.lookup_eq_some_iff.mp found
    exact .inr ⟨(name,known),by simp [split],rfl⟩

theorem normalize_idempotent (name : Text) :
    normalizeTypeName (normalizeTypeName name) = normalizeTypeName name := by
  rcases normalize_parts name with kept | ⟨entry,listed,known⟩
  · rw [kept,kept]
  · rw [known,normalizeTypeName,(longNames_settled entry listed).1]
    rfl

theorem alphanumeric_plain (letter : c.isAlphanum = true) :
    endsName c = false ∧ c ≠ catalogArrayMark ∧ isBlank c = false := by
  refine ⟨?_,?_,?_⟩
  · cases ends : endsName c with
    | false => rfl
    | true =>
      simp only [endsName,endsBase,Bool.or_eq_true,beq_iff_eq] at ends
      rcases ends with (rfl | rfl) | rfl <;> cases letter
  · intro mark
    subst c
    cases letter
  · cases blank : isBlank c with
    | false => rfl
    | true =>
      simp only [isBlank,Bool.or_eq_true,beq_iff_eq] at blank
      rcases blank with ((((rfl | rfl) | rfl) | rfl) | rfl) | rfl <;> cases letter

theorem settled_bare (listed : entry ∈ longNames) : BareName entry.2 ∧ PlainStart entry.2 := by
  obtain ⟨_,letters,filled⟩ := longNames_settled entry listed
  have plain : ∀ c ∈ entry.2, endsName c = false ∧ c ≠ catalogArrayMark ∧ isBlank c = false :=
    fun c member => alphanumeric_plain (List.all_eq_true.mp letters c member)
  have inhabited : entry.2 ≠ [] := by simpa using filled
  constructor
  · constructor
    case inhabited => exact inhabited
    case plain => exact fun c member => (plain c member).1
    case finish => exact fun c last => (plain c (List.mem_of_getLast? last)).2.2
  · obtain ⟨c,rest,begins⟩ := List.exists_cons_of_ne_nil inhabited
    have first := plain c (by simp [begins])
    exact ⟨c,rest,begins,first.2⟩

theorem normalize_keeps {holds : Text → Prop} (listed : ∀ entry ∈ longNames, holds entry.2)
    (own : holds name) : holds (normalizeTypeName name) := by
  rcases normalize_parts name with kept | ⟨entry,member,known⟩
  · rw [kept]
    exact own
  · rw [known]
    exact listed entry member

theorem normalize_bare (bare : BareName name) : BareName (normalizeTypeName name) :=
  normalize_keeps (fun _ listed => (settled_bare listed).1) bare

theorem normalize_start (start : PlainStart name) : PlainStart (normalizeTypeName name) :=
  normalize_keeps (fun _ listed => (settled_bare listed).2) start

theorem sound_bare (sound : reading.Sound) (undotted : schemaMark ∉ reading.baseType) :
    BareName reading.baseType := by
  constructor
  case inhabited => exact sound.inhabited
  case plain =>
    intro c member
    have notMark : c ≠ schemaMark := by
      intro same
      subst c
      exact undotted member
    simp [endsName,endsBase,sound.plain c member,notMark]
  case finish => exact sound.finish

theorem sound_start (sound : reading.Sound) (scalar : reading.isArray = false) :
    PlainStart reading.baseType := by
  obtain ⟨c,rest,begins⟩ := List.exists_cons_of_ne_nil sound.inhabited
  have unmarked : ¬(c = catalogArrayMark ∨ isBlank c = true) := by
    intro marks
    have array := sound.marked c (by simp [begins]) marks
    rw [scalar] at array
    cases array
  obtain ⟨plain,solid⟩ := not_or.mp unmarked
  exact ⟨c,rest,begins,plain,by simpa using solid⟩

-- The catalog name of a parsed type is a type text of its own. It is read as the
-- same type without schema and modifiers, so resolvers take one for the other.
theorem parse_catalog_name (column raw : Text) (isOptional : Bool) (descriptor : Descriptor)
    (parsed : ((Parser.mk normalizeTypeName).parse column raw isOptional .given).outcome =
      .done descriptor)
    (undotted : schemaMark ∉ descriptor.baseType) (other : Text) (otherOptional : Bool) :
    ∃ settled, ((Parser.mk normalizeTypeName).parse other descriptor.normalizedName otherOptional
        .given).outcome = .done settled ∧
      settled.normalizedName = descriptor.normalizedName ∧ settled.isArray = descriptor.isArray ∧
      settled.elementTypeName = descriptor.elementTypeName ∧ settled.schema = none ∧
      settled.modifiers = [] ∧ settled.length = none ∧ settled.scale = none ∧
      ∀ (resolver : Resolver) asked target,
        resolver.resolve ⟨asked,some settled⟩ target = resolver.resolve ⟨asked,some descriptor⟩ target := by
  obtain ⟨reading,accepted,rfl⟩ := parse_done.mp parsed
  obtain ⟨spelling,valid,_,read⟩ := ofText_parts accepted
  have sound := reading_sound valid read
  have again : Reading.ofText? (catalogName reading.isArray (normalizeTypeName reading.baseType)) =
      some (.bare (normalizeTypeName reading.baseType) reading.isArray) :=
    bare_read (normalize_bare (sound_bare sound undotted))
      fun scalar => normalize_start (sound_start sound scalar)
  have element : ((Reading.bare (normalizeTypeName reading.baseType) reading.isArray).describe
      normalizeTypeName otherOptional).elementTypeName =
      (reading.describe normalizeTypeName isOptional).elementTypeName := by
    rw [describe_element,describe_element]
    exact normalize_idempotent reading.baseType
  refine ⟨_,parse_describe.mpr again,?_,rfl,element,rfl,rfl,rfl,rfl,?_⟩
  · simp [describe_name,Reading.bare,normalize_idempotent]
  · intro resolver asked target
    exact resolve_element element resolver asked target

theorem parse_catalog_name_blank :
    let parser : Parser := ⟨normalizeTypeName⟩
    let descriptor : Descriptor := ⟨⟨some "s".toList," time".toList,"(3) time".toList,true,
      ["3".toList],some 3,none⟩,"_ time".toList,true⟩
    (parser.parse "c".toList "s._(3) time".toList true .given).outcome = .done descriptor ∧
      schemaMark ∉ descriptor.baseType ∧
      ∃ settled, (parser.parse [] "_ time".toList false .given).outcome = .done settled ∧
        settled.normalizedName = "_ time".toList ∧ settled.elementTypeName = " time".toList ∧
        settled.schema = none ∧ settled.modifiers = [] := by
  intro parser descriptor
  have parsed : (parser.parse "c".toList "s._(3) time".toList true .given).outcome =
    .done descriptor := by decide
  have undotted : schemaMark ∉ descriptor.baseType := by simp [descriptor,schemaMark]
  obtain ⟨settled,again,name,_,element,schema,modifiers,_⟩ :=
    parse_catalog_name "c".toList _ true descriptor parsed undotted [] false
  exact ⟨parsed,undotted,settled,again,name,element,schema,modifiers⟩

end ColumnTypes
