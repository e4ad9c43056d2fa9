import ColumnTypes.Proofs.DescriptorFields
import ColumnTypes.Proofs.WrittenTypes
namespace ColumnTypes
variable {schema further : Option Text} {base : Text}

structure FurtherWords (schema : Option Text) (words : Text) : Prop where
  trimmed : Trimmed words
  plain : ∀ c ∈ words, isBracket c = false
  undotted : schema = none → schemaMark ∉ words

def followed : Option Text → Text
  | none => []
  | some words => ' ' :: words

-- Nothing is said of the modifiers or of how the type is written.
structure Descriptor.SameType (one other : Descriptor) : Prop where
  schema : one.schema = other.schema
  baseType : one.baseType = other.baseType
  normalizedName : one.normalizedName = other.normalizedName
  element : one.elementTypeName = other.elementTypeName
  isArray : one.isArray = other.isArray
  isOptional : one.isOptional = other.isOptional

theorem followed_plain (furtherWords : ∀ words, further = some words → FurtherWords schema words) :
    (∀ c ∈ followed further, isBracket c = false) ∧ (schema = none → schemaMark ∉ followed further) := by
  cases further with
  | none => exact ⟨by simp [followed],by simp [followed]⟩
  | some words =>
    obtain ⟨_,plain,undotted⟩ := furtherWords words rfl
    constructor
    · exact List.forall_mem_cons.mpr ⟨rfl,plain⟩
    · intro unnamed member
      rcases List.mem_cons.mp member with space | inWords
      · cases space
      · exact undotted unnamed inWords

theorem words_joined (body : Body) (trimmed : Trimmed body.base) (inhabited : body.base ≠ [])
    (written : body.suffix = followed further)
    (furtherTrimmed : ∀ words, further = some words → Trimmed words) :
    trim (body.base ++ body.suffix) = body.words := by
  have kept : trim body.base = body.base := trim_trimmed trimmed
  cases further with
  | none =>
    have alone : body.furtherWords = [] := furtherWords_nil.mpr (by rw [written]; rfl)
    rw [Body.words,alone,written,followed,List.append_nil,List.append_nil]
  | some words =>
    have further : trim body.suffix = words := by
      rw [written]
      exact (trim_blank_append space_blank).trans (trim_trimmed (furtherTrimmed words rfl))
    by_cases empty : words = []
    · have alone : body.furtherWords = [] := furtherWords_nil.mpr (further.trans empty)
      rw [Body.words,alone,written,followed,empty,trim_append_blank space_blank,List.append_nil]
    · have joined : body.furtherWords = body.suffix := by
        rw [Body.furtherWords,further,if_neg (by simpa using empty),written]
        rfl
      have whole : body.words = body.base ++ body.suffix := by rw [Body.words,kept,joined]
      rw [← whole]
      apply trim_trimmed
      apply words_kept
      rw [kept]
      exact inhabited

theorem words_regrouped (schema : Option Text) (inside : Text) (isArray : Bool) (trimmed : Trimmed base)
    (inhabited : base ≠ []) (furtherTrimmed : ∀ words, further = some words → Trimmed words) :
    (Spelling.grouped schema base inside (followed further) isArray).body.words? =
      (Spelling.bare schema (base ++ followed further) isArray).body.words? := by
  let grouped := (Spelling.grouped schema base inside (followed further) isArray).body
  let bare := (Spelling.bare schema (base ++ followed further) isArray).body
  have joined : trim bare.base = grouped.words :=
    words_joined grouped trimmed inhabited rfl furtherTrimmed
  have named : trim grouped.base ≠ [] := by
    rw [show trim grouped.base = base from trim_trimmed trimmed]
    exact inhabited
  have bareNamed : trim bare.base ≠ [] := by
    rw [joined]
    exact List.append_ne_nil_of_left_ne_nil named _
  have alone : bare.words = trim bare.base := by
    rw [Body.words,furtherWords_nil.mpr rfl,List.append_nil]
  calc grouped.words?
    _ = some grouped.words := words_named named
    _ = some bare.words := by rw [alone,joined]
    _ = bare.words? := (words_named bareNamed).symm

-- What stands in the group of a type decides its modifiers and nothing else. The
-- type is the same without the group, also where the group parts its words.
theorem parse_group_transparent (parser : Parser) (column : Text) (isOptional : Bool)
    (schema : Option Text) (base inside : Text) (further : Option Text) (isArray : Bool)
    (text : BaseText schema base) (trimmed : Trimmed base)
    (furtherWords : ∀ words, further = some words → FurtherWords schema words)
    (filled : inside ≠ []) (balanced : Balanced inside) :
    Outcome.Related BothMalformed
      (fun grouped bare => grouped.SameType bare ∧
        bare.modifiers = [] ∧ bare.length = none ∧ bare.scale = none)
      (parser.parse column (Spelling.grouped schema base inside (followed further) isArray).text
        isOptional .given).outcome
      (parser.parse column (Spelling.bare schema (base ++ followed further) isArray).text
        isOptional .given).outcome := by
  obtain ⟨plain,undotted⟩ := followed_plain furtherWords
  have longer : BaseText schema ([] ++ base ++ followed further) :=
    baseText_within text (fun c member => endsBase_plain (plain c member)) undotted
  have words := words_regrouped schema inside isArray trimmed text.inhabited
    fun words same => (furtherWords words same).trimmed
  have related := spelled_related parser column isOptional (grouped_valid text filled balanced plain isArray)
    (bare_valid longer isArray) words rfl
  apply related_mono related
  · exact fun _ _ malformed => malformed
  · intro grouped bare described
    obtain ⟨baseType,array,full,full',rfl,rfl⟩ := described
    refine ⟨?_,rfl,rfl,rfl⟩
    constructor
    case element => rw [describe_element,describe_element]; rfl
    all_goals rfl

theorem parse_group_transparent_parted :
    let parser : Parser := ⟨normalizeTypeName⟩
    let schema := some "s".toList
    let base := "_time.]".toList
    let inside := "(3),[.] ".toList
    let further := some "of x".toList
    let grouped := Spelling.grouped schema base inside (followed further) true
    let bare := Spelling.bare schema (base ++ followed further) true
    let descriptor : Descriptor := ⟨⟨schema,"time.] of x".toList,"time.]((3),[.] ) of x".toList,true,
      ["(3)".toList,"[.]".toList],none,none⟩,"_time.] of x".toList,true⟩
    BaseText schema base ∧ FurtherWords schema "of x".toList ∧ Balanced inside ∧
      grouped.text = "s._time.]((3),[.] ) of x[]".toList ∧ bare.text = "s._time.] of x[]".toList ∧
      (parser.parse [] grouped.text true .given).outcome = .done descriptor ∧
      ∃ twin, (parser.parse [] bare.text true .given).outcome = .done twin ∧
        descriptor.SameType twin ∧ twin.modifiers = [] := by
  intro parser schema base inside further grouped bare descriptor
  have read : Body.read? grouped.body.text = some grouped.body := by decide
  have valid := (readBody_exact.mp read).1
  have balanced : Balanced inside := (valid.2.2.1 _ rfl).2
  have text : BaseText schema base := by
    constructor
    case named =>
      intro name same
      obtain rfl : "s".toList = name := Option.some.inj same
      exact ⟨by decide,by simp [endsSchema,schemaMark]⟩
    case plain => exact valid.2.1
    case undotted => exact fun unnamed => (Option.some_ne_none _ unnamed).elim
    case inhabited => decide
  have words : FurtherWords schema "of x".toList :=
    ⟨by decide,by simp [isBracket],fun unnamed => (Option.some_ne_none _ unnamed).elim⟩
  have furtherWords : ∀ words, further = some words → FurtherWords schema words := by
    intro written same
    obtain rfl : "of x".toList = written := Option.some.inj same
    exact words
  have parsed : (parser.parse [] grouped.text true .given).outcome = .done descriptor := by decide
  have related := parse_group_transparent parser [] true schema base inside further true text
    (by decide) furtherWords (by decide) balanced
  rw [parsed] at related
  obtain ⟨twin,bareParsed,same,modifiers,_⟩ := related_done related
  exact ⟨text,words,balanced,by decide,by decide,parsed,twin,bareParsed,same,modifiers⟩

end ColumnTypes
