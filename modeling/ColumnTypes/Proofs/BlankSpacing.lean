import Mathlib.Logic.Relation
import ColumnTypes.Proofs.ModifierList
import ColumnTypes.Proofs.WrittenTypes
namespace ColumnTypes
variable {schema : Option Text} {t t' front gap behind base suffix inside inside' : Text}

def TokenEdge (front behind : Text) : Prop :=
  (front = [] ∨ front.getLast? = some ',') ∨ behind = [] ∨ behind.head? = some ','

def BlanksAdded (t t' : Text) : Prop :=
  ∃ front gap behind, t = front ++ behind ∧ t' = front ++ gap ++ behind ∧ Blank gap ∧
    TokenEdge front behind

def Respaced : Text → Text → Prop := Relation.EqvGen BlanksAdded

def Descriptor.SameButFullType (one other : Descriptor) : Prop :=
  {one with fullType := other.fullType} = other

theorem respaced_value {value : Text → α} (kept : ∀ t t', BlanksAdded t t' → value t = value t')
    (respaced : Respaced t t') : value t = value t' := by
  induction respaced with
  | rel t t' added => exact kept t t' added
  | refl t => rfl
  | symm t t' _ ih => exact ih.symm
  | trans t middle t' _ _ first second => exact first.trans second

theorem blank_plain (blank : Blank t) : ∀ c ∈ t, isBracket c = false ∧ c ≠ schemaMark ∧ c ≠ ',' := by
  intro c member
  have passed := blank c member
  simp only [isBlank,Bool.or_eq_true,beq_iff_eq] at passed
  rcases passed with ((((rfl | rfl) | rfl) | rfl) | rfl) | rfl <;> decide

theorem blank_commaless (blank : Blank gap) : ',' ∉ gap := by
  intro member
  exact (blank_plain blank ',' member).2.2 rfl

theorem fields_front (blank : Blank gap) (t : Text) :
    (modifierFields (gap ++ t)).map trim = (modifierFields t).map trim := by
  induction gap with
  | nil => rfl
  | cons c gap ih =>
    obtain ⟨first,rest⟩ := List.forall_mem_cons.mp blank
    have other : c ≠ ',' := fun comma => blank_commaless blank (by simp [comma])
    have single : Blank [c] := by simpa [Blank] using first
    rw [List.cons_append,modifierFields_cons,if_neg other,← ih rest]
    cases modifierFields (gap ++ t) with
    | nil => rfl
    | cons field fields =>
      have same : trim (c :: field) = trim field := trim_blank_append single
      simp [same]

theorem fields_back (blank : Blank gap) (t : Text) :
    (modifierFields (t ++ gap)).map trim = (modifierFields t).map trim := by
  obtain ⟨front,last,fields⟩ := modifierFields_longer t
  have whole := fields [] (by simp)
  rw [List.append_nil,List.append_nil] at whole
  rw [fields gap (blank_commaless blank),whole,List.map_append,List.map_append]
  simp [trim_append_blank blank]

theorem fields_opened (edge : front = [] ∨ front.getLast? = some ',') :
    ∃ lead, ∀ t, modifierFields (front ++ t) = lead ++ modifierFields t := by
  rcases edge with rfl | comma
  · exact ⟨[],fun t => rfl⟩
  · obtain ⟨before,rfl⟩ := List.getLast?_eq_some_iff.mp comma
    refine ⟨modifierFields before,?_⟩
    intro t
    rw [List.append_assoc]
    exact modifierFields_comma before t

theorem fields_closed (edge : behind = [] ∨ behind.head? = some ',') :
    ∃ tail, ∀ t, modifierFields (t ++ behind) = modifierFields t ++ tail := by
  rcases edge with rfl | comma
  · exact ⟨[],fun t => by simp⟩
  · obtain ⟨later,rfl⟩ := List.head?_eq_some_iff.mp comma
    exact ⟨modifierFields later,fun t => modifierFields_comma t later⟩

theorem added_fields (added : BlanksAdded t t') :
    (modifierFields t).map trim = (modifierFields t').map trim := by
  obtain ⟨front,gap,behind,rfl,rfl,blank,opened | closed⟩ := added
  · obtain ⟨lead,fields⟩ := fields_opened opened
    rw [List.append_assoc,fields,fields,List.map_append,List.map_append,fields_front blank]
  · obtain ⟨tail,fields⟩ := fields_closed closed
    rw [fields,fields,List.map_append,List.map_append,fields_back blank]

theorem added_balanced (added : BlanksAdded t t') : Balanced t ↔ Balanced t' := by
  obtain ⟨front,gap,behind,rfl,rfl,blank,_⟩ := added
  have plain : ∀ c ∈ gap, c ≠ '(' ∧ c ≠ ')' := by
    intro c member
    have bracket := (blank_plain blank c member).1
    constructor <;> (rintro rfl; cases bracket)
  rw [← closes_zero,← closes_zero]
  exact (closes_inserted plain front behind).symm

theorem respaced_tokens (respaced : Respaced t t') : modifierTokens t = modifierTokens t' := by
  unfold modifierTokens
  rw [respaced_value (fun t t' => added_fields) respaced]

theorem respaced_balanced (respaced : Respaced t t') (balanced : Balanced t) : Balanced t' := by
  have same : Balanced t = Balanced t' :=
    respaced_value (fun t t' added => propext (added_balanced added)) respaced
  rw [← same]
  exact balanced

theorem same_but_full {one other : Spelling} (parser : Parser) (column : Text) (isOptional : Bool)
    (valid : one.WellFormed) (otherValid : other.WellFormed) (schemas : one.schema = other.schema)
    (words : one.body.words? = other.body.words?) (tokens : one.body.tokens = other.body.tokens)
    (marks : one.body.isArray = other.body.isArray) :
    Outcome.Related BothMalformed Descriptor.SameButFullType
      (parser.parse column one.text isOptional .given).outcome
      (parser.parse column other.text isOptional .given).outcome := by
  apply related_mono (spelled_related parser column isOptional valid otherValid words marks)
  · exact fun _ _ malformed => malformed
  · intro descriptor twin described
    obtain ⟨baseType,isArray,full,full',rfl,rfl⟩ := described
    have same : one.readAs baseType full' isArray = other.readAs baseType full' isArray := by
      simp only [Spelling.readAs,schemas,tokens]
    exact congrArg (fun reading => reading.describe parser.normalizer isOptional) same

theorem baseText_padded (text : BaseText schema base) (before : Blank front) (after : Blank behind) :
    BaseText schema (front ++ base ++ behind) := by
  have blank : Blank (front ++ behind) := List.forall_mem_append.mpr ⟨before,after⟩
  apply baseText_within text
  · intro c member
    exact endsBase_plain (blank_plain blank c member).1
  · intro _ member
    exact (blank_plain blank _ member).2.1 rfl

theorem suffix_padded (plain : ∀ c ∈ suffix, isBracket c = false) (before : Blank front)
    (after : Blank behind) : ∀ c ∈ front ++ suffix ++ behind, isBracket c = false := by
  have ahead : ∀ c ∈ front ++ suffix, isBracket c = false :=
    List.forall_mem_append.mpr ⟨fun c member => (blank_plain before c member).1,plain⟩
  exact List.forall_mem_append.mpr ⟨ahead,fun c member => (blank_plain after c member).1⟩

-- Blanks between the parts of a type are seen in its full type only. They move
-- neither the end of the schema nor the underscore of an array.
theorem parse_spacing (parser : Parser) (column : Text) (isOptional : Bool) (schema : Option Text)
    (base inside inside' suffix : Text) (isArray : Bool) (before after ahead behind : Text)
    (text : BaseText schema base) (plain : ∀ c ∈ suffix, isBracket c = false)
    (filled : inside ≠ []) (balanced : Balanced inside) (respaced : Respaced inside inside')
    (filledAlso : inside' ≠ []) (blank : ∀ gap ∈ [before,after,ahead,behind], Blank gap) :
    Outcome.Related BothMalformed Descriptor.SameButFullType
      (parser.parse column (Spelling.grouped schema (before ++ base ++ after) inside'
        (ahead ++ suffix ++ behind) isArray).text isOptional .given).outcome
      (parser.parse column (Spelling.grouped schema base inside suffix isArray).text
        isOptional .given).outcome ∧
    Outcome.Related BothMalformed Descriptor.SameButFullType
      (parser.parse column (Spelling.bare schema (before ++ base ++ after) isArray).text
        isOptional .given).outcome
      (parser.parse column (Spelling.bare schema base isArray).text isOptional .given).outcome := by
  simp only [List.forall_mem_cons] at blank
  obtain ⟨blankBefore,blankAfter,blankAhead,blankBehind,_⟩ := blank
  have padded : BaseText schema (before ++ base ++ after) := baseText_padded text blankBefore blankAfter
  have bases : trim (before ++ base ++ after) = trim base := trim_padded blankBefore blankAfter
  have suffixes : trim (ahead ++ suffix ++ behind) = trim suffix := trim_padded blankAhead blankBehind
  have tokens : modifierTokens inside' = modifierTokens inside := (respaced_tokens respaced).symm
  constructor
  · have spaced := grouped_valid padded filledAlso (respaced_balanced respaced balanced)
      (suffix_padded plain blankAhead blankBehind) isArray
    have tight := grouped_valid text filled balanced plain isArray
    exact same_but_full parser column isOptional spaced tight rfl (words_trimmed bases suffixes) tokens rfl
  · have spaced := bare_valid padded isArray
    have tight := bare_valid text isArray
    exact same_but_full parser column isOptional spaced tight rfl (words_trimmed bases rfl) rfl rfl

theorem parse_spacing_moved :
    let parser : Parser := ⟨normalizeTypeName⟩
    let base := "_bit".toList
    let inside := "4 ,(5)".toList
    let inside' := "4,\t(5)".toList
    let padded := "\n".toList ++ base ++ " ".toList
    let spaced := Spelling.grouped none padded inside' ([] ++ "varying".toList ++ " ".toList) true
    let tight := Spelling.grouped none base inside "varying".toList true
    let descriptor : Descriptor := ⟨⟨none,"bit varying".toList,"\nbit (4,\t(5))varying ".toList,true,
      ["4".toList,"(5)".toList],some 4,none⟩,"_varbit".toList,true⟩
    BaseText none base ∧ Respaced inside inside' ∧ Balanced inside ∧
      tight.text = "_bit(4 ,(5))varying[]".toList ∧
      (parser.parse [] spaced.text true .given).outcome = .done descriptor ∧
      (∃ twin, (parser.parse [] tight.text true .given).outcome = .done twin ∧
        descriptor.SameButFullType twin) ∧
      Outcome.Related BothMalformed Descriptor.SameButFullType
        (parser.parse [] (Spelling.bare none padded true).text true .given).outcome
        (parser.parse [] (Spelling.bare none base true).text true .given).outcome := by
  intro parser base inside inside' padded spaced tight descriptor
  have read : Body.read? tight.body.text = some tight.body := by decide
  have valid := (readBody_exact.mp read).1
  have balanced : Balanced inside := (valid.2.2.1 _ rfl).2
  have text : BaseText none base :=
    ⟨fun _ same => (Option.some_ne_none _ same.symm).elim,by decide,valid.2.1,fun _ => by decide⟩
  have taken : BlanksAdded "4,(5)".toList inside :=
    ⟨"4".toList," ".toList,",(5)".toList,rfl,rfl,by simp [Blank,isBlank],.inr (.inr rfl)⟩
  have added : BlanksAdded "4,(5)".toList inside' :=
    ⟨"4,".toList,"\t".toList,"(5)".toList,rfl,rfl,by simp [Blank,isBlank],.inl (.inr rfl)⟩
  have respaced : Respaced inside inside' := .trans _ _ _ (.symm _ _ (.rel _ _ taken)) (.rel _ _ added)
  have blank : ∀ gap ∈ ["\n".toList," ".toList,[]," ".toList], Blank gap := by
    simp [Blank,isBlank]
  have parsed : (parser.parse [] spaced.text true .given).outcome = .done descriptor := by decide
  obtain ⟨related,alone⟩ := parse_spacing parser [] true none base inside inside' "varying".toList true
    "\n".toList " ".toList [] " ".toList text valid.2.2.2.1 (by decide) balanced respaced (by decide) blank
  rw [parsed] at related
  exact ⟨text,respaced,balanced,by decide,parsed,related_done related,alone⟩

end ColumnTypes
