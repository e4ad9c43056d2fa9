import ColumnTypes.Proofs.ModifierList
import ColumnTypes.Proofs.ParseOutcome
import ColumnTypes.Proofs.ReadingForms
namespace ColumnTypes
variable {body : Body} {spelling : Spelling} {reading : Reading}

-- A base type may begin with an underscore or a blank: one that was behind an
-- array's mark.
structure Reading.Sound (reading : Reading) : Prop where
  inhabited : reading.baseType ≠ []
  plain : ∀ c ∈ reading.baseType, c ≠ '(' ∧ c ≠ '['
  finish : ∀ c, reading.baseType.getLast? = some c → isBlank c = false
  marked : ∀ c, reading.baseType.head? = some c → c = catalogArrayMark ∨ isBlank c = true →
    reading.isArray = true
  written : reading.fullType ≠ []
  unmarked : ¬arrayMark <:+ reading.fullType
  named : ∀ schema, reading.schema = some schema → SchemaName schema
  clean : CleanTokens reading.modifiers
  length : ∀ value, reading.length = some value ↔
    ∃ token, reading.modifiers[0]? = some token ∧ readInt32? token = some value
  scale : ∀ value, reading.scale = some value ↔
    ∃ token, reading.modifiers[1]? = some token ∧ readInt32? token = some value

structure Descriptor.Sound (descriptor : Descriptor) (normalizer : Normalizer) : Prop
    extends Reading.Sound descriptor.toReading where
  normalizedName : descriptor.normalizedName =
    (if descriptor.isArray then [catalogArrayMark] else []) ++ normalizer descriptor.baseType
  element : descriptor.elementTypeName = normalizer descriptor.baseType

def Body.words (body : Body) : Text := trim body.base ++ body.furtherWords

theorem words_plain (valid : body.WellFormed) : ∀ c ∈ body.words, c ≠ '(' ∧ c ≠ '[' := by
  intro c member
  have free : endsBase c = false := by
    rcases List.mem_append.mp member with inBase | further
    · exact valid.2.1 c (trim_subset body.base c inBase)
    · unfold Body.furtherWords at further
      split at further
      · cases further
      · rcases List.mem_cons.mp further with rfl | inSuffix
        · rfl
        · exact endsBase_plain (valid.2.2.2.1 c (trim_subset body.suffix c inSuffix))
  simpa [endsBase] using free

theorem words_finish (last : body.words.getLast? = some c) : isBlank c = false := by
  unfold Body.words Body.furtherWords at last
  split at last
  · rw [List.append_nil] at last
    exact (trimmed_trim body.base).finish c last
  · rename_i inhabited
    cases final : (trim body.suffix).getLast? with
    | none => simp [List.getLast?_eq_none_iff.mp final] at inhabited
    | some d =>
      rw [List.getLast?_append,List.getLast?_cons,final] at last
      cases last
      exact (trimmed_trim body.suffix).finish d final

theorem words_kept (named : trim body.base ≠ []) : Trimmed body.words := by
  obtain ⟨c,rest,begins⟩ := List.exists_cons_of_ne_nil named
  refine ⟨?_,fun d last => words_finish last⟩
  intro d first
  apply (trimmed_trim body.base).start
  rw [Body.words,begins,List.cons_append] at first
  rw [begins]
  exact first

theorem words_named (named : trim body.base ≠ []) : body.words? = some body.words := by
  unfold Body.words? Body.words Body.furtherWords
  rw [if_neg (by simpa using named)]
  cases (trim body.suffix).isEmpty <;> simp

theorem full_unmarked (valid : body.WellFormed) : ¬arrayMark <:+ body.full := by
  have derives : Body.Derives {body with isArray := false} body.full :=
    ⟨valid,by simp [Body.text,Body.full,Body.group]⟩
  intro ends
  have array := (mark_exact derives).mpr ends
  cases array

theorem blank_closed (blank : Blank front) : front.getLast? ≠ some '[' := by
  intro last
  have refused := blank _ (List.mem_of_getLast? last)
  cases refused

theorem body_tokens_clean (body : Body) : CleanTokens body.tokens := by
  unfold Body.tokens
  split
  · exact ⟨by simp,by simp,by simp⟩
  · exact modifierTokens_clean _

theorem reading_kept (read : spelling.reading? = some reading) :
    reading = spelling.readAs reading.baseType reading.fullType reading.isArray := by
  obtain ⟨_,_,_,_,⟨_,rfl⟩ | ⟨_,_,rfl⟩⟩ := reading_parts read <;> rfl

theorem reading_words (read : spelling.reading? = some reading) :
    ∃ first tail, spelling.body.words = first :: tail ∧ isBlank first = false ∧
      (first ≠ catalogArrayMark ∧ reading.baseType = first :: tail ∨
        first = catalogArrayMark ∧ tail ≠ [] ∧ reading.baseType = tail ∧ reading.isArray = true) := by
  obtain ⟨front,first,rest,led,parts⟩ := reading_parts read
  refine ⟨first,trimEnd rest ++ spelling.body.furtherWords,?_,led.solid,?_⟩
  · rw [Body.words,trim_led led,List.cons_append]
  · rcases parts with ⟨plain,rfl⟩ | ⟨mark,filled,rfl⟩
    · exact .inl ⟨plain,rfl⟩
    · exact .inr ⟨mark,filled,rfl,rfl⟩

theorem base_ending (read : spelling.reading? = some reading) :
    reading.baseType ≠ [] ∧ reading.baseType <:+ spelling.body.words := by
  obtain ⟨first,tail,words,_,⟨_,base⟩ | ⟨_,filled,base,_⟩⟩ := reading_words read
  · rw [base,words]
    exact ⟨by simp,List.suffix_rfl⟩
  · rw [base,words]
    exact ⟨filled,List.suffix_cons first tail⟩

theorem base_marked (read : spelling.reading? = some reading)
    (start : reading.baseType.head? = some c) (marks : c = catalogArrayMark ∨ isBlank c = true) :
    reading.isArray = true := by
  obtain ⟨first,tail,_,solid,⟨mark,base⟩ | ⟨_,_,_,array⟩⟩ := reading_words read
  · rw [base] at start
    cases start
    rcases marks with marked | blank
    · exact False.elim (mark marked)
    · rw [solid] at blank
      cases blank
  · exact array

theorem reading_full (read : spelling.reading? = some reading) :
    reading.fullType = spelling.body.full ∨
      ∃ front tail, Blank front ∧ spelling.body.full = front ++ catalogArrayMark :: tail ∧
        tail ≠ [] ∧ reading.fullType = front ++ tail := by
  obtain ⟨front,first,rest,led,⟨_,rfl⟩ | ⟨rfl,filled,rfl⟩⟩ := reading_parts read
  · exact .inl rfl
  · refine .inr ⟨front,rest ++ spelling.body.group ++ spelling.body.suffix,led.blank,?_,?_,?_⟩
    · simp [Body.full,led.whole]
    · intro empty
      obtain ⟨grouped,bare⟩ := List.append_eq_nil_iff.mp empty
      obtain ⟨rfl,_⟩ := List.append_eq_nil_iff.mp grouped
      apply filled
      rw [furtherWords_nil.mpr (by rw [bare]; rfl)]
      rfl
    · simp [Spelling.readAs]

theorem reading_sound (valid : spelling.WellFormed) (read : spelling.reading? = some reading) :
    reading.Sound := by
  obtain ⟨bodyValid,named,_⟩ := valid
  obtain ⟨inhabited,ending⟩ := base_ending read
  constructor
  case inhabited => exact inhabited
  case plain => exact fun c member => words_plain bodyValid c (ending.subset member)
  case finish =>
    intro c last
    obtain ⟨front,whole⟩ := ending
    have final : spelling.body.words.getLast? = some c := by
      rw [← whole,List.getLast?_append,last]
      rfl
    exact words_finish final
  case marked => exact fun c start marks => base_marked read start marks
  case written =>
    rcases reading_full read with full | ⟨front,rest,_,_,filled,full⟩
    · simp [full,Body.full,bodyValid.1]
    · simp [full,filled]
  case unmarked =>
    rcases reading_full read with full | ⟨front,rest,blank,whole,filled,full⟩
    · rw [full]
      exact full_unmarked bodyValid
    · rw [full]
      intro ends
      apply full_unmarked bodyValid
      obtain ⟨before,split⟩ := mark_behind ends filled (blank_closed blank)
      exact ⟨front ++ catalogArrayMark :: before,by rw [whole,← split]; simp⟩
  all_goals rw [reading_kept read]
  case named => exact named
  case clean => exact body_tokens_clean spelling.body
  case length => exact fun value => integerAt_token
  case scale => exact fun value => integerAt_token

theorem parse_sound (parser : Parser) (column raw : Text) (isOptional : Bool) (descriptor : Descriptor)
    (parsed : (parser.parse column raw isOptional .given).outcome = .done descriptor) :
    descriptor.Sound parser.normalizer := by
  obtain ⟨reading,accepted,rfl⟩ := parse_done.mp parsed
  obtain ⟨spelling,valid,_,read⟩ := ofText_parts accepted
  exact ⟨reading_sound valid read,describe_name reading parser.normalizer isOptional,
    describe_element reading parser.normalizer isOptional⟩

theorem parse_sound_bare :
    let parser : Parser := ⟨fun _ => []⟩
    let descriptor : Descriptor :=
      ⟨⟨some "a_".toList," x".toList,"(, 7,)x".toList,true,[[],"7".toList],none,some 7⟩,"_".toList,false⟩
    (parser.parse [] "a_._(, 7,)x".toList false .given).outcome = .done descriptor ∧
      descriptor.Sound parser.normalizer := by
  intro parser descriptor
  have parsed : (parser.parse [] "a_._(, 7,)x".toList false .given).outcome = .done descriptor := by decide
  exact ⟨parsed,parse_sound parser [] _ false descriptor parsed⟩

end ColumnTypes
