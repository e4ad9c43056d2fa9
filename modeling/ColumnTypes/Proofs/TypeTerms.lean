import ColumnTypes.Proofs.DecimalToken
import ColumnTypes.Proofs.ModifierList
import ColumnTypes.Proofs.ParseOutcome
import ColumnTypes.Proofs.ReadingForms
namespace ColumnTypes

-- `further` holds the words that follow the modifiers.
structure TypeTerm where
  schema : Option Text
  base : Text
  tokens : List Text
  further : Text
  isArray : Bool
deriving DecidableEq, Repr

def spaced (words : Text) : Text := if words.isEmpty then [] else ' ' :: words

def TypeTerm.group (term : TypeTerm) : Text :=
  if term.tokens.isEmpty then [] else '(' :: joinTokens term.tokens ++ [')']

def TypeTerm.words (term : TypeTerm) : Text := term.base ++ spaced term.further

def TypeTerm.fullType (term : TypeTerm) : Text := term.base ++ term.group ++ spaced term.further

def TypeTerm.render (term : TypeTerm) : Text :=
  schemaLead term.schema ++ term.fullType ++ if term.isArray then arrayMark else []

-- Only the group as a whole is balanced. A parenthesis may be opened in one
-- token and closed in another.
structure TypeTerm.WellFormed (term : TypeTerm) : Prop where
  named : ∀ schema, term.schema = some schema → SchemaName schema
  inhabited : term.base ≠ []
  trimmed : Trimmed term.base
  unmarked : term.base.head? ≠ some catalogArrayMark
  plain : ∀ c ∈ term.base, endsBase c = false
  undotted : term.schema = none → schemaMark ∉ term.base
  clean : CleanTokens term.tokens
  balanced : Balanced (joinTokens term.tokens)
  furtherTrimmed : Trimmed term.further
  furtherPlain : ∀ c ∈ term.further, isBracket c = false
  ungrouped : term.tokens = [] → term.further = []

structure TypeTerm.Describes (term : TypeTerm) (normalizer : Normalizer) (descriptor : Descriptor) :
    Prop where
  schema : descriptor.schema = term.schema
  baseType : descriptor.baseType = term.words
  fullType : descriptor.fullType = term.fullType
  isArray : descriptor.isArray = term.isArray
  modifiers : descriptor.modifiers = term.tokens
  normalizedName : descriptor.normalizedName =
    (if term.isArray then [catalogArrayMark] else []) ++ normalizer term.words
  length : ∀ value, descriptor.length = some value ↔
    ∃ token, term.tokens[0]? = some token ∧ SignedDecimal token value.toInt
  scale : ∀ value, descriptor.scale = some value ↔
    ∃ token, term.tokens[1]? = some token ∧ SignedDecimal token value.toInt

def TypeTerm.body (term : TypeTerm) : Body :=
  ⟨term.base,if term.tokens.isEmpty then none else some (joinTokens term.tokens),
    spaced term.further,term.isArray⟩

def TypeTerm.spelling (term : TypeTerm) : Spelling := ⟨term.schema,term.body⟩

variable {term : TypeTerm} {t : Text} {tokens : List Text}

theorem trim_spaced (trimmed : Trimmed t) : trim (spaced t) = t := by
  unfold spaced
  split
  · rename_i empty
    rw [List.isEmpty_iff.mp empty]
    rfl
  · exact (trim_blank_append space_blank).trans (trim_trimmed trimmed)

theorem term_group (term : TypeTerm) : term.body.group = term.group := by
  unfold TypeTerm.body Body.group TypeTerm.group
  cases term.tokens.isEmpty <;> rfl

theorem term_full (term : TypeTerm) : term.body.full = term.fullType := by
  rw [Body.full,term_group]
  rfl

theorem render_text (term : TypeTerm) : term.render = term.spelling.text := by
  rw [spelling_text,Body.text,TypeTerm.render,List.append_assoc,← term_full]
  rfl

theorem term_tokens (clean : CleanTokens term.tokens) : term.body.tokens = term.tokens := by
  unfold TypeTerm.body Body.tokens
  cases tokens : term.tokens with
  | nil => rfl
  | cons token rest =>
    rw [tokens] at clean
    exact modifierTokens_join clean

theorem term_body (valid : term.WellFormed) : term.body.WellFormed := by
  refine ⟨valid.inhabited,valid.plain,?_,?_,?_⟩
  · intro inside grouped
    simp only [TypeTerm.body] at grouped
    split at grouped
    · cases grouped
    · rename_i inhabited
      cases grouped
      have filled : term.tokens ≠ [] := by simpa using inhabited
      exact ⟨joinTokens_nonempty valid.clean filled,valid.balanced⟩
  · intro c member
    simp only [TypeTerm.body,spaced] at member
    split at member
    · cases member
    · rcases List.mem_cons.mp member with rfl | member
      · rfl
      · exact valid.furtherPlain c member
  · intro absent
    have empty : term.tokens = [] := by simpa [TypeTerm.body] using absent
    simp [TypeTerm.body,spaced,valid.ungrouped empty]

theorem term_spelling (valid : term.WellFormed) : term.spelling.WellFormed := by
  refine ⟨term_body valid,valid.named,?_⟩
  intro unnamed
  exact undotted_inseparable (valid.undotted unnamed)

theorem term_reading (valid : term.WellFormed) :
    Reading.ofText? term.render = some (term.spelling.readAs term.words term.fullType term.isArray) := by
  obtain ⟨c,rest,begins⟩ := List.exists_cons_of_ne_nil valid.inhabited
  have plain : c ≠ catalogArrayMark := by
    intro mark
    apply valid.unmarked
    rw [begins,mark]
    rfl
  have solid : isBlank c = false := valid.trimmed.start c (by rw [begins]; rfl)
  have led : Led term.spelling.body.base [] c rest := ⟨begins,by simp [Blank],solid⟩
  have whole : c :: trimEnd rest = term.base := (trim_led led).symm.trans (trim_trimmed valid.trimmed)
  have further : term.spelling.body.furtherWords = spaced term.further := by
    unfold Body.furtherWords
    rw [show trim term.spelling.body.suffix = term.further from trim_spaced valid.furtherTrimmed]
    rfl
  rw [render_text,ofText_text (term_spelling valid),reading_plain led plain,further,
    ← List.cons_append,whole,show term.spelling.body.full = term.fullType from term_full term]
  rfl

theorem integerAt_exact : integerAt tokens place = some value ↔
    ∃ token, tokens[place]? = some token ∧ SignedDecimal token value.toInt := by
  simp only [integerAt_token,readInt32_exact]

theorem parse_render (parser : Parser) (column : Text) (isOptional : Bool) (term : TypeTerm)
    (valid : term.WellFormed) :
    ∃ descriptor, (parser.parse column term.render isOptional .given).outcome = .done descriptor ∧
      term.Describes parser.normalizer descriptor ∧ descriptor.isOptional = isOptional := by
  have tokens : term.spelling.body.tokens = term.tokens := term_tokens valid.clean
  refine ⟨_,parse_describe.mpr (term_reading valid),?_,rfl⟩
  constructor
  case schema => rfl
  case baseType => rfl
  case fullType => rfl
  case isArray => rfl
  case modifiers => exact tokens
  case normalizedName => exact describe_name _ parser.normalizer isOptional
  case length =>
    intro value
    rw [← integerAt_exact,← tokens]
    rfl
  case scale =>
    intro value
    rw [← integerAt_exact,← tokens]
    rfl

theorem parse_render_spanning :
    let term : TypeTerm :=
      ⟨some "s".toList,"geo.x".toList,["-7".toList,[],"a(b.[]".toList,"c)".toList],"of y".toList,true⟩
    term.render = "s.geo.x(-7,,a(b.[],c)) of y[]".toList ∧ term.WellFormed ∧
      ∃ descriptor, ((Parser.mk normalizeTypeName).parse [] term.render true .given).outcome =
        .done descriptor ∧ term.Describes normalizeTypeName descriptor ∧ descriptor.isOptional = true := by
  intro term
  have read : Body.read? term.body.text = some term.body := by decide
  have body := (readBody_exact.mp read).1
  have valid : term.WellFormed := by
    constructor
    case named =>
      intro schema same
      have equal : "s".toList = schema := Option.some.inj same
      subst schema
      exact ⟨by decide,by simp [endsSchema,schemaMark]⟩
    case plain => exact body.2.1
    case balanced => exact (body.2.2.1 _ rfl).2
    case furtherPlain => simp [term,isBracket]
    all_goals decide
  exact ⟨by decide,valid,parse_render ⟨normalizeTypeName⟩ [] true term valid⟩

end ColumnTypes
