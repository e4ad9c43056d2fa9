import ColumnTypes.Proofs.SpellingText
import ColumnTypes.Proofs.TrimmedText
import ColumnTypes.Reading
namespace ColumnTypes
variable {body : Body} {spelling : Spelling}

def Body.furtherWords (body : Body) : Text :=
  if (trim body.suffix).isEmpty then [] else ' ' :: trim body.suffix

theorem words_blank (blank : Blank body.base) : Body.words? body = none := by
  simp [Body.words?,trim_blank blank]

theorem words_led (led : Led body.base front first rest) :
    Body.words? body = some (first :: (trimEnd rest ++ body.furtherWords)) := by
  unfold Body.words? Body.furtherWords
  rw [trim_led led]
  cases further : (trim body.suffix).isEmpty <;> simp [further]

def Spelling.readAs (spelling : Spelling) (baseType fullType : Text) (isArray : Bool) : Reading :=
  ⟨spelling.schema,baseType,fullType,isArray,spelling.body.tokens,
    integerAt spelling.body.tokens 0,integerAt spelling.body.tokens 1⟩

theorem integerAt_token : integerAt tokens place = some value ↔
    ∃ token, tokens[place]? = some token ∧ readInt32? token = some value := by
  unfold integerAt
  cases tokens[place]? <;> simp

theorem reading_blank (blank : Blank spelling.body.base) :
    spelling.reading? = none := by
  simp [Spelling.reading?,words_blank blank]

theorem reading_plain (led : Led spelling.body.base front first rest)
    (plain : first ≠ catalogArrayMark) :
    spelling.reading? = some (spelling.readAs (first :: (trimEnd rest ++ spelling.body.furtherWords))
      spelling.body.full spelling.body.isArray) := by
  simp [Spelling.reading?,words_led led,unmark?,plain,Spelling.readAs]

theorem blank_markless (blank : Blank front) : catalogArrayMark ∉ front := by
  intro member
  have refused := blank _ member
  cases refused

-- Only blanks precede the underscore, so erasing the first one of the full type
-- takes away the very character that the base type loses.
theorem full_erase (led : Led body.base front catalogArrayMark rest) :
    body.full.erase catalogArrayMark = front ++ rest ++ body.group ++ body.suffix := by
  simp [Body.full,led.whole,List.erase_append_right _ (blank_markless led.blank)]

theorem reading_marked (led : Led spelling.body.base front catalogArrayMark rest)
    (named : trimEnd rest ++ spelling.body.furtherWords ≠ []) :
    spelling.reading? = some (spelling.readAs (trimEnd rest ++ spelling.body.furtherWords)
      (front ++ rest ++ spelling.body.group ++ spelling.body.suffix) true) := by
  have inhabited : (trimEnd rest ++ spelling.body.furtherWords).isEmpty = false := by
    simpa using named
  simp only [Spelling.reading?,words_led led,unmark?,inhabited,if_pos,Bool.false_eq_true,if_false,
    full_erase led,Bool.true_or]
  rfl

theorem reading_nameless (led : Led spelling.body.base front catalogArrayMark rest)
    (nameless : trimEnd rest ++ spelling.body.furtherWords = []) : spelling.reading? = none := by
  simp [Spelling.reading?,words_led led,unmark?,nameless]

theorem reading_parts (accepted : spelling.reading? = some reading) :
    ∃ front first rest, Led spelling.body.base front first rest ∧
      (first ≠ catalogArrayMark ∧ reading = spelling.readAs
        (first :: (trimEnd rest ++ spelling.body.furtherWords)) spelling.body.full
        spelling.body.isArray ∨
      first = catalogArrayMark ∧ trimEnd rest ++ spelling.body.furtherWords ≠ [] ∧
        reading = spelling.readAs (trimEnd rest ++ spelling.body.furtherWords)
          (front ++ rest ++ spelling.body.group ++ spelling.body.suffix) true) := by
  rcases blank_or_led spelling.body.base with blank | ⟨front,first,rest,led⟩
  · rw [reading_blank blank] at accepted
    cases accepted
  · refine ⟨front,first,rest,led,?_⟩
    by_cases marked : first = catalogArrayMark
    · subst first
      by_cases nameless : trimEnd rest ++ spelling.body.furtherWords = []
      · rw [reading_nameless led nameless] at accepted
        cases accepted
      · rw [reading_marked led nameless] at accepted
        exact .inr ⟨rfl,nameless,(Option.some.inj accepted).symm⟩
    · rw [reading_plain led marked] at accepted
      exact .inl ⟨marked,(Option.some.inj accepted).symm⟩

theorem words_trimmed {other : Body} (bases : trim body.base = trim other.base)
    (suffixes : trim body.suffix = trim other.suffix) : body.words? = other.words? := by
  simp only [Body.words?,bases,suffixes]

theorem reading_twins {other : Spelling} (words : spelling.body.words? = other.body.words?)
    (marks : spelling.body.isArray = other.body.isArray) :
    Option.Rel (fun reading twin => ∃ baseType isArray full full',
        reading = spelling.readAs baseType full isArray ∧ twin = other.readAs baseType full' isArray)
      spelling.reading? other.reading? := by
  simp only [Spelling.reading?,← words,← marks]
  cases spelling.body.words? with
  | none => exact .none
  | some written =>
    cases found : unmark? written with
    | none =>
      simp only [found]
      exact .none
    | some pair =>
      obtain ⟨baseType,marked⟩ := pair
      simp only [found]
      exact .some ⟨baseType,marked || spelling.body.isArray,_,_,rfl,rfl⟩

-- A body that names no type: its base is blank, or it is a lone underscore that
-- no words follow.
def Body.Nameless (body : Body) : Prop :=
  trim body.base = [] ∨ trim body.base = [catalogArrayMark] ∧ trim body.suffix = []

theorem furtherWords_nil : body.furtherWords = [] ↔ trim body.suffix = [] := by
  simp [Body.furtherWords]

theorem reading_none : spelling.reading? = none ↔ spelling.body.Nameless := by
  unfold Body.Nameless
  rcases blank_or_led spelling.body.base with blank | ⟨front,first,rest,led⟩
  · simp [reading_blank blank,trim_blank blank]
  · rw [trim_led led]
    by_cases marked : first = catalogArrayMark
    · subst first
      by_cases nameless : trimEnd rest ++ spelling.body.furtherWords = []
      · obtain ⟨bare,further⟩ := List.append_eq_nil_iff.mp nameless
        simp [reading_nameless led nameless,bare,furtherWords_nil.mp further]
      · rw [reading_marked led nameless]
        simpa [furtherWords_nil] using nameless
    · simp [reading_plain led marked,marked]

theorem ofText_none : Reading.ofText? raw = none ↔ Spelling.read? raw = none ∨
    ∃ spelling, Spelling.read? raw = some spelling ∧ spelling.body.Nameless := by
  unfold Reading.ofText?
  cases read : Spelling.read? raw with
  | none => simp
  | some spelling => simp [reading_none]

theorem ofText_text (valid : spelling.WellFormed) :
    Reading.ofText? spelling.text = spelling.reading? := by
  have read : Spelling.read? spelling.text = some spelling := spelling_exact.mpr ⟨valid,rfl⟩
  simp [Reading.ofText?,read]

theorem ofText_parts (accepted : Reading.ofText? raw = some reading) :
    ∃ spelling : Spelling, spelling.WellFormed ∧ raw = spelling.text ∧
      spelling.reading? = some reading := by
  unfold Reading.ofText? at accepted
  cases read : Spelling.read? raw with
  | none => simp [read] at accepted
  | some spelling =>
    simp only [read] at accepted
    obtain ⟨valid,written⟩ := spelling_exact.mp read
    exact ⟨spelling,valid,written,accepted⟩

end ColumnTypes
