import ColumnTypes.Proofs.CanonicalText
namespace ColumnTypes
variable {body : Body} {spelling : Spelling} {words tail : Text}

-- An underscore that marks the array stands in the text but not in the full type.
def Reading.Accounts (reading : Reading) (raw : Text) : Prop :=
  reading.isArray = false ∧ raw = reading.schemaPrefix ++ reading.fullType ∨
  reading.isArray = true ∧ raw = reading.schemaPrefix ++ reading.fullType ++ arrayMark ∨
  reading.isArray = true ∧ ∃ blanks rest mark, Blank blanks ∧ (mark = [] ∨ mark = arrayMark) ∧
    reading.fullType = blanks ++ rest ∧
    raw = reading.schemaPrefix ++ blanks ++ catalogArrayMark :: rest ++ mark

structure Body.MarkHit (body : Body) (words blanks tail : Text) : Prop where
  blank : Blank blanks
  full : body.full = blanks ++ catalogArrayMark :: tail
  hit : body.full.idxOf? catalogArrayMark = some blanks.length
  erased : body.full.erase catalogArrayMark = blanks ++ tail
  dropped : ∃ rest, body.base = blanks ++ catalogArrayMark :: rest ∧
    trim body.base = catalogArrayMark :: trimEnd rest ∧ words = trimEnd rest ++ body.furtherWords

theorem mark_found (blank : Blank front) (tail : Text) :
    (front ++ catalogArrayMark :: tail).idxOf? catalogArrayMark = some front.length := by
  have absent : front.idxOf? catalogArrayMark = none :=
    List.idxOf?_eq_none_iff.mpr (blank_markless blank)
  unfold List.idxOf? at absent ⊢
  rw [List.findIdx?_append,absent]
  simp [List.findIdx?_cons]

theorem words_marked (marked : body.words? = some (catalogArrayMark :: words)) :
    ∃ front rest, Led body.base front catalogArrayMark rest ∧
      words = trimEnd rest ++ body.furtherWords := by
  rcases blank_or_led body.base with blank | ⟨front,first,rest,led⟩
  · rw [words_blank blank] at marked
    cases marked
  · rw [words_led led] at marked
    obtain ⟨rfl,rfl⟩ := List.cons.inj (Option.some.inj marked)
    exact ⟨front,rest,led,rfl⟩

theorem mark_hit (led : Led body.base front catalogArrayMark rest) :
    body.MarkHit (trimEnd rest ++ body.furtherWords) front (rest ++ body.group ++ body.suffix) := by
  have full : body.full = front ++ catalogArrayMark :: (rest ++ body.group ++ body.suffix) := by
    simp [Body.full,led.whole]
  constructor
  case blank => exact led.blank
  case full => exact full
  case hit =>
    rw [full]
    exact mark_found led.blank _
  case erased =>
    rw [full_erase led]
    simp
  case dropped => exact ⟨rest,led.whole,trim_led led,rfl⟩

theorem text_accounts (accepted : Reading.ofText? raw = some reading) : reading.Accounts raw := by
  rcases text_account accepted with ⟨same,_⟩ | ⟨blanks,rest,mark,blank,array,full,marks,whole⟩
  · rw [canonical_text,← schemaPrefix_lead] at same
    cases array : reading.isArray with
    | true =>
      rw [array,if_pos rfl] at same
      exact .inr (.inl ⟨array,same.symm⟩)
    | false =>
      simp only [array,Bool.false_eq_true,if_false,List.append_nil] at same
      exact .inl ⟨array,same.symm⟩
  · rw [← schemaPrefix_lead] at whole
    exact .inr (.inr ⟨array,blanks,rest,mark,blank,marks,full,whole⟩)

theorem read_body_text (accepted : Spelling.read? raw = some spelling) :
    raw = schemaLead spelling.schema ++ spelling.body.full ++ spelling.body.mark := by
  obtain ⟨_,rfl⟩ := spelling_exact.mp accepted
  rw [spelling_text,Body.text_full,List.append_assoc]

-- Nothing of a text that can be parsed is lost or added, but for the underscore
-- of an array. Wherever the words begin with one, a search for it succeeds, also
-- if nothing is left of the words without it and the parse fails.
theorem raw_accounted (raw : Text) :
    (∀ (parser : Parser) column isOptional descriptor,
      (parser.parse column raw isOptional .given).outcome = .done descriptor →
      descriptor.toReading.Accounts raw) ∧
    ∀ spelling words, Spelling.read? raw = some spelling →
      spelling.body.words? = some (catalogArrayMark :: words) →
      ∃ blanks tail, spelling.body.MarkHit words blanks tail ∧
        raw = schemaLead spelling.schema ++ blanks ++ catalogArrayMark :: tail ++ spelling.body.mark ∧
        spelling.reading? =
          if words = [] then none else some (spelling.readAs words (blanks ++ tail) true) := by
  refine ⟨?_,?_⟩
  · intro parser column isOptional descriptor parsed
    obtain ⟨reading,accepted,rfl⟩ := parse_done.mp parsed
    exact text_accounts accepted
  · intro spelling words accepted marked
    obtain ⟨front,rest,led,rfl⟩ := words_marked marked
    have hit := mark_hit led
    refine ⟨front,_,hit,?_,?_⟩
    · rw [read_body_text accepted,hit.full]
      simp
    · split
      · rename_i nameless
        exact reading_nameless led nameless
      · rename_i named
        rw [reading_marked led named]
        simp

theorem raw_accounted_underscored :
    let raw := "_s. \t_a_b (_) c_[]".toList
    let spelling : Spelling := ⟨some "_s".toList,⟨" \t_a_b ".toList,some "_".toList," c_".toList,true⟩⟩
    let descriptor : Descriptor := ⟨⟨some "_s".toList,"a_b c_".toList," \ta_b (_) c_".toList,true,
      ["_".toList],none,none⟩,"_a_b c_".toList,true⟩
    ((Parser.mk normalizeTypeName).parse [] raw true .given).outcome = .done descriptor ∧
      descriptor.toReading.Accounts raw ∧ Spelling.read? raw = some spelling ∧
      spelling.body.words? = some (catalogArrayMark :: "a_b c_".toList) ∧
      ∃ blanks tail, spelling.body.MarkHit "a_b c_".toList blanks tail ∧ blanks.length = 2 ∧
        descriptor.fullType = blanks ++ tail := by
  intro raw spelling descriptor
  obtain ⟨accounts,search⟩ := raw_accounted raw
  have parsed : ((Parser.mk normalizeTypeName).parse [] raw true .given).outcome =
    .done descriptor := by decide
  have read : Spelling.read? raw = some spelling := by decide
  have marked : spelling.body.words? = some (catalogArrayMark :: "a_b c_".toList) := by decide
  obtain ⟨blanks,tail,hit,_,_⟩ := search spelling _ read marked
  have place : spelling.body.full.idxOf? catalogArrayMark = some 2 := by decide
  have full : descriptor.fullType = spelling.body.full.erase catalogArrayMark := by decide
  rw [hit.hit] at place
  rw [hit.erased] at full
  exact ⟨parsed,accounts _ _ _ _ parsed,read,marked,blanks,tail,hit,Option.some.inj place,full⟩

end ColumnTypes
