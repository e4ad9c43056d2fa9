import ColumnTypes.Proofs.ArrayMarks
import ColumnTypes.Proofs.ParseOutcome
namespace ColumnTypes
variable {spelling : Spelling} {reading : Reading} {t : Text}

-- An array stays as it is: its catalog name has the mark already.
def Descriptor.asArray (descriptor : Descriptor) : Descriptor :=
  {descriptor with isArray := true,normalizedName := catalogArrayMark :: descriptor.elementTypeName}

theorem lead_closed (schema : Option Text) : (schemaLead schema).getLast? ≠ some '[' := by
  cases schema <;> simp [schemaLead,schemaMark]

theorem text_marked (valid : spelling.WellFormed) :
    arrayMark <:+ spelling.text ↔ spelling.body.isArray = true := by
  have derives : spelling.body.Derives spelling.body.text := ⟨valid.1,rfl⟩
  rw [spelling_text,mark_exact derives]
  constructor
  · intro ends
    obtain ⟨c,rest,begins,_⟩ := text_start valid.1
    have filled : spelling.body.text ≠ [] := by simp [begins]
    exact mark_behind ends filled (lead_closed spelling.schema)
  · intro ends
    exact ends.trans (List.suffix_append _ _)

theorem array_scalar (array : spelling.body.isArray = true) :
    ∃ scalar : Spelling, scalar.body.isArray = false ∧ spelling = scalar.asArray := by
  obtain ⟨schema,base,modifiers,suffix,isArray⟩ := spelling
  cases array
  exact ⟨⟨schema,base,modifiers,suffix,false⟩,rfl,rfl⟩

theorem asArray_unspelled (unread : spelling.reading? = none) : spelling.asArray.reading? = none := by
  have nameless : spelling.body.Nameless := reading_none.mp unread
  exact reading_none.mpr nameless

theorem brackets_exact : Reading.ofText? (t ++ arrayMark) = some array ↔
    ¬arrayMark <:+ t ∧ ∃ reading, Reading.ofText? t = some reading ∧ array = reading.asArray := by
  constructor
  · intro accepted
    obtain ⟨spelling,valid,whole,read⟩ := ofText_parts accepted
    have marked : spelling.body.isArray = true := by
      apply (text_marked valid).mp
      rw [← whole]
      exact List.suffix_append t arrayMark
    obtain ⟨scalar,plain,rfl⟩ := array_scalar marked
    have scalarValid : scalar.WellFormed := valid
    rw [asArray_written plain,List.append_cancel_right_eq] at whole
    subst whole
    refine ⟨?_,?_⟩
    · rw [text_marked scalarValid,plain]
      simp
    · cases unmarked : scalar.reading? with
      | none =>
        rw [asArray_unspelled unmarked] at read
        cases read
      | some reading =>
        rw [asArray_spelled unmarked] at read
        exact ⟨reading,(ofText_text scalarValid).trans unmarked,(Option.some.inj read).symm⟩
  · intro formed
    obtain ⟨unmarked,reading,accepted,rfl⟩ := formed
    obtain ⟨spelling,valid,rfl,read⟩ := ofText_parts accepted
    rw [text_marked valid,Bool.not_eq_true] at unmarked
    exact ofText_brackets valid unmarked read

theorem describe_asArray (reading : Reading) (normalizer : Normalizer) (isOptional : Bool) :
    reading.asArray.describe normalizer isOptional =
      (reading.describe normalizer isOptional).asArray := by
  unfold Descriptor.asArray
  rw [describe_element]
  rfl

theorem asArray_element (descriptor : Descriptor) :
    descriptor.asArray.elementTypeName = descriptor.elementTypeName := by
  simp [Descriptor.asArray,Descriptor.elementTypeName]

theorem asArray_array (array : reading.isArray = true) : reading.asArray = reading := by
  unfold Reading.asArray
  rw [← array]

theorem parse_brackets (parser : Parser) (column text : Text) (isOptional : Bool) :
    ((∃ array, (parser.parse column (text ++ arrayMark) isOptional .given).outcome = .done array) ↔
      ¬arrayMark <:+ text ∧
        ∃ descriptor, (parser.parse column text isOptional .given).outcome = .done descriptor) ∧
    ∀ descriptor array, (parser.parse column text isOptional .given).outcome = .done descriptor →
      (parser.parse column (text ++ arrayMark) isOptional .given).outcome = .done array →
      array = descriptor.asArray ∧ array.elementTypeName = descriptor.elementTypeName ∧
        (descriptor.isArray = true → array = descriptor) := by
  constructor
  · constructor
    · intro formed
      obtain ⟨array,done⟩ := formed
      obtain ⟨_,accepted,_⟩ := parse_done.mp done
      obtain ⟨unmarked,reading,element,_⟩ := brackets_exact.mp accepted
      exact ⟨unmarked,_,parse_describe.mpr element⟩
    · intro scalar
      obtain ⟨unmarked,descriptor,done⟩ := scalar
      obtain ⟨reading,accepted,_⟩ := parse_done.mp done
      exact ⟨_,parse_describe.mpr (brackets_exact.mpr ⟨unmarked,reading,accepted,rfl⟩)⟩
  · intro descriptor array done formed
    obtain ⟨reading,accepted,rfl⟩ := parse_done.mp done
    obtain ⟨_,bracketed,rfl⟩ := parse_done.mp formed
    obtain ⟨_,again,same,rfl⟩ := brackets_exact.mp bracketed
    rw [accepted] at same
    cases same
    refine ⟨describe_asArray _ _ _,?_,?_⟩
    · rw [describe_asArray,asArray_element]
    · intro legacy
      have array : reading.isArray = true := legacy
      rw [asArray_array array]

theorem parse_brackets_marked :
    let parser : Parser := ⟨normalizeTypeName⟩
    let text := "s. _bit (3,[]) varying".toList
    ∃ descriptor, (parser.parse [] text true .given).outcome = .done descriptor ∧
      descriptor.isArray = true ∧ ¬arrayMark <:+ text ∧
      (parser.parse [] (text ++ arrayMark) true .given).outcome = .done descriptor ∧
      ¬∃ array, (parser.parse [] ((text ++ arrayMark) ++ arrayMark) true .given).outcome = .done array := by
  intro parser text
  let descriptor : Descriptor := ⟨⟨some "s".toList,"bit varying".toList," bit (3,[]) varying".toList,
    true,["3".toList,"[]".toList],some 3,none⟩,"_varbit".toList,true⟩
  have parsed : (parser.parse [] text true .given).outcome = .done descriptor := by decide
  have unmarked : ¬arrayMark <:+ text := by decide
  obtain ⟨succeeds,formed⟩ := parse_brackets parser [] text true
  obtain ⟨array,bracketed⟩ := succeeds.mpr ⟨unmarked,descriptor,parsed⟩
  obtain ⟨_,_,legacy⟩ := formed descriptor array parsed bracketed
  have same : array = descriptor := legacy rfl
  subst array
  refine ⟨descriptor,parsed,rfl,unmarked,bracketed,?_⟩
  intro twice
  obtain ⟨once,_⟩ := (parse_brackets parser [] (text ++ arrayMark) true).1.mp twice
  exact once (List.suffix_append text arrayMark)

end ColumnTypes
