import ColumnTypes.Proofs.ArrayMarks
import ColumnTypes.Proofs.ParseOutcome
namespace ColumnTypes
variable {body : Body} {spelling : Spelling}

-- Writing both marks is one more way, not an array of arrays.
inductive ArraySpelling where
  | underscore
  | brackets
  | both
deriving DecidableEq, Repr

def ArraySpelling.write : ArraySpelling → Text → Text
  | .underscore,element => catalogArrayMark :: element
  | .brackets,element => element ++ arrayMark
  | .both,element => catalogArrayMark :: (element ++ arrayMark)

def Undotted (t : Text) : Prop := ∀ front rest, t = front ++ schemaMark :: rest → '(' ∈ front

structure ElementText (schema : Option Text) (t : Text) : Prop where
  unmarked : ¬arrayMark <:+ t
  start : ∃ c rest, t = c :: rest ∧ c ≠ catalogArrayMark ∧ isBlank c = false ∧ endsBase c = false
  undotted : schema = none → Undotted t

theorem undotted_unqualified (undotted : Undotted t) : Unqualified t := by
  intro schema body qualified
  obtain ⟨rest,whole,name,_⟩ := qualified
  have refused := name.2 _ (undotted schema rest whole)
  cases refused

theorem undotted_underscore (undotted : Undotted t) : Undotted (catalogArrayMark :: t) := by
  intro front rest whole
  cases front with
  | nil => cases (List.cons.inj whole).1
  | cons c front =>
    have behind := undotted front rest (List.cons.inj whole).2
    exact List.mem_cons_of_mem _ behind

theorem undotted_brackets (undotted : Undotted t) : Undotted (t ++ arrayMark) := by
  intro front rest whole
  rcases List.append_eq_append_iff.mp whole with ⟨between,_,mark⟩ | ⟨between,split,behind⟩
  · have member : schemaMark ∈ arrayMark := by rw [mark]; simp
    simp [schemaMark,arrayMark] at member
  · cases between with
    | nil => cases (List.cons.inj behind).1
    | cons c between =>
      obtain ⟨rfl,_⟩ := List.cons.inj behind
      exact undotted front between split

theorem undotted_write (undotted : Undotted t) (written : ArraySpelling) :
    Undotted (written.write t) := by
  cases written with
  | underscore => exact undotted_underscore undotted
  | brackets => exact undotted_brackets undotted
  | both => exact undotted_underscore (undotted_brackets undotted)

def ArraySpelling.spell : ArraySpelling → Body → Body
  | .underscore,body => body.withBase (catalogArrayMark :: body.base)
  | .brackets,body => body.asArray
  | .both,body => (body.withBase (catalogArrayMark :: body.base)).asArray

theorem underscore_derives (derives : Body.Derives body t) :
    (body.withBase (catalogArrayMark :: body.base)).Derives (catalogArrayMark :: t) := by
  have plain : ∀ c ∈ [catalogArrayMark], endsBase c = false := by
    intro c member
    cases List.mem_singleton.mp member
    rfl
  exact front_derives derives plain

theorem brackets_derives (derives : Body.Derives body t) (scalar : body.isArray = false) :
    body.asArray.Derives (t ++ arrayMark) := by
  obtain ⟨valid,rfl⟩ := derives
  exact ⟨asArray_valid valid,(asArray_text scalar).symm⟩

theorem write_derives (derives : Body.Derives body t) (scalar : body.isArray = false)
    (written : ArraySpelling) : (written.spell body).Derives (written.write t) := by
  cases written with
  | underscore => exact underscore_derives derives
  | brackets => exact brackets_derives derives scalar
  | both =>
    have inner := underscore_derives derives
    exact brackets_derives inner scalar

theorem underscore_sound (derives : Body.Derives body (catalogArrayMark :: t))
    (start : BaseStart t) : ∃ body, Body.Derives body t := by
  obtain ⟨valid,whole⟩ := derives
  rw [Body.text_trailer] at whole
  cases begins : body.base with
  | nil => exact False.elim (valid.1 begins)
  | cons first base =>
    rw [begins,List.cons_append] at whole
    obtain ⟨_,rfl⟩ := List.cons.inj whole
    have split : body.base = [first] ++ base := begins
    exact ⟨body.withBase base,behind_derives valid split start⟩

theorem brackets_sound (derives : Body.Derives body (t ++ arrayMark)) :
    ∃ body, Body.Derives body t := by
  have array : body.isArray = true := (mark_exact derives).mpr (List.suffix_append _ _)
  obtain ⟨valid,whole⟩ := derives
  simp only [Body.text,array,if_pos,List.append_cancel_right_eq] at whole
  exact ⟨{body with isArray := false},valid,by simp [whole,Body.text,Body.full,Body.group]⟩

theorem write_sound (written : ArraySpelling) (derives : Body.Derives body (written.write t))
    (start : BaseStart t) : ∃ body, Body.Derives body t := by
  cases written with
  | underscore => exact underscore_sound derives start
  | brackets => exact brackets_sound derives
  | both =>
    obtain ⟨c,rest,rfl,plain⟩ := start
    obtain ⟨inner,unbracketed⟩ := underscore_sound derives ⟨c,rest ++ arrayMark,rfl,plain⟩
    exact brackets_sound unbracketed

theorem write_start (start : BaseStart t) (written : ArraySpelling) : BaseStart (written.write t) := by
  obtain ⟨c,rest,rfl,plain⟩ := start
  cases written with
  | underscore => exact ⟨catalogArrayMark,_,rfl,rfl⟩
  | brackets => exact ⟨c,_,rfl,plain⟩
  | both => exact ⟨catalogArrayMark,_,rfl,rfl⟩

-- A text behind its schema can be read only if it is a body itself. The schema
-- cannot lend it a base, since its own first character belongs to one.
theorem lead_derives (named : ∀ name, schema = some name → SchemaName name)
    (undotted : schema = none → Undotted t) (start : BaseStart t)
    (accepted : Spelling.read? (schemaLead schema ++ t) = some spelling) :
    ∃ body, Body.Derives body t := by
  cases schema with
  | none =>
    rcases read_parts accepted with ⟨name,_,qualified⟩ | ⟨_,derives,_⟩
    · exact False.elim (undotted_unqualified (undotted rfl) name spelling.body qualified)
    · exact ⟨spelling.body,derives⟩
  | some schema =>
    have whole : schemaLead (some schema) ++ t = schema ++ schemaMark :: t := by simp [schemaLead]
    rw [whole] at accepted
    rcases read_parts accepted with ⟨other,_,rest,same,name,derives⟩ | ⟨_,⟨valid,text⟩,_⟩
    · obtain ⟨_,rfl⟩ := schema_unique (named schema rfl) name same
      exact ⟨spelling.body,derives⟩
    · obtain ⟨base,begins,rfl⟩ := text_schema valid (named schema rfl) text.symm
      have split : spelling.body.base = (schema ++ [schemaMark]) ++ base := by simp [begins]
      exact ⟨spelling.body.withBase base,behind_derives valid split start⟩

theorem spell_valid (named : ∀ name, schema = some name → SchemaName name)
    (undotted : schema = none → Undotted t) (derives : Body.Derives body t)
    (scalar : body.isArray = false) (written : ArraySpelling) :
    (Spelling.mk schema (written.spell body)).WellFormed := by
  obtain ⟨valid,text⟩ := write_derives derives scalar written
  refine ⟨valid,named,?_⟩
  intro unnamed
  apply (unqualified_exact valid).mp
  rw [← text]
  exact undotted_unqualified (undotted_write (undotted unnamed) written)

theorem spell_reading (schema : Option Text) (start : PlainStart body.base)
    (written : ArraySpelling) :
    (Spelling.mk schema (written.spell body)).reading? =
      (Spelling.mk schema body.asArray).reading? := by
  have marked : Led (catalogArrayMark :: body.base) [] catalogArrayMark body.base :=
    ⟨rfl,by simp [Blank],rfl⟩
  cases written with
  | underscore =>
    have led : Led (Spelling.mk schema (ArraySpelling.underscore.spell body)).body.base []
      catalogArrayMark body.base := marked
    exact (remarked_reading led start).symm
  | brackets => rfl
  | both =>
    have led : Led (Spelling.mk schema (ArraySpelling.both.spell body)).body.base []
      catalogArrayMark body.base := marked
    exact (remarked_reading led start).symm

theorem asArray_reading (schema : Option Text) (start : PlainStart body.base) :
    ∃ reading, reading.isArray = true ∧
      (Spelling.mk schema body.asArray).reading? = some reading := by
  obtain ⟨c,rest,whole,plain,solid⟩ := start
  have led : Led (Spelling.mk schema body.asArray).body.base [] c rest :=
    ⟨whole,by simp [Blank],solid⟩
  refine ⟨_,?_,reading_plain led plain⟩
  rfl

theorem spellings_read (named : ∀ name, schema = some name → SchemaName name)
    (element : ElementText schema t) :
    (∃ reading, reading.isArray = true ∧ ∀ written : ArraySpelling,
      Reading.ofText? (schemaLead schema ++ written.write t) = some reading) ∨
    ∀ written : ArraySpelling, Reading.ofText? (schemaLead schema ++ written.write t) = none := by
  obtain ⟨unmarked,⟨c,rest,begins,plain,solid,inBase⟩,undotted⟩ := element
  have start : BaseStart t := ⟨c,rest,begins,inBase⟩
  by_cases derivable : ∃ body, Body.Derives body t
  · apply Or.inl
    obtain ⟨body,derives⟩ := derivable
    have scalar : body.isArray = false := by
      cases array : body.isArray with
      | true => exact False.elim (unmarked ((mark_exact derives).mp array))
      | false => rfl
    have written := derives.2
    obtain ⟨first,base,led⟩ := List.exists_cons_of_ne_nil derives.1.1
    rw [begins,Body.text_trailer,led,List.cons_append] at written
    obtain ⟨rfl,_⟩ := List.cons.inj written
    have beginning : PlainStart body.base := ⟨c,base,led,plain,solid⟩
    obtain ⟨reading,array,bracketed⟩ := asArray_reading schema beginning
    refine ⟨reading,array,?_⟩
    intro written
    have valid := spell_valid named undotted derives scalar written
    have read := ofText_text valid
    have whole := (write_derives derives scalar written).2
    rw [spelling_text,spell_reading schema beginning written,bracketed] at read
    rw [whole]
    exact read
  · apply Or.inr
    intro written
    cases read : Spelling.read? (schemaLead schema ++ written.write t) with
    | none => simp [Reading.ofText?,read]
    | some spelling =>
      have derived := lead_derives named (fun unnamed => undotted_write (undotted unnamed) written)
        (write_start start written) read
      obtain ⟨body,derives⟩ := derived
      exact False.elim (derivable (write_sound written derives start))

theorem parse_array_spellings (parser : Parser) (column : Text) (isOptional : Bool)
    (schema : Option Text) (element : Text)
    (named : ∀ name, schema = some name → SchemaName name) (text : ElementText schema element) :
    (∃ descriptor, descriptor.isArray = true ∧ ∀ written : ArraySpelling,
      (parser.parse column (schemaLead schema ++ written.write element) isOptional .given).outcome =
        .done descriptor) ∨
    ∀ written : ArraySpelling, ∃ fault,
      (parser.parse column (schemaLead schema ++ written.write element) isOptional .given).outcome =
        .failed fault ∧ fault.status.code = .parseError := by
  rcases spellings_read named text with ⟨reading,array,all⟩ | all
  · apply Or.inl
    refine ⟨reading.describe parser.normalizer isOptional,array,?_⟩
    intro written
    exact parse_describe.mpr (all written)
  · apply Or.inr
    intro written
    rw [parse_unread (all written)]
    exact ⟨_,rfl,rfl⟩

theorem parse_array_spellings_grouped :
    let parser : Parser := ⟨normalizeTypeName⟩
    let schema := some "s".toList
    let element := "bit (a.b[],(3)) varying".toList
    (∀ name, schema = some name → SchemaName name) ∧ ElementText schema element ∧
    ((∃ descriptor, descriptor.isArray = true ∧ ∀ written : ArraySpelling,
      (parser.parse [] (schemaLead schema ++ written.write element) true .given).outcome =
        .done descriptor) ∨
    ∀ written : ArraySpelling, ∃ fault,
      (parser.parse [] (schemaLead schema ++ written.write element) true .given).outcome =
        .failed fault ∧ fault.status.code = .parseError) := by
  intro parser schema element
  have named : ∀ name, schema = some name → SchemaName name := by
    intro name same
    have equal : "s".toList = name := Option.some.inj same
    subst name
    exact ⟨by simp,by simp [endsSchema,schemaMark]⟩
  have text : ElementText schema element :=
    ⟨by decide,⟨'b',_,rfl,by decide,by decide,by decide⟩,fun unnamed => (Option.some_ne_none _ unnamed).elim⟩
  exact ⟨named,text,parse_array_spellings parser [] true schema element named text⟩

end ColumnTypes
