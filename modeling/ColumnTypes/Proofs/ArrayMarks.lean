import ColumnTypes.Proofs.ReadingForms
namespace ColumnTypes
variable {body : Body} {spelling : Spelling}

def PlainStart (t : Text) : Prop :=
  ∃ c rest, t = c :: rest ∧ c ≠ catalogArrayMark ∧ isBlank c = false

def Body.asArray (body : Body) : Body := {body with isArray := true}

theorem asArray_valid (valid : Body.WellFormed body) : body.asArray.WellFormed := valid

theorem asArray_text (scalar : body.isArray = false) : body.asArray.text = body.text ++ arrayMark := by
  simp [Body.text,scalar,Body.asArray,Body.full,Body.group]

def Spelling.asArray (spelling : Spelling) : Spelling := ⟨spelling.schema,spelling.body.asArray⟩

def Reading.asArray (reading : Reading) : Reading := {reading with isArray := true}

theorem asArray_spelled (read : spelling.reading? = some reading) :
    spelling.asArray.reading? = some reading.asArray := by
  obtain ⟨front,first,rest,led,plain | marked⟩ := reading_parts read
  · obtain ⟨plain,rfl⟩ := plain
    have moved : Led spelling.asArray.body.base front first rest := led
    rw [reading_plain moved plain]
    rfl
  · obtain ⟨rfl,named,rfl⟩ := marked
    have moved : Led spelling.asArray.body.base front catalogArrayMark rest := led
    rw [reading_marked moved named]
    rfl

theorem asArray_written (scalar : spelling.body.isArray = false) :
    spelling.asArray.text = spelling.text ++ arrayMark := by
  rw [spelling_text,spelling_text,Spelling.asArray,asArray_text scalar,List.append_assoc]

theorem ofText_brackets (valid : spelling.WellFormed) (scalar : spelling.body.isArray = false)
    (read : spelling.reading? = some reading) :
    Reading.ofText? (spelling.text ++ arrayMark) = some reading.asArray := by
  have marked : spelling.asArray.WellFormed := valid
  rw [← asArray_written scalar,ofText_text marked,asArray_spelled read]

def Body.remarked (body : Body) (front rest : Text) : Body := (body.withBase (front ++ rest)).asArray

def Spelling.remarked (spelling : Spelling) (front rest : Text) : Spelling :=
  ⟨spelling.schema,spelling.body.remarked front rest⟩

theorem remarked_text (spelling : Spelling) (front rest : Text) :
    (spelling.remarked front rest).text = schemaLead spelling.schema ++
      (front ++ rest ++ spelling.body.group ++ spelling.body.suffix) ++ arrayMark := by
  rw [spelling_text]
  simp [Spelling.remarked,Body.remarked,Body.text,Body.full,Body.group,Body.asArray,Body.withBase]

-- Taking the underscore out can only make a base look less qualified.
theorem separable_marked (blank : Blank front) (separable : Separable (front ++ rest)) :
    Separable (front ++ catalogArrayMark :: rest) := by
  obtain ⟨schema,base,whole,nonempty,unmarked,inhabited⟩ := separable
  have dotless : schemaMark ∉ front := by
    intro member
    have refused := blank _ member
    cases refused
  rcases List.append_eq_append_iff.mp whole with ⟨between,rfl,split⟩ | ⟨between,split,tail⟩
  · refine ⟨front ++ catalogArrayMark :: between,base,by simp [split],by simp,?_,inhabited⟩
    intro member
    rcases List.mem_append.mp member with before | behind
    · exact dotless before
    · rcases List.mem_cons.mp behind with mark | behind
      · cases mark
      · exact unmarked (List.mem_append_right _ behind)
  · cases between with
    | nil =>
      refine ⟨schema ++ [catalogArrayMark],base,?_,by simp,?_,inhabited⟩
      · rw [List.nil_append] at tail
        simp [split,← tail]
      · intro member
        rcases List.mem_append.mp member with before | mark
        · exact unmarked before
        · cases List.mem_singleton.mp mark
    | cons c between =>
      obtain ⟨rfl,_⟩ := List.cons.inj tail
      exact False.elim (dotless (by rw [split]; simp))

theorem remarked_body (valid : Body.WellFormed body)
    (led : Led body.base front catalogArrayMark rest) (inhabited : rest ≠ []) :
    (body.remarked front rest).WellFormed := by
  have nonempty : front ++ rest ≠ [] := by simp [inhabited]
  have free : ∀ c ∈ front ++ rest, endsBase c = false := by
    intro c member
    apply valid.2.1
    rw [led.whole]
    rcases List.mem_append.mp member with before | behind
    · exact List.mem_append_left _ before
    · exact List.mem_append_right _ (List.mem_cons_of_mem _ behind)
  exact asArray_valid (withBase_valid valid nonempty free)

theorem remarked_valid (valid : spelling.WellFormed)
    (led : Led spelling.body.base front catalogArrayMark rest) (inhabited : rest ≠ []) :
    (spelling.remarked front rest).WellFormed := by
  obtain ⟨body,named,inseparable⟩ := valid
  refine ⟨remarked_body body led inhabited,named,?_⟩
  intro unnamed separable
  apply inseparable unnamed
  rw [led.whole]
  exact separable_marked led.blank separable

-- Both spellings say the same, unless the underscore hides a character that the
-- reader would interpret once it comes first.
theorem remarked_reading (led : Led spelling.body.base front catalogArrayMark rest)
    (start : PlainStart rest) : (spelling.remarked front rest).reading? = spelling.reading? := by
  obtain ⟨c,tail,rfl,plain,solid⟩ := start
  have moved : Led (spelling.remarked front (c :: tail)).body.base front c tail :=
    ⟨rfl,led.blank,solid⟩
  have named : trimEnd (c :: tail) ++ spelling.body.furtherWords ≠ [] := by
    rw [trimEnd_cons solid]; simp
  rw [reading_plain moved plain,reading_marked led named,trimEnd_cons solid]
  rfl

end ColumnTypes
