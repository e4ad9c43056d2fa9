import ColumnTypes.Proofs.SpellingGrammar
namespace ColumnTypes

theorem schemaMark_plain : endsBase schemaMark = false := rfl

theorem trailer_mark (valid : Body.WellFormed body)
    (split : body.trailer = front ++ schemaMark :: rest) : '(' ∈ front := by
  cases grouped : body.modifiers with
  | some inside =>
    cases front with
    | nil => simp [Body.trailer,Body.group,grouped,schemaMark] at split
    | cons c front =>
      simp only [Body.trailer,Body.group,grouped,List.cons_append,List.cons.injEq] at split
      simp [← split.1]
  | none =>
    have bare : body.trailer = body.mark := by
      simp [Body.trailer,Body.group,grouped,valid.2.2.2.2 grouped]
    have member : schemaMark ∈ body.mark := by rw [← bare,split]; simp
    unfold Body.mark at member
    split at member <;> simp [schemaMark,arrayMark] at member

theorem text_schema (valid : Body.WellFormed body) (name : SchemaName schema)
    (same : body.text = schema ++ schemaMark :: rest) :
    ∃ base, body.base = schema ++ schemaMark :: base ∧ rest = base ++ body.trailer := by
  rw [Body.text_trailer] at same
  rcases List.append_eq_append_iff.mp same with ⟨front,longer,split⟩ | ⟨behind,base,split⟩
  · have opens : '(' ∈ schema := by rw [longer]; simp [trailer_mark valid split]
    have refused := name.2 '(' opens
    simp [endsSchema] at refused
  · cases behind with
    | nil =>
      have ends := trailer_boundary valid schemaMark (by rw [← List.nil_append body.trailer,← split]; rfl)
      rw [schemaMark_plain] at ends
      cases ends
    | cons c behind =>
      obtain ⟨rfl,rest⟩ := List.cons.inj split
      exact ⟨behind,base,rest⟩

def Body.withBase (body : Body) (base : Text) : Body := {body with base := base}

theorem withBase_valid (valid : Body.WellFormed body) (nonempty : base ≠ [])
    (free : ∀ c ∈ base, endsBase c = false) : (body.withBase base).WellFormed :=
  ⟨nonempty,free,valid.2.2⟩

theorem withBase_text (body : Body) (base : Text) :
    (body.withBase base).text = base ++ body.trailer :=
  Body.text_trailer _

theorem behind_derives (valid : Body.WellFormed body) (split : body.base = front ++ base)
    (start : BaseStart (base ++ body.trailer)) :
    (body.withBase base).Derives (base ++ body.trailer) := by
  have free : ∀ c ∈ base, endsBase c = false := by
    intro c member
    apply valid.2.1
    rw [split]
    exact List.mem_append_right _ member
  exact ⟨withBase_valid valid (base_start valid start) free,(withBase_text body base).symm⟩

theorem front_derives (derives : Body.Derives body t) (free : ∀ c ∈ front, endsBase c = false) :
    (body.withBase (front ++ body.base)).Derives (front ++ t) := by
  obtain ⟨valid,rfl⟩ := derives
  have longer : ∀ c ∈ front ++ body.base, endsBase c = false := by
    intro c member
    rcases List.mem_append.mp member with before | inBase
    · exact free c before
    · exact valid.2.1 c inBase
  refine ⟨withBase_valid valid (by simp [valid.1]) longer,?_⟩
  rw [withBase_text,Body.text_trailer,List.append_assoc]

-- A base that reads as a schema and a further base. The further base must not
-- be empty, or the text behind the schema would be no body.
def Separable (base : Text) : Prop :=
  ∃ schema rest, base = schema ++ schemaMark :: rest ∧ schema ≠ [] ∧ schemaMark ∉ schema ∧ rest ≠ []

theorem undotted_inseparable (undotted : schemaMark ∉ base) : ¬Separable base := by
  intro separable
  obtain ⟨schema,rest,rfl,_⟩ := separable
  exact undotted (by simp)

theorem unqualified_exact (valid : Body.WellFormed body) :
    Unqualified body.text ↔ ¬Separable body.base := by
  constructor
  · intro unqualified separable
    obtain ⟨schema,base,whole,nonempty,unmarked,inhabited⟩ := separable
    have free : ∀ c ∈ schema ++ schemaMark :: base, endsBase c = false := by
      rw [← whole]; exact valid.2.1
    have name : SchemaName schema := by
      refine ⟨nonempty,?_⟩
      intro c member
      have notMark : c ≠ schemaMark := by intro same; subst c; exact unmarked member
      have notOpen := free c (List.mem_append_left _ member)
      simp only [endsBase,Bool.or_eq_false_iff] at notOpen
      simp [endsSchema,notMark,notOpen.1]
    have rest := withBase_valid valid inhabited fun c member =>
      free c (List.mem_append_right _ (List.mem_cons_of_mem _ member))
    apply unqualified schema (body.withBase base)
    refine ⟨base ++ body.trailer,?_,name,rest,(withBase_text _ _).symm⟩
    rw [Body.text_trailer,whole]
    simp
  · intro inseparable schema other qualified
    obtain ⟨rest,same,name,derives⟩ := qualified
    obtain ⟨base,whole,rfl⟩ := text_schema valid name same
    apply inseparable
    refine ⟨schema,base,whole,name.1,?_,?_⟩
    · intro member
      have refused := name.2 _ member
      simp [endsSchema] at refused
    · obtain ⟨otherValid,text⟩ := derives
      have start := text_start otherValid
      rw [← text] at start
      exact base_start valid start

-- Without a schema the base must not look like a qualified one.
def Spelling.WellFormed (spelling : Spelling) : Prop :=
  spelling.body.WellFormed ∧
  (∀ schema, spelling.schema = some schema → SchemaName schema) ∧
  (spelling.schema = none → ¬Separable spelling.body.base)

theorem spelling_text (spelling : Spelling) :
    spelling.text = schemaLead spelling.schema ++ spelling.body.text := by
  unfold Spelling.text schemaLead
  split <;> simp [*]

-- Reading and writing are inverse on the well-formed spellings, and every text
-- that can be read is the written form of one.
theorem spelling_exact : Spelling.read? t = some spelling ↔
    spelling.WellFormed ∧ t = spelling.text := by
  constructor
  · intro accepted
    rcases read_parts accepted with ⟨schema,named,rest,rfl,name,valid,rfl⟩ | ⟨unnamed,⟨valid,rfl⟩,unqualified⟩
    · refine ⟨⟨valid,?_,by simp [named]⟩,by simp [Spelling.text,named]⟩
      intro other same
      rw [named] at same
      cases same
      exact name
    · refine ⟨⟨valid,by simp [unnamed],?_⟩,by simp [Spelling.text,unnamed]⟩
      intro _
      exact (unqualified_exact valid).mp unqualified
  · intro written
    obtain ⟨⟨valid,name,inseparable⟩,rfl⟩ := written
    obtain ⟨schema,body⟩ := spelling
    cases schema with
    | some schema => exact read_qualified ⟨_,rfl,name schema rfl,valid,rfl⟩
    | none =>
      have unqualified := (unqualified_exact valid).mpr (inseparable rfl)
      simp only [Spelling.text]
      rw [read_unqualified unqualified,readBody_complete valid]
      rfl

end ColumnTypes
