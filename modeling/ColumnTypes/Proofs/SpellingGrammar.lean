import ColumnTypes.Proofs.BodyGrammar
import ColumnTypes.Spelling
namespace ColumnTypes

def SchemaName (schema : Text) : Prop := schema ≠ [] ∧ ∀ c ∈ schema, endsSchema c = false

-- The schema holds no mark of its own, so at most one place of a text can be meant.
def Qualified (t schema : Text) (body : Body) : Prop :=
  ∃ rest, t = schema ++ schemaMark :: rest ∧ SchemaName schema ∧ body.Derives rest

def Unqualified (t : Text) : Prop := ∀ schema body, ¬Qualified t schema body

theorem qualified_or (t : Text) : (∃ schema body, Qualified t schema body) ∨ Unqualified t := by
  by_cases found : ∃ schema body, Qualified t schema body
  · exact .inl found
  · exact .inr fun schema body qualified => found ⟨schema,body,qualified⟩

def schemaLead : Option Text → Text
  | none => []
  | some schema => schema ++ [schemaMark]

theorem schema_cut (name : SchemaName schema) (rest : Text) :
    FirstCut endsSchema schema (schemaMark :: rest) :=
  firstCut_at name.2 rfl

theorem schema_unique (name : SchemaName schema) (name' : SchemaName schema')
    (same : schema ++ schemaMark :: rest = schema' ++ schemaMark :: rest') :
    schema = schema' ∧ rest = rest' := by
  obtain ⟨schemas,rests⟩ := (schema_cut name _).unique (schema_cut name' _) same
  exact ⟨schemas,(List.cons.inj rests).2⟩

theorem readQualified_complete (qualified : Qualified t schema body) :
    Spelling.readQualified? t = some ⟨some schema,body⟩ := by
  obtain ⟨rest,rfl,name,derives⟩ := qualified
  have cut := schema_cut name rest
  simp [Spelling.readQualified?,cut.takeWhile,cut.dropWhile,name.1,readBody_exact.mpr derives]

theorem readQualified_sound (accepted : Spelling.readQualified? t = some spelling) :
    ∃ schema, spelling.schema = some schema ∧ Qualified t schema spelling.body := by
  obtain ⟨schema,behind,rfl,cut⟩ := firstCut_exists endsSchema t
  simp only [Spelling.readQualified?,cut.takeWhile,cut.dropWhile] at accepted
  cases behind with
  | nil => cases accepted
  | cons c rest =>
    simp only at accepted
    split at accepted
    · rename_i guard
      obtain ⟨rfl,nonempty⟩ := guard
      obtain ⟨body,read,rfl⟩ := Option.map_eq_some_iff.mp accepted
      exact ⟨schema,rfl,rest,rfl,⟨nonempty,cut.inside⟩,readBody_exact.mp read⟩
    · cases accepted

theorem read_qualified (qualified : Qualified t schema body) :
    Spelling.read? t = some ⟨some schema,body⟩ := by
  simp [Spelling.read?,readQualified_complete qualified]

theorem read_unqualified (unqualified : Unqualified t) :
    Spelling.read? t = (Body.read? t).map fun body => ⟨none,body⟩ := by
  cases read : Spelling.readQualified? t with
  | none => simp [Spelling.read?,read]
  | some spelling =>
    obtain ⟨schema,_,qualified⟩ := readQualified_sound read
    exact False.elim (unqualified schema spelling.body qualified)

theorem read_parts (accepted : Spelling.read? t = some spelling) :
    (∃ schema, spelling.schema = some schema ∧ Qualified t schema spelling.body) ∨
      spelling.schema = none ∧ spelling.body.Derives t ∧ Unqualified t := by
  rcases qualified_or t with ⟨schema,body,qualified⟩ | unqualified
  · rw [read_qualified qualified] at accepted
    cases accepted
    exact .inl ⟨schema,rfl,qualified⟩
  · rw [read_unqualified unqualified] at accepted
    obtain ⟨body,read,rfl⟩ := Option.map_eq_some_iff.mp accepted
    exact .inr ⟨rfl,readBody_exact.mp read,unqualified⟩

theorem mark_exact (derives : Body.Derives body t) : body.isArray = true ↔ arrayMark <:+ t := by
  obtain ⟨⟨_,free,_,plain,ungrouped⟩,rfl⟩ := derives
  cases marked : body.isArray with
  | true => simp [Body.text,marked]
  | false =>
    simp only [Bool.false_eq_true,false_iff]
    intro ends
    cases grouped : body.modifiers with
    | none =>
      have whole : body.text = body.base := by
        simp [Body.text,Body.full,Body.group,grouped,marked,ungrouped grouped]
      rw [whole] at ends
      have refused := free '[' (ends.subset (by simp [arrayMark]))
      simp [endsBase] at refused
    | some inside =>
      -- The end of the group and the array mark would overlap at the end of the text.
      have closed : (')' :: body.suffix) <:+ body.text :=
        ⟨body.base ++ '(' :: inside,by simp [Body.text,Body.full,Body.group,grouped,marked]⟩
      cases blank : body.suffix with
      | nil =>
        rw [blank] at closed
        have inMark := (List.suffix_of_suffix_length_le closed ends (by simp [arrayMark])).subset
        have member : ')' ∈ arrayMark := inMark (by simp)
        simp [arrayMark] at member
      | cons c suffix =>
        rw [blank] at closed
        have inTail := (List.suffix_of_suffix_length_le ends closed (by simp [arrayMark])).subset
        have member : '[' ∈ ')' :: c :: suffix := inTail (by simp [arrayMark])
        have refused := plain '[' (by rw [blank]; simpa using member)
        simp [isBracket] at refused

theorem full_exact (derives : Body.Derives body t) :
    body.full = t.take (t.length - if body.isArray then arrayMark.length else 0) := by
  obtain ⟨_,rfl⟩ := derives
  unfold Body.text
  split <;> simp

theorem read_isSome : (Spelling.read? t).isSome = true ↔
    (∃ body, Body.Derives body t) ∨ ∃ schema body, Qualified t schema body := by
  constructor
  · intro accepted
    obtain ⟨spelling,read⟩ := Option.isSome_iff_exists.mp accepted
    rcases read_parts read with ⟨schema,_,qualified⟩ | ⟨_,derives,_⟩
    · exact .inr ⟨schema,spelling.body,qualified⟩
    · exact .inl ⟨spelling.body,derives⟩
  · intro grammatical
    rcases qualified_or t with ⟨schema,body,qualified⟩ | unqualified
    · simp [read_qualified qualified]
    · rcases grammatical with ⟨body,derives⟩ | ⟨schema,body,qualified⟩
      · simp [read_unqualified unqualified,readBody_exact.mpr derives]
      · exact False.elim (unqualified schema body qualified)

theorem read_written (accepted : Spelling.read? t = some spelling) :
    ∃ written, t = schemaLead spelling.schema ++ written ∧ spelling.body.Derives written := by
  rcases read_parts accepted with ⟨schema,named,rest,rfl,_,derives⟩ | ⟨unnamed,derives,_⟩
  · exact ⟨rest,by simp [named,schemaLead],derives⟩
  · exact ⟨t,by simp [unnamed,schemaLead],derives⟩

theorem read_grammar (raw : Text) :
    (∀ t body body', Body.Derives body t → Body.Derives body' t → body = body') ∧
    ((Spelling.read? raw).isSome = true ↔
      (∃ body, Body.Derives body raw) ∨ ∃ schema body, Qualified raw schema body) ∧
    (∀ schema body, Qualified raw schema body → Spelling.read? raw = some ⟨some schema,body⟩) ∧
    (Unqualified raw → ∀ body, Body.Derives body raw → Spelling.read? raw = some ⟨none,body⟩) ∧
    ∀ spelling, Spelling.read? raw = some spelling →
      ∃ written, raw = schemaLead spelling.schema ++ written ∧ spelling.body.Derives written ∧
        (spelling.body.isArray = true ↔ arrayMark <:+ written) ∧
        spelling.body.full =
          written.take (written.length - if spelling.body.isArray then arrayMark.length else 0) := by
  refine ⟨?_,read_isSome,?_,?_,?_⟩
  · intro t body body' one other
    exact derives_unique one other
  · intro schema body qualified
    exact read_qualified qualified
  · intro unqualified body derives
    rw [read_unqualified unqualified,readBody_exact.mpr derives]
    rfl
  · intro spelling accepted
    obtain ⟨written,whole,derives⟩ := read_written accepted
    exact ⟨written,whole,derives,mark_exact derives,full_exact derives⟩

theorem read_grammar_nested :
    let raw := "s.a ((x),[]) y[]".toList
    let body : Body := ⟨"a ".toList,some "(x),[]".toList," y".toList,true⟩
    Qualified raw "s".toList body ∧ Spelling.read? raw = some ⟨some "s".toList,body⟩ := by
  intro raw body
  have derives : body.Derives "a ((x),[]) y[]".toList := readBody_exact.mp (by decide)
  have qualified : Qualified raw "s".toList body := ⟨_,rfl,⟨by simp,by simp [endsSchema,schemaMark]⟩,derives⟩
  exact ⟨qualified,(read_grammar raw).2.2.1 _ _ qualified⟩

end ColumnTypes
