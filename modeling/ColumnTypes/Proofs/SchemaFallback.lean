import ColumnTypes.Proofs.ParseSequence
namespace ColumnTypes
variable {parser : Parser} {body : Body} {raw schema rest : Text}

structure SchemaCut (raw schema rest : Text) : Prop where
  whole : raw = schema ++ schemaMark :: rest
  name : SchemaName schema

theorem cut_derives (name : SchemaName schema)
    (derives : Body.Derives body (schema ++ schemaMark :: rest)) :
    body.base = schema ++ [schemaMark] ∨ ∃ base, (body.withBase base).Derives rest := by
  obtain ⟨valid,text⟩ := derives
  obtain ⟨base,split,rfl⟩ := text_schema valid name text.symm
  cases base with
  | nil => exact .inl split
  | cons c base =>
    apply Or.inr
    have split : body.base = (schema ++ [schemaMark]) ++ c :: base := by simp [split]
    have plain : endsBase c = false := by
      apply valid.2.1
      simp [split]
    exact ⟨c :: base,behind_derives valid split ⟨c,base ++ body.trailer,rfl,plain⟩⟩

theorem trailer_start (valid : Body.WellFormed body) :
    body.trailer = [] ∨ body.trailer.head? = some '(' ∨ body.trailer.head? = some '[' := by
  cases start : body.trailer with
  | nil => exact .inl rfl
  | cons c trailer =>
    apply Or.inr
    have ends := trailer_boundary valid c (by simp [start])
    simpa [endsBase] using ends

theorem cut_qualified (cut : SchemaCut raw schema rest) :
    Spelling.read? raw = some ⟨some name,body⟩ ↔ name = schema ∧ Body.read? rest = some body := by
  constructor
  · intro accepted
    rcases read_parts accepted with ⟨other,same,behind,whole,otherName,derives⟩ | ⟨unnamed,_⟩
    · cases same
      obtain ⟨rfl,rfl⟩ := schema_unique otherName cut.name (whole.symm.trans cut.whole)
      exact ⟨rfl,readBody_exact.mpr derives⟩
    · cases unnamed
  · intro read
    obtain ⟨rfl,read⟩ := read
    exact read_qualified ⟨rest,cut.whole,cut.name,readBody_exact.mp read⟩

theorem cut_trailer (cut : SchemaCut raw schema rest) (derives : Body.Derives body raw)
    (ended : body.base = schema ++ [schemaMark]) : rest = body.trailer := by
  obtain ⟨valid,text⟩ := derives
  rw [cut.whole] at text
  obtain ⟨base,split,behind⟩ := text_schema valid cut.name text.symm
  have empty : base = [] := by simpa [ended] using split.symm
  rw [behind,empty,List.nil_append]

theorem cut_ended (cut : SchemaCut raw schema rest) (derives : Body.Derives body raw)
    (ended : body.base = schema ++ [schemaMark]) : Unqualified raw := by
  intro name other qualified
  obtain ⟨behind,whole,otherName,⟨valid,text⟩⟩ := qualified
  obtain ⟨_,rfl⟩ := schema_unique otherName cut.name (whole.symm.trans cut.whole)
  have start : BaseStart ([] ++ body.trailer) := by
    rw [List.nil_append,← cut_trailer cut derives ended,text]
    exact text_start valid
  exact base_start derives.1 start rfl

theorem cut_unqualified (cut : SchemaCut raw schema rest) :
    Spelling.read? raw = some ⟨none,body⟩ ↔
      Body.read? raw = some body ∧ body.base = schema ++ [schemaMark] := by
  constructor
  · intro accepted
    obtain ⟨derives,unqualified⟩ : body.Derives raw ∧ Unqualified raw := by
      rcases read_parts accepted with ⟨_,named,_⟩ | ⟨_,parts⟩
      · cases named
      · exact parts
    refine ⟨readBody_exact.mpr derives,?_⟩
    rw [cut.whole] at derives
    rcases cut_derives cut.name derives with ended | ⟨base,behind⟩
    · exact ended
    · exact False.elim (unqualified schema _ ⟨rest,cut.whole,cut.name,behind⟩)
  · intro glued
    obtain ⟨read,ended⟩ := glued
    rw [read_unqualified (cut_ended cut (readBody_exact.mp read) ended),read]
    rfl

theorem cut_behind (cut : SchemaCut raw schema rest)
    (accepted : Spelling.read? raw = some ⟨none,body⟩) :
    (rest = [] ∨ rest.head? = some '(' ∨ rest.head? = some '[') ∧ '[' ∉ schema := by
  obtain ⟨read,ended⟩ := (cut_unqualified cut).mp accepted
  have derives := readBody_exact.mp read
  rw [cut_trailer cut derives ended]
  refine ⟨trailer_start derives.1,?_⟩
  intro member
  have refused := derives.1.2.1 '[' (by simp [ended,member])
  cases refused

theorem inseparable_dots (inseparable : ¬Separable base) :
    schemaMark ∉ base ∨ base.head? = some schemaMark ∨
      ∃ front, base = front ++ [schemaMark] ∧ schemaMark ∉ front := by
  obtain ⟨front,behind,rfl,cut⟩ := firstCut_exists (fun c => c == schemaMark) base
  have unmarked : schemaMark ∉ front := by
    intro member
    have refused := cut.inside _ member
    cases refused
  cases behind with
  | nil => exact .inl (by simpa using unmarked)
  | cons c rest =>
    have mark : c = schemaMark := by simpa using cut.boundary c rfl
    subst c
    apply Or.inr
    cases front with
    | nil => exact .inl rfl
    | cons d front =>
      cases rest with
      | nil => exact .inr ⟨d :: front,rfl,unmarked⟩
      | cons e rest =>
        exact False.elim (inseparable ⟨d :: front,e :: rest,rfl,by simp,unmarked,by simp⟩)

-- A text falls back to a reading without a schema only if nothing that could be
-- a base stands behind its first dot. What is no type there is never rescued by
-- what precedes the dot.
theorem schema_extent (raw : Text) :
    (∀ schema rest, SchemaCut raw schema rest →
      (∀ name body, Spelling.read? raw = some ⟨some name,body⟩ ↔
        name = schema ∧ Body.read? rest = some body) ∧
      ∀ body, (Spelling.read? raw = some ⟨none,body⟩ ↔
          Body.read? raw = some body ∧ body.base = schema ++ [schemaMark]) ∧
        (Spelling.read? raw = some ⟨none,body⟩ →
          (rest = [] ∨ rest.head? = some '(' ∨ rest.head? = some '[') ∧ '[' ∉ schema)) ∧
    ∀ body, Spelling.read? raw = some ⟨none,body⟩ →
      schemaMark ∉ body.base ∨ body.base.head? = some schemaMark ∨
        ∃ front, body.base = front ++ [schemaMark] ∧ schemaMark ∉ front := by
  refine ⟨?_,?_⟩
  · intro schema rest cut
    refine ⟨fun name body => cut_qualified cut,?_⟩
    intro body
    exact ⟨cut_unqualified cut,cut_behind cut⟩
  · intro body accepted
    obtain ⟨⟨_,_,inseparable⟩,_⟩ := spelling_exact.mp accepted
    exact inseparable_dots (inseparable rfl)

theorem schema_extent_grouped :
    let raw := "a b.(c.d)[]".toList
    let body : Body := ⟨"a b.".toList,some "c.d".toList,[],true⟩
    SchemaCut raw "a b".toList "(c.d)[]".toList ∧ Spelling.read? raw = some ⟨none,body⟩ ∧
      '[' ∉ "a b".toList ∧ body.base = "a b".toList ++ [schemaMark] ∧
      ∃ front, body.base = front ++ [schemaMark] ∧ schemaMark ∉ front := by
  intro raw body
  have cut : SchemaCut raw "a b".toList "(c.d)[]".toList :=
    ⟨rfl,by simp,by simp [endsSchema,schemaMark]⟩
  have accepted : Spelling.read? raw = some ⟨none,body⟩ := by decide
  obtain ⟨extent,dots⟩ := schema_extent raw
  obtain ⟨exact,behind⟩ := (extent _ _ cut).2 body
  refine ⟨cut,accepted,(behind accepted).2,(exact.mp accepted).2,?_⟩
  rcases dots body accepted with absent | start | last
  · exact False.elim (absent (by simp [body,schemaMark]))
  · cases start
  · exact last

-- Said of the whole text, whether or not it can be read as qualified as well.
def NamedWhole (raw : Text) : Prop := ∃ body, Body.read? raw = some body ∧ ¬body.Nameless

def NamedBehind (raw : Text) : Prop := ∃ schema body, Qualified raw schema body ∧ ¬body.Nameless

def NamelessBehind (raw : Text) : Prop :=
  ∃ schema rest body, raw = schema ++ schemaMark :: rest ∧ schema ≠ [] ∧
    (∀ c ∈ schema, c ≠ schemaMark ∧ c ≠ '(' ∧ c ≠ '[') ∧ Body.read? rest = some body ∧ body.Nameless

-- The dot itself is solid, so a base that holds it is neither blank nor a lone
-- underscore.
theorem dotted_named (dotted : schemaMark ∈ body.base) : ¬body.Nameless := by
  have kept : schemaMark ∈ trim body.base := trim_solid dotted rfl
  intro nameless
  rcases nameless with blank | ⟨lone,_⟩
  · rw [blank] at kept
    cases kept
  · rw [lone] at kept
    cases List.mem_singleton.mp kept

theorem namelessBehind_cut (gap : NamelessBehind raw) :
    NamedWhole raw ∧ ∃ schema body, Qualified raw schema body ∧ body.Nameless := by
  obtain ⟨schema,rest,body,rfl,nonempty,free,read,nameless⟩ := gap
  have derives := readBody_exact.mp read
  constructor
  · have plain : ∀ c ∈ schema ++ [schemaMark], endsBase c = false := by
      intro c member
      rcases List.mem_append.mp member with before | mark
      · simp [endsBase,(free c before).2]
      · cases List.mem_singleton.mp mark
        rfl
    have glued := readBody_exact.mpr (front_derives derives plain)
    rw [List.append_assoc] at glued
    exact ⟨_,glued,dotted_named (by simp [Body.withBase])⟩
  · have name : SchemaName schema := by
      refine ⟨nonempty,?_⟩
      intro c member
      simp [endsSchema,(free c member).1,(free c member).2.1]
    exact ⟨schema,body,⟨rest,rfl,name,derives⟩,nameless⟩

theorem namelessBehind_both (whole : NamedWhole raw) (qualified : Qualified raw schema body)
    (nameless : body.Nameless) : NamelessBehind raw := by
  obtain ⟨glued,read,_⟩ := whole
  obtain ⟨rest,rfl,name,derives⟩ := qualified
  obtain ⟨valid,text⟩ := readBody_exact.mp read
  obtain ⟨base,split,_⟩ := text_schema valid name text.symm
  refine ⟨schema,rest,body,rfl,name.1,?_,readBody_exact.mpr derives,nameless⟩
  intro c member
  have inName := name.2 c member
  have inBase := valid.2.1 c (by simp [split,member])
  simp only [endsSchema,endsBase,Bool.or_eq_false_iff,beq_eq_false_iff_ne] at inName inBase
  exact ⟨inName.1,inBase⟩

-- The first of the two readings that exists decides alone. One that names no
-- type is not followed by the other.
theorem refuses_qualified (qualified : Qualified raw schema body) :
    parser.Refuses column isOptional raw ↔ body.Nameless := by
  have fails := (parse_turn parser column isOptional raw).fails
  rw [read_qualified qualified] at fails
  exact fails.trans (by simp)

theorem refuses_unqualified (unqualified : Unqualified raw) :
    parser.Refuses column isOptional raw ↔ ¬NamedWhole raw := by
  have fails := (parse_turn parser column isOptional raw).fails
  rw [read_unqualified unqualified] at fails
  refine fails.trans ?_
  unfold NamedWhole
  cases Body.read? raw <;> simp

theorem refused_whole : parser.Refuses column isOptional raw ∧ NamedWhole raw ↔ NamelessBehind raw := by
  constructor
  · intro both
    obtain ⟨refused,whole⟩ := both
    rcases qualified_or raw with ⟨schema,body,qualified⟩ | unqualified
    · exact namelessBehind_both whole qualified ((refuses_qualified qualified).mp refused)
    · exact False.elim ((refuses_unqualified unqualified).mp refused whole)
  · intro gap
    obtain ⟨whole,schema,body,qualified,nameless⟩ := namelessBehind_cut gap
    exact ⟨(refuses_qualified qualified).mpr nameless,whole⟩

theorem refuses_unnamed (unnamed : ¬NamedWhole raw) :
    parser.Refuses column isOptional raw ↔ ¬NamedBehind raw := by
  rcases qualified_or raw with ⟨schema,body,qualified⟩ | unqualified
  · rw [refuses_qualified qualified]
    constructor
    · intro nameless behind
      obtain ⟨other,named,again,filled⟩ := behind
      have same := (read_qualified qualified).symm.trans (read_qualified again)
      cases same
      exact filled nameless
    · intro absent
      exact Classical.byContradiction fun named => absent ⟨schema,body,qualified,named⟩
  · rw [refuses_unqualified unqualified]
    constructor
    · intro _ behind
      obtain ⟨schema,body,qualified,_⟩ := behind
      exact unqualified schema body qualified
    · intro _
      exact unnamed

theorem schema_gap (parser : Parser) (column raw : Text) (isOptional : Bool) :
    (parser.Refuses column isOptional raw ∧ NamedWhole raw ↔ NamelessBehind raw) ∧
      (parser.Refuses column isOptional raw ↔
        NamelessBehind raw ∨ ¬NamedWhole raw ∧ ¬NamedBehind raw) := by
  refine ⟨refused_whole,?_⟩
  constructor
  · intro refused
    by_cases whole : NamedWhole raw
    · exact .inl (refused_whole.mp ⟨refused,whole⟩)
    · exact .inr ⟨whole,(refuses_unnamed whole).mp refused⟩
  · intro either
    rcases either with behind | ⟨unnamed,unnamedBehind⟩
    · exact (refused_whole.mpr behind).1
    · exact (refuses_unnamed unnamed).mpr unnamedBehind

theorem schema_gap_blank :
    let parser : Parser := ⟨normalizeTypeName⟩
    let raw := " a. (x)[]".toList
    NamelessBehind raw ∧ parser.Refuses "c".toList true raw ∧ NamedWhole raw := by
  intro parser raw
  have behind : NamelessBehind raw :=
    ⟨" a".toList," (x)[]".toList,⟨" ".toList,some "x".toList,[],true⟩,rfl,by simp,
      by simp [schemaMark],by decide,.inl (by decide)⟩
  exact ⟨behind,(schema_gap parser "c".toList raw true).1.mpr behind⟩

end ColumnTypes
