import ColumnTypes.Proofs.FirstCut
import ColumnTypes.Proofs.GroupEnd
import ColumnTypes.Spelling.Body
namespace ColumnTypes

-- The grammar of an unqualified type text, stated without the scanner: the
-- parts are well formed and, written one after another, are the whole text.
def Body.Derives (body : Body) (t : Text) : Prop := body.WellFormed ∧ t = body.text

def Body.mark (body : Body) : Text := if body.isArray then arrayMark else []

def Body.trailer (body : Body) : Text := body.group ++ body.suffix ++ body.mark

theorem Body.text_trailer (body : Body) : body.text = body.base ++ body.trailer := by
  simp [Body.text,Body.full,Body.trailer,Body.mark]

theorem Body.text_full (body : Body) : body.text = body.full ++ body.mark := rfl

theorem trailer_boundary (valid : Body.WellFormed body) :
    ∀ c, body.trailer.head? = some c → endsBase c = true := by
  obtain ⟨_,_,_,_,ungrouped⟩ := valid
  intro c first
  cases grouped : body.modifiers with
  | some inside =>
    simp [Body.trailer,Body.group,grouped] at first
    subst c; rfl
  | none =>
    simp only [Body.trailer,Body.group,grouped,ungrouped grouped,List.nil_append] at first
    cases marked : body.isArray with
    | true =>
      simp [Body.mark,marked,arrayMark] at first
      subst c; rfl
    | false => simp [Body.mark,marked] at first

theorem base_cut (valid : Body.WellFormed body) : FirstCut endsBase body.base body.trailer :=
  ⟨valid.2.1,trailer_boundary valid⟩

def BaseStart (t : Text) : Prop := ∃ c rest, t = c :: rest ∧ endsBase c = false

theorem text_start (valid : Body.WellFormed body) : BaseStart body.text := by
  obtain ⟨nonempty,free,_⟩ := valid
  obtain ⟨c,base,begins⟩ := List.exists_cons_of_ne_nil nonempty
  refine ⟨c,base ++ body.trailer,?_,free c (by simp [begins])⟩
  rw [Body.text_trailer,begins]
  rfl

theorem base_start (valid : Body.WellFormed body) (start : BaseStart (base ++ body.trailer)) :
    base ≠ [] := by
  intro empty
  subst base
  obtain ⟨c,rest,begins,plain⟩ := start
  rw [List.nil_append] at begins
  have ends := trailer_boundary valid c (by rw [begins]; rfl)
  rw [plain] at ends
  cases ends

theorem bracket_of_endsBase (ends : endsBase c = true) : isBracket c = true := by
  unfold endsBase at ends
  unfold isBracket
  rcases Bool.or_eq_true_iff.mp ends with opens | opens <;> simp [opens]

theorem endsBase_plain (plain : isBracket c = false) : endsBase c = false := by
  cases ends : endsBase c with
  | false => rfl
  | true =>
    rw [bracket_of_endsBase ends] at plain
    cases plain

theorem readGroup_none (other : t.head? ≠ some '(') : readGroup? t = some (none,t) := by
  simp [readGroup?,other]

theorem readGroup_some (filled : inside ≠ []) (balanced : Balanced inside) :
    readGroup? ('(' :: inside ++ ')' :: rest) = some (some inside,rest) := by
  have closed : closing? ('(' :: inside ++ ')' :: rest) = some (inside.length + 1) :=
    closing_exact.mpr ⟨inside,rest,rfl,rfl,balanced⟩
  have nonempty : inside.length ≠ 0 := fun zero => filled (List.eq_nil_of_length_eq_zero zero)
  simp only [List.cons_append] at closed
  simp [readGroup?,closed,nonempty]

theorem readGroup_parts (accepted : readGroup? t = some (modifiers,rest)) :
    (modifiers = none ∧ rest = t ∧ t.head? ≠ some '(') ∨
      ∃ inside, modifiers = some inside ∧ inside ≠ [] ∧ Balanced inside ∧
        t = '(' :: inside ++ ')' :: rest := by
  unfold readGroup? at accepted
  split at accepted
  · rename_i opens
    cases found : closing? t with
    | none => simp [found] at accepted
    | some close =>
      obtain ⟨inside,tail,rfl,rfl,balanced⟩ := closing_exact.mp found
      simp only [found] at accepted
      split at accepted
      · cases accepted
      · rename_i filled
        have nonempty : inside ≠ [] := by intro empty; subst inside; exact filled rfl
        simp at accepted
        obtain ⟨rfl,rfl⟩ := accepted
        exact .inr ⟨inside,rfl,nonempty,balanced,rfl⟩
  · rename_i other
    cases accepted
    exact .inl ⟨rfl,rfl,other⟩

theorem mark_not_plain (plain : ∀ c ∈ t, isBracket c = false) : ¬arrayMark <:+ t := by
  intro marked
  have member : ']' ∈ t := marked.subset (by simp [arrayMark])
  have refused := plain _ member
  simp [isBracket] at refused

theorem mark_behind (ends : arrayMark <:+ front ++ t) (filled : t ≠ [])
    (closed : front.getLast? ≠ some '[') : arrayMark <:+ t := by
  obtain ⟨c,rest,rfl⟩ := List.exists_cons_of_ne_nil filled
  cases rest with
  | nil =>
    obtain ⟨before,whole⟩ := ends
    have split : (before ++ ['[']) ++ [']'] = front ++ [c] := by simpa [arrayMark] using whole
    apply False.elim
    apply closed
    rw [← (List.append_inj' split rfl).1]
    simp
  | cons d rest =>
    have tail : c :: d :: rest <:+ front ++ c :: d :: rest := List.suffix_append _ _
    exact List.suffix_of_suffix_length_le ends tail (by simp [arrayMark])

theorem readTail_exact : readTail? t = some (suffix,isArray) ↔
    t = suffix ++ (if isArray then arrayMark else []) ∧ ∀ c ∈ suffix, isBracket c = false := by
  constructor
  · intro accepted
    unfold readTail? at accepted
    cases marked : arrayMark.isSuffixOf t with
    | true =>
      obtain ⟨front,rfl⟩ := List.isSuffixOf_iff_suffix.mp marked
      simp only [marked,if_true,List.length_append,Nat.add_sub_cancel,List.take_left] at accepted
      split at accepted
      · cases accepted
      · rename_i plain
        cases accepted
        exact ⟨rfl,by simpa using plain⟩
    | false =>
      simp only [marked,Bool.false_eq_true,if_false] at accepted
      split at accepted
      · cases accepted
      · rename_i plain
        cases accepted
        exact ⟨by simp,by simpa using plain⟩
  · intro written
    obtain ⟨rfl,plain⟩ := written
    have free : suffix.any isBracket = false := by simpa using plain
    cases isArray with
    | true =>
      have marked : arrayMark.isSuffixOf (suffix ++ arrayMark) = true :=
        List.isSuffixOf_iff_suffix.mpr (List.suffix_append _ _)
      simp [readTail?,marked,free]
    | false =>
      have unmarked : arrayMark.isSuffixOf suffix = false := by
        cases marked : arrayMark.isSuffixOf suffix with
        | true => exact False.elim (mark_not_plain plain (List.isSuffixOf_iff_suffix.mp marked))
        | false => rfl
      simp [readTail?,unmarked,free]

theorem readBody_complete (valid : Body.WellFormed body) : Body.read? body.text = some body := by
  have cut := base_cut valid
  obtain ⟨nonempty,_,filled,plain,ungrouped⟩ := valid
  have tail : readTail? (body.suffix ++ body.mark) = some (body.suffix,body.isArray) :=
    readTail_exact.mpr ⟨rfl,plain⟩
  have group : readGroup? body.trailer = some (body.modifiers,body.suffix ++ body.mark) := by
    cases grouped : body.modifiers with
    | some inside =>
      obtain ⟨inhabited,balanced⟩ := filled inside grouped
      simpa [Body.trailer,Body.group,grouped] using readGroup_some inhabited balanced
    | none =>
      have bare : body.trailer = body.suffix ++ body.mark := by
        simp [Body.trailer,Body.group,grouped]
      rw [bare]
      apply readGroup_none
      rw [ungrouped grouped]
      unfold Body.mark
      split <;> simp [arrayMark]
  rw [Body.text_trailer]
  simp only [Body.read?,cut.takeWhile,cut.dropWhile,group,tail]
  simp [nonempty]

theorem readBody_sound (accepted : Body.read? t = some body) : body.Derives t := by
  obtain ⟨base,behind,rfl,cut⟩ := firstCut_exists endsBase t
  simp only [Body.read?,cut.takeWhile,cut.dropWhile] at accepted
  split at accepted
  · cases accepted
  · rename_i nonempty
    have inhabited : base ≠ [] := by simpa using nonempty
    cases group : readGroup? behind with
    | none => simp [group] at accepted
    | some pair =>
      obtain ⟨modifiers,rest⟩ := pair
      cases tail : readTail? rest with
      | none => simp [group,tail] at accepted
      | some pair =>
        obtain ⟨suffix,isArray⟩ := pair
        simp only [group,tail,Option.some.injEq] at accepted
        subst body
        obtain ⟨rfl,plain⟩ := readTail_exact.mp tail
        rcases readGroup_parts group with ⟨rfl,rfl,other⟩ | ⟨inside,rfl,filled,balanced,rfl⟩
        · -- Without a group the rest starts with a bracket, so no suffix is left over.
          have bare : suffix = [] := by
            cases suffix with
            | nil => rfl
            | cons c suffix =>
              have refused := bracket_of_endsBase (cut.boundary c rfl)
              rw [plain c (by simp)] at refused
              cases refused
          subst suffix
          refine ⟨⟨inhabited,cut.inside,by simp,by simp,fun _ => rfl⟩,?_⟩
          simp [Body.text,Body.full,Body.group]
        · refine ⟨⟨inhabited,cut.inside,?_,plain,by simp⟩,?_⟩
          · intro other equal
            cases equal
            exact ⟨filled,balanced⟩
          · simp [Body.text,Body.full,Body.group]

theorem readBody_exact : Body.read? t = some body ↔ body.Derives t := by
  constructor
  · exact readBody_sound
  · intro derives
    obtain ⟨valid,rfl⟩ := derives
    exact readBody_complete valid

theorem derives_unique (one : Body.Derives body t) (other : Body.Derives body' t) : body = body' := by
  have first := readBody_exact.mpr one
  rw [readBody_exact.mpr other] at first
  exact (Option.some.inj first).symm

end ColumnTypes
