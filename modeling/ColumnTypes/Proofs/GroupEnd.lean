import ColumnTypes.Spelling.Group
namespace ColumnTypes
variable {inner place : Nat} {t inside rest : Text}

-- The text closes `inner` groups opened before it as well as all of its own,
-- and no beginning of it closes more than were open. Balanced is the case 0.
def Closes (inner : Nat) (t : Text) : Prop :=
  (∀ k, (t.take k).count ')' ≤ (t.take k).count '(' + inner) ∧ t.count ')' = t.count '(' + inner

theorem closes_zero : Closes 0 t ↔ Balanced t := by
  simp [Closes,Balanced]

theorem closes_nil : Closes inner [] ↔ inner = 0 := by
  simp [Closes,eq_comm]

theorem beginnings_cons (P : Text → Prop) (empty : P []) :
    (∀ k, P ((c :: t).take k)) ↔ ∀ k, P (c :: t.take k) := by
  constructor
  · intro beginnings k
    exact beginnings (k + 1)
  · intro longer k
    cases k with
    | zero => exact empty
    | succ k => exact longer k

theorem closes_cons : Closes inner (c :: t) ↔
    (∀ k, (c :: t.take k).count ')' ≤ (c :: t.take k).count '(' + inner) ∧
      (c :: t).count ')' = (c :: t).count '(' + inner := by
  unfold Closes
  rw [beginnings_cons fun beginning => beginning.count ')' ≤ beginning.count '(' + inner]
  simp

theorem closes_open : Closes inner ('(' :: t) ↔ Closes (inner + 1) t := by
  have more : ∀ opened : Nat, opened + 1 + inner = opened + (inner + 1) := by omega
  rw [closes_cons]
  simp [Closes,more]

theorem closes_close : Closes inner (')' :: t) ↔ ∃ fewer, inner = fewer + 1 ∧ Closes fewer t := by
  rw [closes_cons]
  cases inner with
  | zero =>
    constructor
    · intro closes
      have first := closes.1 0
      simp at first
    · intro closes
      obtain ⟨_,positive,_⟩ := closes
      cases positive
  | succ fewer => simp [Closes,← Nat.add_assoc]

theorem closes_other (notOpen : c ≠ '(') (notClose : c ≠ ')') :
    Closes inner (c :: t) ↔ Closes inner t := by
  rw [closes_cons]
  simp [Closes,notOpen,notClose]

theorem closes_plain (plain : ∀ c ∈ gap, c ≠ '(' ∧ c ≠ ')') :
    Closes inner (gap ++ t) ↔ Closes inner t := by
  induction gap with
  | nil => exact Iff.rfl
  | cons c gap ih =>
    obtain ⟨first,rest⟩ := List.forall_mem_cons.mp plain
    exact (closes_other first.1 first.2).trans (ih rest)

theorem paren_cases (c : Char) : c = '(' ∨ c = ')' ∨ c ≠ '(' ∧ c ≠ ')' := by
  by_cases opens : c = '('
  · exact .inl opens
  · by_cases closing : c = ')'
    · exact .inr (.inl closing)
    · exact .inr (.inr ⟨opens,closing⟩)

theorem closes_inserted (plain : ∀ c ∈ gap, c ≠ '(' ∧ c ≠ ')') (front behind : Text) :
    Closes inner (front ++ gap ++ behind) ↔ Closes inner (front ++ behind) := by
  induction front generalizing inner with
  | nil => exact closes_plain plain
  | cons c front ih =>
    rcases paren_cases c with rfl | rfl | ⟨notOpen,notClose⟩
    · exact closes_open.trans (ih.trans closes_open.symm)
    · simp only [List.cons_append,closes_close,ih]
    · exact (closes_other notOpen notClose).trans (ih.trans (closes_other notOpen notClose).symm)

-- The scan stops at the first `)` that has no partner behind the opened group,
-- so what precedes it closes exactly the groups that were open.
theorem closingFrom_complete (closes : Closes inner inside) :
    closingFrom inner (inside ++ ')' :: rest) = some inside.length := by
  induction inside generalizing inner with
  | nil =>
    cases closes_nil.mp closes
    simp [closingFrom]
  | cons c inside ih =>
    rcases paren_cases c with rfl | rfl | ⟨notOpen,notClose⟩
    · simp [closingFrom,ih (closes_open.mp closes)]
    · obtain ⟨fewer,rfl,remaining⟩ := closes_close.mp closes
      simp [closingFrom,ih remaining]
    · simp [closingFrom,notOpen,notClose,ih ((closes_other notOpen notClose).mp closes)]

theorem closingFrom_sound (found : closingFrom inner t = some place) :
    ∃ inside rest, t = inside ++ ')' :: rest ∧ inside.length = place ∧ Closes inner inside := by
  -- Every parenthesis changes how many groups are still open.
  induction t generalizing inner place with
  | nil => simp [closingFrom] at found
  | cons c t ih =>
    rcases paren_cases c with rfl | rfl | ⟨notOpen,notClose⟩
    · simp only [closingFrom,if_pos] at found
      obtain ⟨before,later,rfl⟩ := Option.map_eq_some_iff.mp found
      obtain ⟨inside,rest,rfl,rfl,closes⟩ := ih later
      exact ⟨'(' :: inside,rest,rfl,rfl,closes_open.mpr closes⟩
    · cases inner with
      | zero =>
        simp [closingFrom] at found
        exact ⟨[],t,rfl,found,closes_nil.mpr rfl⟩
      | succ fewer =>
        have other : ')' ≠ '(' := by decide
        simp only [closingFrom,if_neg other,if_pos] at found
        obtain ⟨before,later,rfl⟩ := Option.map_eq_some_iff.mp found
        obtain ⟨inside,rest,rfl,rfl,closes⟩ := ih later
        exact ⟨')' :: inside,rest,rfl,rfl,closes_close.mpr ⟨fewer,rfl,closes⟩⟩
    · simp only [closingFrom,if_neg notOpen,if_neg notClose] at found
      obtain ⟨before,later,rfl⟩ := Option.map_eq_some_iff.mp found
      obtain ⟨inside,rest,rfl,rfl,closes⟩ := ih later
      exact ⟨c :: inside,rest,rfl,rfl,(closes_other notOpen notClose).mpr closes⟩

theorem closing_exact : closing? t = some place ↔
    ∃ inside rest, t = '(' :: inside ++ ')' :: rest ∧ place = inside.length + 1 ∧
      Balanced inside := by
  constructor
  · intro found
    cases t with
    | nil => simp [closing?] at found
    | cons c t =>
      simp only [closing?] at found
      split at found
      · rename_i opens
        obtain ⟨before,later,rfl⟩ := Option.map_eq_some_iff.mp found
        obtain ⟨inside,rest,rfl,rfl,closes⟩ := closingFrom_sound later
        exact ⟨inside,rest,by simp [opens],rfl,closes_zero.mp closes⟩
      · cases found
  · intro enclosed
    obtain ⟨inside,rest,rfl,rfl,balanced⟩ := enclosed
    simp [closing?,closingFrom_complete (closes_zero.mpr balanced)]

end ColumnTypes
