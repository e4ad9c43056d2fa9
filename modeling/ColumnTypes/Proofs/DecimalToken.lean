import ColumnTypes.Decimal
namespace ColumnTypes
variable {t digits : Text}

def Digits (t : Text) : Prop := t ≠ [] ∧ ∀ c ∈ t, c.isDigit = true

def SignedDecimal (t : Text) (value : Int) : Prop :=
  ∃ digits, Digits digits ∧
    ((t = digits ∨ t = '+' :: digits) ∧ value = Nat.ofDigitChars 10 digits 0 ∨
      t = '-' :: digits ∧ value = -Nat.ofDigitChars 10 digits 0)

theorem readDigits_exact : readDigits? t = some n ↔ Digits t ∧ Nat.ofDigitChars 10 t 0 = n := by
  unfold readDigits? Digits
  rw [← List.all_eq_true (p := Char.isDigit)]
  cases t with
  | nil => simp
  | cons c rest => cases (c :: rest).all Char.isDigit <;> simp

theorem digits_unsigned (digits : Digits (c :: rest)) : c ≠ '-' ∧ c ≠ '+' := by
  have digit := digits.2 c (by simp)
  constructor
  · intro minus
    subst c
    cases digit
  · intro plus
    subst c
    cases digit

theorem readSigned_exact : readSigned? t = some value ↔ SignedDecimal t value := by
  cases t with
  | nil =>
    constructor
    · intro accepted
      cases accepted
    · intro written
      obtain ⟨digits,valid,⟨bare | plus,_⟩ | ⟨minus,_⟩⟩ := written
      · exact False.elim (valid.1 bare.symm)
      · cases plus
      · cases minus
  | cons c rest =>
    constructor
    · intro accepted
      simp only [readSigned?] at accepted
      split at accepted
      · rename_i minus
        obtain ⟨n,read,rfl⟩ := Option.map_eq_some_iff.mp accepted
        obtain ⟨digits,rfl⟩ := readDigits_exact.mp read
        exact ⟨rest,digits,.inr ⟨by rw [minus],rfl⟩⟩
      · split at accepted
        · rename_i plus
          obtain ⟨n,read,rfl⟩ := Option.map_eq_some_iff.mp accepted
          obtain ⟨digits,rfl⟩ := readDigits_exact.mp read
          exact ⟨rest,digits,.inl ⟨.inr (by rw [plus]),rfl⟩⟩
        · obtain ⟨n,read,rfl⟩ := Option.map_eq_some_iff.mp accepted
          obtain ⟨digits,rfl⟩ := readDigits_exact.mp read
          exact ⟨c :: rest,digits,.inl ⟨.inl rfl,rfl⟩⟩
    · intro written
      obtain ⟨digits,valid,⟨bare | plus,rfl⟩ | ⟨minus,rfl⟩⟩ := written
      · subst digits
        have read := readDigits_exact.mpr ⟨valid,rfl⟩
        obtain ⟨notMinus,notPlus⟩ := digits_unsigned valid
        simp [readSigned?,notMinus,notPlus,read]
      · obtain ⟨rfl,rfl⟩ := List.cons.inj plus
        have read := readDigits_exact.mpr ⟨valid,rfl⟩
        simp [readSigned?,read]
      · obtain ⟨rfl,rfl⟩ := List.cons.inj minus
        have read := readDigits_exact.mpr ⟨valid,rfl⟩
        simp [readSigned?,read]

theorem readInt32_exact {value : Int32} :
    readInt32? t = some value ↔ SignedDecimal t value.toInt := by
  rw [← readSigned_exact]
  unfold readInt32?
  cases read : readSigned? t with
  | none => simp
  | some number =>
    have least := value.le_toInt
    have most := value.toInt_lt
    simp only [Option.some.injEq]
    constructor
    · intro accepted
      split at accepted
      · rename_i range
        cases accepted
        have below : number < 2 ^ 31 := by omega
        exact (Int32.toInt_ofInt_of_le range.1 below).symm
      · cases accepted
    · intro same
      have range : -2147483648 ≤ number ∧ number ≤ 2147483647 := by omega
      rw [if_pos range,same,Int32.ofInt_toInt]

end ColumnTypes
