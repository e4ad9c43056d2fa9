import ColumnTypes.Proofs.DecimalToken
namespace ColumnTypes
variable {t digits : Text}

def placeValue : Text → Nat
  | [] => 0
  | c :: rest => (c.toNat - '0'.toNat) * Nat.pow 10 rest.length + placeValue rest

def InInt32 (value : Int) : Prop := -2147483648 ≤ value ∧ value ≤ 2147483647

instance (value : Int) : Decidable (InInt32 value) := inferInstanceAs (Decidable (_ ∧ _))

def WritesInt32 (t : Text) (value : Int) : Prop :=
  ∃ digits, Digits digits ∧ InInt32 value ∧
    ((t = digits ∨ t = '+' :: digits) ∧ value = placeValue digits ∨
      t = '-' :: digits ∧ value = -placeValue digits)

-- A minus may stand before the number, a plus may not.
def signedRun? (sign : Int) (t : Text) : Option (Int32 × Text) :=
  let digits := t.takeWhile Char.isDigit
  let value := sign * placeValue digits
  if digits ≠ [] ∧ InInt32 value then some (Int32.ofInt value,t.dropWhile Char.isDigit) else none

def leadingInt32? : Text → Option (Int32 × Text)
  | [] => none
  | c :: rest => if c = '-' then signedRun? (-1) rest else signedRun? 1 (c :: rest)

def wholeInt32? (t : Text) : Option Int32 :=
  match leadingInt32? t with
  | some (value,[]) => some value
  | _ => none

def skipPlus : Text → Text
  | [] => []
  | c :: rest => if c = '+' ∧ rest ≠ [] ∧ rest.head? ≠ some '-' then rest else c :: rest

theorem ofDigitChars_place (t : Text) : Nat.ofDigitChars 10 t 0 = placeValue t := by
  induction t with
  | nil => rfl
  | cons c rest ih =>
    rw [Nat.ofDigitChars_cons,Nat.ofDigitChars_eq_ofDigitChars_zero,ih,placeValue,Nat.mul_zero,
      Nat.zero_add,Nat.mul_comm]
    rfl

theorem writes_signed : WritesInt32 t value ↔ SignedDecimal t value ∧ InInt32 value := by
  simp only [WritesInt32,SignedDecimal,ofDigitChars_place]
  constructor
  · rintro ⟨digits,valid,range,written⟩
    exact ⟨⟨digits,valid,written⟩,range⟩
  · rintro ⟨⟨digits,valid,written⟩,range⟩
    exact ⟨digits,valid,range,written⟩

theorem toInt_range (value : Int32) : InInt32 value.toInt := by
  have least := value.le_toInt
  have most := value.toInt_lt
  constructor <;> omega

theorem ofInt_range (range : InInt32 value) : (Int32.ofInt value).toInt = value := by
  obtain ⟨least,most⟩ := range
  apply Int32.toInt_ofInt_of_le <;> omega

theorem readInt32_value {value : Int} :
    (readInt32? t).map Int32.toInt = some value ↔ WritesInt32 t value := by
  rw [writes_signed,Option.map_eq_some_iff]
  constructor
  · rintro ⟨read,accepted,rfl⟩
    exact ⟨readInt32_exact.mp accepted,toInt_range read⟩
  · rintro ⟨written,range⟩
    rw [← ofInt_range range] at written
    exact ⟨Int32.ofInt value,readInt32_exact.mpr written,ofInt_range range⟩

theorem readInt32_none : readInt32? t = none ↔ ∀ value, ¬WritesInt32 t value := by
  rw [← Option.map_eq_none_iff (f := Int32.toInt),Option.eq_none_iff_forall_ne_some]
  exact forall_congr' fun value => not_congr readInt32_value

theorem signedRun_whole {value : Int32} :
    signedRun? sign t = some (value,[]) ↔ Digits t ∧ value.toInt = sign * placeValue t := by
  constructor
  · intro accepted
    simp only [signedRun?] at accepted
    split at accepted
    · rename_i readable
      obtain ⟨rfl,behind⟩ := Prod.mk.inj (Option.some.inj accepted)
      have whole : t.takeWhile Char.isDigit = t := by
        have parts := List.takeWhile_append_dropWhile (p := Char.isDigit) (l := t)
        rwa [behind,List.append_nil] at parts
      have passed := List.all_takeWhile (p := Char.isDigit) (l := t)
      rw [whole] at readable passed ⊢
      exact ⟨⟨readable.1,List.all_eq_true.mp passed⟩,ofInt_range readable.2⟩
    · cases accepted
  · rintro ⟨⟨inhabited,digits⟩,number⟩
    have whole : (t ++ []).takeWhile Char.isDigit = t ++ [] := List.takeWhile_append_of_pos digits
    have behind : (t ++ []).dropWhile Char.isDigit = [] := List.dropWhile_append_of_pos digits
    rw [List.append_nil] at whole behind
    have range := toInt_range value
    rw [number] at range
    simp only [signedRun?,whole,behind]
    rw [if_pos ⟨inhabited,range⟩,← number,Int32.ofInt_toInt]

theorem whole_leading {value : Int32} :
    wholeInt32? t = some value ↔ leadingInt32? t = some (value,[]) := by
  unfold wholeInt32?
  split
  · rename_i found read
    rw [read]
    simp
  · rename_i other
    constructor
    · intro accepted
      cases accepted
    · intro read
      exact False.elim (other value read)

theorem whole_exact {value : Int32} : wholeInt32? t = some value ↔
    ∃ digits, Digits digits ∧
      (t = digits ∧ value.toInt = placeValue digits ∨ t = '-' :: digits ∧ value.toInt = -placeValue digits) := by
  rw [whole_leading]
  constructor
  · intro read
    cases t with
    | nil => cases read
    | cons c rest =>
      rw [leadingInt32?] at read
      split at read
      · rename_i minus
        obtain ⟨digits,number⟩ := signedRun_whole.mp read
        exact ⟨rest,digits,.inr ⟨by rw [minus],by simpa using number⟩⟩
      · obtain ⟨digits,number⟩ := signedRun_whole.mp read
        exact ⟨c :: rest,digits,.inl ⟨rfl,by simpa using number⟩⟩
  · rintro ⟨digits,valid,⟨rfl,number⟩ | ⟨rfl,number⟩⟩
    · obtain ⟨c,rest,rfl⟩ := List.exists_cons_of_ne_nil valid.1
      rw [leadingInt32?,if_neg (digits_unsigned valid).1]
      exact signedRun_whole.mpr ⟨valid,by simpa using number⟩
    · rw [leadingInt32?,if_pos rfl]
      exact signedRun_whole.mpr ⟨valid,by simpa using number⟩

theorem skipPlus_parts (t : Text) :
    skipPlus t = t ∨ t = '+' :: skipPlus t ∧ (skipPlus t).head? ≠ some '-' := by
  cases t with
  | nil => exact .inl rfl
  | cons c rest =>
    rw [skipPlus]
    split
    · rename_i plus
      exact .inr ⟨by rw [plus.1],plus.2.2⟩
    · exact .inl rfl

theorem skipPlus_digits (valid : Digits digits) : skipPlus digits = digits := by
  obtain ⟨c,rest,rfl⟩ := List.exists_cons_of_ne_nil valid.1
  simp [skipPlus,(digits_unsigned valid).2]

theorem skipPlus_plus (valid : Digits digits) : skipPlus ('+' :: digits) = digits := by
  obtain ⟨c,rest,rfl⟩ := List.exists_cons_of_ne_nil valid.1
  simp [skipPlus,(digits_unsigned valid).1]

-- The plus is taken off before the number is read, and no second sign gets
-- through: a plus before a minus stays and the reader of numbers refuses it.
theorem readInt32_whole (t : Text) : readInt32? t = wholeInt32? (skipPlus t) := by
  apply Option.ext
  intro value
  rw [readInt32_exact,whole_exact]
  simp only [SignedDecimal,ofDigitChars_place]
  constructor
  · rintro ⟨digits,valid,⟨rfl | rfl,number⟩ | ⟨rfl,number⟩⟩
    · exact ⟨t,valid,.inl ⟨skipPlus_digits valid,number⟩⟩
    · exact ⟨digits,valid,.inl ⟨skipPlus_plus valid,number⟩⟩
    · exact ⟨digits,valid,.inr ⟨by simp [skipPlus],number⟩⟩
  · rintro ⟨digits,valid,⟨bare,number⟩ | ⟨minus,number⟩⟩
    · rcases skipPlus_parts t with kept | ⟨plus,_⟩
      · exact ⟨digits,valid,.inl ⟨.inl (kept.symm.trans bare),number⟩⟩
      · rw [bare] at plus
        exact ⟨digits,valid,.inl ⟨.inr plus,number⟩⟩
    · rcases skipPlus_parts t with kept | ⟨_,unsigned⟩
      · exact ⟨digits,valid,.inr ⟨kept.symm.trans minus,number⟩⟩
      · rw [minus] at unsigned
        exact False.elim (unsigned rfl)

theorem toDigits_digits (n : Nat) : Digits (Nat.toDigits 10 n) :=
  ⟨Nat.toDigits_ne_nil,fun _ member => Nat.isDigit_of_mem_toDigits (by decide) (by decide) member⟩

theorem toDigits_place (n : Nat) : placeValue (Nat.toDigits 10 n) = n := by
  rw [← ofDigitChars_place,Nat.ofDigitChars_ten_toDigits]

theorem rendered_writes (range : InInt32 value) : WritesInt32 (toString value).toList value := by
  rw [Int.toString_eq_repr,Int.repr_eq_if]
  split
  · rename_i natural
    refine ⟨Nat.toDigits 10 value.toNat,toDigits_digits _,range,.inl ⟨.inl Nat.toList_repr,?_⟩⟩
    rw [toDigits_place]
    omega
  · rename_i negative
    refine ⟨Nat.toDigits 10 (-value).toNat,toDigits_digits _,range,.inr ⟨?_,?_⟩⟩
    · rw [String.toList_append,Nat.toList_repr]
      rfl
    · rw [toDigits_place]
      omega

theorem rendered_plus (range : InInt32 value) (natural : 0 ≤ value) :
    WritesInt32 ('+' :: (toString value).toList) value := by
  rw [Int.toString_eq_repr,Int.repr_eq_if,if_pos natural,Nat.toList_repr]
  refine ⟨Nat.toDigits 10 value.toNat,toDigits_digits _,range,.inl ⟨.inr rfl,?_⟩⟩
  rw [toDigits_place]
  omega

theorem readInt32_written {value : Int32} (written : WritesInt32 t value.toInt) :
    readInt32? t = some value :=
  readInt32_exact.mpr (writes_signed.mp written).1

theorem int32_decimals (t : Text) :
    (∀ value, (readInt32? t).map Int32.toInt = some value ↔ WritesInt32 t value) ∧
    (readInt32? t = none ↔ ∀ value, ¬WritesInt32 t value) ∧
    readInt32? t = wholeInt32? (skipPlus t) ∧
    ∀ value : Int32, readInt32? (toString value.toInt).toList = some value ∧
      (0 ≤ value.toInt → readInt32? ('+' :: (toString value.toInt).toList) = some value) := by
  refine ⟨fun value => readInt32_value,readInt32_none,readInt32_whole t,?_⟩
  intro value
  have range := toInt_range value
  exact ⟨readInt32_written (rendered_writes range),
    fun natural => readInt32_written (rendered_plus range natural)⟩

theorem int32_decimals_limits :
    WritesInt32 "-02147483648".toList (-2147483648) ∧
    (readInt32? "-02147483648".toList).map Int32.toInt = some (-2147483648) ∧
    ¬WritesInt32 "2147483648".toList 2147483648 ∧
    0 ≤ (2147483647 : Int32).toInt ∧
    readInt32? ('+' :: (toString (2147483647 : Int32).toInt).toList) = some 2147483647 := by
  have least : WritesInt32 "-02147483648".toList (-2147483648) :=
    ⟨"02147483648".toList,⟨by decide,List.all_eq_true.mp (by decide)⟩,by decide,.inr ⟨by decide,by decide⟩⟩
  obtain ⟨accepted,_,_,rendered⟩ := int32_decimals "-02147483648".toList
  have more := (int32_decimals "2147483648".toList).1 2147483648
  refine ⟨least,(accepted _).mpr least,?_,by decide,(rendered 2147483647).2 (by decide)⟩
  rw [← more]
  decide

end ColumnTypes
