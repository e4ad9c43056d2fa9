import ColumnTypes.Proofs.GroupEnd
namespace ColumnTypes

-- `depth` is the number of groups that are open in front of `place`.
structure Nesting where
  place : Nat
  depth : Nat
deriving DecidableEq, Repr

-- A `)` takes one from the depth. The depth has no sign: one less than zero is
-- not a depth but an underflow.
inductive Descent where
  | going (nesting : Nesting)
  | closed (place : Nat)
  | unclosed
  | underflow
deriving DecidableEq, Repr

def Nesting.round (t : Text) (nesting : Nesting) : Descent :=
  match t[nesting.place]? with
  | none => .unclosed
  | some c =>
    if c = '(' then .going ⟨nesting.place + 1,nesting.depth + 1⟩
    else if c = ')' then
      match nesting.depth with
      | 0 => .underflow
      | fewer + 1 =>
        if fewer = 0 then .closed nesting.place else .going ⟨nesting.place + 1,fewer⟩
    else .going ⟨nesting.place + 1,nesting.depth⟩

def Descent.next (t : Text) : Descent → Descent
  | .going nesting => nesting.round t
  | .closed place => .closed place
  | .unclosed => .unclosed
  | .underflow => .underflow

def descent (t : Text) : Nat → Descent
  | 0 => .going ⟨0,0⟩
  | rounds + 1 => (descent t rounds).next t

def StaysOpen (t : Text) : Prop :=
  ∀ beginning, beginning <+: t → beginning ≠ [] → beginning.count ')' < beginning.count '('

def EvenAt (t : Text) (place : Nat) : Prop :=
  place < t.length ∧ (t.take (place + 1)).count ')' = (t.take (place + 1)).count '('

-- No constructor leads to an underflow.
inductive Followed (t : Text) (rounds : Nat) : Descent → Prop where
  | going (whole : t = front ++ behind) (width : front.length = rounds) (leaves : StaysOpen front)
      (counted : depth + front.count ')' = front.count '(') :
      Followed t rounds (.going ⟨rounds,depth⟩)
  | closed (found : closing? t = some place) (early : place < rounds) :
      Followed t rounds (.closed place)
  | unclosed (leaves : StaysOpen t) (late : t.length < rounds) : Followed t rounds .unclosed

-- The depth is never taken from at zero, and what can count the rounds can hold it.
structure GroupRounds (t : Text) : Prop where
  least : ∀ place, closing? t = some place ↔
    EvenAt t place ∧ ∀ earlier, EvenAt t earlier → place ≤ earlier
  enclosed : ∀ place, closing? t = some place →
    t[place]? = some ')' ∧ Balanced ((t.take place).drop 1)
  unclosed : closing? t = none ↔ StaysOpen t
  going : ∀ rounds nesting, descent t rounds = .going nesting →
    nesting.place = rounds ∧ rounds ≤ t.length ∧ nesting.depth ≤ rounds ∧
      nesting.depth + (t.take rounds).count ')' = (t.take rounds).count '('
  positive : ∀ rounds nesting, descent t rounds = .going nesting →
    t[nesting.place]? = some ')' → 1 ≤ nesting.depth
  safe : ∀ rounds, descent t rounds ≠ .underflow
  closed : ∀ rounds place, descent t rounds = .closed place ↔
    closing? t = some place ∧ place < rounds
  ended : ∀ rounds, descent t rounds = .unclosed ↔ closing? t = none ∧ t.length < rounds

variable {t front behind inside : Text} {place earlier depth fewer rounds : Nat}

theorem staysOpen_nil : StaysOpen [] := by
  intro beginning within filled
  exact False.elim (filled (List.prefix_nil.mp within))

theorem staysOpen_longer (leaves : StaysOpen front)
    (more : (front ++ [c]).count ')' < (front ++ [c]).count '(') : StaysOpen (front ++ [c]) := by
  intro beginning within filled
  rcases List.prefix_concat_iff.mp within with rfl | shorter
  · exact more
  · exact leaves beginning shorter filled

theorem staysOpen_whole (leaves : StaysOpen front) (filled : front ≠ []) :
    front.count ')' < front.count '(' :=
  leaves front (List.prefix_refl front) filled

theorem staysOpen_group : StaysOpen ('(' :: inside) ↔
    ∀ k, (inside.take k).count ')' ≤ (inside.take k).count '(' := by
  constructor
  · intro leaves k
    have within : '(' :: inside.take k <+: '(' :: inside :=
      (List.prefix_cons_inj '(').mpr (List.take_prefix k inside)
    have less := leaves _ within (List.cons_ne_nil _ _)
    simp at less
    omega
  · intro kept beginning within filled
    obtain ⟨c,beginning,rfl⟩ := List.exists_cons_of_ne_nil filled
    obtain ⟨rfl,shorter⟩ := List.cons_prefix_cons.mp within
    have less := kept beginning.length
    rw [← List.prefix_iff_eq_take.mp shorter] at less
    simp
    omega

theorem balanced_group : Balanced inside ↔
    StaysOpen ('(' :: inside) ∧ ('(' :: inside).count '(' = ('(' :: inside).count ')' + 1 := by
  rw [staysOpen_group,Balanced]
  simp [eq_comm]

theorem closing_front (opens : t.head? = some '(') : closing? t = some place ↔
    ∃ front behind, t = front ++ ')' :: behind ∧ place = front.length ∧ StaysOpen front ∧
      front.count '(' = front.count ')' + 1 := by
  rw [closing_exact]
  constructor
  · intro enclosed
    obtain ⟨inside,behind,whole,width,balanced⟩ := enclosed
    obtain ⟨leaves,one⟩ := balanced_group.mp balanced
    exact ⟨'(' :: inside,behind,whole,width,leaves,one⟩
  · intro fronted
    obtain ⟨front,behind,rfl,width,leaves,one⟩ := fronted
    cases front with
    | nil => cases one
    | cons c inside =>
      cases opens
      exact ⟨inside,behind,rfl,width,balanced_group.mpr ⟨leaves,one⟩⟩

theorem closing_even (opens : t.head? = some '(') (found : closing? t = some place) : EvenAt t place := by
  obtain ⟨front,behind,rfl,rfl,_,one⟩ := (closing_front opens).mp found
  have upTo : (front ++ ')' :: behind).take (front.length + 1) = front ++ [')'] := by
    rw [List.take_length_add_append]
    rfl
  refine ⟨by simp,?_⟩
  rw [upTo,List.count_append,List.count_append,one]
  rfl

theorem even_beyond (even : EvenAt t place) (within : front <+: t) (leaves : StaysOpen front) :
    front.length ≤ place := by
  apply Nat.le_of_not_lt
  intro inside
  have upTo : t.take (place + 1) <+: front := by
    apply List.prefix_of_prefix_length_le (List.take_prefix _ t) within
    rw [List.length_take]
    omega
  have filled : t.take (place + 1) ≠ [] := by
    apply List.ne_nil_of_length_pos
    have longer := even.1
    rw [List.length_take]
    omega
  have less := leaves _ upTo filled
  have same := even.2
  omega

theorem even_closed (even : EvenAt t place) : ¬StaysOpen t := by
  intro leaves
  have beyond := even_beyond even (List.prefix_refl t) leaves
  have inside := even.1
  omega

theorem closing_first (opens : t.head? = some '(') (found : closing? t = some place)
    (even : EvenAt t earlier) : place ≤ earlier := by
  obtain ⟨front,behind,rfl,rfl,leaves,_⟩ := (closing_front opens).mp found
  exact even_beyond even (List.prefix_append _ _) leaves

theorem nesting_round (front behind : Text) (c : Char) (depth : Nat) :
    Nesting.round (front ++ c :: behind) ⟨front.length,depth⟩ =
      if c = '(' then .going ⟨front.length + 1,depth + 1⟩
      else if c = ')' then
        match depth with
        | 0 => .underflow
        | fewer + 1 => if fewer = 0 then .closed front.length else .going ⟨front.length + 1,fewer⟩
      else .going ⟨front.length + 1,depth⟩ := by
  simp [Nesting.round]

theorem nesting_ended (front : Text) (depth : Nat) :
    Nesting.round front ⟨front.length,depth⟩ = .unclosed := by
  simp [Nesting.round]

-- Only the first character is read with no group open, and it opens one.
theorem front_filled (opens : (front ++ c :: behind).head? = some '(') (other : c ≠ '(') :
    front ≠ [] := by
  rintro rfl
  cases opens
  exact other rfl

theorem followed_longer (leaves : StaysOpen front)
    (counted : depth + (front ++ [c]).count ')' = (front ++ [c]).count '(') (positive : 0 < depth) :
    Followed (front ++ c :: behind) (front.length + 1) (.going ⟨front.length + 1,depth⟩) := by
  have more : (front ++ [c]).count ')' < (front ++ [c]).count '(' := by omega
  have width : (front ++ [c]).length = front.length + 1 := by simp
  exact .going (List.append_cons front c behind) width (staysOpen_longer leaves more) counted

theorem followed_close (opens : (front ++ ')' :: behind).head? = some '(') (leaves : StaysOpen front)
    (counted : fewer + 1 + front.count ')' = front.count '(') :
    Followed (front ++ ')' :: behind) (front.length + 1)
      (if fewer = 0 then .closed front.length else .going ⟨front.length + 1,fewer⟩) := by
  by_cases last : fewer = 0
  · have one : front.count '(' = front.count ')' + 1 := by omega
    rw [if_pos last]
    exact .closed ((closing_front opens).mpr ⟨front,behind,rfl,rfl,leaves,one⟩) (Nat.lt_succ_self _)
  · rw [if_neg last]
    apply followed_longer leaves
    · simp [List.count_append]
      omega
    · exact Nat.pos_of_ne_zero last

theorem followed_round (opens : (front ++ behind).head? = some '(') (leaves : StaysOpen front)
    (counted : depth + front.count ')' = front.count '(') :
    Followed (front ++ behind) (front.length + 1)
      (Nesting.round (front ++ behind) ⟨front.length,depth⟩) := by
  cases behind with
  | nil =>
    rw [List.append_nil,nesting_ended]
    exact .unclosed leaves (Nat.lt_succ_self _)
  | cons c behind =>
    rw [nesting_round]
    rcases paren_cases c with rfl | rfl | ⟨notOpen,notClose⟩
    · rw [if_pos rfl]
      apply followed_longer leaves
      · simp [List.count_append]
        omega
      · exact Nat.succ_pos depth
    · have less := staysOpen_whole leaves (front_filled opens (by decide))
      obtain ⟨fewer,rfl⟩ : ∃ fewer, depth = fewer + 1 := Nat.exists_eq_succ_of_ne_zero (by omega)
      exact followed_close opens leaves counted
    · have less := staysOpen_whole leaves (front_filled opens notOpen)
      rw [if_neg notOpen,if_neg notClose]
      apply followed_longer leaves
      · simpa [List.count_append,notOpen,notClose] using counted
      · omega

theorem followed_next (opens : t.head? = some '(') (followed : Followed t rounds reached) :
    Followed t (rounds + 1) (reached.next t) := by
  cases followed with
  | going whole width leaves counted =>
    subst whole width
    exact followed_round opens leaves counted
  | closed found early => exact .closed found (Nat.lt_succ_of_lt early)
  | unclosed leaves late => exact .unclosed leaves (Nat.lt_succ_of_lt late)

theorem followed_descent (opens : t.head? = some '(') (rounds : Nat) :
    Followed t rounds (descent t rounds) := by
  induction rounds with
  | zero => exact .going rfl rfl staysOpen_nil rfl
  | succ rounds ih => exact followed_next opens ih

theorem closing_unopened (opens : t.head? = some '(') (leaves : StaysOpen t) : closing? t = none := by
  cases found : closing? t with
  | none => rfl
  | some place => exact False.elim (even_closed (closing_even opens found) leaves)

theorem descent_end (opens : t.head? = some '(') :
    (∃ place, closing? t = some place) ∨ StaysOpen t := by
  have followed := followed_descent opens (t.length + 1)
  generalize descent t (t.length + 1) = reached at followed
  cases followed with
  | going whole width leaves counted =>
    have shorter := congrArg List.length whole
    rw [List.length_append] at shorter
    omega
  | closed found early => exact .inl ⟨_,found⟩
  | unclosed leaves late => exact .inr leaves

theorem closing_none (opens : t.head? = some '(') : closing? t = none ↔ StaysOpen t := by
  constructor
  · intro absent
    rcases descent_end opens with ⟨place,found⟩ | leaves
    · rw [absent] at found
      cases found
    · exact leaves
  · exact closing_unopened opens

theorem closing_least (opens : t.head? = some '(') : closing? t = some place ↔
    EvenAt t place ∧ ∀ earlier, EvenAt t earlier → place ≤ earlier := by
  constructor
  · intro found
    exact ⟨closing_even opens found,fun earlier even => closing_first opens found even⟩
  · rintro ⟨even,least⟩
    rcases descent_end opens with ⟨first,found⟩ | leaves
    · have same := Nat.le_antisymm (closing_first opens found even) (least first (closing_even opens found))
      rw [← same]
      exact found
    · exact False.elim (even_closed even leaves)

theorem closing_enclosed (opens : t.head? = some '(') (found : closing? t = some place) :
    t[place]? = some ')' ∧ Balanced ((t.take place).drop 1) := by
  obtain ⟨inside,behind,rfl,rfl,balanced⟩ := closing_exact.mp found
  simp [balanced]

theorem going_parts (opens : t.head? = some '(') (going : descent t rounds = .going nesting) :
    ∃ front behind, t = front ++ behind ∧ front.length = rounds ∧ StaysOpen front ∧
      nesting.place = rounds ∧ nesting.depth + front.count ')' = front.count '(' := by
  have followed := followed_descent opens rounds
  rw [going] at followed
  cases followed with
  | going whole width leaves counted => exact ⟨_,_,whole,width,leaves,rfl,counted⟩

theorem descent_closed (opens : t.head? = some '(') :
    descent t rounds = .closed place ↔ closing? t = some place ∧ place < rounds := by
  have followed := followed_descent opens rounds
  constructor
  · intro ended
    rw [ended] at followed
    cases followed with
    | closed found early => exact ⟨found,early⟩
  · rintro ⟨found,early⟩
    generalize descent t rounds = reached at followed ⊢
    cases followed with
    | going whole width leaves counted =>
      have beyond := even_beyond (closing_even opens found) ⟨_,whole.symm⟩ leaves
      omega
    | closed same _ =>
      rw [found] at same
      rw [Option.some.inj same]
    | unclosed leaves _ =>
      rw [closing_unopened opens leaves] at found
      cases found

theorem descent_unclosed (opens : t.head? = some '(') :
    descent t rounds = .unclosed ↔ closing? t = none ∧ t.length < rounds := by
  have followed := followed_descent opens rounds
  constructor
  · intro ended
    rw [ended] at followed
    cases followed with
    | unclosed leaves late => exact ⟨closing_unopened opens leaves,late⟩
  · rintro ⟨absent,late⟩
    generalize descent t rounds = reached at followed ⊢
    cases followed with
    | going whole width leaves counted =>
      have shorter := congrArg List.length whole
      rw [List.length_append] at shorter
      omega
    | closed found _ =>
      rw [absent] at found
      cases found
    | unclosed leaves _ => rfl

theorem group_rounds (opens : t.head? = some '(') : GroupRounds t := by
  constructor
  case least => exact fun place => closing_least opens
  case enclosed => exact fun place found => closing_enclosed opens found
  case unclosed => exact closing_none opens
  case going =>
    intro rounds nesting going
    obtain ⟨front,behind,rfl,rfl,_,here,counted⟩ := going_parts opens going
    have opened : front.count '(' ≤ front.length := List.count_le_length
    rw [List.take_left]
    exact ⟨here,by simp,by omega,counted⟩
  case positive =>
    intro rounds nesting going closing
    obtain ⟨front,behind,rfl,rfl,leaves,here,counted⟩ := going_parts opens going
    rw [here,List.getElem?_append_right (Nat.le_refl _),Nat.sub_self,← List.head?_eq_getElem?] at closing
    obtain ⟨later,rfl⟩ := List.head?_eq_some_iff.mp closing
    have less := staysOpen_whole leaves (front_filled opens (by decide))
    omega
  case safe =>
    intro rounds sunk
    have followed := followed_descent opens rounds
    rw [sunk] at followed
    cases followed
  case closed => exact fun rounds place => descent_closed opens
  case ended => exact fun rounds => descent_unclosed opens

theorem group_rounds_nested :
    "(a(b))c)".toList.head? = some '(' ∧ closing? "(a(b))c)".toList = some 5 ∧
    (∀ earlier, EvenAt "(a(b))c)".toList earlier → 5 ≤ earlier) ∧
    descent "(a(b))c)".toList 5 = .going ⟨5,1⟩ ∧ descent "(a(b))c)".toList 6 = .closed 5 ∧
    "((a)".toList.head? = some '(' ∧ StaysOpen "((a)".toList ∧
    descent "((a)".toList 5 = .unclosed := by
  have nested : GroupRounds "(a(b))c)".toList := group_rounds rfl
  have twice : GroupRounds "((a)".toList := group_rounds rfl
  have found : closing? "(a(b))c)".toList = some 5 := by decide
  have absent : closing? "((a)".toList = none := by decide
  exact ⟨rfl,found,((nested.least 5).mp found).2,by decide,(nested.closed 6 5).mpr ⟨found,by decide⟩,
    rfl,twice.unclosed.mp absent,(twice.ended 5).mpr ⟨absent,by decide⟩⟩

-- A text that does not open a group may take from a depth of zero.
example : descent "a)(".toList 2 = .underflow := by decide

end ColumnTypes
