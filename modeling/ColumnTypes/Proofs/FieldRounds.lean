import ColumnTypes.Proofs.TokenLists
namespace ColumnTypes
variable {t front field behind : Text} {fields : List Text}

-- The loop that cuts a list by positions. A round reads from `start` up to the
-- next comma or, where there is none, to the end of the text.
structure Cursor where
  start : Nat
  tokens : List Text
deriving DecidableEq, Repr

inductive Progress where
  | going (cursor : Cursor)
  | ended (tokens : List Text)
  | outOfRange
deriving DecidableEq, Repr

def commaFrom? (t : Text) (start : Nat) : Option Nat :=
  ((t.drop start).findIdx? (· == ',')).map (start + ·)

-- A part of a text can be taken from a place inside it or from its very end.
def slice? (t : Text) (start length : Nat) : Option Text :=
  if start ≤ t.length then some ((t.drop start).take length) else none

def Cursor.round (t : Text) (cursor : Cursor) : Progress :=
  match commaFrom? t cursor.start with
  | some comma =>
    match slice? t cursor.start (comma - cursor.start) with
    | some field => .going ⟨comma + 1,cursor.tokens ++ [trim field]⟩
    | none => .outOfRange
  | none =>
    match slice? t cursor.start t.length with
    | some field => .ended (cursor.tokens ++ [trim field])
    | none => .outOfRange

def Progress.next (t : Text) : Progress → Progress
  | .going cursor => cursor.round t
  | .ended tokens => .ended tokens
  | .outOfRange => .outOfRange

def progress (t : Text) : Nat → Progress
  | 0 => .going ⟨0,[]⟩
  | rounds + 1 => (progress t rounds).next t

structure SplitInto (t : Text) (fields : List Text) : Prop where
  inhabited : fields ≠ []
  separate : ∀ field ∈ fields, ',' ∉ field
  joined : joinTokens fields = t

def KeepsUntil (fields : List Text) (kept : Nat) : Prop :=
  (∀ place field, kept ≤ place → fields[place]? = some field → Blank field) ∧
  ∀ place, kept = place + 1 → ∃ field, fields[place]? = some field ∧ ¬Blank field

structure FieldRounds (t : Text) (fields : List Text) : Prop where
  count : fields.length = t.count ',' + 1
  going : ∀ place field, fields[place]? = some field → ∃ start,
    progress t place = .going ⟨start,(fields.take place).map trim⟩ ∧ start ≤ t.length ∧
      (t.take start).count ',' = place ∧ field <+: t.drop start ∧
      (t :: afterCommas t)[place]? = some (t.drop start)
  ended : progress t fields.length = .ended (fields.map trim)
  dropped : modifierTokens t = dropTrailingEmpty (fields.map trim)
  length : KeepsUntil fields (modifierTokens t).length
  placed : ∀ place field, place < (modifierTokens t).length → fields[place]? = some field →
    (modifierTokens t)[place]? = some (trim field)

theorem splitInto_exact : SplitInto t fields ↔ modifierFields t = fields := by
  constructor
  · intro split
    rw [← split.joined]
    exact modifierFields_join split.inhabited split.separate
  · rintro rfl
    refine ⟨by simp [modifierFields],fun field member => field_separate member,?_⟩
    rw [joinTokens,modifierFields_splitOn]
    exact List.intercalate_splitOn ','

theorem findComma_none (free : ',' ∉ field) : field.findIdx? (· == ',') = none := by
  rw [List.findIdx?_eq_none_iff]
  intro c member
  have other : c ≠ ',' := by
    rintro rfl
    exact free member
  simpa using other

theorem commaFrom_found (free : ',' ∉ field) (front behind : Text) :
    commaFrom? (front ++ (field ++ ',' :: behind)) front.length = some (front.length + field.length) := by
  rw [commaFrom?,List.drop_left,List.findIdx?_append,findComma_none free,List.findIdx?_cons]
  simp

theorem commaFrom_none (free : ',' ∉ field) (front : Text) :
    commaFrom? (front ++ field) front.length = none := by
  rw [commaFrom?,List.drop_left,findComma_none free]
  rfl

theorem slice_behind (front behind : Text) (length : Nat) :
    slice? (front ++ behind) front.length length = some (behind.take length) := by
  have inside : front.length ≤ (front ++ behind).length := by simp
  rw [slice?,if_pos inside,List.drop_left]

theorem round_going (free : ',' ∉ field) (front behind : Text) (tokens : List Text) :
    Cursor.round (front ++ (field ++ ',' :: behind)) ⟨front.length,tokens⟩ =
      .going ⟨(front ++ field ++ [',']).length,tokens ++ [trim field]⟩ := by
  have width : front.length + field.length - front.length = field.length := by omega
  simp only [Cursor.round,commaFrom_found free,slice_behind,width,List.take_left]
  simp [Nat.add_assoc]

theorem round_ended (free : ',' ∉ field) (front : Text) (tokens : List Text) :
    Cursor.round (front ++ field) ⟨front.length,tokens⟩ = .ended (tokens ++ [trim field]) := by
  have enough : field.take (front ++ field).length = field := by
    apply List.take_of_length_le
    simp
  simp only [Cursor.round,commaFrom_none free,slice_behind,enough]

theorem joinTokens_longer (rest : fields ≠ []) (field : Text) :
    joinTokens (field :: fields) = field ++ ',' :: joinTokens fields := by
  obtain ⟨next,later,rfl⟩ := List.exists_cons_of_ne_nil rest
  simp [joinTokens,List.intercalate_cons_cons]

theorem joinTokens_beginning (field : Text) (fields : List Text) :
    field <+: joinTokens (field :: fields) := by
  cases fields with
  | nil => simp [joinTokens]
  | cons next later =>
    rw [joinTokens_longer (List.cons_ne_nil next later)]
    exact List.prefix_append field _

theorem afterCommas_free (free : ',' ∉ field) (behind : Text) :
    afterCommas (field ++ ',' :: behind) = behind :: afterCommas behind := by
  induction field with
  | nil => rfl
  | cons c field ih =>
    obtain ⟨other,rest⟩ := not_or.mp (mt List.mem_cons.mpr free)
    rw [List.cons_append,afterCommas,if_neg (Ne.symm other),ih rest]

theorem starts_at (separate : ∀ field ∈ fields, ',' ∉ field) (inside : place < fields.length) :
    (joinTokens fields :: afterCommas (joinTokens fields))[place]? =
      some (joinTokens (fields.drop place)) := by
  induction place generalizing fields with
  | zero => rfl
  | succ place ih =>
    cases fields with
    | nil => cases inside
    | cons field later =>
      obtain ⟨free,rest⟩ := List.forall_mem_cons.mp separate
      have more : place < later.length := by simpa using inside
      have longer : later ≠ [] := List.ne_nil_of_length_pos (by omega)
      rw [joinTokens_longer longer,afterCommas_free free]
      exact ih rest more

theorem progress_going (split : SplitInto t fields) (inside : place < fields.length) :
    ∃ front, progress t place = .going ⟨front.length,(fields.take place).map trim⟩ ∧
      t = front ++ joinTokens (fields.drop place) ∧ front.count ',' = place := by
  -- A round moves one field and the comma behind it into the front.
  induction place with
  | zero => exact ⟨[],rfl,split.joined.symm,rfl⟩
  | succ place ih =>
    obtain ⟨front,going,whole,commas⟩ := ih (by omega)
    have here : place < fields.length := by omega
    have free : ',' ∉ fields[place] := split.separate _ (List.getElem_mem here)
    have more : fields.drop (place + 1) ≠ [] := by simpa using inside
    rw [List.drop_eq_getElem_cons here,joinTokens_longer more] at whole
    refine ⟨front ++ fields[place] ++ [','],?_,?_,?_⟩
    · have round := round_going free front (joinTokens (fields.drop (place + 1)))
        ((fields.take place).map trim)
      rw [← whole] at round
      have longer : (fields.take (place + 1)).map trim =
          (fields.take place).map trim ++ [trim fields[place]] := by
        rw [List.take_add_one,List.getElem?_eq_getElem here,List.map_append]
        rfl
      rw [progress,going,longer]
      exact round
    · simpa using whole
    · simp [List.count_append,commas,List.count_eq_zero.mpr free]

theorem progress_last (split : SplitInto t fields) : ∃ before last front,
    fields = before ++ [last] ∧ ',' ∉ last ∧ t = front ++ last ∧ front.count ',' = before.length ∧
      progress t before.length = .going ⟨front.length,before.map trim⟩ := by
  rcases List.eq_nil_or_concat fields with empty | ⟨before,last,rfl⟩
  · exact False.elim (split.inhabited empty)
  · rw [List.concat_eq_append] at split ⊢
    have inside : before.length < (before ++ [last]).length := by simp
    obtain ⟨front,going,whole,commas⟩ := progress_going split inside
    rw [List.take_left] at going
    rw [List.drop_left] at whole
    refine ⟨before,last,front,rfl,split.separate last (by simp),?_,commas,going⟩
    simpa [joinTokens] using whole

theorem progress_ended (split : SplitInto t fields) :
    progress t fields.length = .ended (fields.map trim) := by
  obtain ⟨before,last,front,rfl,free,rfl,_,going⟩ := progress_last split
  rw [List.length_append,List.length_singleton,progress,going,List.map_append]
  exact round_ended free front (before.map trim)

theorem split_count (split : SplitInto t fields) : fields.length = t.count ',' + 1 := by
  obtain ⟨before,last,front,rfl,free,rfl,commas,_⟩ := progress_last split
  simp [List.count_append,commas,List.count_eq_zero.mpr free]

theorem kept_token (fields : List Text)
    (inside : place < (dropTrailingEmpty (fields.map trim)).length) :
    (dropTrailingEmpty (fields.map trim))[place]? = fields[place]?.map trim := by
  obtain ⟨behind,whole,_⟩ := dropTrailingEmpty_behind (fields.map trim)
  have token : (dropTrailingEmpty (fields.map trim) ++ behind)[place]? =
      (dropTrailingEmpty (fields.map trim))[place]? := List.getElem?_append_left inside
  rw [← token,← whole,List.getElem?_map]

theorem kept_until (fields : List Text) :
    KeepsUntil fields (dropTrailingEmpty (fields.map trim)).length := by
  constructor
  · intro place field beyond listed
    obtain ⟨behind,whole,empty⟩ := dropTrailingEmpty_behind (fields.map trim)
    have token : (fields.map trim)[place]? = some (trim field) := by simp [listed]
    rw [whole,List.getElem?_append_right beyond] at token
    exact trim_empty.mp (empty _ (List.mem_of_getElem? token))
  · intro place last
    have inside : place < (dropTrailingEmpty (fields.map trim)).length := by omega
    have token := kept_token fields inside
    rw [List.getElem?_eq_getElem inside] at token
    obtain ⟨field,listed,_⟩ := Option.map_eq_some_iff.mp token.symm
    have final : (dropTrailingEmpty (fields.map trim)).getLast? = some (trim field) := by
      rw [List.getLast?_eq_getElem?,last,Nat.add_sub_cancel,kept_token fields inside,listed]
      rfl
    exact ⟨field,listed,fun blank => dropTrailingEmpty_last final (trim_blank blank)⟩

theorem split_rounds (split : SplitInto t fields) : FieldRounds t fields := by
  have dropped : modifierTokens t = dropTrailingEmpty (fields.map trim) := by
    rw [modifierTokens,splitInto_exact.mp split]
  constructor
  case count => exact split_count split
  case going =>
    intro place field listed
    obtain ⟨inside,here⟩ := List.getElem?_eq_some_iff.mp listed
    obtain ⟨front,going,whole,commas⟩ := progress_going split inside
    have left : t.drop front.length = joinTokens (fields.drop place) := by
      rw [whole,List.drop_left]
    have starts := starts_at split.separate inside
    rw [split.joined,← left] at starts
    refine ⟨front.length,going,?_,?_,?_,starts⟩
    · simp [whole]
    · rw [whole,List.take_left]
      exact commas
    · rw [left,List.drop_eq_getElem_cons inside,here]
      exact joinTokens_beginning field _
  case ended => exact progress_ended split
  case dropped => exact dropped
  case length =>
    rw [dropped]
    exact kept_until fields
  case placed =>
    intro place field inside listed
    rw [dropped] at inside ⊢
    rw [kept_token fields inside,listed]
    rfl

-- One round for each field and no start beyond the end of the text. A token has
-- the place of its field, which is the number of commas in front of it.
theorem field_rounds (t : Text) : ∃ fields,
    (∀ other, SplitInto t other ↔ other = fields) ∧ FieldRounds t fields := by
  refine ⟨modifierFields t,?_,split_rounds (splitInto_exact.mpr rfl)⟩
  intro other
  rw [splitInto_exact]
  exact eq_comm

example : progress "a, ,b,".toList 3 = .going ⟨6,["a".toList,[],"b".toList]⟩ ∧
    progress "a, ,b,".toList 4 = .ended ["a".toList,[],"b".toList,[]] ∧
    modifierTokens "a, ,b,".toList = ["a".toList,[],"b".toList] := by decide

end ColumnTypes
