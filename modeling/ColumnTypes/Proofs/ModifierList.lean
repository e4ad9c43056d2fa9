import ColumnTypes.Modifiers
import ColumnTypes.Proofs.TrimmedText
namespace ColumnTypes
variable {tokens : List Text}

def joinTokens (tokens : List Text) : Text := [','].intercalate tokens

structure CleanTokens (tokens : List Text) : Prop where
  separate : ∀ token ∈ tokens, ',' ∉ token
  trimmed : ∀ token ∈ tokens, Trimmed token
  ended : ∀ token, tokens.getLast? = some token → token ≠ []

instance (tokens : List Text) : Decidable (CleanTokens tokens) :=
  decidable_of_iff ((∀ token ∈ tokens, ',' ∉ token) ∧ (∀ token ∈ tokens, Trimmed token) ∧
      ∀ token ∈ tokens.getLast?, token ≠ [])
    ⟨fun clean => ⟨clean.1,clean.2.1,clean.2.2⟩,
      fun clean => ⟨clean.separate,clean.trimmed,clean.ended⟩⟩

theorem modifierFields_splitOn (t : Text) : modifierFields t = t.splitOn ',' := by
  induction t with
  | nil => rfl
  | cons c rest ih =>
    rw [List.splitOn_cons_eq_if_modifyHead,← ih]
    by_cases comma : c = ','
    · simp [modifierFields,afterCommas,comma]
    · simp [modifierFields,afterCommas,comma]

theorem modifierFields_cons (c : Char) (rest : Text) : modifierFields (c :: rest) =
    if c = ',' then [] :: modifierFields rest else (modifierFields rest).modifyHead (c :: ·) := by
  simp [modifierFields_splitOn,List.splitOn_cons_eq_if_modifyHead]

theorem modifierFields_comma (front behind : Text) :
    modifierFields (front ++ ',' :: behind) = modifierFields front ++ modifierFields behind := by
  simp only [modifierFields_splitOn]
  exact List.splitOn_append_cons_self front behind

theorem modifierFields_longer (t : Text) : ∃ front last, ∀ gap : Text, ',' ∉ gap →
    modifierFields (t ++ gap) = front ++ [last ++ gap] := by
  induction t with
  | nil =>
    refine ⟨[],[],?_⟩
    intro gap free
    exact (modifierFields_splitOn gap).trans (List.splitOn_eq_singleton free)
  | cons c t ih =>
    obtain ⟨front,last,fields⟩ := ih
    by_cases comma : c = ','
    · refine ⟨[] :: front,last,?_⟩
      intro gap free
      rw [List.cons_append,modifierFields_cons,if_pos comma,fields gap free,List.cons_append]
    · cases front with
      | nil =>
        refine ⟨[],c :: last,?_⟩
        intro gap free
        rw [List.cons_append,modifierFields_cons,if_neg comma,fields gap free]
        rfl
      | cons first front =>
        refine ⟨(c :: first) :: front,last,?_⟩
        intro gap free
        rw [List.cons_append,modifierFields_cons,if_neg comma,fields gap free]
        rfl

theorem modifierFields_join (inhabited : tokens ≠ []) (separate : ∀ token ∈ tokens, ',' ∉ token) :
    modifierFields (joinTokens tokens) = tokens := by
  rw [modifierFields_splitOn]
  exact List.splitOn_intercalate ',' separate inhabited

theorem dropTrailingEmpty_ended (ended : ∀ token, tokens.getLast? = some token → token ≠ []) :
    dropTrailingEmpty tokens = tokens := by
  rcases List.eq_nil_or_concat tokens with rfl | ⟨front,last,rfl⟩
  · rfl
  · have filled : last ≠ [] := ended last (by simp)
    simp [dropTrailingEmpty,filled]

theorem modifierTokens_join (clean : CleanTokens tokens) : modifierTokens (joinTokens tokens) = tokens := by
  by_cases inhabited : tokens = []
  · subst tokens
    rfl
  · have kept : tokens.map trim = tokens := by
      have each : ∀ token ∈ tokens, trim token = id token :=
        fun token member => trim_trimmed (clean.trimmed token member)
      rw [List.map_congr_left each,List.map_id]
    rw [modifierTokens,modifierFields_join inhabited clean.separate,kept]
    exact dropTrailingEmpty_ended clean.ended

theorem joinTokens_nonempty (clean : CleanTokens tokens) (inhabited : tokens ≠ []) :
    joinTokens tokens ≠ [] := by
  intro empty
  have again := modifierTokens_join clean
  rw [empty] at again
  exact inhabited again.symm

theorem field_separate (member : token ∈ modifierFields t) : ',' ∉ token := by
  obtain ⟨start,_,rfl⟩ := List.mem_map.mp member
  intro comma
  have passed := List.all_eq_true.mp List.all_takeWhile ',' comma
  simp at passed

theorem dropTrailingEmpty_behind (tokens : List Text) :
    ∃ behind, tokens = dropTrailingEmpty tokens ++ behind ∧ ∀ token ∈ behind, token = [] := by
  refine ⟨(tokens.reverse.takeWhile List.isEmpty).reverse,?_,?_⟩
  · rw [dropTrailingEmpty,← List.reverse_append,List.takeWhile_append_dropWhile,List.reverse_reverse]
  · intro token member
    have passed := List.all_eq_true.mp List.all_takeWhile token (List.mem_reverse.mp member)
    exact List.isEmpty_iff.mp passed

theorem dropTrailingEmpty_padded (empty : ∀ token ∈ behind, token = []) (front : List Text) :
    dropTrailingEmpty (front ++ behind) = dropTrailingEmpty front := by
  have passed : ∀ token ∈ behind.reverse, token.isEmpty = true := by
    intro token member
    simp [empty token (List.mem_reverse.mp member)]
  rw [dropTrailingEmpty,List.reverse_append,List.dropWhile_append_of_pos passed,dropTrailingEmpty]

theorem dropTrailingEmpty_beginning (tokens : List Text) : dropTrailingEmpty tokens <+: tokens := by
  obtain ⟨behind,whole,_⟩ := dropTrailingEmpty_behind tokens
  exact ⟨behind,whole.symm⟩

theorem dropTrailingEmpty_last (last : (dropTrailingEmpty tokens).getLast? = some token) : token ≠ [] := by
  have refused := List.head?_dropWhile_not List.isEmpty tokens.reverse
  rw [dropTrailingEmpty,List.getLast?_reverse] at last
  rw [last] at refused
  simpa using refused

theorem modifierTokens_clean (t : Text) : CleanTokens (modifierTokens t) := by
  have trimmedField : ∀ token ∈ modifierTokens t, ∃ field ∈ modifierFields t, trim field = token :=
    fun token member => List.mem_map.mp ((dropTrailingEmpty_beginning _).subset member)
  constructor
  case separate =>
    intro token member comma
    obtain ⟨field,listed,rfl⟩ := trimmedField token member
    exact field_separate listed (trim_subset field ',' comma)
  case trimmed =>
    intro token member
    obtain ⟨field,_,rfl⟩ := trimmedField token member
    exact trimmed_trim field
  case ended =>
    intro token last
    exact dropTrailingEmpty_last last

end ColumnTypes
