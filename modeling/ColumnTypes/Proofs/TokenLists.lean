import ColumnTypes.Proofs.ModifierList
namespace ColumnTypes
variable {tokens : List Text} {t padding : Text}

theorem afterCommas_ending (member : start ∈ afterCommas t) : start <:+ t := by
  induction t with
  | nil => cases member
  | cons c rest ih =>
    rw [afterCommas] at member
    split at member
    · rcases List.mem_cons.mp member with rfl | later
      · exact List.suffix_cons c start
      · exact (ih later).trans (List.suffix_cons c rest)
    · exact (ih member).trans (List.suffix_cons c rest)

theorem field_within (member : field ∈ modifierFields t) : field ⊆ t := by
  obtain ⟨start,listed,rfl⟩ := List.mem_map.mp member
  have cut : start.takeWhile (fun c => !(c == ',')) ⊆ start := (List.takeWhile_prefix _).subset
  rcases List.mem_cons.mp listed with rfl | later
  · exact cut
  · exact fun c inside => (afterCommas_ending later).subset (cut inside)

theorem padding_fields (padding : ∀ c ∈ t, c = ',' ∨ isBlank c = true) :
    ∀ field ∈ modifierFields t, Blank field := by
  intro field member c inside
  rcases padding c (field_within member inside) with rfl | blank
  · exact False.elim (field_separate member inside)
  · exact blank

theorem modifierTokens_padded (padding : ∀ c ∈ behind, c = ',' ∨ isBlank c = true) (t : Text) :
    modifierTokens (t ++ ',' :: behind) = modifierTokens t := by
  have empty : ∀ token ∈ (modifierFields behind).map trim, token = [] := by
    intro token member
    obtain ⟨field,listed,rfl⟩ := List.mem_map.mp member
    exact trim_blank (padding_fields padding field listed)
  rw [modifierTokens,modifierFields_comma,List.map_append]
  exact dropTrailingEmpty_padded empty _

theorem tokens_clean_iff : (∃ t, modifierTokens t = tokens) ↔ CleanTokens tokens := by
  constructor
  · rintro ⟨t,rfl⟩
    exact modifierTokens_clean t
  · intro clean
    exact ⟨joinTokens tokens,modifierTokens_join clean⟩

theorem tokens_inverse :
    (∀ tokens, (∃ t, modifierTokens t = tokens) ↔ CleanTokens tokens) ∧
    (∀ tokens, CleanTokens tokens → modifierTokens (joinTokens tokens) = tokens) ∧
    (∀ t, modifierTokens (joinTokens (modifierTokens t)) = modifierTokens t) ∧
    ∀ t padding, (∀ c ∈ padding, c = ',' ∨ isBlank c = true) →
      modifierTokens (t ++ ',' :: padding) = modifierTokens t := by
  refine ⟨fun _ => tokens_clean_iff,fun _ clean => modifierTokens_join clean,?_,?_⟩
  · intro t
    exact modifierTokens_join (modifierTokens_clean t)
  · intro t padding only
    exact modifierTokens_padded only t

theorem tokens_inverse_padded :
    CleanTokens [[],"a b".toList,[],"7".toList] ∧
    modifierTokens (joinTokens [[],"a b".toList,[],"7".toList]) = [[],"a b".toList,[],"7".toList] ∧
    (∀ c ∈ " ,\t,".toList, c = ',' ∨ isBlank c = true) ∧
    modifierTokens (" , a b ,,7".toList ++ ',' :: " ,\t,".toList) = modifierTokens " , a b ,,7".toList := by
  obtain ⟨_,joined,_,padded⟩ := tokens_inverse
  have clean : CleanTokens [[],"a b".toList,[],"7".toList] := by decide
  have padding : ∀ c ∈ " ,\t,".toList, c = ',' ∨ isBlank c = true := by
    simp [isBlank]
  exact ⟨clean,joined _ clean,padding,padded _ _ padding⟩

end ColumnTypes
