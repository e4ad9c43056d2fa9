import ColumnTypes.Text
namespace ColumnTypes

-- A text cut in front of its first stop character. Every scan of this library
-- is such a cut; a text has exactly one for each kind of stop.
structure FirstCut (stops : Char → Bool) (front rest : Text) : Prop where
  inside : ∀ c ∈ front, stops c = false
  boundary : ∀ c, rest.head? = some c → stops c = true

theorem firstCut_exists (stops : Char → Bool) (t : Text) :
    ∃ front rest, t = front ++ rest ∧ FirstCut stops front rest := by
  refine ⟨t.takeWhile fun c => !stops c,t.dropWhile fun c => !stops c,?_,?_,?_⟩
  · exact List.takeWhile_append_dropWhile.symm
  · intro c member
    have passed := List.all_eq_true.mp (List.all_takeWhile (p := fun c => !stops c) (l := t)) c member
    simpa using passed
  · intro c first
    have refused := List.head?_dropWhile_not (fun c => !stops c) t
    rw [first] at refused
    simpa using refused

theorem FirstCut.takeWhile (cut : FirstCut stops front rest) :
    (front ++ rest).takeWhile (fun c => !stops c) = front := by
  have passed : ∀ c ∈ front, (!stops c) = true := fun c member => by simp [cut.inside c member]
  rw [List.takeWhile_append_of_pos passed]
  cases rest with
  | nil => simp
  | cons c rest => simp [cut.boundary c rfl]

theorem FirstCut.dropWhile (cut : FirstCut stops front rest) :
    (front ++ rest).dropWhile (fun c => !stops c) = rest := by
  have passed : ∀ c ∈ front, (!stops c) = true := fun c member => by simp [cut.inside c member]
  rw [List.dropWhile_append_of_pos passed]
  cases rest with
  | nil => rfl
  | cons c rest => simp [cut.boundary c rfl]

theorem FirstCut.unique (one : FirstCut stops front rest) (other : FirstCut stops front' rest')
    (same : front ++ rest = front' ++ rest') : front = front' ∧ rest = rest' := by
  constructor
  · rw [← one.takeWhile,same,other.takeWhile]
  · rw [← one.dropWhile,same,other.dropWhile]

theorem firstCut_at (inside : ∀ c ∈ front, stops c = false) (stop : stops c = true) :
    FirstCut stops front (c :: rest) :=
  ⟨inside,fun first same => by cases same; exact stop⟩

end ColumnTypes
