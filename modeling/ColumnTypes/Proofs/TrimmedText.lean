import ColumnTypes.Proofs.FirstCut
namespace ColumnTypes

def Blank (t : Text) : Prop := ∀ c ∈ t, isBlank c = true

structure Led (t front : Text) (first : Char) (rest : Text) : Prop where
  whole : t = front ++ first :: rest
  blank : Blank front
  solid : isBlank first = false

theorem space_blank : Blank [' '] := by
  intro c member
  cases List.mem_singleton.mp member
  rfl

theorem blank_or_led (t : Text) : Blank t ∨ ∃ front first rest, Led t front first rest := by
  obtain ⟨front,behind,rfl,cut⟩ := firstCut_exists (fun c => !isBlank c) t
  have blank : Blank front := fun c member => by simpa using cut.inside c member
  cases behind with
  | nil => exact .inl (by simpa using blank)
  | cons c rest =>
    have solid := cut.boundary c rfl
    exact .inr ⟨front,c,rest,rfl,blank,by simpa using solid⟩

theorem trimStart_blank (blank : Blank front) : trimStart (front ++ t) = trimStart t := by
  unfold trimStart
  exact List.dropWhile_append_of_pos blank

theorem trimEnd_cons (solid : isBlank c = false) : trimEnd (c :: t) = c :: trimEnd t := by
  unfold trimEnd
  rw [List.reverse_cons,List.dropWhile_append]
  split
  · rename_i empty
    have nothing : t.reverse.dropWhile isBlank = [] := by simpa using empty
    simp [nothing,solid]
  · simp

theorem trimEnd_beginning (t : Text) : trimEnd t <+: t := by
  have tail := List.dropWhile_suffix (l := t.reverse) isBlank
  simpa [trimEnd] using List.reverse_prefix.mpr tail

theorem trim_blank (blank : Blank t) : trim t = [] := by
  have start := trimStart_blank (t := []) blank
  rw [List.append_nil] at start
  rw [trim,start]
  rfl

theorem trim_blank_append (blank : Blank front) : trim (front ++ t) = trim t := by
  rw [trim,trimStart_blank blank,trim]

theorem trim_led (led : Led t front first rest) : trim t = first :: trimEnd rest := by
  obtain ⟨rfl,blank,solid⟩ := led
  have start : trimStart (front ++ first :: rest) = first :: rest := by
    rw [trimStart_blank blank]
    simp [trimStart,solid]
  rw [trim,start,trimEnd_cons solid]

theorem trim_empty : trim t = [] ↔ Blank t := by
  constructor
  · intro empty
    rcases blank_or_led t with blank | ⟨front,first,rest,led⟩
    · exact blank
    · rw [trim_led led] at empty
      cases empty
  · exact trim_blank

theorem trimEnd_append_blank (blank : Blank behind) : trimEnd (t ++ behind) = trimEnd t := by
  have passed : ∀ c ∈ behind.reverse, isBlank c = true :=
    fun c member => blank c (List.mem_reverse.mp member)
  rw [trimEnd,List.reverse_append,List.dropWhile_append_of_pos passed,trimEnd]

theorem trim_append_blank (blank : Blank behind) : trim (t ++ behind) = trim t := by
  rcases blank_or_led t with nothing | ⟨front,first,rest,led⟩
  · rw [trim_blank_append nothing,trim_blank blank,trim_blank nothing]
  · have longer : Led (t ++ behind) front first (rest ++ behind) :=
      ⟨by simp [led.whole],led.blank,led.solid⟩
    rw [trim_led longer,trim_led led,trimEnd_append_blank blank]

theorem trim_padded (before : Blank front) (after : Blank behind) :
    trim (front ++ t ++ behind) = trim t := by
  rw [trim_append_blank after,trim_blank_append before]

structure Trimmed (t : Text) : Prop where
  start : ∀ c, t.head? = some c → isBlank c = false
  finish : ∀ c, t.getLast? = some c → isBlank c = false

instance (t : Text) : Decidable (Trimmed t) :=
  decidable_of_iff (t.head?.all (fun c => !isBlank c) = true ∧ t.getLast?.all (fun c => !isBlank c) = true)
    ⟨fun ends => ⟨by simpa [Option.all_eq_true] using ends.1,by simpa [Option.all_eq_true] using ends.2⟩,
      fun trimmed => ⟨by simpa [Option.all_eq_true] using trimmed.start,
        by simpa [Option.all_eq_true] using trimmed.finish⟩⟩

theorem dropWhile_start {t : Text} (start : ∀ c, t.head? = some c → isBlank c = false) :
    t.dropWhile isBlank = t := by
  cases t with
  | nil => rfl
  | cons c rest => simp [start c rfl]

theorem trimEnd_kept {t : Text} (finish : ∀ c, t.getLast? = some c → isBlank c = false) :
    trimEnd t = t := by
  have start : ∀ c, t.reverse.head? = some c → isBlank c = false := by
    intro c last
    rw [List.head?_reverse] at last
    exact finish c last
  rw [trimEnd,dropWhile_start start,List.reverse_reverse]

theorem trim_trimmed {t : Text} (trimmed : Trimmed t) : trim t = t := by
  rw [trim,trimStart,dropWhile_start trimmed.start]
  exact trimEnd_kept trimmed.finish

theorem trim_subset (t : Text) : ∀ c ∈ trim t, c ∈ t := by
  intro c member
  have behind := List.dropWhile_suffix (l := t) isBlank
  exact behind.subset ((trimEnd_beginning (trimStart t)).subset member)

theorem dropWhile_solid {t : Text} (member : c ∈ t) (solid : isBlank c = false) :
    c ∈ t.dropWhile isBlank := by
  rw [← List.takeWhile_append_dropWhile (p := isBlank) (l := t)] at member
  rcases List.mem_append.mp member with before | behind
  · have blank := List.all_eq_true.mp List.all_takeWhile c before
    rw [solid] at blank
    cases blank
  · exact behind

theorem trim_solid {t : Text} (member : c ∈ t) (solid : isBlank c = false) : c ∈ trim t := by
  have started : c ∈ trimStart t := dropWhile_solid member solid
  have ended := dropWhile_solid (List.mem_reverse.mpr started) solid
  exact List.mem_reverse.mpr ended

theorem trimEnd_finish {t : Text} (last : (trimEnd t).getLast? = some c) : isBlank c = false := by
  have refused := List.head?_dropWhile_not isBlank t.reverse
  rw [trimEnd,List.getLast?_reverse] at last
  rw [last] at refused
  simpa using refused

theorem trimmed_trim (t : Text) : Trimmed (trim t) := by
  refine ⟨?_,fun c last => trimEnd_finish last⟩
  rcases blank_or_led t with blank | ⟨front,first,rest,led⟩
  · rw [trim_blank blank]
    intro c start
    cases start
  · rw [trim_led led]
    intro c start
    cases start
    exact led.solid

end ColumnTypes
