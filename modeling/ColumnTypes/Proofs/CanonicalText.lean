import ColumnTypes.Proofs.ArrayMarks
import ColumnTypes.Proofs.ParseOutcome
namespace ColumnTypes
variable {body : Body} {spelling : Spelling} {reading : Reading}

theorem schemaPrefix_lead (reading : Reading) : reading.schemaPrefix = schemaLead reading.schema := by
  unfold Reading.schemaPrefix schemaLead
  split <;> simp [*]

theorem canonical_text (reading : Reading) : reading.canonical =
    schemaLead reading.schema ++ reading.fullType ++ if reading.isArray then arrayMark else [] := by
  rw [Reading.canonical,Reading.fullTypeWithSchema,schemaPrefix_lead]

theorem plainStart_rest (start : PlainStart (trimEnd rest ++ body.furtherWords)) : PlainStart rest := by
  obtain ⟨c,words,whole,plain,solid⟩ := start
  cases trimmed : trimEnd rest with
  | nil =>
    -- Only the joining space could come first here.
    rw [trimmed,List.nil_append] at whole
    unfold Body.furtherWords at whole
    split at whole
    · cases whole
    · obtain ⟨rfl,_⟩ := List.cons.inj whole
      cases solid
  | cons d tail =>
    rw [trimmed,List.cons_append] at whole
    obtain ⟨rfl,_⟩ := List.cons.inj whole
    obtain ⟨behind,same⟩ := trimEnd_beginning rest
    rw [trimmed] at same
    exact ⟨d,tail ++ behind,same.symm,plain,solid⟩

theorem text_account (accepted : Reading.ofText? raw = some reading) :
    (reading.canonical = raw ∧ PlainStart reading.baseType) ∨
      ∃ front rest mark, Blank front ∧ reading.isArray = true ∧ reading.fullType = front ++ rest ∧
        (mark = [] ∨ mark = arrayMark) ∧
        raw = schemaLead reading.schema ++ front ++ catalogArrayMark :: rest ++ mark := by
  obtain ⟨spelling,valid,rfl,read⟩ := ofText_parts accepted
  obtain ⟨front,first,rest,led,plain | marked⟩ := reading_parts read
  · obtain ⟨plain,rfl⟩ := plain
    refine .inl ⟨?_,first,_,rfl,plain,led.solid⟩
    rw [canonical_text,spelling_text,Body.text,← List.append_assoc]
    rfl
  · obtain ⟨rfl,_,rfl⟩ := marked
    refine .inr ⟨front,rest ++ spelling.body.group ++ spelling.body.suffix,spelling.body.mark,
      led.blank,rfl,?_,?_,?_⟩
    · simp [Spelling.readAs]
    · unfold Body.mark
      split <;> simp
    · rw [spelling_text,Body.text_full,Body.full,led.whole]
      simp [Spelling.readAs]

-- The canonical text is read back exactly where the underscore, if there was
-- one, hid nothing. Otherwise a second underscore or a blank would come first.
theorem canonical_read (accepted : Reading.ofText? raw = some reading) :
    Reading.ofText? reading.canonical = some reading ↔ PlainStart reading.baseType := by
  constructor
  · intro again
    rcases text_account again with ⟨_,start⟩ | ⟨front,rest,mark,_,array,full,marks,same⟩
    · exact start
    · -- An underscore once more would make the text longer by one or by three.
      rw [canonical_text,array,full] at same
      have lengths := congrArg List.length same
      rcases marks with rfl | rfl
      · simp [arrayMark] at lengths
      · simp [arrayMark] at lengths
  · intro start
    obtain ⟨spelling,valid,rfl,read⟩ := ofText_parts accepted
    obtain ⟨front,first,rest,led,plain | marked⟩ := reading_parts read
    · obtain ⟨_,rfl⟩ := plain
      have same : (spelling.readAs (first :: (trimEnd rest ++ spelling.body.furtherWords))
          spelling.body.full spelling.body.isArray).canonical = spelling.text := by
        rw [canonical_text,spelling_text,Body.text,← List.append_assoc]
        rfl
      rw [same]
      exact accepted
    · obtain ⟨rfl,_,rfl⟩ := marked
      have behind := plainStart_rest start
      have inhabited : rest ≠ [] := by
        obtain ⟨c,tail,rfl,_⟩ := behind
        simp
      have again := ofText_text (remarked_valid valid led inhabited)
      rw [remarked_text,remarked_reading led behind,read] at again
      rw [canonical_text]
      exact again

theorem parse_canonical (parser : Parser) (column raw : Text) (isOptional : Bool)
    (descriptor : Descriptor)
    (parsed : (parser.parse column raw isOptional .given).outcome = .done descriptor) :
    (parser.parse column descriptor.canonical isOptional .given).outcome = .done descriptor ↔
      PlainStart descriptor.baseType := by
  obtain ⟨reading,accepted,rfl⟩ := parse_done.mp parsed
  rw [parse_describe]
  exact canonical_read accepted

theorem parse_canonical_marked :
    let parser : Parser := ⟨normalizeTypeName⟩
    let raw := "s. _bit (3) varying".toList
    let canonical := "s. bit (3) varying[]".toList
    ∃ descriptor, (parser.parse [] raw true .given).outcome = .done descriptor ∧
      descriptor.canonical = canonical ∧ PlainStart descriptor.baseType ∧
      (parser.parse [] canonical true .given).outcome = .done descriptor := by
  intro parser raw canonical
  let descriptor : Descriptor := ⟨⟨some "s".toList,"bit varying".toList," bit (3) varying".toList,
    true,["3".toList],some 3,none⟩,"_varbit".toList,true⟩
  have parsed : (parser.parse [] raw true .given).outcome = .done descriptor := by decide
  have start : PlainStart descriptor.baseType := ⟨'b',_,rfl,by decide,by decide⟩
  exact ⟨descriptor,parsed,rfl,start,(parse_canonical parser [] raw true descriptor parsed).mpr start⟩

end ColumnTypes
