import ColumnTypes.Proofs.ArrayFormation
import ColumnTypes.Proofs.CanonicalText
import ColumnTypes.Proofs.CatalogNames
namespace ColumnTypes
variable {spelling : Spelling} {reading : Reading} {t : Text}

def firstSolid (t : Text) : Option Char := t.find? fun c => !isBlank c

def Unmarked (name : Text) : Prop := name.head? ≠ some catalogArrayMark

def AddsNoMark (normalizer : Normalizer) : Prop := ∀ name, Unmarked name → Unmarked (normalizer name)

structure Reading.Flagged (reading : Reading) (raw written : Text) : Prop where
  whole : raw = reading.schemaPrefix ++ written
  flag : reading.isArray = true ↔ arrayMark <:+ raw ∨ firstSolid written = some catalogArrayMark

theorem firstSolid_led (led : Led t front first rest) : firstSolid t = some first := by
  have blank : front.find? (fun c => !isBlank c) = none :=
    List.find?_eq_none.mpr fun c member => by simp [led.blank c member]
  rw [firstSolid,led.whole,List.find?_append,blank]
  simp [led.solid]

theorem led_text (led : Led spelling.body.base front first rest) :
    Led spelling.body.text front first (rest ++ spelling.body.trailer) :=
  ⟨by simp [Body.text_trailer,led.whole],led.blank,led.solid⟩

theorem flag_exact (read : spelling.reading? = some reading) : reading.isArray = true ↔
    spelling.body.isArray = true ∨ firstSolid spelling.body.text = some catalogArrayMark := by
  obtain ⟨front,first,rest,led,parts⟩ := reading_parts read
  rw [firstSolid_led (led_text led)]
  rcases parts with ⟨plain,rfl⟩ | ⟨rfl,_,rfl⟩
  · simp [Spelling.readAs,plain]
  · simp [Spelling.readAs]

theorem reading_flagged (accepted : Reading.ofText? raw = some reading) :
    ∃ written, reading.Flagged raw written := by
  obtain ⟨spelling,valid,rfl,read⟩ := ofText_parts accepted
  have schemas : reading.schema = spelling.schema := by rw [reading_kept read]; rfl
  refine ⟨spelling.body.text,?_,?_⟩
  · rw [schemaPrefix_lead,schemas]
    exact spelling_text spelling
  · rw [text_marked valid]
    exact flag_exact read

theorem start_unmarked (start : PlainStart t) : Unmarked t := by
  obtain ⟨c,rest,rfl,plain,_⟩ := start
  simp [Unmarked,plain]

theorem name_marked (sound : reading.Sound) (adds : AddsNoMark normalizer) (isOptional : Bool) :
    (reading.describe normalizer isOptional).isArray = true ↔
      (reading.describe normalizer isOptional).normalizedName.head? = some catalogArrayMark := by
  have element : reading.isArray = false → Unmarked (normalizer reading.baseType) := by
    intro scalar
    exact adds _ (start_unmarked (sound_start sound scalar))
  have kept : (reading.describe normalizer isOptional).isArray = reading.isArray := rfl
  rw [describe_name,kept]
  cases array : reading.isArray with
  | true => simp
  | false => simpa [Unmarked] using element array

theorem normalize_addsNoMark : AddsNoMark normalizeTypeName := by
  intro name own
  apply normalize_keeps
  · intro entry listed
    exact start_unmarked (settled_bare listed).2
  · exact own

theorem array_flag (raw : Text) :
    (∀ (parser : Parser) column isOptional descriptor,
      (parser.parse column raw isOptional .given).outcome = .done descriptor →
      (∃ written, descriptor.toReading.Flagged raw written) ∧
      (AddsNoMark parser.normalizer →
        (descriptor.isArray = true ↔ descriptor.normalizedName.head? = some catalogArrayMark))) ∧
    AddsNoMark normalizeTypeName := by
  refine ⟨?_,normalize_addsNoMark⟩
  intro parser column isOptional descriptor parsed
  obtain ⟨reading,accepted,rfl⟩ := parse_done.mp parsed
  obtain ⟨spelling,valid,_,read⟩ := ofText_parts accepted
  refine ⟨reading_flagged accepted,?_⟩
  intro adds
  exact name_marked (reading_sound valid read) adds isOptional

theorem array_flag_blank :
    let parser : Parser := ⟨normalizeTypeName⟩
    let raw := "_s. \t_int(_,[])".toList
    let descriptor : Descriptor := ⟨⟨some "_s".toList,"int".toList," \tint(_,[])".toList,true,
      ["_".toList,"[]".toList],none,none⟩,"_int".toList,true⟩
    (parser.parse [] raw true .given).outcome = .done descriptor ∧ AddsNoMark parser.normalizer ∧
      ¬arrayMark <:+ raw ∧ (∃ written, descriptor.toReading.Flagged raw written) ∧
      (descriptor.isArray = true ↔ descriptor.normalizedName.head? = some catalogArrayMark) := by
  intro parser raw descriptor
  have parsed : (parser.parse [] raw true .given).outcome = .done descriptor := by decide
  obtain ⟨parsedFlag,adds⟩ := array_flag raw
  obtain ⟨flagged,named⟩ := parsedFlag parser [] true descriptor parsed
  exact ⟨parsed,adds,by decide,flagged,named adds⟩

end ColumnTypes
