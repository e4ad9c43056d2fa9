import ColumnTypes.Proofs.ParseOutcome
import ColumnTypes.Proofs.ReadingForms
namespace ColumnTypes

def Parser.Refuses (parser : Parser) (column : Text) (isOptional : Bool) (raw : Text) : Prop :=
  ∃ fault, (parser.parse column raw isOptional .given).outcome = .failed fault

def Parser.Leaves (parser : Parser) (column : Text) (isOptional : Bool) (held : Option Descriptor)
    (raws : List Text) (after : Option Descriptor) : Prop :=
  (∃ before raw later descriptor, raws = before ++ raw :: later ∧
    (parser.parse column raw isOptional .given).outcome = .done descriptor ∧
    (∀ text ∈ later, parser.Refuses column isOptional text) ∧ after = some descriptor) ∨
  (∀ text ∈ raws, parser.Refuses column isOptional text) ∧ after = held

structure Parser.Turn (parser : Parser) (column : Text) (isOptional : Bool) (raw : Text)
    (answer : Answer Descriptor) : Prop where
  alone : answer = parser.parse column raw isOptional .given
  ends : (∃ fault, answer.outcome = .failed fault) ∨ ∃ descriptor, answer.outcome = .done descriptor
  fails : (∃ fault, answer.outcome = .failed fault) ↔
    Spelling.read? raw = none ∨
      ∃ spelling, Spelling.read? raw = some spelling ∧ spelling.body.Nameless
  failed : ∀ fault, answer.outcome = .failed fault →
    fault.status = .parseError
      ("Failed to parse column type '".toList ++ raw ++ "' for column ".toList ++ column) ∧
    answer.complaints =
      ["Failed to parse column type for ".toList ++ column ++ " '".toList ++ raw ++ "'".toList] ∧
    answer.inputs = []
  done : ∀ descriptor, answer.outcome = .done descriptor →
    answer.complaints = [] ∧ answer.inputs = [descriptor.baseType]

variable {parser : Parser} {column : Text} {isOptional : Bool} {held middle : Option Descriptor}

theorem parse_turn (parser : Parser) (column : Text) (isOptional : Bool) (raw : Text) :
    parser.Turn column isOptional raw (parser.parse column raw isOptional .given) := by
  cases read : Reading.ofText? raw with
  | none =>
    rw [parse_unread read]
    constructor
    case alone => exact (parse_unread read).symm
    case ends => exact .inl ⟨_,rfl⟩
    case fails => exact ⟨fun _ => ofText_none.mp read,fun _ => ⟨_,rfl⟩⟩
    case failed =>
      intro fault ended
      cases ended
      exact ⟨rfl,rfl,rfl⟩
    case done =>
      intro descriptor ended
      cases ended
  | some reading =>
    rw [parse_read read]
    constructor
    case alone => exact (parse_read read).symm
    case ends => exact .inr ⟨_,rfl⟩
    case fails =>
      rw [← ofText_none,read]
      simp
    case failed =>
      intro fault ended
      cases ended
    case done =>
      intro descriptor ended
      cases ended
      exact ⟨rfl,rfl⟩

theorem parseInto_answer (parser : Parser) (column : Text) (isOptional : Bool)
    (held : Option Descriptor) (raw : Text) :
    (parser.parseInto column isOptional held raw).answer = parser.parse column raw isOptional .given := by
  unfold Parser.parseInto
  dsimp only
  split <;> rfl

theorem parseInto_done (done : (parser.parse column raw isOptional .given).outcome = .done descriptor) :
    (parser.parseInto column isOptional held raw).held = some descriptor := by
  simp [Parser.parseInto,done]

theorem parseInto_refused (refused : parser.Refuses column isOptional raw) :
    (parser.parseInto column isOptional held raw).held = held := by
  obtain ⟨fault,failed⟩ := refused
  simp [Parser.parseInto,failed]

theorem leaves_nothing (parser : Parser) (column : Text) (isOptional : Bool) (held : Option Descriptor) :
    parser.Leaves column isOptional held [] held :=
  .inr ⟨by simp,rfl⟩

theorem leaves_step (leaves : parser.Leaves column isOptional held before middle) (raw : Text) :
    parser.Leaves column isOptional held (before ++ [raw])
      (parser.parseInto column isOptional middle raw).held := by
  rcases (parse_turn parser column isOptional raw).ends with refused | ⟨descriptor,done⟩
  · rw [parseInto_refused refused]
    rcases leaves with ⟨front,parsed,later,descriptor,rfl,done,silent,same⟩ | ⟨silent,same⟩
    · have longer := List.forall_mem_append.mpr ⟨silent,List.forall_mem_singleton.mpr refused⟩
      exact .inl ⟨front,parsed,later ++ [raw],descriptor,by simp,done,longer,same⟩
    · exact .inr ⟨List.forall_mem_append.mpr ⟨silent,List.forall_mem_singleton.mpr refused⟩,same⟩
  · rw [parseInto_done done]
    exact .inl ⟨before,raw,[],descriptor,rfl,done,by simp,rfl⟩

def Parser.heldAfter (parser : Parser) (column : Text) (isOptional : Bool) (held : Option Descriptor)
    (raws : List Text) : Option Descriptor :=
  raws.foldl (fun held raw => (parser.parseInto column isOptional held raw).held) held

theorem leaves_run (leaves : parser.Leaves column isOptional held before middle) (raws : List Text) :
    parser.Leaves column isOptional held (before ++ raws)
      (parser.heldAfter column isOptional middle raws) := by
  -- The texts parsed so far grow while those still to come shrink.
  induction raws generalizing before middle with
  | nil =>
    rw [List.append_nil]
    exact leaves
  | cons raw rest ih =>
    have first := ih (leaves_step leaves raw)
    rw [List.append_assoc] at first
    exact first

theorem parseAll_length (parser : Parser) (column : Text) (isOptional : Bool) (held : Option Descriptor)
    (raws : List Text) : (parser.parseAll column isOptional held raws).length = raws.length := by
  induction raws generalizing held with
  | nil => rfl
  | cons raw rest ih => simp [Parser.parseAll,ih]

theorem parseAll_at (parser : Parser) (column : Text) (isOptional : Bool) (held : Option Descriptor)
    (before : List Text) (raw : Text) (later : List Text) :
    (parser.parseAll column isOptional held (before ++ raw :: later))[before.length]? =
      some (parser.parseInto column isOptional (parser.heldAfter column isOptional held before) raw) := by
  induction before generalizing held with
  | nil => rfl
  | cons text rest ih =>
    simp only [List.cons_append,Parser.parseAll,List.length_cons,List.getElem?_cons_succ,ih]
    rfl

theorem parse_sequence (parser : Parser) (column : Text) (isOptional : Bool) (held : Option Descriptor)
    (raws : List Text) :
    (parser.parseAll column isOptional held raws).length = raws.length ∧
    ∀ before raw later, raws = before ++ raw :: later →
      ∃ step, (parser.parseAll column isOptional held raws)[before.length]? = some step ∧
        parser.Leaves column isOptional held (before ++ [raw]) step.held ∧
        parser.Turn column isOptional raw step.answer := by
  refine ⟨parseAll_length parser column isOptional held raws,?_⟩
  intro before raw later whole
  subst whole
  refine ⟨_,parseAll_at parser column isOptional held before raw later,?_,?_⟩
  · exact leaves_step (leaves_run (leaves_nothing parser column isOptional held) before) raw
  · rw [parseInto_answer]
    exact parse_turn parser column isOptional raw

theorem parse_sequence_failing :
    let parser : Parser := ⟨normalizeTypeName⟩
    let raws := ["bigint".toList,"a(".toList,"s. _ []".toList]
    let descriptor : Descriptor :=
      ⟨⟨none,"bigint".toList,"bigint".toList,false,[],none,none⟩,"int8".toList,true⟩
    ∃ step, (parser.parseAll "c".toList true none raws)[2]? = some step ∧
      step.held = some descriptor ∧ parser.Leaves "c".toList true none raws (some descriptor) ∧
      parser.Turn "c".toList true "s. _ []".toList step.answer ∧ step.answer.inputs = [] := by
  intro parser raws descriptor
  obtain ⟨_,steps⟩ := parse_sequence parser "c".toList true none raws
  obtain ⟨step,found,leaves,turn⟩ := steps ["bigint".toList,"a(".toList] "s. _ []".toList [] rfl
  have held : ((parser.parseAll "c".toList true none raws)[2]?).map Holding.held =
      some (some descriptor) := by decide
  have third : (parser.parseAll "c".toList true none raws)[2]? = some step := found
  rw [third] at held
  have kept : step.held = some descriptor := Option.some.inj held
  rw [kept] at leaves
  have fault : ∃ fault, step.answer.outcome = .failed fault := by
    rw [turn.alone]
    exact ⟨.malformed "c".toList "s. _ []".toList,by decide⟩
  obtain ⟨fault,failed⟩ := fault
  exact ⟨step,third,kept,leaves,turn,(turn.failed fault failed).2.2⟩

end ColumnTypes
