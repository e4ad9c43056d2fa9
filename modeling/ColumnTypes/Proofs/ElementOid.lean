import ColumnTypes.Proofs.ArrayMarks
import ColumnTypes.Proofs.StatelessColumns
namespace ColumnTypes
variable {form : ColumnForm r}

theorem scalar_brackets (accepted : Reading.ofText? raw = some reading) (scalar : reading.isArray = false) :
    Reading.ofText? (raw ++ arrayMark) = some reading.asArray := by
  obtain ⟨spelling,valid,rfl,read⟩ := ofText_parts accepted
  obtain ⟨_,_,_,_,⟨_,rfl⟩ | ⟨_,_,rfl⟩⟩ := reading_parts read
  · exact ofText_brackets valid scalar read
  · cases scalar

def ColumnForm.arrayOf (form : ColumnForm r) : ColumnForm r :=
  {form with rawType := form.rawType ++ arrayMark}

theorem arrayOf_described (described : form.described = .done descriptor)
    (scalar : descriptor.isArray = false) :
    ∃ array : Descriptor, form.arrayOf.described = .done array ∧ array.isArray = true ∧
      array.elementTypeName = descriptor.elementTypeName := by
  obtain ⟨metadata,parsed⟩ := described_parts described
  obtain ⟨reading,accepted,rfl⟩ := parse_done.mp parsed
  refine ⟨reading.asArray.describe form.normalizer form.isOptional,?_,rfl,?_⟩
  · have kept : form.arrayOf.hasMetadata = true := metadata
    rw [ColumnForm.described,if_pos kept]
    exact parse_describe.mpr (scalar_brackets accepted scalar)
  · rw [describe_element,describe_element]
    rfl

-- Whatever was called before, the elements of an array are asked for as the
-- type itself is where it stands alone. The array as a whole is never asked for.
theorem element_oid (form : ColumnForm r) (descriptor : Descriptor)
    (described : form.described = .done descriptor) (scalar : descriptor.isArray = false) :
    ∃ column array, Column.make? form.draft = .ok column ∧
      Column.make? form.arrayOf.draft = .ok array ∧
      ∀ visits arrayVisits resolvers,
        ((array.after arrayVisits).step resolvers (.componentOidType .given)).1.outcome =
          ((column.after visits).step resolvers (.oidType .given)).1.outcome ∧
        ((column.after visits).step resolvers (.oidType .given)).1.outcome =
          (Outcome.ofExcept ((resolvers.get form.resolver).resolve
            ⟨form.name,some descriptor⟩ .given)).map .oid ∧
        ((array.after arrayVisits).step resolvers (.oidType .given)).1.report =
          ⟨.done (.oid genericArrayOid),[]⟩ := by
  obtain ⟨array,arrayDescribed,isArray,elements⟩ := arrayOf_described described scalar
  refine ⟨form.unread,form.arrayOf.unread,unread_made form,unread_made form.arrayOf,?_⟩
  intro visits arrayVisits resolvers
  have alone := element_report resolvers described
  have component := element_report resolvers arrayDescribed
  rw [elementCall,scalar] at alone
  rw [elementCall,isArray] at component
  have asked : ((form.unread.after visits).step resolvers (.oidType .given)).1.outcome =
      ((form.ask resolvers (some descriptor)).map .oid).outcome :=
    congrArg Report.outcome ((after_report form visits resolvers _).trans alone)
  have askedArray :
      ((form.arrayOf.unread.after arrayVisits).step resolvers (.componentOidType .given)).1.outcome =
        ((form.arrayOf.ask resolvers (some array)).map .oid).outcome :=
    congrArg Report.outcome ((after_report form.arrayOf arrayVisits resolvers _).trans component)
  refine ⟨?_,asked,?_⟩
  · rw [asked,askedArray]
    simp only [ColumnForm.ask,Report.map,resolve_element elements]
    rfl
  · obtain ⟨metadata,parsed⟩ := described_parts arrayDescribed
    rw [after_report]
    simp [ColumnForm.report,ColumnForm.oidType,metadata,parsed,isArray,Report.map,Outcome.map]

theorem element_oid_underscored :
    let form : ColumnForm 1 :=
      ⟨"c".toList,"s.geo (1)".toList,true,true,0,fun name => catalogArrayMark :: name⟩
    let descriptor : Descriptor :=
      ⟨⟨some "s".toList,"geo".toList,"geo (1)".toList,false,["1".toList],some 1,none⟩,"_geo".toList,true⟩
    let known : Vector Resolver 1 := #v[.registry (Registry.empty.register "_geo".toList 7)]
    form.described = .done descriptor ∧ descriptor.isArray = false ∧
    ∃ column array, Column.make? form.draft = .ok column ∧
      Column.make? form.arrayOf.draft = .ok array ∧
      ((array.after [⟨#v[.registry .empty],.typeMetadata .given⟩]).step known
        (.componentOidType .given)).1.outcome = .done (.oid 7) ∧
      (column.step known (.oidType .given)).1.outcome = .done (.oid 7) := by
  intro form descriptor known
  have described : form.described = .done descriptor := by decide
  obtain ⟨column,array,made,madeArray,asked⟩ := element_oid form descriptor described rfl
  obtain ⟨same,alone,_⟩ := asked [] [⟨#v[.registry .empty],.typeMetadata .given⟩] known
  have found : (Resolver.registry (Registry.empty.register "_geo".toList 7)).resolve
      ⟨"c".toList,some descriptor⟩ .given = .ok 7 := by
    have elements : descriptor.elementTypeName = "_geo".toList := by decide
    simp only [Resolver.resolve,elements,register_found]
  have oid : (column.step known (.oidType .given)).1.outcome = .done (.oid 7) :=
    alone.trans (congrArg (fun reply => (Outcome.ofExcept reply).map Value.oid) found)
  exact ⟨described,rfl,column,array,made,madeArray,same.trans oid,oid⟩

end ColumnTypes
