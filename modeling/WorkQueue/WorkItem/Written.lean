import WorkQueue.Json.Grammar
import WorkQueue.WorkItem

/-! # Texts of work items

What makes a text a work item, and what is wrong with any other text, told by the grammar of JSON.
Of several fields of one name the last counts.
-/
namespace WorkQueue
open Json

/-- A field that is a nonempty string. -/
def HoldsText (fields : List (String × Value)) (name s : String) : Prop :=
  NameMap.last? fields name = some (.string s) ∧ s ≠ ""

/-- What is wrong with a field that is no nonempty string. -/
inductive LacksText (fields : List (String × Value)) (name : String) : Malformation → Prop
  | missing (absent : NameMap.last? fields name = none) : LacksText fields name (.fieldMissing name)
  | empty (held : NameMap.last? fields name = some (.string "")) :
      LacksText fields name (.fieldEmpty name)
  | notText {v : Value} (held : NameMap.last? fields name = some v) (other : ∀ s, v ≠ .string s) :
      LacksText fields name (.fieldNotText name v.render)

namespace WorkItem

/-- A text that is the record of a work item: an object with an identity and a type, whose values
nest one level less deep than a document may. -/
structure IsRecord (text : String) (fields : List (String × Value)) (id workItemType : String) :
    Prop where
  record : RecordText 126 text fields
  id : HoldsText fields idField id
  workItemType : HoldsText fields typeField workItemType

/-- A text that is a work item, whose body is all that the text says. -/
structure Written (text : String) (item : WorkItem) : Prop where
  record : ∃ fields, IsRecord text fields item.id item.workItemType ∧
    ∀ name, item.record.get? name = NameMap.last? fields name
  body : Document 127 text item.body

/-- What is wrong with a text, in the order in which it counts. -/
inductive Refused (text : String) : Malformation → Prop
  | notJson {cause : Error} (unspelled : ∀ v, ¬ Document 127 text v)
      (stopped : Json.parse text = .error cause) : Refused text (.notJson cause)
  | notObject {v : Value} (spelled : Document 127 text v) (other : ∀ fields, v ≠ .object fields) :
      Refused text .notObject
  | id {fields : List (String × Value)} {fault : Malformation} (record : RecordText 126 text fields)
      (wrong : LacksText fields idField fault) : Refused text fault
  | workItemType {fields : List (String × Value)} {id : String} {fault : Malformation}
      (record : RecordText 126 text fields) (named : HoldsText fields idField id)
      (wrong : LacksText fields typeField fault) : Refused text fault

end WorkItem
end WorkQueue
