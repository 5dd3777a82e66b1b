import FiveStage.Json.Basic

namespace FiveStage.Json

-- What a document gives for a field of a record.
inductive Slot
  | given (value : Json)
  -- an object without a member of that name
  | absent
  -- an array that ends before the field
  | beyond

-- The fields of a record, by name.
structure Record where
  slots : List (String × Slot)

namespace Record

-- What the members of an object give for a field. A field may not come twice.
def slotOfMembers? (members : List (Name × Json)) (name : String) : Option Slot :=
  match members.filter fun member => member.1.text == name with
  | [] => some .absent
  | [(_, value)] => some (.given value)
  | _ => none

-- A record is an object, in which members of other names do not count, or an
-- array of the fields in order, which may not be too long.
def ofJson? (names : List String) : Json → Option Record
  | .object members => do
    let slots ← names.mapM fun name => (slotOfMembers? members name).map fun slot => (name, slot)
    return ⟨slots⟩
  | .array items =>
    if items.length ≤ names.length then
      some ⟨names.mapIdx fun i name =>
        (name, match items[i]? with
          | some value => .given value
          | none => .beyond)⟩
    else none
  | _ => none

def slot (record : Record) (name : String) : Slot :=
  (record.slots.lookup name).getD .absent

-- A field that must be there.
def required (record : Record) (name : String) (read : Json → Option α) : Option α :=
  match record.slot name with
  | .given value => read value
  | .absent | .beyond => none

-- Null stands for no value.
def nullable (read : Json → Option α) : Json → Option (Option α)
  | .null => some none
  | value => (read value).map some

-- A field that may be null, or missing from an object.
def optional (record : Record) (name : String) (read : Json → Option α) : Option (Option α) :=
  match record.slot name with
  | .given value => nullable read value
  | .absent => some none
  | .beyond => none

-- A field with a value to take when it is missing.
def orElse (record : Record) (name : String) (default : α) (read : Json → Option α) : Option α :=
  match record.slot name with
  | .given value => read value
  | .absent | .beyond => some default

end Record

-- A member of an object for a value that is there.
def optionalMember (name : String) (write : α → Json) : Option α → List (Name × Json)
  | none => []
  | some value => [(name, write value)]

-- A name out of a list, written as a text or as an object with that name and
-- null.
def enum? (ofName? : String → Option α) : Json → Option α
  | .string name => ofName? name
  | .object [(name, .null)] => ofName? name.text
  | _ => none

end FiveStage.Json
