import FiveStage.Json.Token

namespace FiveStage.Json

-- An array or object that is still open, around the value being read. Items
-- and members are newest first. There are no members to hold once a name
-- could not be read.
inductive Frame
  | items (before : List Json)
  | member (before : Option (List (Name × Json))) (name : Option Name)

-- What may come next in a document, within the open arrays and objects.
inductive Reader
  | value (outer : List Frame)
  | firstItem (outer : List Frame)
  | afterItem (items : List Json) (outer : List Frame)
  | firstName (outer : List Frame)
  | nextName (members : Option (List (Name × Json))) (outer : List Frame)
  | colon (members : Option (List (Name × Json))) (name : Option Name) (outer : List Frame)
  | afterMember (members : Option (List (Name × Json))) (outer : List Frame)
  | complete (document : Json)

namespace Reader

-- Goes on after a whole value.
def put (whole : Json) : List Frame → Reader
  | [] => .complete whole
  | .items before :: outer => .afterItem (whole :: before) outer
  | .member before name :: outer =>
    .afterMember (before.bind fun members => name.map fun name => (name, whole) :: members) outer

-- The first token of a value.
def enter? (outer : List Frame) : Token → Option Reader
  | .scalar whole => some (put whole outer)
  | .text (some text) _ => some (put (.string text) outer)
  | .text none _ => some (put .unreadable outer)
  | .beginArray => some (.firstItem outer)
  | .beginObject => some (.firstName outer)
  | _ => none

def step? : Reader → Token → Option Reader
  | .value outer, token => enter? outer token
  | .firstItem outer, .endArray => some (put (.array []) outer)
  | .firstItem outer, token => enter? (.items [] :: outer) token
  | .afterItem items outer, .comma => some (.value (.items items :: outer))
  | .afterItem items outer, .endArray => some (put (.array items.reverse) outer)
  | .firstName outer, .endObject => some (put (.object []) outer)
  | .firstName outer, .text text escaped =>
    some (.colon (some []) (text.map fun text => { text, escaped }) outer)
  | .nextName members outer, .text text escaped =>
    some (.colon members (text.map fun text => { text, escaped }) outer)
  | .colon members name outer, .colon => some (.value (.member members name :: outer))
  | .afterMember members outer, .comma => some (.nextName members outer)
  | .afterMember (some members) outer, .endObject => some (put (.object members.reverse) outer)
  | .afterMember none outer, .endObject => some (put .unreadable outer)
  | _, _ => none

end Reader

-- Reads a text that is one JSON document.
def parse? (text : String) : Option Json :=
  (Token.ofText? text.toList).bind fun tokens =>
    match tokens.foldlM Reader.step? (.value []) with
    | some (.complete document) => some document
    | _ => none

end FiveStage.Json
