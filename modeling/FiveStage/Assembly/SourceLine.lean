import FiveStage.Text.Blank
import FiveStage.Text.Pieces

namespace FiveStage

-- A line of assembly text in its parts.
structure SourceLine where
  -- counted from 1
  number : Nat
  -- the line as written
  raw : String
  -- the label defined here, which may be the empty text
  label : Option String
  -- what is left without comment and label
  body : String
  deriving DecidableEq

namespace SourceLine

-- A comment starts at the first `@` and a label ends at the first `:`.
def ofRaw (number : Nat) (raw : String) : SourceLine :=
  let code := Text.trim (Text.cut '@' raw.toList).1
  match Text.cut ':' code with
  | (label, some rest) =>
    { number, raw, label := some (String.ofList (Text.trim label)),
      body := String.ofList (Text.trim rest) }
  | (_, none) => { number, raw, label := none, body := String.ofList code }

-- Whether the line takes up an instruction slot, which it does even if its
-- text does not assemble.
def hasInstruction (line : SourceLine) : Bool :=
  line.body ≠ ""

def isSeparator (c : Char) : Bool :=
  Text.isBlank c || c = ','

-- The body between blanks and commas.
def tokens (line : SourceLine) : List String :=
  (Text.runs isSeparator line.body.toList).map String.ofList

-- The label that the line defines. The empty text defines none.
def definedLabel? (line : SourceLine) : Option String :=
  line.label.filter (· ≠ "")

-- The lines of a text in order.
def ofText (text : String) : List SourceLine :=
  (Text.lines text.toList).mapIdx fun i raw => ofRaw (i + 1) (String.ofList raw)

end SourceLine

end FiveStage
