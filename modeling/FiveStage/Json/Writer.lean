import FiveStage.Json.Basic
import FiveStage.Numeral.Digits

namespace FiveStage.Json

-- A character inside a quoted text. Control characters without an escape of
-- their own are named by their code.
def escape (c : Char) : String :=
  match c with
  | '"' => "\\\""
  | '\\' => "\\\\"
  | '\x08' => "\\b"
  | '\x0c' => "\\f"
  | '\n' => "\\n"
  | '\r' => "\\r"
  | '\t' => "\\t"
  | c => if c.toNat < 0x20 then "\\u" ++ Numeral.hexDigits 4 c.toNat else c.toString

def quote (text : String) : String :=
  text.toList.foldl (fun out c => out ++ escape c) "\"" ++ "\""

-- A value that is not built from others. An unreadable one has no written
-- form and counts as null.
def scalarText : Json → String
  | .bool true => "true"
  | .bool false => "false"
  | .int n => toString n
  | .decimal literal => literal
  | .string text => quote text
  | .null | .array _ | .object _ | .unreadable => "null"

mutual

-- Appends the text of a document without any blanks.
def appendCompact (out : String) : Json → String
  | .array [] => out ++ "[]"
  | .array (first :: rest) => appendItems (appendCompact (out ++ "[") first) rest ++ "]"
  | .object [] => out ++ "\x7b\x7d"
  | .object ((name, value) :: rest) =>
    appendMembers (appendCompact (out ++ "\x7b" ++ quote name.text ++ ":") value) rest ++ "\x7d"
  | scalar => out ++ scalarText scalar

def appendItems (out : String) : List Json → String
  | [] => out
  | item :: rest => appendItems (appendCompact (out ++ ",") item) rest

def appendMembers (out : String) : List (Name × Json) → String
  | [] => out
  | (name, value) :: rest =>
    appendMembers (appendCompact (out ++ "," ++ quote name.text ++ ":") value) rest

end

def compact (document : Json) : String :=
  appendCompact "" document

-- A new line, indented by two spaces a level.
def newLine (level : Nat) : String :=
  "\n" ++ String.ofList (List.replicate (2 * level) ' ')

mutual

-- Appends the text of a document with every item and member on a line of its
-- own.
def appendPretty (level : Nat) (out : String) : Json → String
  | .array [] => out ++ "[]"
  | .array (first :: rest) =>
    let out := appendPretty (level + 1) (out ++ "[" ++ newLine (level + 1)) first
    appendPrettyItems (level + 1) out rest ++ newLine level ++ "]"
  | .object [] => out ++ "\x7b\x7d"
  | .object ((name, value) :: rest) =>
    let out := out ++ "\x7b" ++ newLine (level + 1) ++ quote name.text ++ ": "
    let out := appendPretty (level + 1) out value
    appendPrettyMembers (level + 1) out rest ++ newLine level ++ "\x7d"
  | scalar => out ++ scalarText scalar

def appendPrettyItems (level : Nat) (out : String) : List Json → String
  | [] => out
  | item :: rest =>
    appendPrettyItems level (appendPretty level (out ++ "," ++ newLine level) item) rest

def appendPrettyMembers (level : Nat) (out : String) : List (Name × Json) → String
  | [] => out
  | (name, value) :: rest =>
    let out := out ++ "," ++ newLine level ++ quote name.text ++ ": "
    appendPrettyMembers level (appendPretty level out value) rest

end

def pretty (document : Json) : String :=
  appendPretty 0 "" document

end FiveStage.Json
