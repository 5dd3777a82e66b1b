import FiveStage.CommandLine.Host

namespace FiveStage.CommandLine

-- A directory without subdirectories, and what has been printed. Commands can
-- run on it without a disk.
structure Desk where
  files : List (String × ByteArray) := []
  output : String := ""
  errors : String := ""

namespace Desk

-- The longest path and the longest name in bytes.
def longestPath : Nat := 4095

def longestName : Nat := 255

-- What a path leads to.
inductive Place
  | directory
  -- a name in the directory; a slash behind it asks for a directory
  | entry (name : String) (slash : Bool)
  -- the device that is empty and takes everything
  | null
  -- below something that is no directory, or elsewhere
  | nowhere (fault : FileFault)

def has (desk : Desk) (name : String) : Bool :=
  (desk.files.lookup name).isSome

-- A part of a path that stays in the same directory.
def stays (part : String) : Bool :=
  part = "" || part = "."

-- What parts lead to from a directory in which nothing is known but the
-- directories above it.
def followOutside (parts : List String) : Place :=
  match parts.dropWhile fun part => stays part || part = ".." with
  | [] => .directory
  | name :: _ => .nowhere (if longestName < name.utf8ByteSize then .nameTooLong else .notFound)

-- What parts lead to from the directory itself. It has no directory in it, so
-- there is no way on behind a name.
def follow (desk : Desk) (parts : List String) : Place :=
  match parts.dropWhile stays with
  | [] => .directory
  | ".." :: rest => followOutside rest
  | name :: rest =>
    if rest.all (· = "") then .entry name (!rest.isEmpty)
    else if longestName < name.utf8ByteSize then .nowhere .nameTooLong
    else if desk.has name then .nowhere .notDirectory
    else .nowhere .notFound

def place (desk : Desk) (path : String) : Place :=
  if longestPath < path.utf8ByteSize then .nowhere .nameTooLong
  else match path.splitOn "/" with
    | [""] => .nowhere .notFound
    | ["", "dev", "null"] => .null
    | "" :: parts => followOutside parts
    | parts => desk.follow parts

def read (desk : Desk) (path : String) : Except FileFault ByteArray :=
  match desk.place path with
  | .directory => .error .isDirectory
  | .null => .ok .empty
  | .nowhere fault => .error fault
  | .entry name slash =>
    if longestName < name.utf8ByteSize then .error .nameTooLong
    else match desk.files.lookup name with
      | none => .error .notFound
      | some content => if slash then .error .notDirectory else .ok content

-- Writing makes the file if it is not there. It never makes a directory.
def write (desk : Desk) (path text : String) : Except FileFault Desk :=
  match desk.place path with
  | .directory => .error .isDirectory
  | .null => .ok desk
  | .nowhere fault => .error fault
  | .entry name slash =>
    if slash then .error .isDirectory
    else if longestName < name.utf8ByteSize then .error .nameTooLong
    else
      let others := desk.files.filter fun file => file.1 ≠ name
      .ok { desk with files := others ++ [(name, text.toUTF8)] }

instance : Host (StateM Desk) where
  readFile path := do return (← get).read path
  writeFile path text := do
    match (← get).write path text with
    | .ok desk =>
      set desk
      return .ok ()
    | .error fault => return .error fault
  print text := modify fun desk => { desk with output := desk.output ++ text }
  printError text := modify fun desk => { desk with errors := desk.errors ++ text }
  pause _ := return ()

end Desk

end FiveStage.CommandLine
