namespace FiveStage.CommandLine

-- Why a file cannot be read or written.
inductive FileFault
  | notFound
  | notDirectory
  | isDirectory
  | nameTooLong
  | other (message : String)

def FileFault.message : FileFault → String
  | notFound => "No such file or directory (os error 2)"
  | notDirectory => "Not a directory (os error 20)"
  | isDirectory => "Is a directory (os error 21)"
  | nameTooLong => "File name too long (os error 36)"
  | other message => message

-- What a command needs from the system it runs on.
class Host (m : Type → Type u) where
  readFile (path : String) : m (Except FileFault ByteArray)
  writeFile (path text : String) : m (Except FileFault Unit)
  print (text : String) : m Unit
  printError (text : String) : m Unit
  -- waits for so many milliseconds
  pause (milliseconds : Nat) : m Unit

-- A text file that is not there or does not hold UTF-8 is not read.
def readText {m : Type → Type u} [Monad m] [Host m] (path : String) :
    m (Except String String) := do
  match ← Host.readFile path with
  | .error fault => return .error fault.message
  | .ok content =>
    match String.fromUTF8? content with
    | some text => return .ok text
    | none => return .error "stream did not contain valid UTF-8"

end FiveStage.CommandLine
