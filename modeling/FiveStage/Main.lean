import FiveStage.CommandLine.Commands

open FiveStage.CommandLine

-- Why a file operation failed. The code of the system may come negated.
private def fileFault (error : IO.Error) : FileFault :=
  let ofCode (code : UInt32) : FileFault :=
    match min code.toNat (UInt32.size - code.toNat) with
    | 20 => .notDirectory
    | 21 => .isDirectory
    | 36 => .nameTooLong
    | _ => .other (toString error)
  match error with
  | .noFileOrDirectory _ _ _ => .notFound
  | .inappropriateType _ code _ | .invalidArgument _ code _ => ofCode code
  | .permissionDenied _ _ _ => .other "Permission denied (os error 13)"
  | _ => .other (toString error)

private def attempt (act : IO α) : IO (Except FileFault α) := do
  match ← act.toBaseIO with
  | .ok value => return .ok value
  | .error error => return .error (fileFault error)

instance : Host IO where
  readFile path := attempt (IO.FS.readBinFile path)
  writeFile path text := attempt (IO.FS.writeFile path text)
  print text := IO.print text
  printError text := IO.eprint text
  pause milliseconds := IO.sleep (UInt32.ofNat (min milliseconds (UInt32.size - 1)))

def main (arguments : List String) : IO UInt32 := do
  match Invocation.ofArguments? arguments with
  | some invocation => invocation.perform
  | none =>
    IO.eprintln "Usage: (check FILE [--listing] | step FILE [-n N] [--play] |"
    IO.eprintln "  run FILE [--max-cycles N] [--json] [--export FILE]) [-c FILE] [-v]"
    return 2
