import FiveStage.Numeral.Digits

namespace FiveStage.CommandLine

-- The options of all commands.
inductive Flag
  | config | verbose | listing | cycles | play | maxCycles | json | exportTo
  deriving DecidableEq

namespace Flag

def long : Flag → String
  | config => "config"
  | verbose => "verbose"
  | listing => "listing"
  | cycles => "cycles"
  | play => "play"
  | maxCycles => "max-cycles"
  | json => "json"
  | exportTo => "export"

def short? : Flag → Option Char
  | config => some 'c'
  | verbose => some 'v'
  | cycles => some 'n'
  | _ => none

def takesValue : Flag → Bool
  | config | cycles | maxCycles | exportTo => true
  | verbose | listing | play | json => false

end Flag

-- An option that was given. One that takes no value has the empty value.
abbrev Given := Flag × String

-- What one argument is by its form.
inductive Form
  | plain
  -- `--`, after which no argument is an option
  | separator
  | given (options : List Given)
  -- options of which the last one has its value in the next argument
  | awaiting (options : List Given) (flag : Flag)
  | unknown

namespace Form

-- A long option, with its value behind an equals sign if it has one there.
def ofLong (known : List Flag) (text : List Char) : Form :=
  let name := String.ofList (text.takeWhile (· ≠ '='))
  let value? := match text.dropWhile (· ≠ '=') with
    | [] => none
    | _ :: value => some (String.ofList value)
  match known.find? fun flag => flag.long == name, value? with
  | none, _ => .unknown
  | some flag, some value => if flag.takesValue then .given [(flag, value)] else .unknown
  | some flag, none => if flag.takesValue then .awaiting [] flag else .given [(flag, "")]

-- Short options in one argument. The first that takes a value has the rest of
-- the argument for it, without an equals sign in front.
def ofShort (known : List Flag) (before : List Given) : List Char → Form
  | [] => .given before.reverse
  | c :: rest =>
    match known.find? fun flag => flag.short? = some c with
    | none => .unknown
    | some flag =>
      if flag.takesValue then
        match rest with
        | [] => .awaiting before.reverse flag
        | '=' :: value => .given ((flag, String.ofList value) :: before).reverse
        | value => .given ((flag, String.ofList value) :: before).reverse
      else ofShort known ((flag, "") :: before) rest

def ofArgument (known : List Flag) (argument : String) : Form :=
  match argument.toList with
  | ['-', '-'] => .separator
  | '-' :: '-' :: text => ofLong known text
  | '-' :: c :: rest => ofShort known [] (c :: rest)
  | _ => .plain

end Form

-- Options, and arguments that are none, in order.
structure Sorted where
  options : List Given := []
  plain : List String := []

def Sorted.withOptions (sorted : Sorted) (options : List Given) : Sorted :=
  { sorted with options := options ++ sorted.options }

-- Sorts the arguments of a command.
def sort? (known : List Flag) : List String → Option Sorted
  | [] => some {}
  | argument :: rest =>
    match Form.ofArgument known argument with
    | .plain => (sort? known rest).map fun sorted =>
        { sorted with plain := argument :: sorted.plain }
    | .separator => some { plain := rest }
    | .given options => (sort? known rest).map (·.withOptions options)
    | .awaiting options flag =>
      match rest with
      | [] => none
      | value :: rest =>
        match Form.ofArgument known value with
        | .plain => (sort? known rest).map (·.withOptions (options ++ [(flag, value)]))
        | _ => none
    | .unknown => none

-- The options in front of a command's name, and the arguments from its name on.
def sortLeading? (known : List Flag) : List String → Option Sorted
  | [] => some {}
  | argument :: rest =>
    match Form.ofArgument known argument with
    | .plain => some { plain := argument :: rest }
    | .separator => none
    | .given options => (sortLeading? known rest).map (·.withOptions options)
    | .awaiting options flag =>
      match rest with
      | [] => none
      | value :: rest =>
        match Form.ofArgument known value with
        | .plain => (sortLeading? known rest).map (·.withOptions (options ++ [(flag, value)]))
        | _ => none
    | .unknown => none

inductive Command
  | check (file : String) (listing : Bool)
  | step (file : String) (cycles : Nat) (play : Bool)
  | run (file : String) (maxCycles : Option Nat) (json : Bool) (exportTo : Option String)
  deriving DecidableEq

-- A command with the options that go with all commands.
structure Invocation where
  config : Option String
  command : Command
  deriving DecidableEq

namespace Invocation

-- The value of an option, which may be given once.
def once? (options : List Given) (flag : Flag) : Option (Option String) :=
  match options.filter fun option => option.1 = flag with
  | [] => some none
  | [(_, value)] => some (some value)
  | _ => none

def present? (options : List Given) (flag : Flag) : Option Bool :=
  (once? options flag).map Option.isSome

-- A path, which may not be empty.
def path? (text : String) : Option String :=
  if text.isEmpty then none else some text

-- A count of cycles in decimal digits, below 2^64.
def count? (text : String) : Option Nat := do
  let digits := match text.toList with
    | '+' :: rest => rest
    | chars => chars
  let n ← Numeral.ofDigits? 10 digits
  if n < UInt64.size then some n else none

-- The value of an option read as what the option stands for.
def valueOf? (options : List Given) (flag : Flag) (read : String → Option α) :
    Option (Option α) := do
  match ← once? options flag with
  | none => return none
  | some text => (read text).map some

private def file? : List String → Option String
  | [file] => path? file
  | _ => none

-- The flags that go with every command, in front of its name or behind it.
def common : List Flag := [.config, .verbose]

def command? (name : String) (arguments : List String) : Option (Sorted × Command) :=
  match name with
  | "check" => do
    let sorted ← sort? (common ++ [.listing]) arguments
    let listing ← present? sorted.options .listing
    return (sorted, .check (← file? sorted.plain) listing)
  | "step" => do
    let sorted ← sort? (common ++ [.cycles, .play]) arguments
    let cycles ← valueOf? sorted.options .cycles count?
    let play ← present? sorted.options .play
    return (sorted, .step (← file? sorted.plain) (cycles.getD 1) play)
  | "run" => do
    let sorted ← sort? (common ++ [.maxCycles, .json, .exportTo]) arguments
    let maxCycles ← valueOf? sorted.options .maxCycles count?
    let json ← present? sorted.options .json
    let exportTo ← valueOf? sorted.options .exportTo path?
    return (sorted, .run (← file? sorted.plain) maxCycles json exportTo)
  | _ => none

-- Reads the arguments of the program. A configuration named behind the command
-- counts before one named in front of it.
def ofArguments? (arguments : List String) : Option Invocation := do
  let leading ← sortLeading? common arguments
  match leading.plain with
  | [] => none
  | name :: rest =>
    let (sorted, command) ← command? name rest
    let outer ← valueOf? leading.options .config path?
    let inner ← valueOf? sorted.options .config path?
    return { config := inner.or outer, command }

end Invocation

end FiveStage.CommandLine
