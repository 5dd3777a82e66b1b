namespace FiveStage

-- The name of an object member, and whether it is written with escapes.
structure Json.Name where
  text : String
  escaped : Bool := false
  deriving DecidableEq

instance : Coe String Json.Name := ⟨fun text => { text }⟩

-- A JSON document. Object members keep their order, and a name may come twice.
inductive Json
  | null
  | bool (value : Bool)
  | int (value : Int)
  -- a number with a fraction or an exponent, or minus zero, as written
  | decimal (literal : String)
  | string (text : String)
  | array (items : List Json)
  | object (members : List (Json.Name × Json))
  -- a value that is well-formed but cannot be held: a number beyond the range
  -- of binary64, a text with half a surrogate pair, or an object with such a
  -- text for a name
  | unreadable

namespace Json

-- A natural number below 2^64.
def nat? : Json → Option Nat
  | .int (.ofNat n) => if n < UInt64.size then some n else none
  | _ => none

-- A word without sign.
def word? : Json → Option UInt32
  | .int (.ofNat n) => if n < UInt32.size then some (UInt32.ofNat n) else none
  | _ => none

-- A signed word.
def signedWord? : Json → Option Int32
  | .int n =>
    if Int32.minValue.toInt ≤ n ∧ n ≤ Int32.maxValue.toInt then some (Int32.ofInt n) else none
  | _ => none

def bool? : Json → Option Bool
  | .bool b => some b
  | _ => none

def string? : Json → Option String
  | .string s => some s
  | _ => none

def array? : Json → Option (List Json)
  | .array items => some items
  | _ => none

def ofNat (n : Nat) : Json := .int n

def ofWord (w : UInt32) : Json := .int w.toNat

def ofSignedWord (w : Int32) : Json := .int w.toInt

mutual

-- Whether a value can be held whole with at most `limit` arrays and objects
-- around any of its parts.
def fits (limit : Nat) : Json → Bool
  | .array items => 0 < limit && allFit (limit - 1) items
  | .object members => 0 < limit && allMembersFit (limit - 1) members
  | .unreadable => false
  | _ => true

def allFit (limit : Nat) : List Json → Bool
  | [] => true
  | item :: rest => fits limit item && allFit limit rest

def allMembersFit (limit : Nat) : List (Name × Json) → Bool
  | [] => true
  | (_, value) :: rest => fits limit value && allMembersFit limit rest

end

end Json

end FiveStage
