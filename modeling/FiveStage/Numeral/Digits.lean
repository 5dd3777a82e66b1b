namespace FiveStage.Numeral

-- The value of a digit; letters of either case continue after 9.
def digitValue? (base : Nat) (c : Char) : Option Nat :=
  let value? : Option Nat :=
    if '0' ≤ c ∧ c ≤ '9' then some (c.toNat - '0'.toNat)
    else if 'a' ≤ c ∧ c ≤ 'z' then some (c.toNat - 'a'.toNat + 10)
    else if 'A' ≤ c ∧ c ≤ 'Z' then some (c.toNat - 'A'.toNat + 10)
    else none
  value?.filter (· < base)

-- The number that follows `value` when one more digit is written.
def shiftIn? (base value : Nat) (c : Char) : Option Nat :=
  (digitValue? base c).map (base * value + ·)

-- The number denoted by a nonempty run of digits, however long.
def ofDigits? (base : Nat) (digits : List Char) : Option Nat :=
  if digits.isEmpty then none else digits.foldlM (shiftIn? base) 0

def padLeft (width : Nat) (fill : Char) (text : String) : String :=
  String.ofList (text.toList.leftpad width fill)

def padRight (width : Nat) (fill : Char) (text : String) : String :=
  String.ofList (text.toList.rightpad width fill)

-- Lowercase hexadecimal digits, padded with zeros.
def hexDigits (width n : Nat) : String :=
  padLeft width '0' (String.ofList (Nat.toDigits 16 n))

-- An address as listings show it, with at least four digits.
def address (a : Nat) : String :=
  "0x" ++ hexDigits 4 a

end FiveStage.Numeral
