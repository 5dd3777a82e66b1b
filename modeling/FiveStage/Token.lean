import FiveStage.Defect
import FiveStage.Numeral.Digits
import FiveStage.Register

namespace FiveStage

-- A second operand: a register or a literal.
inductive Operand
  | register (r : Register)
  | immediate (value : Int32)
  deriving DecidableEq

-- How an operand token reads in each operand position. The assembler checks
-- tokens with these readings and the decode stage uses the same ones.
namespace Token

-- Written like a register, though perhaps naming none.
def isRegisterShaped (token : String) : Bool :=
  token.toList.head? = some 'R' || token == "LR" || token == "SP" || token == "PC"

def isLabelStart (c : Char) : Bool := c.isAlpha || c = '_'

def isLabelPart (c : Char) : Bool := c.isAlphanum || c = '_'

-- Written like a label: an ASCII letter or underscore, then ASCII letters,
-- digits and underscores.
def isLabelShaped (token : String) : Bool :=
  match token.toList with
  | [] => false
  | c :: rest => isLabelStart c && rest.all isLabelPart

def register (token : String) : Except Defect Register :=
  match Register.ofName? token with
  | some r => .ok r
  | none => .error (.invalidRegister token)

-- Takes one sign off: whether the number is negative, and the rest.
def takeSign : List Char → Bool × List Char
  | '-' :: rest => (true, rest)
  | '+' :: rest => (false, rest)
  | text => (false, text)

-- Decimal digits, or `0x` and hexadecimal digits that may bear a sign of
-- their own.
def unsigned? : List Char → Option Int
  | '-' :: _ => none
  | '+' :: _ => none
  | '0' :: 'x' :: hex | '0' :: 'X' :: hex =>
    let (negative, digits) := takeSign hex
    (Numeral.ofDigits? 16 digits).map fun n => if negative then -(n : Int) else n
  | digits => (Numeral.ofDigits? 10 digits).map Int.ofNat

-- A literal without its marker. A minus sign in front negates the rest.
def literal? : List Char → Option Int
  | '-' :: rest => (unsigned? rest).map (- ·)
  | text => unsigned? text

-- The values a word can show, read as signed or as unsigned.
def fitsWord (value : Int) : Bool :=
  Int32.minValue.toInt ≤ value && value < UInt32.size

-- A literal with or without the marker `#`. What lies above the signed range
-- keeps its bit pattern. A bare label means that the label is not defined.
def immediate (token : String) : Except Defect Int32 :=
  let read (text : List Char) : Except Defect Int32 :=
    match (literal? text).filter fitsWord with
    | some value => .ok (Int32.ofInt value)
    | none => .error (.invalidImmediate token)
  match token.toList with
  | '#' :: rest => read rest
  | text => if isLabelShaped token then .error (.undefinedLabel token) else read text

def registerOrImmediate (token : String) : Except Defect Operand :=
  if isRegisterShaped token then Operand.register <$> register token
  else Operand.immediate <$> immediate token

private def withoutClose (text : List Char) : Option (List Char) :=
  if text.getLast? = some ']' then some text.dropLast else none

-- Drops an opening bracket in front and a closing one at the end, each only
-- if it is there.
def withoutBrackets (token : String) : String :=
  let inner := match token.toList with
    | '[' :: rest => rest
    | text => text
  String.ofList ((withoutClose inner).getD inner)

-- A register between brackets.
def address (token : String) : Except Defect Register :=
  match token.toList with
  | '[' :: rest =>
    match withoutClose rest with
    | some inner => register (String.ofList inner)
    | none => .error (.invalidAddress token)
  | _ => .error (.invalidAddress token)

-- With both brackets there, what stands between them is the register.
theorem address_eq_register {token : String} {inner : List Char}
    (h : token.toList = '[' :: (inner ++ [']'])) :
    address token = register (withoutBrackets token) := by
  have hclose : withoutClose (inner ++ [']']) = some inner := by
    simp [withoutClose]
  simp only [address, withoutBrackets, h, hclose, Option.getD_some]

-- The address of an instruction: not negative and a multiple of four.
def branchTarget (token : String) : Except Defect Int32 := do
  let target ← immediate token
  if target < 0 ∨ target.toInt % 4 ≠ 0 then
    throw (.misalignedTarget target.toInt)
  return target

end Token

end FiveStage
