import FiveStage.Token

namespace FiveStage.Encoding

-- The condition "always", with which every instruction begins.
def always : UInt32 := 0b1110

-- A register operand with or without address brackets; any other token counts
-- as register 0.
def registerNumber (token : Option String) : UInt32 :=
  match token.map fun t => Token.register (Token.withoutBrackets t) with
  | some (.ok r) => UInt32.ofNat r.index.val
  | _ => 0

-- The immediate marker and the second operand. A token that is neither a
-- register nor an immediate counts as register 0.
def secondOperand (token : Option String) : UInt32 × UInt32 :=
  match token.map Token.registerOrImmediate with
  | some (.ok (.register r)) => (0, UInt32.ofNat r.index.val)
  | some (.ok (.immediate value)) => (1, value.toUInt32 &&& 0x7FFF)
  | _ => (0, 0)

def target (token : Option String) : UInt32 :=
  match token.map Token.immediate with
  | some (.ok value) => value.toUInt32 &&& 0x00FFFFFF
  | _ => 0

-- The word shown for an instruction: condition, opcode, and then either a
-- 24-bit target or the immediate marker, two registers and a 15-bit second
-- operand.
def word (opcode : Opcode) (operands : List String) : UInt32 :=
  let start := always <<< 28 ||| UInt32.ofNat opcode.index <<< 24
  match opcode.family with
  | .branch => start ||| target operands[0]?
  | .arithmetic =>
    let (marker, second) := secondOperand operands[2]?
    start ||| marker <<< 23 ||| registerNumber operands[0]? <<< 19 |||
      registerNumber operands[1]? <<< 15 ||| second
  | .moveCompare =>
    let (marker, second) := secondOperand operands[1]?
    start ||| marker <<< 23 ||| registerNumber operands[0]? <<< 19 ||| second
  | .loadStore =>
    start ||| registerNumber operands[0]? <<< 19 ||| registerNumber operands[1]? <<< 15

-- The binary digits of a word, with zeros in front if there are less than 32.
def digits (word : UInt32) : List Char :=
  (Nat.toDigits 2 word.toNat).leftpad 32 '0'

def bits (opcode : Opcode) (operands : List String) : List Char :=
  digits (word opcode operands)

end FiveStage.Encoding
