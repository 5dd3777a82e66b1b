namespace FiveStage

inductive Opcode
  | add | sub | mov | ldr | str | cmp | b | beq | bne
  deriving DecidableEq

-- The operand layouts: destination, source, second source (`arithmetic`);
-- register, second source (`moveCompare`); data register, address register
-- (`loadStore`); target address (`branch`).
inductive Opcode.Family
  | arithmetic | moveCompare | loadStore | branch
  deriving DecidableEq

namespace Opcode

def all : List Opcode := [add, sub, mov, ldr, str, cmp, b, beq, bne]

def mnemonic : Opcode → String
  | add => "ADD"
  | sub => "SUB"
  | mov => "MOV"
  | ldr => "LDR"
  | str => "STR"
  | cmp => "CMP"
  | b => "B"
  | beq => "BEQ"
  | bne => "BNE"

-- Mnemonics are exact: letter case counts.
def ofMnemonic? (mnemonic : String) : Option Opcode :=
  all.find? fun op => op.mnemonic == mnemonic

@[simp] theorem ofMnemonic?_mnemonic (op : Opcode) : ofMnemonic? op.mnemonic = some op := by
  cases op <;> decide

-- The number that stands for the opcode in an encoded instruction.
def index : Opcode → Nat
  | add => 0
  | sub => 1
  | mov => 2
  | ldr => 3
  | str => 4
  | cmp => 5
  | b => 6
  | beq => 7
  | bne => 8

def family : Opcode → Family
  | add | sub => .arithmetic
  | mov | cmp => .moveCompare
  | ldr | str => .loadStore
  | b | beq | bne => .branch

def Family.operandCount : Family → Nat
  | .arithmetic => 3
  | .moveCompare | .loadStore => 2
  | .branch => 1

def operandCount (op : Opcode) : Nat :=
  op.family.operandCount

def isBranch (op : Opcode) : Bool :=
  op.family = .branch

end Opcode

end FiveStage
