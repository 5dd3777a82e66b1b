import FiveStage.Instruction.Control
import FiveStage.Instruction.Decoding
import FiveStage.Proofs.Except

namespace FiveStage

-- The operand fields that a family of opcodes fills: a second operand is a
-- register or a literal, never both and never neither.
inductive OperandFields.Laid : Opcode.Family → OperandFields → Prop
  | arithmetic (destination source : Register) (second : Operand) :
      Laid .arithmetic
        (withSecond { destination := some destination, source1 := some source } second)
  | moveCompare (register : Register) (second : Operand) :
      Laid .moveCompare
        (withSecond { destination := some register, source1 := some register } second)
  | loadStore (register address : Register) :
      Laid .loadStore
        { destination := some register, source1 := some register, source2 := some address }
  | branch (target : Int32) : Laid .branch { immediate := some target }

theorem Opcode.family_of_usesMemory {op : Opcode} (h : op.signals.usesMemory) :
    op.family = .loadStore := by
  revert h
  cases op <;> decide

theorem OperandFields.Laid.source2_isSome {op : Opcode} {decoded : OperandFields}
    (h : decoded.Laid op.family) (hmemory : op.signals.usesMemory) : decoded.source2.isSome := by
  rw [Opcode.family_of_usesMemory hmemory] at h
  cases h
  rfl

namespace Instruction

variable {inst : Instruction}

theorem readOperand_eq_ok {read : String → Except Defect α} {position : Nat} {value : α} :
    inst.readOperand position read = .ok value ↔
      ∃ token, inst.operands[position]? = some token ∧ read token = .ok value := by
  unfold readOperand
  cases inst.operands[position]? with
  | none => simp
  | some token => cases hread : read token <;> simp [hread]

-- Decoding fills the fields of the opcode's family and no others.
theorem laid_of_decode {decoded : OperandFields} (h : inst.decode = .ok decoded) :
    decoded.Laid inst.opcode.family := by
  unfold decode at h
  cases hfamily : inst.opcode.family <;>
    simp only [hfamily, bind_eq_ok, pure, Except.pure, Except.ok.injEq] at h
  case arithmetic =>
    obtain ⟨destination, -, source, -, second, -, rfl⟩ := h
    exact .arithmetic destination source second
  case moveCompare =>
    obtain ⟨register, -, second, -, rfl⟩ := h
    exact .moveCompare register second
  case loadStore =>
    obtain ⟨register, -, address, -, rfl⟩ := h
    exact .loadStore register address
  case branch =>
    obtain ⟨target, -, rfl⟩ := h
    exact .branch target

end Instruction

end FiveStage
