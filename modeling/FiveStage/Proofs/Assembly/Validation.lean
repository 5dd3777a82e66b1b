import FiveStage.Assembly.Basic
import FiveStage.Proofs.Instruction.Decoding

namespace FiveStage

namespace Token

-- An address in its brackets is one that decode takes.
theorem register_withoutBrackets {token : String} {r : Register} (h : address token = .ok r) :
    register (withoutBrackets token) = .ok r := by
  unfold address at h
  split at h
  · next rest hlist =>
    split at h
    · next inner hinner => simpa only [withoutBrackets, hlist, hinner, Option.getD_some] using h
    · contradiction
  · contradiction

end Token

-- The one defect that is found while labels are collected.
def Defect.isDuplicateLabel : Defect → Bool
  | .duplicateLabel .. => true
  | _ => false

namespace Token

variable {token : String} {defect : Defect}

theorem not_isDuplicateLabel_of_register (h : register token = .error defect) :
    defect.isDuplicateLabel = false := by
  unfold register at h
  split at h <;> cases h
  rfl

theorem not_isDuplicateLabel_of_immediate (h : immediate token = .error defect) :
    defect.isDuplicateLabel = false := by
  unfold immediate at h
  dsimp only at h
  split at h
  · split at h <;> cases h
    rfl
  · split at h
    · cases h
      rfl
    · split at h <;> cases h
      rfl

theorem not_isDuplicateLabel_of_registerOrImmediate
    (h : registerOrImmediate token = .error defect) : defect.isDuplicateLabel = false := by
  unfold registerOrImmediate at h
  split at h
  · exact not_isDuplicateLabel_of_register (map_eq_error.mp h)
  · exact not_isDuplicateLabel_of_immediate (map_eq_error.mp h)

theorem not_isDuplicateLabel_of_address (h : address token = .error defect) :
    defect.isDuplicateLabel = false := by
  unfold address at h
  split at h
  · split at h
    · exact not_isDuplicateLabel_of_register h
    · cases h
      rfl
  · cases h
    rfl

theorem not_isDuplicateLabel_of_branchTarget (h : branchTarget token = .error defect) :
    defect.isDuplicateLabel = false := by
  unfold branchTarget at h
  cases bind_eq_error.mp h with
  | inl himmediate => exact not_isDuplicateLabel_of_immediate himmediate
  | inr hrest =>
    obtain ⟨target, -, hrest⟩ := hrest
    split at hrest
    · cases hrest
      rfl
    · contradiction

end Token

theorem Opcode.not_isDuplicateLabel_of_validate {op : Opcode} {operands : List String}
    {defect : Defect} (h : op.validate operands = .error defect) :
    defect.isDuplicateLabel = false := by
  unfold validate at h
  split at h
  all_goals try simp only [bind_eq_error, discard_eq_error, discard_eq_ok] at h
  case h_1 =>
    rcases h with hd | ⟨-, -, hs | ⟨-, -, hx⟩⟩
    · exact Token.not_isDuplicateLabel_of_register hd
    · exact Token.not_isDuplicateLabel_of_register hs
    · exact Token.not_isDuplicateLabel_of_registerOrImmediate hx
  case h_2 =>
    rcases h with hr | ⟨-, -, hx⟩
    · exact Token.not_isDuplicateLabel_of_register hr
    · exact Token.not_isDuplicateLabel_of_registerOrImmediate hx
  case h_3 =>
    rcases h with hr | ⟨-, -, ha⟩
    · exact Token.not_isDuplicateLabel_of_register hr
    · exact Token.not_isDuplicateLabel_of_address ha
  case h_4 => exact Token.not_isDuplicateLabel_of_branchTarget h
  case h_5 =>
    cases h
    rfl

-- The operand fields that the tokens of a family are read into.
inductive OperandFields.ReadFrom : Opcode.Family → List String → OperandFields → Prop
  | arithmetic {destination source second : String} {d s : Register} {x : Operand}
      (hdestination : Token.register destination = .ok d) (hsource : Token.register source = .ok s)
      (hsecond : Token.registerOrImmediate second = .ok x) :
      ReadFrom .arithmetic [destination, source, second]
        (withSecond { destination := some d, source1 := some s } x)
  | moveCompare {register second : String} {r : Register} {x : Operand}
      (hregister : Token.register register = .ok r)
      (hsecond : Token.registerOrImmediate second = .ok x) :
      ReadFrom .moveCompare [register, second]
        (withSecond { destination := some r, source1 := some r } x)
  | loadStore {register address : String} {r a : Register}
      (hregister : Token.register register = .ok r) (haddress : Token.address address = .ok a) :
      ReadFrom .loadStore [register, address]
        { destination := some r, source1 := some r, source2 := some a }
  | branch {target : String} {t : Int32} (htarget : Token.branchTarget target = .ok t) :
      ReadFrom .branch [target] { immediate := some t }

theorem Opcode.exists_readFrom_of_validate {op : Opcode} {operands : List String}
    (h : op.validate operands = .ok ()) :
    ∃ decoded, OperandFields.ReadFrom op.family operands decoded := by
  unfold validate at h
  split at h
  all_goals try simp only [bind_eq_ok, discard_eq_ok] at h
  case h_1 hfamily =>
    obtain ⟨-, ⟨d, hd⟩, -, ⟨s, hs⟩, x, hx⟩ := h
    rw [hfamily]
    exact ⟨_, .arithmetic hd hs hx⟩
  case h_2 hfamily =>
    obtain ⟨-, ⟨r, hr⟩, x, hx⟩ := h
    rw [hfamily]
    exact ⟨_, .moveCompare hr hx⟩
  case h_3 hfamily =>
    obtain ⟨-, ⟨r, hr⟩, a, ha⟩ := h
    rw [hfamily]
    exact ⟨_, .loadStore hr ha⟩
  case h_4 hfamily =>
    obtain ⟨t, ht⟩ := h
    rw [hfamily]
    exact ⟨_, .branch ht⟩
  case h_5 => contradiction

namespace Instruction

variable {inst : Instruction}

-- The decode stage reads the operands as the assembler does.
theorem decode_of_readFrom {decoded : OperandFields}
    (h : decoded.ReadFrom inst.opcode.family inst.operands) : inst.decode = .ok decoded := by
  unfold decode
  generalize hfamily : inst.opcode.family = family at h
  generalize hoperands : inst.operands = operands at h
  cases h <;> simp only [bind_eq_ok, readOperand_eq_ok, hoperands]
  case arithmetic d s x hd hs hx =>
    exact ⟨d, ⟨_, rfl, hd⟩, s, ⟨_, rfl, hs⟩, x, ⟨_, rfl, hx⟩, rfl⟩
  case moveCompare r x hr hx => exact ⟨r, ⟨_, rfl, hr⟩, x, ⟨_, rfl, hx⟩, rfl⟩
  case loadStore r a hr ha =>
    exact ⟨r, ⟨_, rfl, hr⟩, a, ⟨_, rfl, Token.register_withoutBrackets ha⟩, rfl⟩
  case branch t ht => exact ⟨t, ⟨_, rfl, ht⟩, rfl⟩

-- Operands that pass are read again without a fault.
theorem decode_of_validate (h : inst.opcode.validate inst.operands = .ok ()) :
    ∃ decoded, inst.decode = .ok decoded := by
  obtain ⟨decoded, hread⟩ := Opcode.exists_readFrom_of_validate h
  exact ⟨decoded, decode_of_readFrom hread⟩

end Instruction

end FiveStage
