import FiveStage.Proofs.Assembly.Lines

namespace FiveStage

namespace Token

-- What a token says as an operand, other than as an address in brackets.
inductive Denotes : String → Operand → Prop
  | register (r : Register) : Denotes r.name (.register r)
  | immediate {token : String} {value : Int32} (h : Token.immediate token = .ok value) :
      Denotes token (.immediate value)

section Denotes

variable {token : String}

theorem denotes_of_register {r : Register} (h : Token.register token = .ok r) :
    Denotes token (.register r) := by
  unfold Token.register at h
  split at h
  · next hname =>
    cases h
    rw [← Register.name_of_ofName? hname]
    exact .register r
  · contradiction

theorem denotes_of_registerOrImmediate {operand : Operand}
    (h : registerOrImmediate token = .ok operand) : Denotes token operand := by
  unfold registerOrImmediate at h
  split at h
  · obtain ⟨r, hr, rfl⟩ := map_eq_ok.mp h
    exact denotes_of_register hr
  · obtain ⟨value, hvalue, rfl⟩ := map_eq_ok.mp h
    exact .immediate hvalue

theorem denotes_of_branchTarget {target : Int32} (h : branchTarget token = .ok target) :
    Denotes token (.immediate target) := by
  obtain ⟨value, hvalue, hrest⟩ := bind_eq_ok.mp h
  split at hrest
  · contradiction
  · cases hrest
    exact .immediate hvalue

theorem bracket_of_address {r : Register} (h : address token = .ok r) :
    token.toList.head? = some '[' := by
  unfold address at h
  split at h
  · next hlist => rw [hlist, List.head?_cons]
  · contradiction

-- A register's name is no literal either, for it is written like a label.
theorem Denotes.eq_register {r : Register} {operand : Operand} (h : Denotes r.name operand) :
    operand = .register r := by
  generalize hname : r.name = name at h
  cases h with
  | register other =>
    have hsame := Register.ofName?_name r
    rw [hname, Register.ofName?_name] at hsame
    rw [Option.some.inj hsame]
  | immediate hvalue =>
    subst hname
    cases r <;> contradiction

theorem Denotes.exists_immediate {operand : Operand} (h : Denotes token operand)
    (hmarked : token.toList.head? = some '#') :
    ∃ value, Token.immediate token = .ok value ∧ operand = .immediate value := by
  cases h with
  | register r => cases r <;> contradiction
  | immediate hvalue => exact ⟨_, hvalue, rfl⟩

end Denotes

end Token

namespace OperandFields

-- The second operand of an instruction that is not a load or store.
def second? (decoded : OperandFields) : Option Operand :=
  (decoded.source2.map .register).or (decoded.immediate.map .immediate)

section WithSecond

variable (decoded : OperandFields) (second : Operand)

@[simp] theorem destination_withSecond :
    (decoded.withSecond second).destination = decoded.destination := by
  cases second <;> rfl

@[simp] theorem source1_withSecond : (decoded.withSecond second).source1 = decoded.source1 := by
  cases second <;> rfl

theorem second?_withSecond (destination source : Option Register) :
    (withSecond { destination := destination, source1 := source } second).second? =
      some second := by
  cases second <;> rfl

end WithSecond

-- The operand at a position of the source line, from the field that the
-- stages take it from. An instruction that writes no register reads the first.
def operand? (decoded : OperandFields) (op : Opcode) (position : Nat) : Option Operand :=
  let first := if op.signals.regWrite then decoded.destination else decoded.source1
  match op.family, position with
  | .arithmetic, 0 | .moveCompare, 0 | .loadStore, 0 => first.map .register
  | .arithmetic, 1 => decoded.source1.map .register
  | .arithmetic, 2 | .moveCompare, 1 => decoded.second?
  | .loadStore, 1 => decoded.source2.map .register
  | .branch, 0 => decoded.immediate.map .immediate
  | _, _ => none

end OperandFields

-- Fields that tokens are read into hold what the tokens say.
theorem OperandFields.ReadFrom.exists_operand {op : Opcode} {operands : List String}
    {decoded : OperandFields} {position : Nat} {token : String}
    (h : decoded.ReadFrom op.family operands) (htoken : operands[position]? = some token)
    (hplain : token.toList.head? ≠ some '[') :
    ∃ operand, decoded.operand? op position = some operand ∧ Token.Denotes token operand := by
  have hwrites : op.family = .arithmetic → op.signals.regWrite = true := by
    cases op <;> decide
  unfold operand?
  generalize op.family = family at h hwrites
  cases h with
  | arithmetic hdestination hsource hsecond =>
    rw [hwrites rfl]
    match position with
    | 0 =>
      cases htoken
      exact ⟨_, by simp, Token.denotes_of_register hdestination⟩
    | 1 =>
      cases htoken
      exact ⟨_, by simp, Token.denotes_of_register hsource⟩
    | 2 =>
      cases htoken
      exact ⟨_, second?_withSecond .., Token.denotes_of_registerOrImmediate hsecond⟩
    | _ + 3 => contradiction
  | moveCompare hregister hsecond =>
    match position with
    | 0 =>
      cases htoken
      exact ⟨_, by simp, Token.denotes_of_register hregister⟩
    | 1 =>
      cases htoken
      exact ⟨_, second?_withSecond .., Token.denotes_of_registerOrImmediate hsecond⟩
    | _ + 2 => contradiction
  | loadStore hregister haddress =>
    match position with
    | 0 =>
      cases htoken
      exact ⟨_, by simp, Token.denotes_of_register hregister⟩
    | 1 =>
      cases htoken
      exact absurd (Token.bracket_of_address haddress) hplain
    | _ + 2 => contradiction
  | branch htarget =>
    match position with
    | 0 =>
      cases htoken
      exact ⟨_, rfl, Token.denotes_of_branchTarget htarget⟩
    | _ + 1 => contradiction

namespace Assembly

-- An operand token that the program defines as a label gives way to the
-- label's offset, be it a register's name or a literal. Any other token stays
-- as it is, and a register or literal written there is the one decoded.
theorem operand_of_token {policy : Redefinition} {firstId position : Nat} {text token : String}
    {inst : Instruction} {line : SourceLine}
    (hinst : inst ∈ (ofText policy firstId text).instructions)
    (hline : line ∈ SourceLine.ofText text) (hnumber : line.number = inst.line)
    (htoken : line.tokens.tail[position]? = some token) :
    (∀ definition, SourceLine.definition? policy (SourceLine.ofText text) token = some definition →
      inst.operands[position]? = some ("#" ++ toString (UInt32.ofNat
        (4 * SourceLine.slotsBefore (SourceLine.ofText text) definition.number)).toNat)) ∧
      ((∀ other ∈ SourceLine.ofText text, other.definedLabel? ≠ some token) →
        inst.operands[position]? = some token ∧
        ∃ decoded, inst.decode = .ok decoded ∧
          (∀ r : Register, token = r.name →
            decoded.operand? inst.opcode position = some (.register r)) ∧
          (token.toList.head? = some '#' → ∃ value, Token.immediate token = .ok value ∧
            decoded.operand? inst.opcode position = some (.immediate value))) := by
  obtain ⟨hoperands, hvalid⟩ := reading_eq_ok (reading_of_mem_instructions hinst hline hnumber)
  have hresolved : inst.operands[position]? =
      some ((LabelTable.ofLines policy (SourceLine.ofText text)).1.resolve token) := by
    rw [hoperands, List.getElem?_map, htoken, Option.map_some]
  rw [LabelTable.resolve_ofLines_ofText] at hresolved
  refine ⟨fun definition hdefinition => ?_, fun hfree => ?_⟩
  · rw [hresolved, hdefinition]
  · rw [SourceLine.definition?_eq_none_iff.mpr hfree] at hresolved
    obtain ⟨decoded, hread⟩ := Opcode.exists_readFrom_of_validate hvalid
    refine ⟨hresolved, decoded, Instruction.decode_of_readFrom hread, fun r hname => ?_,
      fun hmarked => ?_⟩
    · subst hname
      have hplain : r.name.toList.head? ≠ some '[' := by
        cases r <;> decide
      obtain ⟨operand, hoperand, hdenotes⟩ := hread.exists_operand hresolved hplain
      rw [hoperand, hdenotes.eq_register]
    · have hplain : token.toList.head? ≠ some '[' := by
        rw [hmarked]
        decide
      obtain ⟨operand, hoperand, hdenotes⟩ := hread.exists_operand hresolved hplain
      obtain ⟨value, hvalue, rfl⟩ := hdenotes.exists_immediate hmarked
      exact ⟨value, hvalue, hoperand⟩

-- A label that is named like a register.
private def shadowing : String :=
  "R1: MOV R0, #1\nADD R2, R0, R1"

private def shadowed : Instruction := .build 2 .add ["R2", "R0", "#0"] "ADD R2, R0, R1" 2

private theorem mem_shadowing : shadowed ∈ (ofText .refused 1 shadowing).instructions ∧
    SourceLine.ofRaw 2 "ADD R2, R0, R1" ∈ SourceLine.ofText shadowing := by
  decide +kernel

theorem operand_of_token_shadowing :
    shadowed ∈ (ofText .refused 1 shadowing).instructions ∧
      shadowed.operands[2]? = some "#0" ∧
      ∃ decoded, shadowed.decode = .ok decoded ∧
        decoded.operand? .add 1 = some (.register .r0) := by
  obtain ⟨hinst, hline⟩ := mem_shadowing
  have htokens : (SourceLine.ofRaw 2 "ADD R2, R0, R1").tokens.tail[1]? = some "R0" ∧
      (SourceLine.ofRaw 2 "ADD R2, R0, R1").tokens.tail[2]? = some "R1" := by decide +kernel
  have hdefinition : SourceLine.definition? .refused (SourceLine.ofText shadowing) "R1" =
      some (.ofRaw 1 "R1: MOV R0, #1") := by decide +kernel
  have hfree : ∀ other ∈ SourceLine.ofText shadowing, other.definedLabel? ≠ some "R0" := by
    decide +kernel
  have hlabel : shadowed.operands[2]? = some "#0" :=
    (operand_of_token hinst hline rfl htokens.2).1 _ hdefinition
  obtain ⟨-, decoded, hdecode, hregister, -⟩ :=
    (operand_of_token hinst hline rfl htokens.1).2 hfree
  exact ⟨hinst, hlabel, decoded, hdecode, hregister .r0 rfl⟩

-- Registers and literals alone are not kept from being labels.
theorem not_operand_of_token_unchanged :
    ¬ ∀ (policy : Redefinition) (firstId position : Nat) (text token : String)
        (inst : Instruction) (line : SourceLine),
      inst ∈ (ofText policy firstId text).instructions → line ∈ SourceLine.ofText text →
      line.number = inst.line → line.tokens.tail[position]? = some token →
      ((∃ r : Register, token = r.name) ∨ token.toList.head? = some '#') →
      inst.operands[position]? = some token := by
  intro hunchanged
  obtain ⟨hinst, hline⟩ := mem_shadowing
  have htoken : (SourceLine.ofRaw 2 "ADD R2, R0, R1").tokens.tail[2]? = some "R1" := by
    decide +kernel
  have hoperand := hunchanged .refused 1 2 shadowing "R1" shadowed _ hinst hline rfl htoken
    (.inl ⟨.r1, rfl⟩)
  exact absurd hoperand (by decide)

end Assembly

end FiveStage
