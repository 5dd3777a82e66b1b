import FiveStage.Proofs.Assembly.Validation

namespace FiveStage

namespace Token

-- Whether a token will do in an operand position, and why not.
abbrev Check := String → Except Defect Unit

-- The check that a reading amounts to when its result is not needed.
def accepts {α : Type} (read : String → Except Defect α) : Check :=
  fun token => discard (read token)

-- The first of the tokens that its position refuses, with the reason.
def firstRefused? : List Check → List String → Option (String × Defect)
  | check :: checks, token :: tokens =>
    match check token with
    | .ok () => firstRefused? checks tokens
    | .error defect => some (token, defect)
  | _, _ => none

def checkAll : List Check → List String → Except Defect Unit
  | check :: checks, token :: tokens => do
    check token
    checkAll checks tokens
  | _, _ => pure ()

theorem checkAll_eq (checks : List Check) (tokens : List String) :
    checkAll checks tokens = match firstRefused? checks tokens with
      | none => .ok ()
      | some (_, defect) => .error defect := by
  induction checks generalizing tokens with
  | nil => rfl
  | cons check checks ih =>
    cases tokens with
    | nil => rfl
    | cons token tokens =>
      rw [checkAll, firstRefused?, ih]
      cases check token <;> rfl

theorem mem_of_firstRefused? {checks : List Check} {tokens : List String} {token : String}
    {defect : Defect} (h : firstRefused? checks tokens = some (token, defect)) :
    token ∈ tokens := by
  induction checks generalizing tokens with
  | nil => contradiction
  | cons check checks ih =>
    cases tokens with
    | nil => contradiction
    | cons first rest =>
      rw [firstRefused?] at h
      split at h
      · exact List.mem_cons_of_mem _ (ih h)
      · cases h
        exact List.mem_cons_self

end Token

namespace Opcode.Family

open Token

-- What the assembler asks of the operands, from left to right.
def checks : Family → List Check
  | .arithmetic => [accepts register, accepts register, accepts registerOrImmediate]
  | .moveCompare => [accepts register, accepts registerOrImmediate]
  | .loadStore => [accepts register, accepts address]
  | .branch => [accepts branchTarget]

-- What decode asks of them. It does without the brackets of an address.
def decodeChecks : Family → List Check
  | .loadStore => [accepts register, accepts fun token => register (withoutBrackets token)]
  | family => family.checks

theorem length_decodeChecks (family : Family) :
    family.decodeChecks.length = family.operandCount := by
  cases family <;> rfl

-- Only an address with a bracket missing tells the two apart.
theorem firstRefused?_decodeChecks {family : Family} {operands : List String}
    (h : family = .loadStore → ∀ token, operands[1]? = some token →
      ∃ inner, token.toList = '[' :: (inner ++ [']'])) :
    firstRefused? family.decodeChecks operands = firstRefused? family.checks operands := by
  cases family with
  | loadStore =>
    match operands with
    | [] => rfl
    | [_] => rfl
    | first :: token :: rest =>
      obtain ⟨inner, hinner⟩ := h rfl token rfl
      simp only [decodeChecks, checks, firstRefused?, accepts, address_eq_register hinner]
  | _ => rfl

end Opcode.Family

-- The assembler counts the operands and then checks them from left to right.
theorem Opcode.validate_eq_checkAll {op : Opcode} {operands : List String}
    (h : operands.length = op.operandCount) :
    op.validate operands = Token.checkAll op.family.checks operands := by
  unfold operandCount at h
  unfold validate
  generalize op.family = family at h
  match family, operands, h with
  | .arithmetic, [_, _, _], _ | .moveCompare, [_, _], _ | .loadStore, [_, _], _
  | .branch, [_], _ => simp only [Family.checks, Token.checkAll, Token.accepts, bind_pure_unit]

-- It reports the first one refused.
theorem Opcode.validate_eq {op : Opcode} {operands : List String}
    (h : operands.length = op.operandCount) :
    op.validate operands = match Token.firstRefused? op.family.checks operands with
      | none => .ok ()
      | some (_, defect) => .error defect := by
  rw [validate_eq_checkAll h, Token.checkAll_eq]

namespace Instruction

variable {inst : Instruction}

-- Reads operands from a position on for their checks alone.
def readChecks (inst : Instruction) : Nat → List Token.Check → Except DecodeFault Unit
  | _, [] => pure ()
  | position, check :: checks => do
    inst.readOperand position check
    inst.readChecks (position + 1) checks

theorem readOperand_accepts (position : Nat) (read : String → Except Defect α) :
    inst.readOperand position (Token.accepts read) = discard (inst.readOperand position read) := by
  simp only [readOperand, Token.accepts]
  cases inst.operands[position]? with
  | none => rfl
  | some token =>
    dsimp only
    cases read token <;> rfl

theorem discard_decode :
    discard inst.decode = inst.readChecks 0 inst.opcode.family.decodeChecks := by
  unfold decode
  cases inst.opcode.family <;>
    simp only [Opcode.Family.decodeChecks, Opcode.Family.checks, readChecks, readOperand_accepts,
      discard_eq_bind, bind_assoc, pure_bind]

theorem readChecks_eq {checks : List Token.Check} {position : Nat}
    (h : position + checks.length ≤ inst.operands.length) :
    inst.readChecks position checks =
      match Token.firstRefused? checks (inst.operands.drop position) with
      | none => .ok ()
      | some (token, defect) => .error (.invalidOperand inst.line inst.opcode token defect) := by
  induction checks generalizing position with
  | nil => rfl
  | cons check checks ih =>
    rw [List.length_cons] at h
    have hposition : position < inst.operands.length := by omega
    have hrest := @ih (position + 1) (by omega)
    rw [List.drop_eq_getElem_cons hposition, Token.firstRefused?, readChecks, readOperand,
      List.getElem?_eq_getElem hposition]
    cases hcheck : check inst.operands[position] with
    | ok => simp only [hcheck, bind, Except.bind, hrest]
    | error defect => simp only [hcheck, bind, Except.bind]

-- A position without operand is a fault, unless an earlier operand is one.
theorem readChecks_ne_ok {checks : List Token.Check} {position : Nat}
    (hposition : position ≤ inst.operands.length)
    (h : inst.operands.length < position + checks.length) :
    inst.readChecks position checks ≠ .ok () := by
  induction checks generalizing position with
  | nil =>
    rw [List.length_nil] at h
    omega
  | cons check checks ih =>
    intro hread
    obtain ⟨_, hfirst, hrest⟩ := bind_eq_ok.mp hread
    obtain ⟨token, htoken, -⟩ := readOperand_eq_ok.mp hfirst
    have hlt := (List.getElem?_eq_some_iff.mp htoken).1
    rw [List.length_cons] at h
    exact ih (by omega) (by omega) hrest

theorem readOperand_take {count position : Nat} (read : String → Except Defect α)
    (h : position < count) :
    { inst with operands := inst.operands.take count }.readOperand position read =
      inst.readOperand position read := by
  simp only [readOperand, List.getElem?_take_of_lt h]

theorem decode_take (inst : Instruction) :
    { inst with operands := inst.operands.take inst.opcode.operandCount }.decode =
      inst.decode := by
  unfold decode Opcode.operandCount
  cases inst.opcode.family <;>
    simp (disch := decide) only [Opcode.Family.operandCount, readOperand_take]

-- What the assembler accepts can be decoded. Operands of the right number, an
-- address among them with both its brackets, are decoded just when the
-- assembler accepts them, and refused for the same reason otherwise. Too few
-- operands are never decoded, and any beyond the right number are ignored.
theorem decode_agrees (inst : Instruction) :
    let validated := inst.opcode.validate inst.operands
    let count := inst.opcode.operandCount
    (validated = .ok () → ∃ decoded, inst.decode = .ok decoded) ∧
      (inst.operands.length = count →
        (inst.opcode.family = .loadStore → ∀ token, inst.operands[1]? = some token →
          ∃ inner, token.toList = '[' :: (inner ++ [']'])) →
        ((∃ decoded, inst.decode = .ok decoded) ↔ validated = .ok ()) ∧
          ∀ defect, validated = .error defect → ∃ token ∈ inst.operands,
            inst.decode = .error (.invalidOperand inst.line inst.opcode token defect)) ∧
      (inst.operands.length < count → ∀ decoded, inst.decode ≠ .ok decoded) ∧
      (count ≤ inst.operands.length →
        inst.decode = { inst with operands := inst.operands.take count }.decode) := by
  intro validated count
  have hlength : inst.opcode.family.decodeChecks.length = count :=
    Opcode.Family.length_decodeChecks _
  refine ⟨decode_of_validate, fun hcount hbrackets => ?_, fun hshort decoded hdecode => ?_,
    fun _ => (decode_take inst).symm⟩
  · have hvalidated : validated = _ := Opcode.validate_eq hcount
    have hdecode : discard inst.decode = _ := discard_decode
    rw [readChecks_eq (by omega), List.drop_zero,
      Opcode.Family.firstRefused?_decodeChecks hbrackets] at hdecode
    rw [hvalidated, ← discard_eq_ok (u := ()), hdecode]
    cases hrefused : Token.firstRefused? inst.opcode.family.checks inst.operands with
    | none => simp
    | some refused =>
      obtain ⟨token, defect⟩ := refused
      rw [hrefused] at hdecode
      refine ⟨by simp, fun other hother => ?_⟩
      cases hother
      exact ⟨token, Token.mem_of_firstRefused? hrefused, discard_eq_error.mp hdecode⟩
  · have hread := discard_eq_ok (u := ()).mpr ⟨decoded, hdecode⟩
    rw [discard_decode] at hread
    exact readChecks_ne_ok (Nat.zero_le _) (by omega) hread

-- A register that there is not, in the brackets of an address.
private def misaddressed : Instruction := .build 1 .ldr ["R0", "[R9]"] "LDR R0, [R9]" 1

private def overfull : Instruction := .build 2 .mov ["R0", "#1", "R9"] "MOV R0, #1, R9" 2

theorem decode_agrees_misaddressed :
    (∃ token ∈ ["R0", "[R9]"],
      misaddressed.decode = .error (.invalidOperand 1 .ldr token (.invalidRegister "R9"))) ∧
      overfull.decode = (build 2 .mov ["R0", "#1"] "MOV R0, #1, R9" 2).decode := by
  have hvalidated : Opcode.ldr.validate ["R0", "[R9]"] = .error (.invalidRegister "R9") :=
    rfl
  constructor
  · obtain ⟨-, hexact, -, -⟩ := decode_agrees misaddressed
    have hbrackets : ∀ token, misaddressed.operands[1]? = some token →
        ∃ inner, token.toList = '[' :: (inner ++ [']']) := by
      intro token htoken
      cases htoken
      exact ⟨['R', '9'], by decide⟩
    exact (hexact rfl fun _ => hbrackets).2 _ hvalidated
  · obtain ⟨-, -, -, hsurplus⟩ := decode_agrees overfull
    exact (hsurplus (by decide)).trans rfl

-- Without the brackets an address is decoded and yet not accepted.
example : Opcode.ldr.validate ["R0", "R1"] = .error (.invalidAddress "R1") ∧
    (build 1 .ldr ["R0", "R1"] "LDR R0, R1" 1).decode =
      .ok { source1 := some .r0, source2 := some .r1, destination := some .r0 } :=
  ⟨rfl, rfl⟩

end Instruction

end FiveStage
