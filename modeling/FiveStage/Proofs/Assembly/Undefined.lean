import FiveStage.Proofs.Assembly.Redefinition
import FiveStage.Proofs.Token.Target

namespace FiveStage

namespace Token

section Shape

variable {token : String}

-- What is written like a label is read as one that is not defined.
theorem immediate_of_isLabelShaped (h : isLabelShaped token) :
    immediate token = .error (.undefinedLabel token) := by
  have hhead : token.toList.head? ≠ some '#' := by
    intro hmarked
    obtain ⟨rest, hlist⟩ := List.head?_eq_some_iff.mp hmarked
    simp only [isLabelShaped, hlist] at h
    contradiction
  rw [immediate_eq, if_pos ⟨hhead, h⟩]

theorem branchTarget_of_isLabelShaped (h : isLabelShaped token) :
    branchTarget token = .error (.undefinedLabel token) := by
  rw [branchTarget, immediate_of_isLabelShaped h]
  rfl

-- Where there may be a register, the letter of the registers decides what an
-- unknown name is meant to be.
theorem registerOrImmediate_of_isLabelShaped (h : isLabelShaped token)
    (hname : ∀ r : Register, token ≠ r.name) :
    registerOrImmediate token =
      .error (if token.toList.head? = some 'R' then .invalidRegister token
        else .undefinedLabel token) := by
  have hspecial : token ≠ "LR" ∧ token ≠ "SP" ∧ token ≠ "PC" :=
    ⟨hname .lr, hname .sp, hname .pc⟩
  have hnone : Register.ofName? token = none := by
    rw [Option.eq_none_iff_forall_ne_some]
    exact fun r hr => hname r (Register.name_of_ofName? hr).symm
  unfold registerOrImmediate isRegisterShaped
  by_cases hletter : token.toList.head? = some 'R'
  · simp [hletter, register, hnone]
  · simp [hletter, hspecial, immediate_of_isLabelShaped h]

end Shape

section Last

variable {checks rest : List Check} {tokens others : List String}

theorem checkAll_append (h : checks.length = tokens.length) :
    checkAll (checks ++ rest) (tokens ++ others) =
      checkAll checks tokens >>= fun _ => checkAll rest others := by
  induction checks generalizing tokens with
  | nil =>
    rw [List.eq_nil_of_length_eq_zero h.symm]
    rfl
  | cons check checks ih =>
    cases tokens with
    | nil => contradiction
    | cons token tokens =>
      simp only [List.cons_append, checkAll, bind_assoc]
      rw [ih (Nat.succ.inj h)]

theorem checkAll_register (h : ∀ token ∈ tokens, ∃ r, register token = .ok r) (count : Nat) :
    checkAll (List.replicate count (accepts register)) tokens = .ok () := by
  induction tokens generalizing count with
  | nil => cases count <;> rfl
  | cons token tokens ih =>
    cases count with
    | zero => rfl
    | succ count =>
      obtain ⟨r, hr⟩ := h token List.mem_cons_self
      have hrest := ih (fun other hother => h other (List.mem_cons_of_mem _ hother)) count
      rw [List.replicate_succ, checkAll, accepts, hr]
      exact hrest

end Last

end Token

namespace Opcode

open Token

-- What is asked of the last operand. Those before it are registers.
def Family.lastCheck : Family → Check
  | .arithmetic | .moveCompare => accepts registerOrImmediate
  | .loadStore => accepts address
  | .branch => accepts branchTarget

theorem Family.checks_eq (family : Family) :
    family.checks =
      List.replicate (family.operandCount - 1) (accepts register) ++ [family.lastCheck] := by
  cases family <;> rfl

-- Behind registers it is the last operand that decides.
theorem validate_of_last {op : Opcode} {registers : List String} {last : String}
    (hcount : registers.length + 1 = op.operandCount)
    (hregisters : ∀ token ∈ registers, ∃ r, register token = .ok r) :
    op.validate (registers ++ [last]) = op.family.lastCheck last := by
  have hlength : (registers ++ [last]).length = op.operandCount := by simpa using hcount
  have hbefore : (List.replicate (op.family.operandCount - 1) (accepts register)).length =
      registers.length := by
    rw [List.length_replicate, ← operandCount, ← hcount, Nat.add_sub_cancel]
  rw [validate_eq_checkAll hlength, Family.checks_eq, checkAll_append hbefore,
    checkAll_register hregisters]
  change (op.family.lastCheck last >>= fun _ => pure ()) = op.family.lastCheck last
  exact bind_pure_unit

-- An unknown name in a position that admits a literal.
theorem Family.lastCheck_of_isLabelShaped {family : Family} {token : String}
    (hfamily : family ≠ .loadStore) (hshape : isLabelShaped token)
    (hname : ∀ r : Register, token ≠ r.name) :
    family.lastCheck token =
      .error (if family ≠ .branch ∧ token.toList.head? = some 'R' then .invalidRegister token
        else .undefinedLabel token) := by
  cases family with
  | loadStore => contradiction
  | branch =>
    rw [lastCheck, accepts, branchTarget_of_isLabelShaped hshape]
    rfl
  | arithmetic | moveCompare =>
    rw [lastCheck, accepts, registerOrImmediate_of_isLabelShaped hshape hname]
    simp only [ne_eq, reduceCtorEq, not_false_eq_true, true_and]
    rfl

end Opcode

namespace SourceLine

-- A line with an opcode and the right number of operands, all of them
-- registers but perhaps the last one.
structure RightUpTo (labels : LabelTable) (op : Opcode) (registers : List String) (last : String)
    (line : SourceLine) : Prop where
  tokens : ∃ mnemonic, line.tokens = mnemonic :: (registers ++ [last]) ∧
    Opcode.ofMnemonic? (String.ofList (Text.uppercase mnemonic.toList)) = some op
  count : registers.length + 1 = op.operandCount
  registers : ∀ token ∈ registers, ∃ r, Token.register (labels.resolve token) = .ok r

theorem hasInstruction_of_tokens {line : SourceLine} (h : line.tokens ≠ []) :
    line.hasInstruction := by
  by_contra hnone
  have hbody : line.body = "" := by simpa [hasInstruction] using hnone
  exact h (by rw [tokens, hbody]; rfl)

theorem RightUpTo.fault?_eq {labels : LabelTable} {op : Opcode} {registers : List String}
    {last : String} {line : SourceLine} {defect : Defect}
    (h : line.RightUpTo labels op registers last)
    (hlast : op.family.lastCheck (labels.resolve last) = .error defect) :
    fault? labels line = some defect := by
  obtain ⟨mnemonic, htokens, hopcode⟩ := h.tokens
  have hline : line.hasInstruction := hasInstruction_of_tokens (by simp [htokens])
  have hresolved : ∀ token ∈ registers.map labels.resolve, ∃ r, Token.register token = .ok r := by
    simpa using h.registers
  have hvalidate : op.validate ((registers ++ [last]).map labels.resolve) = .error defect := by
    rw [List.map_append, List.map_singleton,
      Opcode.validate_of_last (by simpa using h.count) hresolved, hlast]
  rw [fault?_eq_some_iff]
  refine ⟨hline, ?_⟩
  unfold Assembly.reading
  simp only [htokens, hopcode, hvalidate]
  rfl

end SourceLine

namespace Assembly

open SourceLine

-- What is reported of a line, but for a label that is defined again.
def faultsOn (assembly : Assembly) (number : Nat) : List Diagnostic :=
  assembly.diagnostics.filter fun found => !found.defect.isDuplicateLabel && found.line = number

section Text

variable {policy : Redefinition} {firstId : Nat} {text : String} {line : SourceLine}

theorem faultsOn_ofText (h : line ∈ SourceLine.ofText text) :
    (ofText policy firstId text).faultsOn line.number =
      (fault? (LabelTable.ofLines policy (SourceLine.ofText text)).1 line).toList.map
        (Diagnostic.on line) := by
  have hsplit : (ofText policy firstId text).faultsOn line.number =
      ((ofText policy firstId text).diagnostics.filter
        fun found => !found.defect.isDuplicateLabel).filter
          fun found => found.line = line.number := by
    rw [faultsOn, List.filter_filter]
    exact List.filter_congr fun _ _ => Bool.and_comm ..
  rw [hsplit, filter_diagnostics_ofText, filter_line_flatMap_on _ h]

end Text

-- A name in the place of a literal that is neither a register nor a label of
-- the program is reported as an undefined label. Where the place is one for a
-- register too, a name with the letter of the registers is taken for one.
theorem reports_unknown_name {policy : Redefinition} {firstId : Nat} {text : String}
    {op : Opcode} {registers : List String} {last : String} {line : SourceLine}
    (hline : line ∈ SourceLine.ofText text)
    (hright : line.RightUpTo (LabelTable.ofLines policy (SourceLine.ofText text)).1 op
      registers last)
    (hfamily : op.family ≠ .loadStore) (hshape : Token.isLabelShaped last)
    (hname : ∀ r : Register, last ≠ r.name)
    (hfree : ∀ other ∈ SourceLine.ofText text, other.definedLabel? ≠ some last) :
    (ofText policy firstId text).instructionsOn line.number = [] ∧
      (ofText policy firstId text).faultsOn line.number =
        [.on line (if op.family ≠ .branch ∧ last.toList.head? = some 'R' then .invalidRegister last
          else .undefinedLabel last)] := by
  have hresolve : (LabelTable.ofLines policy (SourceLine.ofText text)).1.resolve last = last := by
    refine LabelTable.resolve_of_not_mem_names fun hmem => ?_
    obtain ⟨other, hother, hlabel⟩ := LabelTable.mem_names_ofLines_ofText.mp hmem
    exact hfree other hother hlabel
  have hcheck := Opcode.Family.lastCheck_of_isLabelShaped hfamily hshape hname
  have hfault := hright.fault?_eq ((congrArg op.family.lastCheck hresolve).trans hcheck)
  have hnone : ((ofText policy firstId text).instructionsOn line.number).length = 0 := by
    simp [length_instructionsOn_ofText hline, hfault]
  refine ⟨List.eq_nil_of_length_eq_zero hnone, ?_⟩
  rw [faultsOn_ofText hline, hfault]
  rfl

-- A name that nothing defines, in both of its places.
private def undefining : String :=
  "MOV R0, RESULT\nBEQ RESULT"

private theorem mem_undefining :
    SourceLine.ofRaw 1 "MOV R0, RESULT" ∈ SourceLine.ofText undefining ∧
      SourceLine.ofRaw 2 "BEQ RESULT" ∈ SourceLine.ofText undefining ∧
      ∀ other ∈ SourceLine.ofText undefining, other.definedLabel? ≠ some "RESULT" := by
  decide +kernel

private theorem rightUpTo_undefining :
    RightUpTo (LabelTable.ofLines .refused (SourceLine.ofText undefining)).1 .mov ["R0"] "RESULT"
      (.ofRaw 1 "MOV R0, RESULT") where
  tokens := ⟨"MOV", by decide +kernel, by decide⟩
  count := rfl
  registers := by
    have hregister : Token.register
        ((LabelTable.ofLines .refused (SourceLine.ofText undefining)).1.resolve "R0") =
          .ok .r0 := by
      decide +kernel
    simpa using ⟨_, hregister⟩

private theorem ne_name_result (r : Register) : "RESULT" ≠ r.name := by
  cases r <;> decide

theorem reports_unknown_name_result :
    (ofText .refused 1 undefining).faultsOn 1 =
        [.on (.ofRaw 1 "MOV R0, RESULT") (.invalidRegister "RESULT")] ∧
      (ofText .refused 1 undefining).faultsOn 2 =
        [.on (.ofRaw 2 "BEQ RESULT") (.undefinedLabel "RESULT")] := by
  obtain ⟨hmove, hbranch, hfree⟩ := mem_undefining
  have hright : RightUpTo (LabelTable.ofLines .refused (SourceLine.ofText undefining)).1 .beq []
      "RESULT" (.ofRaw 2 "BEQ RESULT") :=
    ⟨⟨"BEQ", by decide +kernel, by decide⟩, rfl, by simp⟩
  exact ⟨(reports_unknown_name hmove rightUpTo_undefining (by decide) (by decide)
      ne_name_result hfree).2,
    (reports_unknown_name hbranch hright (by decide) (by decide) ne_name_result hfree).2⟩

-- It is not an undefined label everywhere.
theorem not_reports_undefined_label :
    ¬∀ (policy : Redefinition) (firstId : Nat) (text : String) (op : Opcode)
        (registers : List String) (last : String) (line : SourceLine),
      line ∈ SourceLine.ofText text →
      line.RightUpTo (LabelTable.ofLines policy (SourceLine.ofText text)).1 op registers last →
      op.family ≠ .loadStore → Token.isLabelShaped last → (∀ r : Register, last ≠ r.name) →
      (∀ other ∈ SourceLine.ofText text, other.definedLabel? ≠ some last) →
      (ofText policy firstId text).faultsOn line.number = [.on line (.undefinedLabel last)] := by
  intro hreports
  obtain ⟨hmove, -, hfree⟩ := mem_undefining
  have hreport := hreports .refused 1 undefining .mov ["R0"] "RESULT" _ hmove rightUpTo_undefining
    (by decide) (by decide) ne_name_result hfree
  have hfound : (ofText .refused 1 undefining).faultsOn 1 =
      [.on (.ofRaw 1 "MOV R0, RESULT") (.invalidRegister "RESULT")] := by
    decide +kernel
  exact absurd (hfound.symm.trans hreport) (by decide)

end Assembly

end FiveStage
