import FiveStage.Proofs.Assembly.Lines
import FiveStage.Proofs.Machine.Residence
import FiveStage.Proofs.Token.Decimal

namespace FiveStage

-- In a list whose keys ascend, the entries below a bound come first.
theorem findIdx_le_eq_countP_lt {α : Type} (key : α → Nat) (bound : Nat) {entries : List α}
    (h : entries.Pairwise fun a b => key a < key b) :
    entries.findIdx (fun entry => bound ≤ key entry) =
      entries.countP fun entry => key entry < bound := by
  induction entries with
  | nil => rfl
  | cons first rest ih =>
    obtain ⟨hfirst, hrest⟩ := List.pairwise_cons.mp h
    rw [List.findIdx_cons, List.countP_cons, ih hrest]
    by_cases hbound : bound ≤ key first
    · have hzero : rest.countP (fun entry => key entry < bound) = 0 := by
        refine List.countP_eq_zero.mpr fun entry hentry => ?_
        have hlt := hfirst entry hentry
        simp only [decide_eq_true_eq]
        omega
      simp [hbound, hzero]
    · simp [hbound, Nat.not_le.mp hbound]

theorem Instruction.decode_of_branchTarget {inst : Instruction} {token : String} {target : Int32}
    (hbranch : inst.opcode.isBranch) (hoperands : inst.operands = [token])
    (htarget : Token.branchTarget token = .ok target) :
    inst.decode = .ok { immediate := some target } := by
  have hfamily : inst.opcode.family = .branch := of_decide_eq_true hbranch
  refine decode_of_readFrom ?_
  rw [hfamily, hoperands]
  exact .branch htarget

namespace Assembly

def failedLines (assembly : Assembly) : List Nat :=
  (assembly.diagnostics.filter fun found => !found.defect.isDuplicateLabel).map (·.line)

-- The slot of the first instruction from a source line on, or the end of the
-- program if there is none.
def slotAt (assembly : Assembly) (number : Nat) : Nat :=
  assembly.instructions.findIdx fun inst => number ≤ inst.line

section Text

variable {policy : Redefinition} {firstId : Nat} {text : String}

theorem reading_of_not_failed {line : SourceLine} (hmem : line ∈ SourceLine.ofText text)
    (hline : line.hasInstruction)
    (h : line.number ∉ (ofText policy firstId text).failedLines) :
    (reading (LabelTable.ofLines policy (SourceLine.ofText text)).1 line).isOk := by
  cases hreading : reading (LabelTable.ofLines policy (SourceLine.ofText text)).1 line with
  | ok found => rfl
  | error defect =>
    have hfound : Diagnostic.on line defect ∈ (ofText policy firstId text).diagnostics := by
      apply (Diagnostic.perm_merge _ _).mem_iff.mpr
      exact List.mem_append_right _ (mem_diagnostics_of_reading hmem hline hreading)
    have hkept : !defect.isDuplicateLabel := by
      rw [not_isDuplicateLabel_of_reading hreading]
      rfl
    exact absurd (List.mem_map.mpr ⟨_, List.mem_filter.mpr ⟨hfound, hkept⟩, rfl⟩) h

-- Before the first line that fails, slots and instructions are counted alike.
theorem slotAt_eq_slotsBefore {number : Nat}
    (h : ∀ failed ∈ (ofText policy firstId text).failedLines, number ≤ failed) :
    (ofText policy firstId text).slotAt number =
      SourceLine.slotsBefore (SourceLine.ofText text) number := by
  rw [slotAt, instructions_ofText, findIdx_le_eq_countP_lt Instruction.line number
    (instructions_ascending (SourceLine.ofText_ascending text))]
  refine countP_instructions fun line hmem hline hlt => ?_
  exact reading_of_not_failed hmem hline fun hfailed => Nat.not_le.mpr hlt (h _ hfailed)

theorem decode_of_label {name : String} {entry : LabelDefinition} {inst : Instruction}
    {line : SourceLine}
    (hslots : (SourceLine.ofText text).countP SourceLine.hasInstruction < 2 ^ 29)
    (hlabel : (LabelTable.ofLines policy (SourceLine.ofText text)).1.find? name = some entry)
    (hinst : inst ∈ (ofText policy firstId text).instructions) (hbranch : inst.opcode.isBranch)
    (hline : line ∈ SourceLine.ofText text) (hnumber : line.number = inst.line)
    (htokens : line.tokens.tail = [name]) :
    inst.decode = .ok { immediate := some entry.offset.toInt32 } := by
  obtain ⟨hoperands, -⟩ := reading_eq_ok (reading_of_mem_instructions hinst hline hnumber)
  have htoken : inst.operands = ["#" ++ toString entry.offset.toNat] := by
    rw [hoperands, htokens, List.map_singleton, LabelTable.resolve_of_find? hlabel]
  have hoffset := LabelTable.toNat_offset (Nat.lt_trans hslots (by decide)) hlabel
  have htarget := Token.branchTarget_marked (LabelTable.toNat_offset_lt hslots hlabel) (by omega)
  exact Instruction.decode_of_branchTarget hbranch htoken htarget

end Text

-- A branch that is written with a label goes to where the label stands: to the
-- first instruction from the line of the definition that counts. A label from
-- behind a line that fails would be a slot further for each of them.
theorem branch_lands_on_label {policy : Redefinition} {firstId : Nat} {text name : String}
    {entry : LabelDefinition} {inst : Instruction} {line : SourceLine}
    (hslots : (SourceLine.ofText text).countP SourceLine.hasInstruction < 2 ^ 29)
    (hlabel : (LabelTable.ofLines policy (SourceLine.ofText text)).1.find? name = some entry)
    (hfailed : ∀ failed ∈ (ofText policy firstId text).failedLines, entry.line ≤ failed)
    (hinst : inst ∈ (ofText policy firstId text).instructions) (hbranch : inst.opcode.isBranch)
    (hline : line ∈ SourceLine.ofText text) (hnumber : line.number = inst.line)
    (htokens : line.tokens.tail = [name]) :
    (SourceLine.definition? policy (SourceLine.ofText text) name).map SourceLine.number =
        some entry.line ∧
      (∃ decoded, inst.decode = .ok decoded) ∧
      ∀ (start machine : Machine) (n : Nat) (latch : Latch), start.pipeline = .idle →
        start.cycles (ofText policy firstId text).instructions n = .ok machine →
        machine.pipeline.resident? = some (.execute, latch) → latch.instruction = some inst →
        inst.opcode.takes machine.flags →
        ∃ next, machine.cycle (ofText policy firstId text).instructions = .ok next ∧
          next.nextSlot = (ofText policy firstId text).slotAt entry.line := by
  have hdecode := decode_of_label hslots hlabel hinst hbranch hline hnumber htokens
  refine ⟨?_, ⟨_, hdecode⟩, ?_⟩
  · rw [LabelTable.find?_ofLines_ofText] at hlabel
    obtain ⟨definition, hdefinition, rfl⟩ := Option.map_eq_some_iff.mp hlabel
    rw [hdefinition]
    rfl
  · intro start machine n latch hstart hcycles hresident hlatch htakes
    have hcoherent := (Machine.Coherent.idle hstart).cycles hcycles
    obtain ⟨next, hnext, hpc⟩ := hcoherent.exists_cycle_of_takes hresident hlatch hdecode htakes rfl
    refine ⟨next, hnext, ?_⟩
    rw [slotAt_eq_slotsBefore hfailed, Machine.nextSlot, hpc, UInt32.toUInt32_toInt32]
    have hoffset := LabelTable.toNat_offset (Nat.lt_trans hslots (by decide)) hlabel
    omega

-- A text in which lines, slots and instructions are counted differently.
private def skipping : String :=
  "  B done\n@ first\n  MOV R0, #1\ndone:\n\nloop: CMP R0, #1\n  BEQ loop\ndone: FROB R1\n"

private def toDone : Instruction := .build 1 .b ["#8"] "B done" 1

theorem branch_lands_on_done :
    (∀ failed ∈ (ofText .refused 1 skipping).failedLines, 4 ≤ failed) ∧
      toDone ∈ (ofText .refused 1 skipping).instructions ∧
      ∃ machine next,
        (Machine.reset 0 1024).cycles (ofText .refused 1 skipping).instructions 3 = .ok machine ∧
        machine.cycle (ofText .refused 1 skipping).instructions = .ok next ∧
        next.nextSlot = (ofText .refused 1 skipping).slotAt 4 := by
  have htext : (SourceLine.ofText skipping).countP SourceLine.hasInstruction < 2 ^ 29 ∧
      SourceLine.ofRaw 1 "  B done" ∈ SourceLine.ofText skipping ∧
      (SourceLine.ofRaw 1 "  B done").tokens.tail = ["done"] ∧
      (LabelTable.ofLines .refused (SourceLine.ofText skipping)).1.find? "done" =
        some ⟨8, 4⟩ := by decide +kernel
  obtain ⟨hslots, hline, htokens, hlabel⟩ := htext
  have hassembly : (∀ failed ∈ (ofText .refused 1 skipping).failedLines, 4 ≤ failed) ∧
      toDone ∈ (ofText .refused 1 skipping).instructions ∧
      ((Machine.reset 0 1024).cycles
        (ofText .refused 1 skipping).instructions 3).toOption.bind (·.pipeline.resident?) =
          some (.execute,
            { Latch.ofDecoded toDone { immediate := some 8 } with result := some 8 }) := by
    decide +kernel
  obtain ⟨hfailed, hinst, hreached⟩ := hassembly
  obtain ⟨machine, hmachine, hresident⟩ := Option.bind_eq_some_iff.mp hreached
  have hcycles := toOption_eq_some.mp hmachine
  obtain ⟨-, -, hlands⟩ := branch_lands_on_label hslots hlabel hfailed hinst rfl hline rfl htokens
  obtain ⟨next, hnext, hslot⟩ := hlands _ machine 3 _ rfl hcycles hresident rfl rfl
  exact ⟨hfailed, hinst, machine, next, hcycles, hnext, hslot⟩

end Assembly

end FiveStage
