import FiveStage.Proofs.Wire.Machine
import FiveStage.Session.Snapshot
import FiveStage.Wire.Assembly
import FiveStage.Wire.Config
import FiveStage.Wire.Program

namespace FiveStage

open Json Json.Record

-- The target of a branch is held as a signed word of 64 bits.
def Defect.Bounded : Defect → Prop
  | .operandCount _ expected found => expected < UInt64.size ∧ found < UInt64.size
  | .duplicateLabel _ firstLine => firstLine < UInt64.size
  | .misalignedTarget target =>
    Int64.minValue.toInt ≤ target ∧ target ≤ Int64.maxValue.toInt
  | _ => True

namespace Defect

@[simp] theorem opcodeOfJson?_toJson (op : Opcode) : opcodeOfJson? op.toJson = some op :=
  Opcode.ofJson?_toJson op

theorem ofFields?_members {defect : Defect} (h : defect.Bounded) :
    ofFields? defect.kind (.object defect.members) = some defect := by
  cases defect with
  | operandCount opcode expected found =>
    have hexpected := nat?_ofNat h.1
    have hfound := nat?_ofNat h.2
    simp [kind, members, ofFields?, ofJson?_object, hexpected, hfound]
  | duplicateLabel label firstLine =>
    have hline : nat? (ofNat firstLine) = some firstLine := nat?_ofNat h
    simp [kind, members, ofFields?, ofJson?_object, hline, string?]
  | misalignedTarget target =>
    have htarget : target? (.int target) = some target := if_pos h
    simp [kind, members, ofFields?, ofJson?_object, htarget]
  | _ => simp [kind, members, ofFields?, ofJson?_object, string?]

-- The kind is told from the fields, and nothing in a defect nests.
theorem ofJson?_toJson {defect : Defect} (h : defect.Bounded) (depth : Nat)
    (hdepth : depth < deepest) : ofJson? depth defect.toJson = some defect := by
  let tag : Name × Json := ("kind", .string defect.kind)
  have hdocument : defect.toJson = .object (tag :: defect.members) := rfl
  have hfits : defect.toJson.fits (deepest - depth) := by
    have hroom : 0 < deepest - depth := Nat.sub_pos_of_lt hdepth
    cases defect <;> simp [toJson, members, fits, allMembersFit, hroom, Opcode.toJson, ofNat]
  have hapart : ((tag :: defect.members).partition fun member => member.1.text == "kind") =
      ([tag], defect.members) := by
    cases defect <;> rfl
  have hguard := guard_of hfits
  rw [hdocument] at hguard ⊢
  unfold ofJson?
  rw [hguard, Option.bind_eq_bind, Option.bind_some]
  simp only [hapart]
  exact ofFields?_members h

end Defect

structure Diagnostic.Bounded (diagnostic : Diagnostic) : Prop where
  line_lt : diagnostic.line < UInt64.size
  defect : diagnostic.defect.Bounded

theorem Diagnostic.ofJson?_toJson {diagnostic : Diagnostic} (h : diagnostic.Bounded) (depth : Nat)
    (hdepth : depth + 1 < Defect.deepest) :
    ofJson? depth diagnostic.toJson = some diagnostic := by
  have hline := nat?_ofNat h.line_lt
  have hdefect := Defect.ofJson?_toJson h.defect (depth + 1) hdepth
  simp [ofJson?, toJson, ofJson?_object, hline, hdefect, string?]

structure Assembly.Bounded (assembly : Assembly) : Prop where
  instructions : ∀ inst ∈ assembly.instructions, inst.Bounded
  diagnostics : ∀ diagnostic ∈ assembly.diagnostics, diagnostic.Bounded

theorem Assembly.ofJson?_toJson {assembly : Assembly} (h : assembly.Bounded) :
    ofJson? assembly.toJson = some assembly := by
  have hinstructions := mapM_map_of_forall fun inst hinst =>
    Instruction.ofJson?_toJson (h.instructions inst hinst)
  have hdiagnostics := mapM_map_of_forall fun diagnostic hdiagnostic =>
    Diagnostic.ofJson?_toJson (h.diagnostics diagnostic hdiagnostic) 2 (by decide)
  simp [ofJson?, toJson, ofJson?_object, -List.mapM_map, array?, hinstructions, hdiagnostics]

structure Program.Bounded (program : Program) : Prop where
  id_lt : program.id < UInt64.size
  createdAt_lt : program.createdAt < UInt64.size
  updatedAt_lt : program.updatedAt < UInt64.size

theorem Program.ofJson?_toJson {program : Program} (h : program.Bounded) :
    ofJson? program.toJson = some program := by
  have hid := nat?_ofNat h.id_lt
  have hcreated := nat?_ofNat h.createdAt_lt
  have hupdated := nat?_ofNat h.updatedAt_lt
  simp [ofJson?, toJson, ofJson?_object, hid, hcreated, hupdated, string?]

theorem ProgramEdit.ofJson?_toJson (edit : ProgramEdit) : ofJson? edit.toJson = some edit := by
  have hrecord := ofJson?_object (by decide) <|
    Written.optional "title" Json.string edit.title <|
    Written.last "assemblyText" Json.string edit.source
  have htext (text : Option String) : ((text.map Json.string).map
      (nullable string?)).getD (some none) = some text :=
    getD_nullable rfl fun _ _ => rfl
  simp [ofJson?, toJson, -Option.map_map, hrecord, htext]

namespace Config

@[simp] theorem longWord?_ofLongWord (w : UInt64) : longWord? (ofLongWord w) = some w := by
  simp [longWord?, ofLongWord, nat?_ofNat w.toNat_lt_size]

theorem ofJson?_toJson (config : Config) : ofJson? config.toJson = some config := by
  have hgeneral : General.ofJson? config.general.toJson = some config.general := by
    simp [General.ofJson?, General.toJson, ofJson?_object, bool?]
  have hcpu : Cpu.ofJson? config.cpu.toJson = some config.cpu := by
    simp [Cpu.ofJson?, Cpu.toJson, ofJson?_object]
  have hassembler : Assembler.ofJson? config.assembler.toJson = some config.assembler := by
    simp [Assembler.ofJson?, Assembler.toJson, ofJson?_object, bool?]
  have hsession : Session.ofJson? config.session.toJson = some config.session := by
    simp [Session.ofJson?, Session.toJson, ofJson?_object]
  simp [ofJson?, toJson, ofJson?_object, hgeneral, hcpu, hassembler, hsession]

end Config

structure Snapshot.Bounded (snapshot : Snapshot) : Prop where
  step_lt : snapshot.step < UInt64.size
  state : snapshot.state.Bounded

theorem Snapshot.ofJson?_toJson {snapshot : Snapshot} (h : snapshot.Bounded) :
    ofJson? snapshot.toJson = some snapshot := by
  have hstep := nat?_ofNat h.step_lt
  have hstate := Machine.ofJson?_toJson h.state
  simp [ofJson?, toJson, ofJson?_object, hstep, hstate]

-- What is written is read back whole, whichever parts of it are there. The
-- bounds are those of the numbers that the values are kept in.
theorem Json.toJson_reads_back :
    (∀ machine : Machine, machine.Bounded → Machine.ofJson? machine.toJson = some machine) ∧
      (∀ snapshot : Snapshot, snapshot.Bounded →
        Snapshot.ofJson? snapshot.toJson = some snapshot) ∧
      (∀ assembly : Assembly, assembly.Bounded →
        Assembly.ofJson? assembly.toJson = some assembly) ∧
      (∀ program : Program, program.Bounded → Program.ofJson? program.toJson = some program) ∧
      (∀ edit : ProgramEdit, ProgramEdit.ofJson? edit.toJson = some edit) ∧
      (∀ config : Config, Config.ofJson? config.toJson = some config) :=
  ⟨fun _ => Machine.ofJson?_toJson, fun _ => Snapshot.ofJson?_toJson,
    fun _ => Assembly.ofJson?_toJson, fun _ => Program.ofJson?_toJson,
    ProgramEdit.ofJson?_toJson, Config.ofJson?_toJson⟩

-- A store on its way, beside what an idle stage was left with.
private def underway : Machine where
  pc := 8
  registers := RegisterFile.zero.write .r3 (-7)
  memory := (Memory.empty.write 4000000000 12).write 16 (-1)
  flags := { z := true }
  pipeline := {
    decode := { result := some 5, address := some 0 }
    memory := {
      instruction := some (.build 2 .str ["R3", "[R1]"] "STR R3, [R1]" 4)
      decoded := some { source1 := some .r3, source2 := some .r1, destination := some .r3 }
      signals := some Opcode.str.signals
      result := some (-7)
      address := some 16 } }
  clock := 9

private def mistaken : Assembly where
  diagnostics := [
    .on (.ofRaw 2 "again: FROB \"R0\"") (.duplicateLabel "again" 1),
    .on (.ofRaw 2 "again: FROB \"R0\"") (.unknownOpcode "FROB"),
    .on (.ofRaw 3 "B #-4") (.misalignedTarget (-4))]

theorem Json.toJson_reads_back_underway :
    underway.Bounded ∧ Machine.ofJson? underway.toJson = some underway ∧
      mistaken.Bounded ∧ Assembly.ofJson? mistaken.toJson = some mistaken := by
  have hunderway : underway.Bounded := by
    refine ⟨fun stage inst hinst => ?_, by decide⟩
    cases stage <;> cases hinst
    exact ⟨by decide, by decide⟩
  have hmistaken : mistaken.Bounded := by
    refine ⟨fun inst hinst => absurd hinst List.not_mem_nil, fun diagnostic hdiagnostic => ?_⟩
    simp only [mistaken, List.mem_cons, List.not_mem_nil, or_false] at hdiagnostic
    rcases hdiagnostic with rfl | rfl | rfl
    · exact ⟨by decide, show 1 < UInt64.size by decide⟩
    · exact ⟨by decide, trivial⟩
    · exact ⟨by decide, show _ ≤ (-4 : Int) ∧ (-4 : Int) ≤ _ by decide⟩
  obtain ⟨hmachine, -, hassembly, -⟩ := Json.toJson_reads_back
  exact ⟨hunderway, hmachine underway hunderway, hmistaken, hassembly mistaken hmistaken⟩

end FiveStage
