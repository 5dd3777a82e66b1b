import FiveStage.Proofs.Assembly.Labels
import FiveStage.Proofs.Assembly.Validation

namespace FiveStage

namespace Assembly

-- What a line says: its opcode and operands, but for the instruction's id.
def reading (labels : LabelTable) (line : SourceLine) : Except Defect (Opcode × List String) :=
  match line.tokens with
  | [] => .error (.unknownOpcode line.body)
  | first :: rest =>
    let mnemonic := String.ofList (Text.uppercase first.toList)
    match Opcode.ofMnemonic? mnemonic with
    | none => .error (.unknownOpcode mnemonic)
    | some opcode =>
      let operands := rest.map labels.resolve
      (opcode.validate operands).map fun () => (opcode, operands)

theorem assembleLine_eq (labels : LabelTable) (id : Nat) (line : SourceLine) :
    assembleLine labels id line =
      (reading labels line).map fun (opcode, operands) =>
        .build id opcode operands line.body line.number := by
  unfold assembleLine reading
  cases line.tokens with
  | nil => rfl
  | cons first rest =>
    dsimp only
    cases Opcode.ofMnemonic? (String.ofList (Text.uppercase first.toList)) with
    | none => rfl
    | some opcode =>
      dsimp only
      cases opcode.validate (rest.map labels.resolve) <;> rfl

section Lines

variable {labels : LabelTable}

theorem reading_eq_ok {line : SourceLine} {opcode : Opcode} {operands : List String}
    (h : reading labels line = .ok (opcode, operands)) :
    operands = line.tokens.tail.map labels.resolve ∧ opcode.validate operands = .ok () := by
  unfold reading at h
  cases htokens : line.tokens with
  | nil => simp [htokens] at h
  | cons first rest =>
    simp only [htokens] at h
    cases hopcode : Opcode.ofMnemonic? (String.ofList (Text.uppercase first.toList)) with
    | none => simp [hopcode] at h
    | some found =>
      cases hvalid : found.validate (rest.map labels.resolve) with
      | error defect => simp [hopcode, hvalid, Except.map] at h
      | ok valid =>
        simp only [hopcode, hvalid, Except.map, Except.ok.injEq, Prod.mk.injEq] at h
        obtain ⟨rfl, rfl⟩ := h
        exact ⟨rfl, hvalid⟩

theorem not_isDuplicateLabel_of_reading {line : SourceLine} {defect : Defect}
    (h : reading labels line = .error defect) : defect.isDuplicateLabel = false := by
  unfold reading at h
  cases htokens : line.tokens with
  | nil =>
    simp only [htokens, Except.error.injEq] at h
    exact h ▸ rfl
  | cons first rest =>
    simp only [htokens] at h
    cases hopcode : Opcode.ofMnemonic? (String.ofList (Text.uppercase first.toList)) with
    | none =>
      simp only [hopcode, Except.error.injEq] at h
      exact h ▸ rfl
    | some found =>
      simp only [hopcode] at h
      exact Opcode.not_isDuplicateLabel_of_validate (map_eq_error.mp h)

-- A line is of no further account unless it has an instruction.
theorem assembleLines_cons (id : Nat) (line : SourceLine) (rest : List SourceLine) :
    assembleLines labels id (line :: rest) =
      if line.hasInstruction then
        match reading labels line with
        | .ok (opcode, operands) =>
          let tail := assembleLines labels (id + 1) rest
          { tail with
            instructions :=
              .build id opcode operands line.body line.number :: tail.instructions }
        | .error defect =>
          let tail := assembleLines labels id rest
          { tail with diagnostics := Diagnostic.on line defect :: tail.diagnostics }
      else assembleLines labels id rest := by
  rw [assembleLines, assembleLine_eq]
  cases reading labels line <;> rfl

theorem exists_line_of_mem_instructions {id : Nat} {lines : List SourceLine} {inst : Instruction}
    (h : inst ∈ (assembleLines labels id lines).instructions) :
    ∃ line ∈ lines, line.hasInstruction ∧ inst.line = line.number ∧
      reading labels line = .ok (inst.opcode, inst.operands) := by
  induction lines generalizing id with
  | nil => simp [assembleLines] at h
  | cons line rest ih =>
    have hrest : ∀ {id}, inst ∈ (assembleLines labels id rest).instructions →
        ∃ found ∈ line :: rest, found.hasInstruction ∧ inst.line = found.number ∧
          reading labels found = .ok (inst.opcode, inst.operands) := by
      intro id hmem
      obtain ⟨found, hfound, hrest⟩ := ih hmem
      exact ⟨found, List.mem_cons_of_mem _ hfound, hrest⟩
    rw [assembleLines_cons] at h
    split at h
    · next hline =>
      split at h
      · next opcode operands hreading =>
        cases List.mem_cons.mp h with
        | inl he =>
          subst he
          exact ⟨line, List.mem_cons_self, hline, rfl, hreading⟩
        | inr hmem => exact hrest hmem
      · exact hrest h
    · exact hrest h

-- The instructions are numbered one after another.
theorem ids_assembleLines (labels : LabelTable) (id : Nat) (lines : List SourceLine) :
    (assembleLines labels id lines).instructions.map Instruction.id =
      List.range' id (assembleLines labels id lines).instructions.length := by
  induction lines generalizing id with
  | nil => rfl
  | cons line rest ih =>
    rw [assembleLines_cons]
    split
    · split
      · rw [List.map_cons, ih, List.length_cons, List.range'_succ]
        rfl
      · exact ih id
    · exact ih id

-- What has been assembled can be decoded.
theorem exists_decode_of_mem_instructions {id : Nat} {lines : List SourceLine}
    {inst : Instruction} (h : inst ∈ (assembleLines labels id lines).instructions) :
    ∃ decoded, inst.decode = .ok decoded := by
  obtain ⟨line, -, -, -, hreading⟩ := exists_line_of_mem_instructions h
  exact Instruction.decode_of_validate (reading_eq_ok hreading).2

theorem mem_diagnostics_of_reading {id : Nat} {lines : List SourceLine} {line : SourceLine}
    {defect : Defect} (hmem : line ∈ lines) (hline : line.hasInstruction)
    (h : reading labels line = .error defect) :
    Diagnostic.on line defect ∈ (assembleLines labels id lines).diagnostics := by
  induction lines generalizing id with
  | nil => contradiction
  | cons first rest ih =>
    rw [assembleLines_cons]
    cases List.mem_cons.mp hmem with
    | inl he =>
      subst he
      simp only [hline, h, ↓reduceIte]
      exact List.mem_cons_self
    | inr hrest =>
      split
      · split
        · exact ih hrest
        · exact List.mem_cons_of_mem _ (ih hrest)
      · exact ih hrest

theorem instructions_ascending {id : Nat} {lines : List SourceLine}
    (h : lines.Pairwise fun a b => a.number < b.number) :
    (assembleLines labels id lines).instructions.Pairwise fun a b => a.line < b.line := by
  induction lines generalizing id with
  | nil => exact List.Pairwise.nil
  | cons line rest ih =>
    obtain ⟨hline, hrest⟩ := List.pairwise_cons.mp h
    rw [assembleLines_cons]
    split
    · split
      · refine List.pairwise_cons.mpr ⟨fun inst hinst => ?_, ih hrest⟩
        obtain ⟨found, hfound, -, hnumber, -⟩ := exists_line_of_mem_instructions hinst
        rw [hnumber]
        exact hline found hfound
      · exact ih hrest
    · exact ih hrest

-- Up to the first line that cannot be read there are as many instructions as
-- slots.
theorem countP_instructions {id number : Nat} {lines : List SourceLine}
    (h : ∀ line ∈ lines, line.hasInstruction → line.number < number →
      (reading labels line).isOk) :
    (assembleLines labels id lines).instructions.countP (fun inst => inst.line < number) =
      SourceLine.slotsBefore lines number := by
  induction lines generalizing id with
  | nil => rfl
  | cons line rest ih =>
    have hrest : ∀ {id}, (assembleLines labels id rest).instructions.countP
        (fun inst => inst.line < number) = SourceLine.slotsBefore rest number :=
      ih fun found hfound => h found (List.mem_cons_of_mem _ hfound)
    rw [assembleLines_cons, SourceLine.slotsBefore, List.countP_cons, ← SourceLine.slotsBefore]
    by_cases hline : line.hasInstruction
    · cases hreading : reading labels line with
      | ok found =>
        simp only [hline, ↓reduceIte, List.countP_cons, hrest, Bool.true_and]
        rfl
      | error defect =>
        have hlate : ¬line.number < number := fun hlt => by
          have hok := h line List.mem_cons_self hline hlt
          simp [hreading, Except.isOk, Except.toBool] at hok
        simp only [hline, ↓reduceIte, hrest, hlate, Bool.true_and, decide_false,
          Bool.false_eq_true, Nat.add_zero]
    · simp only [hline, Bool.false_eq_true, ↓reduceIte, hrest, Bool.false_and, Nat.add_zero]

end Lines

section Text

variable {policy : Redefinition} {firstId : Nat} {text : String}

theorem instructions_ofText : (ofText policy firstId text).instructions =
    (assembleLines (LabelTable.ofLines policy (SourceLine.ofText text)).1 firstId
      (SourceLine.ofText text)).instructions := rfl

-- No two lines have one number, so an instruction says what its line says.
theorem reading_of_mem_instructions {inst : Instruction} {line : SourceLine}
    (hinst : inst ∈ (ofText policy firstId text).instructions)
    (hline : line ∈ SourceLine.ofText text) (hnumber : line.number = inst.line) :
    reading (LabelTable.ofLines policy (SourceLine.ofText text)).1 line =
      .ok (inst.opcode, inst.operands) := by
  rw [instructions_ofText] at hinst
  obtain ⟨found, hfound, -, hat, hreading⟩ := exists_line_of_mem_instructions hinst
  obtain rfl : found = line := SourceLine.eq_of_number_eq hfound hline (hat.symm.trans hnumber.symm)
  exact hreading

end Text

-- An assembly with every instruction's id forgotten.
def withoutIds (assembly : Assembly) : Assembly :=
  { assembly with instructions := assembly.instructions.map fun inst => { inst with id := 0 } }

theorem withoutIds_assembleLines (labels : LabelTable) (first other : Nat)
    (lines : List SourceLine) :
    (assembleLines labels first lines).withoutIds =
      (assembleLines labels other lines).withoutIds := by
  induction lines generalizing first other with
  | nil => rfl
  | cons line rest ih =>
    rw [assembleLines_cons, assembleLines_cons]
    split
    · split
      · next opcode operands _ =>
        let inst := Instruction.build 0 opcode operands line.body line.number
        exact congrArg (fun tail => { tail with instructions := inst :: tail.instructions })
          (ih (first + 1) (other + 1))
      · next defect _ =>
        let found := Diagnostic.on line defect
        exact congrArg (fun tail => { tail with diagnostics := found :: tail.diagnostics })
          (ih first other)
    · exact ih first other

theorem withoutIds_ofText (policy : Redefinition) (first other : Nat) (text : String) :
    (ofText policy first text).withoutIds = (ofText policy other text).withoutIds := by
  let found := LabelTable.ofLines policy (SourceLine.ofText text)
  exact congrArg
    (fun tail => { tail with diagnostics := Diagnostic.merge found.2 tail.diagnostics })
    (withoutIds_assembleLines found.1 first other (SourceLine.ofText text))

end Assembly

end FiveStage
