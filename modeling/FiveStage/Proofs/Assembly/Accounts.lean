import FiveStage.Proofs.Assembly.Reports

namespace FiveStage

-- What is picked by where it comes from comes from what is picked there.
theorem filter_flatMap_of_forall {α β : Type} {key : α → Bool} {pick : β → Bool}
    {found : α → List β} {sources : List α}
    (h : ∀ source ∈ sources, ∀ result ∈ found source, pick result = key source) :
    (sources.flatMap found).filter pick = (sources.filter key).flatMap found := by
  induction sources with
  | nil => rfl
  | cons source rest ih =>
    have hsource := h source List.mem_cons_self
    have hrest := ih fun other hother => h other (List.mem_cons_of_mem _ hother)
    rw [List.flatMap_cons, List.filter_append, hrest, List.filter_cons]
    cases hkey : key source with
    | false =>
      have hnone : (found source).filter pick = [] :=
        List.filter_eq_nil_iff.mpr fun result hresult => by simp [hsource result hresult, hkey]
      rw [hnone]
      rfl
    | true =>
      have hall : (found source).filter pick = found source :=
        List.filter_eq_self.mpr fun result hresult => by rw [hsource result hresult, hkey]
      rw [hall]
      rfl

namespace SourceLine

-- A line of a text is the only one with its number.
theorem filter_number_eq {text : String} {line : SourceLine} (h : line ∈ ofText text) :
    (ofText text).filter (fun other => other.number = line.number) = [line] := by
  have hsame : ∀ other ∈ ofText text, decide (other.number = line.number) = (other == line) := by
    intro other hother
    rw [Bool.eq_iff_iff, decide_eq_true_iff, beq_iff_eq]
    exact ⟨eq_of_number_eq hother h, fun he => he ▸ rfl⟩
  rw [List.filter_congr hsame, List.filter_beq,
    List.count_eq_one_of_mem (numbers_nodup text).of_map h]
  rfl

theorem redefinition?_eq_some_iff {policy : Redefinition} {lines : List SourceLine}
    {line : SourceLine} {defect : Defect} :
    redefinition? policy lines line = some defect ↔
      policy = .refused ∧ ∃ name first, line.definedLabel? = some name ∧
        definition? .refused lines name = some first ∧ first.number < line.number ∧
        .duplicateLabel name first.number = defect := by
  cases policy with
  | allowed => simp [redefinition?]
  | refused =>
    cases hlabel : line.definedLabel? with
    | none => simp [redefinition?, hlabel]
    | some name => simp [redefinition?, hlabel, Option.filter_eq_some_iff, and_assoc]

theorem isDuplicateLabel_of_redefinition? {policy : Redefinition} {lines : List SourceLine}
    {line : SourceLine} {defect : Defect} (h : redefinition? policy lines line = some defect) :
    defect.isDuplicateLabel := by
  obtain ⟨-, name, first, -, -, -, rfl⟩ := redefinition?_eq_some_iff.mp h
  rfl

theorem fault?_eq_some_iff {labels : LabelTable} {line : SourceLine} {defect : Defect} :
    fault? labels line = some defect ↔
      line.hasInstruction ∧ Assembly.reading labels line = .error defect := by
  unfold fault?
  by_cases hline : line.hasInstruction
  · cases Assembly.reading labels line <;> simp [hline]
  · simp [hline]

theorem not_isDuplicateLabel_of_fault? {labels : LabelTable} {line : SourceLine} {defect : Defect}
    (h : fault? labels line = some defect) : defect.isDuplicateLabel = false :=
  Assembly.not_isDuplicateLabel_of_reading (fault?_eq_some_iff.mp h).2

-- A definition is refused where an earlier line has the label.
theorem isSome_redefinition?_iff {policy : Redefinition} {lines : List SourceLine}
    {line : SourceLine} (h : lines.Pairwise fun a b => a.number < b.number) :
    (redefinition? policy lines line).isSome ↔
      policy = .refused ∧ ∃ name, line.definedLabel? = some name ∧
        ∃ earlier ∈ lines, earlier.number < line.number ∧ earlier.definedLabel? = some name := by
  rw [Option.isSome_iff_exists]
  constructor
  · rintro ⟨defect, hdefect⟩
    obtain ⟨hpolicy, name, first, hlabel, hfirst, hlt, -⟩ := redefinition?_eq_some_iff.mp hdefect
    have hname := List.find?_some hfirst
    exact ⟨hpolicy, name, hlabel, first, mem_of_definition? hfirst, hlt, of_decide_eq_true hname⟩
  · rintro ⟨hpolicy, name, hlabel, earlier, hmem, hlt, hname⟩
    cases hfirst : definition? .refused lines name with
    | none => exact absurd hname (definition?_eq_none_iff.mp hfirst earlier hmem)
    | some first =>
      have hle : first.number ≤ earlier.number :=
        (isDefinition_of_definition? h hfirst).counts earlier hmem hname
      exact ⟨_, redefinition?_eq_some_iff.mpr
        ⟨hpolicy, name, first, hlabel, hfirst, Nat.lt_of_le_of_lt hle hlt, rfl⟩⟩

-- A line is kept as it stands in the text.
theorem raw_of_mem_ofText {text : String} {line : SourceLine} (h : line ∈ ofText text) :
    0 < line.number ∧ (Text.lines text.toList)[line.number - 1]? = some line.raw.toList := by
  obtain ⟨i, hi, rfl⟩ := List.mem_mapIdx.mp h
  rw [number_ofRaw]
  refine ⟨Nat.succ_pos i, ?_⟩
  rw [raw_ofRaw, String.toList_ofList, Nat.add_sub_cancel, List.getElem?_eq_getElem hi]

end SourceLine

namespace Assembly

open SourceLine

-- The lines that give an instruction.
theorem map_line_instructions (labels : LabelTable) (id : Nat) (lines : List SourceLine) :
    (assembleLines labels id lines).instructions.map Instruction.line =
      (lines.filter fun line => line.hasInstruction && (fault? labels line).isNone).map number := by
  induction lines generalizing id with
  | nil => rfl
  | cons line rest ih =>
    rw [assembleLines_cons, List.filter_cons, fault?]
    by_cases hline : line.hasInstruction
    · cases hreading : reading labels line <;> simp [hline, ih, Instruction.build]
    · simp [hline, ih]

-- What is emitted for a line of the source and what is reported of it.
def instructionsOn (assembly : Assembly) (number : Nat) : List Instruction :=
  assembly.instructions.filter (·.line = number)

def defectsOn (assembly : Assembly) (number : Nat) : List Defect :=
  (assembly.diagnostics.filter (·.line = number)).map (·.defect)

-- An assembly that accounts for the lines of a text one by one.
structure Accounts (assembly : Assembly) (policy : Redefinition) (text : String) : Prop where
  -- a line with an instruction is emitted or reported, and no other line is
  once : ∀ line ∈ SourceLine.ofText text,
    (assembly.instructionsOn line.number).length +
        (assembly.defectsOn line.number).countP (!·.isDuplicateLabel) =
      if line.hasInstruction then 1 else 0
  emitted : ∀ inst ∈ assembly.instructions, ∃ line ∈ SourceLine.ofText text,
    line.hasInstruction ∧ inst.line = line.number
  reported : ∀ found ∈ assembly.diagnostics, ∃ line ∈ SourceLine.ofText text,
    (found.defect.isDuplicateLabel ∨ line.hasInstruction) ∧ found.line = line.number
  -- a label that is defined again is reported where that happens
  redefined : ∀ line ∈ SourceLine.ofText text,
    (assembly.defectsOn line.number).countP (·.isDuplicateLabel) =
      if policy = .refused ∧ ∃ name, line.definedLabel? = some name ∧
          ∃ earlier ∈ SourceLine.ofText text,
            earlier.number < line.number ∧ earlier.definedLabel? = some name
        then 1 else 0
  first : ∀ line ∈ SourceLine.ofText text, ∀ name number,
    .duplicateLabel name number ∈ assembly.defectsOn line.number →
      line.definedLabel? = some name ∧
        ((SourceLine.ofText text).find? (·.definedLabel? = some name)).map (·.number) = some number
  instructions_ordered : assembly.instructions.Pairwise fun a b => a.line < b.line
  diagnostics_ordered : assembly.diagnostics.Pairwise fun a b =>
    a.line < b.line ∨
      a.line = b.line ∧ a.defect.isDuplicateLabel ∧ ¬b.defect.isDuplicateLabel
  verbatim : ∀ found ∈ assembly.diagnostics,
    0 < found.line ∧ (Text.lines text.toList)[found.line - 1]? = some found.content.toList

section Text

variable {policy : Redefinition} {firstId : Nat} {text : String} {line : SourceLine}

-- What is reported of a line was found on it.
theorem filter_line_flatMap_on (found : SourceLine → List Defect)
    (h : line ∈ SourceLine.ofText text) :
    ((SourceLine.ofText text).flatMap fun other => (found other).map (Diagnostic.on other)).filter
        (·.line = line.number) =
      (found line).map (Diagnostic.on line) := by
  have hkey : ∀ other ∈ SourceLine.ofText text, ∀ report ∈ (found other).map (Diagnostic.on other),
      decide (report.line = line.number) = decide (other.number = line.number) := by
    intro other _ report hreport
    obtain ⟨defect, -, rfl⟩ := List.mem_map.mp hreport
    rfl
  rw [filter_flatMap_of_forall hkey, filter_number_eq h, List.flatMap_singleton]

theorem defectsOn_ofText (h : line ∈ SourceLine.ofText text) :
    (ofText policy firstId text).defectsOn line.number =
      (redefinition? policy (SourceLine.ofText text) line).toList ++
        (fault? (LabelTable.ofLines policy (SourceLine.ofText text)).1 line).toList := by
  rw [defectsOn, diagnostics_ofText, filter_line_flatMap_on _ h, List.map_map]
  exact List.map_id _

theorem length_instructionsOn_ofText (h : line ∈ SourceLine.ofText text) :
    ((ofText policy firstId text).instructionsOn line.number).length =
      if line.hasInstruction &&
          (fault? (LabelTable.ofLines policy (SourceLine.ofText text)).1 line).isNone then 1
      else 0 := by
  have hcount : ((ofText policy firstId text).instructionsOn line.number).length =
      ((ofText policy firstId text).instructions.map (·.line)).countP (· = line.number) := by
    rw [instructionsOn, List.countP_map, List.countP_eq_length_filter]
    rfl
  have hnumber : ∀ passes : SourceLine → Bool,
      (((SourceLine.ofText text).filter passes).map number).countP (· = line.number) =
        [line].countP passes := by
    intro passes
    rw [← filter_number_eq h, List.countP_map, List.countP_filter, List.countP_filter]
    exact List.countP_congr fun other _ => by simp [and_comm]
  rw [hcount, instructions_ofText, map_line_instructions, hnumber, List.countP_singleton]

theorem countP_isDuplicateLabel (h : line ∈ SourceLine.ofText text) :
    ((ofText policy firstId text).defectsOn line.number).countP (·.isDuplicateLabel) =
      if (redefinition? policy (SourceLine.ofText text) line).isSome then 1 else 0 := by
  have hfault : (fault? (LabelTable.ofLines policy (SourceLine.ofText text)).1 line).toList.countP
      (·.isDuplicateLabel) = 0 := by
    refine List.countP_eq_zero.mpr fun defect hdefect => ?_
    simp [not_isDuplicateLabel_of_fault? (Option.mem_toList.mp hdefect)]
  have hredefinition : ∀ defect ∈ (redefinition? policy (SourceLine.ofText text) line).toList,
      defect.isDuplicateLabel := fun defect hdefect =>
    isDuplicateLabel_of_redefinition? (Option.mem_toList.mp hdefect)
  rw [defectsOn_ofText h, List.countP_append, hfault, List.countP_eq_length.mpr hredefinition,
    Option.length_toList]
  rfl

theorem countP_not_isDuplicateLabel (h : line ∈ SourceLine.ofText text) :
    ((ofText policy firstId text).defectsOn line.number).countP (!·.isDuplicateLabel) =
      if (fault? (LabelTable.ofLines policy (SourceLine.ofText text)).1 line).isSome then 1
      else 0 := by
  have hredefinition : (redefinition? policy (SourceLine.ofText text) line).toList.countP
      (!·.isDuplicateLabel) = 0 := by
    refine List.countP_eq_zero.mpr fun defect hdefect => ?_
    simp [isDuplicateLabel_of_redefinition? (Option.mem_toList.mp hdefect)]
  have hfault : ∀ defect ∈
      (fault? (LabelTable.ofLines policy (SourceLine.ofText text)).1 line).toList,
      !defect.isDuplicateLabel := by
    intro defect hdefect
    simp [not_isDuplicateLabel_of_fault? (Option.mem_toList.mp hdefect)]
  rw [defectsOn_ofText h, List.countP_append, hredefinition, List.countP_eq_length.mpr hfault,
    Option.length_toList, Nat.zero_add]

-- Whatever is reported is found on a line, by one of the two passes.
theorem exists_line_of_mem_diagnostics {found : Diagnostic}
    (h : found ∈ (ofText policy firstId text).diagnostics) :
    ∃ line ∈ SourceLine.ofText text, ∃ defect, found = Diagnostic.on line defect ∧
      (redefinition? policy (SourceLine.ofText text) line = some defect ∨
        fault? (LabelTable.ofLines policy (SourceLine.ofText text)).1 line = some defect) := by
  rw [diagnostics_ofText] at h
  obtain ⟨line, hline, hfound⟩ := List.mem_flatMap.mp h
  obtain ⟨defect, hdefect, rfl⟩ := List.mem_map.mp hfound
  refine ⟨line, hline, defect, rfl, ?_⟩
  simpa only [List.mem_append, Option.mem_toList] using hdefect

theorem diagnostics_ordered :
    (ofText policy firstId text).diagnostics.Pairwise fun a b =>
      a.line < b.line ∨
        a.line = b.line ∧ a.defect.isDuplicateLabel ∧ ¬b.defect.isDuplicateLabel := by
  rw [diagnostics_ofText, List.pairwise_flatMap]
  constructor
  · intro line _
    cases hredefinition : redefinition? policy (SourceLine.ofText text) line with
    | none =>
      cases fault? (LabelTable.ofLines policy (SourceLine.ofText text)).1 line <;> simp
    | some duplicate =>
      have hduplicate := isDuplicateLabel_of_redefinition? hredefinition
      cases hfault : fault? (LabelTable.ofLines policy (SourceLine.ofText text)).1 line with
      | none => simp
      | some defect =>
        have hdefect := not_isDuplicateLabel_of_fault? hfault
        simp [Diagnostic.on, hduplicate, hdefect]
  · refine (ofText_ascending text).imp fun {before after} hlt => ?_
    intro found hfound later hlater
    obtain ⟨defect, -, rfl⟩ := List.mem_map.mp hfound
    obtain ⟨other, -, rfl⟩ := List.mem_map.mp hlater
    exact .inl hlt

end Text

-- No line is lost or reported twice. Labels are collected before anything is
-- assembled, so both the label and the instruction of a line may be at fault.
theorem ofText_accounts (policy : Redefinition) (firstId : Nat) (text : String) :
    (ofText policy firstId text).Accounts policy text where
  once line hline := by
    rw [length_instructionsOn_ofText hline, countP_not_isDuplicateLabel hline]
    by_cases hinstruction : line.hasInstruction
    · cases fault? (LabelTable.ofLines policy (SourceLine.ofText text)).1 line <;>
        simp [hinstruction]
    · simp [hinstruction, fault?]
  emitted inst hinst := by
    rw [instructions_ofText] at hinst
    obtain ⟨line, hline, hinstruction, hnumber, -⟩ := exists_line_of_mem_instructions hinst
    exact ⟨line, hline, hinstruction, hnumber⟩
  reported found hfound := by
    obtain ⟨line, hline, defect, rfl, hpass⟩ := exists_line_of_mem_diagnostics hfound
    refine ⟨line, hline, ?_, rfl⟩
    cases hpass with
    | inl hredefinition => exact .inl (isDuplicateLabel_of_redefinition? hredefinition)
    | inr hfault => exact .inr (fault?_eq_some_iff.mp hfault).1
  redefined line hline := by
    rw [countP_isDuplicateLabel hline]
    simp only [isSome_redefinition?_iff (ofText_ascending text)]
  first line hline name number hmem := by
    rw [defectsOn_ofText hline, List.mem_append, Option.mem_toList, Option.mem_toList] at hmem
    cases hmem with
    | inl hredefinition =>
      obtain ⟨-, found, first, hlabel, hfirst, -, hdefect⟩ :=
        redefinition?_eq_some_iff.mp hredefinition
      cases hdefect
      exact ⟨hlabel, congrArg (Option.map SourceLine.number) hfirst⟩
    | inr hfault =>
      have hother : true = false := not_isDuplicateLabel_of_fault? hfault
      contradiction
  instructions_ordered := instructions_ascending (ofText_ascending text)
  diagnostics_ordered := diagnostics_ordered
  verbatim found hfound := by
    obtain ⟨line, hline, defect, rfl, -⟩ := exists_line_of_mem_diagnostics hfound
    exact raw_of_mem_ofText hline

example :
    let assembly := ofText .refused 1 "A: MOV R0, #1\nA: FOO"
    assembly.instructions.map (·.line) = [1] ∧
      assembly.defectsOn 2 = [.duplicateLabel "A" 1, .unknownOpcode "FOO"] := by decide +kernel

end Assembly

end FiveStage
