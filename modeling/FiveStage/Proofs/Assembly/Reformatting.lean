import FiveStage.Proofs.Assembly.Reports
import FiveStage.Proofs.Machine.Plain
import FiveStage.Proofs.Text.Splitting

namespace FiveStage

namespace Text

theorem toUpper_of_ascii : ∀ n < 128, (Char.ofNat n).toUpper.toNat < 128 ∧
    (Char.ofNat n).toUpper.toUpper = (Char.ofNat n).toUpper := by
  decide +kernel

theorem uppercaseChar_toUpper (c : Char) : uppercaseChar c.toUpper = uppercaseChar c := by
  by_cases hascii : c.toNat < 128
  · obtain ⟨hupper, hagain⟩ := toUpper_of_ascii c.toNat hascii
    rw [Char.ofNat_toNat] at hupper hagain
    have hleft : uppercaseChar c.toUpper = [c.toUpper.toUpper] := if_pos hupper
    have hright : uppercaseChar c = [c.toUpper] := if_pos hascii
    rw [hleft, hright, hagain]
  · have hlarge : ¬c.val ≤ 'z'.val := fun hle =>
      hascii (Nat.lt_of_le_of_lt (UInt32.le_iff_toNat_le.mp hle) (by decide))
    have hsame : c.toUpper = c := dif_neg fun h => hlarge h.2
    rw [hsame]

-- The uppercase form does not depend on the case of ASCII letters.
theorem uppercase_map_toUpper (text : List Char) :
    uppercase (text.map Char.toUpper) = uppercase text := by
  rw [uppercase, List.flatMap_map]
  exact List.flatMap_congr fun c _ => uppercaseChar_toUpper c

end Text

namespace SourceLine

-- What a line says, however it is written.
structure Content where
  label : Option String
  hasInstruction : Bool
  -- the first token, with its ASCII letters in upper case
  mnemonic : Option (List Char)
  operands : List String
  deriving DecidableEq

def content (line : SourceLine) : Content where
  label := line.definedLabel?
  hasInstruction := line.hasInstruction
  mnemonic := line.tokens.head?.map fun token => token.toList.map Char.toUpper
  operands := line.tokens.tail

-- Whether a line says nothing: it has neither a label nor an instruction.
def isVoid (line : SourceLine) : Bool :=
  line.definedLabel?.isNone && !line.hasInstruction

theorem isVoid_iff {line : SourceLine} :
    line.isVoid ↔ line.definedLabel? = none ∧ line.hasInstruction = false := by
  simp [isVoid]

def contents (lines : List SourceLine) : List Content :=
  (lines.filter fun line => !line.isVoid).map content

end SourceLine

-- A defect without line numbers, and without the separators that a body of
-- nothing else is quoted with.
def Defect.shape : Defect → Defect
  | unknownOpcode mnemonic =>
    unknownOpcode (String.ofList (mnemonic.toList.filter fun c => !SourceLine.isSeparator c))
  | duplicateLabel label _ => duplicateLabel label 0
  | defect => defect

theorem Defect.shape_unknownOpcode_of_tokens {line : SourceLine} (h : line.tokens = []) :
    (unknownOpcode line.body).shape = unknownOpcode "" := by
  have hseparators := Text.runs_eq_nil_iff.mp (List.map_eq_nil_iff.mp h)
  have hnone : line.body.toList.filter (fun c => !SourceLine.isSeparator c) = [] := by
    refine List.filter_eq_nil_iff.mpr fun c hc => ?_
    simp [hseparators c hc]
  rw [shape, hnone]

namespace LabelTable

open SourceLine

-- Tables that resolve every token alike.
def Alike (table other : LabelTable) : Prop :=
  ∀ name, table.offset? name = other.offset? name

theorem Alike.resolve_eq {table other : LabelTable} (h : table.Alike other) :
    table.resolve = other.resolve := by
  funext token
  rw [resolve, h token]
  rfl

theorem offset?_define (policy : Redefinition) (line : SourceLine) (pass : Pass) (name : String) :
    (define policy line pass).table.offset? name =
      if line.definedLabel? = some name then
        match policy with
        | .refused => (pass.table.offset? name).or (some (UInt32.ofNat (4 * pass.slots)))
        | .allowed => some (UInt32.ofNat (4 * pass.slots))
      else pass.table.offset? name := by
  rw [offset?, find?_define]
  split
  · cases policy with
    | refused => cases hfound : pass.table.find? name <;> simp [offset?, hfound]
    | allowed => rfl
  · rfl

namespace Pass

-- Passes that have come by the same labels and slots, on whatever lines.
structure Alike (pass other : Pass) : Prop where
  table : pass.table.Alike other.table
  slots : pass.slots = other.slots

theorem Alike.refl (pass : Pass) : pass.Alike pass := ⟨fun _ => rfl, rfl⟩

section Step

variable {policy : Redefinition} {line other : SourceLine} {pass twin : Pass}

theorem Alike.step (h : pass.Alike twin) (hcontent : line.content = other.content) :
    (pass.step policy line).Alike (twin.step policy other) := by
  have hlabel : line.definedLabel? = other.definedLabel? := congrArg Content.label hcontent
  have hinstruction : line.hasInstruction = other.hasInstruction :=
    congrArg Content.hasInstruction hcontent
  constructor
  · intro name
    rw [table_step, table_step, offset?_define, offset?_define, h.table name, h.slots, hlabel]
  · rw [slots_step, slots_step, h.slots, hinstruction]

-- A label is a duplicate if the table has it, wherever that was defined.
theorem Alike.redefinition? (h : pass.Alike twin) (hcontent : line.content = other.content) :
    (pass.redefinition? policy line).map Defect.shape =
      (twin.redefinition? policy other).map Defect.shape := by
  have hlabel : line.definedLabel? = other.definedLabel? := congrArg Content.label hcontent
  unfold Pass.redefinition?
  rw [hlabel]
  cases policy with
  | allowed => rfl
  | refused =>
    cases other.definedLabel? with
    | none => rfl
    | some name =>
      have hfound := congrArg Option.isSome (h.table name)
      simp only [offset?, Option.isSome_map] at hfound
      cases hfirst : pass.table.find? name <;> cases htwin : twin.table.find? name <;>
        simp_all [Defect.shape]

theorem step_of_isVoid (h : line.isVoid) : pass.step policy line = pass := by
  obtain ⟨hlabel, hinstruction⟩ := isVoid_iff.mp h
  simp [Pass.step, define, hlabel, hinstruction]

theorem redefinition?_of_isVoid (h : line.isVoid) : pass.redefinition? policy line = none := by
  obtain ⟨hlabel, -⟩ := isVoid_iff.mp h
  cases policy <;> simp [Pass.redefinition?, hlabel]

end Step

end Pass

end LabelTable

namespace Assembly

open SourceLine

section Line

variable {labels twin : LabelTable} {line other : SourceLine}

-- Only a body of separators is quoted as it is written.
theorem reading_alike (h : labels.Alike twin) (hcontent : line.content = other.content) :
    (reading labels line).mapError Defect.shape = (reading twin other).mapError Defect.shape := by
  have hmnemonic := congrArg Content.mnemonic hcontent
  have hoperands : line.tokens.tail = other.tokens.tail := congrArg Content.operands hcontent
  simp only [content] at hmnemonic
  unfold reading
  rw [h.resolve_eq]
  cases htokens : line.tokens with
  | nil =>
    rw [htokens, List.head?_nil, Option.map_none, eq_comm, Option.map_eq_none_iff,
      List.head?_eq_none_iff] at hmnemonic
    simp only [hmnemonic, Except.mapError, Defect.shape_unknownOpcode_of_tokens htokens,
      Defect.shape_unknownOpcode_of_tokens hmnemonic]
  | cons first rest =>
    cases hother : other.tokens with
    | nil => simp [htokens, hother] at hmnemonic
    | cons start remaining =>
      simp only [htokens, hother, List.head?_cons, Option.map_some, Option.some.injEq] at hmnemonic
      simp only [htokens, hother, List.tail_cons] at hoperands
      have hfirst : Text.uppercase first.toList = Text.uppercase start.toList := by
        rw [← Text.uppercase_map_toUpper, hmnemonic, Text.uppercase_map_toUpper]
      simp only [hfirst, hoperands]

theorem fault?_alike (h : labels.Alike twin) (hcontent : line.content = other.content) :
    (fault? labels line).map Defect.shape = (fault? twin other).map Defect.shape := by
  have hinstruction : line.hasInstruction = other.hasInstruction :=
    congrArg Content.hasInstruction hcontent
  have hreading := reading_alike h hcontent
  unfold fault?
  rw [hinstruction]
  split
  · cases hline : reading labels line <;> cases hother : reading twin other <;>
      simp_all [Except.mapError]
  · rfl

end Line

-- What is reported of lines when the label pass has come to them. Unlike the
-- merged reports it does not look at their numbers.
def findings (policy : Redefinition) (labels : LabelTable) :
    LabelTable.Pass → List SourceLine → List Defect
  | _, [] => []
  | pass, line :: rest =>
    (pass.redefinition? policy line).toList ++ (fault? labels line).toList ++
      findings policy labels (pass.step policy line) rest

section Lines

variable (policy : Redefinition) {labels twin : LabelTable}

theorem flatMap_eq_findings (labels : LabelTable) (before : List SourceLine)
    {lines : List SourceLine}
    (h : (before ++ lines).Pairwise fun a b => a.number < b.number) :
    (lines.flatMap fun line =>
        (redefinition? policy (before ++ lines) line).toList ++ (fault? labels line).toList) =
      findings policy labels (before.foldl (LabelTable.Pass.step policy) {}) lines := by
  induction lines generalizing before with
  | nil => rfl
  | cons line rest ih =>
    have hsplit : before ++ line :: rest = before ++ [line] ++ rest := by simp
    rw [hsplit] at h ⊢
    have hfirst : redefinition? policy (before ++ [line] ++ rest) line =
        (before.foldl (LabelTable.Pass.step policy) {}).redefinition? policy line := by
      rw [LabelTable.redefinition?_append (by simp) rest,
        LabelTable.redefinition?_last (List.pairwise_append.mp h).1]
    rw [List.flatMap_cons, hfirst, ih _ h, List.foldl_append]
    rfl

-- Lines that say nothing make no difference, to either pass.
theorem findings_filter (pass : LabelTable.Pass) (lines : List SourceLine) :
    findings policy labels pass (lines.filter fun line => !line.isVoid) =
      findings policy labels pass lines := by
  induction lines generalizing pass with
  | nil => rfl
  | cons line rest ih =>
    by_cases hvoid : line.isVoid
    · obtain ⟨-, hinstruction⟩ := isVoid_iff.mp hvoid
      simp [findings, hvoid, ih, LabelTable.Pass.step_of_isVoid hvoid,
        LabelTable.Pass.redefinition?_of_isVoid hvoid, fault?, hinstruction]
    · simp [findings, hvoid, ih]

theorem foldl_step_filter (pass : LabelTable.Pass) (lines : List SourceLine) :
    (lines.filter fun line => !line.isVoid).foldl (LabelTable.Pass.step policy) pass =
      lines.foldl (LabelTable.Pass.step policy) pass := by
  induction lines generalizing pass with
  | nil => rfl
  | cons line rest ih =>
    by_cases hvoid : line.isVoid
    · simp [hvoid, ih, LabelTable.Pass.step_of_isVoid hvoid]
    · simp [hvoid, ih]

theorem assembleLines_filter (labels : LabelTable) (id : Nat) (lines : List SourceLine) :
    assembleLines labels id (lines.filter fun line => !line.isVoid) =
      assembleLines labels id lines := by
  induction lines generalizing id with
  | nil => rfl
  | cons line rest ih =>
    by_cases hvoid : line.isVoid
    · obtain ⟨-, hinstruction⟩ := isVoid_iff.mp hvoid
      simp [assembleLines, hvoid, hinstruction, ih]
    · simp [assembleLines, hvoid, ih]

-- Lines that say the same give the same, whatever they are numbered.
theorem findings_alike {pass follower : LabelTable.Pass} {lines others : List SourceLine}
    (hlabels : labels.Alike twin) (h : pass.Alike follower)
    (hcontent : lines.map content = others.map content) :
    (findings policy labels pass lines).map Defect.shape =
      (findings policy twin follower others).map Defect.shape := by
  induction lines generalizing others pass follower with
  | nil =>
    rw [List.map_eq_nil_iff.mp hcontent.symm]
    rfl
  | cons line rest ih =>
    obtain ⟨other, remaining, rfl, hline, hrest⟩ := List.map_eq_cons_iff.mp hcontent.symm
    simp only [findings, List.map_append, ← Option.toList_map, fault?_alike hlabels hline.symm,
      h.redefinition? hline.symm, ih (h.step hline.symm) hrest.symm]

theorem foldl_step_alike {pass twin : LabelTable.Pass} {lines others : List SourceLine}
    (h : pass.Alike twin) (hcontent : lines.map content = others.map content) :
    (lines.foldl (LabelTable.Pass.step policy) pass).Alike
      (others.foldl (LabelTable.Pass.step policy) twin) := by
  induction lines generalizing others pass twin with
  | nil =>
    rw [List.map_eq_nil_iff.mp hcontent.symm]
    exact h
  | cons line rest ih =>
    obtain ⟨other, remaining, rfl, hline, hrest⟩ := List.map_eq_cons_iff.mp hcontent.symm
    rw [List.foldl_cons, List.foldl_cons]
    exact ih (h.step hline.symm) hrest.symm

theorem instructions_alike {lines others : List SourceLine} (h : labels.Alike twin)
    (hcontent : lines.map content = others.map content) (id other : Nat) :
    (assembleLines labels id lines).instructions.map Instruction.plain =
      (assembleLines twin other others).instructions.map Instruction.plain := by
  induction lines generalizing others id other with
  | nil =>
    rw [List.map_eq_nil_iff.mp hcontent.symm]
    rfl
  | cons line rest ih =>
    obtain ⟨second, remaining, rfl, hline, hrest⟩ := List.map_eq_cons_iff.mp hcontent.symm
    have hinstruction : line.hasInstruction = second.hasInstruction :=
      congrArg Content.hasInstruction hline.symm
    have hreading := reading_alike h hline.symm
    rw [assembleLines_cons, assembleLines_cons, hinstruction]
    split
    · cases hfirst : reading labels line with
      | error defect =>
        cases hsecond : reading twin second with
        | error defect => exact ih hrest.symm _ _
        | ok found => simp [hfirst, hsecond, Except.mapError] at hreading
      | ok found =>
        cases hsecond : reading twin second with
        | error defect => simp [hfirst, hsecond, Except.mapError] at hreading
        | ok found =>
          rw [hfirst, hsecond] at hreading
          cases hreading
          simp only [List.map_cons, ih hrest.symm (id + 1) (other + 1)]
          rfl
    · exact ih hrest.symm _ _

end Lines

section Text

variable {first second : String}

theorem defects_ofText (policy : Redefinition) (firstId : Nat) (text : String) :
    (ofText policy firstId text).diagnostics.map (·.defect) =
      findings policy (LabelTable.ofLines policy (SourceLine.ofText text)).1 {}
        (SourceLine.ofText text) := by
  have hascending : ([] ++ SourceLine.ofText text).Pairwise fun (a b : SourceLine) =>
      a.number < b.number := ofText_ascending text
  have hfindings := flatMap_eq_findings policy
    (LabelTable.ofLines policy (SourceLine.ofText text)).1 [] hascending
  rw [List.nil_append, List.foldl_nil] at hfindings
  rw [diagnostics_ofText, List.map_flatMap, ← hfindings]
  refine List.flatMap_congr fun line _ => ?_
  rw [List.map_map]
  exact List.map_id _

theorem ofLines_alike (policy : Redefinition)
    (h : contents (SourceLine.ofText first) = contents (SourceLine.ofText second)) :
    (LabelTable.ofLines policy (SourceLine.ofText first)).1.Alike
      (LabelTable.ofLines policy (SourceLine.ofText second)).1 := by
  have hpasses := foldl_step_alike policy (.refl {}) h
  rw [foldl_step_filter, foldl_step_filter] at hpasses
  exact hpasses.table

-- Texts whose lines say the same assemble to the same, but for what is shown
-- of the source.
theorem ofText_alike
    (h : contents (SourceLine.ofText first) = contents (SourceLine.ofText second))
    (policy : Redefinition) (id other : Nat) :
    (ofText policy id first).instructions.map Instruction.plain =
        (ofText policy other second).instructions.map Instruction.plain ∧
      (ofText policy id first).diagnostics.map (·.defect.shape) =
        (ofText policy other second).diagnostics.map (·.defect.shape) := by
  have hlabels := ofLines_alike policy h
  constructor
  · have hlines := instructions_alike hlabels h id other
    rwa [assembleLines_filter, assembleLines_filter] at hlines
  · have hfindings := findings_alike policy hlabels (.refl {}) h
    rw [findings_filter, findings_filter, ← defects_ofText, ← defects_ofText, List.map_map,
      List.map_map] at hfindings
    exact hfindings

end Text

end Assembly

end FiveStage
