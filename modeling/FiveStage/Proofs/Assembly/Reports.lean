import FiveStage.Proofs.Assembly.Lines

namespace FiveStage

namespace Diagnostic

theorem place_of_forall_le {diagnostic : Diagnostic} {others : List Diagnostic}
    (h : ∀ other ∈ others, diagnostic.line ≤ other.line) :
    place diagnostic others = diagnostic :: others := by
  cases others with
  | nil => rfl
  | cons first rest => exact if_pos (h first List.mem_cons_self)

theorem merge_cons (first : Diagnostic) (firsts others : List Diagnostic) :
    merge (first :: firsts) others = place first (merge firsts others) := rfl

theorem merge_cons_of_forall_lt {first : Diagnostic} {firsts others : List Diagnostic}
    (h : ∀ diagnostic ∈ firsts, first.line < diagnostic.line) :
    merge firsts (first :: others) = first :: merge firsts others := by
  induction firsts with
  | nil => rfl
  | cons diagnostic rest ih =>
    have hlate := h diagnostic List.mem_cons_self
    rw [merge_cons, merge_cons, ih fun other hother => h other (List.mem_cons_of_mem _ hother)]
    exact if_neg (Nat.not_le.mpr hlate)

-- What a pass over the lines that finds at most one defect in each reports.
def onLines (find : SourceLine → Option Defect) (lines : List SourceLine) : List Diagnostic :=
  lines.filterMap fun line => (find line).map (on line)

section OnLines

variable {find : SourceLine → Option Defect} {lines : List SourceLine}

theorem onLines_cons (find : SourceLine → Option Defect) (line : SourceLine)
    (rest : List SourceLine) :
    onLines find (line :: rest) = (find line).toList.map (on line) ++ onLines find rest := by
  cases hfound : find line <;> simp [onLines, hfound]

theorem onLines_concat (find : SourceLine → Option Defect) (lines : List SourceLine)
    (last : SourceLine) :
    onLines find (lines ++ [last]) = onLines find lines ++ ((find last).map (on last)).toList := by
  cases hfound : find last <;> simp [onLines, hfound]

theorem mem_onLines {found : Diagnostic} :
    found ∈ onLines find lines ↔
      ∃ line ∈ lines, ∃ defect, find line = some defect ∧ on line defect = found := by
  simp [onLines, List.mem_filterMap]

theorem lt_of_mem_onLines {number : Nat} (h : ∀ line ∈ lines, number < line.number) :
    ∀ found ∈ onLines find lines, number < found.line := by
  intro found hfound
  obtain ⟨line, hline, defect, -, rfl⟩ := mem_onLines.mp hfound
  exact h line hline

end OnLines

-- The reports of two passes, merged, are what the passes find line by line.
theorem merge_onLines (early late : SourceLine → Option Defect) {lines : List SourceLine}
    (h : lines.Pairwise fun a b => a.number < b.number) :
    merge (onLines early lines) (onLines late lines) =
      lines.flatMap fun line => ((early line).toList ++ (late line).toList).map (on line) := by
  induction lines with
  | nil => rfl
  | cons line rest ih =>
    obtain ⟨hline, hrest⟩ := List.pairwise_cons.mp h
    have hlate : merge (onLines early rest) (onLines late (line :: rest)) =
        (late line).toList.map (on line) ++ merge (onLines early rest) (onLines late rest) := by
      rw [onLines_cons]
      cases late line with
      | none => rfl
      | some defect => exact merge_cons_of_forall_lt (lt_of_mem_onLines hline)
    have hfront : ∀ found ∈ merge (onLines early rest) (onLines late (line :: rest)),
        line.number ≤ found.line := by
      intro found hfound
      rw [hlate] at hfound
      cases List.mem_append.mp hfound with
      | inl hown =>
        obtain ⟨defect, -, rfl⟩ := List.mem_map.mp hown
        exact Nat.le_refl _
      | inr hmerged =>
        cases List.mem_append.mp ((perm_merge _ _).mem_iff.mp hmerged) with
        | inl hfound => exact Nat.le_of_lt (lt_of_mem_onLines hline found hfound)
        | inr hfound => exact Nat.le_of_lt (lt_of_mem_onLines hline found hfound)
    rw [List.flatMap_cons, ← ih hrest, List.map_append, List.append_assoc, ← hlate,
      onLines_cons early]
    cases early line with
    | none => rfl
    | some defect => exact place_of_forall_le hfront

end Diagnostic

namespace SourceLine

-- What is wrong with the label of a line, seen among all lines: that it is
-- defined on an earlier one.
def redefinition? (policy : Redefinition) (lines : List SourceLine) (line : SourceLine) :
    Option Defect :=
  match policy, line.definedLabel? with
  | .refused, some name =>
    ((definition? .refused lines name).filter (·.number < line.number)).map fun first =>
      .duplicateLabel name first.number
  | _, _ => none

-- What is wrong with the instruction of a line.
def fault? (labels : LabelTable) (line : SourceLine) : Option Defect :=
  if line.hasInstruction then
    match Assembly.reading labels line with
    | .ok _ => none
    | .error defect => some defect
  else none

end SourceLine

namespace LabelTable

open SourceLine

-- The same, seen when the pass comes to the line.
def Pass.redefinition? (policy : Redefinition) (pass : Pass) (line : SourceLine) :
    Option Defect :=
  match policy, line.definedLabel? with
  | .refused, some name =>
    (pass.table.find? name).map fun first => .duplicateLabel name first.line
  | _, _ => none

theorem diagnostics_define (policy : Redefinition) (line : SourceLine) (pass : Pass) :
    (define policy line pass).diagnostics =
      ((pass.redefinition? policy line).map (Diagnostic.on line)).toList ++ pass.diagnostics := by
  unfold define Pass.redefinition?
  cases line.definedLabel? with
  | none => cases policy <;> rfl
  | some name => cases hfound : pass.table.find? name <;> cases policy <;> simp [hfound]

-- A definition behind a line is no earlier one for it.
theorem redefinition?_append {policy : Redefinition} {lines : List SourceLine} {line : SourceLine}
    (h : line ∈ lines) (rest : List SourceLine) :
    SourceLine.redefinition? policy (lines ++ rest) line =
      SourceLine.redefinition? policy lines line := by
  unfold SourceLine.redefinition?
  cases policy with
  | allowed => rfl
  | refused =>
    cases hlabel : line.definedLabel? with
    | none => rfl
    | some name =>
      have hfirst : definition? .refused (lines ++ rest) name =
          (definition? .refused lines name).or (definition? .refused rest name) :=
        List.find?_append
      cases hfound : definition? .refused lines name with
      | none => exact absurd hlabel (definition?_eq_none_iff.mp hfound line h)
      | some first => simp [hfirst, hfound]

-- For the last line the earlier definitions are those that the table holds.
theorem redefinition?_last {policy : Redefinition} {lines : List SourceLine} {last : SourceLine}
    (h : (lines ++ [last]).Pairwise fun a b => a.number < b.number) :
    SourceLine.redefinition? policy (lines ++ [last]) last =
      (lines.foldl (Pass.step policy) {}).redefinition? policy last := by
  obtain ⟨hlines, -, hlast⟩ := List.pairwise_append.mp h
  unfold SourceLine.redefinition? Pass.redefinition?
  cases policy with
  | allowed => rfl
  | refused =>
    cases hlabel : last.definedLabel? with
    | none => rfl
    | some name =>
      dsimp only
      rw [find?_foldl_step .refused hlines, definition?_append, if_pos hlabel]
      cases hfirst : definition? .refused lines name with
      | none => simp
      | some first =>
        have hbefore := hlast first (mem_of_definition? hfirst) last List.mem_cons_self
        simp [hbefore]

theorem ofLines_diagnostics (policy : Redefinition) {lines : List SourceLine}
    (h : lines.Pairwise fun a b => a.number < b.number) :
    (ofLines policy lines).2 =
      Diagnostic.onLines (SourceLine.redefinition? policy lines) lines := by
  induction lines using List.reverseRecOn with
  | nil => rfl
  | append_singleton lines last ih =>
    obtain ⟨hlines, -, -⟩ := List.pairwise_append.mp h
    have hlast : (ofLines policy (lines ++ [last])).2 = (ofLines policy lines).2 ++
        ((SourceLine.redefinition? policy (lines ++ [last]) last).map
          (Diagnostic.on last)).toList := by
      have hstep : ((lines ++ [last]).foldl (Pass.step policy) {}).diagnostics =
          (define policy last (lines.foldl (Pass.step policy) {})).diagnostics := by
        rw [List.foldl_append, List.foldl_cons, List.foldl_nil, Pass.step]
        split <;> rfl
      rw [redefinition?_last h, ofLines, hstep, diagnostics_define, List.reverse_append]
      cases (lines.foldl (Pass.step policy) {}).redefinition? policy last <;> rfl
    have hbefore : Diagnostic.onLines (SourceLine.redefinition? policy (lines ++ [last])) lines =
        Diagnostic.onLines (SourceLine.redefinition? policy lines) lines :=
      List.filterMap_congr fun line hline => by rw [redefinition?_append hline [last]]
    rw [hlast, ih hlines, Diagnostic.onLines_concat, hbefore]

end LabelTable

namespace Assembly

open SourceLine

theorem diagnostics_assembleLines (labels : LabelTable) (id : Nat) (lines : List SourceLine) :
    (assembleLines labels id lines).diagnostics = Diagnostic.onLines (fault? labels) lines := by
  induction lines generalizing id with
  | nil => rfl
  | cons line rest ih =>
    rw [assembleLines_cons, Diagnostic.onLines_cons, fault?]
    by_cases hline : line.hasInstruction
    · cases reading labels line <;> simp [hline, ih]
    · simp [hline, ih]

theorem diagnostics_ofText (policy : Redefinition) (firstId : Nat) (text : String) :
    (ofText policy firstId text).diagnostics =
      (SourceLine.ofText text).flatMap fun line =>
        ((redefinition? policy (SourceLine.ofText text) line).toList ++
          (fault? (LabelTable.ofLines policy (SourceLine.ofText text)).1 line).toList).map
            (Diagnostic.on line) := by
  have hascending := ofText_ascending text
  rw [ofText, ← Diagnostic.merge_onLines _ _ hascending,
    ← LabelTable.ofLines_diagnostics _ hascending]
  simp only [diagnostics_assembleLines]

end Assembly

end FiveStage
