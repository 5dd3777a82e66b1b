import FiveStage.Proofs.Assembly.Accounts
import FiveStage.Proofs.Assembly.Agreement
import FiveStage.Proofs.Assembly.Tabulation
import FiveStage.Proofs.Token.Decimal
import FiveStage.Wire.Assembly
import Mathlib.Data.List.Forall2

namespace FiveStage

namespace Token

section Marked

variable {token : String}

theorem not_isRegisterShaped_of_marked (h : token.toList.head? = some '#') :
    isRegisterShaped token = false := by
  have hne (name : String) (hname : name.toList.head? ≠ some '#') : token ≠ name :=
    fun he => hname (he ▸ h)
  simp [isRegisterShaped, h, hne "LR" (by decide), hne "SP" (by decide), hne "PC" (by decide)]

theorem register_of_marked (h : token.toList.head? = some '#') :
    register token = .error (.invalidRegister token) := by
  unfold register
  split
  · next r hname =>
    rw [← Register.name_of_ofName? hname] at h
    cases r <;> contradiction
  · rfl

theorem address_of_marked (h : token.toList.head? = some '#') :
    address token = .error (.invalidAddress token) := by
  unfold address
  split
  · next hlist => simp [hlist] at h
  · rfl

end Marked

-- The literal of an instruction's address, as it is put in a label's place.
def IsSlotLiteral (token : String) : Prop :=
  ∃ word : UInt32, word.toNat < 2 ^ 31 ∧ word.toNat % 4 = 0 ∧ token = "#" ++ toString word.toNat

-- A check that finds the same of every instruction's address.
def Check.Uniform (check : Check) : Prop :=
  ∃ verdict, ∀ token, IsSlotLiteral token → (check token).mapError Defect.kind = verdict

theorem uniform_register : Check.Uniform (accepts register) := by
  refine ⟨.error (Defect.kind (.invalidRegister "")), ?_⟩
  rintro _ ⟨word, -, -, rfl⟩
  rw [accepts, register_of_marked (by simp)]
  rfl

theorem uniform_registerOrImmediate : Check.Uniform (accepts registerOrImmediate) := by
  refine ⟨.ok (), ?_⟩
  rintro _ ⟨word, -, -, rfl⟩
  rw [accepts, registerOrImmediate, not_isRegisterShaped_of_marked (by simp), immediate_marked]
  rfl

theorem uniform_address : Check.Uniform (accepts address) := by
  refine ⟨.error (Defect.kind (.invalidAddress "")), ?_⟩
  rintro _ ⟨word, -, -, rfl⟩
  rw [accepts, address_of_marked (by simp)]
  rfl

theorem uniform_branchTarget : Check.Uniform (accepts branchTarget) := by
  refine ⟨.ok (), ?_⟩
  rintro _ ⟨word, hlt, haligned, rfl⟩
  rw [accepts, branchTarget_marked hlt haligned]
  rfl

theorem uniform_of_mem_checks {family : Opcode.Family} {check : Check}
    (h : check ∈ family.checks) : check.Uniform := by
  cases family <;> simp only [Opcode.Family.checks, List.mem_cons, List.not_mem_nil, or_false] at h
  case arithmetic =>
    rcases h with rfl | rfl | rfl
    · exact uniform_register
    · exact uniform_register
    · exact uniform_registerOrImmediate
  case moveCompare =>
    rcases h with rfl | rfl
    · exact uniform_register
    · exact uniform_registerOrImmediate
  case loadStore =>
    rcases h with rfl | rfl
    · exact uniform_register
    · exact uniform_address
  case branch => exact h ▸ uniform_branchTarget

-- Tokens that are the same but for the address that they stand for.
inductive Exchangeable : String → String → Prop
  | same (token : String) : Exchangeable token token
  | literals {token other : String} (h : IsSlotLiteral token) (hother : IsSlotLiteral other) :
      Exchangeable token other

theorem Check.Uniform.kind_eq {check : Check} (hcheck : check.Uniform) {token other : String}
    (h : Exchangeable token other) :
    (check token).mapError Defect.kind = (check other).mapError Defect.kind := by
  cases h with
  | same => rfl
  | literals h hother =>
    obtain ⟨verdict, hverdict⟩ := hcheck
    rw [hverdict token h, hverdict other hother]

theorem kind_checkAll {checks : List Check} (hchecks : ∀ check ∈ checks, check.Uniform)
    {tokens others : List String} (h : List.Forall₂ Exchangeable tokens others) :
    (checkAll checks tokens).mapError Defect.kind =
      (checkAll checks others).mapError Defect.kind := by
  induction checks generalizing tokens others with
  | nil => rfl
  | cons check checks ih =>
    cases h with
    | nil => rfl
    | @cons token other tokens others hfirst hrest =>
      have hverdict := (hchecks check List.mem_cons_self).kind_eq hfirst
      have hlater := ih (fun later hmem => hchecks later (List.mem_cons_of_mem _ hmem)) hrest
      rw [checkAll, checkAll]
      cases htoken : check token <;> cases hother : check other <;>
        simp_all [Except.mapError, bind, Except.bind]

end Token

namespace Opcode

theorem validate_of_length_ne {op : Opcode} {operands : List String}
    (h : operands.length ≠ op.operandCount) :
    op.validate operands = .error (.operandCount op op.operandCount operands.length) := by
  unfold validate
  split
  case h_5 => rfl
  all_goals
    next hfamily => exact absurd (by rw [operandCount, hfamily]; rfl) h

-- Whether operands will do, and if not in what way, does not depend on the
-- addresses that stand for labels in them.
theorem kind_validate (op : Opcode) {operands others : List String}
    (h : List.Forall₂ Token.Exchangeable operands others) :
    (op.validate operands).mapError Defect.kind = (op.validate others).mapError Defect.kind := by
  by_cases hcount : operands.length = op.operandCount
  · have hother : others.length = op.operandCount := h.length_eq ▸ hcount
    rw [validate_eq_checkAll hcount, validate_eq_checkAll hother]
    exact Token.kind_checkAll (fun _ => Token.uniform_of_mem_checks) h
  · have hother : others.length ≠ op.operandCount := h.length_eq ▸ hcount
    rw [validate_of_length_ne hcount, validate_of_length_ne hother]
    rfl

end Opcode

namespace SourceLine

-- Whether a label is defined on more than one line.
def Repeats (lines : List SourceLine) (name : String) : Prop :=
  1 < lines.countP fun line => line.definedLabel? = some name

-- A label that is defined only once has the same definition under either policy.
theorem definition?_eq_of_not_repeats {lines : List SourceLine} {name : String}
    (h : ¬Repeats lines name) :
    definition? .refused lines name = definition? .allowed lines name := by
  rw [Repeats, List.countP_eq_length_filter] at h
  rw [definition?, definition?, ← List.head?_filter, ← List.head?_filter, List.filter_reverse]
  generalize lines.filter (fun line => line.definedLabel? = some name) = found at h ⊢
  obtain _ | ⟨first, _ | ⟨second, rest⟩⟩ := found
  · rfl
  · rfl
  · rw [List.length_cons, List.length_cons] at h
    omega

theorem redefinition?_eq_none_of_not_repeats {policy : Redefinition} {lines : List SourceLine}
    (hlines : lines.Pairwise fun a b => a.number < b.number)
    (h : ∀ name, ¬Repeats lines name) {line : SourceLine} (hline : line ∈ lines) :
    redefinition? policy lines line = none := by
  rw [Option.eq_none_iff_forall_ne_some]
  intro defect hdefect
  obtain ⟨-, name, first, hname, hfirst, hlt, -⟩ := redefinition?_eq_some_iff.mp hdefect
  rw [definition?_eq_of_not_repeats (h name)] at hfirst
  have hle : line.number ≤ first.number :=
    (isDefinition_of_definition? hlines hfirst).counts line hline hname
  omega

end SourceLine

namespace LabelTable

open SourceLine

theorem resolve_eq_of_not_repeats {text token : String} (h : ¬Repeats (ofText text) token) :
    (ofLines .refused (ofText text)).1.resolve token =
      (ofLines .allowed (ofText text)).1.resolve token := by
  rw [resolve_ofLines_ofText, resolve_ofLines_ofText, definition?_eq_of_not_repeats h]

theorem isSlotLiteral_resolve {policy : Redefinition} {text name : String}
    {entry : LabelDefinition} (hslots : (ofText text).countP hasInstruction < 2 ^ 29)
    (h : (ofLines policy (ofText text)).1.find? name = some entry) :
    Token.IsSlotLiteral ((ofLines policy (ofText text)).1.resolve name) := by
  have hoffset := toNat_offset (Nat.lt_trans hslots (by decide)) h
  exact ⟨entry.offset, toNat_offset_lt hslots h, by omega, resolve_of_find? h⟩

-- The same tokens are labels under both policies.
theorem exchangeable_resolve {text : String}
    (hslots : (ofText text).countP hasInstruction < 2 ^ 29) (token : String) :
    Token.Exchangeable ((ofLines .refused (ofText text)).1.resolve token)
      ((ofLines .allowed (ofText text)).1.resolve token) := by
  by_cases hlabel : ∃ line ∈ ofText text, line.definedLabel? = some token
  · have hfound (policy : Redefinition) :=
      mem_names_iff.mp ((@mem_names_ofLines_ofText policy text token).mpr hlabel)
    obtain ⟨refused, hrefused⟩ := hfound .refused
    obtain ⟨allowed, hallowed⟩ := hfound .allowed
    exact .literals (isSlotLiteral_resolve hslots hrefused) (isSlotLiteral_resolve hslots hallowed)
  · have hother (policy : Redefinition) : (ofLines policy (ofText text)).1.resolve token = token :=
      resolve_of_not_mem_names fun hmem => hlabel (mem_names_ofLines_ofText.mp hmem)
    rw [hother, hother]
    exact .same token

end LabelTable

namespace Assembly

open SourceLine

section Tables

variable {labels twin : LabelTable}

-- With tables that resolve tokens to exchangeable ones a line says the same
-- or is at fault in the same way.
theorem reading_exchangeable
    (h : ∀ token, Token.Exchangeable (labels.resolve token) (twin.resolve token))
    (line : SourceLine) :
    (∃ opcode, reading labels line = .ok (opcode, line.tokens.tail.map labels.resolve) ∧
        reading twin line = .ok (opcode, line.tokens.tail.map twin.resolve)) ∨
      ∃ defect other, reading labels line = .error defect ∧ reading twin line = .error other ∧
        defect.kind = other.kind := by
  unfold reading
  cases line.tokens with
  | nil => exact .inr ⟨_, _, rfl, rfl, rfl⟩
  | cons first rest =>
    dsimp only [List.tail_cons]
    cases Opcode.ofMnemonic? (String.ofList (Text.uppercase first.toList)) with
    | none => exact .inr ⟨_, _, rfl, rfl, rfl⟩
    | some opcode =>
      have hoperands : List.Forall₂ Token.Exchangeable (rest.map labels.resolve)
          (rest.map twin.resolve) := by
        rw [List.forall₂_map_left_iff, List.forall₂_map_right_iff, List.forall₂_same]
        exact fun token _ => h token
      have hkind := opcode.kind_validate hoperands
      cases hvalid : opcode.validate (rest.map labels.resolve) <;>
        cases hother : opcode.validate (rest.map twin.resolve) <;>
        simp_all [Except.mapError, Except.map]

theorem kind_fault?
    (h : ∀ token, Token.Exchangeable (labels.resolve token) (twin.resolve token))
    (line : SourceLine) :
    (fault? labels line).map Defect.kind = (fault? twin line).map Defect.kind := by
  unfold fault?
  obtain ⟨opcode, hreading, htwin⟩ | ⟨defect, other, hreading, htwin, hkind⟩ :=
    reading_exchangeable h line
  · rw [hreading, htwin]
  · rw [hreading, htwin]
    split
    · exact congrArg some hkind
    · rfl

-- Instructions that a line gives with one table and with another.
inductive FromLine (labels twin : LabelTable) (lines : List SourceLine) :
    Instruction → Instruction → Prop
  | intro {line : SourceLine} (hline : line ∈ lines) (id other : Nat) (opcode : Opcode) :
      FromLine labels twin lines
        (.build id opcode (line.tokens.tail.map labels.resolve) line.body line.number)
        (.build other opcode (line.tokens.tail.map twin.resolve) line.body line.number)

theorem FromLine.cons {lines : List SourceLine} {inst other : Instruction} (line : SourceLine)
    (h : FromLine labels twin lines inst other) : FromLine labels twin (line :: lines) inst other :=
  match h with
  | .intro hline id other opcode => .intro (List.mem_cons_of_mem line hline) id other opcode

theorem forall₂_fromLine
    (h : ∀ token, Token.Exchangeable (labels.resolve token) (twin.resolve token))
    (id other : Nat) (lines : List SourceLine) :
    List.Forall₂ (FromLine labels twin lines) (assembleLines labels id lines).instructions
      (assembleLines twin other lines).instructions := by
  induction lines generalizing id other with
  | nil => exact .nil
  | cons line rest ih =>
    have hrest (id other : Nat) : List.Forall₂ (FromLine labels twin (line :: rest))
        (assembleLines labels id rest).instructions (assembleLines twin other rest).instructions :=
      (ih id other).imp fun _ _ hfrom => hfrom.cons line
    rw [assembleLines_cons, assembleLines_cons]
    split
    · obtain ⟨opcode, hreading, htwin⟩ | ⟨defect, another, hreading, htwin, -⟩ :=
        reading_exchangeable h line
      · rw [hreading, htwin]
        exact .cons (.intro List.mem_cons_self ..) (hrest ..)
      · rw [hreading, htwin]
        exact hrest ..
    · exact hrest ..

-- A table counts only by what it resolves tokens to.
theorem reading_congr (h : labels.resolve = twin.resolve) (line : SourceLine) :
    reading labels line = reading twin line := by
  unfold reading
  rw [h]

theorem assembleLines_congr (h : labels.resolve = twin.resolve) (id : Nat)
    (lines : List SourceLine) : assembleLines labels id lines = assembleLines twin id lines := by
  induction lines generalizing id with
  | nil => rfl
  | cons line rest ih => rw [assembleLines_cons, assembleLines_cons, reading_congr h, ih, ih]

end Tables

section Text

variable {text : String}

-- What is reported of a program but for the labels that are defined again.
theorem filter_diagnostics_ofText (policy : Redefinition) (firstId : Nat) (text : String) :
    (ofText policy firstId text).diagnostics.filter (fun found => !found.defect.isDuplicateLabel) =
      (SourceLine.ofText text).flatMap fun line =>
        (fault? (LabelTable.ofLines policy (SourceLine.ofText text)).1 line).toList.map
          (Diagnostic.on line) := by
  rw [diagnostics_ofText, List.filter_flatMap]
  refine List.flatMap_congr fun line _ => ?_
  rw [List.map_append, List.filter_append]
  have hredefinition : ((redefinition? policy (SourceLine.ofText text) line).toList.map
      (Diagnostic.on line)).filter (fun found => !found.defect.isDuplicateLabel) = [] := by
    refine List.filter_eq_nil_iff.mpr fun found hfound => ?_
    obtain ⟨defect, hdefect, rfl⟩ := List.mem_map.mp hfound
    simp [Diagnostic.on, isDuplicateLabel_of_redefinition? (Option.mem_toList.mp hdefect)]
  rw [hredefinition, List.nil_append, List.filter_eq_self]
  intro found hfound
  obtain ⟨defect, hdefect, rfl⟩ := List.mem_map.mp hfound
  simp [Diagnostic.on, not_isDuplicateLabel_of_fault? (Option.mem_toList.mp hdefect)]

theorem filter_diagnostics_allowed (firstId : Nat) (text : String) :
    (ofText .allowed firstId text).diagnostics.filter
      (fun found => !found.defect.isDuplicateLabel) = (ofText .allowed firstId text).diagnostics := by
  rw [filter_diagnostics_ofText, diagnostics_ofText]
  rfl

-- Both assemblies find the same kinds of fault on the same lines.
theorem kinds_ofText (hslots : (SourceLine.ofText text).countP hasInstruction < 2 ^ 29)
    (firstId otherId : Nat) :
    (ofText .allowed otherId text).diagnostics.map
        (fun found => (found.line, found.defect.kind)) =
      ((ofText .refused firstId text).diagnostics.filter
        fun found => !found.defect.isDuplicateLabel).map
          fun found => (found.line, found.defect.kind) := by
  rw [← filter_diagnostics_allowed, filter_diagnostics_ofText, filter_diagnostics_ofText,
    List.map_flatMap, List.map_flatMap]
  refine List.flatMap_congr fun line _ => ?_
  have hkind := kind_fault? (LabelTable.exchangeable_resolve hslots) line
  cases hrefused : fault? (LabelTable.ofLines .refused (SourceLine.ofText text)).1 line <;>
    cases hallowed : fault? (LabelTable.ofLines .allowed (SourceLine.ofText text)).1 line <;>
    simp_all [Diagnostic.on]

theorem ofText_eq_of_not_repeats (h : ∀ name, ¬Repeats (SourceLine.ofText text) name)
    (firstId : Nat) : ofText .refused firstId text = ofText .allowed firstId text := by
  have hresolve : (LabelTable.ofLines .refused (SourceLine.ofText text)).1.resolve =
      (LabelTable.ofLines .allowed (SourceLine.ofText text)).1.resolve :=
    funext fun token => LabelTable.resolve_eq_of_not_repeats (h token)
  have hinstructions : (ofText .refused firstId text).instructions =
      (ofText .allowed firstId text).instructions := by
    rw [instructions_ofText, instructions_ofText, assembleLines_congr hresolve]
  have hdiagnostics : (ofText .refused firstId text).diagnostics =
      (ofText .allowed firstId text).diagnostics := by
    rw [diagnostics_ofText, diagnostics_ofText]
    refine List.flatMap_congr fun line hline => ?_
    have hnone (policy : Redefinition) : redefinition? policy (SourceLine.ofText text) line = none :=
      redefinition?_eq_none_of_not_repeats (ofText_ascending text) h hline
    rw [hnone, hnone, fault?, fault?, reading_congr hresolve]
  exact congrArg₂ Assembly.mk hinstructions hdiagnostics

end Text

-- What the assemblies of a program have in common if labels may not be
-- defined again, and if they may.
structure Concurs (refused allowed : Assembly) (lines : List SourceLine) : Prop where
  -- an operand is different only where it is a label that is defined again
  instructions : List.Forall₂
    (fun inst other => inst.line = other.line ∧ inst.text = other.text ∧
      inst.opcode = other.opcode ∧
      ∃ line ∈ lines, line.number = inst.line ∧ ∀ position : Nat,
        inst.operands[position]? ≠ other.operands[position]? →
          ∃ token, line.tokens.tail[position]? = some token ∧ Repeats lines token)
    refused.instructions allowed.instructions
  diagnostics :
    allowed.diagnostics.map (fun found => (found.line, found.defect.kind)) =
      (refused.diagnostics.filter fun found => !found.defect.isDuplicateLabel).map
        fun found => (found.line, found.defect.kind)
  isClean_iff : allowed.isClean ↔ ∀ found ∈ refused.diagnostics, found.defect.isDuplicateLabel
  same : (∀ name, ¬Repeats lines name) → refused.withoutIds = allowed.withoutIds

-- Whether labels may be defined again makes no difference but to the labels
-- that are. They stand for one address or another, and any address will do.
theorem ofText_concurs {text : String}
    (hslots : (SourceLine.ofText text).countP hasInstruction < 2 ^ 29) (firstId otherId : Nat) :
    (ofText .refused firstId text).Concurs (ofText .allowed otherId text)
      (SourceLine.ofText text) := by
  have hresolve := LabelTable.exchangeable_resolve hslots
  have hkinds := kinds_ofText hslots firstId otherId
  refine {
    instructions := (forall₂_fromLine hresolve firstId otherId (SourceLine.ofText text)).imp ?each
    diagnostics := hkinds
    isClean_iff := ?clean
    same := fun hrepeats => ?same }
  case each =>
    rintro inst other (@⟨line, hline, id, another, opcode⟩)
    refine ⟨rfl, rfl, rfl, line, hline, rfl, fun position hdiffers => ?_⟩
    simp only [Instruction.build, List.getElem?_map] at hdiffers
    cases htoken : line.tokens.tail[position]? with
    | none => simp [htoken] at hdiffers
    | some token =>
      refine ⟨token, rfl, ?_⟩
      by_contra hrepeats
      rw [htoken, Option.map_some, Option.map_some,
        LabelTable.resolve_eq_of_not_repeats hrepeats] at hdiffers
      exact hdiffers rfl
  case clean =>
    rw [isClean, List.isEmpty_iff, ← List.map_eq_nil_iff, hkinds, List.map_eq_nil_iff,
      List.filter_eq_nil_iff]
    simp
  case same =>
    rw [ofText_eq_of_not_repeats hrepeats]
    exact withoutIds_ofText ..

-- A label whose address is moved by its later definition, in all positions.
private def shifting : String :=
  "x: MOV R0, #1\nMOV R1, x\nx: FROB\nADD x, R0, R1\nB x\nx: LDR R0, x"

theorem ofText_concurs_shifting :
    (SourceLine.ofText shifting).countP hasInstruction < 2 ^ 29 ∧
      (ofText .refused 1 shifting).instructions.map (·.operands) =
        [["R0", "#1"], ["R1", "#0"], ["#0"]] ∧
      (ofText .allowed 1 shifting).instructions.map (·.operands) =
        [["R0", "#1"], ["R1", "#20"], ["#20"]] ∧
      (ofText .refused 1 shifting).Concurs (ofText .allowed 1 shifting)
        (SourceLine.ofText shifting) := by
  have hslots : (SourceLine.ofText shifting).countP hasInstruction < 2 ^ 29 := by decide +kernel
  exact ⟨hslots, by decide +kernel, by decide +kernel, ofText_concurs hslots 1 1⟩

end Assembly

end FiveStage
