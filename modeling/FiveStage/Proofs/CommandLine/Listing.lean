import FiveStage.CommandLine.Commands
import FiveStage.CommandLine.Desk
import FiveStage.Proofs.Assembly.Landing
import FiveStage.Proofs.Assembly.Redefinition
import FiveStage.Proofs.Token.Literal

namespace FiveStage

-- In a list whose keys ascend, an entry's position is the number of smaller
-- keys.
theorem mapIdx_eq_map_countP {α β : Type} (key : α → Nat) (f : Nat → α → β) {entries : List α}
    (h : entries.Pairwise fun a b => key a < key b) :
    entries.mapIdx f =
      entries.map fun entry => f (entries.countP fun other => key other < key entry) entry := by
  refine List.ext_getElem (by simp) fun i hi hmap => ?_
  rw [List.length_mapIdx] at hi
  have hfirst : entries.findIdx (fun other => key entries[i] ≤ key other) = i := by
    rw [List.findIdx_eq hi]
    refine ⟨decide_eq_true (Nat.le_refl _), fun j hj => ?_⟩
    have hlt := List.pairwise_iff_getElem.mp h j i (Nat.lt_trans hj hi) hi hj
    exact decide_eq_false (Nat.not_le.mpr hlt)
  rw [findIdx_le_eq_countP_lt key _ h] at hfirst
  rw [List.getElem_mapIdx, List.getElem_map, hfirst]

namespace Numeral

theorem IsDigit.ne_space {c : Char} {d : Nat} (h : IsDigit 16 c d) : c ≠ ' ' := by
  have hvalue := (digitValue?_eq_some_iff (Nat.le_refl 16)).mpr h
  rintro rfl
  contradiction

theorem ofDigits?_leftpad {digits : List Char} {n : Nat} (h : ofDigits? 16 digits = some n)
    (width : Nat) : ofDigits? 16 (digits.leftpad width '0') = some n := by
  have hne : digits ≠ [] := ((ofDigits?_eq_some_iff (Nat.le_refl 16)).mp h).ne_nil
  have hzeros (count : Nat) : ofDigits? 16 (List.replicate count '0' ++ digits) = some n := by
    induction count with
    | zero => exact h
    | succ count ih =>
      have hzero : shiftIn? 16 0 '0' = some 0 := by decide
      rw [ofDigits?, if_neg (by simp [hne])] at ih
      rw [ofDigits?, if_neg (by simp), List.replicate_succ, List.cons_append, List.foldlM_cons,
        hzero]
      exact ih
  exact hzeros _

end Numeral

namespace Assembly

open SourceLine

-- How many lines before this one give an instruction, and how many fail.
def assembledBefore (assembly : Assembly) (number : Nat) : Nat :=
  assembly.instructions.countP fun inst => inst.line < number

def failedBefore (assembly : Assembly) (number : Nat) : Nat :=
  assembly.failedLines.countP fun failed => failed < number

-- A line that takes a slot is assembled or fails.
theorem countP_instructions_add_countP_faults (labels : LabelTable) (id : Nat)
    (lines : List SourceLine) (number : Nat) :
    (assembleLines labels id lines).instructions.countP (fun inst => inst.line < number) +
        (lines.flatMap fun line => (fault? labels line).toList.map (Diagnostic.on line)).countP
          (fun found => found.line < number) =
      slotsBefore lines number := by
  induction lines generalizing id with
  | nil => rfl
  | cons line rest ih =>
    rw [assembleLines_cons, List.flatMap_cons, List.countP_append, slotsBefore, List.countP_cons,
      ← slotsBefore, fault?]
    by_cases hline : line.hasInstruction
    · cases hreading : reading labels line with
      | ok found =>
        have hrest := ih (id + 1)
        simp only [hline, ↓reduceIte, Instruction.build, List.countP_cons, decide_eq_true_eq,
          Option.toList_none, List.map_nil, List.countP_nil, Nat.zero_add, Bool.true_and]
        omega
      | error defect =>
        have hrest := ih id
        simp only [hline, ↓reduceIte, Diagnostic.on, Option.toList_some, List.map_cons,
          List.map_nil, List.countP_cons, List.countP_nil, decide_eq_true_eq, Nat.zero_add,
          Bool.true_and]
        omega
    · simpa [hline] using ih id

section Text

variable {policy : Redefinition} {firstId : Nat} {text : String}

theorem assembledBefore_add_failedBefore (number : Nat) :
    (ofText policy firstId text).assembledBefore number +
        (ofText policy firstId text).failedBefore number =
      slotsBefore (SourceLine.ofText text) number := by
  rw [assembledBefore, failedBefore, failedLines, List.countP_map, filter_diagnostics_ofText,
    instructions_ofText]
  exact countP_instructions_add_countP_faults ..

theorem listing_ofText : (ofText policy firstId text).listing =
    (ofText policy firstId text).instructions.map fun inst =>
      (4 * (ofText policy firstId text).assembledBefore inst.line, inst) :=
  mapIdx_eq_map_countP Instruction.line _ (instructions_ascending (ofText_ascending text))

end Text

-- How the address at which an instruction of a text is listed lies to the one
-- of its slot, which is that of a label on its line.
structure Lags (policy : Redefinition) (firstId : Nat) (text : String) (inst : Instruction) :
    Prop where
  slot : 4 * (ofText policy firstId text).assembledBefore inst.line +
      4 * (ofText policy firstId text).failedBefore inst.line =
    4 * slotsBefore (SourceLine.ofText text) inst.line
  label : ∀ name entry,
    (LabelTable.ofLines policy (SourceLine.ofText text)).1.find? name = some entry →
      entry.line = inst.line →
        entry.offset.toNat = 4 * slotsBefore (SourceLine.ofText text) inst.line
  agrees_iff : 4 * (ofText policy firstId text).assembledBefore inst.line =
      4 * slotsBefore (SourceLine.ofText text) inst.line ↔
    ∀ failed ∈ (ofText policy firstId text).failedLines, inst.line ≤ failed

theorem lags {text : String} (hslots : (SourceLine.ofText text).countP hasInstruction < 2 ^ 30)
    (policy : Redefinition) (firstId : Nat) (inst : Instruction) :
    Lags policy firstId text inst := by
  have hcount := @assembledBefore_add_failedBefore policy firstId text inst.line
  have hnone : (ofText policy firstId text).failedBefore inst.line = 0 ↔
      ∀ failed ∈ (ofText policy firstId text).failedLines, inst.line ≤ failed := by
    simp [failedBefore, List.countP_eq_zero]
  refine ⟨by omega, fun name entry hlabel hline => ?_, ?_⟩
  · rw [LabelTable.toNat_offset hslots hlabel, hline]
  · rw [← hnone]
    omega

end Assembly

namespace CommandLine

open SourceLine

theorem fromUTF8?_toUTF8 (text : String) : String.fromUTF8? text.toUTF8 = some text :=
  dif_pos text.isValidUTF8

namespace Desk

variable {desk : Desk} {path text : String}

theorem run_print : (Host.print text : StateM Desk Unit).run desk =
    pure ((), { desk with output := desk.output ++ text }) := rfl

theorem run_printError : (Host.printError text : StateM Desk Unit).run desk =
    pure ((), { desk with errors := desk.errors ++ text }) := rfl

theorem run_readText (h : desk.read path = .ok text.toUTF8) :
    (readText path : StateM Desk (Except String String)).run desk = pure (.ok text, desk) := by
  have hread : (Host.readFile path : StateM Desk (Except FileFault ByteArray)).run desk =
      pure (.ok text.toUTF8, desk) := congrArg (·, desk) h
  rw [readText, StateT.run_bind, hread, pure_bind]
  simp only [fromUTF8?_toUTF8]
  rfl

end Desk

-- The line behind a listing, if nothing is wrong with the program.
def closing (path : String) (program : Assembly) : String :=
  if program.isClean then
    path ++ ": " ++ toString program.instructions.length ++ " instruction(s), no errors\n"
  else ""

theorem output_check {config : Config} {path text : String} {desk : Desk}
    (h : desk.read path = .ok text.toUTF8) :
    ((check config path true : StateM Desk UInt32).run desk).2.output =
      desk.output ++ listingText (.ofText config.redefinition 1 text) ++
        closing path (.ofText config.redefinition 1 text) := by
  rw [check, withSource, StateT.run_bind, Desk.run_readText h, closing, pure_bind]
  cases hclean : (Assembly.ofText config.redefinition 1 text).isClean <;>
  · simp [Desk.run_print, Desk.run_printError, hclean]
    rfl

-- The number at the start of a line of a listing.
def shownAddress? (line : String) : Option Nat :=
  match line.toList.takeWhile (· ≠ ' ') with
  | '0' :: 'x' :: digits => Numeral.ofDigits? 16 digits
  | _ => none

theorem shownAddress?_listingLine (address : Nat) (inst : Instruction) :
    shownAddress? (listingLine address inst) = some address := by
  have hread : Numeral.ofDigits? 16 ((Nat.toDigits 16 address).leftpad 4 '0') = some address :=
    Numeral.ofDigits?_leftpad
      ((Numeral.ofDigits?_eq_some_iff (Nat.le_refl 16)).mpr (Numeral.run_toDigits (by decide) _)) 4
  have hdigits : ∀ c ∈ (Nat.toDigits 16 address).leftpad 4 '0', decide (c ≠ ' ') :=
    ((Numeral.ofDigits?_eq_some_iff (Nat.le_refl 16)).mp hread).forall_mem
      fun c d hc => decide_eq_true hc.ne_space
  have hline : (listingLine address inst).toList =
      '0' :: 'x' :: ((Nat.toDigits 16 address).leftpad 4 '0' ++
        ' ' :: ' ' :: (inst.bits ++ "  " ++ inst.text ++ "\n").toList) := by
    simp [listingLine, Numeral.address, Numeral.hexDigits, Numeral.padLeft]
  rw [shownAddress?, hline, List.takeWhile_cons_of_pos (by decide),
    List.takeWhile_cons_of_pos (by decide), List.takeWhile_append_of_pos hdigits,
    List.takeWhile_cons_of_neg (by decide), List.append_nil]
  exact hread

-- A check of a text that lists its instructions at these addresses.
structure Lists (config : Config) (path text : String) (desk : Desk)
    (address : Instruction → Nat) : Prop where
  output : ((check config path true : StateM Desk UInt32).run desk).2.output =
    desk.output ++
      String.join ((Assembly.ofText config.redefinition 1 text).instructions.map
        fun inst => listingLine (address inst) inst) ++
      closing path (.ofText config.redefinition 1 text)
  shown : ∀ inst ∈ (Assembly.ofText config.redefinition 1 text).instructions,
    shownAddress? (listingLine (address inst) inst) = some (address inst)

-- A listing leaves no room for lines that fail, but they have slots like all
-- others with an instruction. So behind such a line an instruction is listed
-- below the address that a label on its line has.
theorem lists_assembled {config : Config} {path text : String} {desk : Desk}
    (hread : desk.read path = .ok text.toUTF8)
    (hslots : (SourceLine.ofText text).countP hasInstruction < 2 ^ 30) :
    Lists config path text desk
        (fun inst => 4 * (Assembly.ofText config.redefinition 1 text).assembledBefore inst.line) ∧
      ∀ inst ∈ (Assembly.ofText config.redefinition 1 text).instructions,
        Assembly.Lags config.redefinition 1 text inst := by
  refine ⟨⟨?_, fun inst _ => shownAddress?_listingLine _ inst⟩,
    fun inst _ => Assembly.lags hslots config.redefinition 1 inst⟩
  rw [output_check hread, listingText, Assembly.listing_ofText, List.map_map]
  rfl

-- A line that fails, and a label behind it.
private def failing : String :=
  "FROB\nhere: MOV R0, #1"

private def failingDesk : Desk :=
  { files := [("p", failing.toUTF8)] }

private theorem read_failingDesk : failingDesk.read "p" = .ok failing.toUTF8 := by
  have hsplit : "p".splitOn "/" = ["p"] := by
    rw [String.splitOn, if_neg (by decide), String.splitOnAux, if_neg (by decide),
      if_neg (by decide), String.splitOnAux, if_pos (by decide)]
    decide +kernel
  have hplace : failingDesk.place "p" = .entry "p" false := by
    rw [Desk.place, if_neg (by decide), hsplit]
    rfl
  rw [Desk.read, hplace]
  rfl

private theorem slots_failing :
    (SourceLine.ofText failing).countP hasInstruction < 2 ^ 30 ∧
      slotsBefore (SourceLine.ofText failing) 2 = 1 := by
  decide +kernel

private def moved : Instruction := .build 1 .mov ["R0", "#1"] "MOV R0, #1" 2

private theorem instructions_failing :
    (Assembly.ofText .refused 1 failing).instructions = [moved] ∧
      (Assembly.ofText .refused 1 failing).assembledBefore 2 = 0 := by
  decide +kernel

theorem lists_assembled_failing :
    (∃ address, Lists {} "p" failing failingDesk address ∧ address moved = 0) ∧
      (LabelTable.ofLines .refused (SourceLine.ofText failing)).1.find? "here" = some ⟨4, 2⟩ ∧
      (Assembly.ofText .refused 1 failing).failedBefore 2 = 1 := by
  obtain ⟨hinstructions, hfirst⟩ := instructions_failing
  obtain ⟨hslots, hbefore⟩ := slots_failing
  obtain ⟨hlists, hlags⟩ := @lists_assembled {} "p" failing failingDesk read_failingDesk hslots
  have hslot : 4 * (Assembly.ofText .refused 1 failing).assembledBefore 2 +
      4 * (Assembly.ofText .refused 1 failing).failedBefore 2 =
        4 * slotsBefore (SourceLine.ofText failing) 2 :=
    (hlags moved (hinstructions ▸ List.mem_singleton_self moved)).slot
  refine ⟨⟨_, hlists, congrArg (4 * ·) hfirst⟩, by decide +kernel, ?_⟩
  omega

-- An instruction's slot is not always where it is listed.
theorem not_lists_slots :
    ¬∀ (config : Config) (path text : String) (desk : Desk), desk.read path = .ok text.toUTF8 →
      (SourceLine.ofText text).countP hasInstruction < 2 ^ 30 →
      Lists config path text desk fun inst =>
        4 * slotsBefore (SourceLine.ofText text) inst.line := by
  intro hlists
  have houtput := (hlists {} "p" failing failingDesk read_failingDesk slots_failing.1).output
  rw [output_check read_failingDesk] at houtput
  exact absurd houtput (by decide +kernel)

end CommandLine

end FiveStage
