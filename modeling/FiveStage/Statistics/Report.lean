import FiveStage.Numeral.FixedPlace
import FiveStage.Statistics.Basic

namespace FiveStage.Statistics

private def toFloat (n : Nat) : Float :=
  (UInt64.ofNat n).toFloat

-- Cycles per retired instruction, and zero before any has retired.
def cyclesPerInstruction (stats : Statistics) : Float :=
  if stats.retired = 0 then 0 else toFloat stats.cycles / toFloat stats.retired

-- The share of retired instructions, in percent.
def share (stats : Statistics) (n : Nat) : Float :=
  toFloat n / toFloat (max stats.retired 1) * 100

-- The share of resolved branches that were taken, in percent.
def takenRate (stats : Statistics) : Float :=
  let resolved := stats.taken + stats.notTaken
  if resolved = 0 then 0 else 100 * (toFloat stats.taken / toFloat resolved)

inductive Section
  | summary | instructionMix | branch
  deriving DecidableEq

namespace Section

def all : List Section := [summary, instructionMix, branch]

def name : Section → String
  | summary => "summary"
  | instructionMix => "instruction_mix"
  | branch => "branch"

end Section

private def rule (c : Char) : String :=
  String.ofList (List.replicate 58 c)

private def line (label value : String) : String :=
  Numeral.padRight 25 ' ' label ++ value

private def mixLine (stats : Statistics) (label : String) (n : Nat) : String :=
  line label (toString n ++ " (" ++ Numeral.fixedPlace 2 (stats.share n) ++ "%)")

-- The lines of a section. Time spent by the host is not measured.
def sectionLines (stats : Statistics) : Section → List String
  | .summary => [
      "",
      rule '=',
      "PIPELINE SIMULATION STATISTICS",
      rule '=',
      line "host_seconds" "0.0000 s",
      line "sim_cycles" (toString stats.cycles),
      line "sim_insts" (toString stats.retired),
      line "sim_cpi" (Numeral.fixedPlace 4 stats.cyclesPerInstruction),
      rule '-']
  | .instructionMix => [
      "INSTRUCTION MIX",
      stats.mixLine "  op.alu" stats.alu,
      stats.mixLine "  op.compare" stats.compares,
      stats.mixLine "  op.load" stats.loads,
      stats.mixLine "  op.store" stats.stores,
      stats.mixLine "  op.branch" stats.branches,
      rule '-']
  | .branch => [
      "BRANCHES",
      line "  br.resolved" (toString (stats.taken + stats.notTaken)),
      line "  br.taken" (toString stats.taken),
      line "  br.not_taken" (toString stats.notTaken),
      line "  br.taken_rate" (Numeral.fixedPlace 2 stats.takenRate ++ "%")]

-- The report on the sections of these names, or on all if there are no names.
def report (stats : Statistics) (names : List String) : String :=
  let wanted := Section.all.filter fun part => names.isEmpty || names.contains part.name
  let lines := wanted.flatMap stats.sectionLines ++ [rule '=']
  String.join (lines.map (· ++ "\n"))

end FiveStage.Statistics
