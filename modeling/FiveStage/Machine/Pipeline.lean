import FiveStage.Instruction.Control
import FiveStage.Instruction.Decoding

namespace FiveStage

-- The stages in pipeline order.
inductive Stage
  | fetch | decode | execute | memory | writeBack
  deriving DecidableEq

namespace Stage

def all : List Stage := [fetch, decode, execute, memory, writeBack]

def name : Stage → String
  | fetch => "Fetch"
  | decode => "Decode"
  | execute => "Execute"
  | memory => "Memory"
  | writeBack => "WriteBack"

-- The label in occupancy tables.
def short : Stage → String
  | fetch => "IF"
  | decode => "ID"
  | execute => "EX"
  | memory => "MEM"
  | writeBack => "WB"

def ofName? (name : String) : Option Stage :=
  all.find? fun stage => stage.name == name

-- The order in which a cycle looks for the stage that gets to work.
def priority : List Stage := [writeBack, memory, execute, decode, fetch]

end Stage

-- What a stage holds: an instruction and what has been computed for it so far.
structure Latch where
  instruction : Option Instruction := none
  decoded : Option OperandFields := none
  signals : Option ControlSignals := none
  -- the ALU result, or the word loaded instead
  result : Option Int32 := none
  -- the data address of a load or store
  address : Option UInt32 := none
  deriving DecidableEq

namespace Latch

def idle : Latch := {}

def ofInstruction (inst : Instruction) : Latch :=
  { instruction := some inst }

-- A stage without instruction is idle, whatever else it holds.
def isIdle (latch : Latch) : Bool :=
  latch.instruction.isNone

end Latch

structure Pipeline where
  fetch : Latch := {}
  decode : Latch := {}
  execute : Latch := {}
  memory : Latch := {}
  writeBack : Latch := {}
  deriving DecidableEq

namespace Pipeline

def idle : Pipeline := {}

def latch (pipeline : Pipeline) : Stage → Latch
  | .fetch => pipeline.fetch
  | .decode => pipeline.decode
  | .execute => pipeline.execute
  | .memory => pipeline.memory
  | .writeBack => pipeline.writeBack

def place (pipeline : Pipeline) (stage : Stage) (latch : Latch) : Pipeline :=
  match stage with
  | .fetch => { pipeline with fetch := latch }
  | .decode => { pipeline with decode := latch }
  | .execute => { pipeline with execute := latch }
  | .memory => { pipeline with memory := latch }
  | .writeBack => { pipeline with writeBack := latch }

@[simp] theorem latch_place_self (pipeline : Pipeline) (stage : Stage) (latch : Latch) :
    (pipeline.place stage latch).latch stage = latch := by
  cases stage <;> rfl

theorem latch_place_of_ne (pipeline : Pipeline) {stage other : Stage} (latch : Latch)
    (h : other ≠ stage) : (pipeline.place stage latch).latch other = pipeline.latch other := by
  cases stage <;> cases other <;> first | rfl | exact absurd rfl h

-- The occupied stage closest to the end, with what it holds.
def resident? (pipeline : Pipeline) : Option (Stage × Latch) :=
  (Stage.priority.find? fun stage => !(pipeline.latch stage).isIdle).map fun stage =>
    (stage, pipeline.latch stage)

-- The number of stages that hold an instruction.
def occupied (pipeline : Pipeline) : Nat :=
  Stage.all.countP fun stage => !(pipeline.latch stage).isIdle

def isIdle (pipeline : Pipeline) : Bool :=
  Stage.all.all fun stage => (pipeline.latch stage).isIdle

end Pipeline

end FiveStage
