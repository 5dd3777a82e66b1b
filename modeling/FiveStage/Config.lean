import FiveStage.Assembly.LabelTable
import FiveStage.Machine.Basic

namespace FiveStage

namespace Config

namespace Defaults

def startPc : UInt32 := 0

def initialSp : Int32 := 1024

def maxCycles : UInt64 := 100000

def historyLimit : UInt64 := 10000

def playInterval : UInt64 := 800

end Defaults

-- The values in the structure of a section are those it has when a configuration
-- leaves it out. A section that is given may still leave out settings, and what
-- these are then is up to a function for each, or to the default of the type.
structure General where
  -- whether stages report what they do
  traceInstructions : Bool := false
  -- how many cycles a run may take
  maxCycles : UInt64 := Defaults.maxCycles
  deriving DecidableEq

def General.defaultMaxCycles : UInt64 := Defaults.maxCycles

-- What the machine starts from after reset.
structure Cpu where
  startPc : UInt32 := Defaults.startPc
  initialSp : Int32 := Defaults.initialSp
  deriving DecidableEq

def Cpu.defaultStartPc : UInt32 := Defaults.startPc

def Cpu.defaultInitialSp : Int32 := Defaults.initialSp

structure Assembler where
  allowLabelRedefinition : Bool := default
  deriving DecidableEq

structure Session where
  -- how many past states are kept
  historyLimit : UInt64 := Defaults.historyLimit
  -- the pause between played steps, in milliseconds
  playInterval : UInt64 := Defaults.playInterval
  deriving DecidableEq

def Session.defaultHistoryLimit : UInt64 := Defaults.historyLimit

def Session.defaultPlayInterval : UInt64 := Defaults.playInterval

end Config

structure Config where
  general : Config.General := {}
  cpu : Config.Cpu := {}
  assembler : Config.Assembler := {}
  session : Config.Session := {}
  deriving DecidableEq

namespace Config

def redefinition (config : Config) : Redefinition :=
  if config.assembler.allowLabelRedefinition then .allowed else .refused

def resetMachine (config : Config) : Machine :=
  Machine.reset config.cpu.startPc config.cpu.initialSp

end Config

-- Why no configuration was loaded.
inductive ConfigFault
  | unreadable (path : String)
  | malformed

def ConfigFault.message : ConfigFault → String
  | unreadable path => "Failed to read config file `" ++ path ++ "`"
  | malformed => "Invalid config JSON"

end FiveStage
