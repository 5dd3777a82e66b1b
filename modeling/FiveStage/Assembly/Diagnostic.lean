import FiveStage.Assembly.SourceLine
import FiveStage.Defect

namespace FiveStage

-- A defect found on a source line.
structure Diagnostic where
  line : Nat
  message : String
  -- the line as written
  content : String
  defect : Defect
  deriving DecidableEq

namespace Diagnostic

def on (line : SourceLine) (defect : Defect) : Diagnostic where
  line := line.number
  message := defect.message
  content := line.raw
  defect := defect

-- Puts a diagnostic in front of the first one that is on no earlier line.
def place (diagnostic : Diagnostic) : List Diagnostic → List Diagnostic
  | [] => [diagnostic]
  | first :: rest =>
    if diagnostic.line ≤ first.line then diagnostic :: first :: rest
    else first :: place diagnostic rest

-- Merges two lists in line order. On a shared line the first list goes first.
def merge (firsts others : List Diagnostic) : List Diagnostic :=
  firsts.foldr place others

theorem perm_place (diagnostic : Diagnostic) (others : List Diagnostic) :
    (place diagnostic others).Perm (diagnostic :: others) := by
  induction others with
  | nil => exact .refl _
  | cons first rest ih =>
    rw [place]
    split
    · exact .refl _
    · exact (ih.cons first).trans (.swap ..)

-- Nothing is lost and nothing is added.
theorem perm_merge (firsts others : List Diagnostic) :
    (merge firsts others).Perm (firsts ++ others) := by
  induction firsts with
  | nil => exact .refl _
  | cons first rest ih => exact (perm_place first _).trans (ih.cons first)

end Diagnostic

end FiveStage
