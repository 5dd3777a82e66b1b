import FiveStage.Register
import FiveStage.Numeral.Digits

namespace FiveStage

-- One signed word for every register.
structure RegisterFile where
  values : Vector Int32 11
  deriving DecidableEq

namespace RegisterFile

def zero : RegisterFile := ⟨Vector.replicate 11 0⟩

def read (file : RegisterFile) (r : Register) : Int32 :=
  file.values[r.index]

def write (file : RegisterFile) (r : Register) (value : Int32) : RegisterFile :=
  ⟨file.values.set r.index value⟩

@[simp] theorem read_write_self (file : RegisterFile) (r : Register) (value : Int32) :
    (file.write r value).read r = value := by
  simp [read, write]

theorem read_write_of_ne (file : RegisterFile) {r other : Register} (value : Int32)
    (h : other ≠ r) : (file.write r value).read other = file.read other := by
  have hne : (r.index : Nat) ≠ other.index := fun he =>
    h (Register.index_injective (Fin.ext he)).symm
  simp [read, write, Vector.getElem_set_ne, hne]

-- A register file is determined by what its registers hold.
theorem ext_read {a b : RegisterFile} (h : ∀ r, a.read r = b.read r) : a = b := by
  obtain ⟨a⟩ := a
  obtain ⟨b⟩ := b
  congr 1
  apply Vector.ext
  intro i hi
  have hr : ∃ r : Register, (r.index : Nat) = i := by
    match i, hi with
    | 0, _ => exact ⟨.r0, rfl⟩
    | 1, _ => exact ⟨.r1, rfl⟩
    | 2, _ => exact ⟨.r2, rfl⟩
    | 3, _ => exact ⟨.r3, rfl⟩
    | 4, _ => exact ⟨.r4, rfl⟩
    | 5, _ => exact ⟨.r5, rfl⟩
    | 6, _ => exact ⟨.r6, rfl⟩
    | 7, _ => exact ⟨.r7, rfl⟩
    | 8, _ => exact ⟨.pc, rfl⟩
    | 9, _ => exact ⟨.lr, rfl⟩
    | 10, _ => exact ⟨.sp, rfl⟩
  obtain ⟨r, rfl⟩ := hr
  exact h r

-- All registers zero except the stack pointer.
def initial (sp : Int32) : RegisterFile :=
  zero.write .sp sp

def toList (file : RegisterFile) : List (Register × Int32) :=
  Register.all.map fun r => (r, file.read r)

-- Later pairs win; registers that are not listed hold zero.
def ofList (entries : List (Register × Int32)) : RegisterFile :=
  entries.foldl (fun file (r, value) => file.write r value) zero

-- Four registers to a line, each in a column of its own.
def render (file : RegisterFile) : String :=
  file.toList.foldl
    (fun text (r, value) =>
      let column := Numeral.padLeft 3 ' ' r.name ++ "=" ++ Numeral.padRight 11 ' ' (toString value)
      if r = .r4 ∨ r = .pc then text ++ "\n" ++ column else text ++ column)
    ""

end RegisterFile

end FiveStage
