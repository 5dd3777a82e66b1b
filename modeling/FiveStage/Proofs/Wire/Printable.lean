import FiveStage.Proofs.Json.Printing
import FiveStage.Proofs.Wire.RoundTrip

namespace FiveStage

open Json

namespace Json.Printable

theorem ofNat {n : Nat} (h : n < UInt64.size) : Printable (Json.ofNat n) :=
  .int h

theorem ofWord (w : UInt32) : Printable (Json.ofWord w) :=
  .int (Nat.lt_trans w.toNat_lt_size (by decide))

theorem ofSignedWord (w : Int32) : Printable (Json.ofSignedWord w) := by
  refine .int ?_
  have hmin := w.minValue_le_toInt
  have hmax := w.toInt_le
  have : Int32.minValue.toInt = -2147483648 := rfl
  have : Int32.maxValue.toInt = 2147483647 := rfl
  have : UInt64.size = 18446744073709551616 := rfl
  omega

theorem map {α : Type} {write : α → Json} {items : List α}
    (h : ∀ item ∈ items, Printable (write item)) : Printable (.array (items.map write)) :=
  .array fun document hdocument => by
    obtain ⟨item, hitem, rfl⟩ := List.mem_map.mp hdocument
    exact h item hitem

theorem nil : Printable (.object []) :=
  .object (fun _ h => absurd h List.not_mem_nil) fun _ h => absurd h List.not_mem_nil

theorem member {name : Name} {value : Json} {rest : List (Name × Json)} (hname : name.IsExact)
    (hvalue : Printable value) (hrest : Printable (.object rest)) :
    Printable (.object ((name, value) :: rest)) := by
  cases hrest with
  | object hnames hvalues =>
    exact .object (List.forall_mem_cons.mpr ⟨hname, hnames⟩)
      (List.forall_mem_cons.mpr ⟨hvalue, hvalues⟩)

theorem append {members rest : List (Name × Json)} (hmembers : Printable (.object members))
    (hrest : Printable (.object rest)) : Printable (.object (members ++ rest)) := by
  cases hmembers with
  | object hnames hvalues =>
    cases hrest with
    | object hrestNames hrestValues =>
      exact .object (List.forall_mem_append.mpr ⟨hnames, hrestNames⟩)
        (List.forall_mem_append.mpr ⟨hvalues, hrestValues⟩)

theorem optionalMember {α : Type} {name : String} {write : α → Json} {value : Option α}
    (hname : Name.IsExact name) (hvalue : ∀ held ∈ value, Printable (write held)) :
    Printable (.object (Json.optionalMember name write value)) := by
  cases value with
  | none => exact .nil
  | some held => exact .member hname (hvalue held rfl) .nil

theorem members {α : Type} (name : α → String) {write : α → Json} {entries : List α}
    (hname : ∀ entry ∈ entries, Name.IsExact (name entry))
    (hvalue : ∀ entry ∈ entries, Printable (write entry)) :
    Printable (.object (entries.map fun entry => ((name entry : Name), write entry))) := by
  induction entries with
  | nil => exact .nil
  | cons first rest ih =>
    obtain ⟨hfirst, hrest⟩ := List.forall_mem_cons.mp hname
    obtain ⟨hwritten, hvalues⟩ := List.forall_mem_cons.mp hvalue
    exact .member hfirst hwritten (ih hrest hvalues)

end Json.Printable

theorem Instruction.printable_toJson {inst : Instruction} (h : inst.Bounded) :
    Printable inst.toJson :=
  .member rfl (.ofNat h.id_lt) <| .member rfl (.string _) <| .member rfl (.string _) <|
    .member rfl (.map fun _ _ => .string _) <| .member rfl (.string _) <|
    .member rfl (.ofNat h.line_lt) .nil

theorem ControlSignals.printable_toJson (signals : ControlSignals) : Printable signals.toJson :=
  .member rfl (.bool _) <| .member rfl (.bool _) <| .member rfl (.bool _) <|
    .member rfl (.bool _) <| .member rfl (.string _) <| .member rfl (.string _) <|
    .member rfl (.bool _) .nil

theorem Flags.printable_toJson (flags : Flags) : Printable flags.toJson :=
  .member rfl (.bool _) <| .member rfl (.bool _) <| .member rfl (.bool _) <|
    .member rfl (.bool _) .nil

theorem OperandFields.printable_toJson (decoded : OperandFields) : Printable decoded.toJson := by
  have hregister (r : Option Register) : ∀ held ∈ r, Printable held.toJson :=
    fun _ _ => .string _
  exact .append (.append (.append (.optionalMember rfl (hregister _))
    (.optionalMember rfl (hregister _))) (.optionalMember rfl (hregister _)))
    (.optionalMember rfl fun _ _ => .ofSignedWord _)

theorem Latch.printable_toJson {latch : Latch} (h : latch.Bounded) : Printable latch.toJson := by
  have hinstruction : Printable ((latch.instruction.map Instruction.toJson).getD .null) := by
    cases hinst : latch.instruction with
    | none => exact .null
    | some inst => exact Instruction.printable_toJson (h inst hinst)
  have hdecoded : ∀ decoded ∈ latch.decoded, Printable decoded.toJson :=
    fun decoded _ => decoded.printable_toJson
  have hsignals : ∀ signals ∈ latch.signals, Printable signals.toJson :=
    fun signals _ => signals.printable_toJson
  exact .append (.append (.append (.append (.member rfl hinstruction .nil)
    (.optionalMember rfl hdecoded)) (.optionalMember rfl hsignals))
    (.optionalMember rfl fun _ _ => .ofSignedWord _)) (.optionalMember rfl fun _ _ => .ofWord _)

theorem Register.isExact_name (r : Register) : Name.IsExact r.name := by
  cases r <;> exact rfl

theorem RegisterFile.printable_toJson (file : RegisterFile) : Printable file.toJson :=
  .members (fun entry : Register × Int32 => entry.1.name)
    (fun entry _ => entry.1.isExact_name) fun _ _ => .ofSignedWord _

-- Digits are written without escapes.
theorem Memory.isExact_address (address : UInt32) : Name.IsExact (toString address.toNat) := by
  have hlist : (toString address.toNat).toList = Nat.toDigits 10 address.toNat := by
    simp [Nat.toList_repr]
  have hplain : (Nat.toDigits 10 address.toNat).any needsEscape = false :=
    List.any_eq_false.mpr fun c hc => by
      simp [needsEscape_of_isDigit (Numeral.isDigit_of_mem_toDigits hc)]
  rw [Name.IsExact, hlist, hplain]

theorem Memory.printable_toJson (memory : Memory) : Printable memory.toJson :=
  .members (fun entry : UInt32 × Int32 => toString entry.1.toNat)
    (fun entry _ => isExact_address entry.1) fun _ _ => .ofSignedWord _

theorem Stage.isExact_name (stage : Stage) : Name.IsExact stage.name := by
  cases stage <;> exact rfl

theorem Pipeline.printable_toJson {pipeline : Pipeline} (h : pipeline.Bounded) :
    Printable pipeline.toJson :=
  .members Stage.name (fun stage _ => stage.isExact_name) fun stage _ =>
    Latch.printable_toJson (h stage)

theorem Machine.printable_toJson {machine : Machine} (h : machine.Bounded) :
    Printable machine.toJson :=
  .member rfl (.ofWord _) <| .member rfl machine.registers.printable_toJson <|
    .member rfl machine.memory.printable_toJson <| .member rfl machine.flags.printable_toJson <|
    .member rfl (Pipeline.printable_toJson h.pipeline) <| .member rfl (.ofNat h.clock_lt) .nil

theorem Snapshot.printable_toJson {snapshot : Snapshot} (h : snapshot.Bounded) :
    Printable snapshot.toJson :=
  .member rfl (.ofNat h.step_lt) <| .member rfl (Machine.printable_toJson h.state) .nil

-- A list of snapshots is read back from its text.
theorem Snapshot.listOfJson?_parse?_pretty {snapshots : List Snapshot}
    (h : ∀ snapshot ∈ snapshots, snapshot.Bounded) :
    (parse? (Json.array (snapshots.map Snapshot.toJson)).pretty).bind listOfJson? =
      some snapshots := by
  have hprintable : Printable (.array (snapshots.map Snapshot.toJson)) :=
    .map fun snapshot hsnapshot => printable_toJson (h snapshot hsnapshot)
  rw [parse?_pretty hprintable, Option.bind_some]
  exact mapM_map_of_forall fun snapshot hsnapshot => ofJson?_toJson (h snapshot hsnapshot)

end FiveStage
