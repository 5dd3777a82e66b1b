import FiveStage.Proofs.Json.Record
import FiveStage.Proofs.Token.Decimal
import FiveStage.Wire.Machine

namespace FiveStage

open Json Json.Record

-- Names out of a list.
@[simp] theorem Register.ofJson?_toJson (r : Register) : ofJson? r.toJson = some r :=
  ofName?_name r

@[simp] theorem Opcode.ofJson?_toJson (op : Opcode) : ofJson? op.toJson = some op :=
  ofMnemonic?_mnemonic op

@[simp] theorem AluOperation.ofJson?_toJson (operation : AluOperation) :
    ofJson? operation.toJson = some operation := by
  cases operation <;> rfl

@[simp] theorem AluSource.ofJson?_toJson (source : AluSource) :
    ofJson? source.toJson = some source := by
  cases source <;> rfl

-- What a document can hold of an instruction: its numbers are below 2^64.
structure Instruction.Bounded (inst : Instruction) : Prop where
  id_lt : inst.id < UInt64.size
  line_lt : inst.line < UInt64.size

theorem Instruction.ofJson?_toJson {inst : Instruction} (h : inst.Bounded) :
    ofJson? inst.toJson = some inst := by
  have hid := nat?_ofNat h.id_lt
  have hline := nat?_ofNat h.line_lt
  have hoperands : inst.operands.mapM (string? ∘ Json.string) = some inst.operands := by
    rw [← List.mapM_map]
    exact mapM_map_of_forall fun _ _ => rfl
  simp [ofJson?, toJson, ofJson?_object, hid, hline, hoperands, string?, array?]

theorem ControlSignals.ofJson?_toJson (signals : ControlSignals) :
    ofJson? signals.toJson = some signals := by
  simp [ofJson?, toJson, ofJson?_object, bool?]

theorem Flags.ofJson?_toJson (flags : Flags) : ofJson? flags.toJson = some flags := by
  simp [ofJson?, toJson, ofJson?_object, bool?]

theorem OperandFields.ofJson?_toJson (decoded : OperandFields) :
    ofJson? decoded.toJson = some decoded := by
  have hrecord := ofJson?_object (by decide) <|
    Written.optional "src1Reg" Register.toJson decoded.source1 <|
    Written.optional "src2Reg" Register.toJson decoded.source2 <|
    Written.optional "destReg" Register.toJson decoded.destination <|
    Written.last "immValue" ofSignedWord decoded.immediate
  have hregister (r : Option Register) : ((r.map Register.toJson).map
      (nullable Register.ofJson?)).getD (some none) = some r :=
    getD_nullable rfl fun held _ => held.ofJson?_toJson
  have himmediate : ((decoded.immediate.map ofSignedWord).map
      (nullable signedWord?)).getD (some none) = some decoded.immediate :=
    getD_nullable rfl fun held _ => signedWord?_ofSignedWord held
  simp [ofJson?, toJson, -Option.map_map, hrecord, hregister, himmediate]

def Latch.Bounded (latch : Latch) : Prop := ∀ inst ∈ latch.instruction, inst.Bounded

theorem Latch.ofJson?_toJson {latch : Latch} (h : latch.Bounded) :
    ofJson? latch.toJson = some latch := by
  let instruction := (latch.instruction.map Instruction.toJson).getD .null
  have hrecord := ofJson?_object (by decide) <|
    Written.member "instruction" instruction <|
    Written.optional "decoded" OperandFields.toJson latch.decoded <|
    Written.optional "controlSignals" ControlSignals.toJson latch.signals <|
    Written.optional "executionResult" ofSignedWord latch.result <|
    Written.last "memoryAddress" ofWord latch.address
  have hinstruction : nullable Instruction.ofJson? instruction = some latch.instruction :=
    nullable_getD rfl fun inst hinst => Instruction.ofJson?_toJson (h inst hinst)
  have hdecoded : ((latch.decoded.map OperandFields.toJson).map
      (nullable OperandFields.ofJson?)).getD (some none) = some latch.decoded :=
    getD_nullable rfl fun decoded _ => decoded.ofJson?_toJson
  have hsignals : ((latch.signals.map ControlSignals.toJson).map
      (nullable ControlSignals.ofJson?)).getD (some none) = some latch.signals :=
    getD_nullable rfl fun signals _ => signals.ofJson?_toJson
  have hresult : ((latch.result.map ofSignedWord).map
      (nullable signedWord?)).getD (some none) = some latch.result :=
    getD_nullable rfl fun result _ => signedWord?_ofSignedWord result
  have haddress : ((latch.address.map ofWord).map
      (nullable word?)).getD (some none) = some latch.address :=
    getD_nullable rfl fun address _ => word?_ofWord address
  simp [ofJson?, toJson, -Option.map_map, hrecord, hinstruction, hdecoded, hsignals, hresult,
    haddress, instruction]

namespace RegisterFile

theorem read_foldl_write (file start : RegisterFile) (registers : List Register) (r : Register) :
    (registers.foldl (fun copy r => copy.write r (file.read r)) start).read r =
      if r ∈ registers then file.read r else start.read r := by
  induction registers generalizing start with
  | nil => rfl
  | cons first rest ih =>
    rw [List.foldl_cons, ih]
    by_cases hrest : r ∈ rest
    · simp [hrest]
    · by_cases hfirst : r = first
      · simp [hfirst]
      · simp [hrest, hfirst, read_write_of_ne]

theorem ofList_toList (file : RegisterFile) : ofList file.toList = file := by
  refine ext_read fun r => ?_
  rw [ofList, toList, List.foldl_map, read_foldl_write, if_pos (Register.mem_all r)]

theorem ofJson?_toJson (file : RegisterFile) : ofJson? file.toJson = some file := by
  rw [toJson, ofJson?, mapM_map_of_forall]
  · exact congrArg some file.ofList_toList
  · intro entry _
    simp

end RegisterFile

namespace Memory

-- A word goes behind the words at lower addresses.
theorem place_of_forall_lt {address : UInt32} (value : Int32) {words : List (UInt32 × Int32)}
    (h : ∀ entry ∈ words, entry.1 < address) :
    place address value words = words ++ [(address, value)] := by
  induction words with
  | nil => rfl
  | cons first rest ih =>
    have hfirst : first.1 < address := h first List.mem_cons_self
    have hnlt : ¬address < first.1 := UInt32.not_lt.mpr (UInt32.le_of_lt hfirst)
    have hne : address ≠ first.1 := (UInt32.ne_of_lt hfirst).symm
    have hrest := ih fun entry hentry => h entry (List.mem_cons_of_mem _ hentry)
    rw [place, if_neg hnlt, if_neg hne, hrest, List.cons_append]

theorem words_foldl_write {entries : List (UInt32 × Int32)} (memory : Memory)
    (h : (memory.words ++ entries).Pairwise fun a b => a.1 < b.1) :
    (entries.foldl (fun memory (address, value) => memory.write address value) memory).words =
      memory.words ++ entries := by
  induction entries generalizing memory with
  | nil => exact (List.append_nil _).symm
  | cons first rest ih =>
    obtain ⟨-, -, hbefore⟩ := List.pairwise_append.mp h
    have hplaced : (memory.write first.1 first.2).words = memory.words ++ [first] :=
      place_of_forall_lt first.2 fun entry hentry => hbefore entry hentry first List.mem_cons_self
    have hsplit : memory.words ++ first :: rest = memory.words ++ [first] ++ rest := by simp
    rw [hsplit, ← hplaced] at h
    rw [List.foldl_cons, ih _ h, hplaced, hsplit]

theorem ext_words {memory other : Memory} (h : memory.words = other.words) : memory = other := by
  obtain ⟨words, _⟩ := memory
  obtain ⟨others, _⟩ := other
  cases h
  rfl

theorem ofList_toList (memory : Memory) : ofList memory.toList = memory :=
  ext_words (words_foldl_write empty memory.ascending)

theorem addressOfName?_toString (address : UInt32) :
    addressOfName? { text := toString address.toNat } = some address := by
  have hlist : (toString address.toNat).toList = Nat.toDigits 10 address.toNat := by
    simp [Nat.toList_repr]
  have hdigits : (Nat.toDigits 10 address.toNat).all Char.isDigit = true :=
    List.all_eq_true.mpr fun _ => Numeral.isDigit_of_mem_toDigits
  have hplain : Nat.toDigits 10 address.toNat = ['0'] ∨
      (Nat.toDigits 10 address.toNat).head? ≠ some '0' := by
    cases Nat.eq_zero_or_pos address.toNat with
    | inl hzero => exact .inl (by rw [hzero]; rfl)
    | inr hpos => exact .inr (Numeral.head?_toDigits_of_pos hpos)
  have hlt : address.toNat < UInt32.size := address.toNat_lt_size
  rw [addressOfName?, hlist]
  dsimp only
  rw [guard_of (by simp [hdigits]), guard_of (by simpa using hplain), Numeral.ofDigits?_toDigits]
  simp [hlt]

theorem ofJson?_toJson (memory : Memory) : ofJson? memory.toJson = some memory := by
  rw [toJson, ofJson?, mapM_map_of_forall]
  · exact congrArg some memory.ofList_toList
  · intro entry _
    simp only [addressOfName?_toString, signedWord?_ofSignedWord]
    rfl

end Memory

def Pipeline.Bounded (pipeline : Pipeline) : Prop := ∀ stage, (pipeline.latch stage).Bounded

theorem Pipeline.ofJson?_toJson {pipeline : Pipeline} (h : pipeline.Bounded) :
    ofJson? pipeline.toJson = some pipeline := by
  have hlatch (stage : Stage) := Latch.ofJson?_toJson (h stage)
  simp [ofJson?, toJson, ofJson?_object, Stage.all, Stage.name, hlatch]
  rfl

structure Machine.Bounded (machine : Machine) : Prop where
  pipeline : machine.pipeline.Bounded
  clock_lt : machine.clock < UInt64.size

theorem Machine.ofJson?_toJson {machine : Machine} (h : machine.Bounded) :
    ofJson? machine.toJson = some machine := by
  have hclock := nat?_ofNat h.clock_lt
  have hpipeline := Pipeline.ofJson?_toJson h.pipeline
  simp [ofJson?, toJson, ofJson?_object, hclock, hpipeline, RegisterFile.ofJson?_toJson,
    Memory.ofJson?_toJson, Flags.ofJson?_toJson]

end FiveStage
