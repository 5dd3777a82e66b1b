import FiveStage.Proofs.Json.Partial
import FiveStage.Proofs.Wire.Printable

namespace FiveStage

namespace Config

open Json

inductive Section
  | general | cpu | assembler | session
  deriving DecidableEq

inductive Setting
  | traceInstructions | maxCycles
  | startPc | initialSp
  | allowLabelRedefinition
  | historyLimit | playInterval
  deriving DecidableEq

namespace Setting

def all : List Setting :=
  [traceInstructions, maxCycles, startPc, initialSp, allowLabelRedefinition, historyLimit,
    playInterval]

def sectionOf : Setting → Section
  | traceInstructions | maxCycles => .general
  | startPc | initialSp => .cpu
  | allowLabelRedefinition => .assembler
  | historyLimit | playInterval => .session

def name : Setting → String
  | traceInstructions => "trace_instructions"
  | maxCycles => "max_cycles"
  | startPc => "start_pc"
  | initialSp => "initial_sp"
  | allowLabelRedefinition => "allow_label_redefinition"
  | historyLimit => "history_limit"
  | playInterval => "play_interval_ms"

def written (config : Config) : Setting → Json
  | traceInstructions => .bool config.general.traceInstructions
  | maxCycles => ofLongWord config.general.maxCycles
  | startPc => .ofWord config.cpu.startPc
  | initialSp => .ofSignedWord config.cpu.initialSp
  | allowLabelRedefinition => .bool config.assembler.allowLabelRedefinition
  | historyLimit => ofLongWord config.session.historyLimit
  | playInterval => ofLongWord config.session.playInterval

end Setting

namespace Section

def all : List Section := [general, cpu, assembler, session]

def name : Section → String
  | general => "general"
  | cpu => "cpu"
  | assembler => "assembler"
  | session => "session"

def settings (part : Section) : List Setting :=
  Setting.all.filter fun setting => setting.sectionOf = part

end Section

variable (config : Config) (sections : Section → Bool) (settings : Setting → Bool)

-- A setting of the given configuration, or else its default.
def pick {α : Type} (given : Setting → Bool) (setting : Setting) (get : Config → α) : α :=
  if given setting then get config else get {}

-- The default configuration with the given settings replaced.
def overlay (given : Setting → Bool) : Config where
  general := {
    traceInstructions := config.pick given .traceInstructions (·.general.traceInstructions)
    maxCycles := config.pick given .maxCycles (·.general.maxCycles) }
  cpu := {
    startPc := config.pick given .startPc (·.cpu.startPc)
    initialSp := config.pick given .initialSp (·.cpu.initialSp) }
  assembler := {
    allowLabelRedefinition :=
      config.pick given .allowLabelRedefinition (·.assembler.allowLabelRedefinition) }
  session := {
    historyLimit := config.pick given .historyLimit (·.session.historyLimit)
    playInterval := config.pick given .playInterval (·.session.playInterval) }

-- A section with the chosen ones of its settings.
def Section.IsPartial (part : Section) : Json → Prop :=
  Gives part.settings Setting.name (fun setting value => value = setting.written config) settings

def IsPartial : Json → Prop :=
  Gives Section.all Section.name (Section.IsPartial config settings) sections

-- The chosen settings in order, and nothing else.
def partialJson : Json :=
  .object ((Section.all.filter sections).map fun part => ((part.name : Name), .object
    ((part.settings.filter settings).map fun setting =>
      ((setting.name : Name), setting.written config))))

theorem isPartial_partialJson :
    config.IsPartial sections settings (config.partialJson sections settings) :=
  Gives.map fun _ _ => Gives.map fun _ _ => rfl

theorem printable_partialJson : Printable (config.partialJson sections settings) := by
  have hwritten (setting : Setting) : Printable (setting.written config) := by
    cases setting with
    | traceInstructions | allowLabelRedefinition => exact .bool _
    | maxCycles | historyLimit | playInterval => exact .ofNat (UInt64.toNat_lt_size _)
    | startPc => exact .ofWord _
    | initialSp => exact .ofSignedWord _
  refine .members Section.name (fun part _ => ?_) fun part _ => .members Setting.name
    (fun setting _ => ?_) fun setting _ => hwritten setting
  · cases part <;> rfl
  · cases setting <;> rfl

-- A setting that a section leaves out is what it would be without the section.
section Agreement

theorem General.default_eq :
    ({} : General) = { traceInstructions := default, maxCycles := defaultMaxCycles } := rfl

theorem Cpu.default_eq :
    ({} : Cpu) = { startPc := defaultStartPc, initialSp := defaultInitialSp } := rfl

theorem Assembler.default_eq : ({} : Assembler) = { allowLabelRedefinition := default } := rfl

theorem Session.default_eq : ({} : Config.Session) =
    { historyLimit := defaultHistoryLimit, playInterval := defaultPlayInterval } := rfl

end Agreement

section Read

variable {config sections settings} {document : Json}

theorem Section.IsPartial.exists_record {part : Section}
    (h : part.IsPartial config settings document) :
    ∃ record, Record.ofJson? (part.settings.map Setting.name) document = some record ∧
      ∀ setting ∈ part.settings, ∀ {α : Type} (read : Json → Option α) (get : Config → α)
        {missing : α}, get {} = missing → read (setting.written config) = some (get config) →
          record.orElse setting.name missing read = some (config.pick settings setting get) := by
  have hnames : (part.settings.map Setting.name).Nodup := by cases part <;> decide
  obtain ⟨record, hrecord, hfield⟩ := Gives.exists_record h hnames
  refine ⟨record, hrecord, fun setting hsetting α read get missing hmissing hread => ?_⟩
  rw [← hmissing]
  exact hfield setting hsetting read (get config) (get {}) fun held hheld => hheld ▸ hread

theorem General.ofJson?_of_isPartial (h : Section.general.IsPartial config settings document) :
    General.ofJson? document = some (config.overlay settings).general := by
  obtain ⟨record, hrecord, hfield⟩ := h.exists_record
  have htrace := hfield .traceInstructions (by decide) bool? (·.general.traceInstructions)
    (congrArg General.traceInstructions default_eq) rfl
  have hcycles := hfield .maxCycles (by decide) longWord? (·.general.maxCycles)
    (congrArg General.maxCycles default_eq) (longWord?_ofLongWord _)
  refine Option.bind_eq_some_iff.mpr ⟨record, hrecord, ?_⟩
  refine Option.bind_eq_some_iff.mpr ⟨_, htrace, ?_⟩
  exact Option.bind_eq_some_iff.mpr ⟨_, hcycles, rfl⟩

theorem Cpu.ofJson?_of_isPartial (h : Section.cpu.IsPartial config settings document) :
    Cpu.ofJson? document = some (config.overlay settings).cpu := by
  obtain ⟨record, hrecord, hfield⟩ := h.exists_record
  have hpc := hfield .startPc (by decide) word? (·.cpu.startPc)
    (congrArg Cpu.startPc default_eq) (word?_ofWord _)
  have hsp := hfield .initialSp (by decide) signedWord? (·.cpu.initialSp)
    (congrArg Cpu.initialSp default_eq) (signedWord?_ofSignedWord _)
  refine Option.bind_eq_some_iff.mpr ⟨record, hrecord, ?_⟩
  refine Option.bind_eq_some_iff.mpr ⟨_, hpc, ?_⟩
  exact Option.bind_eq_some_iff.mpr ⟨_, hsp, rfl⟩

theorem Assembler.ofJson?_of_isPartial
    (h : Section.assembler.IsPartial config settings document) :
    Assembler.ofJson? document = some (config.overlay settings).assembler := by
  obtain ⟨record, hrecord, hfield⟩ := h.exists_record
  have hallow := hfield .allowLabelRedefinition (by decide) bool?
    (·.assembler.allowLabelRedefinition) (congrArg Assembler.allowLabelRedefinition default_eq) rfl
  refine Option.bind_eq_some_iff.mpr ⟨record, hrecord, ?_⟩
  exact Option.bind_eq_some_iff.mpr ⟨_, hallow, rfl⟩

theorem Session.ofJson?_of_isPartial (h : Section.session.IsPartial config settings document) :
    Session.ofJson? document = some (config.overlay settings).session := by
  obtain ⟨record, hrecord, hfield⟩ := h.exists_record
  have hlimit := hfield .historyLimit (by decide) longWord? (·.session.historyLimit)
    (congrArg Session.historyLimit default_eq) (longWord?_ofLongWord _)
  have hinterval := hfield .playInterval (by decide) longWord? (·.session.playInterval)
    (congrArg Session.playInterval default_eq) (longWord?_ofLongWord _)
  refine Option.bind_eq_some_iff.mpr ⟨record, hrecord, ?_⟩
  refine Option.bind_eq_some_iff.mpr ⟨_, hlimit, ?_⟩
  exact Option.bind_eq_some_iff.mpr ⟨_, hinterval, rfl⟩

-- Nothing is given in a section that is left out.
theorem overlay_and :
    config.overlay (fun setting => sections setting.sectionOf && settings setting) = {
      general := if sections .general then (config.overlay settings).general else {}
      cpu := if sections .cpu then (config.overlay settings).cpu else {}
      assembler := if sections .assembler then (config.overlay settings).assembler else {}
      session := if sections .session then (config.overlay settings).session else {} } := by
  rw [overlay, Config.mk.injEq]
  refine ⟨?_, ?_, ?_, ?_⟩
  · cases h : sections .general <;> simp [overlay, pick, Setting.sectionOf, h]
  · cases h : sections .cpu <;> simp [overlay, pick, Setting.sectionOf, h]
  · cases h : sections .assembler <;> simp [overlay, pick, Setting.sectionOf, h]
  · cases h : sections .session <;> simp [overlay, pick, Setting.sectionOf, h]

theorem ofJson?_of_isPartial (h : IsPartial config sections settings document) :
    ofJson? document =
      some (config.overlay fun setting => sections setting.sectionOf && settings setting) := by
  obtain ⟨record, hrecord, hsection⟩ := Gives.exists_record h (by decide)
  have hgeneral := hsection .general (by decide) General.ofJson? _ {} fun _ =>
    General.ofJson?_of_isPartial
  have hcpu := hsection .cpu (by decide) Cpu.ofJson? _ {} fun _ => Cpu.ofJson?_of_isPartial
  have hassembler := hsection .assembler (by decide) Assembler.ofJson? _ {} fun _ =>
    Assembler.ofJson?_of_isPartial
  have hsession := hsection .session (by decide) Session.ofJson? _ {} fun _ =>
    Session.ofJson?_of_isPartial
  rw [overlay_and]
  refine Option.bind_eq_some_iff.mpr ⟨record, hrecord, ?_⟩
  refine Option.bind_eq_some_iff.mpr ⟨_, hgeneral, ?_⟩
  refine Option.bind_eq_some_iff.mpr ⟨_, hcpu, ?_⟩
  refine Option.bind_eq_some_iff.mpr ⟨_, hassembler, ?_⟩
  exact Option.bind_eq_some_iff.mpr ⟨_, hsession, rfl⟩

end Read

section Defaults

variable {settings} {part : Section} {name : Name} {value : Json}
  {members others : List (Name × Json)}

theorem Section.name_injective {other : Section} (h : part.name = other.name) : part = other := by
  revert h
  cases part <;> cases other <;> decide

@[simp] theorem overlay_default (given : Setting → Bool) : overlay {} given = {} := by
  simp [overlay, pick]

theorem ofJson?_of_perm (h : members.Perm others) :
    ofJson? (.object members) = ofJson? (.object others) := by
  rw [ofJson?, ofJson?, Record.ofJson?_of_perm h]

-- A section that gives nothing but defaults might as well be left out.
theorem ofJson?_object_cons (hname : name.text = part.name)
    (hothers : ∀ member ∈ others, member.1.text ≠ part.name)
    (h : part.IsPartial {} settings value) :
    ofJson? (.object ((name, value) :: others)) = ofJson? (.object others) := by
  have hpart (other : Section) (hother : name.text = other.name) : part = other :=
    Section.name_injective (hname.symm.trans hother)
  obtain ⟨hgiven, homitted⟩ | ⟨given, omitted, hgiven, homitted, hfield⟩ :=
    Record.ofJson?_object_cons ["general", "cpu", "assembler", "session"] value (hname ▸ hothers)
  · rw [ofJson?, ofJson?, hgiven, homitted]
  · have hgeneral := hfield "general" (by decide) General.ofJson? {} fun hother => by
      cases hpart .general hother
      rw [General.ofJson?_of_isPartial h, overlay_default]
    have hcpu := hfield "cpu" (by decide) Cpu.ofJson? {} fun hother => by
      cases hpart .cpu hother
      rw [Cpu.ofJson?_of_isPartial h, overlay_default]
    have hassembler := hfield "assembler" (by decide) Assembler.ofJson? {} fun hother => by
      cases hpart .assembler hother
      rw [Assembler.ofJson?_of_isPartial h, overlay_default]
    have hsession := hfield "session" (by decide) Session.ofJson? {} fun hother => by
      cases hpart .session hother
      rw [Session.ofJson?_of_isPartial h, overlay_default]
    simp only [ofJson?, hgiven, homitted, Option.bind_eq_bind, Option.bind_some, hgeneral, hcpu,
      hassembler, hsession]

end Defaults

-- A text that is an object of these members, in any order.
def Spells (text : String) (members : List (Name × Json)) : Prop :=
  ∃ found, parse? text = some (.object found) ∧ found.Perm members

theorem ofText_of_parse? {text : String} {document : Json} (h : parse? text = some document) :
    ofText text = match ofJson? document with
      | some config => .ok config
      | none => .error .malformed := by
  have hread : (parse? text).bind ofJson? = ofJson? document := by rw [h, Option.bind_some]
  unfold ofText
  cases hconfig : ofJson? document <;> simp only [hread, hconfig]

theorem ofText_congr {text other : String} {members others : List (Name × Json)}
    (htext : Spells text members) (hother : Spells other others)
    (h : ofJson? (.object members) = ofJson? (.object others)) : ofText text = ofText other := by
  obtain ⟨found, hfound, hmembers⟩ := htext
  obtain ⟨read, hread, hothers⟩ := hother
  rw [ofText_of_parse? hfound, ofText_of_parse? hread, ofJson?_of_perm hmembers,
    ofJson?_of_perm hothers, h]

-- What a text gives of a configuration takes the place of the defaults, and
-- nothing else does. So a section may be left out, be empty or say the defaults.
theorem ofText_overlays :
    (∀ (config : Config) (sections : Section → Bool) (settings : Setting → Bool),
      (∃ text document, parse? text = some document ∧
        config.IsPartial sections settings document) ∧
      ∀ text document, parse? text = some document →
        config.IsPartial sections settings document → ofText text = .ok
          (config.overlay fun setting => sections setting.sectionOf && settings setting)) ∧
    ∀ (part : Section) (name : Name) (others : List (Name × Json)) (defaults : Json)
      (omitted empty explicit : String), name.text = part.name →
      (∀ member ∈ others, member.1.text ≠ part.name) →
      part.IsPartial {} (fun _ => true) defaults →
      Spells omitted others → Spells empty ((name, .object []) :: others) →
      Spells explicit ((name, defaults) :: others) →
        ofText empty = ofText omitted ∧ ofText explicit = ofText omitted := by
  refine ⟨fun config sections settings => ⟨?written, fun text document htext hpartial => ?read⟩,
    fun part name others defaults omitted empty explicit hname hothers hdefaults homitted hempty
      hexplicit => ⟨?empty, ?explicit⟩⟩
  case written =>
    exact ⟨_, _, parse?_pretty (config.printable_partialJson sections settings),
      config.isPartial_partialJson sections settings⟩
  case read => rw [ofText_of_parse? htext, ofJson?_of_isPartial hpartial]
  case empty =>
    have hnothing : part.IsPartial {} (fun _ => false) (.object []) :=
      Gives.empty fun _ _ => rfl
    exact ofText_congr hempty homitted (ofJson?_object_cons hname hothers hnothing)
  case explicit =>
    exact ofText_congr hexplicit homitted (ofJson?_object_cons hname hothers hdefaults)

-- Sections out of order, one of them under a name with an escape, among members
-- that no section and no setting is named for.
private def terse : String :=
  "\x7b\"note\": null, \"session\": \x7b\x7d, \"gener\\u0061l\": " ++
    "\x7b\"cpu\": [], \"trace_instructions\": true\x7d\x7d"

private def traced : Config where
  general := { traceInstructions := true, maxCycles := 7 }

theorem ofText_overlays_terse :
    (∃ document, parse? terse = some document ∧
      traced.IsPartial (fun part => part = .general ∨ part = .session)
        (fun setting => setting = .traceInstructions) document) ∧
      ofText terse = .ok { general := { traceInstructions := true } } ∧
      ofText "\x7b\"assembler\": \x7b\x7d\x7d" = ofText "\x7b\x7d" ∧
      ofText "\x7b\"assembler\": \x7b\"allow_label_redefinition\": false\x7d\x7d" =
        ofText "\x7b\x7d" := by
  let note : Name × Json := ("note", .null)
  let cpu : Name × Json := ("cpu", .array [])
  let trace : Name × Json := ("trace_instructions", .bool true)
  let session : Name × Json := ("session", .object [])
  let general : Name × Json := (⟨"general", true⟩, .object [cpu, trace])
  have hparse : parse? terse = some (.object [note, session, general]) := rfl
  have hgeneral : [cpu, trace].Perm ([trace] ++ [cpu]) := List.reverse_perm [trace, cpu]
  have hmembers : [note, session, general].Perm ([general, session] ++ [note]) :=
    List.reverse_perm [general, session, note]
  have hpartial : traced.IsPartial (fun part => part = .general ∨ part = .session)
      (fun setting => setting = .traceInstructions) (.object [note, session, general]) := by
    refine .object hmembers (.cons ⟨rfl, ?_⟩ (.cons ⟨rfl, ?_⟩ .nil))
      (List.forall_mem_singleton.mpr (by decide))
    · exact .object hgeneral (.cons ⟨rfl, rfl⟩ .nil) (List.forall_mem_singleton.mpr (by decide))
    · exact Gives.empty (by decide)
  obtain ⟨hread, hdefaults⟩ := ofText_overlays
  refine ⟨⟨_, hparse, hpartial⟩, (hread traced _ _).2 terse _ hparse hpartial, ?_⟩
  exact hdefaults .assembler "assembler" [] _ _ _ _ rfl
    (fun _ hmember => absurd hmember List.not_mem_nil) (Gives.map fun _ _ => rfl)
    ⟨_, rfl, .refl _⟩ ⟨_, rfl, .refl _⟩ ⟨_, rfl, .refl _⟩

end Config

end FiveStage
