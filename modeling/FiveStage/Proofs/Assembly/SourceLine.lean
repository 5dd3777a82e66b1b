import FiveStage.Proofs.Assembly.Labels
import FiveStage.Proofs.Text.Splitting

namespace FiveStage.SourceLine

-- What stands in front of the comment.
def code (line : SourceLine) : List Char :=
  line.raw.toList.takeWhile (· ≠ '@')

-- What stands behind the label, if there is one.
def statement (line : SourceLine) : List Char :=
  if ':' ∈ line.code then (line.code.dropWhile (· ≠ ':')).tail else line.code

-- The parts of a line hold what is written there and nothing else.
structure Splits (line : SourceLine) : Prop where
  label_isSome_iff : line.label.isSome ↔ ':' ∈ line.code
  label_trims : ∀ label ∈ line.label, Text.Trims (line.code.takeWhile (· ≠ ':')) label.toList
  body_trims : Text.Trims line.statement line.body.toList
  body_uncommented : '@' ∉ line.body.toList
  runs_iff : ∀ runs, Text.Runs isSeparator line.statement runs ↔
    runs = line.tokens.map String.toList
  hasInstruction_iff : line.hasInstruction ↔ ∃ c ∈ line.statement, ¬Text.isBlank c
  tokens_eq_nil_iff : line.tokens = [] ↔ ∀ c ∈ line.statement, Text.isBlank c ∨ c = ','

section Statement

variable {line : SourceLine}

theorem statement_of_not_mem (h : ':' ∉ line.code) : line.statement = line.code :=
  if_neg h

theorem code_split {before after : List Char} (hbefore : ':' ∉ before)
    (hcode : line.code = before ++ ':' :: after) :
    line.code.takeWhile (· ≠ ':') = before ∧ line.statement = after := by
  have hmem : ':' ∈ line.code := by simp [hcode]
  have hcut := Text.cut_append_cons hbefore after
  rw [← hcode, Text.cut_eq, Prod.mk.injEq, if_pos hmem, Option.some.injEq] at hcut
  rw [statement, if_pos hmem]
  exact hcut

theorem mem_code_of_mem_statement {c : Char} (h : c ∈ line.statement) : c ∈ line.code := by
  unfold statement at h
  split at h
  · exact (List.dropWhile_suffix _).mem (List.mem_of_mem_tail h)
  · exact h

end Statement

-- A line without a label, and one with a label in front of the first colon.
theorem label_body_ofRaw (number : Nat) (raw : String) :
    (':' ∉ (ofRaw number raw).code ∧ (ofRaw number raw).label = none ∧
        Text.Trims (ofRaw number raw).code (ofRaw number raw).body.toList) ∨
      ∃ before after label, ':' ∉ before ∧ (ofRaw number raw).code = before ++ ':' :: after ∧
        (ofRaw number raw).label = some label ∧ Text.Trims before label.toList ∧
        Text.Trims after (ofRaw number raw).body.toList := by
  have hcode : (ofRaw number raw).code = (Text.cut '@' raw.toList).1 := by
    rw [code, raw_ofRaw, Text.cut_eq]
  rw [hcode]
  generalize hwhole : (Text.cut '@' raw.toList).1 = whole
  have htrims := Text.trims_trim whole
  by_cases hcolon : ':' ∈ Text.trim whole
  · obtain ⟨before, after, hcut, hbefore⟩ := List.eq_append_cons_of_mem hcolon
    have hparts := Text.cut_append_cons hbefore after
    rw [← hcut] at hparts
    rw [hcut] at htrims
    obtain ⟨left, right, htext, hfirst, hleft, hright⟩ := htrims.exists_split (by decide) hbefore
    refine .inr ⟨left ++ before, after ++ right, String.ofList (Text.trim before), hfirst, htext,
      ?_, ?_, ?_⟩
    · simp [ofRaw, hwhole, hparts]
    · simpa using (Text.trims_trim before).append_left hleft
    · simpa [ofRaw, hwhole, hparts] using (Text.trims_trim after).append_right hright
  · have hparts := Text.cut_of_not_mem hcolon
    refine .inl ⟨mt (htrims.mem_iff (by decide)).mp hcolon, ?_, ?_⟩
    · simp [ofRaw, hwhole, hparts]
    · simpa [ofRaw, hwhole, hparts] using htrims

theorem ofRaw_splits (number : Nat) (raw : String) : (ofRaw number raw).Splits := by
  have hparts := label_body_ofRaw number raw
  generalize ofRaw number raw = line at hparts ⊢
  have hbody : Text.Trims line.statement line.body.toList := by
    obtain ⟨hcolon, -, hbody⟩ | ⟨before, after, label, hbefore, hcode, -, -, hbody⟩ := hparts
    · rwa [statement_of_not_mem hcolon]
    · rwa [(code_split hbefore hcode).2]
  have hruns : line.tokens.map String.toList = Text.runs isSeparator line.statement := by
    have hblank (c : Char) (h : Text.isBlank c) : isSeparator c := by simp [isSeparator, h]
    rw [hbody.runs_eq hblank, tokens, List.map_map]
    simp
  refine {
    label_isSome_iff := ?present
    label_trims := ?label
    body_trims := hbody
    body_uncommented := fun hmem => ?comment
    runs_iff := fun runs => ?runs
    hasInstruction_iff := ?instruction
    tokens_eq_nil_iff := ?tokens }
  case present =>
    obtain ⟨hcolon, hlabel, -⟩ | ⟨before, after, label, -, hcode, hlabel, -⟩ := hparts
    · simp [hlabel, hcolon]
    · simp [hlabel, hcode]
  case label =>
    obtain ⟨-, hlabel, -⟩ | ⟨before, after, label, hbefore, hcode, hlabel, htrims, -⟩ := hparts
    · simp [hlabel]
    · rw [(code_split hbefore hcode).1]
      simpa [hlabel] using htrims
  case comment =>
    have hcode := mem_code_of_mem_statement (hbody.mem hmem)
    exact absurd (List.mem_takeWhile_imp hcode) (by simp)
  case instruction =>
    rw [← not_iff_not]
    simpa [hasInstruction] using hbody.eq_nil_iff
  case runs =>
    rw [Text.runs_iff, hruns]
  case tokens =>
    have hnil : Text.runs isSeparator line.statement = [] ↔
        ∀ c ∈ line.statement, isSeparator c := Text.runs_eq_nil_iff
    rw [← hruns, List.map_eq_nil_iff] at hnil
    simpa [isSeparator] using hnil

theorem number_ofText (text : String) :
    (ofText text).map number = List.range' 1 (ofText text).length := by
  refine List.ext_getElem (by simp) fun i hi _ => ?_
  simp [ofText, Nat.add_comm]

theorem ofText_splits :
    (∀ text : String,
      Text.Lines text.toList ((ofText text).map fun line => line.raw.toList) ∧
        (ofText text).map number = List.range' 1 (ofText text).length ∧
          ∀ line ∈ ofText text, line = ofRaw line.number line.raw) ∧
      ∀ (number : Nat) (raw : String),
        (ofRaw number raw).raw = raw ∧ (ofRaw number raw).Splits := by
  refine ⟨fun text => ⟨?lines, number_ofText text, fun line hline => ?line⟩,
    fun number raw => ⟨raw_ofRaw number raw, ofRaw_splits number raw⟩⟩
  case lines =>
    have hraw : ((ofText text).map fun line => line.raw.toList) = Text.lines text.toList :=
      List.ext_getElem (by simp [ofText]) fun i _ _ => by simp [ofText]
    rw [hraw]
    exact Text.lines_lines text.toList
  case line =>
    obtain ⟨i, hi, rfl⟩ := List.mem_mapIdx.mp hline
    rw [number_ofRaw, raw_ofRaw]

end FiveStage.SourceLine
