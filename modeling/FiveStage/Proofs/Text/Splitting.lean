import FiveStage.Text.Blank
import FiveStage.Text.Pieces
import Mathlib.Data.List.DropRight

namespace FiveStage.Text

theorem eq_false_of_head?_dropWhile {p : Char → Bool} {text : List Char} {c : Char}
    (h : (text.dropWhile p).head? = some c) : p c = false := by
  have hnot := List.head?_dropWhile_not p text
  rw [h] at hnot
  simpa using hnot

theorem cut_eq (mark : Char) (text : List Char) :
    cut mark text = (text.takeWhile (· ≠ mark),
      if mark ∈ text then some (text.dropWhile (· ≠ mark)).tail else none) := by
  induction text with
  | nil => rfl
  | cons c rest ih =>
    by_cases hc : c = mark
    · simp [cut, hc]
    · simp [cut, ih, hc, Ne.symm hc]

section Cut

variable {mark : Char} {text before : List Char}

theorem cut_of_not_mem (h : mark ∉ text) : cut mark text = (text, none) := by
  have hall : ∀ c ∈ text, decide (c ≠ mark) := fun c hc =>
    decide_eq_true fun he => h (he ▸ hc)
  rw [cut_eq, List.takeWhile_eq_self_iff.mpr hall, if_neg h]

theorem cut_append_cons (h : mark ∉ before) (after : List Char) :
    cut mark (before ++ mark :: after) = (before, some after) := by
  have hall : ∀ c ∈ before, decide (c ≠ mark) := fun c hc =>
    decide_eq_true fun he => h (he ▸ hc)
  rw [cut_eq, List.takeWhile_append_of_pos hall, List.dropWhile_append_of_pos hall]
  simp

end Cut

section Pieces

variable {isSeparator : Char → Bool} {text rest : List Char} {c : Char}

theorem pieces_cons_of_separator (h : isSeparator c) (rest : List Char) :
    pieces isSeparator (c :: rest) = [] :: pieces isSeparator rest := by
  simp [pieces, h]

-- A character that is no separator goes on with the piece behind it.
theorem pieces_cons_of_not (h : isSeparator c = false) (rest : List Char) :
    ∃ piece others, pieces isSeparator rest = piece :: others ∧
      pieces isSeparator (c :: rest) = (c :: piece) :: others := by
  obtain ⟨piece, others, hrest⟩ := List.exists_cons_of_ne_nil (pieces_ne_nil isSeparator rest)
  refine ⟨piece, others, hrest, ?_⟩
  rw [pieces, List.foldr_cons, ← pieces, hrest]
  simp [h]

-- What stands before a separator and what stands behind it are split apart
-- from each other.
theorem pieces_append_cons (h : isSeparator c) (text rest : List Char) :
    pieces isSeparator (text ++ c :: rest) =
      pieces isSeparator text ++ pieces isSeparator rest := by
  induction text with
  | nil => exact pieces_cons_of_separator h rest
  | cons d text ih =>
    cases hd : isSeparator d with
    | true => rw [List.cons_append, pieces_cons_of_separator hd, pieces_cons_of_separator hd, ih,
        List.cons_append]
    | false =>
      obtain ⟨piece, others, htext, hpieces⟩ := pieces_cons_of_not hd text
      obtain ⟨first, further, hall, hmore⟩ := pieces_cons_of_not hd (text ++ c :: rest)
      rw [ih, htext, List.cons_append, List.cons.injEq] at hall
      rw [List.cons_append, hmore, hpieces, ← hall.1, ← hall.2, List.cons_append]

theorem pieces_of_forall_not (h : ∀ c ∈ text, isSeparator c = false) :
    pieces isSeparator text = [text] := by
  induction text with
  | nil => rfl
  | cons c rest ih =>
    obtain ⟨hc, hrest⟩ := List.forall_mem_cons.mp h
    obtain ⟨piece, others, hpieces, hmore⟩ := pieces_cons_of_not hc rest
    rw [ih hrest, List.cons.injEq] at hpieces
    rw [hmore, ← hpieces.1, ← hpieces.2]

end Pieces

-- The runs of a text between its separators, in their order. A run starts at
-- the first character that is no separator and goes on to the next separator or
-- to the end.
inductive Runs (isSeparator : Char → Bool) : List Char → List (List Char) → Prop
  | none {text : List Char} (h : ∀ c ∈ text, isSeparator c) : Runs isSeparator text []
  | run {before run rest : List Char} {runs : List (List Char)}
      (hbefore : ∀ c ∈ before, isSeparator c) (hnonempty : run ≠ [])
      (hrun : ∀ c ∈ run, isSeparator c = false) (hend : ∀ c ∈ rest.head?, isSeparator c)
      (hrest : Runs isSeparator rest runs) : Runs isSeparator (before ++ run ++ rest) (run :: runs)

section Runs

variable {isSeparator : Char → Bool} {text before after rest : List Char}

theorem runs_append_cons {c : Char} (h : isSeparator c) (text rest : List Char) :
    runs isSeparator (text ++ c :: rest) = runs isSeparator text ++ runs isSeparator rest := by
  rw [runs, pieces_append_cons h, List.filter_append]
  rfl

theorem runs_cons_of_separator {c : Char} (h : isSeparator c) (rest : List Char) :
    runs isSeparator (c :: rest) = runs isSeparator rest :=
  runs_append_cons h [] rest

theorem runs_append_left (h : ∀ c ∈ before, isSeparator c) (text : List Char) :
    runs isSeparator (before ++ text) = runs isSeparator text := by
  induction before with
  | nil => rfl
  | cons c before ih =>
    obtain ⟨hc, hbefore⟩ := List.forall_mem_cons.mp h
    rw [List.cons_append, runs_cons_of_separator hc, ih hbefore]

theorem runs_of_forall (h : ∀ c ∈ text, isSeparator c) : runs isSeparator text = [] := by
  have hnothing := runs_append_left h []
  rwa [List.append_nil] at hnothing

theorem runs_append_right (h : ∀ c ∈ after, isSeparator c) (text : List Char) :
    runs isSeparator (text ++ after) = runs isSeparator text := by
  cases after with
  | nil => rw [List.append_nil]
  | cons c after =>
    obtain ⟨hc, hafter⟩ := List.forall_mem_cons.mp h
    rw [runs_append_cons hc, runs_of_forall hafter, List.append_nil]

theorem runs_append_of_forall_not {run : List Char} (hnonempty : run ≠ [])
    (hrun : ∀ c ∈ run, isSeparator c = false) (hend : ∀ c ∈ rest.head?, isSeparator c) :
    runs isSeparator (run ++ rest) = run :: runs isSeparator rest := by
  have hone : runs isSeparator run = [run] := by
    simp [runs, pieces_of_forall_not hrun, hnonempty]
  cases rest with
  | nil => rw [List.append_nil, hone]; rfl
  | cons c rest =>
    have hc : isSeparator c := hend c rfl
    rw [runs_append_cons hc, hone, runs_cons_of_separator hc, List.singleton_append]

theorem forall_or_exists_run (isSeparator : Char → Bool) (text : List Char) :
    (∀ c ∈ text, isSeparator c) ∨ ∃ before run rest, text = before ++ (run ++ rest) ∧
      (∀ c ∈ before, isSeparator c) ∧ run ≠ [] ∧ (∀ c ∈ run, isSeparator c = false) ∧
        ∀ c ∈ rest.head?, isSeparator c := by
  by_cases hall : ∀ c ∈ text, isSeparator c
  · exact .inl hall
  · have hbehind : text.dropWhile isSeparator ≠ [] := fun hnil =>
      hall (List.dropWhile_eq_nil_iff.mp hnil)
    obtain ⟨c, behind, hcons⟩ := List.exists_cons_of_ne_nil hbehind
    have hhead : (text.dropWhile isSeparator).head? = some c := by rw [hcons, List.head?_cons]
    have hc := eq_false_of_head?_dropWhile hhead
    let more (c : Char) : Bool := !isSeparator c
    refine .inr ⟨text.takeWhile isSeparator, (c :: behind).takeWhile more,
      (c :: behind).dropWhile more, ?_, fun d hd => List.mem_takeWhile_imp hd, ?_,
      fun d hd => ?_, fun d hd => ?_⟩
    · rw [List.takeWhile_append_dropWhile, ← hcons, List.takeWhile_append_dropWhile]
    · simp [more, hc]
    · simpa [more] using List.mem_takeWhile_imp hd
    · simpa [more] using eq_false_of_head?_dropWhile hd

theorem runs_runs (isSeparator : Char → Bool) (text : List Char) :
    Runs isSeparator text (runs isSeparator text) := by
  obtain hall | ⟨before, run, rest, rfl, hbefore, hnonempty, hrun, hend⟩ :=
    forall_or_exists_run isSeparator text
  · rw [runs_of_forall hall]
    exact .none hall
  · have hlt : rest.length < (before ++ (run ++ rest)).length := by
      have hpos := List.length_pos_of_ne_nil hnonempty
      simp only [List.length_append]
      omega
    rw [runs_append_left hbefore, runs_append_of_forall_not hnonempty hrun hend,
      ← List.append_assoc]
    exact .run hbefore hnonempty hrun hend (runs_runs isSeparator rest)
termination_by text.length

-- There is no other way to tell the runs of a text.
theorem runs_iff {found : List (List Char)} :
    Runs isSeparator text found ↔ found = runs isSeparator text := by
  constructor
  · intro h
    induction h with
    | none h => exact (runs_of_forall h).symm
    | run hbefore hnonempty hrun hend hrest ih =>
      rw [List.append_assoc, runs_append_left hbefore,
        runs_append_of_forall_not hnonempty hrun hend, ih]
  · rintro rfl
    exact runs_runs isSeparator text

theorem runs_eq_nil_iff : runs isSeparator text = [] ↔ ∀ c ∈ text, isSeparator c := by
  constructor
  · intro hnil
    cases runs_iff.mpr hnil.symm with
    | none h => exact h
  · exact runs_of_forall

end Runs

-- What is left of a text without the blanks around it.
inductive Trims : List Char → List Char → Prop
  | around {left inner right : List Char} (hleft : ∀ c ∈ left, isBlank c)
      (hright : ∀ c ∈ right, isBlank c) (hhead : ∀ c ∈ inner.head?, isBlank c = false)
      (hlast : ∀ c ∈ inner.getLast?, isBlank c = false) : Trims (left ++ inner ++ right) inner

section Trims

variable {text inner left right : List Char}

theorem trims_trim (text : List Char) : Trims text (trim text) := by
  let rest := text.dropWhile isBlank
  let right := (rest.reverse.takeWhile isBlank).reverse
  have hrest : trim text ++ right = rest := by
    rw [trim, ← List.reverse_append, List.takeWhile_append_dropWhile, List.reverse_reverse]
  have htext : text.takeWhile isBlank ++ trim text ++ right = text := by
    rw [List.append_assoc, hrest, List.takeWhile_append_dropWhile]
  have haround : Trims (text.takeWhile isBlank ++ trim text ++ right) (trim text) := by
    refine .around (fun c hc => List.mem_takeWhile_imp hc)
      (fun c hc => List.mem_takeWhile_imp (List.mem_reverse.mp hc)) (fun c hc => ?head)
      (fun c hc => ?last)
    case head =>
      have hfirst : rest.head? = some c := by rw [← hrest, List.head?_append, hc, Option.some_or]
      exact eq_false_of_head?_dropWhile hfirst
    case last =>
      rw [trim, List.getLast?_reverse] at hc
      exact eq_false_of_head?_dropWhile hc
  rwa [htext] at haround

theorem Trims.append_left (h : Trims text inner) (hleft : ∀ c ∈ left, isBlank c) :
    Trims (left ++ text) inner := by
  cases h with
  | @around before _ after hbefore hafter hhead hlast =>
    have hboth := List.forall_mem_append.mpr ⟨hleft, hbefore⟩
    simpa [List.append_assoc] using Trims.around hboth hafter hhead hlast

theorem Trims.append_right (h : Trims text inner) (hright : ∀ c ∈ right, isBlank c) :
    Trims (text ++ right) inner := by
  cases h with
  | @around before _ after hbefore hafter hhead hlast =>
    have hboth := List.forall_mem_append.mpr ⟨hafter, hright⟩
    simpa [List.append_assoc] using Trims.around hbefore hboth hhead hlast

theorem Trims.mem {c : Char} (h : Trims text inner) (hc : c ∈ inner) : c ∈ text := by
  cases h with
  | around => simp [hc]

-- Nothing is left of blanks only.
theorem Trims.eq_nil_iff (h : Trims text inner) : inner = [] ↔ ∀ c ∈ text, isBlank c := by
  cases h with
  | @around left _ right hleft hright hhead hlast =>
    constructor
    · rintro rfl
      rw [List.append_nil]
      exact List.forall_mem_append.mpr ⟨hleft, hright⟩
    · intro hall
      cases inner with
      | nil => rfl
      | cons c inner =>
        have hblank : isBlank c := hall c (by simp)
        rw [hhead c rfl] at hblank
        contradiction

theorem Trims.mem_iff (h : Trims text inner) {mark : Char} (hmark : isBlank mark = false) :
    mark ∈ text ↔ mark ∈ inner := by
  cases h with
  | @around left _ right hleft hright hhead hlast =>
    have hnot {blanks : List Char} (h : ∀ c ∈ blanks, isBlank c) : mark ∉ blanks := fun hmem => by
      rw [h mark hmem] at hmark
      contradiction
    simp [hnot hleft, hnot hright]

-- The first of the marks that are left is the first one of the whole text.
theorem Trims.exists_split {mark : Char} {before after : List Char}
    (h : Trims text (before ++ mark :: after)) (hmark : isBlank mark = false)
    (hbefore : mark ∉ before) :
    ∃ left right, text = left ++ before ++ mark :: (after ++ right) ∧ mark ∉ left ++ before ∧
      (∀ c ∈ left, isBlank c) ∧ ∀ c ∈ right, isBlank c := by
  generalize hinner : before ++ mark :: after = inner at h
  cases h with
  | @around left _ right hleft hright hhead hlast =>
    refine ⟨left, right, ?_, fun hmem => ?_, hleft, hright⟩
    · rw [← hinner, List.append_assoc, List.append_assoc, List.cons_append, List.append_assoc]
    · have hblank := hleft mark ((List.mem_append.mp hmem).resolve_right hbefore)
      rw [hmark] at hblank
      contradiction

-- Blanks around a text are of no account to its runs.
theorem Trims.runs_eq {isSeparator : Char → Bool} (h : Trims text inner)
    (hblank : ∀ c, isBlank c → isSeparator c) :
    runs isSeparator text = runs isSeparator inner := by
  cases h with
  | @around left _ right hleft hright hhead hlast =>
    rw [List.append_assoc, runs_append_left fun c hc => hblank c (hleft c hc),
      runs_append_right fun c hc => hblank c (hright c hc)]

end Trims

-- The lines of a text. A line feed ends a line, and so does a carriage return
-- with a line feed; the last line may go without.
inductive Lines : List Char → List (List Char) → Prop
  | none : Lines [] []
  | last {line : List Char} (hnonempty : line ≠ []) (hline : '\n' ∉ line) : Lines line [line]
  | feed {line rest : List Char} {lines : List (List Char)} (hline : '\n' ∉ line)
      (hreturn : line.getLast? ≠ some '\r') (hrest : Lines rest lines) :
      Lines (line ++ '\n' :: rest) (line :: lines)
  | returnFeed {line rest : List Char} {lines : List (List Char)} (hline : '\n' ∉ line)
      (hrest : Lines rest lines) : Lines (line ++ '\r' :: '\n' :: rest) (line :: lines)

theorem lines_of_not_mem {text : List Char} (h : '\n' ∉ text) :
    lines text = if text = [] then [] else [text] := by
  have hone : pieces (· = '\n') text = [text] :=
    pieces_of_forall_not fun c hc => decide_eq_false fun he => h (he ▸ hc)
  rw [lines, hone]
  cases text <;> simp

theorem lines_append_cons {line : List Char} (h : '\n' ∉ line) (rest : List Char) :
    lines (line ++ '\n' :: rest) = dropReturn line :: lines rest := by
  have hone : pieces (· = '\n') line = [line] :=
    pieces_of_forall_not fun c hc => decide_eq_false fun he => h (he ▸ hc)
  obtain ⟨piece, others, hpieces⟩ :=
    List.exists_cons_of_ne_nil (pieces_ne_nil (· = '\n') rest)
  rw [lines, lines, pieces_append_cons (by simp), hone, hpieces, List.singleton_append,
    List.getLast?_cons_cons, List.dropLast_cons_cons, List.map_cons]
  cases (piece :: others).getLast? with
  | none => rfl
  | some last => cases last <;> rfl

theorem lines_lines (text : List Char) : Lines text (lines text) := by
  by_cases hfeed : '\n' ∈ text
  · obtain ⟨line, rest, rfl, hline⟩ := List.eq_append_cons_of_mem hfeed
    have hlt : rest.length < (line ++ '\n' :: rest).length := by
      simp only [List.length_append, List.length_cons]
      omega
    rw [lines_append_cons hline]
    have hrest := lines_lines rest
    by_cases hreturn : line.getLast? = some '\r'
    · obtain ⟨before, rfl⟩ := List.getLast?_eq_some_iff.mp hreturn
      have hbefore : '\n' ∉ before := fun hmem => hline (List.mem_append_left _ hmem)
      have hdrop : dropReturn (before ++ ['\r']) = before := by simp [dropReturn]
      rw [hdrop, List.append_assoc]
      exact .returnFeed hbefore hrest
    · rw [dropReturn, if_neg hreturn]
      exact .feed hline hreturn hrest
  · rw [lines_of_not_mem hfeed]
    split
    · next hnil => exact hnil ▸ .none
    · next hnonempty => exact .last hnonempty hfeed
termination_by text.length

end FiveStage.Text
