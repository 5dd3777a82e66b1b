import FiveStage.Proofs.Json.Record
import Mathlib.Data.List.Forall2

namespace FiveStage.Json

section Gives

variable {ι : Type} (fields : List ι) (name : ι → String) (Holds : ι → Json → Prop)

-- A member that gives a field.
def Fills (field : ι) (member : Name × Json) : Prop :=
  member.1.text = name field ∧ Holds field member.2

-- An object that has a member for each of the chosen fields, in any order. Its
-- other members have names that are not those of fields.
inductive Gives (chosen : ι → Bool) : Json → Prop
  | object {members written others : List (Name × Json)} (horder : members.Perm (written ++ others))
      (hwritten : List.Forall₂ (Fills name Holds) (fields.filter chosen) written)
      (hothers : ∀ member ∈ others, member.1.text ∉ fields.map name) :
      Gives chosen (.object members)

end Gives

-- What an object shows of a field that was chosen, or was not.
inductive Slot.Shows (Holds : Json → Prop) : Bool → Slot → Prop
  | given {value : Json} (h : Holds value) : Shows Holds true (.given value)
  | absent : Shows Holds false .absent

namespace Record

variable {members others : List (Name × Json)} {name : String} {names : List String}

section Slots

-- It does not matter in which order the members of an object come.
theorem slotOfMembers?_of_perm (h : members.Perm others) (name : String) :
    slotOfMembers? members name = slotOfMembers? others name := by
  have hfilter := h.filter fun member => member.1.text == name
  unfold slotOfMembers?
  generalize members.filter (fun member => member.1.text == name) = left at hfilter
  generalize others.filter (fun member => member.1.text == name) = right at hfilter
  match left with
  | [] => rw [hfilter.nil_eq]
  | [_] => rw [List.singleton_perm.mp hfilter]
  | _ :: _ :: _ =>
    match right, hfilter.length_eq with
    | _ :: _ :: _, _ => rfl

theorem filter_eq_nil_of_forall_ne (h : ∀ member ∈ members, member.1.text ≠ name) :
    (members.filter fun member => member.1.text == name) = [] :=
  List.filter_eq_nil_iff.mpr fun member hmember hsame => h member hmember (eq_of_beq hsame)

theorem slotOfMembers?_append (h : ∀ member ∈ others, member.1.text ≠ name) :
    slotOfMembers? (members ++ others) name = slotOfMembers? members name := by
  simp only [slotOfMembers?, List.filter_append, filter_eq_nil_of_forall_ne h, List.append_nil]

theorem slotOfMembers?_of_forall_ne (h : ∀ member ∈ members, member.1.text ≠ name) :
    slotOfMembers? members name = some .absent := by
  simp only [slotOfMembers?, filter_eq_nil_of_forall_ne h]

theorem slotOfMembers?_cons_self {member : Name × Json} (hname : member.1.text = name)
    (h : ∀ other ∈ members, other.1.text ≠ name) :
    slotOfMembers? (member :: members) name = some (.given member.2) := by
  simp [slotOfMembers?, hname, filter_eq_nil_of_forall_ne h]

theorem slotOfMembers?_cons_of_ne {member : Name × Json} (hname : member.1.text ≠ name) :
    slotOfMembers? (member :: members) name = slotOfMembers? members name := by
  simp [slotOfMembers?, hname]

end Slots

section Fields

theorem ofJson?_cons (first : String) (rest : List String) :
    ofJson? (first :: rest) (.object members) =
      (slotOfMembers? members first).bind fun slot =>
        (ofJson? rest (.object members)).map fun record => ⟨(first, slot) :: record.slots⟩ := by
  rw [ofJson?, ofJson?, List.mapM_cons]
  cases slotOfMembers? members first with
  | none => rfl
  | some slot =>
    cases rest.mapM fun name => (slotOfMembers? members name).map fun slot => (name, slot) <;> rfl

-- An object gives a record if each of its fields comes at most once.
theorem isSome_ofJson?_iff : (ofJson? names (.object members)).isSome ↔
    ∀ name ∈ names, (slotOfMembers? members name).isSome := by
  induction names with
  | nil => simp [ofJson?]
  | cons first rest ih =>
    rw [List.forall_mem_cons, ← ih, ofJson?_cons]
    cases slotOfMembers? members first <;> simp

theorem slotOfMembers?_of_ofJson? {record : Record}
    (h : ofJson? names (.object members) = some record) (hname : name ∈ names) :
    slotOfMembers? members name = some (record.slot name) := by
  induction names generalizing record with
  | nil => contradiction
  | cons first rest ih =>
    rw [ofJson?_cons, Option.bind_eq_some_iff] at h
    obtain ⟨found, hfound, h⟩ := h
    obtain ⟨others, hothers, rfl⟩ := Option.map_eq_some_iff.mp h
    rw [slot, List.lookup_cons]
    by_cases hfirst : name = first
    · simp [hfirst, hfound]
    · have hrest := (List.mem_cons.mp hname).resolve_left hfirst
      rw [beq_false_of_ne hfirst]
      exact ih hothers hrest

theorem ofJson?_of_perm (h : members.Perm others) (names : List String) :
    ofJson? names (.object members) = ofJson? names (.object others) := by
  induction names with
  | nil => rfl
  | cons first rest ih => rw [ofJson?_cons, ofJson?_cons, slotOfMembers?_of_perm h, ih]

-- A field that reads as its default might as well be missing.
theorem ofJson?_object_cons (names : List String) {key : Name} (value : Json)
    (h : ∀ member ∈ members, member.1.text ≠ key.text) :
    (ofJson? names (.object ((key, value) :: members)) = none ∧
        ofJson? names (.object members) = none) ∨
      ∃ given omitted, ofJson? names (.object ((key, value) :: members)) = some given ∧
        ofJson? names (.object members) = some omitted ∧
        ∀ name ∈ names, ∀ {α : Type} (read : Json → Option α) (default : α),
          (key.text = name → read value = some default) →
            given.orElse name default read = omitted.orElse name default read := by
  have habsent := slotOfMembers?_of_forall_ne h
  have hself : slotOfMembers? ((key, value) :: members) key.text = some (.given value) :=
    slotOfMembers?_cons_self rfl h
  have hother {name : String} (hname : key.text ≠ name) :
      slotOfMembers? ((key, value) :: members) name = slotOfMembers? members name :=
    slotOfMembers?_cons_of_ne hname
  have hsome : (ofJson? names (.object ((key, value) :: members))).isSome ↔
      (ofJson? names (.object members)).isSome := by
    rw [isSome_ofJson?_iff, isSome_ofJson?_iff]
    refine forall₂_congr fun name _ => ?_
    by_cases hname : key.text = name
    · rw [← hname, hself, habsent]
      rfl
    · rw [hother hname]
  cases homitted : ofJson? names (.object members) with
  | none =>
    rw [homitted, Option.isSome_none, Bool.false_eq_true, iff_false,
      Option.not_isSome_iff_eq_none] at hsome
    exact .inl ⟨hsome, rfl⟩
  | some omitted =>
    obtain ⟨given, hgiven⟩ := Option.isSome_iff_exists.mp (hsome.mpr (by rw [homitted]; rfl))
    refine .inr ⟨given, omitted, hgiven, rfl, fun name hmem α read default hread => ?_⟩
    have hslot := slotOfMembers?_of_ofJson? hgiven hmem
    have hplain := slotOfMembers?_of_ofJson? homitted hmem
    by_cases hname : key.text = name
    · rw [← hname, hself, Option.some.injEq] at hslot
      rw [← hname, habsent, Option.some.injEq] at hplain
      rw [← hname, orElse, orElse, ← hslot, ← hplain]
      exact hread hname
    · rw [hother hname, hplain, Option.some.injEq] at hslot
      rw [orElse, orElse, hslot]

end Fields

end Record

namespace Gives

open Record

variable {ι : Type} {fields : List ι} {name : ι → String} {Holds : ι → Json → Prop}
  {chosen : ι → Bool} {written : List (Name × Json)}

theorem text_ne_of_forall₂ (h : List.Forall₂ (Fills name Holds) fields written) {other : String}
    (hother : other ∉ fields.map name) : ∀ member ∈ written, member.1.text ≠ other := by
  induction h with
  | nil => exact fun _ hmember => absurd hmember List.not_mem_nil
  | cons hmember _ ih =>
    rw [List.map_cons, List.mem_cons, not_or] at hother
    exact List.forall_mem_cons.mpr ⟨fun he => hother.1 (he.symm.trans hmember.1), ih hother.2⟩

theorem exists_slot (hnames : (fields.map name).Nodup)
    (h : List.Forall₂ (Fills name Holds) (fields.filter chosen) written) {field : ι}
    (hfield : field ∈ fields) :
    ∃ slot, slotOfMembers? written (name field) = some slot ∧
      slot.Shows (Holds field) (chosen field) := by
  induction fields generalizing written with
  | nil => contradiction
  | cons first rest ih =>
    obtain ⟨hfirst, hrest⟩ := List.nodup_cons.mp hnames
    have hlater : name first ∉ (rest.filter chosen).map name := fun hmem =>
      hfirst ((List.filter_sublist.map name).subset hmem)
    cases hchosen : chosen first with
    | true =>
      rw [List.filter_cons_of_pos hchosen] at h
      cases h with
      | @cons _ member _ written hmember hwritten =>
        cases List.mem_cons.mp hfield with
        | inl he =>
          rw [he, hchosen]
          exact ⟨_, slotOfMembers?_cons_self hmember.1 (text_ne_of_forall₂ hwritten hlater),
            .given hmember.2⟩
        | inr hmem =>
          have hne : member.1.text ≠ name field := fun he =>
            hfirst (List.mem_map.mpr ⟨field, hmem, he.symm.trans hmember.1⟩)
          rw [slotOfMembers?_cons_of_ne hne]
          exact ih hrest hwritten hmem
    | false =>
      rw [List.filter_cons_of_neg (by simp [hchosen])] at h
      cases List.mem_cons.mp hfield with
      | inl he =>
        rw [he, hchosen]
        exact ⟨_, slotOfMembers?_of_forall_ne (text_ne_of_forall₂ h hlater), .absent⟩
      | inr hmem => exact ih hrest h hmem

-- A field that was not chosen has its default.
theorem exists_record {document : Json} (h : Gives fields name Holds chosen document)
    (hnames : (fields.map name).Nodup) :
    ∃ record, Record.ofJson? (fields.map name) document = some record ∧
      ∀ field ∈ fields, ∀ {α : Type} (read : Json → Option α) (value default : α),
        (∀ held, Holds field held → read held = some value) →
          record.orElse (name field) default read =
            some (if chosen field then value else default) := by
  cases h with
  | @object members written others horder hwritten hothers =>
    have hslot (field : ι) (hfield : field ∈ fields) :
        ∃ slot, slotOfMembers? members (name field) = some slot ∧
          slot.Shows (Holds field) (chosen field) := by
      have hunknown : ∀ member ∈ others, member.1.text ≠ name field := fun member hmember he =>
        hothers member hmember (he ▸ List.mem_map_of_mem hfield)
      rw [slotOfMembers?_of_perm horder, slotOfMembers?_append hunknown]
      exact exists_slot hnames hwritten hfield
    have hsome : (Record.ofJson? (fields.map name) (.object members)).isSome := by
      refine isSome_ofJson?_iff.mpr (List.forall_mem_map.mpr fun field hfield => ?_)
      obtain ⟨slot, hfound, -⟩ := hslot field hfield
      rw [hfound]
      rfl
    obtain ⟨record, hrecord⟩ := Option.isSome_iff_exists.mp hsome
    refine ⟨record, hrecord, fun field hfield α read value default hread => ?_⟩
    obtain ⟨slot, hfound, hshows⟩ := hslot field hfield
    rw [slotOfMembers?_of_ofJson? hrecord (List.mem_map_of_mem hfield), Option.some.injEq] at hfound
    rw [orElse, hfound]
    generalize chosen field = given at hshows ⊢
    cases hshows with
    | given hheld => exact hread _ hheld
    | absent => rfl

-- What is written of the chosen fields in order, and with nothing else.
theorem map {write : ι → Json} (h : ∀ field ∈ fields, Holds field (write field)) :
    Gives fields name Holds chosen
      (.object ((fields.filter chosen).map fun field => ((name field : Name), write field))) := by
  refine .object (List.Perm.of_eq (List.append_nil _).symm) ?_ fun _ hmember =>
    absurd hmember List.not_mem_nil
  refine List.forall₂_map_right_iff.mpr (List.forall₂_same.mpr fun field hfield => ?_)
  exact ⟨rfl, h field (List.mem_filter.mp hfield).1⟩

theorem empty (h : ∀ field ∈ fields, chosen field = false) :
    Gives fields name Holds chosen (.object []) := by
  have hnothing : fields.filter chosen = [] :=
    List.filter_eq_nil_iff.mpr fun field hfield => by simp [h field hfield]
  have horder : ([] : List (Name × Json)).Perm ([] ++ []) := .nil
  exact .object horder (hnothing ▸ .nil) fun _ hmember => absurd hmember List.not_mem_nil

end Gives

end FiveStage.Json
