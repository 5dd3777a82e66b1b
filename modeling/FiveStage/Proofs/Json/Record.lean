import FiveStage.Json.Record

namespace FiveStage.Json

-- Numbers and lists are read back as they were written.
theorem nat?_ofNat {n : Nat} (h : n < UInt64.size) : nat? (ofNat n) = some n :=
  if_pos h

@[simp] theorem word?_ofWord (w : UInt32) : word? (ofWord w) = some w := by
  have hlt : w.toNat < UInt32.size := w.toNat_lt_size
  simp [word?, ofWord, hlt]

@[simp] theorem signedWord?_ofSignedWord (w : Int32) : signedWord? (ofSignedWord w) = some w := by
  have hrange := And.intro w.minValue_le_toInt w.toInt_le
  rw [ofSignedWord, signedWord?, if_pos hrange, Int32.ofInt_toInt]

theorem guard_of {p : Prop} [Decidable p] (h : p) : (guard p : Option Unit) = some () :=
  if_pos h

theorem mapM_map_of_forall {α β : Type} {read : β → Option α} {write : α → β} {items : List α}
    (h : ∀ item ∈ items, read (write item) = some item) :
    (items.map write).mapM read = some items := by
  induction items with
  | nil => rfl
  | cons first rest ih =>
    rw [List.map_cons, List.mapM_cons, h first List.mem_cons_self,
      ih fun item hitem => h item (List.mem_cons_of_mem _ hitem)]
    rfl

-- The value of the first member of a name.
def member? (members : List (Name × Json)) (name : String) : Option Json :=
  (members.find? fun member => member.1.text == name).map Prod.snd

section Members

variable {α : Type} (members others : List (Name × Json)) (name other : String)

@[simp] theorem member?_nil : member? [] name = none := rfl

@[simp] theorem member?_cons (member : Name × Json) :
    member? (member :: members) name =
      if member.1.text = name then some member.2 else member? members name := by
  by_cases h : member.1.text = name <;> simp [member?, h]

@[simp] theorem member?_append :
    member? (members ++ others) name = (member? members name).or (member? others name) := by
  simp [member?, Option.map_or]

@[simp] theorem member?_optionalMember (write : α → Json) (value : Option α) :
    member? (optionalMember name write value) other =
      if name = other then value.map write else none := by
  cases value <;> simp [optionalMember]

end Members

namespace Record

-- The members are some of the fields of these names, in their order.
def Written (names : List String) (members : List (Name × Json)) : Prop :=
  (members.map fun member => member.1.text).Sublist names

@[simp] theorem written_nil : Written [] [] := List.Sublist.refl []

@[simp] theorem written_cons {names : List String} {members : List (Name × Json)}
    (name : String) (escaped : Bool) (value : Json) :
    Written (name :: names) ((⟨name, escaped⟩, value) :: members) ↔ Written names members :=
  List.cons_sublist_cons

theorem Written.member {names : List String} {members : List (Name × Json)} (name : String)
    (value : Json) (h : Written names members) :
    Written (name :: names) (((name : Name), value) :: members) :=
  (written_cons name false value).mpr h

theorem Written.optional {α : Type} {names : List String} {members : List (Name × Json)}
    (name : String) (write : α → Json) (value : Option α) (h : Written names members) :
    Written (name :: names) (optionalMember name write value ++ members) := by
  cases value with
  | none => exact List.Sublist.cons name h
  | some held => exact h.member name (write held)

theorem Written.last {α : Type} (name : String) (write : α → Json) (value : Option α) :
    Written [name] (optionalMember name write value) := by
  cases value with
  | none => exact List.nil_sublist _
  | some held => exact List.Sublist.refl _

-- The record that an object with these members gives.
def ofMembers (names : List String) (members : List (Name × Json)) : Record :=
  ⟨names.map fun name => (name, match member? members name with
    | some value => .given value
    | none => .absent)⟩

section OfMembers

variable {α : Type} {names : List String} {members : List (Name × Json)} {name : String}

theorem slotOfMembers?_of_nodup (h : (members.map fun member => member.1.text).Nodup)
    (name : String) :
    slotOfMembers? members name = some (match member? members name with
      | some value => .given value
      | none => .absent) := by
  induction members with
  | nil => rfl
  | cons first rest ih =>
    obtain ⟨hfirst, hrest⟩ := List.nodup_cons.mp h
    by_cases hname : first.1.text = name
    · have hnone : (rest.filter fun member => member.1.text == name) = [] := by
        refine List.filter_eq_nil_iff.mpr fun member hmember hsame => hfirst ?_
        exact List.mem_map.mpr ⟨member, hmember, (eq_of_beq hsame).trans hname.symm⟩
      simp [slotOfMembers?, hname, hnone]
    · have hskip : slotOfMembers? (first :: rest) name = slotOfMembers? rest name := by
        simp [slotOfMembers?, hname]
      rw [hskip, ih hrest, member?_cons, if_neg hname]

theorem ofJson?_object (hnames : names.Nodup) (hmembers : Written names members) :
    ofJson? names (.object members) = some (ofMembers names members) := by
  have hdistinct := List.Sublist.nodup hmembers hnames
  have hslots : (names.mapM fun name =>
      (slotOfMembers? members name).map fun slot => (name, slot)) =
      some (ofMembers names members).slots := by
    simp only [slotOfMembers?_of_nodup hdistinct, Option.map_some]
    exact List.mapM_pure
  rw [ofJson?, hslots]
  rfl

theorem slot_ofMembers (h : name ∈ names) :
    (ofMembers names members).slot name = match member? members name with
      | some value => .given value
      | none => .absent := by
  have hlookup : (ofMembers names members).slots.lookup name =
      some (match member? members name with
        | some value => .given value
        | none => .absent) := by
    rw [ofMembers]
    induction names with
    | nil => contradiction
    | cons first rest ih =>
      rw [List.map_cons, List.lookup_cons]
      by_cases hname : name = first
      · simp [hname]
      · have hrest : name ∈ rest := (List.mem_cons.mp h).resolve_left hname
        rw [beq_false_of_ne hname]
        exact ih hrest
  rw [slot, hlookup, Option.getD_some]

@[simp] theorem required_ofMembers (h : name ∈ names) (read : Json → Option α) :
    (ofMembers names members).required name read = (member? members name).bind read := by
  rw [required, slot_ofMembers h]
  cases member? members name <;> rfl

@[simp] theorem optional_ofMembers (h : name ∈ names) (read : Json → Option α) :
    (ofMembers names members).optional name read =
      ((member? members name).map (nullable read)).getD (some none) := by
  rw [optional, slot_ofMembers h]
  cases member? members name <;> rfl

@[simp] theorem orElse_ofMembers (h : name ∈ names) (default : α) (read : Json → Option α) :
    (ofMembers names members).orElse name default read =
      ((member? members name).map read).getD (some default) := by
  rw [orElse, slot_ofMembers h]
  cases member? members name <;> rfl

end OfMembers

section Nullable

variable {α : Type} {read : Json → Option α} {write : α → Json} {value : Option α}

theorem nullable_of_read {document : Json} {held : α} (hnull : read .null = none)
    (h : read document = some held) : nullable read document = some (some held) := by
  cases document with
  | null =>
    rw [hnull] at h
    contradiction
  | _ => simp [nullable, h]

-- An optional value reads back whether its absence is written as null,
theorem nullable_getD (hnull : read .null = none)
    (h : ∀ held ∈ value, read (write held) = some held) :
    nullable read ((value.map write).getD .null) = some value := by
  cases value with
  | none => rfl
  | some held => exact nullable_of_read hnull (h held rfl)

-- or not at all.
theorem getD_nullable (hnull : read .null = none)
    (h : ∀ held ∈ value, read (write held) = some held) :
    ((value.map write).map (nullable read)).getD (some none) = some value := by
  cases value with
  | none => rfl
  | some held => exact nullable_of_read hnull (h held rfl)

end Nullable

end Record

end FiveStage.Json
