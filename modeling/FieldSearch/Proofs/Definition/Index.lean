import FieldSearch.Definition.Basic
import Mathlib.Data.List.Nodup

/-! What an index knows. Names are entered one after another, and the first that is known already, or
stands twice, puts an end to it. An index belongs to a list of fields if every name leads to the
position of the field that has it. This holds of an index without entries and no fields, and goes on
to hold as fields are put behind the others with all their names. -/

namespace FieldSearch

/-! ### New names -/

/-- The names are all different, and none of them is known. -/
def AreNew (known names : List String) : Prop :=
  names.Nodup ∧ known.Disjoint names

theorem areNew_nil (known : List String) : AreNew known [] :=
  ⟨.nil, List.disjoint_nil_right known⟩

/-- Names come to be known one after another. -/
theorem areNew_append {known names more : List String} :
    AreNew known (names ++ more) ↔ AreNew known names ∧ AreNew (known ++ names) more := by
  unfold AreNew
  rw [List.nodup_append', List.disjoint_append_right, List.disjoint_append_left]
  tauto

theorem areNew_singleton {known : List String} {name : String} :
    AreNew known [name] ↔ name ∉ known := by
  simp [AreNew]

theorem areNew_cons {known names : List String} {name : String} :
    AreNew known (name :: names) ↔ name ∉ known ∧ AreNew (known ++ [name]) names := by
  have hsplit : AreNew known ([name] ++ names) ↔ _ := areNew_append
  rwa [areNew_singleton] at hsplit

/-- The names are new, or there is a first among them that is known, or stands before itself. -/
theorem areNew_or_known (known names : List String) :
    AreNew known names ∨
      ∃ before name after, names = before ++ name :: after ∧ AreNew known before ∧
        name ∈ known ++ before := by
  induction names generalizing known with
  | nil => exact .inl (areNew_nil known)
  | cons name names ih =>
      by_cases hname : name ∈ known
      · exact .inr ⟨[], name, names, rfl, areNew_nil known, by simpa using hname⟩
      · rcases ih (known ++ [name]) with hnew | ⟨before, other, after, rfl, hbefore, hother⟩
        · exact .inl (areNew_cons.mpr ⟨hname, hnew⟩)
        · refine .inr ⟨name :: before, other, after, rfl, areNew_cons.mpr ⟨hname, hbefore⟩, ?_⟩
          simpa using hother

namespace Index

variable {index index' : Index} {known names : List String} {position : Nat}

/-! ### Entering names -/

/-- The names that lead somewhere are those that are known. -/
def Knows (index : Index) (known : List String) : Prop :=
  ∀ name, (index.position? name).isSome ↔ name ∈ known

theorem knows_empty : Knows {} [] := by
  simp [Knows]

theorem Knows.insert (hknows : index.Knows known) (name : String) (position : Nat) :
    (index.insert name position).Knows (known ++ [name]) := by
  intro other
  rw [position?_insert, List.mem_append, List.mem_singleton, ← hknows other]
  by_cases hsame : other = name <;> simp [hsame]

/-- Names that are entered lead to the position, and the others where they led before. -/
theorem position?_insertAll (hentered : index.insertAll position names = .ok index')
    (name : String) :
    index'.position? name = if name ∈ names then some position else index.position? name := by
  induction names generalizing index with
  | nil =>
      obtain rfl : index = index' := Except.ok.inj hentered
      simp
  | cons first names ih =>
      unfold insertAll at hentered
      split at hentered
      · cases hentered
      · rw [ih hentered, position?_insert]
        by_cases hfirst : name = first <;> by_cases hmem : name ∈ names <;> simp [hfirst, hmem]

/-- All names are entered if they are new. -/
theorem exists_insertAll (hknows : index.Knows known) (hnew : AreNew known names)
    (position : Nat) : ∃ index', index.insertAll position names = .ok index' := by
  induction names generalizing index known with
  | nil => exact ⟨index, rfl⟩
  | cons name names ih =>
      obtain ⟨hname, hnames⟩ := areNew_cons.mp hnew
      unfold insertAll
      rw [if_neg (by rwa [hknows name])]
      exact ih (hknows.insert name position) hnames

/-- A name is refused that is known, or stands before itself, if those before it are new. -/
theorem insertAll_of_known (hknows : index.Knows known) {before : List String}
    {name : String} (hbefore : AreNew known before) (hname : name ∈ known ++ before)
    (after : List String) (position : Nat) :
    index.insertAll position (before ++ name :: after) = .error name := by
  induction before generalizing index known with
  | nil =>
      rw [List.append_nil] at hname
      rw [List.nil_append, insertAll, if_pos ((hknows name).mpr hname)]
  | cons first before ih =>
      obtain ⟨hfirst, hrest⟩ := areNew_cons.mp hbefore
      rw [List.cons_append, insertAll, if_neg (by rwa [hknows first])]
      exact ih (hknows.insert first position) hrest (by simpa using hname)

/-! ### Where names lead -/

/-- Every name leads to the position of the field that has it, and no other name leads anywhere. -/
def Locates (index : Index) (fields : List Field) : Prop :=
  ∀ name position, index.position? name = some position ↔
    ∃ field, fields[position]? = some field ∧ name ∈ field.names

variable {fields : List Field} {field other : Field} {name : String}

theorem locates_empty : Locates {} [] := by
  simp [Locates]

/-- A name is a name of one field only. -/
theorem Locates.position_unique (hlocates : index.Locates fields) {position' : Nat}
    (hfield : fields[position]? = some field) (hname : name ∈ field.names)
    (hother : fields[position']? = some other) (hname' : name ∈ other.names) :
    position = position' := by
  have hfound := (hlocates name position).mpr ⟨field, hfield, hname⟩
  have hfound' := (hlocates name position').mpr ⟨other, hother, hname'⟩
  exact Option.some.inj (hfound.symm.trans hfound')

/-- The names that are known are those of the fields. -/
theorem Locates.knows (hlocates : index.Locates fields) :
    index.Knows (fields.flatMap Field.names) := by
  intro name
  rw [Option.isSome_iff_exists, List.mem_flatMap]
  constructor
  · rintro ⟨position, hposition⟩
    obtain ⟨field, hfield, hname⟩ := (hlocates name position).mp hposition
    exact ⟨field, List.mem_of_getElem? hfield, hname⟩
  · rintro ⟨field, hmem, hname⟩
    obtain ⟨position, hfield⟩ := List.mem_iff_getElem?.mp hmem
    exact ⟨position, (hlocates name position).mpr ⟨field, hfield, hname⟩⟩

/-- A field goes behind the others, and its names, none of which is known, lead there. -/
theorem Locates.concat (hlocates : index.Locates fields)
    (hnew : AreNew (fields.flatMap Field.names) field.names)
    (hentered : index.insertAll fields.length field.names = .ok index') :
    index'.Locates (fields ++ [field]) := by
  intro name position
  rw [position?_insertAll hentered, List.getElem?_append]
  by_cases hname : name ∈ field.names
  · rw [if_pos hname, Option.some_inj]
    constructor
    · rintro rfl
      exact ⟨field, by simp, hname⟩
    · rintro ⟨other, hother, hname'⟩
      split at hother
      · have hknown := List.mem_flatMap.mpr ⟨other, List.mem_of_getElem? hother, hname'⟩
        exact absurd hname (hnew.2 hknown)
      · have hlast := (List.getElem?_eq_some_iff.mp hother).1
        rw [List.length_singleton] at hlast
        omega
  · rw [if_neg hname, hlocates name position]
    constructor
    · rintro ⟨other, hother, hname'⟩
      have hlt := (List.getElem?_eq_some_iff.mp hother).1
      exact ⟨other, by rw [if_pos hlt, hother], hname'⟩
    · rintro ⟨other, hother, hname'⟩
      split at hother
      · exact ⟨other, hother, hname'⟩
      · obtain rfl := List.mem_singleton.mp (List.mem_of_getElem? hother)
        exact absurd hname' hname

/-- A name of one field is no name of any other. -/
theorem Locates.not_mem_names (hlocates : index.Locates fields) {before after : List Field}
    (hfields : fields = before ++ field :: after) (hname : name ∈ field.names) :
    ∀ other ∈ before ++ after, name ∉ other.names := by
  intro other hother hname'
  have hfield : fields[before.length]? = some field := by simp [hfields]
  rcases List.mem_append.mp hother with hbefore | hafter
  · obtain ⟨position, hposition⟩ := List.mem_iff_getElem?.mp hbefore
    have hlt := (List.getElem?_eq_some_iff.mp hposition).1
    have hsame := hlocates.position_unique hfield hname
      (by rw [hfields, List.getElem?_append_left hlt, hposition]) hname'
    omega
  · obtain ⟨position, hposition⟩ := List.mem_iff_getElem?.mp hafter
    have hafter : fields[before.length + (position + 1)]? = some other := by
      rw [hfields, List.getElem?_append_right (Nat.le_add_right _ _), Nat.add_sub_cancel_left,
        List.getElem?_cons_succ, hposition]
    have hsame := hlocates.position_unique hfield hname hafter hname'
    omega

end Index

end FieldSearch
