/-!
Indices: names that lead to the positions of fields. A name leads to what was entered for it last.
-/

namespace FieldSearch

/-- Names and where they lead, the latest entry first. -/
structure Index where
  entries : List (String × Nat) := []
  deriving DecidableEq, Repr

namespace Index

def position? (index : Index) (name : String) : Option Nat :=
  index.entries.lookup name

def insert (index : Index) (name : String) (position : Nat) : Index :=
  ⟨(name, position) :: index.entries⟩

@[simp]
theorem position?_empty (name : String) : ({} : Index).position? name = none :=
  rfl

@[simp]
theorem position?_insert (index : Index) (name other : String) (position : Nat) :
    (index.insert name position).position? other =
      if other = name then some position else index.position? other := by
  unfold position? insert
  rw [List.lookup_cons]
  by_cases hsame : other = name
  · rw [if_pos hsame, beq_iff_eq.mpr hsame]
  · rw [if_neg hsame, beq_false_of_ne hsame]

/-- Enters all names for one position, up to the first that leads somewhere already. -/
def insertAll (position : Nat) (index : Index) : List String → Except String Index
  | [] => .ok index
  | name :: names =>
    if (index.position? name).isSome then .error name
    else insertAll position (index.insert name position) names

end Index

end FieldSearch
