import FieldSearch.Definition.Basic

/-!
Where the compiler looks up fields. A registry may give another answer at each look-up, which is why
the number of look-ups made before comes with every question; a definition always gives the same.
-/

namespace FieldSearch

structure Registry where
  field? : Nat → String → Option Field
  defaultFields : Nat → String → Option Operator → List Field
  zone : Calendar.Zone

namespace Definition

/-- The fields of a definition, with times read in a zone. -/
def registryIn (definition : Definition) (zone : Calendar.Zone) : Registry where
  field? _ := definition.field?
  defaultFields _ := definition.defaultFields
  zone := zone

def registry (definition : Definition) : Registry :=
  definition.registryIn definition.zone

end Definition

namespace Registry

/-- Each look-up is answered by the next registry, the last one answers all that come after it. -/
def changing (first : Registry) : List Registry → Registry
  | [] => first
  | next :: later =>
    let others := changing next later
    { field? := fun n => if n = 0 then first.field? 0 else others.field? (n - 1)
      defaultFields := fun n =>
        if n = 0 then first.defaultFields 0 else others.defaultFields (n - 1)
      zone := first.zone }

end Registry

end FieldSearch
