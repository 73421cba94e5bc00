import FieldSearch.Definition.Basic

/-!
Definitions to try queries on: users, issues whose times are read in Berlin and whose reporter stands
in another table, and people as they are built.
-/

namespace FieldSearch.Sample

def users : Document where
  table := "users"
  timeZone := none
  fields :=
    [{ name := "name", type := .string },
      { name := "email", type := .string, onlyExplicit := true, aliases := ["mail"] },
      { name := "age", type := .integer },
      { name := "born_on", type := .date },
      { name := "created_at", type := .timestamp },
      { name := "bio", type := .text }]

def issues : Document where
  table := "issues"
  timeZone := some "Europe/Berlin"
  fields :=
    [{ name := "title", type := .string },
      { name := "status", type := .string, defaultOperator? := some .eq },
      { name := "priority", type := .integer },
      { name := "created_at", type := .datetime },
      { name := "reporter", type := .string, table := some "users", column := some "login",
        aliases := ["author"], onlyExplicit := true }]

def people : Definition where
  table := "people"
  zone := .utc
  fields :=
    [{ name := "name", type := .string, table := some "people" },
      { name := "born_on", type := .date, table := some "people" }]
  index := ⟨[("born_on", 1), ("name", 0)]⟩

end FieldSearch.Sample
