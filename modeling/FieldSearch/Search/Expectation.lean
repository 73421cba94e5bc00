import FieldSearch.Search

/-!
What a compiled search is expected to be, for checks of definitions against example queries.
-/

namespace FieldSearch

namespace Search

/-- The number of placeholders in the condition. -/
def placeholderCount (search : Search) : Nat :=
  match search.condition with
  | some sql => sql.toList.count '?'
  | none => 0

/-- Nothing is restricted and nothing bound. -/
def matchesAll (search : Search) : Bool :=
  search.isMatchAll && search.params.isEmpty

/-- The condition and the parameters are these, and there is a parameter for every placeholder. -/
def meets (search : Search) (sql : String) (params : List BindValue) : Bool :=
  search.condition == some sql && search.params == params &&
    search.placeholderCount == search.params.length

/-- The search for a query that should compile, or what to say if it does not. -/
def expected (definition : Definition) (query : String) : Except String Search :=
  match ofQuery definition.registry (some query) with
  | .ok search => .ok search
  | .error error => .error ("failed to compile " ++ Text.quoted query ++ ": " ++ error.message)

end Search

end FieldSearch
