import FieldSearch.Definition.Basic

/-!
The list of the searchable fields of a definition, with everything that a definition leaves to its
defaults filled in.
-/

namespace FieldSearch

def Field.summary (field : Field) : Json :=
  .object <|
    [("name", .string field.name), ("type", .string field.type.name),
      ("column", .string field.columnSql), ("default_operator", .string field.defaultOperator.name),
      ("only_explicit", .boolean field.onlyExplicit)] ++ field.aliasMembers

def Definition.summary (definition : Definition) : Json :=
  .array (definition.fields.map Field.summary)

end FieldSearch
