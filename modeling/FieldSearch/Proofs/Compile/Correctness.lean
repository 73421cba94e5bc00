import FieldSearch.Definition.Sample
import FieldSearch.Proofs.Compile.Meaning

/-! Compiled queries ask what they should. Where the columns have dotted names, the text that a
query compiles to is the text of one condition only; evaluated with the values that were bound,
which it takes one for each placeholder, that condition is true of a row if and only if the row
satisfies the query. -/

namespace FieldSearch

/-- The condition, if there is one, can be read back from its text. -/
def Yield.IsPlain (yield : Yield) : Prop :=
  ∀ condition, yield.condition = some condition → condition.IsPlain

theorem Yield.IsPlain.join {op : Connective} {yields : List Yield}
    (hplain : ∀ yield ∈ yields, yield.IsPlain) : (Yield.join op yields).IsPlain := by
  have hpresent : ∀ condition ∈ (yields.map Yield.condition).filterMap id, condition.IsPlain := by
    intro condition hcondition
    obtain ⟨found, hfound, rfl⟩ := List.mem_filterMap.mp hcondition
    obtain ⟨yield, hyield, hsome⟩ := List.mem_map.mp hfound
    exact hplain yield hyield condition hsome
  intro condition hcondition
  unfold Yield.join Condition.join at hcondition
  generalize (yields.map Yield.condition).filterMap id = present at hpresent hcondition
  match present with
  | [] => cases hcondition
  | [only] =>
      cases hcondition
      exact .single (hpresent only (by simp))
  | first :: second :: rest =>
      cases hcondition
      exact .list (hpresent first (by simp)) (hpresent second (by simp))
        fun other hother => hpresent other (by simp [hother])

theorem Field.yield_isPlain {field : Field} {zone : Calendar.Zone} {token value : String}
    {op : Operator} (hcolumn : IsDottedName field.columnSql) (htoken : op.token? = some token) :
    (field.yield zone token op value).IsPlain := by
  intro condition hcondition
  unfold Field.yield at hcondition
  split at hcondition
  · cases hcondition
    exact .test hcolumn htoken
  · cases hcondition

theorem TestsTo.join_isPlain {definition : Definition} {op : Field → Operator} {value : String}
    {given : Option Operator} {yields : List Yield}
    (hcolumns : ∀ field ∈ definition.fields, IsDottedName field.columnSql)
    (htests : TestsTo definition.zone op value (definition.defaultFields value given) yields) :
    (Yield.join .or yields).IsPlain := by
  apply Yield.IsPlain.join
  intro yield hyield
  obtain ⟨field, hfield, token, htoken, rfl⟩ := htests.exists_of_mem hyield
  exact Field.yield_isPlain (hcolumns field (Definition.mem_of_mem_defaultFields hfield)) htoken

/-- Trees over dotted columns compile to conditions that can be read back. -/
theorem Node.CompilesTo.isPlain {definition : Definition}
    (hcolumns : ∀ field ∈ definition.fields, IsDottedName field.columnSql) {node : Node}
    {yield : Yield} (hcompiles : node.CompilesTo definition yield) : yield.IsPlain := by
  refine Node.CompilesTo.induction ?keyword ?prefixed ?named ?negation ?droppedNegation ?logical
    hcompiles
  case keyword =>
      intro value yields _ htests
      exact htests.join_isPlain hcolumns
  case prefixed =>
      intro op value yields _ _ htests
      exact htests.join_isPlain hcolumns
  case named =>
      intro op name field token value hfield htoken
      exact Field.yield_isPlain (hcolumns field (Definition.mem_of_field? hfield)) htoken
  case negation =>
      rintro operand condition bound hplain _ ⟨⟩
      exact .negation (hplain condition rfl)
  case droppedNegation =>
      rintro operand bound _ _ ⟨⟩
  case logical =>
      intro op operands yields _ hmembers
      apply Yield.IsPlain.join
      intro yield hyield
      obtain ⟨operand, _, hplain⟩ := exists_mem_of_forall₂ hmembers hyield
      exact hplain

/-- A compiled query is the text of one condition, which is true if and only if the query holds. -/
theorem Renderer.compile_correct {definition : Definition}
    (hcolumns : ∀ field ∈ definition.fields, IsDottedName field.columnSql) {node : Node}
    {sql : String} {after : Renderer}
    (hcompile : ({ registry := definition.registry } : Renderer).compile node =
      (.ok (some sql), after)) :
    ∃ condition : Condition, condition.IsPlain ∧ condition.sql = sql ∧
      (∀ other : Condition, other.IsPlain → other.sql = sql → other = condition) ∧
      ∀ oracle, ∃ truth answer, condition.eval? oracle after.params = some (truth, []) ∧
        node.holds? definition oracle = some answer ∧ (truth = .yes ↔ answer = true) := by
  obtain ⟨found, trace, hrun, hsql, hparams⟩ := takeFragment_eq_ok hcompile
  obtain ⟨condition, rfl, rfl⟩ := Option.map_eq_some_iff.mp hsql.symm
  have hcompiles := Node.compilesTo_of_compile hrun
  have hplain := hcompiles.isPlain hcolumns condition rfl
  refine ⟨condition, hplain, rfl, fun other hother hsame => ?_, fun oracle => ?_⟩
  · exact hother.eq_of_sql_eq hplain hsame
  · have hmeans : Yield.Means oracle _ (node.holds? definition oracle) := hcompiles.means
    generalize node.holds? definition oracle = answer at hmeans ⊢
    cases hmeans with
    | @condition _ _ truth answer heval htruth =>
        refine ⟨truth, answer, ?_, rfl, htruth⟩
        simpa [hparams] using heval []

/-- A comparison under a negation, beside one that is dropped. -/
theorem Renderer.compile_correct_negation :
    ∃ condition : Condition, condition.IsPlain ∧
      condition.sql = "((NOT(people.name LIKE ?) OR people.name LIKE ? IS NULL))" ∧
      (∀ other : Condition, other.IsPlain →
        other.sql = "((NOT(people.name LIKE ?) OR people.name LIKE ? IS NULL))" →
          other = condition) ∧
      ∀ oracle, ∃ truth answer,
        condition.eval? oracle [.string "%Ann%", .string "%Ann%"] = some (truth, []) ∧
        (Node.logical .and
          [.not (.comparison "name" .like "Ann"), .comparison "born_on" .gte "soon"]).holds?
            Sample.people oracle = some answer ∧ (truth = .yes ↔ answer = true) := by
  have hcolumns : ∀ field ∈ Sample.people.fields, IsDottedName field.columnSql := by decide
  have hcompile : ({ registry := Sample.people.registry } : Renderer).compile (.logical .and
      [.not (.comparison "name" .like "Ann"), .comparison "born_on" .gte "soon"]) =
      (.ok (some "((NOT(people.name LIKE ?) OR people.name LIKE ? IS NULL))"),
        ⟨Sample.people.registry, [.string "%Ann%", .string "%Ann%"], 3⟩) := rfl
  exact compile_correct hcolumns hcompile

end FieldSearch
