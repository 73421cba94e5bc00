import FieldSearch.Definition.Sample
import FieldSearch.Proofs.Compile.Defaults
import FieldSearch.Proofs.Compile.Run
import FieldSearch.Proofs.Condition.Written
import FieldSearch.Search.Expectation

/-! Placeholders and parameters. Every value is bound together with the placeholder that it is for,
and what is dropped binds nothing, so the parameters stand in the order of the placeholders. The
text of a compiled query is cut behind its placeholders: before each of them stand a column and a
comparison, and the parameter for it is what the query compares that column with. -/

namespace FieldSearch

/-- The tests that a query asks for: of a field, by an operator, with a value as it is written. -/
inductive Node.Asks (definition : Definition) : Node → Field → Operator → String → Prop
  | keyword {value field} : field ∈ definition.defaultFields value none →
      Asks definition (.leaf value) field field.defaultOperator value
  | prefixed {op value field} : field ∈ definition.defaultFields value (some op) →
      Asks definition (.operator op [.leaf value]) field op value
  | named {op name value field} : definition.field? name = some field →
      Asks definition (.operator op [.leaf name, .leaf value]) field op value
  | negated {operand field op value} : Asks definition operand field op value →
      Asks definition (.operator .not [operand]) field op value
  | member {connective operands operand field op value} : operand ∈ operands →
      Asks definition operand field op value →
      Asks definition (.logical connective operands) field op value

/-- Only fields of the definition are asked for. -/
theorem Node.Asks.mem_fields {definition : Definition} {node : Node} {field : Field}
    {op : Operator} {value : String} (hasks : node.Asks definition field op value) :
    field ∈ definition.fields := by
  induction hasks with
  | keyword hfield => exact Definition.mem_of_mem_defaultFields hfield
  | prefixed hfield => exact Definition.mem_of_mem_defaultFields hfield
  | named hfield => exact Definition.mem_of_field? hfield
  | negated _ ih => exact ih
  | member _ _ ih => exact ih

/-- The text is cut behind its placeholders, each of which ends a test that is asked for; the values
are, in this order, what these tests bind. Apart from columns there is no other question mark. -/
inductive CutAtPlaceholders (zone : Calendar.Zone) (asks : Field → Operator → String → Prop) :
    String → List BindValue → Prop
  | rest {text : String} : '?' ∉ text.toList → CutAtPlaceholders zone asks text []
  | placeholder {before token raw text : String} {field : Field} {op : Operator}
      {value : BindValue} {values : List BindValue} :
      '?' ∉ before.toList → asks field op raw → op.token? = some token →
      field.boundValue? zone op raw = some value → CutAtPlaceholders zone asks text values →
      CutAtPlaceholders zone asks
        (before ++ field.columnSql ++ " " ++ token ++ " ?" ++ text) (value :: values)

namespace CutAtPlaceholders

variable {zone : Calendar.Zone} {asks asks' : Field → Operator → String → Prop}
  {text text' : String} {values values' : List BindValue}

theorem mono (hasks : ∀ field op raw, asks field op raw → asks' field op raw)
    (hcut : CutAtPlaceholders zone asks text values) :
    CutAtPlaceholders zone asks' text values := by
  induction hcut with
  | rest htext => exact .rest htext
  | placeholder hbefore hask htoken hvalue _ ih =>
      exact .placeholder hbefore (hasks _ _ _ hask) htoken hvalue ih

/-- Text without placeholders may stand before. -/
theorem prepend {before : String} (hbefore : '?' ∉ before.toList)
    (hcut : CutAtPlaceholders zone asks text values) :
    CutAtPlaceholders zone asks (before ++ text) values := by
  cases hcut with
  | rest htext => exact .rest (by simp [hbefore, htext])
  | @placeholder before' token raw text field op value values hbefore' hask htoken hvalue hrest =>
      have hboth : '?' ∉ (before ++ before').toList := by simp [hbefore, hbefore']
      have hcut := placeholder hboth hask htoken hvalue hrest
      simpa only [String.append_assoc] using hcut

theorem append (hcut : CutAtPlaceholders zone asks text values)
    (hcut' : CutAtPlaceholders zone asks text' values') :
    CutAtPlaceholders zone asks (text ++ text') (values ++ values') := by
  induction hcut with
  | rest htext => exact hcut'.prepend htext
  | placeholder hbefore hask htoken hvalue _ ih =>
      have hcut := placeholder hbefore hask htoken hvalue ih
      simpa only [String.append_assoc, List.cons_append] using hcut

/-- Text without placeholders may stand around. -/
theorem enclose (before behind : String) (hbefore : '?' ∉ before.toList)
    (hbehind : '?' ∉ behind.toList) (hcut : CutAtPlaceholders zone asks text values) :
    CutAtPlaceholders zone asks (before ++ text ++ behind) values := by
  have hclosed := (hcut.prepend hbefore).append (.rest hbehind)
  rwa [List.append_nil] at hclosed

/-- Where no column has a question mark, there are as many as there are values. -/
theorem count_eq (hcolumns : ∀ field op raw, asks field op raw → '?' ∉ field.columnSql.toList)
    (hcut : CutAtPlaceholders zone asks text values) : text.toList.count '?' = values.length := by
  induction hcut with
  | rest htext => exact List.count_eq_zero.mpr htext
  | placeholder hbefore hask htoken _ _ ih =>
      have hcolumn := hcolumns _ _ _ hask
      have htoken := Operator.token?_not_mem htoken
      simp only [String.toList_append, List.count_append, ih, List.count_eq_zero.mpr hbefore,
        List.count_eq_zero.mpr hcolumn, List.count_eq_zero.mpr htoken, List.length_cons]
      simp [Nat.add_comm]

end CutAtPlaceholders

/-! ### Yields

What a tree yields is cut as it should be, or nothing is left of it and nothing bound. -/

/-- The values are those for the placeholders of the condition; without a condition there are none.
-/
def Yield.IsAligned (zone : Calendar.Zone) (asks : Field → Operator → String → Prop)
    (yield : Yield) : Prop :=
  match yield.condition with
  | some condition => CutAtPlaceholders zone asks condition.sql yield.bound
  | none => yield.bound = []

theorem Connective.not_mem_separator (op : Connective) : '?' ∉ op.separator.toList := by
  cases op <;> decide

/-- The text of a list is that of its first member, and of the others behind separators. -/
theorem Condition.exists_join_some (op : Connective) (condition : Condition)
    (conditions : List (Option Condition)) :
    ∃ joined, join op (some condition :: conditions) = some joined ∧
      joined.sql = "(" ++ condition.sql ++ sqlAfter op (conditions.filterMap id) ++ ")" := by
  have hfilter : (some condition :: conditions).filterMap id =
      condition :: conditions.filterMap id := rfl
  unfold join
  rw [hfilter]
  cases conditions.filterMap id with
  | nil => exact ⟨_, rfl, by simp [sql, sqlAfter]⟩
  | cons second rest => exact ⟨_, rfl, by simp [sql, sqlAfter, String.append_assoc]⟩

section Yields

variable {zone : Calendar.Zone} {asks asks' : Field → Operator → String → Prop}

theorem Yield.IsAligned.mono (hasks : ∀ field op raw, asks field op raw → asks' field op raw)
    {yield : Yield} (haligned : yield.IsAligned zone asks) : yield.IsAligned zone asks' := by
  unfold IsAligned at haligned ⊢
  split at haligned
  · exact haligned.mono hasks
  · exact haligned

theorem CutAtPlaceholders.sqlAfter (op : Connective) {yields : List Yield}
    (haligned : ∀ yield ∈ yields, yield.IsAligned zone asks) :
    CutAtPlaceholders zone asks
      (Condition.sqlAfter op ((yields.map Yield.condition).filterMap id))
      (yields.flatMap Yield.bound) := by
  induction yields with
  | nil => exact .rest (by simp [Condition.sqlAfter])
  | cons yield yields ih =>
      have hfirst := haligned yield (by simp)
      have hrest := ih fun yield hyield => haligned yield (by simp [hyield])
      obtain ⟨found, bound⟩ := yield
      cases found with
      | none =>
          obtain rfl : bound = [] := hfirst
          exact hrest
      | some condition =>
          have hcut : CutAtPlaceholders zone asks condition.sql bound := hfirst
          exact (hcut.prepend op.not_mem_separator).append hrest

/-- Members that are dropped bind nothing, so a list is aligned like its other members. -/
theorem Yield.IsAligned.join (op : Connective) {yields : List Yield}
    (haligned : ∀ yield ∈ yields, yield.IsAligned zone asks) :
    (Yield.join op yields).IsAligned zone asks := by
  induction yields with
  | nil => rfl
  | cons yield yields ih =>
      have hfirst := haligned yield (by simp)
      have hrest : ∀ yield ∈ yields, yield.IsAligned zone asks :=
        fun yield hyield => haligned yield (by simp [hyield])
      obtain ⟨found, bound⟩ := yield
      cases found with
      | none =>
          obtain rfl : bound = [] := hfirst
          exact ih hrest
      | some condition =>
          have hcut : CutAtPlaceholders zone asks condition.sql bound := hfirst
          have hmembers :=
            (hcut.append (.sqlAfter op hrest)).enclose "(" ")" (by decide) (by decide)
          obtain ⟨joined, hjoined, hsql⟩ :=
            Condition.exists_join_some op condition (yields.map Yield.condition)
          have hyield : Yield.join op (⟨some condition, bound⟩ :: yields) =
              ⟨some joined, bound ++ yields.flatMap Yield.bound⟩ := by
            simp [Yield.join, hjoined]
          rw [hyield]
          simpa only [Yield.IsAligned, hsql, String.append_assoc] using hmembers

/-- A test binds what its field compares the column with. -/
theorem Field.yield_isAligned {field : Field} {token raw : String} {op : Operator}
    (hask : asks field op raw) (htoken : op.token? = some token) :
    (field.yield zone token op raw).IsAligned zone asks := by
  unfold Field.yield
  cases hvalue : field.boundValue? zone op raw with
  | none => rfl
  | some value =>
      have hcut : CutAtPlaceholders zone asks
          ("" ++ field.columnSql ++ " " ++ token ++ " ?" ++ "") [value] :=
        .placeholder (by simp) hask htoken hvalue (.rest (by simp))
      simpa [Yield.IsAligned, Condition.sql] using hcut

theorem TestsTo.join_isAligned {op : Field → Operator} {raw : String} {fields : List Field}
    {yields : List Yield} (htests : TestsTo zone op raw fields yields)
    (hasks : ∀ field ∈ fields, asks field (op field) raw) :
    (Yield.join .or yields).IsAligned zone asks := by
  apply Yield.IsAligned.join .or
  intro yield hyield
  obtain ⟨field, hfield, token, htoken, rfl⟩ := htests.exists_of_mem hyield
  exact Field.yield_isAligned (hasks field hfield) htoken

end Yields

/-- What a tree compiles to is cut at the tests that the tree asks for. -/
theorem Node.CompilesTo.isAligned {definition : Definition} {node : Node} {yield : Yield}
    (hcompiles : node.CompilesTo definition yield) :
    yield.IsAligned definition.zone (node.Asks definition) := by
  refine Node.CompilesTo.induction ?keyword ?prefixed ?named ?negation ?droppedNegation ?logical
    hcompiles
  case keyword =>
      intro value yields _ htests
      exact htests.join_isAligned fun field hfield => .keyword hfield
  case prefixed =>
      intro op value yields _ _ htests
      exact htests.join_isAligned fun field hfield => .prefixed hfield
  case named =>
      intro op name field token value hfield htoken
      exact Field.yield_isAligned (.named hfield) htoken
  case negation =>
      intro operand condition bound haligned
      have hcut : CutAtPlaceholders definition.zone
          ((operator .not [operand]).Asks definition) condition.sql bound :=
        haligned.mono fun _ _ _ => .negated
      have hboth := (hcut.enclose "(NOT(" ") OR " (by decide) (by decide)).append
        (hcut.enclose "" " IS NULL)" (by decide) (by decide))
      simpa [Yield.IsAligned, Condition.sql, String.append_assoc] using hboth
  case droppedNegation =>
      intro operand bound haligned
      exact haligned.mono fun _ _ _ => .negated
  case logical =>
      intro op operands yields _ hmembers
      apply Yield.IsAligned.join op
      intro yield hyield
      obtain ⟨operand, hoperand, haligned⟩ := exists_mem_of_forall₂ hmembers hyield
      exact haligned.mono fun _ _ _ => .member hoperand

/-! ### Searches -/

/-- A search that compiles has as many parameters as placeholders, and none without a condition. -/
theorem Search.params_of_ofNode {definition : Definition}
    (hcolumns : ∀ field ∈ definition.fields, '?' ∉ field.columnSql.toList) {node : Node}
    {search : Search} (hsearch : ofNode definition.registry node = .ok search) :
    search.params.length = search.placeholderCount ∧
      (search.condition = none → search.params = []) := by
  unfold ofNode at hsearch
  split at hsearch
  next => cases hsearch
  next condition trace hrun =>
      obtain rfl := Except.ok.inj hsearch
      have haligned := (Node.compilesTo_of_compile hrun).isAligned
      cases condition with
      | none => exact ⟨rfl, fun _ => rfl⟩
      | some condition =>
          have hcount : condition.sql.toList.count '?' = trace.bound.length :=
            haligned.count_eq fun field _ _ hasks => hcolumns field hasks.mem_fields
          exact ⟨hcount.symm, fun hnone => nomatch hnone⟩

theorem Search.params_of_ofQuery {definition : Definition}
    (hcolumns : ∀ field ∈ definition.fields, '?' ∉ field.columnSql.toList)
    {query : Option String} {search : Search}
    (hsearch : ofQuery definition.registry query = .ok search) :
    search.params.length = search.placeholderCount ∧
      (search.condition = none → search.params = []) := by
  unfold ofQuery at hsearch
  split at hsearch
  · obtain rfl := Except.ok.inj hsearch
    exact ⟨rfl, fun _ => rfl⟩
  · split at hsearch
    · obtain rfl := Except.ok.inj hsearch
      exact ⟨rfl, fun _ => rfl⟩
    · split at hsearch
      · cases hsearch
      · split at hsearch
        next => cases hsearch
        next found hfound =>
            obtain rfl := Except.ok.inj hsearch
            exact params_of_ofNode hcolumns hfound

/-- A renderer binds one value for each placeholder, and none where nothing is left to test. -/
theorem Renderer.compile_aligned (definition : Definition) :
    (∀ (renderer : Renderer), renderer.registry = definition.registry →
      ∀ (node : Node) (depth : Nat) (fragment : Fragment) (after : Renderer),
      renderer.takeFragment (node.compile renderer.registry depth) = (.ok fragment, after) →
      ∃ values, after.params = renderer.params ++ values ∧ (fragment = none → values = []) ∧
        ∀ sql, fragment = some sql →
          CutAtPlaceholders definition.zone (node.Asks definition) sql values) ∧
    ((∀ field ∈ definition.fields, '?' ∉ field.columnSql.toList) →
      (∀ node search, Search.ofNode definition.registry node = .ok search →
        search.params.length = search.placeholderCount ∧
          (search.condition = none → search.params = [])) ∧
      ∀ query search, Search.ofQuery definition.registry query = .ok search →
        search.params.length = search.placeholderCount ∧
          (search.condition = none → search.params = [])) := by
  refine ⟨fun renderer hregistry node depth fragment after hcompile => ?_, fun hcolumns => ?_⟩
  · rw [hregistry] at hcompile
    obtain ⟨condition, trace, hrun, rfl, hparams⟩ := takeFragment_eq_ok hcompile
    have haligned := (Node.compilesTo_of_compile hrun).isAligned
    refine ⟨trace.bound, hparams, ?_, ?_⟩
    · intro hnone
      obtain rfl := Option.map_eq_none_iff.mp hnone
      exact haligned
    · intro sql hsome
      obtain ⟨condition, rfl, rfl⟩ := Option.map_eq_some_iff.mp hsome
      exact haligned
  · exact ⟨fun node search => Search.params_of_ofNode hcolumns,
      fun query search => Search.params_of_ofQuery hcolumns⟩

/-- A negation behind a parameter that was there before, and a term that is dropped. -/
theorem Renderer.compile_aligned_negation :
    (∃ values, [.string "given", .string "%Ann%", .string "%Ann%"] =
        [BindValue.string "given"] ++ values ∧
      CutAtPlaceholders .utc ((Node.logical .and
          [.not (.comparison "name" .like "Ann"), .comparison "born_on" .gte "soon"]).Asks
            Sample.people)
        "((NOT(people.name LIKE ?) OR people.name LIKE ? IS NULL))" values) ∧
    (⟨none, []⟩ : Search).params.length = (⟨none, []⟩ : Search).placeholderCount := by
  obtain ⟨hrenderer, hsearch⟩ := compile_aligned Sample.people
  have hcolumns : ∀ field ∈ Sample.people.fields, '?' ∉ field.columnSql.toList := by decide
  obtain ⟨values, hparams, -, hcut⟩ :=
    hrenderer ⟨Sample.people.registry, [.string "given"], 1⟩ rfl (.logical .and
      [.not (.comparison "name" .like "Ann"), .comparison "born_on" .gte "soon"]) 0
      (some "((NOT(people.name LIKE ?) OR people.name LIKE ? IS NULL))")
      ⟨Sample.people.registry, [.string "given", .string "%Ann%", .string "%Ann%"], 4⟩ rfl
  obtain ⟨hnode, -⟩ := hsearch hcolumns
  exact ⟨⟨values, hparams, hcut _ rfl⟩,
    (hnode (.comparison "born_on" .gte "soon") ⟨none, []⟩ rfl).1⟩

end FieldSearch
