import FieldSearch.Proofs.Compile.Defaults
import FieldSearch.Proofs.Compile.Run
import FieldSearch.Proofs.Condition.Truth
import FieldSearch.Proofs.Condition.Written

/-! What a query asks of a row, and that the compiled condition asks the same. A query is answered
by yes or no, given what each test says of the row; SQL has a third answer, which a negation turns
into yes. A term whose test is dropped asks nothing, and neither does a list or a negation of such
terms; in other lists they are passed over. -/

namespace FieldSearch

/-- Whether the test of the field is true, unless it is dropped. -/
def Field.holds? (field : Field) (zone : Calendar.Zone) (oracle : Oracle) (op : Operator)
    (value : String) : Option Bool := do
  let token ← op.token?
  let bound ← field.boundValue? zone op value
  return oracle field.columnSql token bound == .yes

/-- The answer of a list, of the members that ask anything. -/
def Connective.holds? (op : Connective) (members : List (Option Bool)) : Option Bool :=
  match members.filterMap id with
  | [] => none
  | answers => some (op.answer answers)

mutual

/-- Whether a row satisfies a query, or nothing where the query asks nothing. -/
def Node.holds? (definition : Definition) (oracle : Oracle) : Node → Option Bool
  | .leaf value =>
    some <| (definition.defaultFields value none).any fun field =>
      field.holds? definition.zone oracle field.defaultOperator value == some true
  | .operator .not [operand] => (operand.holds? definition oracle).map (!·)
  | .operator op [.leaf value] =>
    some <| (definition.defaultFields value (some op)).any fun field =>
      field.holds? definition.zone oracle op value == some true
  | .operator op [.leaf name, .leaf value] =>
    (definition.field? name).bind fun field => field.holds? definition.zone oracle op value
  | .operator _ _ => none
  | .logical op operands => op.holds? (Node.holdsAll definition oracle operands)

def Node.holdsAll (definition : Definition) (oracle : Oracle) : List Node → List (Option Bool)
  | [] => []
  | node :: nodes => node.holds? definition oracle :: Node.holdsAll definition oracle nodes

end

/-- The yield answers as it should: its condition takes the values bound for it, whatever follows
them, and is true where the answer is yes. Where nothing is asked, nothing is bound. -/
inductive Yield.Means (oracle : Oracle) : Yield → Option Bool → Prop
  | nothing : Means oracle .nothing none
  | condition {condition : Condition} {bound : List BindValue} {truth : Truth} {answer : Bool} :
      (∀ more, condition.eval? oracle (bound ++ more) = some (truth, more)) →
      (truth = .yes ↔ answer = true) →
      Means oracle ⟨some condition, bound⟩ (some answer)

/-! ### Lists

Members that ask nothing bind nothing, so a list is evaluated like the list of the others. -/

/-- Conditions one after another answer as they should. -/
inductive AllMean (oracle : Oracle) : List Condition → List BindValue → List Bool → Prop
  | nil : AllMean oracle [] [] []
  | cons {condition : Condition} {bound : List BindValue} {truth : Truth} {answer : Bool}
      {conditions : List Condition} {values : List BindValue} {answers : List Bool} :
      (∀ more, condition.eval? oracle (bound ++ more) = some (truth, more)) →
      (truth = .yes ↔ answer = true) →
      AllMean oracle conditions values answers →
      AllMean oracle (condition :: conditions) (bound ++ values) (answer :: answers)

variable {oracle : Oracle}

theorem allMean_of_forall₂ {yields : List Yield} {answers : List (Option Bool)}
    (hmeans : List.Forall₂ (Yield.Means oracle) yields answers) :
    AllMean oracle ((yields.map Yield.condition).filterMap id) (yields.flatMap Yield.bound)
      (answers.filterMap id) := by
  induction hmeans with
  | nil => exact .nil
  | cons hhead _ ih =>
      cases hhead with
      | nothing => exact ih
      | condition heval htruth => exact .cons heval htruth ih

theorem Connective.truth_eq_yes (op : Connective) {a b : Truth} {p q : Bool}
    (ha : a = .yes ↔ p = true) (hb : b = .yes ↔ q = true) :
    op.truth a b = .yes ↔ op.answer [p, q] = true := by
  cases op <;> simp [truth, answer, ha, hb]

theorem Connective.answer_cons_cons (op : Connective) (a b : Bool) (answers : List Bool) :
    op.answer (op.answer [a, b] :: answers) = op.answer (a :: b :: answers) := by
  rw [answer_cons, ← answer_append, List.cons_append, List.singleton_append]

theorem evalAfter?_of_allMean (op : Connective) {conditions : List Condition}
    {values : List BindValue} {answers : List Bool}
    (hmeans : AllMean oracle conditions values answers) {before : Truth} {answer : Bool}
    (hbefore : before = .yes ↔ answer = true) :
    ∃ truth, (∀ more, Condition.evalAfter? oracle op before conditions (values ++ more) =
        some (truth, more)) ∧
      (truth = .yes ↔ op.answer (answer :: answers) = true) := by
  induction hmeans generalizing before answer with
  | nil =>
      refine ⟨before, fun more => rfl, hbefore.trans ?_⟩
      rw [Connective.answer_singleton]
  | cons heval htruth _ ih =>
      obtain ⟨truth, hafter, hyes⟩ := ih (op.truth_eq_yes hbefore htruth)
      refine ⟨truth, fun more => ?_, ?_⟩
      · simp [Condition.evalAfter?, heval, hafter]
      · rw [hyes, Connective.answer_cons_cons]

/-- A list means what its members mean together. -/
theorem Yield.Means.join {op : Connective} {yields : List Yield} {answers : List (Option Bool)}
    (hmeans : List.Forall₂ (Yield.Means oracle) yields answers) :
    Yield.Means oracle (Yield.join op yields) (op.holds? answers) := by
  have hall := allMean_of_forall₂ hmeans
  unfold Yield.join Condition.join Connective.holds?
  generalize (yields.map Yield.condition).filterMap id = conditions at hall ⊢
  generalize yields.flatMap Yield.bound = bound at hall ⊢
  generalize answers.filterMap id = asked at hall ⊢
  cases hall with
  | nil => exact .nothing
  | cons heval htruth hrest =>
      cases hrest with
      | nil =>
          refine .condition (fun more => ?_) (htruth.trans ?_)
          · simp [Condition.eval?, heval]
          · rw [Connective.answer_singleton]
      | cons heval' htruth' hrest =>
          obtain ⟨truth, hafter, hyes⟩ :=
            evalAfter?_of_allMean op hrest (op.truth_eq_yes htruth htruth')
          refine .condition (fun more => ?_) (hyes.trans ?_)
          · simp [Condition.eval?, heval, heval', hafter]
          · rw [Connective.answer_cons_cons]

/-! ### Tests

A field answers for itself; default fields answer for any one of them, as none of their tests is
dropped. -/

/-- The test of a field means that the field holds. -/
theorem Field.yield_means {field : Field} {zone : Calendar.Zone} {token : String} {op : Operator}
    {value : String} (htoken : op.token? = some token) :
    (field.yield zone token op value).Means oracle (field.holds? zone oracle op value) := by
  unfold Field.yield Field.holds?
  rw [htoken]
  cases field.boundValue? zone op value with
  | none => exact .nothing
  | some bound => exact .condition (fun more => rfl) (by simp)

theorem TestsTo.means {zone : Calendar.Zone} {op : Field → Operator} {value : String}
    {fields : List Field} {yields : List Yield} (htests : TestsTo zone op value fields yields) :
    List.Forall₂ (Yield.Means oracle) yields
      (fields.map fun field => field.holds? zone oracle (op field) value) := by
  induction htests with
  | nil => exact .nil
  | cons htoken _ ih => exact .cons (Field.yield_means htoken) ih

theorem TestsTo.token?_isSome {zone : Calendar.Zone} {op : Field → Operator} {value : String}
    {fields : List Field} {yields : List Yield} (htests : TestsTo zone op value fields yields)
    {field : Field} (hfield : field ∈ fields) : ((op field).token?).isSome := by
  induction htests with
  | nil => cases hfield
  | cons htoken _ ih =>
      rcases List.mem_cons.mp hfield with rfl | htail
      · rw [htoken]
        rfl
      · exact ih htail

theorem Field.holds?_isSome {field : Field} {zone : Calendar.Zone} {op : Operator} {value : String}
    (htoken : op.token?.isSome) (hbound : (field.boundValue? zone op value).isSome) :
    (field.holds? zone oracle op value).isSome := by
  obtain ⟨token, htoken⟩ := Option.isSome_iff_exists.mp htoken
  obtain ⟨bound, hbound⟩ := Option.isSome_iff_exists.mp hbound
  simp [Field.holds?, htoken, hbound]

/-- Where every member asks something, one of them has to hold. -/
theorem Connective.or_holds?_map {fields : List Field} {answer : Field → Option Bool}
    (hne : fields ≠ []) (hasks : ∀ field ∈ fields, (answer field).isSome) :
    or.holds? (fields.map answer) = some (fields.any fun field => answer field == some true) := by
  have hpresent : ∀ field ∈ fields, answer field = some (answer field == some true) := by
    intro field hfield
    obtain ⟨asked, hasked⟩ := Option.isSome_iff_exists.mp (hasks field hfield)
    cases asked <;> simp [hasked]
  have hasked : (fields.map answer).filterMap id =
      fields.map fun field => answer field == some true := by
    rw [List.map_congr_left hpresent, List.filterMap_map]
    exact congrFun List.filterMap_eq_map' fields
  obtain ⟨first, rest, rfl⟩ := List.exists_cons_of_ne_nil hne
  rw [holds?, hasked]
  simp [Connective.answer]

/-- A value looked for in its default fields means that one of their tests is true. -/
theorem TestsTo.join_means {definition : Definition} {op : Field → Operator} {value : String}
    {given : Option Operator} {yields : List Yield}
    (hsome : definition.defaultFields value given ≠ [])
    (htests : TestsTo definition.zone op value (definition.defaultFields value given) yields) :
    (Yield.join .or yields).Means oracle (some ((definition.defaultFields value given).any
      fun field => field.holds? definition.zone oracle (op field) value == some true)) := by
  rw [← Connective.or_holds?_map hsome fun field hfield =>
    Field.holds?_isSome (htests.token?_isSome hfield) (definition.boundValue?_isSome hfield _)]
  exact .join htests.means

/-! ### Trees -/

theorem Node.holdsAll_eq_map (definition : Definition) (oracle : Oracle) (nodes : List Node) :
    Node.holdsAll definition oracle nodes = nodes.map (Node.holds? definition oracle) := by
  induction nodes with
  | nil => rfl
  | cons node nodes ih => rw [Node.holdsAll, ih, List.map_cons]

theorem Node.holds?_negation {definition : Definition} {operand : Node} :
    (operator .not [operand]).holds? definition oracle =
      (operand.holds? definition oracle).map (!·) := by
  rw [Node.holds?]

theorem Node.holds?_prefixed {definition : Definition} {op : Operator} {value : String}
    (hop : op ≠ .not) :
    (operator op [leaf value]).holds? definition oracle =
      some ((definition.defaultFields value (some op)).any fun field =>
        field.holds? definition.zone oracle op value == some true) := by
  simp [Node.holds?]

theorem Node.holds?_named {definition : Definition} {op : Operator} {name value : String}
    {field : Field} (hfield : definition.field? name = some field) :
    (operator op [leaf name, leaf value]).holds? definition oracle =
      field.holds? definition.zone oracle op value := by
  simp [Node.holds?, hfield]

/-- What a tree compiles to means that the tree holds. -/
theorem Node.CompilesTo.means {definition : Definition} {node : Node} {yield : Yield}
    (hcompiles : node.CompilesTo definition yield) :
    yield.Means oracle (node.holds? definition oracle) := by
  refine Node.CompilesTo.induction ?keyword ?prefixed ?named ?negation ?droppedNegation ?logical
    hcompiles
  case keyword =>
      intro value yields hsome htests
      rw [Node.holds?]
      exact htests.join_means hsome
  case prefixed =>
      intro op value yields hop hsome htests
      rw [Node.holds?_prefixed hop]
      exact htests.join_means hsome
  case named =>
      intro op name field token value hfield htoken
      rw [Node.holds?_named hfield]
      exact Field.yield_means htoken
  case negation =>
      intro operand condition bound hmeans
      rw [Node.holds?_negation]
      generalize operand.holds? definition oracle = answer at hmeans ⊢
      cases hmeans with
      | @condition _ _ truth answer heval htruth =>
          have hyes : truth.not.or truth.isNull = .yes ↔ (!answer) = true := by
            rw [Truth.not_or_isNull, ne_eq, htruth]
            simp
          refine .condition (fun more => ?_) hyes
          simp [Condition.eval?, heval]
  case droppedNegation =>
      intro operand bound hmeans
      rw [Node.holds?_negation]
      generalize operand.holds? definition oracle = answer at hmeans ⊢
      cases hmeans with
      | nothing => exact .nothing
  case logical =>
      intro op operands yields _ hmembers
      rw [Node.holds?, Node.holdsAll_eq_map]
      exact .join (List.forall₂_map_right_iff.mpr hmembers.flip)

end FieldSearch
