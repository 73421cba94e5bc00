import FieldSearch.Condition.Renderer
import FieldSearch.Proofs.Compile.Rules

/-! Runs of the compiler that succeed follow the rules of compilation. A step that succeeds is taken
apart once, at `bind_eq_ok`; each way to look for a value has its own account of what it yields, and
a tree is compiled by these and by its operands. With the fields of a definition the number of
look-ups made before never matters, so that the two passes over a negated operand agree. -/

namespace FieldSearch

namespace Trace

theorem append_empty (trace : Trace) : trace ++ ({} : Trace) = trace := by
  show append trace {} = trace
  simp [append]

theorem empty_append (trace : Trace) : ({} : Trace) ++ trace = trace := by
  show append {} trace = trace
  simp [append]

theorem append_assoc (first second third : Trace) :
    first ++ second ++ third = first ++ (second ++ third) := by
  show append (append first second) third = append first (append second third)
  simp [append, Nat.add_assoc]

end Trace

namespace Compilation

variable {α β : Type}

theorem bind_pure (step : Compilation α) : bind step pure = step := by
  funext lookups
  rcases hstep : step lookups with ⟨_ | a, trace⟩
  · exact bind_of_error hstep
  · rw [bind_of_ok hstep]
    exact Prod.ext rfl (Trace.append_empty trace)

theorem pure_bind (a : α) (next : α → Compilation β) : bind (pure a) next = next a := by
  funext lookups
  exact Prod.ext rfl (Trace.empty_append _)

/-- What steps leave behind does not depend on how they are grouped. -/
theorem bind_assoc {γ : Type} (first : Compilation α) (next : α → Compilation β)
    (last : β → Compilation γ) :
    bind (bind first next) last = bind first fun a => bind (next a) last := by
  funext lookups
  rcases hfirst : first lookups with ⟨_ | a, before⟩
  · rw [bind_of_error hfirst, bind_of_error (bind_of_error hfirst)]
  · have hboth : bind first next lookups = _ := bind_of_ok hfirst
    rw [bind_of_ok hfirst]
    rcases hnext : next a (lookups + before.lookups) with ⟨_ | b, after⟩
    · rw [hnext] at hboth
      rw [bind_of_error hboth, bind_of_error hnext]
    · rw [hnext] at hboth
      rw [bind_of_ok hboth, bind_of_ok hnext]
      simp only [Trace.lookups_append, Nat.add_assoc, Trace.append_assoc]

instance : LawfulMonad Compilation :=
  .mk' Compilation bind_pure pure_bind bind_assoc

@[simp]
theorem fail_run (error : CompileError) (lookups : Nat) :
    (fail error : Compilation α) lookups = (.error error, {}) :=
  rfl

/-- Two steps succeed together when the second one does after the first. -/
theorem bind_eq_ok {first : Compilation α} {next : α → Compilation β} {lookups : Nat} {b : β}
    {trace : Trace} :
    (first >>= next) lookups = (.ok b, trace) ↔
      ∃ a before after, first lookups = (.ok a, before) ∧
        next a (lookups + before.lookups) = (.ok b, after) ∧ trace = before ++ after := by
  show bind first next lookups = (.ok b, trace) ↔ _
  cases h : first lookups with
  | mk result before =>
      cases result with
      | error error => simp [bind_of_error h]
      | ok a =>
          rw [bind_of_ok h]
          constructor
          · intro run
            obtain ⟨hresult, rfl⟩ := Prod.mk.inj run
            exact ⟨a, before, _, rfl, Prod.ext hresult rfl, rfl⟩
          · rintro ⟨_, _, after, ⟨⟩, hnext, rfl⟩
            rw [hnext]

/-- The step does the same wherever it is taken. -/
def IsSteady (step : Compilation α) : Prop :=
  ∀ lookups lookups', step lookups = step lookups'

namespace IsSteady

theorem pure (a : α) : IsSteady (Pure.pure a : Compilation α) :=
  fun _ _ => rfl

theorem fail (error : CompileError) : IsSteady (fail error : Compilation α) :=
  fun _ _ => rfl

theorem lookup (a : α) : IsSteady (lookup fun _ => a) :=
  fun _ _ => rfl

theorem bind {first : Compilation α} {next : α → Compilation β} (hfirst : IsSteady first)
    (hnext : ∀ a, IsSteady (next a)) : IsSteady (first >>= next) := by
  intro lookups lookups'
  show Compilation.bind first next lookups = Compilation.bind first next lookups'
  unfold Compilation.bind
  rw [hfirst lookups lookups']
  split
  · rfl
  · rw [hnext _ (lookups + _) (lookups' + _)]

end IsSteady

end Compilation

open Compilation (bind_eq_ok IsSteady)

namespace Registry

variable {registry : Registry} {lookups : Nat} {trace : Trace}

/-- A comparison binds the value of the field and tests it, or is dropped if there is none. -/
theorem test_of_token {field : Field} {op : Operator} {value token : String}
    (htoken : op.token? = some token) :
    registry.test field op value =
      match field.boundValue? registry.zone op value with
      | some bound => do
        Compilation.push bound
        return some (.test field.columnSql token)
      | none => do
        Compilation.drop ⟨field.name, field.type, value⟩
        return none := by
  unfold test Field.boundValue?
  rw [htoken]
  by_cases hpattern : (op.isPattern && !hasWildcard value) = true
  · simp only [hpattern, if_true]
  · by_cases htemporal : field.type.isTemporal = true
    · cases field.readTemporal registry.zone value <;> simp [hpattern, htemporal]
    · simp only [hpattern, htemporal, if_false, Bool.false_eq_true]

/-- A test that succeeds is a comparison, and yields what the field yields for it. -/
theorem test_eq_ok {field : Field} {op : Operator} {value : String} {condition : Option Condition}
    (run : registry.test field op value lookups = (.ok condition, trace)) :
    ∃ token, op.token? = some token ∧
      field.yield registry.zone token op value = ⟨condition, trace.bound⟩ := by
  cases htoken : op.token? with
  | none => simp [test, htoken] at run
  | some token =>
      refine ⟨token, rfl, ?_⟩
      rw [test_of_token htoken] at run
      unfold Field.yield
      cases hvalue : field.boundValue? registry.zone op value with
      | some bound =>
          rw [hvalue] at run
          obtain ⟨⟨⟩, rfl⟩ := Prod.mk.inj run
          rfl
      | none =>
          rw [hvalue] at run
          obtain ⟨⟨⟩, rfl⟩ := Prod.mk.inj run
          rfl

theorem testAll_eq_ok {op : Field → Operator} {value : String} {fields : List Field}
    {tests : List (Option Condition)}
    (run : registry.testAll op value fields lookups = (.ok tests, trace)) :
    ∃ yields, TestsTo registry.zone op value fields yields ∧
      tests = yields.map Yield.condition ∧ trace.bound = yields.flatMap Yield.bound := by
  induction fields generalizing lookups tests trace with
  | nil =>
      obtain ⟨⟨⟩, rfl⟩ := Prod.mk.inj run
      exact ⟨[], .nil, rfl, rfl⟩
  | cons field fields ih =>
      obtain ⟨first, before, after, hfirst, hothers, rfl⟩ := bind_eq_ok.mp run
      obtain ⟨others, middle, last, htail, hlast, rfl⟩ := bind_eq_ok.mp hothers
      obtain ⟨⟨⟩, rfl⟩ := Prod.mk.inj hlast
      obtain ⟨token, htoken, hyield⟩ := test_eq_ok hfirst
      obtain ⟨yields, htests, rfl, hbound⟩ := ih htail
      refine ⟨_, .cons htoken htests, ?_, ?_⟩
      · rw [hyield, List.map_cons]
      · rw [hyield, List.flatMap_cons, ← hbound]
        simp only [Trace.bound_append, List.append_nil]

/-- A value is looked for in its default fields, of which there must be some. -/
theorem testDefaults_eq_ok {given : Option Operator} {op : Field → Operator} {value : String}
    {condition : Option Condition}
    (run : registry.testDefaults given op value lookups = (.ok condition, trace)) :
    registry.defaultFields lookups value given ≠ [] ∧
      ∃ yields, TestsTo registry.zone op value (registry.defaultFields lookups value given) yields ∧
        Yield.join .or yields = ⟨condition, trace.bound⟩ := by
  obtain ⟨fields, before, after, hlookup, hrest, rfl⟩ := bind_eq_ok.mp run
  obtain ⟨⟨⟩, rfl⟩ := Prod.mk.inj hlookup
  split at hrest
  · simp at hrest
  next hsome =>
      obtain ⟨tests, before, last, htests, hlast, rfl⟩ := bind_eq_ok.mp hrest
      obtain ⟨⟨⟩, rfl⟩ := Prod.mk.inj hlast
      obtain ⟨yields, hyields, rfl, hbound⟩ := testAll_eq_ok htests
      refine ⟨by simpa using hsome, yields, hyields, ?_⟩
      simp [Yield.join, hbound]

/-- A value is looked for in the field with a name, which there must be. -/
theorem testNamed_eq_ok {name : String} {op : Operator} {value : String}
    {condition : Option Condition}
    (run : registry.testNamed name op value lookups = (.ok condition, trace)) :
    ∃ field token, registry.field? lookups name = some field ∧ op.token? = some token ∧
      field.yield registry.zone token op value = ⟨condition, trace.bound⟩ := by
  obtain ⟨found, before, after, hlookup, hrest, rfl⟩ := bind_eq_ok.mp run
  obtain ⟨hfound, rfl⟩ := Prod.mk.inj hlookup
  cases found with
  | none => simp at hrest
  | some field =>
      obtain ⟨token, htoken, hyield⟩ := test_eq_ok hrest
      refine ⟨field, token, Except.ok.inj hfound, htoken, ?_⟩
      rw [hyield]
      simp

theorem comparePrefixed_eq_ok {op : Operator} {operand : Node} {condition : Option Condition}
    (run : registry.comparePrefixed op operand lookups = (.ok condition, trace)) :
    ∃ value, operand = .leaf value ∧
      registry.testDefaults (some op) (fun _ => op) value lookups = (.ok condition, trace) := by
  cases operand with
  | leaf value => exact ⟨value, rfl, run⟩
  | operator | logical => simp [comparePrefixed, Node.leafValue?] at run

theorem compareNamed_eq_ok {op : Operator} {left right : Node} {condition : Option Condition}
    (run : registry.compareNamed op left right lookups = (.ok condition, trace)) :
    ∃ name value, left = .leaf name ∧ right = .leaf value ∧
      registry.testNamed name op value lookups = (.ok condition, trace) := by
  cases left with
  | leaf name =>
      cases right with
      | leaf value => exact ⟨name, value, rfl, rfl, run⟩
      | operator | logical => simp [compareNamed, Node.leafValue?] at run
  | operator | logical => simp [compareNamed, Node.leafValue?] at run

end Registry

/-- A negation that succeeds compiled its operand, and once more if anything was left to test. -/
theorem Condition.negate_eq_ok {compile : Compilation (Option Condition)} {lookups : Nat}
    {condition : Option Condition} {trace : Trace}
    (run : Condition.negate compile lookups = (.ok condition, trace)) :
    (∃ first, compile lookups = (.ok none, first) ∧ condition = none ∧
      trace.bound = first.bound) ∨
    ∃ negated nullCheck first second, compile lookups = (.ok (some negated), first) ∧
      compile (lookups + first.lookups) = (.ok nullCheck, second) ∧
      condition = nullCheck.map (Condition.negation negated) ∧
      trace.bound = first.bound ++ second.bound := by
  obtain ⟨negated, first, after, hfirst, hrest, rfl⟩ := bind_eq_ok.mp run
  cases negated with
  | none =>
      obtain ⟨⟨⟩, rfl⟩ := Prod.mk.inj hrest
      exact .inl ⟨first, hfirst, rfl, by simp⟩
  | some negated =>
      obtain ⟨nullCheck, second, last, hsecond, hlast, rfl⟩ := bind_eq_ok.mp hrest
      refine .inr ⟨negated, nullCheck, first, second, hfirst, hsecond, ?_⟩
      cases nullCheck <;> obtain ⟨⟨⟩, rfl⟩ := Prod.mk.inj hlast <;> simp

/-! ### Forms of trees

An operator with its operands is a negation, a comparison with or without a field, or malformed. The
compiler has one step for each form of tree. -/

namespace Node

/-- One operand for a negation, one or two for a comparison. -/
def HasArity (op : Operator) (arity : Nat) : Prop :=
  arity = 1 ∨ arity = 2 ∧ op ≠ .not

@[elab_as_elim]
theorem operator_cases {motive : Operator → List Node → Prop}
    (negation : ∀ operand, motive .not [operand])
    (prefixed : ∀ op value, op ≠ .not → motive op [value])
    (named : ∀ op left right, op ≠ .not → motive op [left, right])
    (malformed : ∀ op operands, ¬HasArity op operands.length → motive op operands)
    (op : Operator) (operands : List Node) : motive op operands := by
  by_cases arity : HasArity op operands.length
  · obtain hone | ⟨htwo, hop⟩ := arity
    · obtain ⟨operand, rfl⟩ := List.length_eq_one_iff.mp hone
      by_cases hop : op = .not
      · subst hop
        exact negation operand
      · exact prefixed op operand hop
    · obtain ⟨left, right, rfl⟩ := List.length_eq_two.mp htwo
      exact named op left right hop
  · exact malformed op operands arity

variable {registry : Registry} {depth : Nat}

theorem compile_prefixed {op : Operator} {value : Node} (hop : op ≠ .not) :
    (operator op [value]).compile registry depth = registry.comparePrefixed op value := by
  simp [compile]

theorem compile_named {op : Operator} {left right : Node} (hop : op ≠ .not) :
    (operator op [left, right]).compile registry depth = registry.compareNamed op left right := by
  simp [compile]

theorem compile_not {operand : Node} (hdepth : depth < negationLimit) :
    (not operand).compile registry depth =
      Condition.negate (operand.compile registry (depth + 1)) := by
  simp [not, compile, Nat.not_le.mpr hdepth]

theorem compile_not_of_deep {operand : Node} (hdepth : negationLimit ≤ depth) :
    (not operand).compile registry depth = .fail .negationTooDeep := by
  simp [not, compile, hdepth]

/-- A list compiles its operands one after another and joins what they yield. -/
theorem compile_logical {op : Connective} {operands : List Node} (hsome : operands ≠ []) :
    (logical op operands).compile registry depth = do
      let conditions ← compileAll registry depth operands
      return Condition.join op conditions := by
  cases operands with
  | nil => exact absurd rfl hsome
  | cons first rest => simp [compile, compileAll]

theorem compile_malformed {op : Operator} {operands : List Node}
    (arity : ¬HasArity op operands.length) :
    (operator op operands).compile registry depth =
      .fail (.malformedOperator op operands.length) := by
  unfold HasArity at arity
  unfold compile
  split <;> simp_all

/-- What is true of the steps for every form of tree is true of every compilation: trees of a wrong
shape and negations too deep inside others fail, comparisons look for their value, and negations and
lists compile their operands. -/
@[elab_as_elim]
theorem compile_induction {motive : Node → Nat → Compilation (Option Condition) → Prop}
    (keyword : ∀ value depth,
      motive (leaf value) depth (registry.testDefaults none Field.defaultOperator value))
    (prefixed : ∀ op value depth, op ≠ .not →
      motive (operator op [value]) depth (registry.comparePrefixed op value))
    (named : ∀ op field value depth, op ≠ .not →
      motive (operator op [field, value]) depth (registry.compareNamed op field value))
    (malformed : ∀ op operands depth, ¬HasArity op operands.length →
      motive (operator op operands) depth (.fail (.malformedOperator op operands.length)))
    (deepNegation : ∀ operand depth, negationLimit ≤ depth →
      motive (not operand) depth (.fail .negationTooDeep))
    (negation : ∀ operand depth, depth < negationLimit →
      motive operand (depth + 1) (operand.compile registry (depth + 1)) →
      motive (not operand) depth (Condition.negate (operand.compile registry (depth + 1))))
    (emptyList : ∀ op depth, motive (logical op []) depth (.fail (.emptyLogicalOperator op)))
    (list : ∀ op operands depth, operands ≠ [] →
      (∀ operand ∈ operands, motive operand depth (operand.compile registry depth)) →
      motive (logical op operands) depth do
        let conditions ← compileAll registry depth operands
        return Condition.join op conditions)
    (node : Node) (depth : Nat) : motive node depth (node.compile registry depth) := by
  induction node using Node.induction generalizing depth with
  | leaf value => exact keyword value depth
  | operator op operands ih =>
      induction op, operands using operator_cases with
      | negation operand =>
          by_cases hdeep : negationLimit ≤ depth
          · rw [← not, compile_not_of_deep hdeep]
            exact deepNegation operand depth hdeep
          · have hdepth := Nat.lt_of_not_le hdeep
            rw [← not, compile_not hdepth]
            exact negation operand depth hdepth (ih operand (by simp) (depth + 1))
      | prefixed op value hop =>
          rw [compile_prefixed hop]
          exact prefixed op value depth hop
      | named op left right hop =>
          rw [compile_named hop]
          exact named op left right depth hop
      | malformed op operands arity =>
          rw [compile_malformed arity]
          exact malformed op operands depth arity
  | logical op operands ih =>
      cases operands with
      | nil => exact emptyList op depth
      | cons first rest =>
          have hsome := List.cons_ne_nil first rest
          rw [compile_logical hsome]
          exact list op _ depth hsome fun operand hmem => ih operand hmem depth

end Node

/-! ### Steadiness

A definition answers every look-up alike, so each step over its registry is steady. -/

section Steady

variable (definition : Definition)

theorem Registry.test_steady (registry : Registry) (field : Field) (op : Operator)
    (value : String) : IsSteady (registry.test field op value) := by
  cases htoken : op.token? with
  | none =>
      unfold Registry.test
      rw [htoken]
      exact .fail _
  | some token =>
      rw [Registry.test_of_token htoken]
      split <;> exact fun _ _ => rfl

theorem Registry.testAll_steady (registry : Registry) (op : Field → Operator) (value : String)
    (fields : List Field) : IsSteady (registry.testAll op value fields) := by
  induction fields with
  | nil => exact .pure _
  | cons field fields ih =>
      exact .bind (registry.test_steady field (op field) value) fun _ => .bind ih fun _ => .pure _

theorem Registry.testDefaults_steady (given : Option Operator) (op : Field → Operator)
    (value : String) : IsSteady (definition.registry.testDefaults given op value) := by
  apply IsSteady.bind (.lookup (definition.defaultFields value given))
  intro fields
  split
  · exact .fail _
  · exact .bind (testAll_steady _ op value fields) fun _ => .pure _

theorem Registry.testNamed_steady (name : String) (op : Operator) (value : String) :
    IsSteady (definition.registry.testNamed name op value) := by
  apply IsSteady.bind (.lookup (definition.field? name))
  intro found
  cases found with
  | none => exact .fail _
  | some field => exact test_steady _ field op value

theorem Registry.comparePrefixed_steady (op : Operator) (operand : Node) :
    IsSteady (definition.registry.comparePrefixed op operand) := by
  unfold comparePrefixed
  split
  · exact .fail _
  · exact testDefaults_steady definition _ _ _

theorem Registry.compareNamed_steady (op : Operator) (left right : Node) :
    IsSteady (definition.registry.compareNamed op left right) := by
  unfold compareNamed
  split
  · exact .fail _
  · split
    · exact .fail _
    · exact testNamed_steady definition _ _ _

theorem Condition.negate_steady {compile : Compilation (Option Condition)}
    (hcompile : IsSteady compile) : IsSteady (negate compile) := by
  apply IsSteady.bind hcompile
  intro negated
  cases negated with
  | none => exact .pure _
  | some negated =>
      apply IsSteady.bind hcompile
      intro nullCheck
      cases nullCheck <;> exact .pure _

/-- Where the operand compiles to the same again, its condition is negated with itself for the null
check, and its values are bound twice. -/
theorem Condition.negate_eq_ok_of_steady {compile : Compilation (Option Condition)}
    (hcompile : IsSteady compile) {lookups : Nat} {condition : Option Condition} {trace : Trace}
    (run : negate compile lookups = (.ok condition, trace)) :
    ∃ first, compile lookups = (.ok none, first) ∧ condition = none ∧
        trace.bound = first.bound ∨
      ∃ negated, compile lookups = (.ok (some negated), first) ∧
        condition = some (negation negated negated) ∧ trace.bound = first.bound ++ first.bound := by
  obtain ⟨first, hdropped⟩ |
      ⟨negated, nullCheck, first, second, hfirst, hsecond, rfl, hbound⟩ := negate_eq_ok run
  · exact ⟨first, .inl hdropped⟩
  · rw [hcompile _ lookups, hfirst] at hsecond
    obtain ⟨⟨⟩, rfl⟩ := Prod.mk.inj hsecond
    exact ⟨first, .inr ⟨negated, hfirst, rfl, hbound⟩⟩

theorem Node.compileAll_steady {registry : Registry} {depth : Nat} {nodes : List Node}
    (steady : ∀ node ∈ nodes, IsSteady (node.compile registry depth)) :
    IsSteady (Node.compileAll registry depth nodes) := by
  induction nodes with
  | nil => exact .pure _
  | cons node nodes ih =>
      exact .bind (steady node (by simp)) fun _ =>
        .bind (ih fun node mem => steady node (by simp [mem])) fun _ => .pure _

theorem Node.compile_steady (node : Node) (depth : Nat) :
    IsSteady (node.compile definition.registry depth) := by
  refine compile_induction (motive := fun _ _ step => IsSteady step) ?keyword ?prefixed ?named
    ?malformed ?deepNegation ?negation ?emptyList ?list node depth
  case keyword => exact fun value _ => Registry.testDefaults_steady definition _ _ value
  case prefixed => exact fun op value _ _ => Registry.comparePrefixed_steady definition op value
  case named => exact fun op left right _ _ => Registry.compareNamed_steady definition op left right
  case malformed => exact fun _ _ _ _ => .fail _
  case deepNegation => exact fun _ _ _ => .fail _
  case negation => exact fun _ _ _ hoperand => Condition.negate_steady hoperand
  case emptyList => exact fun _ _ => .fail _
  case list => exact fun _ _ _ _ hoperands => .bind (compileAll_steady hoperands) fun _ => .pure _

end Steady

/-! ### Trees

Members of a list are compiled one after another, each by the rules. -/

namespace Node

theorem compileAll_eq_ok {definition : Definition} {depth : Nat} {nodes : List Node}
    (rules : ∀ node ∈ nodes, ∀ {lookups : Nat} {condition : Option Condition} {trace : Trace},
      node.compile definition.registry depth lookups = (.ok condition, trace) →
        node.CompilesTo definition ⟨condition, trace.bound⟩)
    {lookups : Nat} {conditions : List (Option Condition)} {trace : Trace}
    (run : Node.compileAll definition.registry depth nodes lookups = (.ok conditions, trace)) :
    ∃ yields, List.Forall₂ (CompilesTo definition) nodes yields ∧
      conditions = yields.map Yield.condition ∧ trace.bound = yields.flatMap Yield.bound := by
  induction nodes generalizing lookups conditions trace with
  | nil =>
      obtain ⟨⟨⟩, rfl⟩ := Prod.mk.inj run
      exact ⟨[], .nil, rfl, rfl⟩
  | cons node nodes ih =>
      obtain ⟨first, before, after, hfirst, hothers, rfl⟩ := bind_eq_ok.mp run
      obtain ⟨others, middle, last, htail, hlast, rfl⟩ := bind_eq_ok.mp hothers
      obtain ⟨⟨⟩, rfl⟩ := Prod.mk.inj hlast
      obtain ⟨yields, hyields, rfl, hbound⟩ := ih (fun node mem => rules node (by simp [mem])) htail
      refine ⟨_, .cons (rules node (by simp) hfirst) hyields, rfl, ?_⟩
      simp [hbound]

/-- A tree that compiles follows the rules. -/
theorem compilesTo_of_compile {definition : Definition} {node : Node} {depth lookups : Nat}
    {condition : Option Condition} {trace : Trace}
    (run : node.compile definition.registry depth lookups = (.ok condition, trace)) :
    node.CompilesTo definition ⟨condition, trace.bound⟩ := by
  refine compile_induction (motive := fun node _ step => ∀ {lookups condition trace},
    step lookups = (.ok condition, trace) → node.CompilesTo definition ⟨condition, trace.bound⟩)
    ?keyword ?prefixed ?named ?malformed ?deepNegation ?negation ?emptyList ?list node depth run
  case keyword =>
      intro value depth lookups condition trace run
      obtain ⟨hsome, yields, htests, hyield⟩ := Registry.testDefaults_eq_ok run
      exact hyield ▸ .keyword hsome htests
  case prefixed =>
      intro op value depth hop lookups condition trace run
      obtain ⟨text, rfl, hdefaults⟩ := Registry.comparePrefixed_eq_ok run
      obtain ⟨hsome, yields, htests, hyield⟩ := Registry.testDefaults_eq_ok hdefaults
      exact hyield ▸ .prefixed hop hsome htests
  case named =>
      intro op left right depth hop lookups condition trace run
      obtain ⟨name, value, rfl, rfl, hnamed⟩ := Registry.compareNamed_eq_ok run
      obtain ⟨field, token, hfield, htoken, hyield⟩ := Registry.testNamed_eq_ok hnamed
      exact hyield ▸ .named hfield htoken
  case malformed => simp
  case deepNegation => simp
  case negation =>
      intro operand depth _ hoperand lookups condition trace run
      obtain ⟨first, ⟨hfirst, rfl, hbound⟩ | ⟨negated, hfirst, rfl, hbound⟩⟩ :=
        Condition.negate_eq_ok_of_steady (compile_steady definition operand _) run
      · exact hbound ▸ .droppedNegation (hoperand hfirst)
      · exact hbound ▸ .negation (hoperand hfirst)
  case emptyList => simp
  case list =>
      intro op operands depth hsome hoperands lookups condition trace run
      obtain ⟨conditions, before, after, hall, hjoin, rfl⟩ := bind_eq_ok.mp run
      obtain ⟨⟨⟩, rfl⟩ := Prod.mk.inj hjoin
      obtain ⟨yields, hyields, rfl, hbound⟩ := compileAll_eq_ok hoperands hall
      convert CompilesTo.logical hsome hyields using 1
      simp [Yield.join, hbound]

end Node

/-- A renderer keeps the values that were bound, behind those it had. -/
theorem Renderer.takeFragment_eq_ok {renderer after : Renderer}
    {step : Compilation (Option Condition)} {fragment : Fragment}
    (hstep : renderer.takeFragment step = (.ok fragment, after)) :
    ∃ condition trace, step renderer.lookups = (.ok condition, trace) ∧
      fragment = condition.map Condition.sql ∧ after.params = renderer.params ++ trace.bound := by
  unfold takeFragment take at hstep
  cases hrun : step renderer.lookups with
  | mk result trace =>
      rw [hrun] at hstep
      obtain ⟨hresult, rfl⟩ := Prod.mk.inj hstep
      cases result with
      | error error => cases hresult
      | ok condition => exact ⟨condition, trace, rfl, (Except.ok.inj hresult).symm, rfl⟩

/-- A renderer keeps what a step that succeeds leaves behind. -/
theorem Renderer.takeFragment_of_ok {renderer : Renderer} {step : Compilation (Option Condition)}
    {condition : Option Condition} {trace : Trace}
    (hrun : step renderer.lookups = (.ok condition, trace)) :
    renderer.takeFragment step =
      (.ok (condition.map Condition.sql),
        { renderer with
          params := renderer.params ++ trace.bound
          lookups := renderer.lookups + trace.lookups }) := by
  unfold takeFragment take
  rw [hrun]
  rfl

theorem Renderer.takeFragment_eq_error_iff {renderer : Renderer}
    {step : Compilation (Option Condition)} {error : CompileError} :
    (renderer.takeFragment step).1 = .error error ↔
      (step renderer.lookups).1 = .error error := by
  unfold takeFragment take
  rcases step renderer.lookups with ⟨_ | _, trace⟩ <;> simp [Except.map]

end FieldSearch
