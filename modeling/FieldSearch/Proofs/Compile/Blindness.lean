import FieldSearch.Definition.Sample
import FieldSearch.Proofs.Compile.Run

/-! What the text of a condition does not tell. Of a value that is looked for, the compiler asks
only whether it is a number, whether it can be read as an instant and as a date, and whether it
begins or ends with a wildcard. Two queries that differ in nothing else are compiled in step: to one
text and to equally many parameters, or to errors that differ at most in the value they show. -/

namespace FieldSearch

/-- The values are the same for all that the compiler asks of them. -/
structure ValuesAlike (zone : Calendar.Zone) (value value' : String) : Prop where
  number : isNumber value = isNumber value'
  instant : (Calendar.readInstant zone value).isSome = (Calendar.readInstant zone value').isSome
  date : (Calendar.readDate zone value).isSome = (Calendar.readDate zone value').isSome
  wildcard : hasWildcard value = hasWildcard value'

namespace Node

/-- The name of the field in a comparison that has one. -/
def fieldName? : Operator → List Node → Option String
  | .not, _ => none
  | _, [.leaf name, _] => some name
  | _, _ => none

/-- Trees of one shape, with the same operators and field names and with values that are alike. -/
inductive Alike (zone : Calendar.Zone) : Node → Node → Prop
  | leaf {value value'} : ValuesAlike zone value value' → Alike zone (.leaf value) (.leaf value')
  | operator {op operands operands'} : List.Forall₂ (Alike zone) operands operands' →
      fieldName? op operands = fieldName? op operands' →
      Alike zone (.operator op operands) (.operator op operands')
  | logical {op operands operands'} : List.Forall₂ (Alike zone) operands operands' →
      Alike zone (.logical op operands) (.logical op operands')

end Node

/-- The same error, or two values for which there is no field. -/
inductive CompileError.Alike : CompileError → CompileError → Prop
  | same (error) : Alike error error
  | unresolvedField (value value') : Alike (.unresolvedField value) (.unresolvedField value')

/-! ### Steps in step -/

namespace Compilation

variable {α β : Type}

/-- Equal results after equally many parameters and look-ups, or errors that are alike. -/
inductive SameOutcome : Except CompileError α × Trace → Except CompileError α × Trace → Prop
  | ok (a) {trace trace' : Trace} : trace.bound.length = trace'.bound.length →
      trace.lookups = trace'.lookups → SameOutcome (.ok a, trace) (.ok a, trace')
  | error {error error' trace trace'} : error.Alike error' →
      SameOutcome (.error error, trace) (.error error', trace')

/-- Wherever the steps are taken, they have the same outcome. -/
def InStep (step step' : Compilation α) : Prop :=
  ∀ lookups, SameOutcome (step lookups) (step' lookups)

namespace InStep

theorem pure (a : α) : InStep (Pure.pure a) (Pure.pure a : Compilation α) :=
  fun _ => .ok a rfl rfl

theorem fail {error error' : CompileError} (halike : error.Alike error') :
    InStep (fail error : Compilation α) (Compilation.fail error') :=
  fun _ => .error halike

theorem bind {first first' : Compilation α} {next next' : α → Compilation β}
    (hfirst : InStep first first') (hnext : ∀ a, InStep (next a) (next' a)) :
    InStep (first >>= next) (first' >>= next') := by
  intro lookups
  show SameOutcome (Compilation.bind first next lookups) (Compilation.bind first' next' lookups)
  have houtcome := hfirst lookups
  generalize hrun : first lookups = run at houtcome
  generalize hrun' : first' lookups = run' at houtcome
  cases houtcome with
  | error halike =>
      rw [bind_of_error hrun, bind_of_error hrun']
      exact .error halike
  | @ok a trace trace' hbound hlookups =>
      rw [bind_of_ok hrun, bind_of_ok hrun', ← hlookups]
      have hrest := hnext a (lookups + trace.lookups)
      generalize next a (lookups + trace.lookups) = rest at hrest
      generalize next' a (lookups + trace.lookups) = rest' at hrest
      cases hrest with
      | error halike => exact .error halike
      | ok b hbound' hlookups' =>
          exact .ok b (by simp [hbound, hbound']) (by simp [hlookups, hlookups'])

end InStep

end Compilation

open Compilation (InStep)

/-! ### Tests -/

variable {definition : Definition} {value value' : String}

/-- Whether a test is dropped depends on no more than the compiler asks. -/
theorem Field.boundValue?_isSome_alike {zone : Calendar.Zone}
    (halike : ValuesAlike zone value value') (field : Field) (op : Operator) :
    (field.boundValue? zone op value).isSome = (field.boundValue? zone op value').isSome := by
  have hread :
      (field.readTemporal zone value).isSome = (field.readTemporal zone value').isSome := by
    unfold readTemporal
    split <;> simp [halike.date, halike.instant]
  unfold boundValue?
  rw [halike.wildcard]
  split
  · rfl
  · split
    · exact hread
    · rfl

/-- Values that are alike have the same default fields. -/
theorem Definition.defaultFields_alike (halike : ValuesAlike definition.zone value value')
    (given : Option Operator) :
    definition.defaultFields value given = definition.defaultFields value' given := by
  unfold defaultFields
  rw [halike.number, halike.instant]

namespace Registry

theorem test_inStep {registry : Registry} (halike : ValuesAlike registry.zone value value')
    (field : Field) (op : Operator) :
    InStep (registry.test field op value) (registry.test field op value') := by
  cases htoken : op.token? with
  | none =>
      unfold test
      rw [htoken]
      exact .fail (.same _)
  | some token =>
      rw [test_of_token htoken, test_of_token htoken]
      have hsome := Field.boundValue?_isSome_alike halike field op
      cases hvalue : field.boundValue? registry.zone op value with
      | none =>
          rw [hvalue, Option.isSome_none, eq_comm, Option.isSome_eq_false_iff,
            Option.isNone_iff_eq_none] at hsome
          rw [hsome]
          exact fun _ => .ok none rfl rfl
      | some bound =>
          rw [hvalue, Option.isSome_some, eq_comm, Option.isSome_iff_exists] at hsome
          obtain ⟨bound', hvalue'⟩ := hsome
          rw [hvalue']
          exact fun _ => .ok _ rfl rfl

theorem testAll_inStep {registry : Registry} (halike : ValuesAlike registry.zone value value')
    (op : Field → Operator) (fields : List Field) :
    InStep (registry.testAll op value fields) (registry.testAll op value' fields) := by
  induction fields with
  | nil => exact .pure _
  | cons field fields ih =>
      exact .bind (test_inStep halike field (op field)) fun _ => .bind ih fun _ => .pure _

theorem testDefaults_inStep (halike : ValuesAlike definition.zone value value')
    (given : Option Operator) (op : Field → Operator) :
    InStep (definition.registry.testDefaults given op value)
      (definition.registry.testDefaults given op value') := by
  have hlookup : (fun n => definition.registry.defaultFields n value given) =
      fun n => definition.registry.defaultFields n value' given :=
    funext fun _ => definition.defaultFields_alike halike given
  unfold testDefaults
  rw [hlookup]
  apply InStep.bind fun _ => .ok _ rfl rfl
  intro fields
  split
  · exact .fail (.unresolvedField value value')
  · exact .bind (testAll_inStep halike op fields) fun _ => .pure _

theorem testNamed_inStep (halike : ValuesAlike definition.zone value value') (name : String)
    (op : Operator) :
    InStep (definition.registry.testNamed name op value)
      (definition.registry.testNamed name op value') := by
  apply InStep.bind fun _ => .ok _ rfl rfl
  intro found
  cases found with
  | none => exact .fail (.same _)
  | some field => exact test_inStep halike field op

theorem comparePrefixed_inStep {operand operand' : Node}
    (halike : operand.Alike definition.zone operand') (op : Operator) :
    InStep (definition.registry.comparePrefixed op operand)
      (definition.registry.comparePrefixed op operand') := by
  cases halike with
  | leaf hvalues => exact testDefaults_inStep hvalues (some op) fun _ => op
  | operator | logical => exact .fail (.same _)

theorem compareNamed_inStep {left left' right right' : Node}
    (hname : left.leafValue? = left'.leafValue?) (halike : right.Alike definition.zone right')
    (op : Operator) :
    InStep (definition.registry.compareNamed op left right)
      (definition.registry.compareNamed op left' right') := by
  unfold compareNamed
  rw [← hname]
  cases left.leafValue? with
  | none => exact .fail (.same _)
  | some name =>
      cases halike with
      | leaf hvalues => exact testNamed_inStep hvalues name op
      | operator | logical => exact .fail (.same _)

end Registry

/-! ### Trees -/

theorem Condition.negate_inStep {compile compile' : Compilation (Option Condition)}
    (hcompile : InStep compile compile') : InStep (negate compile) (negate compile') := by
  apply InStep.bind hcompile
  intro negated
  cases negated with
  | none => exact .pure _
  | some negated =>
      apply InStep.bind hcompile
      intro nullCheck
      cases nullCheck <;> exact .pure _

namespace Node

theorem fieldName?_pair {op : Operator} (hop : op ≠ .not) (left right : Node) :
    fieldName? op [left, right] = left.leafValue? := by
  cases left <;> simp [fieldName?, leafValue?]

theorem compileAll_inStep {registry : Registry} {depth : Nat} {nodes nodes' : List Node}
    (hnodes : List.Forall₂
      (fun node node' => InStep (node.compile registry depth) (node'.compile registry depth))
      nodes nodes') :
    InStep (Node.compileAll registry depth nodes) (Node.compileAll registry depth nodes') := by
  induction hnodes with
  | nil => exact .pure _
  | cons hnode _ ih => exact .bind hnode fun _ => .bind ih fun _ => .pure _

/-- Trees that are alike are compiled in step. -/
theorem compile_inStep {node node' : Node} (halike : node.Alike definition.zone node')
    (depth : Nat) :
    InStep (node.compile definition.registry depth) (node'.compile definition.registry depth) := by
  induction node using Node.induction generalizing node' depth with
  | leaf value =>
      cases halike with
      | leaf hvalues => exact Registry.testDefaults_inStep hvalues none Field.defaultOperator
  | operator op operands ih =>
      cases halike with
      | @operator _ _ operands' hoperands hname =>
          induction op, operands using Node.operator_cases with
          | negation operand =>
              obtain ⟨operand', rfl⟩ := List.length_eq_one_iff.mp hoperands.length_eq.symm
              have hoperand := (List.forall₂_cons.mp hoperands).1
              unfold Node.compile
              split
              · exact .fail (.same _)
              · exact Condition.negate_inStep (ih operand (by simp) hoperand _)
          | prefixed op value hop =>
              obtain ⟨value', rfl⟩ := List.length_eq_one_iff.mp hoperands.length_eq.symm
              rw [compile_prefixed hop, compile_prefixed hop]
              exact Registry.comparePrefixed_inStep (List.forall₂_cons.mp hoperands).1 op
          | named op left right hop =>
              obtain ⟨left', right', rfl⟩ := List.length_eq_two.mp hoperands.length_eq.symm
              rw [fieldName?_pair hop, fieldName?_pair hop] at hname
              rw [compile_named hop, compile_named hop]
              have hright := (List.forall₂_cons.mp (List.forall₂_cons.mp hoperands).2).1
              exact Registry.compareNamed_inStep hname hright op
          | malformed op operands arity =>
              rw [compile_malformed arity, compile_malformed (hoperands.length_eq ▸ arity),
                hoperands.length_eq]
              exact .fail (.same _)
  | logical op operands ih =>
      cases halike with
      | logical hoperands =>
          have hmembers : ∀ operand ∈ operands, ∀ operand', operand.Alike definition.zone operand' →
              InStep (operand.compile definition.registry depth)
                (operand'.compile definition.registry depth) :=
            fun operand hoperand _ halike => ih operand hoperand halike depth
          have hsteps := ((List.forall₂_and_left operands _).mpr ⟨hmembers, hoperands⟩).imp
            fun _ _ hboth => hboth.1 _ hboth.2
          cases hoperands with
          | nil => exact .fail (.same _)
          | cons =>
              rw [compile_logical (List.cons_ne_nil _ _), compile_logical (List.cons_ne_nil _ _)]
              exact .bind (compileAll_inStep hsteps) fun _ => .pure _

end Node

/-- Two renderers show the same text after equally many parameters, or errors that are alike. -/
inductive Renderer.SameOutcome :
    Except CompileError Fragment × Renderer → Except CompileError Fragment × Renderer → Prop
  | ok (fragment) {after after' : Renderer} : after.params.length = after'.params.length →
      SameOutcome (.ok fragment, after) (.ok fragment, after')
  | error {error error' after after'} : error.Alike error' →
      SameOutcome (.error error, after) (.error error', after')

/-- No more of a value reaches the text of a condition than the compiler asks of it. -/
theorem Renderer.compile_blind {definition : Definition} {node node' : Node}
    (halike : node.Alike definition.zone node') (renderer : Renderer)
    (hregistry : renderer.registry = definition.registry) (depth : Nat) :
    SameOutcome (renderer.takeFragment (node.compile renderer.registry depth))
      (renderer.takeFragment (node'.compile renderer.registry depth)) := by
  have houtcome := Node.compile_inStep halike depth renderer.lookups
  rw [hregistry]
  unfold takeFragment take
  generalize node.compile definition.registry depth renderer.lookups = run at houtcome ⊢
  generalize node'.compile definition.registry depth renderer.lookups = run' at houtcome ⊢
  cases houtcome with
  | ok condition hbound => exact .ok (condition.map Condition.sql) (by simp [hbound])
  | error halike => exact .error halike

/-- A name and a piece of SQL are compared with one text. -/
theorem Renderer.compile_blind_quoted :
    SameOutcome
      (({ registry := Sample.people.registry } : Renderer).takeFragment
        ((Node.comparison "name" .eq "Ann").compile Sample.people.registry 0))
      (({ registry := Sample.people.registry } : Renderer).takeFragment
        ((Node.comparison "name" .eq "' OR name = name").compile Sample.people.registry 0)) := by
  have hname : ValuesAlike .utc "name" "name" := ⟨rfl, rfl, rfl, rfl⟩
  have hvalue : ValuesAlike .utc "Ann" "' OR name = name" := ⟨rfl, rfl, rfl, rfl⟩
  have halike : (Node.comparison "name" .eq "Ann").Alike Sample.people.zone
      (Node.comparison "name" .eq "' OR name = name") :=
    .operator (.cons (.leaf hname) (.cons (.leaf hvalue) .nil)) rfl
  exact compile_blind halike { registry := Sample.people.registry } rfl 0

end FieldSearch
