import FieldSearch.Definition.Sample
import FieldSearch.Proofs.Compile.Defaults
import FieldSearch.Proofs.Compile.Run
import FieldSearch.Proofs.Definition.Building

/-! Which error a compilation reports. A tree is walked from the top to the bottom and from the left
to the right, each node before its operands, and the first node with a fault ends the walk. Faults
lie in the shape of a node, in names and values that the definition knows no fields for, and in the
number of negations around a node; what is dropped on the way is no fault, and what is compiled a
second time under a negation was found without fault the first time. -/

namespace FieldSearch

/-- A node that the compiler comes to, with the number of negations around it. -/
structure Visit where
  negations : Nat
  node : Node

mutual

/-- The nodes that the compiler comes to, in their order. The operands of a comparison are a part
of it. -/
def Node.visits (negations : Nat) : Node → List Visit
  | .operator .not operands =>
    ⟨negations, .operator .not operands⟩ :: Node.visitsAll (negations + 1) operands
  | .logical op operands => ⟨negations, .logical op operands⟩ :: Node.visitsAll negations operands
  | other => [⟨negations, other⟩]

def Node.visitsAll (negations : Nat) : List Node → List Visit
  | [] => []
  | node :: nodes => node.visits negations ++ Node.visitsAll negations nodes

end

/-- What is wrong with a node itself, whatever is wrong with the nodes below it. -/
inductive Visit.HasFault (definition : Definition) : Visit → CompileError → Prop
  | noOperands {negations op} :
      HasFault definition ⟨negations, .logical op []⟩ (.emptyLogicalOperator op)
  | negationArity {negations operands} : operands.length ≠ 1 →
      HasFault definition ⟨negations, .operator .not operands⟩
        (.malformedOperator .not operands.length)
  | negationDepth {negations operand} : 8 ≤ negations →
      HasFault definition ⟨negations, .operator .not [operand]⟩ .negationTooDeep
  | comparisonArity {negations op operands} : op ≠ .not → operands.length ≠ 1 →
      operands.length ≠ 2 →
      HasFault definition ⟨negations, .operator op operands⟩
        (.malformedOperator op operands.length)
  | prefixedValue {negations op value} : op ≠ .not → value.leafValue? = none →
      HasFault definition ⟨negations, .operator op [value]⟩ .valueNotLeaf
  | prefixedUnresolved {negations op value} : op ≠ .not →
      definition.defaultFields value (some op) = [] →
      HasFault definition ⟨negations, .operator op [.leaf value]⟩ (.unresolvedField value)
  | namedField {negations op field value} : op ≠ .not → field.leafValue? = none →
      HasFault definition ⟨negations, .operator op [field, value]⟩ .fieldNotLeaf
  | namedValue {negations op name value} : op ≠ .not → value.leafValue? = none →
      HasFault definition ⟨negations, .operator op [.leaf name, value]⟩ .valueNotLeaf
  | namedUnknown {negations op name value} : op ≠ .not → definition.field? name = none →
      HasFault definition ⟨negations, .operator op [.leaf name, .leaf value]⟩ (.unknownField name)
  | keywordUnresolved {negations value} : definition.defaultFields value none = [] →
      HasFault definition ⟨negations, .leaf value⟩ (.unresolvedField value)

/-- There is one fault of a node at most. -/
theorem Visit.HasFault.unique {definition : Definition} {visit : Visit} {error other : CompileError}
    (hfault : visit.HasFault definition error) (hother : visit.HasFault definition other) :
    error = other := by
  cases hfault <;> cases hother <;> simp_all [Node.leafValue?]

def Visit.IsFaulty (definition : Definition) (visit : Visit) : Prop :=
  ∃ error, visit.HasFault definition error

/-- The error is a fault of the first node that has one. -/
def FirstFault (definition : Definition) (visits : List Visit) (error : CompileError) : Prop :=
  ∃ before visit after, visits = before ++ visit :: after ∧
    (∀ earlier ∈ before, ¬earlier.IsFaulty definition) ∧ visit.HasFault definition error

section FirstFault

variable {definition : Definition} {visit : Visit} {visits more : List Visit} {error : CompileError}

theorem not_firstFault_nil : ¬FirstFault definition [] error := by
  simp [FirstFault]

theorem firstFault_cons :
    FirstFault definition (visit :: visits) error ↔
      visit.HasFault definition error ∨
        ¬visit.IsFaulty definition ∧ FirstFault definition visits error := by
  constructor
  · rintro ⟨before, first, after, hvisits, hbefore, hfault⟩
    cases before with
    | nil =>
        obtain ⟨rfl, -⟩ := List.cons.inj hvisits
        exact .inl hfault
    | cons _ before =>
        obtain ⟨rfl, rfl⟩ := List.cons.inj hvisits
        obtain ⟨hvisit, hrest⟩ := List.forall_mem_cons.mp hbefore
        exact .inr ⟨hvisit, before, first, after, rfl, hrest, hfault⟩
  · rintro (hfault | ⟨hvisit, before, first, after, rfl, hbefore, hfault⟩)
    · exact ⟨[], visit, visits, rfl, nofun, hfault⟩
    · exact ⟨visit :: before, first, after, rfl, List.forall_mem_cons.mpr ⟨hvisit, hbefore⟩, hfault⟩

theorem firstFault_singleton :
    FirstFault definition [visit] error ↔ visit.HasFault definition error := by
  simp [firstFault_cons, not_firstFault_nil]

/-- A node without a fault is passed by. -/
theorem firstFault_cons_of_sound (hsound : ∀ other, ¬visit.HasFault definition other) :
    FirstFault definition (visit :: visits) error ↔ FirstFault definition visits error := by
  have hvisit : ¬visit.IsFaulty definition := fun ⟨other, hother⟩ => hsound other hother
  simp [firstFault_cons, hsound, hvisit]

theorem firstFault_append :
    FirstFault definition (visits ++ more) error ↔
      FirstFault definition visits error ∨
        (∀ other, ¬FirstFault definition visits other) ∧ FirstFault definition more error := by
  induction visits with
  | nil => simp [not_firstFault_nil]
  | cons visit visits ih =>
      simp only [List.cons_append, firstFault_cons, ih]
      by_cases hvisit : visit.IsFaulty definition
      · obtain ⟨other, hother⟩ := hvisit
        have hnone : ¬∀ e, ¬(visit.HasFault definition e ∨
            ¬visit.IsFaulty definition ∧ FirstFault definition visits e) :=
          fun hall => hall other (.inl hother)
        have hfaulty : visit.IsFaulty definition := ⟨other, hother⟩
        tauto
      · have hsound : ∀ e, ¬visit.HasFault definition e := fun e he => hvisit ⟨e, he⟩
        simp [hsound, hvisit]

/-- Nodes without a fault might as well not be there. -/
theorem firstFault_without {sound : List Visit}
    (hsound : ∀ other, ¬FirstFault definition sound other) :
    FirstFault definition (visits ++ (sound ++ more)) error ↔
      FirstFault definition (visits ++ more) error := by
  simp [firstFault_append, hsound]

theorem exists_firstFault_iff :
    (∃ error, FirstFault definition visits error) ↔
      ∃ visit ∈ visits, visit.IsFaulty definition := by
  induction visits with
  | nil => simp [not_firstFault_nil]
  | cons visit visits ih =>
      simp only [firstFault_cons, exists_or, exists_and_left, ih, List.mem_cons, exists_eq_or_imp]
      show visit.IsFaulty definition ∨ _ ↔ _
      tauto

end FirstFault

/-! ### Steps

What a step reports does not depend on where it is taken. -/

namespace Compilation

variable {α β : Type}

/-- The step fails with these errors and with no others. -/
def Reports (step : Compilation α) (errors : CompileError → Prop) : Prop :=
  ∀ lookups error, (step lookups).1 = .error error ↔ errors error

/-- The step does not fail. -/
def Succeeds (step : Compilation α) : Prop :=
  step.Reports fun _ => False

namespace Reports

theorem congr {step : Compilation α} {errors errors' : CompileError → Prop}
    (hstep : step.Reports errors) (hsame : ∀ error, errors error ↔ errors' error) :
    step.Reports errors' :=
  fun lookups error => (hstep lookups error).trans (hsame error)

theorem fail (error : CompileError) : (fail error : Compilation α).Reports (· = error) := by
  intro lookups other
  simp [eq_comm]

/-- A step that fails with the fault of a node reports what is wrong with the node. -/
theorem fault {definition : Definition} {visit : Visit} {error : CompileError}
    (hfault : visit.HasFault definition error) :
    (Compilation.fail error : Compilation α).Reports (visit.HasFault definition) :=
  (Reports.fail error).congr fun _ =>
    ⟨fun hsame => hsame ▸ hfault, fun hother => hother.unique hfault⟩

/-- Behind a step that is found without fault the next one reports what it would. -/
theorem bind {first : Compilation α} {next : α → Compilation β}
    {errors others : CompileError → Prop} (hfirst : first.Reports errors)
    (hnext : ∀ lookups a trace, first lookups = (.ok a, trace) → (next a).Reports others) :
    (first >>= next).Reports fun error =>
      errors error ∨ (∀ other, ¬errors other) ∧ others error := by
  intro lookups error
  show (Compilation.bind first next lookups).1 = .error error ↔ _
  rcases hrun : first lookups with ⟨found | a, trace⟩
  · have hfound : ∀ other, errors other ↔ other = found := fun other => by
      rw [← hfirst lookups other, hrun]
      simp [eq_comm]
    rw [bind_of_error hrun]
    simp [hfound, eq_comm]
  · have hnone : ∀ other, ¬errors other := fun other => by
      rw [← hfirst lookups other, hrun]
      simp
    rw [bind_of_ok hrun]
    simpa [hnone] using hnext lookups a trace hrun _ error

/-- Before steps that do not fail a step reports all there is to report. -/
theorem bind_succeeds {first : Compilation α} {next : α → Compilation β}
    {errors : CompileError → Prop} (hfirst : first.Reports errors)
    (hnext : ∀ lookups a trace, first lookups = (.ok a, trace) → (next a).Succeeds) :
    (first >>= next).Reports errors :=
  (hfirst.bind hnext).congr (by simp)

/-- A step that was found without fault once does not fail. -/
theorem succeeds {step : Compilation α} {errors : CompileError → Prop} (hstep : step.Reports errors)
    {lookups : Nat} {a : α} {trace : Trace} (run : step lookups = (.ok a, trace)) :
    step.Succeeds := by
  refine hstep.congr fun error => ?_
  rw [← hstep lookups error, run]
  simp

end Reports

namespace Succeeds

theorem pure (a : α) : (Pure.pure a : Compilation α).Succeeds :=
  fun _ _ => ⟨nofun, False.elim⟩

theorem bind {first : Compilation α} {next : α → Compilation β} (hfirst : first.Succeeds)
    (hnext : ∀ a, (next a).Succeeds) : (first >>= next).Succeeds :=
  (Reports.bind hfirst fun _ a _ _ => hnext a).congr (by simp)

theorem lookup (answer : Nat → α) : (lookup answer).Succeeds :=
  fun _ _ => ⟨nofun, False.elim⟩

/-- Behind a step that does not fail the next one reports all there is to report. -/
theorem bind_reports {first : Compilation α} {next : α → Compilation β}
    {errors : CompileError → Prop} (hfirst : first.Succeeds)
    (hnext : ∀ lookups a trace, first lookups = (.ok a, trace) → (next a).Reports errors) :
    (first >>= next).Reports errors :=
  (Reports.bind hfirst hnext).congr (by simp)

end Succeeds

end Compilation

open Compilation (Reports Succeeds)

namespace Registry

variable {definition : Definition}

/-- A comparison does not fail, even if it is dropped. -/
theorem test_succeeds (registry : Registry) (field : Field) {op : Operator} (value : String)
    (hop : op ≠ .not) : (registry.test field op value).Succeeds := by
  obtain ⟨token, htoken⟩ := Operator.exists_token hop
  rw [test_of_token htoken]
  split <;> exact fun _ _ => ⟨nofun, False.elim⟩

theorem testAll_succeeds (registry : Registry) {op : Field → Operator} (value : String)
    {fields : List Field} (hop : ∀ field ∈ fields, op field ≠ .not) :
    (registry.testAll op value fields).Succeeds := by
  induction fields with
  | nil => exact .pure []
  | cons field fields ih =>
      obtain ⟨hfirst, hothers⟩ := List.forall_mem_cons.mp hop
      exact (registry.test_succeeds field value hfirst).bind fun _ =>
        (ih hothers).bind fun _ => .pure _

/-- A value that is looked for in default fields needs one. -/
theorem testDefaults_reports {op : Field → Operator}
    (hop : ∀ field ∈ definition.fields, op field ≠ .not) (given : Option Operator)
    (value : String) :
    (definition.registry.testDefaults given op value).Reports fun error =>
      definition.defaultFields value given = [] ∧ error = .unresolvedField value := by
  refine Succeeds.bind_reports (.lookup _) fun lookups fields trace hfields => ?_
  obtain ⟨⟨⟩, -⟩ := Prod.mk.inj hfields
  show Reports (if (definition.defaultFields value given).isEmpty then _ else _) _
  split
  next hempty => exact (Reports.fail _).congr fun error => by simp [List.isEmpty_iff.mp hempty]
  next hsome =>
    have hfields : ∀ field ∈ definition.defaultFields value given, op field ≠ .not :=
      fun field hmem => hop field (Definition.mem_of_mem_defaultFields hmem)
    have htests := (testAll_succeeds definition.registry value hfields).bind fun tests =>
      Succeeds.pure (Condition.join .or tests)
    refine Reports.congr htests fun error => ?_
    simp_all

/-- A value that is looked for in a field needs one with that name. -/
theorem testNamed_reports (name : String) {op : Operator} (value : String) (hop : op ≠ .not) :
    (definition.registry.testNamed name op value).Reports fun error =>
      definition.field? name = none ∧ error = .unknownField name := by
  refine Succeeds.bind_reports (.lookup _) fun lookups found trace hfound => ?_
  obtain ⟨hfound, -⟩ := Prod.mk.inj hfound
  obtain rfl : definition.field? name = found := Except.ok.inj hfound
  cases hfield : definition.field? name with
  | none => exact (Reports.fail _).congr (by simp)
  | some field => exact (test_succeeds _ field value hop).congr (by simp)

end Registry

/-- A negation reports what its operand does, and nothing when the operand is compiled again. -/
theorem Condition.negate_reports {compile : Compilation (Option Condition)}
    {errors : CompileError → Prop} (hcompile : compile.Reports errors) :
    (negate compile).Reports errors := by
  refine hcompile.bind_succeeds fun lookups negated trace hfirst => ?_
  cases negated with
  | none => exact .pure none
  | some negated =>
      refine (hcompile.succeeds hfirst).bind fun nullCheck => ?_
      cases nullCheck <;> exact .pure _

namespace Node

variable {definition : Definition} {depth : Nat}

theorem visitsAll_eq_flatMap (depth : Nat) (nodes : List Node) :
    visitsAll depth nodes = nodes.flatMap (visits depth) := by
  induction nodes with
  | nil => rfl
  | cons node nodes ih => rw [visitsAll, ih, List.flatMap_cons]

theorem visits_leaf (depth : Nat) (value : String) :
    (leaf value).visits depth = [⟨depth, leaf value⟩] :=
  rfl

theorem visits_logical (depth : Nat) (op : Connective) (operands : List Node) :
    (logical op operands).visits depth =
      ⟨depth, logical op operands⟩ :: operands.flatMap (visits depth) := by
  rw [visits, visitsAll_eq_flatMap]

theorem visits_not (depth : Nat) (operand : Node) :
    (operator .not [operand]).visits depth =
      ⟨depth, operator .not [operand]⟩ :: operand.visits (depth + 1) := by
  rw [visits, visitsAll_eq_flatMap, List.flatMap_singleton]

/-- The compiler comes to every tree at its root. -/
theorem exists_visits_eq_cons (depth : Nat) (node : Node) :
    ∃ more, node.visits depth = ⟨depth, node⟩ :: more := by
  unfold visits
  split <;> exact ⟨_, rfl⟩

/-- The fault of a node is reported whatever lies below it. -/
theorem fail_reports {node : Node} {error : CompileError}
    (hfault : Visit.HasFault definition ⟨depth, node⟩ error) :
    (Compilation.fail error : Compilation (Option Condition)).Reports
      (FirstFault definition (node.visits depth)) := by
  obtain ⟨more, hvisits⟩ := exists_visits_eq_cons depth node
  refine (Reports.fail error).congr fun other => ?_
  rw [hvisits, firstFault_cons]
  constructor
  · rintro rfl
    exact .inl hfault
  · rintro (hother | ⟨hsound, -⟩)
    · exact hother.unique hfault
    · exact absurd ⟨error, hfault⟩ hsound

theorem compileAll_reports {nodes : List Node}
    (hnodes : ∀ node ∈ nodes, (node.compile definition.registry depth).Reports
      (FirstFault definition (node.visits depth))) :
    (compileAll definition.registry depth nodes).Reports
      (FirstFault definition (nodes.flatMap (visits depth))) := by
  induction nodes with
  | nil => exact (Succeeds.pure []).congr fun error => by simp [not_firstFault_nil]
  | cons node nodes ih =>
      obtain ⟨hnode, hothers⟩ := List.forall_mem_cons.mp hnodes
      have hrest : ∀ first : Option Condition,
          (do
            let conditions ← compileAll definition.registry depth nodes
            return first :: conditions).Reports
          (FirstFault definition (nodes.flatMap (visits depth))) := fun first =>
        (ih hothers).bind_succeeds fun _ conditions _ _ => .pure (first :: conditions)
      refine Reports.congr (hnode.bind fun _ first _ _ => hrest first) fun error => ?_
      rw [List.flatMap_cons, firstFault_append]

theorem comparePrefixed_reports {op : Operator} (hop : op ≠ .not) (value : Node) :
    (definition.registry.comparePrefixed op value).Reports
      (Visit.HasFault definition ⟨depth, operator op [value]⟩) := by
  cases value with
  | leaf text =>
      refine (Registry.testDefaults_reports (fun _ _ => hop) (some op) text).congr fun error => ?_
      constructor
      · rintro ⟨hnone, rfl⟩
        exact .prefixedUnresolved hop hnone
      · intro hfault
        cases hfault <;> simp_all [leafValue?]
  | operator | logical => exact .fault (.prefixedValue hop rfl)

theorem compareNamed_reports {op : Operator} (hop : op ≠ .not) (left right : Node) :
    (definition.registry.compareNamed op left right).Reports
      (Visit.HasFault definition ⟨depth, operator op [left, right]⟩) := by
  cases left with
  | operator | logical => exact .fault (.namedField hop rfl)
  | leaf name =>
      cases right with
      | operator | logical => exact .fault (.namedValue hop rfl)
      | leaf value =>
          refine (Registry.testNamed_reports name value hop).congr fun error => ?_
          constructor
          · rintro ⟨hnone, rfl⟩
            exact .namedUnknown hop hnone
          · intro hfault
            cases hfault <;> simp_all [leafValue?]

/-- A comparison is come to alone. -/
theorem visits_comparison {op : Operator} (hop : op ≠ .not) (depth : Nat) (operands : List Node) :
    (operator op operands).visits depth = [⟨depth, operator op operands⟩] := by
  cases op with
  | not => exact absurd rfl hop
  | _ => rfl

/-- A list with operands has no fault of its own. -/
theorem firstFault_logical {op : Connective} {operands : List Node} (hsome : operands ≠ [])
    {error : CompileError} :
    FirstFault definition ((logical op operands).visits depth) error ↔
      FirstFault definition (operands.flatMap (visits depth)) error := by
  rw [visits_logical]
  apply firstFault_cons_of_sound
  intro other hfault
  cases hfault
  exact hsome rfl

/-- A tree reports the first fault on the way through it. -/
theorem compile_reports (hcompares : ∀ field ∈ definition.fields, field.defaultOperator ≠ .not)
    (node : Node) (depth : Nat) :
    (node.compile definition.registry depth).Reports
      (FirstFault definition (node.visits depth)) := by
  refine compile_induction (motive := fun node depth step =>
    step.Reports (FirstFault definition (node.visits depth)))
    ?keyword ?prefixed ?named ?malformed ?deepNegation ?negation ?emptyList ?list node depth
  case keyword =>
      intro value depth
      refine (Registry.testDefaults_reports hcompares none value).congr fun error => ?_
      rw [visits_leaf, firstFault_singleton]
      constructor
      · rintro ⟨hnone, rfl⟩
        exact .keywordUnresolved hnone
      · intro hfault
        cases hfault
        simp_all
  case prefixed =>
      intro op value depth hop
      rw [visits_comparison hop]
      exact (comparePrefixed_reports hop value).congr fun error => firstFault_singleton.symm
  case named =>
      intro op left right depth hop
      rw [visits_comparison hop]
      exact (compareNamed_reports hop left right).congr fun error => firstFault_singleton.symm
  case malformed =>
      intro op operands depth arity
      unfold HasArity at arity
      by_cases hop : op = .not
      · subst hop
        exact fail_reports (.negationArity (by tauto))
      · exact fail_reports (.comparisonArity hop (by tauto) (by tauto))
  case deepNegation =>
      intro operand depth hdeep
      exact fail_reports (.negationDepth hdeep)
  case negation =>
      intro operand depth hshallow hoperand
      have hsound : ∀ other, ¬Visit.HasFault definition ⟨depth, not operand⟩ other := by
        intro other hfault
        cases hfault with
        | negationDepth hdeep => exact absurd hdeep (Nat.not_le_of_lt hshallow)
        | _ => simp_all
      rw [Node.not, visits_not]
      exact (Condition.negate_reports hoperand).congr fun error =>
        (firstFault_cons_of_sound hsound).symm
  case emptyList =>
      intro op depth
      exact fail_reports .noOperands
  case list =>
      intro op operands depth hsome hoperands
      have hmembers := compileAll_reports hoperands
      exact (hmembers.bind_succeeds fun _ conditions _ _ => .pure _).congr fun error =>
        (firstFault_logical hsome).symm

end Node

namespace Renderer

variable {definition : Definition} {node operand : Node} {error : CompileError}

theorem compile_eq_error_iff
    (hcompares : ∀ field ∈ definition.fields, field.defaultOperator ≠ .not) :
    ((fresh definition.registry).compile node).1 = .error error ↔
      FirstFault definition (node.visits 0) error :=
  takeFragment_eq_error_iff.trans (node.compile_reports hcompares 0 0 error)

/-- A member that compiles, be it to nothing, has no say in what a list reports. -/
theorem compile_logical_without
    (hcompares : ∀ field ∈ definition.fields, field.defaultOperator ≠ .not) {fragment : Fragment}
    (hoperand : ((fresh definition.registry).compile operand).1 = .ok fragment) (op : Connective)
    {before after : List Node} (hsome : before ++ after ≠ []) :
    ((fresh definition.registry).compile (.logical op (before ++ operand :: after))).1 =
        .error error ↔
      ((fresh definition.registry).compile (.logical op (before ++ after))).1 = .error error := by
  have hsound : ∀ other, ¬FirstFault definition (operand.visits 0) other := by
    intro other hfault
    rw [← compile_eq_error_iff hcompares, hoperand] at hfault
    cases hfault
  rw [compile_eq_error_iff hcompares, compile_eq_error_iff hcompares,
    Node.firstFault_logical hsome, Node.firstFault_logical (by simp), List.flatMap_append,
    List.flatMap_append, List.flatMap_cons, firstFault_without hsound]

/-- A tree that compiled compiles again to the same, and binds the same once more. -/
theorem takeFragment_again {params : List BindValue} {lookups depth : Nat} {fragment : Fragment}
    {after : Renderer}
    (hfirst : (⟨definition.registry, params, lookups⟩ : Renderer).takeFragment
      (operand.compile definition.registry depth) = (.ok fragment, after)) :
    ∃ bound after', after.params = params ++ bound ∧
      after.takeFragment (operand.compile definition.registry depth) = (.ok fragment, after') ∧
      after'.params = after.params ++ bound := by
  obtain ⟨condition, trace, hrun, rfl, hparams⟩ := takeFragment_eq_ok hfirst
  have hagain : operand.compile definition.registry depth after.lookups =
      (.ok condition, trace) := by
    rw [← hrun]
    exact operand.compile_steady definition depth _ _
  exact ⟨trace.bound, _, hparams, takeFragment_of_ok hagain, rfl⟩

/-- A compilation fails exactly if there is a node with a fault on the way through the tree, and
reports the fault of the first of them. Members that compile make no difference to that, also if
nothing is left of them, and what is compiled again under a negation compiles as it did before. -/
theorem compile_first_fault (builder : Builder) (definition : Definition)
    (hbuild : builder.build = .ok definition) :
    (∀ node error, ((fresh definition.registry).compile node).1 = .error error ↔
      ∃ before visit after, node.visits 0 = before ++ visit :: after ∧
        (∀ earlier ∈ before, ¬earlier.IsFaulty definition) ∧ visit.HasFault definition error) ∧
    (∀ node, (∃ error, ((fresh definition.registry).compile node).1 = .error error) ↔
      ∃ visit ∈ node.visits 0, visit.IsFaulty definition) ∧
    (∀ op before operand after fragment, before ++ after ≠ [] →
      ((fresh definition.registry).compile operand).1 = .ok fragment →
      ∀ error,
        ((fresh definition.registry).compile (.logical op (before ++ operand :: after))).1 =
            .error error ↔
          ((fresh definition.registry).compile (.logical op (before ++ after))).1 =
            .error error) ∧
    ∀ (operand : Node) depth params lookups fragment (after : Renderer),
      (⟨definition.registry, params, lookups⟩ : Renderer).takeFragment
        (operand.compile definition.registry depth) = (.ok fragment, after) →
      ∃ bound after', after.params = params ++ bound ∧
        after.takeFragment (operand.compile definition.registry depth) =
          (.ok fragment, after') ∧
        after'.params = after.params ++ bound := by
  have hcompares := Builder.build_compares hbuild
  refine ⟨fun node error => compile_eq_error_iff hcompares, fun node => ?_,
    fun op before operand after fragment hsome hoperand error => ?_,
    fun operand depth params lookups fragment after => takeFragment_again⟩
  · simp only [compile_eq_error_iff hcompares, exists_firstFault_iff]
  · exact compile_logical_without hcompares hoperand op hsome

/-- A date that cannot be read hides nothing: people have no field with the name behind it, and that
is reported rather than the list without operands which comes last. -/
theorem compile_first_fault_people :
    ((fresh Sample.people.registry).compile (.comparison "born_on" .gt "soon")).1 = .ok none ∧
    ((fresh Sample.people.registry).compile
      (.logical .and [.comparison "born_on" .gt "soon", .not (.comparison "nick" .eq "Ann"),
        .logical .or []])).1 = .error (.unknownField "nick") ∧
    ∃ after, (⟨Sample.people.registry, [.string "Ann"], 1⟩ : Renderer).takeFragment
        ((Node.comparison "name" .eq "Ann").compile Sample.people.registry 0) =
          (.ok (some "people.name = ?"), after) ∧
      after.params = [.string "Ann", .string "Ann"] := by
  have hbuild : (⟨"people", .utc, [{ name := "name", type := .string },
      { name := "born_on", type := .date }]⟩ : Builder).build = .ok Sample.people := rfl
  obtain ⟨hfirst, -, hwithout, hagain⟩ := compile_first_fault _ _ hbuild
  have hdropped :
      ((fresh Sample.people.registry).compile (.comparison "born_on" .gt "soon")).1 = .ok none :=
    rfl
  refine ⟨hdropped, ?_, ?_⟩
  · refine (hwithout .and [] _ _ none (by simp) hdropped _).mpr ((hfirst _ _).mpr ?_)
    refine ⟨[⟨0, _⟩, ⟨0, _⟩], ⟨1, .comparison "nick" .eq "Ann"⟩, [⟨0, .logical .or []⟩], rfl, ?_,
      .namedUnknown nofun rfl⟩
    rintro earlier hearlier ⟨error, hfault⟩
    obtain rfl | rfl : earlier = _ ∨ earlier = _ := by simpa using hearlier
    · cases hfault
    · cases hfault <;> simp_all
  · obtain ⟨bound, after, hbound, hsecond, hparams⟩ :=
      hagain (.comparison "name" .eq "Ann") 0 [] 0 (some "people.name = ?")
        ⟨Sample.people.registry, [.string "Ann"], 1⟩ rfl
    obtain rfl : [.string "Ann"] = bound := hbound
    exact ⟨after, hsecond, hparams⟩

end Renderer

end FieldSearch
