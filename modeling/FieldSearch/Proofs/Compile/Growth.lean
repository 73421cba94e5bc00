import FieldSearch.Proofs.Compile.Faults
import FieldSearch.Proofs.Compile.Pruning
import FieldSearch.Proofs.Query.Terms
import Mathlib.Tactic.Ring

/-! How many values a compilation binds. A negation compiles its operand twice, so values double
with every negation around a term; but there are never more than eight of them, and what fails has
bound no more than what succeeds could have. If a tree compiles, the values are counted exactly: one
for every test of a term, twice as many for each negation around it, and none for a term that is
dropped. -/

namespace FieldSearch

namespace Compilation

variable {α β : Type}

/-- The step binds so many values at most, whether it succeeds or fails. -/
def BindsAtMost (step : Compilation α) (most : Nat) : Prop :=
  ∀ lookups, (step lookups).2.bound.length ≤ most

namespace BindsAtMost

variable {step : Compilation α} {m n : Nat}

theorem mono (hstep : step.BindsAtMost m) (hle : m ≤ n) : step.BindsAtMost n :=
  fun lookups => (hstep lookups).trans hle

theorem pure (a : α) : (Pure.pure a : Compilation α).BindsAtMost n :=
  fun _ => Nat.zero_le n

theorem fail (error : CompileError) : (fail error : Compilation α).BindsAtMost n :=
  fun _ => Nat.zero_le n

theorem lookup (answer : Nat → α) : (lookup answer).BindsAtMost 0 :=
  fun _ => Nat.le_refl 0

/-- Two steps bind what each of them binds, the second one as it goes on from the first. -/
theorem bind {first : Compilation α} {next : α → Compilation β} (hfirst : first.BindsAtMost m)
    (hnext : ∀ lookups a trace, first lookups = (.ok a, trace) → (next a).BindsAtMost n) :
    (first >>= next).BindsAtMost (m + n) := by
  intro lookups
  show (Compilation.bind first next lookups).2.bound.length ≤ m + n
  rcases hrun : first lookups with ⟨error | a, trace⟩
  · have hbefore : trace.bound.length ≤ m := by simpa [hrun] using hfirst lookups
    rw [bind_of_error hrun]
    show trace.bound.length ≤ m + n
    omega
  · have hbefore : trace.bound.length ≤ m := by simpa [hrun] using hfirst lookups
    have hafter := hnext lookups a trace hrun (lookups + trace.lookups)
    rw [bind_of_ok hrun, Trace.bound_append, List.length_append]
    omega

/-- A last step that binds nothing. -/
theorem map (hstep : step.BindsAtMost n) (f : α → β) :
    (do return f (← step)).BindsAtMost n :=
  hstep.bind fun _ _ _ _ => BindsAtMost.pure (n := 0) _

end BindsAtMost

end Compilation

open Compilation (BindsAtMost)

namespace Registry

variable {definition : Definition}

theorem test_bindsAtMost (registry : Registry) (field : Field) (op : Operator) (value : String) :
    (registry.test field op value).BindsAtMost 1 := by
  cases htoken : op.token? with
  | none =>
      unfold test
      rw [htoken]
      exact .fail _
  | some token =>
      rw [test_of_token htoken]
      cases field.boundValue? registry.zone op value with
      | some bound => exact fun _ => Nat.le_refl 1
      | none => exact fun _ => Nat.zero_le 1

theorem testAll_bindsAtMost (registry : Registry) (op : Field → Operator) (value : String)
    (fields : List Field) : (registry.testAll op value fields).BindsAtMost fields.length := by
  induction fields with
  | nil => exact .pure []
  | cons field fields ih =>
      have hrest : ∀ first : Option Condition,
          (do
            let others ← registry.testAll op value fields
            return first :: others).BindsAtMost fields.length :=
        fun first => ih.map (first :: ·)
      have hboth := (registry.test_bindsAtMost field (op field) value).bind fun _ first _ _ =>
        hrest first
      exact hboth.mono (by rw [List.length_cons]; omega)

/-- Default fields are fields. -/
theorem testDefaults_bindsAtMost (given : Option Operator) (op : Field → Operator)
    (value : String) :
    (definition.registry.testDefaults given op value).BindsAtMost definition.fields.length := by
  have hle : (definition.defaultFields value given).length ≤ definition.fields.length :=
    List.length_filter_le _ _
  rw [← Nat.zero_add definition.fields.length]
  refine BindsAtMost.bind (.lookup _) fun lookups fields trace hlookup => ?_
  obtain ⟨⟨⟩, -⟩ := Prod.mk.inj hlookup
  split
  · exact .fail _
  · exact ((testAll_bindsAtMost _ op value _).map _).mono hle

/-- The field with a name is one of the fields. -/
theorem testNamed_bindsAtMost (name : String) (op : Operator) (value : String) :
    (definition.registry.testNamed name op value).BindsAtMost definition.fields.length := by
  rw [← Nat.zero_add definition.fields.length]
  refine BindsAtMost.bind (.lookup _) fun lookups found trace hlookup => ?_
  obtain ⟨hfound, -⟩ := Prod.mk.inj hlookup
  obtain rfl : definition.field? name = found := Except.ok.inj hfound
  cases hfield : definition.field? name with
  | none => exact .fail _
  | some field =>
      have hsome : 0 < definition.fields.length :=
        List.length_pos_of_mem (Definition.mem_of_field? hfield)
      exact (test_bindsAtMost _ field op value).mono hsome

end Registry

/-- Both times the operand is compiled it binds the same at most. -/
theorem Condition.negate_bindsAtMost {compile : Compilation (Option Condition)} {most : Nat}
    (hcompile : compile.BindsAtMost most) : (negate compile).BindsAtMost (most + most) := by
  refine hcompile.bind fun _ negated _ _ => ?_
  cases negated with
  | none => exact .pure none
  | some negated =>
      rw [← Nat.add_zero most]
      refine hcompile.bind fun _ nullCheck _ _ => ?_
      cases nullCheck <;> exact .pure _

/-! ### Terms in their places -/

/-- The term that a node is, if it is one. -/
def Node.term? : Node → Option Term
  | .leaf value => some (.keyword value)
  | .operator .not _ => none
  | .operator op [.leaf value] => some (.prefixed op value)
  | .operator op [.leaf field, .leaf value] => some (.comparison field op value)
  | _ => none

/-- A term with the number of negations around it. -/
structure PlacedTerm where
  negations : Nat
  term : Term
  deriving DecidableEq, Repr

def Visit.term? (visit : Visit) : Option PlacedTerm :=
  visit.node.term?.map (⟨visit.negations, ·⟩)

/-- The terms of a tree inside a number of negations. -/
def Node.placedTerms (negations : Nat) (node : Node) : List PlacedTerm :=
  (node.visits negations).filterMap Visit.term?

namespace Node

theorem term?_prefixed {op : Operator} (hop : op ≠ .not) (value : String) :
    (operator op [leaf value]).term? = some (.prefixed op value) := by
  simp [term?]

theorem term?_named {op : Operator} (hop : op ≠ .not) (name value : String) :
    (operator op [leaf name, leaf value]).term? = some (.comparison name op value) := by
  simp [term?]

theorem placedTerms_leaf (depth : Nat) (value : String) :
    (leaf value).placedTerms depth = [⟨depth, .keyword value⟩] :=
  rfl

theorem placedTerms_not (depth : Nat) (operand : Node) :
    (operator .not [operand]).placedTerms depth = operand.placedTerms (depth + 1) := by
  rw [placedTerms, visits_not]
  rfl

theorem placedTerms_comparison {op : Operator} (hop : op ≠ .not) (depth : Nat)
    (operands : List Node) :
    (operator op operands).placedTerms depth =
      ((operator op operands).term?.map fun term => ⟨depth, term⟩).toList := by
  rw [placedTerms, visits_comparison hop]
  cases hterm : (operator op operands).term? <;> simp [Visit.term?, hterm]

theorem placedTerms_logical (depth : Nat) (op : Connective) (operands : List Node) :
    (logical op operands).placedTerms depth = operands.flatMap (placedTerms depth) := by
  rw [placedTerms, visits_logical, List.filterMap_cons_none rfl, List.filterMap_flatMap]
  rfl

theorem allTerms_eq_flatMap (nodes : List Node) : allTerms nodes = nodes.flatMap terms := by
  induction nodes with
  | nil => rfl
  | cons node nodes ih => rw [allTerms, ih, List.flatMap_cons]

theorem terms_comparison {op : Operator} (hop : op ≠ .not) (operands : List Node) :
    (operator op operands).terms = (operator op operands).term?.toList := by
  unfold terms term?
  split <;> simp_all

theorem map_term_flatMap_placedTerms {nodes : List Node} {depth : Nat}
    (hnodes : ∀ node ∈ nodes, (node.placedTerms depth).map PlacedTerm.term = node.terms) :
    (nodes.flatMap (placedTerms depth)).map PlacedTerm.term = allTerms nodes := by
  rw [allTerms_eq_flatMap, List.map_flatMap]
  exact List.flatMap_congr hnodes

/-- Each term has its place. -/
theorem map_term_placedTerms (node : Node) (depth : Nat) :
    (node.placedTerms depth).map PlacedTerm.term = node.terms := by
  induction node using Node.induction generalizing depth with
  | leaf value => rfl
  | operator op operands ih =>
      by_cases hop : op = .not
      · subst hop
        rw [placedTerms, visits, visitsAll_eq_flatMap, List.filterMap_cons_none rfl,
          List.filterMap_flatMap, terms]
        exact map_term_flatMap_placedTerms fun operand hoperand => ih operand hoperand (depth + 1)
      · rw [placedTerms_comparison hop, terms_comparison hop]
        cases (operator op operands).term? <;> rfl
  | logical op operands ih =>
      rw [placedTerms_logical, terms]
      exact map_term_flatMap_placedTerms fun operand hoperand => ih operand hoperand depth

end Node

/-! ### At most

A negation at a depth doubles what its operand binds, and there may be one at every depth below the
limit. -/

namespace Node

variable {definition : Definition}

theorem comparePrefixed_bindsAtMost {op : Operator} (hop : op ≠ .not) (value : Node) :
    (definition.registry.comparePrefixed op value).BindsAtMost
      (definition.fields.length * (operator op [value]).terms.length) := by
  cases value with
  | leaf text =>
      rw [terms_comparison hop, term?_prefixed hop]
      exact (Registry.testDefaults_bindsAtMost _ _ text).mono (Nat.le_mul_of_pos_right _ (by simp))
  | operator | logical => exact .fail _

theorem compareNamed_bindsAtMost {op : Operator} (hop : op ≠ .not) (left right : Node) :
    (definition.registry.compareNamed op left right).BindsAtMost
      (definition.fields.length * (operator op [left, right]).terms.length) := by
  cases left with
  | operator | logical => exact .fail _
  | leaf name =>
      cases right with
      | operator | logical => exact .fail _
      | leaf value =>
          rw [terms_comparison hop, term?_named hop]
          exact (Registry.testNamed_bindsAtMost name op value).mono
            (Nat.le_mul_of_pos_right _ (by simp))

theorem compileAll_bindsAtMost {registry : Registry} {depth factor : Nat} {nodes : List Node}
    (hnodes : ∀ node ∈ nodes,
      (node.compile registry depth).BindsAtMost (factor * node.terms.length)) :
    (compileAll registry depth nodes).BindsAtMost (factor * (allTerms nodes).length) := by
  induction nodes with
  | nil => exact .pure []
  | cons node nodes ih =>
      obtain ⟨hnode, hothers⟩ := List.forall_mem_cons.mp hnodes
      have hrest : ∀ first : Option Condition,
          (do
            let conditions ← compileAll registry depth nodes
            return first :: conditions).BindsAtMost (factor * (allTerms nodes).length) :=
        fun first => (ih hothers).map (first :: ·)
      rw [allTerms, List.length_append, Nat.mul_add]
      exact hnode.bind fun _ first _ _ => hrest first

theorem compile_bindsAtMost (node : Node) (depth : Nat) :
    (node.compile definition.registry depth).BindsAtMost
      (2 ^ (negationLimit - depth) * definition.fields.length * node.terms.length) := by
  have hfactor : ∀ depth n, definition.fields.length * n ≤
      2 ^ (negationLimit - depth) * definition.fields.length * n := fun depth n =>
    Nat.mul_le_mul_right n (Nat.le_mul_of_pos_left _ (Nat.two_pow_pos _))
  refine compile_induction (motive := fun node depth step => step.BindsAtMost
    (2 ^ (negationLimit - depth) * definition.fields.length * node.terms.length))
    ?keyword ?prefixed ?named ?malformed ?deepNegation ?negation ?emptyList ?list node depth
  case keyword =>
      intro value depth
      have hone : definition.fields.length ≤
          2 ^ (negationLimit - depth) * definition.fields.length * (leaf value).terms.length := by
        simpa [terms] using hfactor depth 1
      exact (Registry.testDefaults_bindsAtMost none Field.defaultOperator value).mono hone
  case prefixed =>
      exact fun op value depth hop => (comparePrefixed_bindsAtMost hop value).mono (hfactor depth _)
  case named =>
      exact fun op left right depth hop =>
        (compareNamed_bindsAtMost hop left right).mono (hfactor depth _)
  case malformed => exact fun _ _ _ _ => .fail _
  case deepNegation => exact fun _ _ _ => .fail _
  case negation =>
      intro operand depth hshallow hoperand
      have htwice := Condition.negate_bindsAtMost hoperand
      have hpow : 2 ^ (negationLimit - depth) = 2 * 2 ^ (negationLimit - (depth + 1)) := by
        rw [← Nat.pow_succ']
        congr 1
        omega
      rw [terms_not, hpow, Nat.mul_assoc, Nat.mul_assoc, Nat.two_mul, ← Nat.mul_assoc]
      exact htwice
  case emptyList => exact fun _ _ => .fail _
  case list =>
      intro op operands depth hsome hoperands
      rw [terms]
      exact (compileAll_bindsAtMost hoperands).map _

end Node

/-! ### Exactly -/

/-- The fields that a term is tested in. -/
def Term.fields (definition : Definition) : Term → List Field
  | .keyword value => definition.defaultFields value none
  | .prefixed op value => definition.defaultFields value (some op)
  | .comparison name _ _ => (definition.field? name).toList

/-- The term is a comparison whose field cannot read the value. -/
def Term.IsDropped (definition : Definition) : Term → Prop
  | .comparison name op value => definition.Rejects name op value
  | _ => False

instance (definition : Definition) : DecidablePred (Term.IsDropped definition)
  | .comparison name op value => inferInstanceAs (Decidable (definition.Rejects name op value))
  | .keyword _ | .prefixed _ _ => inferInstanceAs (Decidable False)

/-- The number of values bound for terms: one for each test, twice as many for each negation. -/
def boundCount (definition : Definition) (terms : List PlacedTerm) : Nat :=
  ((terms.filter fun placed => ¬placed.term.IsDropped definition).map fun placed =>
    (placed.term.fields definition).length * 2 ^ placed.negations).sum

/-- The values bound at a depth are as many as the terms call for, and no term is inside more
negations than there may be. -/
structure Counts (definition : Definition) (depth : Nat) (terms : List PlacedTerm)
    (bound : List BindValue) : Prop where
  count : bound.length * 2 ^ depth = boundCount definition terms
  shallow : ∀ placed ∈ terms, placed.negations ≤ negationLimit

namespace Counts

variable {definition : Definition} {depth : Nat} {terms others : List PlacedTerm}
  {bound more : List BindValue} {term : Term}

theorem nil : Counts definition depth [] [] where
  count := Nat.zero_mul _
  shallow := nofun

theorem append (hterms : Counts definition depth terms bound)
    (hothers : Counts definition depth others more) :
    Counts definition depth (terms ++ others) (bound ++ more) where
  count := by
    have hsum : boundCount definition (terms ++ others) =
        boundCount definition terms + boundCount definition others := by
      simp [boundCount]
    rw [hsum, ← hterms.count, ← hothers.count, List.length_append, Nat.add_mul]
  shallow placed hplaced :=
    (List.mem_append.mp hplaced).elim (hterms.shallow placed) (hothers.shallow placed)

theorem tested (hdepth : depth ≤ negationLimit) (hkept : ¬term.IsDropped definition)
    (hlength : bound.length = (term.fields definition).length) :
    Counts definition depth [⟨depth, term⟩] bound where
  count := by simp [boundCount, hkept, hlength]
  shallow := by simpa using hdepth

theorem dropped (hdepth : depth ≤ negationLimit) (hdropped : term.IsDropped definition) :
    Counts definition depth [⟨depth, term⟩] [] where
  count := by simp [boundCount, hdropped]
  shallow := by simpa using hdepth

/-- What is bound twice inside one negation less is counted the same. -/
theorem twice (hterms : Counts definition (depth + 1) terms bound) :
    Counts definition depth terms (bound ++ bound) where
  count := by
    rw [← hterms.count, List.length_append]
    ring
  shallow := hterms.shallow

theorem outside (hterms : Counts definition (depth + 1) terms []) :
    Counts definition depth terms [] where
  count := by
    rw [← hterms.count, List.length_nil, Nat.zero_mul, Nat.zero_mul]
  shallow := hterms.shallow

end Counts

/-- Tests of fields that can read the value bind it once for each field. -/
theorem TestsTo.length_bound {zone : Calendar.Zone} {op : Field → Operator} {value : String}
    {fields : List Field} {yields : List Yield} (htests : TestsTo zone op value fields yields)
    (hbinds : ∀ field ∈ fields, (field.boundValue? zone (op field) value).isSome) :
    (yields.flatMap Yield.bound).length = fields.length := by
  induction htests with
  | nil => rfl
  | cons htoken _ ih =>
      obtain ⟨hfirst, hothers⟩ := List.forall_mem_cons.mp hbinds
      obtain ⟨bound, hbound⟩ := Option.isSome_iff_exists.mp hfirst
      rw [List.flatMap_cons, List.length_append, ih hothers, List.length_cons]
      simp [Field.yield, hbound, Nat.add_comm]

namespace Registry

variable {definition : Definition} {lookups depth : Nat} {condition : Option Condition}
  {trace : Trace}

theorem testDefaults_length {given : Option Operator} {op : Field → Operator} {value : String}
    (run : definition.registry.testDefaults given op value lookups = (.ok condition, trace)) :
    trace.bound.length = (definition.defaultFields value given).length := by
  obtain ⟨-, yields, htests, hyield⟩ := testDefaults_eq_ok run
  have hbound : yields.flatMap Yield.bound = trace.bound := congrArg Yield.bound hyield
  rw [← hbound]
  exact htests.length_bound fun field hfield => Definition.boundValue?_isSome hfield (op field)

/-- A comparison with a field binds its value unless it is dropped. -/
theorem testNamed_counts {name : String} {op : Operator} {value : String}
    (run : definition.registry.testNamed name op value lookups = (.ok condition, trace))
    (hdepth : depth ≤ negationLimit) :
    Counts definition depth [⟨depth, .comparison name op value⟩] trace.bound := by
  obtain ⟨field, token, hfield, -, hyield⟩ := testNamed_eq_ok run
  have hname : definition.field? name = some field := hfield
  have hbound : (field.yield definition.zone token op value).bound = trace.bound :=
    congrArg Yield.bound hyield
  rw [← hbound]
  unfold Field.yield
  cases hvalue : field.boundValue? definition.zone op value with
  | none =>
      have hrejects := Field.boundValue?_eq_none_iff.mp hvalue
      exact .dropped hdepth ((Definition.rejects_iff hname).mpr hrejects)
  | some bound =>
      refine .tested hdepth (fun hdropped => ?_) (by simp [Term.fields, hname])
      have hnone := Field.boundValue?_eq_none_iff.mpr ((Definition.rejects_iff hname).mp hdropped)
      simp [hnone] at hvalue

end Registry

namespace Node

variable {definition : Definition}

theorem compileAll_counts {depth : Nat} {nodes : List Node}
    (hnodes : ∀ node ∈ nodes, ∀ {lookups : Nat} {condition : Option Condition} {trace : Trace},
      node.compile definition.registry depth lookups = (.ok condition, trace) →
        Counts definition depth (node.placedTerms depth) trace.bound)
    {lookups : Nat} {conditions : List (Option Condition)} {trace : Trace}
    (run : compileAll definition.registry depth nodes lookups = (.ok conditions, trace)) :
    Counts definition depth (nodes.flatMap (placedTerms depth)) trace.bound := by
  induction nodes generalizing lookups conditions trace with
  | nil =>
      obtain ⟨-, rfl⟩ := Prod.mk.inj run
      exact .nil
  | cons node nodes ih =>
      obtain ⟨found, before, after, hfirst, hothers, rfl⟩ := Compilation.bind_eq_ok.mp run
      obtain ⟨others, middle, last, htail, hlast, rfl⟩ := Compilation.bind_eq_ok.mp hothers
      obtain ⟨-, rfl⟩ := Prod.mk.inj hlast
      have hnode := hnodes node (by simp) hfirst
      have hrest := ih (fun node hnode => hnodes node (by simp [hnode])) htail
      rw [List.flatMap_cons]
      simpa using hnode.append hrest

/-- A tree that compiles binds what its terms call for. -/
theorem compile_counts {node : Node} {depth lookups : Nat} {condition : Option Condition}
    {trace : Trace} (hdepth : depth ≤ negationLimit)
    (run : node.compile definition.registry depth lookups = (.ok condition, trace)) :
    Counts definition depth (node.placedTerms depth) trace.bound := by
  refine compile_induction (motive := fun node depth step => depth ≤ negationLimit →
    ∀ {lookups condition trace}, step lookups = (.ok condition, trace) →
      Counts definition depth (node.placedTerms depth) trace.bound)
    ?keyword ?prefixed ?named ?malformed ?deepNegation ?negation ?emptyList ?list node depth
    hdepth run
  case keyword =>
      intro value depth hdepth lookups condition trace run
      rw [placedTerms_leaf]
      exact .tested hdepth id (Registry.testDefaults_length run)
  case prefixed =>
      intro op value depth hop hdepth lookups condition trace run
      obtain ⟨text, rfl, hdefaults⟩ := Registry.comparePrefixed_eq_ok run
      rw [placedTerms_comparison hop, term?_prefixed hop]
      exact .tested hdepth id (Registry.testDefaults_length hdefaults)
  case named =>
      intro op left right depth hop hdepth lookups condition trace run
      obtain ⟨name, value, rfl, rfl, hnamed⟩ := Registry.compareNamed_eq_ok run
      rw [placedTerms_comparison hop, term?_named hop]
      exact Registry.testNamed_counts hnamed hdepth
  case malformed => simp
  case deepNegation => simp
  case negation =>
      intro operand depth hshallow hoperand hdepth lookups condition trace run
      rw [not, placedTerms_not]
      obtain ⟨first, ⟨hfirst, rfl, hbound⟩ | ⟨negated, hfirst, rfl, hbound⟩⟩ :=
        Condition.negate_eq_ok_of_steady (compile_steady definition operand _) run
      · have hcounts := hoperand hshallow hfirst
        rw [bound_eq_nil_of_dropped hfirst] at hcounts hbound
        rw [hbound]
        exact hcounts.outside
      · rw [hbound]
        exact (hoperand hshallow hfirst).twice
  case emptyList => simp
  case list =>
      intro op operands depth hsome hoperands hdepth lookups condition trace run
      obtain ⟨conditions, before, after, hall, hjoin, rfl⟩ := Compilation.bind_eq_ok.mp run
      obtain ⟨-, rfl⟩ := Prod.mk.inj hjoin
      rw [placedTerms_logical]
      simpa using compileAll_counts (fun node hnode => hoperands node hnode hdepth) hall

end Node

/-- A compilation binds no more than its terms can give rise to with eight negations around them,
also if it fails. If it succeeds, the number of values bound is known from the terms that are not
dropped, and there are no more negations around any term than there may be. -/
theorem Renderer.compile_growth (definition : Definition) :
    (∀ node : Node, (node.placedTerms 0).map PlacedTerm.term = node.terms ∧
      ((fresh definition.registry).compile node).2.params.length ≤
        2 ^ 8 * definition.fields.length * node.terms.length) ∧
    ∀ (node : Node) (fragment : Fragment) (after : Renderer),
      (fresh definition.registry).compile node = (.ok fragment, after) →
      after.params.length =
          (((node.placedTerms 0).filter fun placed => ¬placed.term.IsDropped definition).map
            fun placed => (placed.term.fields definition).length * 2 ^ placed.negations).sum ∧
        ∀ placed ∈ node.placedTerms 0, placed.negations ≤ negationLimit := by
  refine ⟨fun node => ⟨node.map_term_placedTerms 0, ?_⟩, fun node fragment after hcompile => ?_⟩
  · have hbound : (node.compile definition.registry 0 0).2.bound.length ≤
        2 ^ 8 * definition.fields.length * node.terms.length := node.compile_bindsAtMost 0 0
    simpa [compile, takeFragment, take, fresh] using hbound
  · obtain ⟨condition, trace, hrun, -, hparams⟩ := takeFragment_eq_ok hcompile
    have hcounts := Node.compile_counts (Nat.zero_le _) hrun
    refine ⟨?_, hcounts.shallow⟩
    calc
      after.params.length = trace.bound.length * 2 ^ 0 := by simp [hparams, fresh]
      _ = boundCount definition (node.placedTerms 0) := hcounts.count

/-- Two negations around one name and a date that is dropped: the name is bound four times. -/
theorem Renderer.compile_growth_people :
    let node := Node.logical .and
      [.not (.logical .or [.not (.comparison "name" .eq "Ann"), .comparison "born_on" .gt "soon"]),
        .leaf "Bob"]
    node.terms.length = 3 ∧
      ((fresh Sample.people.registry).compile node).2.params.length ≤ 2 ^ 8 * 2 * 3 ∧
      ((fresh Sample.people.registry).compile node).2.params.length = 1 * 2 ^ 2 + 1 * 2 ^ 0 := by
  intro node
  obtain ⟨hatMost, hexactly⟩ := compile_growth Sample.people
  obtain ⟨hlength, -⟩ := hexactly node _ _ rfl
  exact ⟨rfl, (hatMost node).2, hlength⟩

end FieldSearch
