import FieldSearch.Proofs.Compile.Run

/-! A compiler that counts. Instead of being told how many negations there are around a tree it keeps
the number itself: it counts one more when it goes into a negation and one less when it comes out,
also if an operand fails. It takes the same steps as the compiler that is told, from any count and
with any registry, and leaves the count as it was. -/

namespace FieldSearch

/-- A renderer that counts the negations around what it compiles. -/
structure CountingRenderer extends Renderer where
  negations : Nat := 0

/-- Steps of such a renderer; what they change stays changed if they fail. -/
abbrev Counting : Type → Type :=
  ExceptT CompileError (StateM CountingRenderer)

namespace Counting

variable {α β : Type}

/-- Takes a step that counts nothing. -/
def step (told : Registry → Compilation α) : Counting α := fun renderer =>
  let (result, after) := renderer.take (told renderer.registry)
  (result, { renderer with toRenderer := after })

/-- Takes a step inside one negation more. -/
def inside (operand : Counting α) : Counting α := fun renderer =>
  let (result, after) := operand { renderer with negations := renderer.negations + 1 }
  (result, { after with negations := after.negations - 1 })

/-- The negation of what compiles twice to a condition. -/
def negate (operand : Counting (Option Condition)) : Counting (Option Condition) := do
  match ← operand with
  | none => return none
  | some negated =>
    match ← operand with
    | none => return none
    | some nullCheck => return some (.negation negated nullCheck)

theorem bind_of_error {first : Counting α} {next : α → Counting β}
    {before after : CountingRenderer} {error : CompileError}
    (hfirst : first before = (.error error, after)) :
    (first >>= next) before = (.error error, after) := by
  simp only [Bind.bind, ExceptT.bind, ExceptT.mk, StateT.bind, hfirst, ExceptT.bindCont]
  rfl

theorem bind_of_ok {first : Counting α} {next : α → Counting β}
    {before after : CountingRenderer} {a : α} (hfirst : first before = (.ok a, after)) :
    (first >>= next) before = next a after := by
  simp only [Bind.bind, ExceptT.bind, ExceptT.mk, StateT.bind, hfirst, ExceptT.bindCont]

end Counting

mutual

/-- Compiles a tree, with as many negations around it as were counted. -/
def Node.compileCounting : Node → Counting (Option Condition)
  | .leaf value => .step fun registry => registry.testDefaults none Field.defaultOperator value
  | .operator .not [operand] => do
    if negationLimit ≤ (← get).negations then throw .negationTooDeep
    else Counting.inside (Counting.negate operand.compileCounting)
  | .operator .not operands => throw (.malformedOperator .not operands.length)
  | .operator op [value] => .step fun registry => registry.comparePrefixed op value
  | .operator op [field, value] => .step fun registry => registry.compareNamed op field value
  | .operator op operands => throw (.malformedOperator op operands.length)
  | .logical op [] => throw (.emptyLogicalOperator op)
  | .logical op (first :: rest) => do
    let condition ← first.compileCounting
    let conditions ← Node.compileAllCounting rest
    return Condition.join op (condition :: conditions)

/-- Compiles one tree after another. -/
def Node.compileAllCounting : List Node → Counting (List (Option Condition))
  | [] => return []
  | node :: nodes => do
    let condition ← node.compileCounting
    let conditions ← Node.compileAllCounting nodes
    return condition :: conditions

end

variable {α β : Type}

/-- A step that leaves nothing behind changes nothing. -/
theorem Renderer.take_idle {renderer : Renderer} {step : Compilation α}
    {result : Except CompileError α} (hstep : step renderer.lookups = (result, {})) :
    renderer.take step = (result, renderer) := by
  simp [take, hstep]

theorem Renderer.registry_of_take {renderer after : Renderer} {step : Compilation α}
    {result : Except CompileError α} (htake : renderer.take step = (result, after)) :
    after.registry = renderer.registry := by
  obtain ⟨-, rfl⟩ := Prod.mk.inj htake
  rfl

/-- A renderer takes one step after another, unless the first one fails. -/
theorem Renderer.take_bind (renderer : Renderer) (first : Compilation α)
    (next : α → Compilation β) :
    renderer.take (first >>= next) =
      match renderer.take first with
      | (.error error, after) => (.error error, after)
      | (.ok a, after) => after.take (next a) := by
  have hboth : (first >>= next) renderer.lookups =
      Compilation.bind first next renderer.lookups :=
    rfl
  unfold take
  rw [hboth]
  rcases hfirst : first renderer.lookups with ⟨error | a, trace⟩
  · rw [Compilation.bind_of_error hfirst]
  · rw [Compilation.bind_of_ok hfirst]
    simp [Nat.add_assoc]

namespace Counting

/-- From every count the step is the one of the compiler at that depth, and it keeps the count. -/
def Takes (counting : Counting α) (told : Registry → Nat → Compilation α) : Prop :=
  ∀ (renderer : Renderer) (negations : Nat) (result : Except CompileError α) (after : Renderer),
    renderer.take (told renderer.registry negations) = (result, after) →
      counting ⟨renderer, negations⟩ = (result, ⟨after, negations⟩)

theorem step_takes (told : Registry → Compilation α) :
    (step told).Takes fun registry _ => told registry := by
  intro renderer negations result after htake
  simp [step, htake]

theorem pure_takes (a : α) : (pure a : Counting α).Takes fun _ _ => pure a := by
  intro renderer negations result after htake
  rw [Renderer.take_idle rfl] at htake
  cases htake
  rfl

theorem throw_takes (error : CompileError) :
    (throw error : Counting α).Takes fun _ _ => .fail error := by
  intro renderer negations result after htake
  rw [Renderer.take_idle rfl] at htake
  cases htake
  rfl

/-- Where a step leaves off the next one goes on, with the same count. -/
theorem Takes.bind {first : Counting α} {next : α → Counting β}
    {firstTold : Registry → Nat → Compilation α} {nextTold : α → Registry → Nat → Compilation β}
    (hfirst : first.Takes firstTold) (hnext : ∀ a, (next a).Takes (nextTold a)) :
    (first >>= next).Takes fun registry depth =>
      firstTold registry depth >>= fun a => nextTold a registry depth := by
  intro renderer negations result after htake
  rw [Renderer.take_bind] at htake
  rcases hrun : renderer.take (firstTold renderer.registry negations) with ⟨error | a, middle⟩
  · rw [hrun] at htake
    obtain ⟨rfl, rfl⟩ := Prod.mk.inj htake
    exact bind_of_error (hfirst _ _ _ _ hrun)
  · rw [hrun] at htake
    rw [bind_of_ok (hfirst _ _ _ _ hrun)]
    apply hnext a middle negations result after
    rw [Renderer.registry_of_take hrun]
    exact htake

theorem Takes.inside {operand : Counting α} {told : Registry → Nat → Compilation α}
    (hoperand : operand.Takes told) :
    (inside operand).Takes fun registry depth => told registry (depth + 1) := by
  intro renderer negations result after htake
  simp [Counting.inside, hoperand _ _ _ _ htake]

/-- A negation takes its operand twice. -/
theorem Takes.negate {operand : Counting (Option Condition)}
    {told : Registry → Nat → Compilation (Option Condition)} (hoperand : operand.Takes told) :
    (negate operand).Takes fun registry depth => Condition.negate (told registry depth) := by
  apply hoperand.bind
  intro negated
  cases negated with
  | none => exact pure_takes none
  | some negated =>
      apply hoperand.bind
      intro nullCheck
      cases nullCheck with
      | none => exact pure_takes none
      | some nullCheck => exact pure_takes _

end Counting

namespace Node

theorem compileAllCounting_takes {nodes : List Node}
    (hnodes : ∀ node ∈ nodes,
      node.compileCounting.Takes fun registry depth => node.compile registry depth) :
    (compileAllCounting nodes).Takes fun registry depth => compileAll registry depth nodes := by
  induction nodes with
  | nil => exact Counting.pure_takes []
  | cons node nodes ih =>
      obtain ⟨hnode, hothers⟩ := List.forall_mem_cons.mp hnodes
      exact hnode.bind fun condition => (ih hothers).bind fun conditions => Counting.pure_takes _

/-- A negation is refused at the count at which it would be at the depth, and what is inside it is
counted in. -/
theorem compileCounting_not_takes {operand : Node}
    (hoperand : operand.compileCounting.Takes fun registry depth =>
      operand.compile registry depth) :
    (operator .not [operand]).compileCounting.Takes fun registry depth =>
      (operator .not [operand]).compile registry depth := by
  intro renderer negations result after htake
  unfold compileCounting
  show (if negationLimit ≤ negations then throw .negationTooDeep
    else Counting.inside (Counting.negate operand.compileCounting)) _ = _
  simp only [compile] at htake
  by_cases hdeep : negationLimit ≤ negations
  · rw [if_pos hdeep] at htake ⊢
    exact Counting.throw_takes _ _ _ _ _ htake
  · rw [if_neg hdeep] at htake ⊢
    exact hoperand.negate.inside _ _ _ _ htake

theorem compileCounting_malformed {op : Operator} {operands : List Node}
    (arity : ¬HasArity op operands.length) :
    (operator op operands).compileCounting = throw (.malformedOperator op operands.length) := by
  unfold HasArity at arity
  unfold compileCounting
  split <;> simp_all

/-- A list counts its operands one after another and joins what they yield. -/
theorem compileCounting_logical {op : Connective} {operands : List Node} (hsome : operands ≠ []) :
    (logical op operands).compileCounting = do
      let conditions ← compileAllCounting operands
      return Condition.join op conditions := by
  cases operands with
  | nil => exact absurd rfl hsome
  | cons first rest => simp [compileCounting, compileAllCounting]

/-- The compiler that counts compiles every tree as the one that is told how many negations there
are, whether it fails or not, and leaves the count as it was. -/
theorem compileCounting_takes (node : Node) :
    node.compileCounting.Takes fun registry depth => node.compile registry depth := by
  induction node using Node.induction with
  | leaf value => exact Counting.step_takes _
  | operator op operands ih =>
      induction op, operands using operator_cases with
      | negation operand =>
          exact compileCounting_not_takes (ih operand (by simp))
      | prefixed op value hop =>
          simpa [compileCounting, compile_prefixed hop] using Counting.step_takes _
      | named op left right hop =>
          simpa [compileCounting, compile_named hop] using Counting.step_takes _
      | malformed op operands arity =>
          rw [compileCounting_malformed arity]
          simpa only [compile_malformed arity] using Counting.throw_takes _
  | logical op operands ih =>
      cases operands with
      | nil => exact Counting.throw_takes _
      | cons first rest =>
          have hsome := List.cons_ne_nil first rest
          rw [compileCounting_logical hsome]
          simp only [compile_logical hsome]
          exact (compileAllCounting_takes ih).bind fun conditions => Counting.pure_takes _

end Node

end FieldSearch
