import FieldSearch.Proofs.Compile.Counting

/-! One renderer that is asked many things. With the fields of a definition it answers each request
as a renderer would that nothing was asked of before, also behind requests that failed, and what was
bound before stays where it is. A renderer that counts negations answers the same, since every
request, failed or not, leaves it with none counted. -/

namespace FieldSearch

/-- What may be asked of a renderer: to compile a tree, to test a field, or to bind a value. -/
inductive Request
  | compile (node : Node)
  | test (field : Field) (op : Operator) (value : String)
  | bind (value : BindValue)

/-- The fragment or the error that a request is answered with, if it asks for one. -/
abbrev Answer : Type :=
  Option (Except CompileError Fragment)

namespace Renderer

def answer (renderer : Renderer) : Request → Answer × Renderer
  | .compile node =>
    let (fragment, after) := renderer.compile node
    (some fragment, after)
  | .test field op value =>
    let (fragment, after) := renderer.test field op value
    (some fragment, after)
  | .bind value => (none, renderer.addParam value)

/-- Answers one request after another. -/
def answerAll (renderer : Renderer) : List Request → List Answer × Renderer
  | [] => ([], renderer)
  | request :: requests =>
    let (first, middle) := renderer.answer request
    let (others, after) := middle.answerAll requests
    (first :: others, after)

end Renderer

namespace CountingRenderer

/-- The text of what a step yields. -/
def takeFragment (renderer : CountingRenderer) (step : Counting (Option Condition)) :
    Except CompileError Fragment × CountingRenderer :=
  let (result, after) := step renderer
  (result.map fun condition => condition.map Condition.sql, after)

def answer (renderer : CountingRenderer) : Request → Answer × CountingRenderer
  | .compile node =>
    let (fragment, after) := renderer.takeFragment node.compileCounting
    (some fragment, after)
  | .test field op value =>
    let (fragment, after) := renderer.takeFragment
      (.step fun registry => registry.test field op value)
    (some fragment, after)
  | .bind value => (none, { renderer with toRenderer := renderer.addParam value })

/-- Answers one request after another. -/
def answerAll (renderer : CountingRenderer) : List Request → List Answer × CountingRenderer
  | [] => ([], renderer)
  | request :: requests =>
    let (first, middle) := renderer.answer request
    let (others, after) := middle.answerAll requests
    (first :: others, after)

end CountingRenderer

/-! ### One request -/

section Requests

variable (definition : Definition) (params : List BindValue) (lookups : Nat)

/-- A step that is steady yields in every renderer what it yields in a fresh one, and binds the same
behind what is bound already. -/
theorem Renderer.takeFragment_of_steady (registry : Registry)
    {step : Compilation (Option Condition)} (hsteady : step.IsSteady) :
    (⟨registry, params, lookups⟩ : Renderer).takeFragment step =
      (((fresh registry).takeFragment step).1,
        ⟨registry, params ++ ((fresh registry).takeFragment step).2.params,
          lookups + ((fresh registry).takeFragment step).2.lookups⟩) := by
  unfold takeFragment take
  rw [hsteady lookups (fresh registry).lookups]
  simp [fresh]

theorem Renderer.answer_eq_fresh (request : Request) :
    (⟨definition.registry, params, lookups⟩ : Renderer).answer request =
      (((fresh definition.registry).answer request).1,
        ⟨definition.registry, params ++ ((fresh definition.registry).answer request).2.params,
          lookups + ((fresh definition.registry).answer request).2.lookups⟩) := by
  cases request with
  | compile node =>
      have hcompile := takeFragment_of_steady params lookups definition.registry
        (node.compile_steady definition 0)
      simp only [answer, compile, hcompile]
      rfl
  | test field op value =>
      have htest := takeFragment_of_steady params lookups definition.registry
        (definition.registry.test_steady field op value)
      simp only [answer, test, htest]
      rfl
  | bind value => rfl

/-- Requests are answered one by one as by fresh renderers, and what they bind there is bound here in
their order. -/
theorem Renderer.answerAll_eq_fresh (requests : List Request) :
    ∃ after, (⟨definition.registry, params, lookups⟩ : Renderer).answerAll requests =
        (requests.map fun request => ((fresh definition.registry).answer request).1, after) ∧
      after.params = params ++ requests.flatMap fun request =>
        ((fresh definition.registry).answer request).2.params := by
  induction requests generalizing params lookups with
  | nil => exact ⟨_, rfl, by simp⟩
  | cons request requests ih =>
      obtain ⟨after, hothers, hparams⟩ := ih
        (params ++ ((fresh definition.registry).answer request).2.params)
        (lookups + ((fresh definition.registry).answer request).2.lookups)
      refine ⟨after, ?_, by simpa using hparams⟩
      simp only [answerAll, answer_eq_fresh definition params lookups request, hothers,
        List.map_cons]

end Requests

/-! ### Counting -/

namespace CountingRenderer

theorem takeFragment_of_takes {counting : Counting (Option Condition)}
    {told : Registry → Nat → Compilation (Option Condition)} (htakes : counting.Takes told)
    (renderer : Renderer) (negations : Nat) :
    (⟨renderer, negations⟩ : CountingRenderer).takeFragment counting =
      ((renderer.takeFragment (told renderer.registry negations)).1,
        ⟨(renderer.takeFragment (told renderer.registry negations)).2, negations⟩) := by
  rcases hrun : renderer.take (told renderer.registry negations) with ⟨result, after⟩
  simp [takeFragment, Renderer.takeFragment, htakes _ _ _ _ hrun, hrun]

/-- Whatever it is asked for, no negation is counted before or behind it. -/
theorem answer_eq (renderer : Renderer) (request : Request) :
    (⟨renderer, 0⟩ : CountingRenderer).answer request =
      ((renderer.answer request).1, ⟨(renderer.answer request).2, 0⟩) := by
  cases request with
  | compile node =>
      simp [answer, takeFragment_of_takes node.compileCounting_takes, Renderer.answer,
        Renderer.compile]
  | test field op value =>
      have htest := Counting.step_takes fun registry => registry.test field op value
      simp [answer, takeFragment_of_takes htest, Renderer.answer, Renderer.test]
  | bind value => rfl

theorem answerAll_eq (renderer : Renderer) (requests : List Request) :
    (⟨renderer, 0⟩ : CountingRenderer).answerAll requests =
      ((renderer.answerAll requests).1, ⟨(renderer.answerAll requests).2, 0⟩) := by
  induction requests generalizing renderer with
  | nil => rfl
  | cons request requests ih =>
      simp only [answerAll, Renderer.answerAll, answer_eq, ih]

end CountingRenderer

/-- With the fields of a definition a renderer answers every request, after whatever requests, as a
fresh one does, and ends up with what it had bound, followed by what each request binds in a fresh
one. So does a renderer that counts negations, with none counted in the end; in the middle of
negations too, an operand that fails leaves the count and everything that was bound as it was. -/
theorem Renderer.answers_as_fresh (definition : Definition) (requests : List Request) :
    (∀ params lookups, ∃ after : Renderer,
      (⟨definition.registry, params, lookups⟩ : Renderer).answerAll requests =
          (requests.map fun request => ((fresh definition.registry).answer request).1, after) ∧
        (⟨⟨definition.registry, params, lookups⟩, 0⟩ : CountingRenderer).answerAll requests =
          (requests.map fun request => ((fresh definition.registry).answer request).1,
            ⟨after, 0⟩) ∧
        after.params = params ++ requests.flatMap fun request =>
          ((fresh definition.registry).answer request).2.params) ∧
    ∀ (node : Node) (renderer : Renderer) (negations : Nat), ∃ bound lookups,
      node.compileCounting ⟨renderer, negations⟩ =
        ((renderer.take (node.compile renderer.registry negations)).1,
          ⟨⟨renderer.registry, renderer.params ++ bound, lookups⟩, negations⟩) := by
  refine ⟨fun params lookups => ?_, fun node renderer negations => ?_⟩
  · obtain ⟨after, hplain, hparams⟩ := answerAll_eq_fresh definition params lookups requests
    refine ⟨after, hplain, ?_, hparams⟩
    rw [CountingRenderer.answerAll_eq, hplain]
  · exact ⟨_, _, node.compileCounting_takes renderer negations _ _ rfl⟩

end FieldSearch
