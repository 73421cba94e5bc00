import FieldSearch.Condition.Compile

/-!
A renderer compiles one thing after another against the same registry and collects the values that are
bound on the way, also by what fails.
-/

namespace FieldSearch

structure Renderer where
  registry : Registry
  params : List BindValue := []
  lookups : Nat := 0

namespace Renderer

/-- A renderer that nothing has been asked of. -/
def fresh (registry : Registry) : Renderer where
  registry := registry

/-- Takes a step and keeps what it leaves behind. -/
def take {α : Type} (renderer : Renderer) (step : Compilation α) :
    Except CompileError α × Renderer :=
  let (result, trace) := step renderer.lookups
  (result,
    { renderer with
      params := renderer.params ++ trace.bound
      lookups := renderer.lookups + trace.lookups })

def takeFragment (renderer : Renderer) (step : Compilation (Option Condition)) :
    Except CompileError Fragment × Renderer :=
  let (result, after) := renderer.take step
  (result.map fun condition => condition.map Condition.sql, after)

/-- Compiles a tree. -/
def compile (renderer : Renderer) (node : Node) : Except CompileError Fragment × Renderer :=
  renderer.takeFragment (node.compile renderer.registry 0)

/-- Tests one field. -/
def test (renderer : Renderer) (field : Field) (op : Operator) (value : String) :
    Except CompileError Fragment × Renderer :=
  renderer.takeFragment (renderer.registry.test field op value)

def addParam (renderer : Renderer) (value : BindValue) : Renderer :=
  { renderer with params := renderer.params ++ [value] }

end Renderer

end FieldSearch
