import OraDesktop.Workflow.CallSteps
import OraDesktop.Workflow.RowChange

/-!
# The runs of a workflow

A run begins as the create handler leaves it and then receives calls, one at a time, each of which
may be cut off after any of its commits. `Runs g w₀ journal w` is such a history. By `Runs.path` it
is a path of `Step`s, which is all that the results about histories use.

## Main definitions

* `createRun` — the create handler
* `Runs` — the histories of a run
-/

namespace OraDesktop.Workflow

open Repository Journal

section

variable (g : WorkflowGraph)

/-- The pool of a new run: the graph's declarations, the system variables and the kickoff input. -/
def createPool (workflowId : String) (input : Option String) (now : Int) :
    Except WorkflowVariablePoolError WorkflowVariablePool := do
  let pool ← (WorkflowVariablePool.fromGraph g).set "sys.workflow_id" "sys" (.str workflowId)
  let pool ← pool.set "sys.timestamp" "sys" (Value.ofInt now)
  match g.startNode, input with
  | some start, some text => pool.set (start.id ++ ".input") start.id (.str text)
  | _, _ => .ok pool

/-- The kickoff input of a new run: the request's, or the Start node's own instruction. -/
def kickoffInput (request : Option String) : Option String :=
  request.or (g.startNode.bind (·.instruction))

/-- `CreateWorkflowRunHandler::handle`, with the id of the root scope that the database draws. -/
def createRun (workflowId rootScopeId : String) (request : Option String)
    (now : Int) : Except WorkflowVariablePoolError World := do
  let input := kickoffInput g request
  let pool ← createPool g workflowId input now
  return {
    run :=
      { workflowId
        status := .pending
        currentNodes := []
        input
        output := none
        error := none
        payload := .withVariablePool (g.startNode.map (·.id)) pool
        startedAt := none
        finishedAt := none }
    rows := []
    rounds := []
    rootScopeId
    retiredScopeIds := [] }

/-- A state the create handler leaves, which is where every history of a run starts. -/
def Created (w : World) : Prop :=
  ∃ workflowId rootScopeId request now, createRun g workflowId rootScopeId request now = .ok w

end

/-- A new run has a payload around its pool, and nothing else. -/
theorem Created.eq {g : WorkflowGraph} {w : World} (h : Created g w) :
    w.rows = [] ∧ w.rounds = [] ∧ w.run.status = .pending := by
  obtain ⟨workflowId, rootScopeId, request, now, h⟩ := h
  obtain ⟨pool, -, h⟩ := Fallible.bind_eq_ok.mp h
  cases h
  exact ⟨rfl, rfl, rfl⟩

section

variable [JsonText] (g : WorkflowGraph)
/-- The history of a run: from where it starts, what it journalled, and where it is now. -/
abbrev Runs : World → List (Event × World) → World → Prop :=
  History (Created g) (Engine.execute g)

variable {g}

omit [JsonText] in
theorem Created.keyed {w : World} (h : Created g w) : w.Keyed := by
  constructor <;> rw [h.eq.1] <;> exact List.Pairwise.nil

/-! ### Histories -/

theorem Runs.path {w₀ w : World} {journal : List (Event × World)} (h : Runs g w₀ journal w) :
    Created g w₀ ∧ Path (Step g) w₀ journal w :=
  History.path Engine.traced_execute h

end

end OraDesktop.Workflow
