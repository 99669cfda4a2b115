import OraDesktop.Workflow.Parse
import OraDesktop.Workflow.Reachable

/-!
# Rehearsing a run

The history of given calls is computed: a document is parsed, a run of it is created and the calls
are played on it, so that a concrete history can be evaluated. `runs_of_rehearse` says that what a
rehearsal shows happens in a run.

The text of JSON values and the order of independent nodes are parameters of the model. A rehearsal
fixes them: no text is read back, and documents list their nodes in topological order.
-/

namespace OraDesktop

/-- Text that carries nothing, for runs in which no value is printed or read. -/
abbrev JsonText.blank : JsonText := ⟨fun _ => "", fun _ => none⟩

namespace Workflow

open Repository Journal

/-- The order of the document, where it is topological. -/
abbrev Toposort.documentOrder : Toposort where
  order nodes edges := if ∀ e ∈ edges, nodes.idxOf e.1 < nodes.idxOf e.2 then some nodes else none
  perm h := by
    split at h
    · cases h
      exact List.Perm.refl _
    · cases h
  forward h := by
    split at h
    · rename_i hforward
      cases h
      exact hforward
    · cases h

/-! ### Documents -/

namespace Document

def node (id kind : String) (data : List (String × Value) := []) (parentId : Option String := none) :
    Value :=
  .obj ([("id", .str id), ("data", .obj (("kind", .str kind) :: data))] ++
    parentId.toList.map fun owner => ("parentId", .str owner))

def edge (source target : String) (handle : Option String := none) : Value :=
  .obj ([("source", .str source), ("target", .str target)] ++
    handle.toList.map fun handle => ("sourceHandle", .str handle))

def ofParts (nodes edges : List Value) (globals : List Value := []) : Value :=
  .obj [("nodes", .arr nodes), ("edges", .arr edges), ("globalVariables", .arr globals)]

/-- A Loop of at most three rounds that exports nothing and whose condition never holds. -/
def loop (id : String) : Value :=
  node id "loop" [("loopConfig", .obj [("maxIterations", Value.ofNat 3), ("variables", .arr []),
    ("until", .obj [("logic", .str "and"), ("conditions", .arr [])]), ("outputs", .arr [])])]

/-- What a node in the body of a Loop says about it. -/
def container (loopId : String) : String × Value := ("containerId", .str loopId)

def ofScopes (nodes edges : List Value) : Value :=
  .obj [("schemaVersion", Value.ofNat 2), ("nodes", .arr nodes), ("edges", .arr edges)]

end Document

/-- Ids that tell calls and requests apart, and a clock that stands still. -/
def Env.tagged (tag : String) : Env where
  nodeRunId n := tag ++ "n" ++ toString n
  scopeId n := tag ++ "s" ++ toString n
  clock _ := 0
  cleanupComplete _ := true

section

variable [JsonText] {g : WorkflowGraph}

/-- The state and the journal after some calls, each of which ran to its end. -/
def play (g : WorkflowGraph) : World → List Call → List (Event × World) × World
  | w, [] => ([], w)
  | w, call :: rest =>
    let outcome := Engine.execute g call w 0
    let later := play g outcome.state rest
    (outcome.journal ++ later.1, later.2)

theorem Runs.play {w₀ w : World} {journal : List (Event × World)} (h : Runs g w₀ journal w)
    (calls : List Call) :
    Runs g w₀ (journal ++ (play g w calls).1) (Workflow.play g w calls).2 := by
  induction calls generalizing w journal with
  | nil => simpa [Workflow.play] using h
  | cons call rest ih =>
    have hlast : lastState w (Engine.execute g call w 0).journal =
        (Engine.execute g call w 0).state :=
      (Engine.traced_execute call w 0 trivial).1.lastState_eq
    have hcall := History.call h call List.prefix_rfl
    rw [hlast] at hcall
    have hrest := ih hcall
    rw [List.append_assoc] at hrest
    exact hrest

/-- Parses a document, creates a run of it and plays some calls on it. -/
def rehearse [Toposort] (document : Value) (request : Option String) (calls : List Call)
    (p : WorkflowGraph → List (Event × World) → World → Bool) : Bool :=
  match WorkflowGraph.parse document with
  | .error _ => false
  | .ok g =>
    match createRun g "workflow" "root" request 0 with
    | .error _ => false
    | .ok w => p g (play g w calls).1 (play g w calls).2

/-- What a rehearsal shows happens in a run. -/
theorem runs_of_rehearse [Toposort] {document : Value} {request : Option String}
    {calls : List Call} {p : WorkflowGraph → List (Event × World) → World → Bool}
    (h : rehearse document request calls p = true) :
    ∃ g w₀ journal w, WorkflowGraph.parse document = .ok g ∧ Runs g w₀ journal w ∧
      p g journal w = true := by
  rw [rehearse] at h
  split at h
  · cases h
  rename_i g hparse
  split at h
  · cases h
  · rename_i w hcreate
    have hinit : Runs g w [] w := .init ⟨"workflow", "root", request, 0, hcreate⟩
    exact ⟨g, w, _, _, hparse, hinit.play calls, h⟩

end

end Workflow

end OraDesktop
