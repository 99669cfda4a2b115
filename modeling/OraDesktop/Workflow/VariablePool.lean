import OraDesktop.Lib.OrderedMap
import OraDesktop.PortablePath
import OraDesktop.Workflow.Graph

/-!
# The run variable pool

Values are checked against the workflow type vocabulary on their way in, and every variable has
one declared writer. `fromGraph` declares the variables of a graph; the first declaration of a key
wins, whoever it belongs to.

## Main definitions

* `ValueType.accepts`, `normalizeWorkflowValue` — which values a type admits, and in which form
* `WorkflowVariablePool` with `declare`, `get`, `resolve`, `set`
* `WorkflowVariablePool.fromGraph` — the pool a new run of a graph starts from
* `validateDerivedDeclarations` — the parser's check of Iteration and Aggregator selectors
-/

namespace OraDesktop.Workflow

/-! ### Values and types -/

/-- `normalize_file_reference`: a legacy path or a canonical object, as a canonical object. -/
def normalizeFileReference (value : Value) : Option Value := do
  let rawPath ← match value with
    | .str path => some path
    | .obj _ =>
      if (value.get "kind").bind Value.asStr = some "workspace_file" then
        (value.get "path").bind Value.asStr
      else none
    | _ => none
  let path ← (PortableRelativePath.parse rawPath).toOption
  if path.isRoot then none
  else some (.obj [("kind", .str "workspace_file"), ("path", .str path.normalized)])

/-- `is_file_reference`: an object with exactly the two keys and a canonical path. -/
def isFileReference (value : Value) : Bool :=
  match value with
  | .obj fields =>
    fields.length == 2 && (value.get "kind").bind Value.asStr == some "workspace_file" &&
      match (value.get "path").bind Value.asStr with
      | some path =>
        match PortableRelativePath.parse path with
        | .ok parsed => !parsed.isRoot && parsed.normalized == path
        | .error _ => false
      | none => false
  | _ => false

/-- `workflow_value_matches_type`. -/
def ValueType.accepts : ValueType → Value → Bool
  | .string, v | .secret, v => v.asStr.isSome
  | .file, v => isFileReference v
  | .integer, v => v.isInteger
  | .number, .num _ => true
  | .number, _ => false
  | .boolean, .bool _ => true
  | .boolean, _ => false
  | .object, v => v.asObject.isSome
  | .any, _ => true
  | .array, v => v.asArray.isSome
  | .arrayOf item, v => (v.asArray).any fun items => items.all item.accepts

/-- Only file references have more than one spelling; any other value of the type is its own normal
form. -/
def normalizeWorkflowValue (value : Value) : ValueType → Option Value
  | .file => normalizeFileReference value
  | .arrayOf .file => value.asArray.bind fun items =>
      (items.mapM normalizeFileReference).map Value.arr
  | valueType => if valueType.accepts value then some value else none

/-! ### The pool -/

/-- A declared variable and the node that owns writes to it. -/
structure WorkflowVariableDefinition where
  valueType : ValueType
  writer : String
  maxLength : Option Nat

inductive WorkflowVariablePoolError where
  | undeclared (selector : String)
  | invalidWriter (selector expectedWriter actualWriter : String)
  | typeMismatch (selector : String) (valueType : ValueType)
  | lengthExceeded (selector : String) (maxLength : Nat)
  | pathMissing (selector segment : String)
  | pathNotObject (selector path : String)

def WorkflowVariablePoolError.message : WorkflowVariablePoolError → String
  | undeclared selector => s!"workflow variable is not declared: {selector}"
  | invalidWriter selector expected actual =>
    s!"workflow variable is owned by {expected}, not {actual}: {selector}"
  | typeMismatch selector valueType =>
    "workflow variable value does not match declared type " ++ valueType.toWire ++ ": " ++ selector
  | lengthExceeded selector maxLength =>
    s!"workflow variable value exceeds maximum length {maxLength}: {selector}"
  | pathMissing selector segment =>
    s!"workflow variable has no object path segment {segment}: {selector}"
  | pathNotObject selector path =>
    s!"workflow variable is not an object, so path {path} cannot be resolved: {selector}"

/-- The declarations of a run and the values written so far; the revision counts writes. -/
structure WorkflowVariablePool where
  revision : Nat
  catalog : Map String WorkflowVariableDefinition
  values : Map String Value

/-- `u64::saturating_add(1)`. -/
def saturatingSucc (n : Nat) : Nat := min (n + 1) (2 ^ 64 - 1)

namespace WorkflowVariablePool

/-- `WorkflowVariablePool::default`. -/
def empty : WorkflowVariablePool := ⟨0, ∅, ∅⟩

variable (pool : WorkflowVariablePool)

/-- `WorkflowVariablePool::declare`: does nothing if the key is declared already. -/
def declare (selector : String) (valueType : ValueType) (writer : String) : WorkflowVariablePool :=
  if selector ∈ pool.catalog then pool
  else { pool with catalog := pool.catalog.insert selector ⟨valueType, writer, none⟩ }

/-- Puts a value under a key without any check, as the pool's constructors do. -/
def seed (selector : String) (value : Value) : WorkflowVariablePool :=
  { pool with values := pool.values.insert selector value }

/-- Walks nested object fields past the root variable. -/
def walkPath (qualified path : String) : Value → List String →
    Except WorkflowVariablePoolError Value
  | value, [] => .ok value
  | value, segment :: rest =>
    match value with
    | .obj fields =>
      match fields.lookup segment with
      | some inner => walkPath qualified path inner rest
      | none => .error (.pathMissing qualified segment)
    | _ => .error (.pathNotObject qualified path)

/-- `WorkflowVariablePool::resolve`: `ok none` is declared but not assigned. -/
def resolve (selector : VariableSelector) : Except WorkflowVariablePoolError (Option Value) :=
  if selector.qualified ∈ pool.catalog then
    match pool.values[selector.qualified]? with
    | none => .ok none
    | some value =>
      (walkPath selector.qualified (Text.join "." selector.nested) value selector.nested).map some
  else .error (.undeclared selector.qualified)

/-- `WorkflowVariablePool::set`: a write through the declared owner, of a value of the type. -/
def set (selector writer : String) (value : Value) :
    Except WorkflowVariablePoolError WorkflowVariablePool :=
  match pool.catalog[selector]? with
  | none => .error (.undeclared selector)
  | some definition =>
    if definition.writer ≠ writer then
      .error (.invalidWriter selector definition.writer writer)
    else match normalizeWorkflowValue value definition.valueType with
      | none => .error (.typeMismatch selector definition.valueType)
      | some normalized =>
        let tooLong := match definition.maxLength, normalized with
          | some maxLength, .str text => decide (maxLength < text.length)
          | _, _ => false
        if tooLong then .error (.lengthExceeded selector (definition.maxLength.getD 0))
        else .ok { pool with
          values := pool.values.insert selector normalized
          revision := saturatingSucc pool.revision }

/-! ### Declarations of a graph -/

/-- Declares one workflow global; its writer is the first segment of its name. -/
def declareGlobal (v : WorkflowGlobalVariable) : WorkflowVariablePool :=
  let declared := pool.declare v.name v.valueType (Text.beforeFirst '.' v.name)
  match v.value with
  | some value => declared.seed v.name value
  | none => declared

/-- Declares one Start variable, with its length bound and initial value. -/
def declareStartVariable (startId : String) (v : StartInputVariable) : WorkflowVariablePool :=
  let selector := startId ++ "." ++ v.name
  let declared := pool.declare selector v.valueType startId
  let bounded := { declared with
    catalog := declared.catalog.modify selector fun d => { d with maxLength := v.maxLength } }
  match v.value with
  | some value => bounded.seed selector value
  | none => bounded

/-- What a node's kind alone declares. Iterations and aggregators come later, since their types
depend on others. -/
def declareBaseNodeVariables (node : WorkflowGraphNode) : WorkflowVariablePool :=
  match node.nodeType with
  | .start =>
    node.inputVariables.foldl (fun p v => p.declareStartVariable node.id v)
      (pool.declare (node.id ++ ".input") .string node.id)
  | .condition | .iteration | .aggregator => pool
  | .agent =>
    let declared := pool.declare (node.id ++ ".output") .string node.id
    match node.agentConfig.bind (·.outputContract) with
    | some (.structured _) => declared.declare (node.id ++ ".structured_output") .object node.id
    | _ => declared
  | _ => pool.declare (node.id ++ ".output") .string node.id

/-- The element types the wire has names for; the items of anything else may be any value. -/
def iterationItemType : ValueType → ValueType
  | .arrayOf .string => .string
  | .arrayOf .number => .number
  | .arrayOf .object => .object
  | .arrayOf .boolean => .boolean
  | .arrayOf .file => .file
  | _ => .any

/-- Why a derived node's selectors do not type against the declarations: the error's text. -/
abbrev DeclarationError := String

def declareOneIteration (g : FlatGraph) (nodeId : String) (config : IterationConfig) :
    Except DeclarationError WorkflowVariablePool :=
  let source := config.iteratorSelector.qualified
  let collect := config.collectSelector.qualified
  match pool.catalog[source]? with
  | none => .error s!"iteration source {source} is not declared"
  | some sourceDef =>
    if !sourceDef.valueType.isArray then
      .error ("iteration source " ++ source ++ " must be an array type, but is " ++
        sourceDef.valueType.toWire)
    else if (g.region nodeId).any (·.contains sourceDef.writer) then
      .error s!"iteration source {source} is produced inside the iteration's own region"
    else if !(g.region nodeId).any (·.contains config.collectSelector.nodeId) then
      .error s!"collect target {collect} is not a node inside the iteration region"
    else match pool.catalog[collect]? with
      | none => .error s!"collect target {collect} is not a declared variable"
      | some collectDef =>
        .ok (((((pool.declare (nodeId ++ ".item") (iterationItemType sourceDef.valueType) nodeId)
          |>.declare (nodeId ++ ".index") .number nodeId)
          |>.declare (nodeId ++ ".output") (.arrayOf collectDef.valueType) nodeId)
          |>.declare (nodeId ++ ".entries") (.arrayOf .object) nodeId)
          |>.declare (nodeId ++ ".failed_count") .number nodeId)

/-- Checks the selectors of an aggregator in order; they share one declared type. -/
def aggregatorType (g : FlatGraph) (predecessors : List String) :
    Option ValueType → List VariableSelector → Except DeclarationError (Option ValueType)
  | expected, [] => .ok expected
  | expected, selector :: rest =>
    let qualified := selector.qualified
    if (g.node selector.nodeId).isSome && !predecessors.contains selector.nodeId then
      .error ("aggregator selector " ++ qualified ++ " is produced by " ++ selector.nodeId ++
        ", which is not a transitive predecessor")
    else match pool.catalog[qualified]? with
      | none => .error s!"aggregator selector {qualified} is not declared"
      | some declared =>
        match expected with
        | none => aggregatorType g predecessors (some declared.valueType) rest
        | some t =>
          if t ≠ declared.valueType then
            .error ("aggregator selector " ++ qualified ++ " has type " ++
              declared.valueType.toWire ++ ", but the aggregation requires " ++ t.toWire)
          else aggregatorType g predecessors expected rest

def declareOneAggregator (g : FlatGraph) (nodeId : String) (config : AggregatorConfig) :
    Except DeclarationError WorkflowVariablePool := do
  let predecessors := (g.transitivePredecessors nodeId).map (·.id)
  let expected ← pool.aggregatorType g predecessors none config.variables
  return pool.declare (nodeId ++ ".output") (expected.getD .any) nodeId

/-- One node of `declare_derived_variables`' pass. -/
def declareDerived (g : FlatGraph) (node : WorkflowGraphNode) :
    Except DeclarationError WorkflowVariablePool :=
  match node.iterationConfig, node.aggregatorConfig with
  | some config, _ => pool.declareOneIteration g node.id config
  | none, some config => pool.declareOneAggregator g node.id config
  | none, none => .ok pool

/-- `declare_derived_variables`: stops at the first node that fails, keeping what was declared
before it. -/
def declareDerivedVariables (g : FlatGraph) :
    List WorkflowGraphNode → WorkflowVariablePool →
      WorkflowVariablePool × Option (WorkflowGraphNode × DeclarationError)
  | [], pool => (pool, none)
  | node :: rest, pool =>
    match pool.declareDerived g node with
    | .ok pool => declareDerivedVariables g rest pool
    | .error e => (pool, some (node, e))

/-- One node of `from_graph`'s first pass: its base variables and a Loop's exports. -/
def declareNode (g : WorkflowGraph) (node : WorkflowGraphNode) : WorkflowVariablePool :=
  let base := pool.declareBaseNodeVariables node
  match g.loopBody node.id with
  | some (config, _) =>
    config.outputs.foldl (fun p output => p.declare (node.id ++ "." ++ output.name) .any node.id) base
  | none => base

/-- All declarations of a graph, globals first: the pool of a run before anything has run. -/
def fromGraph (g : WorkflowGraph) : WorkflowVariablePool :=
  let globals := g.globalVariables.foldl declareGlobal empty
  let base := g.nodes.foldl (fun p n => p.declareNode g n) globals
  (declareDerivedVariables g.toFlatGraph g.nodesInTopologicalOrder base).1

end WorkflowVariablePool

/-- A scope read as a graph without Loops, which is what the source's body graphs are. -/
def FlatGraph.asGraph (g : FlatGraph) : WorkflowGraph := { g with loops := [] }

/-- `validate_derived_declarations`: the node that fails and the reason, if any. -/
def FlatGraph.validateDerivedDeclarations (g : FlatGraph) :
    Option (WorkflowGraphNode × WorkflowVariablePool.DeclarationError) :=
  if g.nodes.any fun n => n.nodeType == .iteration || n.nodeType == .aggregator then
    let globals := g.globalVariables.foldl
      (fun p v => p.declare v.name v.valueType (Text.beforeFirst '.' v.name))
      WorkflowVariablePool.empty
    let base := g.nodes.foldl WorkflowVariablePool.declareBaseNodeVariables globals
    (WorkflowVariablePool.declareDerivedVariables g g.nodesInTopologicalOrder base).2
  else none

end OraDesktop.Workflow
