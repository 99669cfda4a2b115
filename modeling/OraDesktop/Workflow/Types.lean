import OraDesktop.Json
import OraDesktop.Text

/-!
# The parsed workflow graph's vocabulary

Node types, variable selectors and types, and the executable configuration each node carries after
parsing. A configuration field that no modelled function reads (an agent's CLI, model, role,
skills and plugins, a node's title and description) is left out.
-/

namespace OraDesktop.Workflow

/-- `NodeType`: the executable kind of a node, `data.kind` on the wire. -/
inductive NodeType where
  | start
  | agent
  | prompt
  | condition
  | aggregator
  | tool
  | output
  | loop
  | loopExit
  | iteration
  deriving DecidableEq

namespace NodeType

def asStr : NodeType → String
  | start => "start"
  | agent => "agent"
  | prompt => "prompt"
  | condition => "condition"
  | aggregator => "aggregator"
  | tool => "tool"
  | output => "output"
  | loop => "loop"
  | loopExit => "loopExit"
  | iteration => "iteration"

/-- `NodeType::from_str`. -/
def ofStr? : String → Option NodeType
  | "start" => some start
  | "agent" => some agent
  | "prompt" => some prompt
  | "condition" => some condition
  | "aggregator" => some aggregator
  | "tool" => some tool
  | "output" => some output
  | "loop" => some loop
  | "loopExit" => some loopExit
  | "iteration" => some iteration
  | _ => none

/-- `NodeType::supported`: the production scheduler can execute it. -/
def supported : NodeType → Bool
  | prompt | tool => false
  | _ => true

end NodeType

/-! ### Variables -/

/-- A workflow variable type. On the wire the vocabulary is a fixed set of names; a derived
declaration wraps any type in `array[..]`. -/
inductive ValueType where
  | string
  | number
  | integer
  | boolean
  | secret
  | file
  | object
  | any
  | array
  | arrayOf (item : ValueType)
  deriving DecidableEq

namespace ValueType

def toWire : ValueType → String
  | string => "string"
  | number => "number"
  | integer => "integer"
  | boolean => "boolean"
  | secret => "secret"
  | file => "file"
  | object => "object"
  | any => "any"
  | array => "array"
  | arrayOf item => "array[" ++ item.toWire ++ "]"

/-- `is_supported_variable_type`, returning the type it recognises. -/
def ofWire? : String → Option ValueType
  | "string" => some string
  | "number" => some number
  | "integer" => some integer
  | "boolean" => some boolean
  | "secret" => some secret
  | "file" => some file
  | "object" => some object
  | "any" => some any
  | "array" => some array
  | "array[string]" => some (arrayOf string)
  | "array[number]" => some (arrayOf number)
  | "array[object]" => some (arrayOf object)
  | "array[boolean]" => some (arrayOf boolean)
  | "array[file]" => some (arrayOf file)
  | "array[any]" => some (arrayOf any)
  | _ => none

/-- Whether the wire name starts with `array`. -/
def isArray : ValueType → Bool
  | array | arrayOf _ => true
  | _ => false

end ValueType

/-- A fully qualified reference `{node_id}.{root}` with an optional nested object path. -/
structure VariableSelector where
  nodeId : String
  root : String
  nested : List String
  deriving DecidableEq

namespace VariableSelector

/-- `VariableSelector::try_from_parts`: the wire form `["node-id", "root", ...nested]`. -/
def tryFromParts : List String → Option VariableSelector
  | nodeId :: root :: nested =>
    if nodeId.isEmpty || root.isEmpty then none else some ⟨nodeId, root, nested⟩
  | _ => none

/-- `VariableSelector::qualified`: the pool key. -/
def qualified (s : VariableSelector) : String := s.nodeId ++ "." ++ s.root

end VariableSelector

/-! ### Condition nodes -/

inductive ConditionLogic where
  | and
  | or

inductive ComparisonOperator where
  | equals
  | notEquals
  | contains
  | notContains
  | startsWith
  | endsWith
  | empty
  | notEmpty
  | greaterThan
  | greaterThanOrEqual
  | lessThan
  | lessThanOrEqual
  | is
  | isNot
  | exists
  | notExists
  deriving DecidableEq

/-- One comparison of a resolved variable against an expected value. -/
structure ConditionRule where
  variableSelector : VariableSelector
  operator : ComparisonOperator
  value : Option Value

structure ConditionCase where
  id : String
  logic : ConditionLogic
  conditions : List ConditionRule

/-- The executable contract of a `condition` node; the `else` branch is implicit. -/
structure ConditionConfig where
  cases : List ConditionCase

/-- `ELSE_BRANCH_ID`: the source handle of a Condition's implicit ELSE path. -/
def elseBranchId : String := "else"

/-! ### The other node configurations -/

/-- The ordered selector list of an `aggregator` node. -/
structure AggregatorConfig where
  «variables» : List VariableSelector

/-- One named result, resolved from the run variable pool at completion. -/
structure OutputBinding where
  name : String
  variableSelector : VariableSelector

structure OutputConfig where
  outputs : List OutputBinding

/-- How an iteration node reacts when one round fails. -/
inductive IterationErrorStrategy where
  | fail
  | continue
  deriving DecidableEq

/-- The executable configuration of an `iteration` node. -/
structure IterationConfig where
  iteratorSelector : VariableSelector
  collectSelector : VariableSelector
  errorStrategy : IterationErrorStrategy
  maxIterations : Nat
  deriving DecidableEq

/-- What exhausting a Loop's round budget means. -/
inductive LoopMaxIterationsBehavior where
  | fail
  | succeed

/-- The initial value of a carried Loop variable. -/
inductive LoopInitialValue where
  | constant (value : Value)
  | variable (selector : VariableSelector)

/-- One typed carried value of a Loop: it starts from a constant or an outer variable, and each
round feeds the next. -/
structure LoopVariable where
  name : String
  valueType : ValueType
  initial : LoopInitialValue
  feedback : VariableSelector

/-- A bounded feedback container's configuration. -/
structure LoopConfig where
  maxIterations : Nat
  maxIterationsBehavior : LoopMaxIterationsBehavior
  «variables» : List LoopVariable
  «until» : ConditionConfig
  outputs : List OutputBinding

/-- Form control that collects one Start variable. -/
inductive StartInputFieldType where
  | textInput
  | paragraph
  | select
  | number
  | checkbox
  | file
  | fileList
  | json
  deriving DecidableEq

/-- One typed variable declared by the Start node. -/
structure StartInputVariable where
  name : String
  fieldType : StartInputFieldType
  valueType : ValueType
  required : Bool
  options : List String
  maxLength : Option Nat
  value : Option Value

/-- Whether an agent adds a structured variable beside its `{node}.output`. -/
inductive AgentOutputContract where
  | none
  | text
  | structured (schema : Value)

/-- `AgentRetryPolicy`: the automatic retry policy of one agent node. -/
structure AgentRetryPolicy where
  enabled : Bool
  maxRetries : Nat
  initialDelaySeconds : Nat

/-- The policy of an agent node that declares none. -/
def AgentRetryPolicy.default : AgentRetryPolicy := ⟨true, 2, 10⟩

/-- The executable contract of an `agent` node: what the executor is told, and when the engine tries
again. -/
structure AgentConfig where
  prompt : String
  interactive : Bool
  outputContract : Option AgentOutputContract
  retry : AgentRetryPolicy

/-! ### Nodes and edges -/

/-- One node of a parsed workflow graph. The configurations are optional, since each kind of node
has its own. -/
structure WorkflowGraphNode where
  id : String
  nodeType : NodeType
  instruction : Option String
  inputVariables : List StartInputVariable
  agentConfig : Option AgentConfig
  conditionConfig : Option ConditionConfig
  aggregatorConfig : Option AggregatorConfig
  outputConfig : Option OutputConfig
  iterationConfig : Option IterationConfig

/-- One directed edge, with the source port that selects its branch. -/
structure WorkflowGraphEdge where
  source : String
  target : String
  sourceHandle : Option String

structure WorkflowGlobalVariable where
  name : String
  valueType : ValueType
  value : Option Value

/-- The region one composite node owns: the nodes that run once in every round. -/
structure CompositeRegion where
  ownerId : String
  memberIds : List String

def CompositeRegion.contains (region : CompositeRegion) (nodeId : String) : Bool :=
  region.memberIds.contains nodeId

end OraDesktop.Workflow
