import OraDesktop.Workflow.Condition

/-!
# The workflow document on the wire

Decoding a frozen React Flow document. A decoder reads one shape out of a JSON value and answers
`none` where `serde` fails; unknown fields are ignored unless the shape denies them. What the
decoded shapes mean is checked afterwards, field by field, with errors that name the node.

The document is a `Value` already: turning text into it is `serde_json`'s work. A shape is read
from an object; `serde` would also accept its fields in order as an array, and no document the
editor writes has that form. An agent's executor, role, skills, plugins and inactivity policy are
not decoded, nor are titles and descriptions: nothing in this development reads them.

## Main definitions

* `Wire.Node`, `Wire.Edge`, `Wire.Global` — the decoded shapes
* `Wire.Node.toModel` — one node of the graph
* `LoopConfig.parse`, `intoGlobalVariables`
-/

namespace OraDesktop.Workflow

/-! ### Readers -/

namespace Wire

/-- A reader of one JSON shape. Where `serde` fails its error is not told apart, since only its text
differs. -/
abbrev Reader (α : Type) := Value → Option α

section

variable {α : Type} (read : Reader α)

/-- An `Option` field: a missing key and `null` both read as nothing. -/
def optional (v : Value) (key : String) : Option (Option α) :=
  match v.get key with
  | none | some .null => some none
  | some field => (read field).map some

/-- A field with a default for a missing key. -/
def defaulted (default : α) (v : Value) (key : String) : Option α :=
  match v.get key with
  | none => some default
  | some field => read field

def required (v : Value) (key : String) : Option α :=
  (v.get key).bind read

end

def any : Reader Value := some

def string : Reader String := Value.asStr

def bool : Reader Bool
  | .bool b => some b
  | _ => none

def natUpTo (max : Nat) : Reader Nat := fun v =>
  (v.asU64.map (·.toNat)).filter (· ≤ max)

def u32 : Reader Nat := natUpTo (2 ^ 32 - 1)

/-- A `usize` of a 64-bit platform. -/
def usize : Reader Nat := natUpTo (2 ^ 64 - 1)

def list {α : Type} (read : Reader α) : Reader (List α) := fun v =>
  v.asArray.bind fun items => items.mapM read

/-- An object without other keys than these: `deny_unknown_fields`. -/
def onlyKeys (keys : List String) (v : Value) : Bool :=
  v.asObject.any fun fields => fields.all fun field => keys.contains field.1

/-! ### Decoded shapes -/

structure ConditionRule where
  variableSelector : List String
  operator : Option String
  value : Option Value

def ConditionRule.read : Reader ConditionRule := fun v => do
  let _ ← v.asObject
  return ⟨← defaulted (list string) [] v "variableSelector", ← optional string v "operator",
    ← optional any v "value"⟩

structure ConditionCase where
  id : Option String
  logic : Option String
  conditions : List ConditionRule

def ConditionCase.read : Reader ConditionCase := fun v => do
  let _ ← v.asObject
  return ⟨← optional string v "id", ← optional string v "logic",
    ← defaulted (list ConditionRule.read) [] v "conditions"⟩

structure AggregatorConfig where
  «variables» : List (List String)

def AggregatorConfig.read : Reader AggregatorConfig := fun v => do
  let _ ← v.asObject
  return ⟨← defaulted (list (list string)) [] v "variables"⟩

structure OutputBinding where
  name : Option String
  variableSelector : List String

def OutputBinding.read : Reader OutputBinding := fun v => do
  let _ ← v.asObject
  return ⟨← optional string v "name", ← defaulted (list string) [] v "variableSelector"⟩

def errorStrategy : Reader IterationErrorStrategy
  | .str "fail" => some .fail
  | .str "continue" => some .continue
  | _ => none

structure IterationConfig where
  iteratorSelector : Option (List String)
  collectSelector : Option (List String)
  errorStrategy : Option IterationErrorStrategy
  maxIterations : Option Nat

def IterationConfig.read : Reader IterationConfig := fun v => do
  let _ ← v.asObject
  return ⟨← optional (list string) v "iteratorSelector", ← optional (list string) v "collectSelector",
    ← optional Wire.errorStrategy v "errorStrategy", ← optional u32 v "maxIterations"⟩

structure StartInputVariable where
  name : Option String
  fieldType : Option String
  valueType : Option String
  required : Bool
  options : List String
  maxLength : Option Nat
  value : Option Value

def StartInputVariable.read : Reader StartInputVariable := fun v => do
  let _ ← v.asObject
  let _ ← optional string v "displayName"
  return ⟨← optional string v "name", ← optional string v "fieldType",
    ← optional string v "valueType", ← defaulted bool false v "required",
    ← defaulted (list string) [] v "options", ← optional usize v "maxLength",
    ← optional any v "value"⟩

structure OutputContract where
  kind : Option String
  schema : Option Value

def OutputContract.read : Reader OutputContract := fun v => do
  let _ ← v.asObject
  let _ ← optional string v "textExposure"
  return ⟨← optional string v "type", ← optional any v "schema"⟩

structure AgentConfig where
  prompt : Option String
  interactive : Option Bool
  outputContract : Option OutputContract
  retry : Option Value

def AgentConfig.read : Reader AgentConfig := fun v => do
  let _ ← v.asObject
  return ⟨← optional string v "prompt", ← optional bool v "interactive",
    ← optional OutputContract.read v "outputContract", ← optional any v "retry"⟩

structure NodeData where
  nodeType : Option String
  instruction : Option String
  input : Option String
  inputVariables : List StartInputVariable
  agentConfig : Option AgentConfig
  cases : List ConditionCase
  aggregatorConfig : Option AggregatorConfig
  outputs : List OutputBinding
  iterationConfig : Option IterationConfig

def NodeData.read : Reader NodeData := fun v => do
  let _ ← v.asObject
  return ⟨← optional string v "kind", ← optional string v "instruction", ← optional string v "input",
    ← defaulted (list StartInputVariable.read) [] v "inputVariables",
    ← optional AgentConfig.read v "agentConfig", ← defaulted (list ConditionCase.read) [] v "cases",
    ← optional AggregatorConfig.read v "aggregatorConfig",
    ← defaulted (list OutputBinding.read) [] v "outputs",
    ← optional IterationConfig.read v "iterationConfig"⟩

structure Node where
  id : Option String
  data : Option NodeData
  parentId : Option String

def Node.read : Reader Node := fun v => do
  let _ ← v.asObject
  return ⟨← optional string v "id", ← optional NodeData.read v "data", ← optional string v "parentId"⟩

structure Edge where
  source : Option String
  target : Option String
  sourceHandle : Option String

def Edge.read : Reader Edge := fun v => do
  let _ ← v.asObject
  return ⟨← optional string v "source", ← optional string v "target",
    ← optional string v "sourceHandle"⟩

/-- `WireGlobalVariable`. -/
structure Global where
  name : Option String
  valueType : Option String
  value : Option Value

def Global.read : Reader Global := fun v => do
  let _ ← v.asObject
  return ⟨← optional string v "name", ← optional string v "valueType", ← optional any v "value"⟩

/-- `ReactFlowEnvelope`. Positions and other things of the canvas are not read. -/
structure Envelope where
  nodes : Option (List Node)
  edges : Option (List Edge)
  globalVariables : List Global

/-- The globals of a document: they have two spellings and may use only one. -/
def globals (v : Value) : Option (List Global) :=
  match v.get "global_variables", v.get "globalVariables" with
  | some _, some _ => none
  | some field, none | none, some field => list Global.read field
  | none, none => some []

def Envelope.read : Reader Envelope := fun v => do
  let _ ← v.asObject
  return ⟨← optional (list Node.read) v "nodes", ← optional (list Edge.read) v "edges",
    ← globals v⟩

end Wire

/-! ### Errors -/

structure SchemaViolation where
  path : String
  message : String

/-- Why `LoopConfig::parse` rejects a configuration. -/
inductive LoopConfigError where
  /-- `serde` does not read the shape; its text is not modelled. -/
  | shape
  | maxIterations
  | «until» (error : ConditionError)
  | invalidName (name : String)
  | duplicateVariable (name : String)
  | unsupportedType (valueType : String)
  | invalidInitialValue (name : String)
  | invalidSelector (parts : List String)
  | duplicateOutput (name : String)

inductive NodeReason where
  | text (reason : String)
  | structuredOutput (nodeId : String) (violation : SchemaViolation)
  | loop (nodeId : String) (error : LoopConfigError)
  | unreachable (nodeIds : List String)

/-- Why a document is refused. The texts are what the user is shown. -/
inductive GraphError where
  | invalidJson
  | missingNodes
  | missingEdges
  | invalidNode (reason : NodeReason)
  | unknownNodeType (nodeId value : String)
  | invalidCondition (nodeId : String) (error : ConditionError)
  | invalidAggregator (nodeId reason : String)
  | invalidIteration (nodeId reason : String)
  | invalidRetry (nodeId reason : String)
  | invalidRegion (nodeId reason : String)
  | invalidStartVariables (nodeId reason : String)
  | invalidGlobalVariables (reason : String)
  | danglingEdge (nodeId : String)
  | cycleDetected
  | multipleStartNodes
  | duplicateNodeId (nodeId : String)

def GraphError.invalid (reason : String) : GraphError := .invalidNode (.text reason)

/-! ### Conditions, aggregators and results -/

/-- `ComparisonOperator::parse`. -/
def ComparisonOperator.ofWire? : String → Option ComparisonOperator
  | "equals" => some .equals
  | "not_equals" => some .notEquals
  | "contains" => some .contains
  | "not_contains" => some .notContains
  | "starts_with" => some .startsWith
  | "ends_with" => some .endsWith
  | "empty" => some .empty
  | "not_empty" => some .notEmpty
  | "greater_than" => some .greaterThan
  | "greater_than_or_equal" => some .greaterThanOrEqual
  | "less_than" => some .lessThan
  | "less_than_or_equal" => some .lessThanOrEqual
  | "is" => some .is
  | "is_not" => some .isNot
  | "exists" => some .exists
  | "not_exists" => some .notExists
  | _ => none

def ConditionRule.fromWire (rule : Wire.ConditionRule) : Except ConditionError ConditionRule :=
  match rule.operator.bind ComparisonOperator.ofWire? with
  | none => .error (.unknownOperator (rule.operator.getD ""))
  | some operator =>
    match VariableSelector.tryFromParts rule.variableSelector with
    | none => .error (.invalidSelector rule.variableSelector)
    | some variableSelector => .ok ⟨variableSelector, operator, rule.value⟩

def ConditionCase.fromWire (case : Wire.ConditionCase) : Except ConditionError ConditionCase := do
  let id ← case.id.elim (.error .missingCaseId) .ok
  let logic ← match case.logic with
    | none | some "and" => .ok ConditionLogic.and
    | some "or" => .ok ConditionLogic.or
    | some other => .error (.unknownLogic other)
  return ⟨id, logic, ← case.conditions.mapM ConditionRule.fromWire⟩

def ConditionConfig.fromWire (cases : List Wire.ConditionCase) :
    Except ConditionError ConditionConfig :=
  (cases.mapM ConditionCase.fromWire).map ConditionConfig.mk

/-- The selectors of `AggregatorConfig::from_wire`, after those compiled already. -/
def aggregatorSelectors : List VariableSelector → List (List String) →
    Except AggregatorError (List VariableSelector)
  | compiled, [] => .ok compiled
  | compiled, parts :: rest =>
    match VariableSelector.tryFromParts parts with
    | none => .error (.invalidSelector parts)
    | some selector =>
      if selector.nested ≠ [] then .error (.nestedSelector selector.qualified)
      else if compiled.any (·.qualified == selector.qualified) then
        .error (.duplicateSelector selector.qualified)
      else aggregatorSelectors (compiled ++ [selector]) rest

def AggregatorConfig.fromWire : Option Wire.AggregatorConfig → Except AggregatorError AggregatorConfig
  | none => .error .missingConfig
  | some wire =>
    if wire.variables.isEmpty then .error .emptySelectors
    else (aggregatorSelectors [] wire.variables).map AggregatorConfig.mk

/-- `into_output_config`: a binding without a name or a selector is skipped. -/
def intoOutputConfig (wire : List Wire.OutputBinding) : Option OutputConfig :=
  let outputs := wire.filterMap fun binding => do
    let name ← binding.name
    let selector ← VariableSelector.tryFromParts binding.variableSelector
    some (⟨name, selector⟩ : OutputBinding)
  if outputs.isEmpty then none else some ⟨outputs⟩

/-! ### Iterations -/

def defaultMaxIterations : Nat := 50

def iterationSelector (nodeId field : String) (parts : Option (List String)) :
    Except GraphError VariableSelector :=
  match parts with
  | none => .error (.invalidIteration nodeId (field ++ " is required"))
  | some parts =>
    match VariableSelector.tryFromParts parts with
    | none => .error (.invalidIteration nodeId (field ++ " must be a variable selector"))
    | some selector => .ok selector

def parseIterationConfig (wire : Option Wire.IterationConfig) (nodeId : String) :
    Except GraphError IterationConfig :=
  match wire with
  | none => .error (.invalidIteration nodeId "iteration node requires an iterationConfig")
  | some wire => do
    let iteratorSelector ← iterationSelector nodeId "iteratorSelector" wire.iteratorSelector
    let collectSelector ← iterationSelector nodeId "collectSelector" wire.collectSelector
    if collectSelector.nested ≠ [] then
      throw (.invalidIteration nodeId
        "collectSelector must reference a root variable without a nested path")
    let maxIterations := wire.maxIterations.getD defaultMaxIterations
    if maxIterations < 1 then
      throw (.invalidIteration nodeId
        ("maxIterations must be at least 1, got " ++ toString maxIterations))
    return ⟨iteratorSelector, collectSelector, wire.errorStrategy.getD .fail, maxIterations⟩

/-! ### Start variables and globals -/

def StartInputFieldType.valueType : StartInputFieldType → ValueType
  | textInput | paragraph | select => .string
  | number => .number
  | checkbox => .boolean
  | file => .file
  | fileList => .arrayOf .file
  | json => .any

def StartInputFieldType.produces : StartInputFieldType → ValueType → Bool
  | json, .object | json, .any | json, .array | json, .arrayOf .string | json, .arrayOf .number
  | json, .arrayOf .object | json, .arrayOf .boolean | json, .arrayOf .any => true
  | json, _ => false
  | field, valueType => field.valueType == valueType

/-- A form control that is not named follows from the type. Whether a named one suits the type is
checked after this. -/
def StartInputFieldType.fromWire (fieldType : Option String) (valueType : ValueType) :
    Option StartInputFieldType :=
  match fieldType with
  | some "text-input" => some textInput
  | some "paragraph" => some paragraph
  | some "select" => some select
  | some "number" => some number
  | some "checkbox" => some checkbox
  | some "file" => some file
  | some "file-list" => some fileList
  | some "json" => some json
  | some _ => none
  | none =>
    match valueType with
    | .number | .integer => some number
    | .boolean => some checkbox
    | .file => some file
    | .arrayOf .file => some fileList
    | .string | .secret => some textInput
    | other => if json.produces other then some json else none

/-- A value checked against a declared type: `normalize_workflow_value` of an optional value. -/
def normalizeInitial (value : Option Value) (valueType : ValueType) : Option (Option Value) :=
  match value with
  | none => some none
  | some value => (normalizeWorkflowValue value valueType).map some

section

variable (name : String) (fieldType : StartInputFieldType)

def startOptions (options : List String) : Except String (List String) :=
  let options := options.map Text.trim
  if fieldType = .select ∧ (options.isEmpty ∨ options.any (·.isEmpty) ∨ ¬options.Nodup) then
    .error s!"variable {name} select options must be non-empty and unique"
  else if fieldType ≠ .select ∧ ¬options.isEmpty then
    .error s!"variable {name} options are only supported for select fields"
  else .ok options

def startMaxLength : Option Nat → Except String (Option Nat)
  | none => .ok none
  | some 0 => .error s!"variable {name} max length must be positive"
  | some bound =>
    if fieldType = .textInput ∨ fieldType = .paragraph then .ok (some bound)
    else .error s!"variable {name} max length is only supported for text fields"

def startValue (valueType : ValueType)
    (options : List String) (maxLength : Option Nat) (value : Option Value) :
    Except String (Option Value) :=
  match normalizeInitial value valueType with
  | none => .error ("variable " ++ name ++ " value does not match declared type " ++ valueType.toWire)
  | some value =>
    let text := value.bind Value.asStr
    match maxLength.filter fun bound => text.any (bound < ·.length) with
    | some bound =>
      .error ("variable " ++ name ++ " value exceeds maximum length " ++ toString bound)
    | none =>
      if fieldType = .select ∧ text.any (!options.contains ·) then
        .error s!"variable {name} initial value is not one of its select options"
      else .ok value

end

/-- One variable of `into_start_input_variables`, apart from the uniqueness of its name. -/
def startVariable (name : String) (wire : Wire.StartInputVariable) :
    Except String StartInputVariable := do
  let typeName := wire.valueType.getD ""
  match ValueType.ofWire? typeName with
  | none => .error s!"variable {name} has unsupported type {typeName}"
  | some valueType =>
    match StartInputFieldType.fromWire wire.fieldType valueType with
    | none => .error s!"variable {name} has unsupported Start field type"
    | some fieldType =>
      if wire.fieldType.isSome ∧ !fieldType.produces valueType then
        throw s!"variable {name} field type does not produce declared type {typeName}"
      let options ← startOptions name fieldType wire.options
      let maxLength ← startMaxLength name fieldType wire.maxLength
      let value ← startValue name fieldType valueType options maxLength wire.value
      return ⟨name, fieldType, valueType, wire.required, options, maxLength, value⟩

/-- `into_start_input_variables`, after the names seen already. -/
def intoStartInputVariables (names : List String) :
    List Wire.StartInputVariable → Except String (List StartInputVariable)
  | [] => .ok []
  | wire :: rest => do
    let name := Text.trim (wire.name.getD "")
    if name.isEmpty ∨ Text.contains name "." then
      throw "variable names must be non-empty and cannot contain dots"
    if names.contains name then throw s!"duplicate variable name {name}"
    let v ← startVariable name wire
    return v :: (← intoStartInputVariables (name :: names) rest)

/-- The variables only the runtime writes. A document cannot declare them differently. -/
def runtimeGlobals : List WorkflowGlobalVariable :=
  [⟨"sys.workflow_id", .string, none⟩, ⟨"sys.timestamp", .number, none⟩]

/-- The declared variables of `into_global_variables`, after the names seen already. -/
def declaredGlobals (names : List String) :
    List Wire.Global → Except String (List WorkflowGlobalVariable)
  | [] => .ok []
  | wire :: rest => do
    let name := Text.trim (wire.name.getD "")
    if (Text.split '.' name).length < 2 ∨ Text.startsWith name "." ∨ Text.endsWith name "." then
      throw s!"global variable {name} must be a qualified name"
    if names.contains name then throw s!"duplicate global variable {name}"
    let typeName := wire.valueType.getD ""
    match ValueType.ofWire? typeName with
    | none => throw s!"global variable {name} has unsupported type {typeName}"
    | some valueType =>
      if !(runtimeGlobals.any (·.name == name)) ∧ wire.value.isNone then
        throw s!"global variable {name} must have an initial value"
      match normalizeInitial wire.value valueType with
      | none => throw s!"global variable {name} value does not match declared type {typeName}"
      | some value => return ⟨name, valueType, value⟩ :: (← declaredGlobals (name :: names) rest)

/-- `into_global_variables`: the runtime's own declarations replace any of the same name. -/
def intoGlobalVariables (wire : List Wire.Global) : Except String (List WorkflowGlobalVariable) :=
  (declaredGlobals [] wire).map fun declared =>
    declared.filter (fun v => !runtimeGlobals.any (·.name == v.name)) ++ runtimeGlobals

/-! ### Agents -/

section

variable [JsonText]

/-- `bounded_integer`: a required retry field in `0 .. max`. -/
def retryInteger (nodeId : String) (policy : Value) (field : String) (max : Nat) :
    Except GraphError Nat :=
  match policy.get field with
  | none => .error (.invalidRetry nodeId ("retry." ++ field ++ " is required"))
  | some value =>
    match Wire.natUpTo max value with
    | some n => .ok n
    | none => .error (.invalidRetry nodeId ("retry." ++ field ++ " must be an integer from 0 to " ++
        toString max ++ ", got " ++ JsonText.toText value))

/-- A node without a policy has the default one; a policy that is given must be complete and in
range. -/
def parseRetryPolicy (nodeId : String) : Option Value → Except GraphError AgentRetryPolicy
  | none | some .null => .ok .default
  | some (.obj fields) => do
    let policy := Value.obj fields
    let enabled ← match policy.get "enabled" with
      | some (.bool enabled) => .ok enabled
      | some other => .error (.invalidRetry nodeId
          ("retry.enabled must be a boolean, got " ++ JsonText.toText other))
      | none => .error (.invalidRetry nodeId "retry.enabled is required")
    return ⟨enabled, ← retryInteger nodeId policy "maxRetries" 5,
      ← retryInteger nodeId policy "initialDelaySeconds" 300⟩
  | some other => .error (.invalidRetry nodeId
      ("retry must be an object, got " ++ JsonText.toText other))

end

/-- `WireOutputContract::into_model`: an unknown kind counts as no contract. -/
def AgentOutputContract.fromWire (wire : Wire.OutputContract) : Option AgentOutputContract :=
  match wire.kind with
  | some "none" => some .none
  | some "text" => some .text
  | some "structured" => some (.structured (wire.schema.getD .null))
  | _ => none

section

variable (fields : List (String × Value)) (path valueType : String)

def validateRequired : Option SchemaViolation :=
  (fields.lookup "required").bind fun required =>
    if valueType ≠ "object" then some ⟨path, "required is only valid for object fields"⟩
    else match required.asArray with
      | none => some ⟨path, "required must be an array"⟩
      | some entries => entries.findSome? fun entry =>
        match entry.asStr with
        | none => some ⟨path, "required entry is not a string"⟩
        | some name =>
          if (((fields.lookup "properties").bind Value.asObject).bind (·.lookup name)).isSome then none
          else some ⟨path, "required property " ++ name ++ " is not declared"⟩

def validateAdditional : Option SchemaViolation :=
  (fields.lookup "additionalProperties").bind fun additional =>
    if valueType = "object" ∧ (Wire.bool additional).isSome then none
    else some ⟨path, "additionalProperties must be a boolean on an object field"⟩

end

mutual

/-- A schema fragment names its type, and what it says beside that must be something the type can
have. -/
def validateSchemaNode : Value → String → Option SchemaViolation
  | .obj fields, path =>
    match (fields.lookup "type").bind Value.asStr with
    | none => some ⟨path, "type must be a string"⟩
    | some valueType =>
      if valueType ≠ "null" ∧ ValueType.ofWire? valueType = none then
        some ⟨path, "unsupported type " ++ valueType⟩
      else ((validateProperties fields path valueType).or
        (validateRequired fields path valueType)).or
        ((validateAdditional fields path valueType).or (validateItems fields path valueType))
  | _, path => some ⟨path, "schema fragment is not an object"⟩
termination_by structural v => v

/-- The `properties` of a schema node, found among its fields. -/
def validateProperties : List (String × Value) → String → String → Option SchemaViolation
  | [], _, _ => none
  | (key, field) :: rest, path, valueType =>
    if key ≠ "properties" then validateProperties rest path valueType
    else if valueType ≠ "object" then some ⟨path, "properties is only valid for object fields"⟩
    else match field with
      | .obj properties => validateEachProperty properties (path ++ ".properties.")
      | _ => some ⟨path, "properties must be an object"⟩
termination_by structural fields => fields

/-- Each of the properties, in the order of the schema; the first violation is reported. -/
def validateEachProperty : List (String × Value) → String → Option SchemaViolation
  | [], _ => none
  | (name, property) :: rest, path =>
    (validateSchemaNode property (path ++ name)).or (validateEachProperty rest path)
termination_by structural properties => properties

/-- The `items` of a schema node, found among its fields. -/
def validateItems : List (String × Value) → String → String → Option SchemaViolation
  | [], _, _ => none
  | (key, field) :: rest, path, valueType =>
    if key ≠ "items" then validateItems rest path valueType
    else if valueType ≠ "array" then some ⟨path, "items is only valid for array fields"⟩
    else validateSchemaNode field (path ++ ".items")
termination_by structural fields => fields

end

def validateStructuredOutputSchema (schema : Value) : Option SchemaViolation :=
  (validateSchemaNode schema "$").or
    (if (schema.get "type").bind Value.asStr = some "object" then none
      else some ⟨"$", "root type must be object"⟩)

/-! ### Nodes -/

section

variable [JsonText]

/-- `WireAgentConfig::into_model`. -/
def AgentConfig.fromWire (nodeId : String) (wire : Wire.AgentConfig) :
    Except GraphError AgentConfig := do
  return ⟨wire.prompt.getD "", wire.interactive.getD false,
    wire.outputContract.bind AgentOutputContract.fromWire, ← parseRetryPolicy nodeId wire.retry⟩

/-- The check of an agent's structured output contract. -/
def AgentConfig.checkSchema (nodeId : String) (config : AgentConfig) : Except GraphError Unit :=
  match config.outputContract with
  | some (.structured schema) =>
    match validateStructuredOutputSchema schema with
    | some violation => .error (.invalidNode (.structuredOutput nodeId violation))
    | none => .ok ()
  | _ => .ok ()

/-- What `parse_flat` makes of one node's data. -/
def Wire.NodeData.toModel (id : String) (nodeType : NodeType) (data : Wire.NodeData) :
    Except GraphError WorkflowGraphNode := do
  let inputVariables ← (if nodeType = .start then
      (intoStartInputVariables [] data.inputVariables).mapError (.invalidStartVariables id)
    else .ok [])
  let agentConfig ← data.agentConfig.mapM (AgentConfig.fromWire id)
  let conditionConfig ← (if nodeType = .condition then
      ((ConditionConfig.fromWire data.cases).map some).mapError (.invalidCondition id)
    else .ok none)
  let aggregatorConfig ← (if nodeType = .aggregator then
      ((AggregatorConfig.fromWire data.aggregatorConfig).map some).mapError fun e =>
        .invalidAggregator id e.message
    else .ok none)
  let iterationConfig ← (if nodeType = .iteration then
      (parseIterationConfig data.iterationConfig id).map some
    else .ok none)
  agentConfig.forM (AgentConfig.checkSchema id)
  return {
    id
    nodeType
    -- the editor stores a Start node's prompt in `input`, older snapshots in `instruction`
    instruction := if nodeType = .start then data.input.or data.instruction else data.instruction
    inputVariables
    agentConfig
    conditionConfig
    aggregatorConfig
    outputConfig := if nodeType = .output then intoOutputConfig data.outputs else none
    iterationConfig }

/-- A node as `parse_flat` keeps it while it parses: with the owner of its region. -/
structure ContainedNode where
  node : WorkflowGraphNode
  parentId : Option String

/-- One turn of `parse_flat`'s loop over the nodes, after the ids seen already. -/
def Wire.Node.toModel (seen : List String) (wire : Wire.Node) : Except GraphError ContainedNode := do
  let id ← wire.id.elim (.error (.invalid "missing id")) .ok
  if seen.contains id then throw (.duplicateNodeId id)
  let data ← wire.data.elim (.error (.invalid ("node " ++ id ++ " has no data"))) .ok
  let kind ← data.nodeType.elim (.error (.invalid ("node " ++ id ++ " has no node type"))) .ok
  let nodeType ← (NodeType.ofStr? kind).elim (.error (.unknownNodeType id kind)) .ok
  return ⟨← data.toModel id nodeType, wire.parentId⟩

end

/-! ### Loops -/

/-- `validate_name`: names are selector segments. -/
def isLoopName (name : String) : Bool :=
  !(Text.trim name).isEmpty && Text.trim name == name && !Text.contains name "."

/-- `parse_selector` of a Loop. -/
def loopSelector (parts : List String) : Except LoopConfigError VariableSelector :=
  (VariableSelector.tryFromParts parts).elim (.error (.invalidSelector parts)) .ok

namespace Wire

inductive InitialValue where
  | constant (value : Value)
  | variable (selector : List String)

/-- Reads an initial value, tagged by its `kind`. -/
def InitialValue.read : Reader InitialValue := fun v =>
  match (v.get "kind").bind Value.asStr with
  | some "constant" =>
    if onlyKeys ["kind", "value"] v then (v.get "value").map .constant else none
  | some "variable" =>
    if onlyKeys ["kind", "selector"] v then (required (list string) v "selector").map .variable
    else none
  | _ => none

structure LoopVariable where
  name : String
  valueType : String
  initial : InitialValue
  feedback : List String

def LoopVariable.read : Reader LoopVariable := fun v => do
  guard (onlyKeys ["name", "valueType", "initial", "feedback"] v)
  return ⟨← required string v "name", ← required string v "valueType",
    ← required InitialValue.read v "initial", ← required (list string) v "feedback"⟩

structure Binding where
  name : String
  variableSelector : List String

def Binding.read : Reader Binding := fun v => do
  guard (onlyKeys ["name", "variableSelector"] v)
  return ⟨← required string v "name", ← required (list string) v "variableSelector"⟩

def maxIterationsBehavior : Reader LoopMaxIterationsBehavior
  | .str "fail" => some .fail
  | .str "succeed" => some .succeed
  | _ => none

/-- `WireLoopConfig` with its `WireUntil`. -/
structure LoopConfig where
  maxIterations : Nat
  maxIterationsBehavior : LoopMaxIterationsBehavior
  «variables» : List LoopVariable
  untilLogic : String
  untilConditions : List ConditionRule
  outputs : List Binding

def LoopConfig.read : Reader LoopConfig := fun v => do
  guard (onlyKeys ["maxIterations", "maxIterationsBehavior", "variables", "until", "outputs"] v)
  let condition ← v.get "until"
  guard (onlyKeys ["logic", "conditions"] condition)
  return ⟨← required u32 v "maxIterations",
    ← defaulted Wire.maxIterationsBehavior .fail v "maxIterationsBehavior",
    ← required (list LoopVariable.read) v "variables", ← required string condition "logic",
    ← required (list ConditionRule.read) condition "conditions",
    ← required (list Binding.read) v "outputs"⟩

end Wire

def loopInitialValue (name : String) (valueType : ValueType) :
    Wire.InitialValue → Except LoopConfigError LoopInitialValue
  | .constant value =>
    match normalizeWorkflowValue value valueType with
    | none => .error (.invalidInitialValue name)
    | some normalized => .ok (.constant normalized)
  | .variable selector => (loopSelector selector).map .variable

/-- The carried variables of `LoopConfig::parse`, after the names seen already. -/
def loopVariables (names : List String) :
    List Wire.LoopVariable → Except LoopConfigError (List LoopVariable)
  | [] => .ok []
  | wire :: rest => do
    if !isLoopName wire.name then throw (.invalidName wire.name)
    if names.contains wire.name then throw (.duplicateVariable wire.name)
    let valueType ← (ValueType.ofWire? wire.valueType).elim
      (.error (.unsupportedType wire.valueType)) .ok
    let initial ← loopInitialValue wire.name valueType wire.initial
    let feedback ← loopSelector wire.feedback
    return ⟨wire.name, valueType, initial, feedback⟩ :: (← loopVariables (wire.name :: names) rest)

/-- The exports of `LoopConfig::parse`, after the names seen already. -/
def loopOutputs (names : List String) :
    List Wire.Binding → Except LoopConfigError (List OutputBinding)
  | [] => .ok []
  | wire :: rest => do
    if !isLoopName wire.name then throw (.invalidName wire.name)
    if names.contains wire.name then throw (.duplicateOutput wire.name)
    let selector ← loopSelector wire.variableSelector
    return ⟨wire.name, selector⟩ :: (← loopOutputs (wire.name :: names) rest)

/-- Shape first, then the bound on rounds, the condition, the variables and the exports; the first
error is reported. -/
def LoopConfig.parse (v : Value) : Except LoopConfigError LoopConfig :=
  match Wire.LoopConfig.read v with
  | none => .error .shape
  | some wire => do
    if wire.maxIterations < 1 ∨ 100 < wire.maxIterations then throw .maxIterations
    let «until» ← (ConditionConfig.fromWire
      [⟨some "until", some wire.untilLogic, wire.untilConditions⟩]).mapError .until
    return ⟨wire.maxIterations, wire.maxIterationsBehavior, ← loopVariables [] wire.variables, «until»,
      ← loopOutputs [] wire.outputs⟩

end OraDesktop.Workflow
