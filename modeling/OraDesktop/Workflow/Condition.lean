import OraDesktop.Workflow.VariablePool

/-!
# Templates, conditions and aggregation

The three readers of the variable pool: rendering a `{{#node.variable.path#}}` template, evaluating
a Condition's cases, and passing the first assigned selector of an Aggregator through.
-/

namespace OraDesktop.Workflow

/-! ### Templates -/

inductive VariableTemplateError where
  | unterminated
  | invalidSelector (selector : String)
  | undeclared (selector : String)
  | invalidPath (selector segment : String)
  | pathNotObject (selector : String)
  | unsetVariable (selector : String)
  deriving DecidableEq

def VariableTemplateError.message : VariableTemplateError → String
  | unterminated => "template has an unterminated variable reference"
  | invalidSelector selector =>
    s!"template selector {selector} is not a node id and root variable"
  | undeclared selector => s!"template references an undeclared variable: {selector}"
  | invalidPath selector segment =>
    s!"template variable {selector} has no object path segment {segment}"
  | pathNotObject selector =>
    s!"template variable {selector} is not an object, so its path cannot be resolved"
  | unsetVariable selector => s!"template variable {selector} has not been assigned yet"

/-- How rendering reports a pool error. Reading never checks a writer, a type or a length, so only
the first and the last two constructors of the pool error occur. -/
def VariableTemplateError.ofPool : WorkflowVariablePoolError → VariableTemplateError
  | .pathMissing selector segment => .invalidPath selector segment
  | .pathNotObject selector _ => .pathNotObject selector
  | .undeclared selector | .invalidWriter selector _ _ | .typeMismatch selector _
  | .lengthExceeded selector _ => .undeclared selector

section

variable [JsonText]

/-- `render_value`: strings verbatim, everything else as JSON. -/
def renderValue : Value → String
  | .str text => text
  | other => JsonText.toText other

def templateOpen : List Char := ['\x7b', '\x7b', '#']

def templateClose : List Char := ['#', '\x7d', '\x7d']

/-- Resolves the selector between a placeholder's delimiters. -/
def renderPlaceholder (pool : WorkflowVariablePool) (selectorText : List Char) :
    Except VariableTemplateError String :=
  let text := String.ofList selectorText
  match VariableSelector.tryFromParts (Text.split '.' text) with
  | none => .error (.invalidSelector text)
  | some selector =>
    match pool.resolve selector with
    | .error e => .error (.ofPool e)
    | .ok none => .error (.unsetVariable selector.qualified)
    | .ok (some value) => .ok (renderValue value)

/-- The loop of `render_variable_template`. Each round consumes a placeholder, so the length of
the rest is enough fuel. -/
def renderTemplateLoop (pool : WorkflowVariablePool) :
    Nat → List Char → Except VariableTemplateError String
  | 0, rest => .ok (String.ofList rest)
  | fuel + 1, rest =>
    match Text.splitOnceChars templateOpen rest with
    | none => .ok (String.ofList rest)
    | some (before, afterOpen) =>
      match Text.splitOnceChars templateClose afterOpen with
      | none => .error .unterminated
      | some (selectorText, rest) => do
        let rendered ← renderPlaceholder pool selectorText
        let tail ← renderTemplateLoop pool fuel rest
        return String.ofList before ++ rendered ++ tail

/-- Every placeholder is replaced by its value; one that is not closed, or whose variable is
missing, fails the whole text. -/
def renderVariableTemplate (template : String) (pool : WorkflowVariablePool) :
    Except VariableTemplateError String :=
  renderTemplateLoop pool template.length template.toList

/-! ### Conditions -/

/-- `ConditionError`, for a condition that is compiled or evaluated. -/
inductive ConditionError where
  | missingCaseId
  | missingConfig
  | unknownLogic (logic : String)
  | unknownOperator (operator : String)
  | invalidSelector (selector : List String)
  | undeclared (selector : String)
  | invalidPath (selector segment : String)
  | typeMismatch (selector : String) (operator : ComparisonOperator) (actual expected : String)
  | unsetVariable (selector : String)
  deriving DecidableEq

def ComparisonOperator.toWire : ComparisonOperator → String
  | equals => "equals"
  | notEquals => "not_equals"
  | contains => "contains"
  | notContains => "not_contains"
  | startsWith => "starts_with"
  | endsWith => "ends_with"
  | empty => "empty"
  | notEmpty => "not_empty"
  | greaterThan => "greater_than"
  | greaterThanOrEqual => "greater_than_or_equal"
  | lessThan => "less_than"
  | lessThanOrEqual => "less_than_or_equal"
  | is => "is"
  | isNot => "is_not"
  | «exists» => "exists"
  | notExists => "not_exists"

/-- Rust's debug form of a list of strings, for texts without characters that need an escape. -/
def debugStrings (items : List String) : String :=
  "[" ++ Text.join ", " (items.map fun s => "\"" ++ s ++ "\"") ++ "]"

def ConditionError.message : ConditionError → String
  | missingCaseId => "condition case is missing an id"
  | missingConfig => "condition node has no executable cases"
  | unknownLogic logic => s!"condition case has unknown logic {logic}"
  | unknownOperator operator => s!"condition rule has unknown operator {operator}"
  | invalidSelector selector =>
    "condition rule selector " ++ debugStrings selector ++ " is not a node id and root variable"
  | undeclared selector => s!"condition reads an undeclared variable: {selector}"
  | invalidPath selector segment =>
    s!"condition variable {selector} has no object path segment {segment}"
  | typeMismatch selector operator actual expected =>
    "operator " ++ operator.toWire ++ " cannot compare variable " ++ selector ++ " of type " ++
      actual ++ " against " ++ expected
  | unsetVariable selector => s!"condition variable {selector} has not been assigned yet"

def mapPoolResolveError (operator : ComparisonOperator) : WorkflowVariablePoolError → ConditionError
  | .pathMissing selector segment => .invalidPath selector segment
  | .pathNotObject selector path => .typeMismatch selector operator path "object"
  | .undeclared selector | .invalidWriter selector _ _ | .typeMismatch selector _
  | .lengthExceeded selector _ => .undeclared selector

def mapTemplateError (operator : ComparisonOperator) : VariableTemplateError → ConditionError
  | .unterminated => .invalidSelector [String.ofList templateOpen]
  | .invalidSelector selector => .invalidSelector (Text.split '.' selector)
  | .undeclared selector => .undeclared selector
  | .invalidPath selector segment => .invalidPath selector segment
  | .pathNotObject selector => .typeMismatch selector operator "value" "object"
  | .unsetVariable selector => .unsetVariable selector

/-- `exclusive_template_selector`: a text that is exactly one placeholder. -/
def exclusiveTemplateSelector (text : String) : Option VariableSelector :=
  let trimmed := (Text.trim text).toList
  if templateOpen <+: trimmed ∧ templateClose <:+ trimmed.drop 3 then
    let inner := (trimmed.drop 3).take (trimmed.length - 6)
    if templateOpen <:+: inner ∨ templateClose <:+: inner then none
    else VariableSelector.tryFromParts (Text.split '.' (String.ofList inner))
  else none

/-- An operand that is one placeholder keeps the type of its variable; any other text is rendered to
a text. -/
def resolveComparisonValue (value : Value) (pool : WorkflowVariablePool)
    (operator : ComparisonOperator) : Except ConditionError Value :=
  match value with
  | .str text =>
    if templateOpen <:+: text.toList then
      match exclusiveTemplateSelector text with
      | some selector =>
        match pool.resolve selector with
        | .error e => .error (mapPoolResolveError operator e)
        | .ok none => .error (.unsetVariable selector.qualified)
        | .ok (some resolved) => .ok resolved
      | none =>
        match renderVariableTemplate text pool with
        | .error e => .error (mapTemplateError operator e)
        | .ok rendered => .ok (.str rendered)
    else .ok value
  | _ => .ok value

/-- `is_empty`. -/
def isEmptyValue : Option Value → Bool
  | none | some .null => true
  | some (.str text) => text.isEmpty
  | some (.arr items) => items.isEmpty
  | some (.obj fields) => fields.isEmpty
  | some (.bool _) | some (.num _) => false

/-- `equal`: numbers compare as doubles, everything else as JSON values. -/
def equalValues (actual expected : Value) : Bool :=
  match actual.asF64, expected.asF64 with
  | some left, some right => decide (left = right)
  | _, _ => actual.same expected

/-- `contains`. -/
def containsValue (actual expected : Value) : Option Bool :=
  match actual with
  | .str text => expected.asStr.map fun needle => Text.contains text needle
  | .arr items => some (items.any fun item => equalValues item expected)
  | _ => none

def compareNumbers (actual expected : Value) : Option Ordering := do
  let left ← actual.asF64
  let right ← expected.asF64
  return if left < right then .lt else if left = right then .eq else .gt

def typeLabel : Value → String
  | .null => "null"
  | .bool _ => "boolean"
  | .num (.posInt _) | .num (.negInt _) => "integer"
  | .num (.float _) => "number"
  | .str _ => "string"
  | .arr _ => "array"
  | .obj _ => "object"

/-- The answer of a binary operator, or `none` when the operand types do not fit it. -/
def ComparisonOperator.apply (operator : ComparisonOperator) (actual expected : Value) :
    Option Bool :=
  match operator with
  | .equals | .is => some (equalValues actual expected)
  | .notEquals | .isNot => some (!equalValues actual expected)
  | .contains => containsValue actual expected
  | .notContains => (containsValue actual expected).map (!·)
  | .startsWith => do return Text.startsWith (← actual.asStr) (← expected.asStr)
  | .endsWith => do return Text.endsWith (← actual.asStr) (← expected.asStr)
  | .greaterThan => (compareNumbers actual expected).map (·.isGT)
  | .greaterThanOrEqual => (compareNumbers actual expected).map (·.isGE)
  | .lessThan => (compareNumbers actual expected).map (·.isLT)
  | .lessThanOrEqual => (compareNumbers actual expected).map (·.isLE)
  | .empty | .notEmpty | .exists | .notExists => none

/-- `ComparisonOperator::evaluate`: only the existence and emptiness operators tolerate an
unassigned variable. -/
def ComparisonOperator.evaluate (operator : ComparisonOperator) (resolved expected : Option Value)
    (selector : String) : Except ConditionError Bool :=
  match operator with
  | .exists => .ok resolved.isSome
  | .notExists => .ok resolved.isNone
  | .empty => .ok (isEmptyValue resolved)
  | .notEmpty => .ok (!isEmptyValue resolved)
  | _ =>
    match resolved, expected with
    | none, _ => .error (.unsetVariable selector)
    | some actual, none =>
      .error (.typeMismatch selector operator (typeLabel actual) "a comparison value")
    | some actual, some expected =>
      match operator.apply actual expected with
      | some answer => .ok answer
      | none => .error (.typeMismatch selector operator (typeLabel actual) (typeLabel expected))

/-- The operand is resolved even where the operator ignores it, so its error is an error of the
rule. -/
def evaluateRule (pool : WorkflowVariablePool) (rule : ConditionRule) :
    Except ConditionError Bool := do
  let resolved ← (pool.resolve rule.variableSelector).mapError (mapPoolResolveError rule.operator)
  let expected ← match rule.value with
    | none => pure none
    | some value => some <$> resolveComparisonValue value pool rule.operator
  rule.operator.evaluate resolved expected rule.variableSelector.qualified

/-- Whether one case holds; every rule is evaluated, and an empty case never matches. -/
def evaluateCase (pool : WorkflowVariablePool) (case : ConditionCase) :
    Except ConditionError Bool := do
  if case.conditions.isEmpty then return false
  let answers ← case.conditions.mapM (evaluateRule pool)
  return match case.logic with
    | .and => answers.all id
    | .or => answers.any id

/-- The cases in order; the first that holds wins. -/
def evaluateCases (pool : WorkflowVariablePool) : List ConditionCase → Except ConditionError String
  | [] => .ok elseBranchId
  | case :: rest => do
    if ← evaluateCase pool case then return case.id
    evaluateCases pool rest

/-- `evaluate_condition`: the id of the selected branch. -/
def evaluateCondition (config : ConditionConfig) (pool : WorkflowVariablePool) :
    Except ConditionError String :=
  evaluateCases pool config.cases

end

/-! ### Aggregation -/

inductive AggregatorError where
  | missingConfig
  | emptySelectors
  | invalidSelector (selector : List String)
  | nestedSelector (selector : String)
  | duplicateSelector (selector : String)
  | noAssignedVariable (selectors : String)
  | pool (error : WorkflowVariablePoolError)

def AggregatorError.message : AggregatorError → String
  | missingConfig => "aggregator node has no config"
  | emptySelectors => "aggregator node must declare at least one selector"
  | invalidSelector selector =>
    "aggregator selector " ++ debugStrings selector ++ " is not a node id and root variable"
  | nestedSelector selector =>
    s!"aggregator selector {selector} must reference a root variable, not a nested path"
  | duplicateSelector selector => s!"aggregator declares duplicate selector {selector}"
  | noAssignedVariable selectors => s!"aggregator found no assigned variable among: {selectors}"
  | pool error => error.message

/-- The first assigned selector's value among the given ones. -/
def selectAssigned (pool : WorkflowVariablePool) :
    List VariableSelector → Except WorkflowVariablePoolError (Option Value)
  | [] => .ok none
  | selector :: rest => do
    match ← pool.resolve selector with
    | some value => return some value
    | none => selectAssigned pool rest

def AggregatorConfig.selectOutput (config : AggregatorConfig) (pool : WorkflowVariablePool) :
    Except AggregatorError Value :=
  match selectAssigned pool config.variables with
  | .error e => .error (.pool e)
  | .ok (some value) => .ok value
  | .ok none =>
    .error (.noAssignedVariable
      ("[" ++ Text.join ", " (config.variables.map (·.qualified)) ++ "]"))

end OraDesktop.Workflow
