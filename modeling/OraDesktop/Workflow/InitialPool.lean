import OraDesktop.Lib.FirstByKey
import OraDesktop.Workflow.ParseSound
import OraDesktop.Workflow.VariableValue

/-!
# The pool a run starts from

`from_graph` declares the globals, then every node's variables, and the first declaration of a key
wins. A key may so have the type of one declaration and the length bound and value of another: a
Start variable called `input`, or one whose selector is also a global's name. The parser checks
each declaration by itself and never the two together. What can be relied on is where the bounds,
the values and the types of the globals come from, and that each declaration's own value fits it.

## Main results

* `origin_fromGraph` — bounds are Start variables', values are a declaration's own
* `initial_of_parse` — the parser has checked every declaration's own value
-/

namespace OraDesktop.Workflow

open FirstByKey (find?_eq_some_of_unique)
open Fallible List WorkflowVariablePool

/-- The value is not a text longer than the bound. -/
def withinLength (maxLength : Option Nat) (value : Value) : Bool :=
  value.asStr.all fun text => maxLength.all (text.length ≤ ·)

/-- The value is not a text outside the options, if there are any. -/
def StartInputVariable.offers (v : StartInputVariable) (value : Value) : Bool :=
  value.asStr.all fun text => v.options.isEmpty || v.options.contains text

/-- The value has the type, length and options of a Start variable. -/
def StartInputVariable.admits (v : StartInputVariable) (value : Value) : Bool :=
  v.valueType.accepts value && withinLength v.maxLength value && v.offers value

/-- The Start variables, each with the key of the pool it is declared under. -/
def FlatGraph.startVariables (g : FlatGraph) : List (String × StartInputVariable) :=
  g.startNode.elim [] fun start =>
    start.inputVariables.map fun v => (start.id ++ "." ++ v.name, v)

/-! ### Where the pool's entries come from -/

/-- Bounds are those of Start variables, and values are what a Start variable or a global has of
its own. Globals are declared first, so nothing changes their types. -/
structure Origin (globals : List WorkflowGlobalVariable)
    (inputs : List (String × StartInputVariable)) (pool : WorkflowVariablePool) : Prop where
  length : ∀ selector definition, pool.catalog[selector]? = some definition →
    definition.maxLength = none ∨
      ∃ v, (selector, v) ∈ inputs ∧ definition.maxLength = v.maxLength
  value : ∀ selector value, pool.values[selector]? = some value →
    (∃ v, (selector, v) ∈ inputs ∧ v.value = some value) ∨
      ∃ w ∈ globals, w.name = selector ∧ w.value = some value
  type : ∀ w ∈ globals, (pool.catalog[w.name]?).map (·.valueType) = some w.valueType

section

variable {globals : List WorkflowGlobalVariable} {inputs : List (String × StartInputVariable)}
  {pool : WorkflowVariablePool}

theorem getElem?_declare (selector key writer : String) (valueType : ValueType) :
    (pool.declare selector valueType writer).catalog[key]? =
      (pool.catalog[key]?).or (if selector = key then some ⟨valueType, writer, none⟩ else none) := by
  rw [declare]
  split
  · rename_i hmem
    by_cases hkey : selector = key
    · subst hkey
      rw [Std.ExtTreeMap.getElem?_eq_some_getElem hmem, Option.some_or]
    · rw [if_neg hkey, Option.or_none]
  · rename_i hmem
    rw [Map.getElem?_insert]
    by_cases hkey : selector = key
    · subst hkey
      rw [if_pos rfl, Std.ExtTreeMap.getElem?_eq_none hmem, if_pos rfl, Option.none_or]
    · rw [if_neg hkey, if_neg hkey, Option.or_none]

theorem values_declare (selector writer : String) (valueType : ValueType) :
    (pool.declare selector valueType writer).values = pool.values := by
  rw [declare]
  split <;> rfl

/-- The globals are declared one after another into an empty pool. -/
theorem origin_globals (hnodup : (globals.map (·.name)).Nodup) :
    Origin globals inputs (globals.foldl declareGlobal empty) := by
  have hcatalog : ∀ key, (globals.foldl declareGlobal empty).catalog[key]? =
      (globals.find? (·.name == key)).map fun w =>
        ⟨w.valueType, Text.beforeFirst '.' w.name, none⟩ := by
    intro key
    clear hnodup
    induction globals using List.reverseRecOn with
    | nil => rfl
    | append_singleton globals w ih =>
      have hlast : ∀ p : WorkflowVariablePool, (p.declareGlobal w).catalog =
          (p.declare w.name w.valueType (Text.beforeFirst '.' w.name)).catalog := by
        intro p
        rw [declareGlobal]
        cases w.value <;> rfl
      rw [foldl_append, foldl_cons, foldl_nil, hlast, getElem?_declare, ih, find?_append,
        Option.map_or, find?_singleton]
      by_cases hkey : w.name = key <;> simp [hkey]
  refine ⟨fun key definition h => .inl ?_, fun key value h => .inr ?_, fun w hw => ?_⟩
  · rw [hcatalog, Option.map_eq_some_iff] at h
    obtain ⟨w, -, rfl⟩ := h
    rfl
  · clear hcatalog hnodup
    induction globals using List.reverseRecOn with
    | nil => cases h
    | append_singleton globals w ih =>
      rw [foldl_append, foldl_cons, foldl_nil, declareGlobal] at h
      cases hvalue : w.value with
      | none =>
        simp only [hvalue, values_declare] at h
        obtain ⟨w', hw', hname⟩ := ih h
        exact ⟨w', mem_append_left _ hw', hname⟩
      | some own =>
        simp only [hvalue, seed, values_declare, Map.getElem?_insert] at h
        split at h
        · exact ⟨w, by simp, ‹_›, by rw [hvalue, h]⟩
        · obtain ⟨w', hw', hname⟩ := ih h
          exact ⟨w', mem_append_left _ hw', hname⟩
  · rw [hcatalog, find?_eq_some_of_unique hw (by simp) fun w' hw' h' =>
      inj_on_of_nodup_map hnodup hw' hw (by simpa using h')]
    rfl

variable (h : Origin globals inputs pool)

include h

theorem Origin.declare (selector writer : String) (valueType : ValueType) :
    Origin globals inputs (pool.declare selector valueType writer) := by
  refine ⟨fun key definition hkey => ?_, fun key value hvalue => ?_, fun w hw => ?_⟩
  · rw [getElem?_declare, Option.or_eq_some_iff] at hkey
    rcases hkey with hkey | ⟨-, hkey⟩
    · exact h.length key definition hkey
    · split at hkey <;> cases hkey
      exact .inl rfl
  · rw [values_declare] at hvalue
    exact h.value key value hvalue
  · rw [getElem?_declare, Option.map_or, h.type w hw, Option.some_or]

theorem Origin.declareStartVariable {startId : String} {v : StartInputVariable}
    (hv : (startId ++ "." ++ v.name, v) ∈ inputs) :
    Origin globals inputs (pool.declareStartVariable startId v) := by
  have hdeclared := h.declare (startId ++ "." ++ v.name) startId v.valueType
  have hcatalog : (pool.declareStartVariable startId v).catalog =
      (pool.declare (startId ++ "." ++ v.name) v.valueType startId).catalog.modify
        (startId ++ "." ++ v.name) fun d => { d with maxLength := v.maxLength } := by
    rw [WorkflowVariablePool.declareStartVariable]
    cases v.value <;> rfl
  refine ⟨fun key definition hkey => ?_, fun key value hvalue => ?_, fun w hw => ?_⟩
  · rw [hcatalog, Map.getElem?_modify] at hkey
    split at hkey
    · rename_i heq
      obtain ⟨_, -, rfl⟩ := Option.map_eq_some_iff.mp hkey
      exact .inr ⟨v, heq ▸ hv, rfl⟩
    · exact hdeclared.length key definition hkey
  · rw [WorkflowVariablePool.declareStartVariable] at hvalue
    cases hown : v.value with
    | none =>
      rw [hown] at hvalue
      exact hdeclared.value key value hvalue
    | some own =>
      simp only [hown, seed, Map.getElem?_insert] at hvalue
      split at hvalue
      · rename_i heq
        exact .inl ⟨v, heq ▸ hv, hown.trans hvalue⟩
      · exact hdeclared.value key value hvalue
  · rw [hcatalog, Map.getElem?_modify, ← hdeclared.type w hw]
    split
    · rw [Option.map_map]
      rfl
    · rfl

theorem Origin.declareDerived {g : FlatGraph} {node : WorkflowGraphNode}
    {declared : WorkflowVariablePool} (hok : pool.declareDerived g node = .ok declared) :
    Origin globals inputs declared := by
  rw [WorkflowVariablePool.declareDerived] at hok
  split at hok
  · unfold declareOneIteration at hok
    dsimp only at hok
    repeat' split at hok
    all_goals cases hok
    exact ((((h.declare _ _ _).declare _ _ _).declare _ _ _).declare _ _ _).declare _ _ _
  · obtain ⟨_, -, hok⟩ := bind_eq_ok.mp hok
    cases hok
    exact h.declare _ _ _
  · cases hok
    exact h

theorem Origin.declareDerivedVariables {g : FlatGraph} {nodes : List WorkflowGraphNode} :
    Origin globals inputs (declareDerivedVariables g nodes pool).1 := by
  induction nodes generalizing pool with
  | nil => exact h
  | cons node nodes ih =>
    rw [WorkflowVariablePool.declareDerivedVariables]
    split
    · exact ih (h.declareDerived ‹_›)
    · exact h

theorem Origin.declareNode {g : WorkflowGraph} {node : WorkflowGraphNode}
    (hstart : node.nodeType = .start →
      ∀ v ∈ node.inputVariables, (node.id ++ "." ++ v.name, v) ∈ inputs) :
    Origin globals inputs (pool.declareNode g node) := by
  have hbase : Origin globals inputs (pool.declareBaseNodeVariables node) := by
    rw [declareBaseNodeVariables]
    split
    · exact List.foldlRecOn _ _ (h.declare _ _ _) fun _ hp v hv =>
        hp.declareStartVariable (hstart ‹_› v hv)
    · exact h
    · exact h
    · exact h
    · split
      · exact (h.declare _ _ _).declare _ _ _
      · exact h.declare _ _ _
    · exact h.declare _ _ _
  rw [WorkflowVariablePool.declareNode]
  split
  · exact List.foldlRecOn _ _ hbase fun _ hp _ _ => hp.declare _ _ _
  · exact hbase

end

variable {g : WorkflowGraph}

theorem origin_fromGraph (hg : g.WellFormed) (hnodup : (g.globalVariables.map (·.name)).Nodup) :
    Origin g.globalVariables g.startVariables (fromGraph g) := by
  refine Origin.declareDerivedVariables (List.foldlRecOn _ _ (origin_globals hnodup)
    fun _ hp node hnode => hp.declareNode fun hstart v hv => ?_)
  have hfound : g.startNode = some node :=
    find?_eq_some_of_unique hnode (by simp [hstart]) fun other hother h' =>
      hg.root.start_unique other hother node hnode (by simpa using h') hstart
  rw [FlatGraph.startVariables, hfound]
  exact mem_map_of_mem hv

/-! ### What the parser has checked -/

/-- Every declaration's own value fits it, and no two declarations of a kind share a name. -/
structure Initial (g : FlatGraph) : Prop where
  nodup : (g.startVariables.map (·.1)).Nodup
  own : ∀ input ∈ g.startVariables, ∀ value, input.2.value = some value →
    input.2.admits value = true
  nodup_globals : (g.globalVariables.map (·.name)).Nodup
  global : ∀ w ∈ g.globalVariables, ∀ value, w.value = some value →
    w.valueType.accepts value = true

theorem accepts_of_normalizeInitial {raw : Option Value} {valueType : ValueType} {value : Value}
    (h : normalizeInitial raw valueType = some (some value)) : valueType.accepts value = true := by
  cases raw with
  | none => cases h
  | some raw =>
    obtain ⟨_, hnormal, ⟨⟩⟩ := Option.map_eq_some_iff.mp h
    exact (normalize_stable hnormal).1

theorem startValue_eq_ok {name : String} {fieldType : StartInputFieldType} {valueType : ValueType}
    {options : List String} {maxLength : Option Nat} {raw : Option Value} {value : Value}
    (h : startValue name fieldType valueType options maxLength raw = .ok (some value)) :
    valueType.accepts value = true ∧ withinLength maxLength value = true ∧
      (fieldType = .select → ∀ text, value.asStr = some text → text ∈ options) := by
  unfold startValue at h
  split at h
  · cases h
  rename_i hnormal
  dsimp only at h
  split at h
  · cases h
  rename_i hlength
  split at h
  · cases h
  rename_i hselect
  cases h
  refine ⟨accepts_of_normalizeInitial hnormal, ?_, fun hfield text htext => ?_⟩
  · rw [withinLength]
    cases htext : value.asStr with
    | none => rfl
    | some text => cases maxLength <;> simp_all [Option.filter_eq_none_iff]
  · simpa [hfield, htext] using hselect

theorem options_of_startOptions {name : String} {fieldType : StartInputFieldType}
    {raw options : List String} (h : startOptions name fieldType raw = .ok options)
    (hfield : fieldType ≠ .select) : options = [] := by
  unfold startOptions at h
  dsimp only at h
  split at h
  · cases h
  split at h
  · cases h
  · cases h
    rename_i hplain
    simpa [hfield] using hplain

theorem startVariable_eq_ok {name : String} {wire : Wire.StartInputVariable}
    {v : StartInputVariable} (h : startVariable name wire = .ok v) :
    v.name = name ∧ ∀ value, v.value = some value → v.admits value = true := by
  rw [startVariable] at h
  split at h
  · cases h
  split at h
  · cases h
  rename_i fieldType _
  obtain ⟨-, h⟩ := if_throw_eq_ok.mp h
  obtain ⟨options, hoptions, h⟩ := bind_eq_ok.mp h
  obtain ⟨maxLength, -, h⟩ := bind_eq_ok.mp h
  obtain ⟨own, hown, h⟩ := bind_eq_ok.mp h
  cases h
  refine ⟨rfl, fun value hvalue => ?_⟩
  simp only at hvalue
  subst hvalue
  obtain ⟨htype, hlength, hselect⟩ := startValue_eq_ok hown
  rw [StartInputVariable.admits, StartInputVariable.offers, htype, hlength]
  by_cases hfield : fieldType = .select
  · cases htext : value.asStr with
    | none => rfl
    | some text => simp [hselect hfield text htext]
  · simp [options_of_startOptions hoptions hfield]

theorem intoStartInputVariables_eq_ok {names : List String} {wires : List Wire.StartInputVariable}
    {vs : List StartInputVariable} (h : intoStartInputVariables names wires = .ok vs) :
    ((vs.map (·.name)).Nodup ∧ ∀ v ∈ vs, v.name ∉ names) ∧
      ∀ v ∈ vs, ∀ value, v.value = some value → v.admits value = true := by
  induction wires generalizing names vs with
  | nil =>
    cases h
    exact ⟨⟨nodup_nil, by simp⟩, by simp⟩
  | cons wire wires ih =>
    rw [intoStartInputVariables] at h
    obtain ⟨-, h⟩ := if_throw_eq_ok.mp h
    obtain ⟨hfresh, h⟩ := if_throw_eq_ok.mp h
    obtain ⟨v, hv, h⟩ := bind_eq_ok.mp h
    obtain ⟨rest, hrest, h⟩ := bind_eq_ok.mp h
    cases h
    obtain ⟨hname, hown⟩ := startVariable_eq_ok hv
    obtain ⟨⟨hnodup, hnew⟩, hvalues⟩ := ih hrest
    rw [← hname] at hfresh hnew
    exact ⟨nodup_cons_of_fresh (by simpa using hfresh) hnodup hnew,
      forall_mem_cons.mpr ⟨hown, hvalues⟩⟩

theorem declaredGlobals_eq_ok {names : List String} {wires : List Wire.Global}
    {ws : List WorkflowGlobalVariable} (h : declaredGlobals names wires = .ok ws) :
    ((ws.map (·.name)).Nodup ∧ ∀ w ∈ ws, w.name ∉ names) ∧
      ∀ w ∈ ws, ∀ value, w.value = some value → w.valueType.accepts value = true := by
  induction wires generalizing names ws with
  | nil =>
    cases h
    exact ⟨⟨nodup_nil, by simp⟩, by simp⟩
  | cons wire wires ih =>
    rw [declaredGlobals] at h
    obtain ⟨-, h⟩ := if_throw_eq_ok.mp h
    obtain ⟨hfresh, h⟩ := if_throw_eq_ok.mp h
    dsimp only at h
    split at h
    · cases h
    obtain ⟨-, h⟩ := if_throw_eq_ok.mp h
    split at h
    · cases h
    rename_i hnormal
    obtain ⟨rest, hrest, h⟩ := bind_eq_ok.mp h
    cases h
    obtain ⟨hnodup, hvalues⟩ := ih hrest
    refine ⟨nodup_cons_of_fresh (by simpa using hfresh) hnodup.1 hnodup.2,
      forall_mem_cons.mpr ⟨fun value hvalue => ?_, hvalues⟩⟩
    simp only at hvalue
    exact accepts_of_normalizeInitial (hvalue ▸ hnormal)

theorem initial_of_declared {g : FlatGraph} (h : Declared g) : Initial g := by
  obtain ⟨wires, hglobals⟩ := h.globals
  obtain ⟨declared, hdeclared, hglobals⟩ := map_eq_ok.mp hglobals
  obtain ⟨⟨hnodup, -⟩, hvalues⟩ := declaredGlobals_eq_ok hdeclared
  have hstart : ((g.startVariables.map (·.1)).Nodup) ∧ ∀ input ∈ g.startVariables, ∀ value,
      input.2.value = some value → input.2.admits value = true := by
    rw [FlatGraph.startVariables]
    cases hfound : g.startNode with
    | none => exact ⟨nodup_nil, by simp⟩
    | some start =>
      obtain ⟨_, hok⟩ := h.start start (mem_of_find?_eq_some hfound)
        (by simpa using List.find?_some hfound)
      obtain ⟨⟨hnames, -⟩, hown⟩ := intoStartInputVariables_eq_ok hok
      refine ⟨?_, forall_mem_map.mpr hown⟩
      have hkeys := hnames.map (f := fun name => start.id ++ "." ++ name) fun a b hab => by
        simpa using hab
      rw [map_map] at hkeys
      rwa [Option.elim_some, map_map]
  refine ⟨hstart.1, hstart.2, ?_, ?_⟩
  · rw [← hglobals, map_append, nodup_append]
    refine ⟨(filter_sublist.map _).nodup hnodup, by decide, ?_⟩
    intro name hname other hother heq
    obtain ⟨w, hw, rfl⟩ := mem_map.mp hname
    obtain ⟨w', hw', rfl⟩ := mem_map.mp hother
    have hruntime := (mem_filter.mp hw).2
    rw [Bool.not_eq_true', any_eq_false] at hruntime
    exact hruntime w' hw' (by simp [heq])
  · rw [← hglobals, forall_mem_append]
    exact ⟨fun w hw => hvalues w (mem_filter.mp hw).1, by simp [runtimeGlobals]⟩

theorem initial_of_parse [JsonText] [Toposort] {document : Value}
    (h : WorkflowGraph.parse document = .ok g) : Initial g.toFlatGraph :=
  initial_of_declared (parse_eq_ok h).2

end OraDesktop.Workflow
