import OraDesktop.Workflow.InitialPool
import OraDesktop.Workflow.Rehearsal

/-!
# Switching a run to a newer snapshot

`plan_snapshot_switch` checks that a newer graph can take over a run and moves the values of the
finished nodes into a fresh pool. It compares the types of the declarations, not the lengths and
options they admit, and it inserts the values past the checks of `set`. Only Start variables have
lengths and options, so what can go wrong is a value moved to the key of one.

## Main results

* `switch_sound_iff` — the migrated pool respects the new graph exactly if the values moved to Start
  variables are within their lengths and options
-/

namespace OraDesktop.Workflow

open WorkflowVariablePool (fromGraph)

def sameMembers {α : Type} [DecidableEq α] (l m : List α) : Bool :=
  l.all (· ∈ m) && m.all (· ∈ l)

def startVariableSet (start : WorkflowGraphNode) : List (String × ValueType × Bool) :=
  start.inputVariables.map fun v => (v.name, v.valueType, v.required)

/-- A value is moved if its writer has succeeded or is not a node that has to run; the rest is
computed again. -/
def shouldCarry (pool : WorkflowVariablePool) (succeededWriters : List String)
    (startId : Option String) (selector : String) : Bool :=
  Text.startsWith selector "sys." || (pool.catalog[selector]?).any fun definition =>
    definition.writer == "sys" || definition.writer == "global" ||
      startId == some definition.writer || succeededWriters.contains definition.writer

section Plan

variable (old new : WorkflowGraph) (rows : List NodeRun) (pool : WorkflowVariablePool)

/-- A live row needs its node in the new graph. -/
def checkRow (row : NodeRun) : Option String :=
  match new.node row.nodeId with
  | none => some ("node_missing:" ++ row.nodeId)
  | some node =>
    if node.nodeType ≠ row.nodeType then some ("node_type_changed:" ++ row.nodeId) else none

/-- The Start keeps its id and the names, types and requirements of its variables. -/
def checkStart : Option String :=
  match old.startNode, new.startNode with
  | some oldStart, some newStart =>
    if oldStart.id ≠ newStart.id then some "start_node_changed"
    else if sameMembers (startVariableSet oldStart) (startVariableSet newStart) then none
    else some "start_variables_changed"
  | _, _ => some "start_node_changed"

/-- The values that are moved, in the order of their selectors. -/
def carriedValues : List (String × Value) :=
  pool.values.toList.filter fun entry => shouldCarry pool
    ((rows.filter (·.status == .succeeded)).map (·.nodeId)) (old.startNode.map (·.id)) entry.1

/-- A moved value needs a declaration of its old type. -/
def checkCarried (entry : String × Value) : Option String :=
  match (fromGraph new).catalog[entry.1]? with
  | none => some ("variable_missing:" ++ entry.1)
  | some definition =>
    if (pool.catalog[entry.1]?).any (·.valueType != definition.valueType) then
      some ("variable_type_changed:" ++ entry.1)
    else none

/-- An Iteration that succeeded and does not restart keeps its configuration and members. -/
def checkIteration (node : WorkflowGraphNode) : Option String :=
  (old.region node.id).bind fun region =>
    let restarts := rows.any fun row => (row.status == .failed || row.status == .cancelled) &&
      old.resumeUnitOwnerId row.nodeId == some node.id
    let succeeded := rows.any fun row =>
      row.nodeId == node.id && row.iteration.isNone && row.status == .succeeded
    let same := node.iterationConfig == (new.node node.id).bind (·.iterationConfig) &&
      sameMembers region.memberIds ((new.region node.id).elim [] (·.memberIds))
    if !restarts && succeeded && !same then
      some ("iteration node " ++ node.id ++ " changed after it completed")
    else none

/-- `plan_snapshot_switch`: the migrated pool. No check depends on the values moved so far, so they
are moved together once all checks have passed. -/
def planSnapshotSwitch : Except String WorkflowVariablePool :=
  let fresh := fromGraph new
  let carried := carriedValues old rows pool
  match (rows.findSome? (checkRow new)).or ((checkStart old new).or
      ((carried.findSome? (checkCarried new pool)).or
        (old.nodes.findSome? (checkIteration old new rows)))) with
  | some reason => .error reason
  | none => .ok { fresh with
      values := Map.insertEntries some carried fresh.values
      revision := saturatingSucc pool.revision }

/-! ### Values and what they are declared as -/

/-- The value has the declared type and length. -/
def WorkflowVariableDefinition.admits (definition : WorkflowVariableDefinition) (value : Value) :
    Bool :=
  definition.valueType.accepts value && withinLength definition.maxLength value

/-- Every value is declared and as its declaration says. -/
def WorkflowVariablePool.wellFormed : Bool :=
  pool.values.toList.all fun entry => (pool.catalog[entry.1]?).any (·.admits entry.2)

/-- What a switch should guarantee: the new declarations, values that suit them, a node for every
row, and nothing lost of what is moved. -/
structure SwitchSound (migrated : WorkflowVariablePool) : Prop where
  catalog_eq : migrated.catalog = (fromGraph new).catalog
  wellFormed : migrated.wellFormed = true
  carried : ∀ entry ∈ carriedValues old rows pool, migrated.values[entry.1]? = some entry.2
  nodes : ∀ row ∈ rows, ∃ node, new.node row.nodeId = some node ∧ node.nodeType = row.nodeType
  start : ∀ input ∈ new.startVariables, ∀ value, migrated.values[input.1]? = some value →
    input.2.admits value = true

/-- The value is moved, or the new graph declares it and none is moved over it. -/
def Arrives (selector : String) (value : Value) : Prop :=
  (selector, value) ∈ carriedValues old rows pool ∨
    (∀ other, (selector, other) ∉ carriedValues old rows pool) ∧
      (fromGraph new).values[selector]? = some value

/-- Another declaration has the Start variable's key as well. The first one gives the key its type
and a global may leave its value there; the parser does not compare the two. -/
abbrev Shared (input : String × StartInputVariable) : Prop :=
  ((fromGraph new).catalog[input.1]?).map (·.valueType) ≠ some input.2.valueType ∨
    ∃ w ∈ new.globalVariables, w.name = input.1

/-- What the checks leave open: the lengths and options of the values moved to Start variables, and
whether a value under a shared key suits both of its declarations. -/
structure Carryable : Prop where
  carried : ∀ entry ∈ carriedValues old rows pool, ∀ input ∈ new.startVariables,
    input.1 = entry.1 →
      withinLength input.2.maxLength entry.2 = true ∧ input.2.offers entry.2 = true
  shared : ∀ input ∈ new.startVariables, Shared new input → ∀ value,
    Arrives old new rows pool input.1 value → input.2.admits value = true ∧
      ((fromGraph new).catalog[input.1]?).any (·.valueType.accepts value) = true

end Plan

variable {old new : WorkflowGraph} {rows : List NodeRun} {pool migrated : WorkflowVariablePool}

theorem wellFormed_iff : pool.wellFormed = true ↔ ∀ (selector : String) (value : Value),
    pool.values[selector]? = some value →
      (pool.catalog[selector]?).any (·.admits value) = true := by
  rw [WorkflowVariablePool.wellFormed, List.all_eq_true]
  refine ⟨fun h selector value hvalue => ?_, fun h entry hentry => ?_⟩
  · exact h (selector, value) (Std.ExtTreeMap.mem_toList_iff_getElem?_eq_some.mpr hvalue)
  · exact h _ _ (Std.ExtTreeMap.mem_toList_iff_getElem?_eq_some.mp hentry)

theorem planSnapshotSwitch_eq_ok (h : planSnapshotSwitch old new rows pool = .ok migrated) :
    (∀ row ∈ rows, checkRow new row = none) ∧
      (∀ entry ∈ carriedValues old rows pool, checkCarried new pool entry = none) ∧
      migrated.catalog = (fromGraph new).catalog ∧
      ∀ selector value, migrated.values[selector]? = some value ↔
        Arrives old new rows pool selector value := by
  unfold planSnapshotSwitch at h
  dsimp only at h
  split at h
  · cases h
  rename_i hchecks
  simp only [Option.or_eq_none_iff, List.findSome?_eq_none_iff] at hchecks
  obtain ⟨hrows, -, hcarried, -⟩ := hchecks
  cases h
  refine ⟨hrows, hcarried, rfl, fun selector value => ?_⟩
  have hdistinct : (carriedValues old rows pool).Pairwise fun x y => ∀ p q, some x = some p →
      some y = some q → p.1 ≠ q.1 := by
    refine (Std.ExtTreeMap.distinct_keys_toList.filter _).imp fun hne p q hp hq heq => hne ?_
    cases hp
    cases hq
    rw [heq]
    exact Std.ReflOrd.compare_self
  have hmoved := fun {value : Value} (hmem : (selector, value) ∈ carriedValues old rows pool) =>
    Map.getElem?_insertEntries_of_mem (fromGraph new).values hdistinct
      ⟨_, hmem, rfl⟩
  by_cases hcarry : ∃ other, (selector, other) ∈ carriedValues old rows pool
  · obtain ⟨other, hother⟩ := hcarry
    rw [hmoved hother]
    refine ⟨fun h => .inl (Option.some.inj h ▸ hother), ?_⟩
    rintro (hmem | hnot)
    · exact (hmoved hother).symm.trans (hmoved hmem)
    · exact absurd hother (hnot.1 other)
  · have hnot := not_exists.mp hcarry
    rw [Map.getElem?_insertEntries_of_forall_ne]
    · exact ⟨fun h => .inr ⟨hnot, h⟩, fun h => h.elim (fun h => absurd h (hnot _)) (·.2)⟩
    · rintro ⟨key, other⟩ hmem _ ⟨⟩ rfl
      exact hnot _ hmem

/-- The check of types is enough for the types of the moved values. -/
theorem accepts_of_carried (hpool : pool.wellFormed = true) {entry : String × Value}
    (hmoved : entry ∈ carriedValues old rows pool) (hchecked : checkCarried new pool entry = none) :
    ((fromGraph new).catalog[entry.1]?).any (·.valueType.accepts entry.2) = true := by
  have hold := wellFormed_iff.mp hpool _ _
    (Std.ExtTreeMap.mem_toList_iff_getElem?_eq_some.mp (List.mem_filter.mp hmoved).1)
  obtain ⟨before, hbefore, hadmits⟩ := (Option.any_eq_true ..).mp hold
  unfold checkCarried at hchecked
  cases hnew : (fromGraph new).catalog[entry.1]? with
  | none => simp [hnew] at hchecked
  | some definition =>
    have htype : before.valueType = definition.valueType := by
      simpa [hnew, hbefore] using hchecked
    rw [Option.any_some, ← htype]
    exact (Bool.and_eq_true_iff.mp hadmits).1

section

variable (hinitial : Initial new.toFlatGraph)
  (horigin : Origin new.globalVariables new.startVariables (fromGraph new))
  (htyped : ∀ entry ∈ carriedValues old rows pool,
    ((fromGraph new).catalog[entry.1]?).any (·.valueType.accepts entry.2) = true)
  (hcarry : Carryable old new rows pool)

include hinitial horigin htyped hcarry

/-- What arrives under a Start variable's key is moved there or is the variable's own value. -/
theorem Carryable.start {input : String × StartInputVariable} (hinput : input ∈ new.startVariables)
    {value : Value} (hvalue : Arrives old new rows pool input.1 value) :
    input.2.admits value = true := by
  by_cases hshared : Shared new input
  · exact (hcarry.shared input hinput hshared value hvalue).1
  rw [Shared, not_or, not_not] at hshared
  obtain ⟨htype, hglobal⟩ := hshared
  rcases hvalue with hmoved | ⟨-, hfresh⟩
  · obtain ⟨hlength, hoptions⟩ := hcarry.carried _ hmoved input hinput rfl
    obtain ⟨definition, hdefinition, haccepts⟩ := (Option.any_eq_true ..).mp (htyped _ hmoved)
    rw [hdefinition, Option.map_some, Option.some.injEq] at htype
    rw [StartInputVariable.admits, ← htype, haccepts, hlength, hoptions]
    rfl
  · rcases horigin.value _ _ hfresh with ⟨v, hv, hown⟩ | ⟨w, hw, hname, -⟩
    · have heq : (input.1, v) = input := List.inj_on_of_nodup_map hinitial.nodup hv hinput rfl
      exact hinitial.own input hinput value (by rw [← heq]; exact hown)
    · exact absurd ⟨w, hw, hname⟩ hglobal

/-- A value that arrives has its key's type: it was checked, or the parser checked it for the
declaration that gave the key its type. -/
theorem Carryable.accepts {selector : String} {value : Value}
    (hvalue : Arrives old new rows pool selector value) :
    ((fromGraph new).catalog[selector]?).any (·.valueType.accepts value) = true := by
  have harrives := hvalue
  rcases hvalue with hmoved | ⟨-, hfresh⟩
  · exact htyped _ hmoved
  have htype : ∀ {valueType : ValueType}, valueType.accepts value = true →
      ((fromGraph new).catalog[selector]?).map (·.valueType) = some valueType →
      ((fromGraph new).catalog[selector]?).any (·.valueType.accepts value) = true := by
    intro valueType haccepts hmap
    obtain ⟨definition, hdefinition, rfl⟩ := Option.map_eq_some_iff.mp hmap
    rw [hdefinition]
    exact haccepts
  rcases horigin.value _ _ hfresh with ⟨v, hv, hown⟩ | ⟨w, hw, rfl, hown⟩
  · by_cases hshared : Shared new (selector, v)
    · exact (hcarry.shared _ hv hshared value harrives).2
    · have hadmits := hcarry.start hinitial horigin htyped hv harrives
      rw [StartInputVariable.admits, Bool.and_assoc, Bool.and_eq_true_iff] at hadmits
      exact htype hadmits.1 (not_not.mp (not_or.mp hshared).1)
  · exact htype (hinitial.global w hw value hown) (horigin.type w hw)

end

/-- A switch to a parsed graph is sound exactly if the values it moves to the Start variables are
within their lengths and options, and the values under shared keys suit both declarations. -/
theorem switch_sound_iff [JsonText] [Toposort] {document : Value}
    (hparse : WorkflowGraph.parse document = .ok new) (hpool : pool.wellFormed = true)
    (hplan : planSnapshotSwitch old new rows pool = .ok migrated) :
    SwitchSound old new rows pool migrated ↔ Carryable old new rows pool := by
  obtain ⟨hrows, hchecked, hcatalog, hvalues⟩ := planSnapshotSwitch_eq_ok hplan
  constructor
  · intro hsound
    refine ⟨fun entry hentry input hinput heq => ?_, fun input hinput _ value hvalue => ?_⟩
    · have hadmits := hsound.start input hinput entry.2 (by rw [heq]; exact hsound.carried _ hentry)
      rw [StartInputVariable.admits, Bool.and_assoc] at hadmits
      simpa using (Bool.and_eq_true_iff.mp hadmits).2
    · have hfound := (hvalues _ _).mpr hvalue
      have hwell := wellFormed_iff.mp hsound.wellFormed _ _ hfound
      rw [hcatalog] at hwell
      obtain ⟨definition, hdefinition, hadmits⟩ := (Option.any_eq_true ..).mp hwell
      rw [hdefinition]
      exact ⟨hsound.start input hinput value hfound, (Bool.and_eq_true_iff.mp hadmits).1⟩
  · intro hcarry
    have hinitial := initial_of_parse hparse
    have horigin := origin_fromGraph (parse_wellFormed hparse) hinitial.nodup_globals
    have htyped := fun entry hentry => accepts_of_carried hpool hentry (hchecked entry hentry)
    refine ⟨hcatalog, wellFormed_iff.mpr fun selector value hvalue => ?_,
      fun entry hentry => (hvalues _ _).mpr (.inl hentry), fun row hrow => ?_,
      fun input hinput value hvalue =>
        hcarry.start hinitial horigin htyped hinput ((hvalues _ _).mp hvalue)⟩
    · have harrives := (hvalues _ _).mp hvalue
      obtain ⟨definition, hdefinition, haccepts⟩ :=
        (Option.any_eq_true ..).mp (hcarry.accepts hinitial horigin htyped harrives)
      rw [hcatalog, hdefinition]
      refine Bool.and_eq_true_iff.mpr ⟨haccepts, ?_⟩
      rcases horigin.length _ _ hdefinition with hnone | ⟨v, hv, hlength⟩
      · rw [hnone, withinLength]
        cases value.asStr <;> rfl
      · have hadmits := hcarry.start hinitial horigin htyped hv harrives
        rw [StartInputVariable.admits, Bool.and_eq_true_iff, Bool.and_eq_true_iff] at hadmits
        exact hlength ▸ hadmits.1.2
    · have hrow := hrows row hrow
      unfold checkRow at hrow
      cases hnode : new.node row.nodeId with
      | none => simp [hnode] at hrow
      | some node => exact ⟨node, rfl, by simpa [hnode] using hrow⟩

/-! ### Another maximum length -/

/-- A Start with a text variable of at most some length. -/
def topicDocument (maxLength : Nat) : Value :=
  Document.ofParts [Document.node "start" "start" [("inputVariables", .arr [.obj
    [("name", .str "topic"), ("valueType", .str "string"), ("maxLength", Value.ofNat maxLength)]])]]
    []

/-- The pool of a run of that document with a topic. -/
def topicPool (g : WorkflowGraph) : WorkflowVariablePool :=
  (fromGraph g).seed "start.topic" (.str "four")

/-- A run of the document that admits four characters is switched to one with another bound. -/
def TopicSwitch (bound : Nat) (old new : WorkflowGraph) (migrated : WorkflowVariablePool) : Prop :=
  @WorkflowGraph.parse .blank .documentOrder (topicDocument 4) = .ok old ∧
    @WorkflowGraph.parse .blank .documentOrder (topicDocument bound) = .ok new ∧
    planSnapshotSwitch old new [] (topicPool old) = .ok migrated

theorem exists_topicSwitch (bound : Nat)
    {p : WorkflowGraph → WorkflowGraph → WorkflowVariablePool → Bool}
    (h : ((@WorkflowGraph.parse .blank .documentOrder (topicDocument 4)).toOption.any fun old =>
      (@WorkflowGraph.parse .blank .documentOrder (topicDocument bound)).toOption.any fun new =>
        (planSnapshotSwitch old new [] (topicPool old)).toOption.any (p old new)) = true) :
    ∃ old new migrated, TopicSwitch bound old new migrated ∧ p old new migrated = true := by
  simp only [Fallible.any_toOption] at h
  obtain ⟨old, hold, new, hnew, migrated, hplan, h⟩ := h
  exact ⟨old, new, migrated, ⟨hold, hnew, hplan⟩, h⟩

theorem switch_ignores_max_length : ∃ old new migrated, TopicSwitch 3 old new migrated ∧
    (topicPool old).wellFormed = true ∧ ¬SwitchSound old new [] (topicPool old) migrated := by
  obtain ⟨old, new, migrated, hswitch, h⟩ := exists_topicSwitch 3
    (p := fun old _ migrated => (topicPool old).wellFormed && !migrated.wellFormed)
    (by decide +kernel)
  rw [Bool.and_eq_true_iff, Bool.not_eq_true'] at h
  exact ⟨old, new, migrated, hswitch, h.1, fun hsound =>
    absurd (hsound.wellFormed.symm.trans h.2) (by decide)⟩

/-- A longer bound admits the topic, and the switch is sound. -/
theorem switch_sound_iff_topic : ∃ old new migrated, TopicSwitch 5 old new migrated ∧
    ("start.topic", .str "four") ∈ carriedValues old [] (topicPool old) ∧
    SwitchSound old new [] (topicPool old) migrated := by
  obtain ⟨old, new, migrated, hswitch, h⟩ := exists_topicSwitch 5
    (p := fun old new _ => (topicPool old).wellFormed &&
      decide (("start.topic", .str "four") ∈ carriedValues old [] (topicPool old) ∧
        (∀ entry ∈ carriedValues old [] (topicPool old), ∀ input ∈ new.startVariables,
          input.1 = entry.1 →
            withinLength input.2.maxLength entry.2 = true ∧ input.2.offers entry.2 = true) ∧
        ∀ input ∈ new.startVariables, ¬Shared new input)) (by decide +kernel)
  rw [Bool.and_eq_true_iff, decide_eq_true_iff] at h
  obtain ⟨hpool, hmoved, hcarried, hshared⟩ := h
  let := JsonText.blank
  let := Toposort.documentOrder
  exact ⟨old, new, migrated, hswitch, hmoved, (switch_sound_iff hswitch.2.1 hpool hswitch.2.2).mpr
    ⟨hcarried, fun input hinput h => absurd h (hshared input hinput)⟩⟩

end OraDesktop.Workflow
