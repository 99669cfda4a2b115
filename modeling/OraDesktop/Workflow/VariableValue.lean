import OraDesktop.Workflow.VariablePool

/-!
# Values in normal form

The source names types by strings and reads the item type of `array[...]` off the name. The names
of `ValueType` are read back as the types they are of (`matchesTypeName_toWire`), and a value that
was normalised at a type is left alone from then on: by its own type, by the array an Iteration
collects it into, and by the item an Iteration takes out of it.
-/

namespace OraDesktop.Workflow

open Fallible PortableRelativePath ValueType

/-! ### Types by name -/

def isNumber : Value → Bool
  | .num _ => true
  | _ => false

def isBoolean : Value → Bool
  | .bool _ => true
  | _ => false

/-- `workflow_value_matches_type`. -/
def matchesTypeName (typed : List Char) (value : Value) : Bool :=
  if typed = "string".toList ∨ typed = "secret".toList then value.asStr.isSome
  else if typed = "file".toList then isFileReference value
  else if typed = "integer".toList then value.isInteger
  else if typed = "number".toList then isNumber value
  else if typed = "boolean".toList then isBoolean value
  else if typed = "object".toList then value.asObject.isSome
  else if typed = "any".toList then true
  else if typed = "array".toList ∨ typed = "array[any]".toList then value.asArray.isSome
  else if _h : "array[".toList <+: typed ∧ "]".toList <:+ typed then
    value.asArray.any fun items =>
      items.all (matchesTypeName ((typed.drop 6).take (typed.length - 7)))
  else false
termination_by typed.length
decreasing_by
  have : 6 ≤ typed.length := by simpa using _h.1.length_le
  simp only [List.length_take, List.length_drop]
  omega

/-- `normalize_workflow_value`. -/
def normalizeAtTypeName (value : Value) (typed : List Char) : Option Value :=
  if typed = "file".toList then normalizeFileReference value
  else if typed = "array[file]".toList then
    value.asArray.bind fun items => (items.mapM normalizeFileReference).map Value.arr
  else if matchesTypeName typed value then some value
  else none

theorem toWire_arrayOf (item : ValueType) :
    (ValueType.arrayOf item).toWire.toList =
      ['a', 'r', 'r', 'a', 'y', '['] ++ item.toWire.toList ++ [']'] := by
  simp [toWire]

theorem matchesTypeName_any (value : Value) : matchesTypeName "any".toList value = true := by
  rw [matchesTypeName]
  simp

theorem matchesTypeName_arrayOf (w : List Char) (value : Value) :
    matchesTypeName (['a', 'r', 'r', 'a', 'y', '['] ++ w ++ [']']) value =
      value.asArray.any fun items => items.all (matchesTypeName w) := by
  rw [matchesTypeName]
  by_cases hw : w = "any".toList
  · subst hw
    have hall : matchesTypeName "any".toList = fun _ => true := funext matchesTypeName_any
    rw [hall]
    cases value.asArray <;> simp
  · have hne : ¬w ++ [']'] = ['a', 'n', 'y', ']'] := fun h =>
      hw (List.append_cancel_right (show w ++ [']'] = "any".toList ++ [']'] from h))
    have hsuffix : [']'] <:+ ['a', 'r', 'r', 'a', 'y', '['] ++ w ++ [']'] :=
      List.suffix_append _ _
    simp only [List.cons_append, List.nil_append] at hsuffix
    simp [hne, hsuffix]

theorem matchesTypeName_toWire (valueType : ValueType) (value : Value) :
    matchesTypeName valueType.toWire.toList value = valueType.accepts value := by
  induction valueType generalizing value with
  | arrayOf item ih => rw [toWire_arrayOf, matchesTypeName_arrayOf, funext ih, accepts]
  | any => exact matchesTypeName_any value
  | _ =>
    rw [matchesTypeName]
    cases value <;> simp [toWire, accepts, isNumber, isBoolean]

variable {valueType : ValueType}

theorem eq_file_of_toWire (h : valueType.toWire.toList = "file".toList) : valueType = .file := by
  cases valueType with
  | arrayOf item => simp [toWire_arrayOf] at h
  | file => rfl
  | _ => exact absurd h (by decide)

theorem normalizeAtTypeName_toWire (value : Value) (valueType : ValueType) :
    normalizeAtTypeName value valueType.toWire.toList = normalizeWorkflowValue value valueType := by
  rw [normalizeAtTypeName, matchesTypeName_toWire]
  by_cases hfile : valueType = .file
  · subst hfile
    rfl
  rw [if_neg (mt eq_file_of_toWire hfile)]
  by_cases hfiles : valueType = .arrayOf .file
  · subst hfiles
    rfl
  have hne : ¬valueType.toWire.toList = "array[file]".toList := by
    intro h
    cases valueType with
    | arrayOf item =>
      rw [toWire_arrayOf] at h
      have hitem := eq_file_of_toWire (List.append_cancel_right (List.append_cancel_left
        (show ['a', 'r', 'r', 'a', 'y', '['] ++ (item.toWire.toList ++ [']']) =
          ['a', 'r', 'r', 'a', 'y', '['] ++ ("file".toList ++ [']']) by simpa using h)))
      exact hfiles (by rw [hitem])
    | _ => exact absurd h (by decide)
  rw [if_neg hne, normalizeWorkflowValue]
  · exact fun h => hfile h
  · exact fun h => hfiles h

/-! ### Files -/

/-- The reference to a file, with the path as `parse` leaves it. -/
def fileReference (path : PortableRelativePath) : Value :=
  .obj [("kind", .str "workspace_file"), ("path", .str path.normalized)]

theorem normalizeFileReference_eq_some {value normal : Value}
    (h : normalizeFileReference value = some normal) :
    ∃ path, PortableRelativePath.parse path.normalized = .ok path ∧ path.isRoot = false ∧
      normal = fileReference path := by
  have hraw : ∃ raw, ((parse raw).toOption.bind fun path =>
      if path.isRoot then none else some (fileReference path)) = some normal := by
    cases value with
    | str path => exact ⟨path, h⟩
    | obj fields =>
      rw [normalizeFileReference] at h
      split at h
      · obtain ⟨raw, -, h⟩ := Option.bind_eq_some_iff.mp h
        exact ⟨raw, h⟩
      · cases h
    | _ => cases h
  obtain ⟨raw, h⟩ := hraw
  obtain ⟨path, hparse, h⟩ := Option.bind_eq_some_iff.mp h
  split at h
  · cases h
  rename_i hroot
  cases h
  cases hraw : parse raw with
  | error e =>
    rw [hraw] at hparse
    cases hparse
  | ok parsed =>
    rw [hraw] at hparse
    cases hparse
    exact ⟨path, parse_normalized hraw, by simpa using hroot, rfl⟩

theorem normalizeFileReference_fileReference {path : PortableRelativePath}
    (hparse : PortableRelativePath.parse path.normalized = .ok path) (hroot : path.isRoot = false) :
    normalizeFileReference (fileReference path) = some (fileReference path) ∧
      isFileReference (fileReference path) = true := by
  have hkind : ((fileReference path).get "kind").bind Value.asStr = some "workspace_file" := rfl
  have hpath : ((fileReference path).get "path").bind Value.asStr = some path.normalized := rfl
  constructor
  · have : normalizeFileReference (fileReference path) = (parse
        path.normalized).toOption.bind fun path =>
          if path.isRoot then none else some (fileReference path) := rfl
    rw [this, hparse]
    simp [Except.toOption, hroot]
  · rw [fileReference] at hkind hpath ⊢
    simp [isFileReference, hkind, hpath, hparse, hroot]

theorem normalizeFileReference_stable {value normal : Value}
    (h : normalizeFileReference value = some normal) :
    isFileReference normal = true ∧ normalizeFileReference normal = some normal := by
  obtain ⟨path, hparse, hroot, rfl⟩ := normalizeFileReference_eq_some h
  exact (normalizeFileReference_fileReference hparse hroot).symm

/-! ### Normal forms -/

theorem normalize_of_ne_file (hfile : valueType ≠ .file) (hfiles : valueType ≠ .arrayOf .file)
    (value : Value) :
    normalizeWorkflowValue value valueType = if valueType.accepts value then some value else none := by
  rw [normalizeWorkflowValue]
  · exact hfile
  · exact hfiles

/-- What normalisation returns is of the type and left alone by it. -/
theorem normalize_stable {value normal : Value}
    (h : normalizeWorkflowValue value valueType = some normal) :
    valueType.accepts normal = true ∧ normalizeWorkflowValue normal valueType = some normal := by
  by_cases hfile : valueType = .file
  · subst hfile
    exact normalizeFileReference_stable h
  by_cases hfiles : valueType = .arrayOf .file
  · subst hfiles
    obtain ⟨items, -, h⟩ := Option.bind_eq_some_iff.mp h
    obtain ⟨normals, hmap, rfl⟩ := Option.map_eq_some_iff.mp h
    have hitems : ∀ item ∈ normals,
        isFileReference item = true ∧ normalizeFileReference item = some item := by
      intro item hitem
      obtain ⟨raw, -, hraw⟩ := exists_left (mapM_eq_some.mp hmap) hitem
      exact normalizeFileReference_stable hraw
    have hsame : normals.mapM normalizeFileReference = some normals :=
      mapM_eq_some.mpr (List.forall₂_same.mpr fun item hitem => (hitems item hitem).2)
    constructor
    · simpa [accepts, Value.asArray] using fun item hitem => (hitems item hitem).1
    · simp [normalizeWorkflowValue, Value.asArray, hsame]
  · rw [normalize_of_ne_file hfile hfiles] at h
    split at h
    · rename_i haccepts
      cases h
      exact ⟨haccepts, by rw [normalize_of_ne_file hfile hfiles, if_pos haccepts]⟩
    · cases h

variable {items : List Value}

/-- Normal forms collected into an array are a normal form of the array type. -/
theorem normalize_arr (h : ∀ item ∈ items, normalizeWorkflowValue item valueType = some item) :
    normalizeWorkflowValue (.arr items) (.arrayOf valueType) = some (.arr items) := by
  by_cases hfile : valueType = .file
  · subst hfile
    have hsame : items.mapM normalizeFileReference = some items :=
      mapM_eq_some.mpr (List.forall₂_same.mpr h)
    simp [normalizeWorkflowValue, Value.asArray, hsame]
  · rw [normalize_of_ne_file (by simp) (by simpa using hfile), if_pos]
    simpa [accepts, Value.asArray] using fun item hitem =>
      (normalize_stable (h item hitem)).1

theorem accepts_item (h : valueType.accepts (.arr items) = true) {item : Value}
    (hitem : item ∈ items) :
    (WorkflowVariablePool.iterationItemType valueType).accepts item = true := by
  cases valueType with
  | arrayOf inner =>
    have haccepts : inner.accepts item = true := List.all_eq_true.mp h item hitem
    cases inner with
    | string | number | object | boolean | file => exact haccepts
    | _ => rfl
  | _ => rfl

/-- The items of a normal form are normal forms of the type an Iteration takes them out at. -/
theorem normalize_item {value : Value}
    (h : normalizeWorkflowValue value valueType = some (.arr items)) {item : Value}
    (hitem : item ∈ items) :
    normalizeWorkflowValue item (WorkflowVariablePool.iterationItemType valueType) = some item := by
  have hany : normalizeWorkflowValue item .any = some item := rfl
  cases valueType with
  | arrayOf inner =>
    by_cases hfile : inner = .file
    · subst hfile
      obtain ⟨raws, -, h⟩ := Option.bind_eq_some_iff.mp h
      obtain ⟨normals, hmap, hnormals⟩ := Option.map_eq_some_iff.mp h
      cases hnormals
      obtain ⟨raw, -, hraw⟩ := exists_left (mapM_eq_some.mp hmap) hitem
      exact (normalizeFileReference_stable hraw).2
    · have haccepts : inner.accepts item = true :=
        List.all_eq_true.mp ((normalize_stable h).1) item hitem
      have hinner : inner ≠ .arrayOf .file → normalizeWorkflowValue item inner = some item :=
        fun hfiles => by rw [normalize_of_ne_file hfile hfiles, if_pos haccepts]
      cases inner with
      | file => exact absurd rfl hfile
      | string | number | object | boolean => exact hinner (by simp)
      | _ => exact hany
  | _ => exact hany

/-- Normalisation is stable, and collecting and taking apart the values of an Iteration does not
leave the normal forms. -/
theorem normalisation_stable_under_iteration (valueType : ValueType) :
    (∀ value normal, normalizeAtTypeName value valueType.toWire.toList = some normal →
      matchesTypeName valueType.toWire.toList normal = true ∧
        normalizeAtTypeName normal valueType.toWire.toList = some normal) ∧ (∀ normals : List Value,
      (∀ normal ∈ normals, ∃ value,
        normalizeAtTypeName value valueType.toWire.toList = some normal) →
      normalizeAtTypeName (.arr normals) (ValueType.arrayOf valueType).toWire.toList =
        some (.arr normals)) ∧
    (∀ value items, normalizeAtTypeName value valueType.toWire.toList = some (.arr items) →
      ∀ item ∈ items, normalizeAtTypeName item
        (WorkflowVariablePool.iterationItemType valueType).toWire.toList = some item) ∧
    ∀ items, matchesTypeName valueType.toWire.toList (.arr items) = true →
      ∀ item ∈ items, matchesTypeName
        (WorkflowVariablePool.iterationItemType valueType).toWire.toList item = true := by
  simp only [normalizeAtTypeName_toWire, matchesTypeName_toWire]
  refine ⟨fun value normal h => normalize_stable h, fun normals h => normalize_arr ?_,
    fun value items h item hitem => normalize_item h hitem,
    fun items h item hitem => accepts_item h hitem⟩
  intro normal hnormal
  obtain ⟨value, hvalue⟩ := h normal hnormal
  exact (normalize_stable hvalue).2

end OraDesktop.Workflow
