import OraDesktop.Effect.Types
import OraDesktop.Lib.ExactEdit
import OraDesktop.Lib.Fallible

/-!
# Operations on a Skill directory

A planned mutation becomes an *operation*: an immutable intent with the exact state it may start
from and the exact state it leaves, and a progress that only moves forward. The adapter applies an
operation only when the directory is in one of these two states, and verifies the second one after it.

A directory is a map from names to package trees, each with the fingerprint of its content and the
marker found in it. Entries that are not directories, unreadable paths and other I/O failures are
not modelled; neither are the staging and backup trees, which live outside the names of the items.

## Main results

* `prepare_accepts_iff` — the mutations that become operations
* `Carries.applyOperation_eq` — applying one is an exact edit of the directory
* `Carries.verifyOperation_iff` — when it is verified
-/

namespace OraDesktop.Effect

/-! ### Operations -/

inductive OperationProgress where
  | prepared
  | applied
  | finalized
  | finalizedWithoutEffect
  | recoveryRequired

inductive OperationTransitionError where
  | invalidMutationStates
  | expectedPrepared
  | expectedApplied
  | cannotRequireRecovery
  | expectedRecoveryRequired

/-- Rejects mutation labels whose states encode a different operation. -/
def validateMutationStates (mutation : EffectMutation) (expected : ExactPreviousState)
    (planned : ExactPlannedState) : Except OperationTransitionError Unit :=
  let valid := match mutation, expected, planned with
    | .create, .missing, .present .. => true
    | .delete, .present .., .missing => true
    | .update, .present previousNative _ previousManaged, .present plannedNative _ plannedManaged
    | .replace, .present previousNative _ previousManaged, .present plannedNative _ plannedManaged =>
      previousNative == plannedNative && previousManaged == plannedManaged
    | _, _, _ => false
  if valid then .ok () else .error .invalidMutationStates

/-- Immutable mutation intent plus its monotonic progress. The source root is all that is kept of
the adapter's own payload. -/
structure EffectOperation where
  resource : EffectResourceId
  generation : Generation
  sequence : Nat
  mutation : EffectMutation
  expected : ExactPreviousState
  planned : ExactPlannedState
  sourceRoot : Option String
  progress : OperationProgress

namespace EffectOperation

/-- Creates the intent before any external side effect is permitted. -/
def prepare (resource : EffectResourceId) (generation : Generation) (sequence : Nat)
    (mutation : PlannedMutation) : Except OperationTransitionError EffectOperation := do
  validateMutationStates mutation.mutation mutation.expected mutation.planned
  return { resource, generation, sequence, mutation := mutation.mutation,
           expected := mutation.expected, planned := mutation.planned,
           sourceRoot := mutation.input.map (·.packageRoot), progress := .prepared }

variable (operation : EffectOperation)

def markApplied : Except OperationTransitionError EffectOperation :=
  match operation.progress with
  | .prepared => .ok { operation with progress := .applied }
  | _ => .error .expectedPrepared

end EffectOperation

/-! ### The directory -/

namespace SkillDirectory

def markerSchemaVersion : Nat := 1

/-- On-disk ownership claim. It names the Resource too, so that a package copied from one directory
to another claims nothing there. -/
structure ManagedItemMarker where
  schemaVersion : Nat
  resource : EffectResourceId
  managedIdentity : ManagedIdentity
  deriving DecidableEq

def ManagedItemMarker.current (resource : EffectResourceId) (managedIdentity : ManagedIdentity) :
    ManagedItemMarker :=
  { schemaVersion := markerSchemaVersion, resource, managedIdentity }

/-- A package tree: the fingerprint of its content and the marker read from it. -/
structure Entry where
  fingerprint : Fingerprint
  marker : Option ManagedItemMarker
  deriving DecidableEq

abbrev Directory := Map NativeResourceIdentity Entry

section

variable (resource : EffectResourceId)

/-- What an entry's marker claims in a Resource; one of another schema or of another Resource counts
as no marker. -/
def ownershipEvidence (entry : Entry) : OwnershipEvidence :=
  match entry.marker with
  | some marker =>
    if marker.schemaVersion = markerSchemaVersion ∧ marker.resource = resource then
      .claims marker.managedIdentity
    else .noOwnershipEvidence
  | none => .noOwnershipEvidence

def observedItem (native : NativeResourceIdentity) (entry : Entry) : ObservedItem :=
  { nativeIdentity := native, fingerprint := entry.fingerprint,
    ownershipEvidence := ownershipEvidence resource entry }

/-- Observes a directory. An item is entered under the name it is found under, whatever its marker
says. -/
def observeResource (directory : Directory) : ResourceObservation where
  resource := resource
  items := directory.map (observedItem resource)
  keyed n item h := by
    rw [Std.ExtTreeMap.getElem?_map] at h
    obtain ⟨entry, _, rfl⟩ := Option.map_eq_some_iff.mp h
    rfl

end

/-! ### The adapter -/

inductive SkillDirectoryError where
  | recoveryRequired
  | verificationFailed
  | expectedVerificationFailed
  | targetOccupied
  | missingMaterializationInput
  | missingExpectedItem
  | missingPlannedItem

/-- The entry that an exact present state describes, with the marker the adapter itself writes. -/
def installedEntry (resource : EffectResourceId) (fingerprint : Fingerprint)
    (managedIdentity : ManagedIdentity) : Entry :=
  { fingerprint, marker := some (.current resource managedIdentity) }

def expectedPath (operation : EffectOperation) :
    Except SkillDirectoryError NativeResourceIdentity :=
  match operation.expected with
  | .present native _ _ => .ok native
  | .missing => .error .missingExpectedItem

def plannedPath (operation : EffectOperation) : Except SkillDirectoryError NativeResourceIdentity :=
  match operation.planned with
  | .present native _ _ => .ok native
  | .missing => .error .missingPlannedItem

/-- Compares fingerprint and marker; a missing entry proves nothing. Only the adapter leaves both,
so a match is evidence that an operation was carried out. -/
def stateMatchesPath (directory : Directory) (resource : EffectResourceId)
    (native : NativeResourceIdentity) (fingerprint : Fingerprint)
    (managedIdentity : ManagedIdentity) : Bool :=
  match directory[native]? with
  | none => false
  | some entry => entry.fingerprint == fingerprint && entry.marker.any fun marker =>
      marker.schemaVersion == markerSchemaVersion && marker.resource == resource &&
        marker.managedIdentity == managedIdentity

def stateMatchesExpected (directory : Directory) (operation : EffectOperation) :
    Except SkillDirectoryError Bool :=
  match operation.expected with
  | .missing => (plannedPath operation).map fun path => directory[path]?.isNone
  | .present native fingerprint managedIdentity =>
    .ok (stateMatchesPath directory operation.resource native fingerprint managedIdentity)

def stateMatchesPlanned (directory : Directory) (operation : EffectOperation) :
    Except SkillDirectoryError Bool :=
  match operation.planned with
  | .missing => (expectedPath operation).map fun path => directory[path]?.isNone
  | .present native fingerprint managedIdentity =>
    .ok (stateMatchesPath directory operation.resource native fingerprint managedIdentity)

/-- Stages the package of an operation. The source package is the one the plan was made from, so the
staged tree has the planned fingerprint. -/
def stage (operation : EffectOperation) : Except SkillDirectoryError Entry :=
  match operation.sourceRoot, operation.planned with
  | none, _ => .error .missingMaterializationInput
  | some _, .missing => .error .missingPlannedItem
  | some _, .present _ fingerprint managedIdentity =>
    .ok (installedEntry operation.resource fingerprint managedIdentity)

section

variable (directory : Directory) (operation : EffectOperation)

/-- Applies an operation only to its exact expected or already planned state. Finding the planned
state is success, so that an operation can be repeated after a crash; finding anything else is left
for recovery. -/
def applyOperation : Except SkillDirectoryError Directory := do
  if ← stateMatchesPlanned directory operation then return directory
  if !(← stateMatchesExpected directory operation) then throw .recoveryRequired
  match operation.mutation with
  | .create =>
    let entry ← stage operation
    let target ← plannedPath operation
    if directory[target]?.isSome then throw .targetOccupied
    return directory.insert target entry
  | .update | .replace =>
    let entry ← stage operation
    let previous ← expectedPath operation
    let target ← plannedPath operation
    let backedUp := directory.erase previous
    if target ≠ previous ∧ backedUp[target]?.isSome then throw .targetOccupied
    return backedUp.insert target entry
  | .delete =>
    let previous ← expectedPath operation
    return directory.erase previous

/-- Verifies the exact planned state, which is read again and not taken from what was just
written. -/
def verifyOperation : Except SkillDirectoryError Unit := do
  if !(← stateMatchesPlanned directory operation) then throw .verificationFailed

end

/-! ### Prepared operations as exact edits -/

/-- The entry a previous state describes: both halves of an exact state, as one value that can be
compared. -/
def previousEntry (resource : EffectResourceId) : ExactPreviousState → Option Entry
  | .missing => none
  | .present _ fingerprint managedIdentity =>
    some (installedEntry resource fingerprint managedIdentity)

def plannedEntry (resource : EffectResourceId) : ExactPlannedState → Option Entry
  | .missing => none
  | .present _ fingerprint managedIdentity =>
    some (installedEntry resource fingerprint managedIdentity)

/-- The name an operation works on: the one it expects an item under, or plans one under. -/
def nativeOf : ExactPreviousState → ExactPlannedState → NativeResourceIdentity
  | .present native _ _, _ => native
  | .missing, .present native _ _ => native
  | .missing, .missing => ""

/-- A mutation as an edit of the directory: one name, what must be there and what is there
afterwards. -/
def editOf (resource : EffectResourceId) (mutation : PlannedMutation) :
    Edit NativeResourceIdentity Entry :=
  { key := nativeOf mutation.expected mutation.planned,
    expected := previousEntry resource mutation.expected,
    planned := plannedEntry resource mutation.planned }

section

variable (resource : EffectResourceId) (directory : Directory) (mutation : PlannedMutation)

/-- The directory has what the mutation plans. -/
abbrev Landed : Prop :=
  directory[(editOf resource mutation).key]? = (editOf resource mutation).planned

/-- The directory has what the mutation expects. -/
abbrev Untouched : Prop :=
  directory[(editOf resource mutation).key]? = (editOf resource mutation).expected

end

/-- The shapes of mutation that can be prepared and carried out. A rewrite keeps its name here: the
planner also plans one that does not, and that one is refused. -/
inductive Preparable : PlannedMutation → Prop where
  | create {mutation : PlannedMutation} {native : NativeResourceIdentity} {fingerprint : Fingerprint}
      {managed : ManagedIdentity} (kind : mutation.mutation = .create)
      (expected : mutation.expected = .missing)
      (planned : mutation.planned = .present native fingerprint managed)
      (source : mutation.input.isSome) : Preparable mutation
  | rewrite {mutation : PlannedMutation} {native : NativeResourceIdentity}
      {fingerprint fingerprint' : Fingerprint} {managed : ManagedIdentity}
      (kind : mutation.mutation = .update ∨ mutation.mutation = .replace)
      (expected : mutation.expected = .present native fingerprint managed)
      (planned : mutation.planned = .present native fingerprint' managed)
      (source : mutation.input.isSome) : Preparable mutation
  | delete {mutation : PlannedMutation} {native : NativeResourceIdentity} {fingerprint : Fingerprint}
      {managed : ManagedIdentity} (kind : mutation.mutation = .delete)
      (expected : mutation.expected = .present native fingerprint managed)
      (planned : mutation.planned = .missing) : Preparable mutation

/-- The operation carries the intent of the mutation, whatever its progress: the states it was
planned with are immutable. -/
structure Carries (resource : EffectResourceId) (mutation : PlannedMutation)
    (operation : EffectOperation) : Prop where
  onResource : operation.resource = resource
  kind : operation.mutation = mutation.mutation
  expects : operation.expected = mutation.expected
  plans : operation.planned = mutation.planned
  source : operation.sourceRoot = mutation.input.map (·.packageRoot)

theorem Carries.withProgress {resource : EffectResourceId} {mutation : PlannedMutation}
    {operation : EffectOperation} (h : Carries resource mutation operation)
    (progress : OperationProgress) : Carries resource mutation { operation with progress } :=
  ⟨h.onResource, h.kind, h.expects, h.plans, h.source⟩

section

variable {directory : Directory} {resource : EffectResourceId} {mutation : PlannedMutation}
  {operation : EffectOperation}

theorem isNone_eq_decide (entry : Option Entry) : entry.isNone = decide (entry = none) := by
  rw [Bool.eq_iff_iff, Option.isNone_iff_eq_none, decide_eq_true_eq]

theorem stateMatchesPath_eq {native : NativeResourceIdentity} {fingerprint : Fingerprint}
    {managedIdentity : ManagedIdentity} :
    stateMatchesPath directory resource native fingerprint managedIdentity =
      decide (directory[native]? = some (installedEntry resource fingerprint managedIdentity)) := by
  rw [Bool.eq_iff_iff, decide_eq_true_eq]
  rcases hentry : directory[native]? with _ | ⟨fp, _ | ⟨version, res, managed⟩⟩
  · simp [stateMatchesPath, hentry]
  · simp [stateMatchesPath, hentry, installedEntry]
  · simp [stateMatchesPath, hentry, installedEntry, ManagedItemMarker.current, and_assoc]

section

variable (h : Carries resource mutation operation) (hshape : Preparable mutation)

include h hshape

theorem Carries.stateMatchesExpected_eq : stateMatchesExpected directory operation =
      .ok (decide (Untouched resource directory mutation)) := by
  cases hshape with
  | create _ expected planned _ =>
    simp only [stateMatchesExpected, plannedPath, h.expects, h.plans, expected, planned, Untouched,
      editOf, nativeOf, previousEntry, Except.map, isNone_eq_decide]
  | rewrite _ expected planned _ | delete _ expected planned =>
    simp [stateMatchesExpected, h.expects, expected, h.onResource, stateMatchesPath_eq, Untouched,
      editOf, nativeOf, previousEntry]

theorem Carries.stateMatchesPlanned_eq : stateMatchesPlanned directory operation =
      .ok (decide (Landed resource directory mutation)) := by
  cases hshape with
  | create _ expected planned _ | rewrite _ expected planned _ =>
    simp [stateMatchesPlanned, h.plans, expected, planned, h.onResource, stateMatchesPath_eq, Landed,
      editOf, nativeOf, plannedEntry]
  | delete _ expected planned =>
    simp only [stateMatchesPlanned, expectedPath, h.expects, h.plans, expected, planned, Landed,
      editOf, nativeOf, plannedEntry, Except.map, isNone_eq_decide]

/-- What the adapter does to the expected state is the edit. -/
theorem Carries.applyOperation_of_expected (hplanned : ¬Landed resource directory mutation)
    (hexpected : Untouched resource directory mutation) :
    applyOperation directory operation = .ok ((editOf resource mutation).write directory) := by
  simp only [applyOperation, h.stateMatchesPlanned_eq hshape, h.stateMatchesExpected_eq hshape,
    decide_eq_false hplanned, decide_eq_true hexpected, bind, Except.bind, Bool.not_true,
    Bool.false_eq_true, if_false]
  cases hshape with
  | create kind expected planned source =>
    obtain ⟨input, hinput⟩ := Option.isSome_iff_exists.mp source
    simp only [Untouched, editOf, nativeOf, expected, planned, previousEntry] at hexpected
    simp [h.kind, kind, stage, h.source, hinput, plannedPath, h.plans, planned, hexpected, editOf,
      nativeOf, expected, Edit.write, plannedEntry, h.onResource, pure, Except.pure]
  | @rewrite native _ _ _ kind expected planned source =>
    obtain ⟨input, hinput⟩ := Option.isSome_iff_exists.mp source
    have hinstall : ∀ entry, (directory.erase native).insert native entry =
        directory.insert native entry := by
      intro entry
      refine Std.ExtTreeMap.ext_getElem? fun a => ?_
      rw [Map.getElem?_insert, Map.getElem?_insert, Map.getElem?_erase]
      split <;> rfl
    rcases kind with kind | kind <;>
      simp [h.kind, kind, stage, h.source, hinput, plannedPath, h.plans, planned, expectedPath,
        h.expects, expected, editOf, nativeOf, Edit.write, plannedEntry, h.onResource, hinstall, pure,
        Except.pure]
  | delete kind expected planned =>
    simp [h.kind, kind, expectedPath, h.expects, expected, editOf, nativeOf, Edit.write, planned,
      plannedEntry, pure, Except.pure]

/-- A prepared operation is an exact edit: it leaves the planned entry where it finds the expected or
the planned one, and refuses everything else. -/
theorem Carries.applyOperation_eq : applyOperation directory operation =
      if Landed resource directory mutation ∨ Untouched resource directory mutation then
        .ok ((editOf resource mutation).write directory)
      else .error .recoveryRequired := by
  by_cases hplanned : Landed resource directory mutation
  · rw [if_pos (.inl hplanned), Edit.write_eq_self hplanned]
    simp [applyOperation, h.stateMatchesPlanned_eq hshape, hplanned, bind, Except.bind, pure,
      Except.pure]
  by_cases hexpected : Untouched resource directory mutation
  · rw [if_pos (.inr hexpected), h.applyOperation_of_expected hshape hplanned hexpected]
  · rw [if_neg (not_or.mpr ⟨hplanned, hexpected⟩)]
    simp [applyOperation, h.stateMatchesPlanned_eq hshape, h.stateMatchesExpected_eq hshape,
      hplanned, hexpected, bind, Except.bind, throw, throwThe, MonadExceptOf.throw]

theorem Carries.verifyOperation_iff : verifyOperation directory operation = .ok () ↔
      Landed resource directory mutation := by
  simp only [verifyOperation, h.stateMatchesPlanned_eq hshape, bind, Except.bind]
  by_cases hplanned : Landed resource directory mutation
  · rw [decide_eq_true hplanned]
    exact iff_of_true rfl hplanned
  · simp [hplanned, throw, throwThe, MonadExceptOf.throw]

end

/-! ### What `prepare` accepts -/

theorem carries_of_prepare {generation : Generation} {sequence : Nat}
    (h : EffectOperation.prepare resource generation sequence mutation = .ok operation) :
    Carries resource mutation operation ∧ operation.generation = generation ∧
      operation.progress = .prepared := by
  obtain ⟨_, _, heq⟩ := Fallible.bind_eq_ok.mp h
  cases heq
  exact ⟨⟨rfl, rfl, rfl, rfl, rfl⟩, rfl, rfl⟩

/-- A mutation that brings its source where it plans an item is accepted exactly when it is
preparable; a rewrite under another name never is. -/
theorem prepare_accepts_iff (generation : Generation) (sequence : Nat)
    (hsource : mutation.planned ≠ .missing → mutation.input.isSome) :
    (∃ operation, EffectOperation.prepare resource generation sequence mutation = .ok operation) ↔
      Preparable mutation := by
  constructor
  · rintro ⟨operation, h⟩
    obtain ⟨_, hvalid, _⟩ := Fallible.bind_eq_ok.mp h
    rcases hexpected : mutation.expected with _ | ⟨native, fingerprint, managed⟩ <;>
      rcases hplanned : mutation.planned with _ | ⟨native', fingerprint', managed'⟩ <;>
      rcases hkind : mutation.mutation with _ | _ | _ | _ <;>
      simp only [validateMutationStates, hexpected, hplanned, hkind] at hvalid <;>
      try cases hvalid
    · exact .create hkind hexpected hplanned (hsource (by simp [hplanned]))
    · exact .delete hkind hexpected hplanned
    all_goals
      split at hvalid
      · rename_i hsame
        simp only [Bool.and_eq_true, beq_iff_eq] at hsame
        obtain ⟨rfl, rfl⟩ := hsame
        exact .rewrite (by simp [hkind]) hexpected hplanned (hsource (by simp [hplanned]))
      · cases hvalid
  · intro hshape
    refine ⟨_, Fallible.bind_eq_ok.mpr ⟨(), ?_, rfl⟩⟩
    cases hshape with
    | create kind expected planned _ | delete kind expected planned =>
      simp [validateMutationStates, kind, expected, planned]
    | rewrite kind expected planned _ =>
      rcases kind with kind | kind <;> simp [validateMutationStates, kind, expected, planned]

end

end SkillDirectory

end OraDesktop.Effect
