import OraDesktop.Effect.Types
import OraDesktop.Lib.Fallible
import OraDesktop.Text

/-!
# The Skill planner

`planResource` joins three sources: the ledger of what was installed, the observation of what is
there, and the desired set. An observed item is the ledger's only when its marker claims a row that
has the item's own name; every other item is preserved. The plan then goes through the ledger rows
in order and through the projection's new items after them.

## Main results

* `mem_preserved_iff`, `matched_eq_some_iff` — what counts as evidence
* `planResource_eq_projected_iff` — a plan is returned exactly when the desired identities resolve to
  distinct native identities, none of them at a preserved item, and no row's content drifted
-/

namespace OraDesktop.Effect

open Fallible List Map

/-- Input snapshot for merging every active Target contribution to one Resource. -/
structure ResourcePlanningInput where
  resource : EffectResourceId
  generation : Generation
  requirements : List ResourceRequirement
  desiredEffects : Map DesiredEffectIdentity DesiredEffect
  revisions : Map EffectRevisionId EffectRevision
  managed : Ledger
  observed : ResourceObservation

namespace SkillPlanner

/-- Constructs one deterministic blocking fact. -/
def blockingCondition (owner : ConditionOwner) (subject : ConditionSubject) (code : String)
    (generation : Generation) (message : String) (retry : ConditionRetry) : ConditionProposal :=
  { owner, subject, code, impact := .blocking, retry, generation := .at generation, message }

/-! ### Evidence -/

/-- The ledger row an observed item is exact evidence of: the marker must claim the row and the row
must name the place. -/
def exactMatch (ledger : Map ManagedIdentity ManagedItem) (resource : EffectResourceId)
    (observed : ObservedItem) : Option ManagedItem :=
  match observed.ownershipEvidence with
  | .claims identity => ledger[identity]?.filter fun managed =>
      managed.resource == resource && managed.nativeIdentity == observed.nativeIdentity
  | .noOwnershipEvidence => none

/-- Separates exact ledger matches from preserved items. What is preserved is outside the planner's
authority and can only be in the way. -/
def classifyObservation (managed : List ManagedItem) (observation : ResourceObservation) :
    List PreservedItem × Map ManagedIdentity ObservedItem :=
  let ledger := Map.insertEntries (fun item : ManagedItem => some (item.identity, item)) managed ∅
  (Map.valueList observation.items).foldl (fun acc observed =>
    match exactMatch ledger observation.resource observed with
    | some managed => (acc.1, acc.2.insert managed.identity observed)
    | none => (acc.1 ++ [{ resource := observation.resource,
                           nativeIdentity := observed.nativeIdentity,
                           fingerprint := observed.fingerprint }], acc.2)) ([], ∅)

/-! ### Resolving the desired set -/

/-- What the loop over the desired identities accumulates. The native identities are kept so that
two items cannot take one name. -/
structure Resolution where
  conditions : List ConditionProposal
  nativeOwners : Map NativeResourceIdentity DesiredEffectIdentity
  items : Map ManagedIdentity ResolvedMaterialization

/-- `NativeResourceIdentity::parse` -/
def parseNative (value : String) : Except PlannerError NativeResourceIdentity :=
  if (Text.trim value).isEmpty then .error .emptyNativeResourceIdentity else .ok value

variable [EffectDigest]

/-- The identity a Desired Effect is installed under: that of its ledger row, or a fresh one. -/
def managedIdentity (input : ResourcePlanningInput) (desiredId : DesiredEffectIdentity) :
    ManagedIdentity :=
  let managedByDesired := Map.insertEntries
    (fun managed : ManagedItem => some (managed.desiredEffect, managed)) input.managed.rows ∅
  match managedByDesired[desiredId]? with
  | some managed => managed.identity
  | none => EffectDigest.forIntent input.resource desiredId

/-- The versioned input from which a Skill directory is built. -/
def materializationInput (definition : SkillDefinition) : SkillMaterializationInput :=
  { name := definition.source.name, source := definition.source,
    packageRoot := definition.packageRoot, skillMdDigest := definition.skillMdDigest,
    packageFingerprint := definition.packageFingerprint }

section

variable (input : ResourcePlanningInput)

/-- The item that realises a Desired Effect. Its fingerprint is the package's own, known before any
of it is written. -/
def materialization (contract : MaterializationContract)
    (desiredId : DesiredEffectIdentity) (revision : EffectRevision)
    (native : NativeResourceIdentity) (digest : Digest) : ResolvedMaterialization :=
  { managedIdentity := managedIdentity input desiredId, desiredEffect := desiredId,
    revision := revision.identity, nativeIdentity := native,
    fingerprint := revision.definition.packageFingerprint, contract, inputDigest := digest,
    input := materializationInput revision.definition }

/-- One pass of the loop over the desired identities. A pass that finds a condition goes on to the
next identity, so that all of them are reported. -/
def resolve (contract : MaterializationContract)
    (acc : Resolution) (desiredId : DesiredEffectIdentity) : Except PlannerError Resolution := do
  match input.desiredEffects[desiredId]? with
  | none => throw (.desiredEffectMissing desiredId)
  | some desired =>
    match input.revisions[desired.revision]? with
    | none => return { acc with conditions := acc.conditions ++ [blockingCondition
        (.resource input.resource) (.desiredEffect desiredId) "revision_missing" input.generation
        "The selected immutable Effect revision is unavailable." .onChange] }
    | some revision =>
      let native ← parseNative revision.definition.source.name.canonical
      let nativeOwners := acc.nativeOwners.insert native desiredId
      if acc.nativeOwners[native]?.any (· != desiredId) then
        return { acc with nativeOwners, conditions := acc.conditions ++ [blockingCondition
          (.resource input.resource) (.desiredEffect desiredId) "native_identity_conflict"
          input.generation
          "Multiple Desired Effects resolve to the same native Resource identity." .onChange] }
      else
        match EffectDigest.materialization (materializationInput revision.definition) with
        | none => throw .serialize
        | some digest =>
          let item := materialization input contract desiredId revision native digest
          return { acc with nativeOwners, items := acc.items.insert item.managedIdentity item }

/-- The desired identities of all contributions, in order. -/
def desiredIds : OrdSet DesiredEffectIdentity :=
  input.requirements.foldl (fun acc requirement => acc.insertMany requirement.desiredEffects) ∅

/-- The Targets that contribute to the Resource, whether they still want something from it or
not. -/
def contributors : OrdSet EffectTargetId :=
  input.requirements.foldl (fun acc requirement => acc.insert requirement.target) ∅

/-- The one contract all contributions ask for, or the condition that there is none. -/
def materializationContract : Except ConditionProposal MaterializationContract :=
  let contracts := (input.requirements.map (·.materializationContract)).dedup
  if 1 < contracts.length then
    .error (blockingCondition (.resource input.resource) (.resource input.resource)
      "materialization_contract_conflict" input.generation
      "Target contributions require incompatible Resource materialization contracts." .onChange)
  else
    let contract := contracts.head?.getD .skillDirectoryV1
    if contract ≠ .skillDirectoryV1 then
      .error (blockingCondition (.resource input.resource) (.resource input.resource)
        "unsupported_materialization_contract" input.generation
        "The Skill planner does not support the Resource materialization contract." .onChange)
    else .ok contract

/-- The conditions for items whose native identity a preserved item occupies. -/
def preservedConflicts (preserved : List PreservedItem)
    (items : Map ManagedIdentity ResolvedMaterialization) : List ConditionProposal :=
  ((Map.valueList items).filter fun item => preserved.any (·.nativeIdentity == item.nativeIdentity)).map
    fun item => blockingCondition (.resource input.resource) (.desiredEffect item.desiredEffect)
      "preserved_item_conflict" input.generation
      ("A Preserved Item already occupies the required native identity: " ++ item.nativeIdentity
        ++ ".") .onChange

end

/-! ### Planning the changes -/

/-- The exact state of an observed item of a ledger row, as the mutation will have to find it
again. -/
def previousState (managed : ManagedItem) (current : ObservedItem) : ExactPreviousState :=
  .present current.nativeIdentity current.fingerprint managed.identity

/-- An update, replace or create proposal that keeps the ownership identity. -/
def materializeMutation (managed : ManagedItem) (desired : ResolvedMaterialization)
    (mutation : EffectMutation) (expected : ExactPreviousState) : PlannedMutation :=
  { managedIdentity := managed.identity, desiredEffect := some desired.desiredEffect, mutation,
    expected, planned := .present desired.nativeIdentity desired.fingerprint managed.identity,
    input := some desired.input }

/-- The deletion of an observed item that is no longer desired. -/
def deleteMutation (managed : ManagedItem) (current : ObservedItem) : PlannedMutation :=
  { managedIdentity := managed.identity, desiredEffect := none, mutation := .delete,
    expected := previousState managed current, planned := .missing, input := none }

/-- The creation of an item that has no ledger row, under an identity that no row has. -/
def createMutation (desired : ResolvedMaterialization) : PlannedMutation :=
  { managedIdentity := desired.managedIdentity, desiredEffect := some desired.desiredEffect,
    mutation := .create, expected := .missing,
    planned := .present desired.nativeIdentity desired.fingerprint desired.managedIdentity,
    input := some desired.input }

/-- What one ledger row asks for: nothing, one change, or the condition that its content drifted. -/
def planRow (generation : Generation) (owner : ConditionOwner)
    (observed : Map ManagedIdentity ObservedItem)
    (items : Map ManagedIdentity ResolvedMaterialization) (managed : ManagedItem) :
    Except ConditionProposal (Option PlannedResourceChange) :=
  match observed[managed.identity]?, items[managed.identity]? with
  | none, none => .ok (some (.forgetMissing managed.identity))
  | none, some desired => .ok (some (.mutate (materializeMutation managed desired .create .missing)))
  | some current, desired? =>
    if current.fingerprint ≠ managed.fingerprint then
      .error (blockingCondition owner (.managedItem managed.identity) "managed_item_drift"
        generation "A Managed Item changed outside Ora and cannot be overwritten safely." .manual)
    else match desired? with
    | none => .ok (some (.mutate (deleteMutation managed current)))
    | some desired =>
      if current.fingerprint = desired.fingerprint ∧ managed.appliedRevision = desired.revision ∧
          managed.nativeIdentity = desired.nativeIdentity then .ok none
      else
        let mutation : EffectMutation :=
          if managed.nativeIdentity = desired.nativeIdentity then .update else .replace
        .ok (some (.mutate
          (materializeMutation managed desired mutation (previousState managed current))))

section

variable (row : Except ConditionProposal (Option PlannedResourceChange))

/-- The change of a row that asks for one; a row that drifted asks for none. -/
def rowChange : Option PlannedResourceChange :=
  match row with
  | .ok change => change
  | .error _ => none

def rowCondition : Option ConditionProposal :=
  match row with
  | .ok _ => none
  | .error condition => some condition

end

/-- The changes of the ledger rows in order, then the creations; and the drift conditions. -/
def planChanges (generation : Generation) (managed : List ManagedItem)
    (observed : Map ManagedIdentity ObservedItem) (projection : ResourceProjection)
    (owner : ConditionOwner) : List PlannedResourceChange × List ConditionProposal :=
  let rows := managed.map (planRow generation owner observed projection.items)
  let existing := managed.map (·.identity)
  let fresh := (Map.valueList projection.items).filter fun desired => desired.managedIdentity ∉ existing
  (rows.filterMap rowChange ++ fresh.map fun desired => .mutate (createMutation desired),
    rows.filterMap rowCondition)

section

variable (input : ResourcePlanningInput)

def planResource : Except PlannerError (PlanningResult ResourcePlan) := do
  if input.observed.resource ≠ input.resource then throw .observationResourceMismatch
  let (preserved, observedManaged) := classifyObservation input.managed.rows input.observed
  if input.requirements.any (·.resource != input.resource) then throw .requirementResourceMismatch
  match materializationContract input with
  | .error condition => return .blocked [condition]
  | .ok contract =>
    let resolution ← (desiredIds input).toList.foldlM (resolve input contract) ⟨[], ∅, ∅⟩
    let conditions := resolution.conditions ++ preservedConflicts input preserved resolution.items
    if conditions ≠ [] then return .blocked conditions
    match EffectDigest.projection input.resource input.generation (contributors input)
        resolution.items with
    | none => throw .serialize
    | some digest =>
      let projection : ResourceProjection :=
        { resource := input.resource, generation := input.generation,
          contributors := contributors input, items := resolution.items, digest }
      let (changes, conditions) := planChanges input.generation input.managed.rows observedManaged
        projection (.resource input.resource)
      if conditions ≠ [] then return .blocked conditions
      return .projected { projection, preserved, changes }

/-! ### What counts as evidence -/

/-- The preserved items of an input: those without a marker of this Resource, and those whose marker
claims no ledger row that names their place. -/
def preserved : List PreservedItem :=
  (classifyObservation input.managed.rows input.observed).1

/-- The observed items of an input that are the ledger's, by the identity of their row. -/
def matched : Map ManagedIdentity ObservedItem :=
  (classifyObservation input.managed.rows input.observed).2

end

/-- The item is there under the row's native identity and its marker claims that row. -/
structure Exact (input : ResourcePlanningInput) (row : ManagedItem) (item : ObservedItem) :
    Prop where
  mem : row ∈ input.managed.rows
  resource : row.resource = input.observed.resource
  found : input.observed.items[row.nativeIdentity]? = some item
  claims : item.ownershipEvidence = .claims row.identity

section Evidence

omit [EffectDigest]

variable {input : ResourcePlanningInput}

theorem exactMatch_eq_some_iff {managed : Ledger} {resource : EffectResourceId}
    {observed : ObservedItem} {row : ManagedItem} :
    exactMatch (Map.insertEntries (fun item : ManagedItem => some (item.identity, item))
        managed.rows ∅) resource observed = some row ↔
      row ∈ managed.rows ∧ observed.ownershipEvidence = .claims row.identity ∧
        row.resource = resource ∧ row.nativeIdentity = observed.nativeIdentity := by
  rcases hevidence : observed.ownershipEvidence with _ | identity
  · simp [exactMatch, hevidence]
  simp only [exactMatch, hevidence, Option.filter_eq_some_iff,
    getElem?_insertEntries_key_eq_some_iff managed.identities_nodup, Bool.and_eq_true, beq_iff_eq,
    OwnershipEvidence.claims.injEq]
  constructor
  · rintro ⟨⟨hmem, rfl⟩, hres, hnative⟩
    exact ⟨hmem, rfl, hres, hnative⟩
  · rintro ⟨hmem, rfl, hres, hnative⟩
    exact ⟨⟨hmem, rfl⟩, hres, hnative⟩

/-- The fold of `classifyObservation`, one component at a time. -/
theorem classifyObservation_eq (managed : List ManagedItem) (observation : ResourceObservation) :
    let exactRow := exactMatch (insertEntries
      (fun item : ManagedItem => some (item.identity, item)) managed ∅) observation.resource
    classifyObservation managed observation =
      ((valueList observation.items).filterMap fun observed =>
          if (exactRow observed).isSome then none else
            some { resource := observation.resource, nativeIdentity := observed.nativeIdentity,
                   fingerprint := observed.fingerprint },
        insertEntries (fun observed => (exactRow observed).map fun row => (row.identity, observed))
          (valueList observation.items) ∅) := by
  intro exactRow
  rw [classifyObservation]
  have hfold : ∀ (items : List ObservedItem) (preserved : List PreservedItem)
      (found : Map ManagedIdentity ObservedItem),
      items.foldl (fun acc observed => match exactRow observed with
        | some managed => (acc.1, acc.2.insert managed.identity observed)
        | none => (acc.1 ++ [({ resource := observation.resource,
                                nativeIdentity := observed.nativeIdentity,
                                fingerprint := observed.fingerprint } : PreservedItem)], acc.2))
        (preserved, found) =
      (preserved ++ items.filterMap fun observed =>
          if (exactRow observed).isSome then none else
            some { resource := observation.resource, nativeIdentity := observed.nativeIdentity,
                   fingerprint := observed.fingerprint },
        insertEntries (fun observed => (exactRow observed).map fun row => (row.identity, observed))
          items found) := by
    intro items
    induction items with
    | nil => intro preserved found; simp [insertEntries]
    | cons observed items ih =>
      intro preserved found
      rw [foldl_cons]
      rcases hexact : exactRow observed with _ | row
      · simp only
        rw [ih]
        simp [insertEntries, hexact]
      · simp only
        rw [ih]
        simp [insertEntries, hexact]
  exact (hfold _ [] ∅).trans (by rw [nil_append])

theorem mem_preserved_iff {n : NativeResourceIdentity} :
    (∃ item ∈ preserved input, item.nativeIdentity = n) ↔
      ∃ observed, input.observed.items[n]? = some observed ∧ ∀ row, ¬Exact input row observed := by
  rw [preserved, classifyObservation_eq]
  simp only [mem_filterMap]
  constructor
  · rintro ⟨_, ⟨observed, hmem, hsome⟩, rfl⟩
    obtain ⟨k, hk⟩ := mem_valueList.mp hmem
    obtain rfl := input.observed.keyed k observed hk
    split at hsome
    · cases hsome
    rename_i hnone
    cases hsome
    refine ⟨observed, hk, fun row hrow => hnone ?_⟩
    have hnative := input.observed.keyed _ _ hrow.found
    exact Option.isSome_iff_exists.mpr
      ⟨row, exactMatch_eq_some_iff.mpr ⟨hrow.mem, hrow.claims, hrow.resource, hnative.symm⟩⟩
  · rintro ⟨observed, hfound, hno⟩
    have hnative := input.observed.keyed _ _ hfound
    refine ⟨_, ⟨observed, mem_valueList.mpr ⟨n, hfound⟩, if_neg ?_⟩, hnative⟩
    intro hsome
    obtain ⟨row, hrow⟩ := Option.isSome_iff_exists.mp hsome
    obtain ⟨hmem, hclaims, hres, hrn⟩ := exactMatch_eq_some_iff.mp hrow
    exact hno row ⟨hmem, hres, by rw [hrn, hnative, hfound], hclaims⟩

theorem matched_eq_some_iff {identity : ManagedIdentity} {observed : ObservedItem} :
    (matched input)[identity]? = some observed ↔
      ∃ row, Exact input row observed ∧ row.identity = identity := by
  let exactRow := exactMatch (insertEntries
    (fun item : ManagedItem => some (item.identity, item)) input.managed.rows ∅)
    input.observed.resource
  have hentry : ∀ o ∈ valueList input.observed.items, ∀ p,
      ((exactRow o).map fun row => (row.identity, o)) = some p ↔
        ∃ row, Exact input row o ∧ p = (row.identity, o) := by
    intro o ho p
    obtain ⟨k, hk⟩ := mem_valueList.mp ho
    obtain rfl := input.observed.keyed k o hk
    simp only [Option.map_eq_some_iff]
    constructor
    · rintro ⟨row, hrow, rfl⟩
      obtain ⟨hmem, hclaims, hres, hrn⟩ := exactMatch_eq_some_iff.mp hrow
      exact ⟨row, ⟨hmem, hres, by rw [hrn, hk], hclaims⟩, rfl⟩
    · rintro ⟨row, hrow, rfl⟩
      have hnative := input.observed.keyed _ _ hrow.found
      exact ⟨row, exactMatch_eq_some_iff.mpr ⟨hrow.mem, hrow.claims, hrow.resource, hnative.symm⟩,
        rfl⟩
  have hmatched : matched input = insertEntries
      (fun observed => (exactRow observed).map fun row => (row.identity, observed))
      (valueList input.observed.items) ∅ := by
    rw [matched, classifyObservation_eq]
  rw [hmatched, getElem?_insertEntries_eq_some_iff]
  · constructor
    · rintro ⟨o, ho, heq⟩
      obtain ⟨row, hrow, hp⟩ := (hentry o ho _).mp heq
      cases hp
      exact ⟨row, hrow, rfl⟩
    · rintro ⟨row, hrow, rfl⟩
      have hmem : observed ∈ valueList input.observed.items :=
        mem_valueList.mpr ⟨_, hrow.found⟩
      exact ⟨observed, hmem, (hentry observed hmem _).mpr ⟨row, hrow, rfl⟩⟩
  · -- two items that match one row have its native identity, and so are the same entry
    refine (pairwise_valueList input.observed.keyed).imp_of_mem ?_
    intro x y hx hy hne p q hp hq hpq
    obtain ⟨row, hrow, rfl⟩ := (hentry x hx p).mp hp
    obtain ⟨row', hrow', rfl⟩ := (hentry y hy q).mp hq
    have hrows : row = row' :=
      inj_on_of_nodup_map input.managed.identities_nodup hrow.mem hrow'.mem hpq
    subst hrows
    have hxy : some x = some y := hrow.found.symm.trans hrow'.found
    cases hxy
    exact hne rfl

end Evidence

/-! ### What the loop over the desired identities resolves -/

/-- The item that a desired identity resolves to. Everything in it is determined by the input and
the contract, so two passes agree. -/
structure IsResolved (input : ResourcePlanningInput) (contract : MaterializationContract)
    (desiredId : DesiredEffectIdentity) (item : ResolvedMaterialization) : Prop where
  resolved : ∃ desired revision digest,
    input.desiredEffects[desiredId]? = some desired ∧
    input.revisions[desired.revision]? = some revision ∧
    parseNative revision.definition.source.name.canonical = .ok item.nativeIdentity ∧
    EffectDigest.materialization (materializationInput revision.definition) = some digest ∧
    item = materialization input contract desiredId revision item.nativeIdentity digest

section Resolution

variable {input : ResourcePlanningInput} {contract : MaterializationContract}

variable {desiredId : DesiredEffectIdentity}

section

variable {item : ResolvedMaterialization} (h : IsResolved input contract desiredId item)

include h

theorem IsResolved.desiredEffect : item.desiredEffect = desiredId := by
  obtain ⟨_, _, _, _, _, _, _, heq⟩ := h.resolved
  rw [heq]
  rfl

theorem IsResolved.managedIdentity : item.managedIdentity = managedIdentity input desiredId := by
  obtain ⟨_, _, _, _, _, _, _, heq⟩ := h.resolved
  rw [heq]
  rfl

end

/-- A pass that leaves no condition resolved its identity, under a name no other one took. -/
theorem resolve_eq_ok_iff {acc res : Resolution} :
    resolve input contract acc desiredId = .ok res ∧ res.conditions = [] ↔
      acc.conditions = [] ∧ ∃ item, IsResolved input contract desiredId item ∧
        (∀ d, acc.nativeOwners[item.nativeIdentity]? = some d → d = desiredId) ∧
        res = ⟨[], acc.nativeOwners.insert item.nativeIdentity desiredId,
          acc.items.insert item.managedIdentity item⟩ := by
  constructor
  · rintro ⟨hok, hnil⟩
    simp only [resolve] at hok
    rcases hdesired : input.desiredEffects[desiredId]? with _ | desired
    · simp [hdesired, throw, throwThe, MonadExceptOf.throw] at hok
    rcases hrevision : input.revisions[desired.revision]? with _ | revision
    · simp only [hdesired, hrevision, pure, Except.pure, Except.ok.injEq] at hok
      rw [← hok] at hnil
      simp at hnil
    simp only [hdesired, hrevision] at hok
    obtain ⟨native, hnative, hok⟩ := bind_eq_ok.mp hok
    split at hok
    · simp only [pure, Except.pure, Except.ok.injEq] at hok
      rw [← hok] at hnil
      simp at hnil
    rename_i hfree
    rcases hdigest : EffectDigest.materialization (materializationInput revision.definition)
      with _ | digest
    · simp [hdigest, throw, throwThe, MonadExceptOf.throw] at hok
    simp only [hdigest, pure, Except.pure, Except.ok.injEq] at hok
    subst hok
    have hacc : acc.conditions = [] := hnil
    refine ⟨hacc, materialization input contract desiredId revision native digest,
      ⟨desired, revision, digest, hdesired, hrevision, hnative, hdigest, rfl⟩, fun d hd => ?_, ?_⟩
    · have hd' : acc.nativeOwners[native]? = some d := hd
      simpa [hd'] using hfree
    · simp only [hacc]
      rfl
  · rintro ⟨hnil, item, hitem, hfree, rfl⟩
    obtain ⟨desired, revision, digest, hdesired, hrevision, hnative, hdigest, heq⟩ := hitem.resolved
    refine ⟨?_, rfl⟩
    have hnot : ¬(acc.nativeOwners[item.nativeIdentity]?.any (· != desiredId)) = true := by
      rcases howner : acc.nativeOwners[item.nativeIdentity]? with _ | d
      · simp
      · simp [hfree d howner]
    simp only [resolve, hdesired, hrevision, hnative, hdigest, bind, Except.bind, hnot, pure,
      Except.pure]
    rw [← heq]
    simp [hnil]

theorem conditions_of_foldlM_resolve : ∀ {ds : List DesiredEffectIdentity} {acc res : Resolution},
    ds.foldlM (resolve input contract) acc = .ok res → res.conditions = [] → acc.conditions = []
  | [], acc, res, hok, hnil => by
    cases hok
    exact hnil
  | d :: ds, acc, res, hok, hnil => by
    rw [foldlM_cons] at hok
    obtain ⟨mid, hmid, hrest⟩ := bind_eq_ok.mp hok
    exact (resolve_eq_ok_iff.mp ⟨hmid, conditions_of_foldlM_resolve hrest hnil⟩).1

/-- The loop leaves no condition exactly when every identity resolves and no two of them to one
native identity; the items are then entered in the order of the identities. -/
theorem foldlM_resolve_eq_ok_iff {ds : List DesiredEffectIdentity} (hds : ds.Nodup) :
    ∀ {acc res : Resolution},
      (∀ (n : NativeResourceIdentity) d, acc.nativeOwners[n]? = some d → d ∉ ds) →
      (ds.foldlM (resolve input contract) acc = .ok res ∧ res.conditions = [] ↔
        acc.conditions = [] ∧ ∃ items, List.Forall₂ (IsResolved input contract) ds items ∧
          (∀ item ∈ items, acc.nativeOwners[item.nativeIdentity]? = none) ∧
          items.Pairwise (fun x y => x.nativeIdentity ≠ y.nativeIdentity) ∧
          res = ⟨[], Map.insertEntries (fun item => some (item.nativeIdentity, item.desiredEffect))
              items acc.nativeOwners,
            Map.insertEntries (fun item => some (item.managedIdentity, item)) items acc.items⟩) := by
  induction ds with
  | nil =>
    intro acc res _
    constructor
    · rintro ⟨hok, hnil⟩
      cases hok
      refine ⟨hnil, [], .nil, by simp, .nil, ?_⟩
      rw [← hnil]
      rfl
    · rintro ⟨hnil, items, hforall, _, _, rfl⟩
      cases hforall
      exact ⟨by rw [← hnil]; rfl, rfl⟩
  | cons d ds ih =>
    intro acc res howners
    obtain ⟨hd, hds⟩ := nodup_cons.mp hds
    -- the owners recorded for `d` are not among the identities still to come
    have hnext : ∀ n (n' : NativeResourceIdentity) d',
        (acc.nativeOwners.insert n d)[n']? = some d' → d' ∉ ds := by
      intro n n' d' h
      rw [Map.getElem?_insert] at h
      split at h
      · cases h; exact hd
      · exact fun hmem => howners n' d' h (mem_cons_of_mem d hmem)
    rw [foldlM_cons]
    constructor
    · rintro ⟨hok, hnil⟩
      obtain ⟨mid, hmid, hrest⟩ := bind_eq_ok.mp hok
      obtain ⟨hacc, item, hitem, hfree, rfl⟩ :=
        resolve_eq_ok_iff.mp ⟨hmid, conditions_of_foldlM_resolve hrest hnil⟩
      obtain ⟨_, items, hitems, hnone, hdistinct, rfl⟩ := (ih hds (hnext _)).mp ⟨hrest, hnil⟩
      refine ⟨hacc, item :: items, .cons hitem hitems, ?_, ?_, ?_⟩
      · refine forall_mem_cons.mpr ⟨?_, fun other hother => ?_⟩
        · rcases howner : acc.nativeOwners[item.nativeIdentity]? with _ | d'
          · rfl
          · exact absurd (mem_cons.mpr (.inl (hfree d' howner))) (howners _ d' howner)
        · have h := hnone other hother
          rw [Map.getElem?_insert] at h
          split at h
          · cases h
          · exact h
      · refine pairwise_cons.mpr ⟨fun other hother heq => ?_, hdistinct⟩
        have h := hnone other hother
        rw [Map.getElem?_insert, if_pos heq] at h
        cases h
      · rw [← hitem.desiredEffect]
        rfl
    · rintro ⟨hacc, _, hforall, hnone, hdistinct, rfl⟩
      rcases hforall with _ | ⟨hitem, hitems⟩
      rename_i item items
      obtain ⟨hhead, htail⟩ := forall_mem_cons.mp hnone
      obtain ⟨hne, hdistinct⟩ := pairwise_cons.mp hdistinct
      have hfree : ∀ d', acc.nativeOwners[item.nativeIdentity]? = some d' → d' = d := by
        intro d' h
        rw [hhead] at h
        cases h
      have hstep := resolve_eq_ok_iff.mpr ⟨hacc, item, hitem, hfree, rfl⟩
      have hrest := (@ih hds ⟨[], acc.nativeOwners.insert item.nativeIdentity d,
        acc.items.insert item.managedIdentity item⟩ _ (hnext item.nativeIdentity)).mpr
        ⟨rfl, items, hitems, ?_, hdistinct, rfl⟩
      · refine ⟨bind_eq_ok.mpr ⟨_, hstep.1, ?_⟩, rfl⟩
        rw [hrest.1, ← hitem.desiredEffect]
        rfl
      · intro other hother
        rw [Map.getElem?_insert, if_neg (hne other hother)]
        exact htail other hother

end Resolution

/-! ### What every plan satisfies -/

/-- The plan is the one `planResource` returns for the input; the list is what the desired
identities resolved to, in their order. -/
structure IsPlan (input : ResourcePlanningInput) (plan : ResourcePlan)
    (resolved : List ResolvedMaterialization) : Prop where
  observed : input.observed.resource = input.resource
  requirements : ∀ requirement ∈ input.requirements, requirement.resource = input.resource
  contract : materializationContract input = .ok .skillDirectoryV1
  resolves : List.Forall₂ (IsResolved input .skillDirectoryV1) (desiredIds input).toList resolved
  natives : resolved.Pairwise fun x y => x.nativeIdentity ≠ y.nativeIdentity
  items : plan.projection.items =
    Map.insertEntries (fun item => some (item.managedIdentity, item)) resolved ∅
  unpreserved : ∀ (identity : ManagedIdentity) item, plan.projection.items[identity]? = some item →
    ∀ kept ∈ preserved input, kept.nativeIdentity ≠ item.nativeIdentity
  digest : EffectDigest.projection input.resource input.generation (contributors input)
    plan.projection.items = some plan.projection.digest
  undrifted : ∀ row ∈ input.managed.rows, ∀ current,
    (matched input)[row.identity]? = some current → current.fingerprint = row.fingerprint
  projection : plan.projection = ⟨input.resource, input.generation, contributors input,
    plan.projection.items, plan.projection.digest⟩
  preserved : plan.preserved = preserved input
  changes : plan.changes = (planChanges input.generation input.managed.rows (matched input)
    plan.projection (.resource input.resource)).1

section Plan

variable {input : ResourcePlanningInput} {plan : ResourcePlan}

omit [EffectDigest]

theorem materializationContract_eq_ok {contract : MaterializationContract}
    (h : materializationContract input = .ok contract) : contract = .skillDirectoryV1 := by
  simp only [materializationContract] at h
  split at h
  · cases h
  split at h
  · cases h
  · rename_i heq
    cases h
    exact not_not.mp heq

theorem preservedConflicts_eq_nil_iff {kept : List PreservedItem}
    {items : Map ManagedIdentity ResolvedMaterialization} :
    preservedConflicts input kept items = [] ↔
      ∀ (identity : ManagedIdentity) item, items[identity]? = some item →
        ∀ p ∈ kept, p.nativeIdentity ≠ item.nativeIdentity := by
  simp only [preservedConflicts, map_eq_nil_iff, filter_eq_nil_iff, mem_valueList,
    any_eq_true, beq_iff_eq]
  constructor
  · intro h identity item hitem p hp heq
    exact h item ⟨identity, hitem⟩ ⟨p, hp, heq⟩
  · rintro h item ⟨identity, hitem⟩ ⟨p, hp, heq⟩
    exact h identity item hitem p hp heq

theorem planRow_eq_error_iff {generation : Generation} {owner : ConditionOwner}
    {observed : Map ManagedIdentity ObservedItem}
    {items : Map ManagedIdentity ResolvedMaterialization} {row : ManagedItem} :
    (∃ condition, planRow generation owner observed items row = .error condition) ↔
      ∃ current, observed[row.identity]? = some current ∧ current.fingerprint ≠ row.fingerprint := by
  rcases hobs : observed[row.identity]? with _ | current
  · rcases hitem : items[row.identity]? with _ | desired <;> simp [planRow, hobs, hitem]
  by_cases hdrift : current.fingerprint = row.fingerprint
  · rcases hitem : items[row.identity]? with _ | desired
    · simp [planRow, hobs, hitem, hdrift]
    · simp only [planRow, hobs, hitem, hdrift, ne_eq, not_true_eq_false, if_false]
      split <;> simp [hdrift]
  · simp [planRow, hobs, hdrift]

theorem planChanges_conditions_eq_nil_iff {generation : Generation} {rows : List ManagedItem}
    {observed : Map ManagedIdentity ObservedItem} {projection : ResourceProjection}
    {owner : ConditionOwner} :
    (planChanges generation rows observed projection owner).2 = [] ↔
      ∀ row ∈ rows, ∀ current, observed[row.identity]? = some current →
        current.fingerprint = row.fingerprint := by
  simp only [planChanges, filterMap_map, filterMap_eq_nil_iff, Function.comp_apply]
  have hrow : ∀ row, rowCondition (planRow generation owner observed projection.items row) = none ↔
      ∀ current, observed[row.identity]? = some current → current.fingerprint = row.fingerprint := by
    intro row
    rcases hplan : planRow generation owner observed projection.items row with condition | change
    · obtain ⟨current, hcurrent, hne⟩ := planRow_eq_error_iff.mp ⟨condition, hplan⟩
      simp [rowCondition, hcurrent, hne]
    refine iff_of_true rfl fun current hcurrent => ?_
    by_contra hne
    obtain ⟨condition, herr⟩ := planRow_eq_error_iff.mpr ⟨current, hcurrent, hne⟩
    rw [herr] at hplan
    cases hplan
  simp only [hrow]

theorem desiredIds_nodup (input : ResourcePlanningInput) : (desiredIds input).toList.Nodup :=
  (desiredIds input).distinct_toList.imp fun hne heq =>
    hne (Std.LawfulEqOrd.compare_eq_iff_eq.mpr heq)

variable [EffectDigest]

theorem planResource_eq_projected_iff :
    planResource input = .ok (.projected plan) ↔ ∃ resolved, IsPlan input plan resolved := by
  constructor
  · intro h
    simp only [planResource] at h
    obtain ⟨hobserved, h⟩ := if_throw_eq_ok.mp h
    obtain ⟨hrequirements, h⟩ := if_throw_eq_ok.mp h
    rcases hcontract : materializationContract input with condition | contract
    · simp [hcontract, pure, Except.pure] at h
    simp only [hcontract] at h
    obtain rfl := materializationContract_eq_ok hcontract
    obtain ⟨resolution, hresolution, h⟩ := bind_eq_ok.mp h
    split at h
    · simp [pure, Except.pure] at h
    rename_i hclear
    obtain ⟨hconditions, hkept⟩ := append_eq_nil_iff.mp (not_not.mp hclear)
    rcases hdigest : EffectDigest.projection input.resource input.generation (contributors input)
      resolution.items with _ | digest
    · simp [hdigest, throw, throwThe, MonadExceptOf.throw] at h
    simp only [hdigest] at h
    split at h
    · simp [pure, Except.pure] at h
    rename_i hdrift
    simp only [pure, Except.pure, Except.ok.injEq, PlanningResult.projected.injEq] at h
    subst h
    obtain ⟨_, resolved, hresolved, _, hnatives, rfl⟩ :=
      (foldlM_resolve_eq_ok_iff (desiredIds_nodup input) (by simp)).mp ⟨hresolution, hconditions⟩
    exact ⟨resolved,
      { observed := not_not.mp hobserved
        requirements := by simpa using hrequirements
        contract := hcontract
        resolves := hresolved
        natives := hnatives
        items := rfl
        unpreserved := preservedConflicts_eq_nil_iff.mp hkept
        digest := hdigest
        undrifted := planChanges_conditions_eq_nil_iff.mp (not_not.mp hdrift)
        projection := rfl
        preserved := rfl
        changes := rfl }⟩
  · rintro ⟨resolved, h⟩
    have hresolution : (desiredIds input).toList.foldlM (resolve input .skillDirectoryV1) ⟨[], ∅, ∅⟩ =
        .ok ⟨[], insertEntries (fun item => some (item.nativeIdentity, item.desiredEffect))
          resolved ∅, plan.projection.items⟩ := by
      rw [h.items]
      exact ((foldlM_resolve_eq_ok_iff (desiredIds_nodup input) (by simp)).mpr
        ⟨rfl, resolved, h.resolves, by simp, h.natives, rfl⟩).1
    have hkept : preservedConflicts input (preserved input) plan.projection.items = [] :=
      preservedConflicts_eq_nil_iff.mpr h.unpreserved
    have hdrift : (planChanges input.generation input.managed.rows (matched input) plan.projection
        (.resource input.resource)).2 = [] :=
      planChanges_conditions_eq_nil_iff.mpr h.undrifted
    have hplan : plan = ⟨plan.projection, preserved input, (planChanges input.generation
        input.managed.rows (matched input) plan.projection (.resource input.resource)).1⟩ := by
      rw [← h.preserved, ← h.changes]
    simp only [planResource]
    refine if_throw_eq_ok.mpr ⟨not_not.mpr h.observed, ?_⟩
    refine if_throw_eq_ok.mpr ⟨by simpa using h.requirements, ?_⟩
    simp only [h.contract]
    refine bind_eq_ok.mpr ⟨_, hresolution, ?_⟩
    rw [preserved] at hkept hplan
    simp only [hkept, append_nil, h.digest, ne_eq, not_true_eq_false, if_false]
    rw [← h.projection]
    rw [matched] at hdrift hplan
    rw [if_neg (not_not.mpr hdrift), ← hplan]
    rfl

end Plan

end SkillPlanner

end OraDesktop.Effect
