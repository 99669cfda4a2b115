import OraDesktop.Effect.TargetPlanner
import OraDesktop.Lib.UniqueKey
import Mathlib.Data.List.Dedup

/-!
# Planning a snapshot

A reconcile claims one Target and plans every Resource it requires, together with the other Targets
that are bound to those Resources. What blocks another Target blocks this plan too, and is reported
as this Target's own condition, because its claim does not cover the other one.

The conditions of another Target are collected once for each Resource it shares, and conditions of
several Targets come under one owner. A plan that is blocked this way may have two conditions with
one key. The table of conditions is unique on the key, and so the transaction that is to record the
plan as blocked fails.

## Main results

* `planResource_blocked` — the conditions of one Resource have different keys
* `blocked_conditions_recordable_iff`
-/

namespace OraDesktop.Effect

open Fallible List SkillPlanner

/-! ### Watermarks -/

/-- What planning reads and moves of a status: the generation that is asked for, the one that was
observed, and the version that makes a concurrent write fail. -/
structure Watermarks where
  desired : Generation
  observed : Generation
  version : Nat

inductive StatusError where
  | generationRegression
  | invalidObservedGeneration
  | statusVersionExhausted

namespace Watermarks

def advanceVersion (status : Watermarks) : Except StatusError Watermarks :=
  if status.version + 1 < 2 ^ 64 then .ok { status with version := status.version + 1 }
  else .error .statusVersionExhausted

variable (status : Watermarks) (generation : Generation)

def requestGeneration : Except StatusError Watermarks :=
  if generation < status.desired then .error .generationRegression
  else { status with desired := generation }.advanceVersion

def recordObserved : Except StatusError Watermarks :=
  if generation < status.observed ∨ status.desired < generation then
    .error .invalidObservedGeneration
  else { status with observed := generation }.advanceVersion

/-- Raises the desired generation where it is behind. A status that is already ahead stays as it is,
version included. -/
def catchUp : Except StatusError Watermarks :=
  if status.desired < generation then status.requestGeneration generation else .ok status

end Watermarks

/-! ### The snapshot -/

structure RelatedTargetSnapshot where
  target : EffectTarget
  consumerRevision : ConsumerRevision
  declaration : TargetDeclaration

/-- What is loaded for a claimed Target: the Target and those it shares Resources with, each under its
own identity. -/
structure ReconcileSnapshot where
  desired : DesiredState
  target : EffectTarget
  consumerRevision : ConsumerRevision
  declaration : TargetDeclaration
  resources : OrdSet EffectResourceId
  revisions : Map EffectRevisionId PublishedRevision
  relatedTargets : Map EffectTargetId RelatedTargetSnapshot
  keyed : ∀ identity (related : RelatedTargetSnapshot), relatedTargets[identity]? = some related →
    related.target.identity = identity
  targetStatus : Watermarks
  resourceStatuses : Map EffectResourceId Watermarks
  managed : Map EffectResourceId Ledger

inductive ReconcileError where
  | target (error : TargetError)
  | planner (error : PlannerError)
  | status (error : StatusError)
  | resourceMissing (resource : EffectResourceId)
  | resourceStatusMissing (resource : EffectResourceId)
  | adapter

/-- A complete candidate, or what blocks it. A plan is never executed in part: one condition on one
Resource holds back the plans of all. -/
inductive SnapshotPlan where
  | ready (snapshot : ReconcileSnapshot) (projection : TargetProjection)
      (contributors : Map EffectTargetId TargetProjection) (plans : Map EffectResourceId ResourcePlan)
  | blocked (snapshot : ReconcileSnapshot) (conditions : List ConditionProposal)

/-- What another Target brings to a Resource: its projection, or conditions. -/
structure Contribution where
  projection : Option TargetProjection
  conditions : List ConditionProposal

/-- What planning a Resource gives. The status moves also where the Resource is blocked, since it
was observed. -/
structure ResourceOutcome where
  resource : EffectResourceId
  status : Watermarks
  plan : Option ResourcePlan
  conditions : List ConditionProposal

/-- The condition comes under another owner. Its subject and code stay, so two conditions that
differed by owner alone now have one key. -/
def ConditionProposal.reown (owner : ConditionOwner) (condition : ConditionProposal) :
    ConditionProposal :=
  { condition with owner := owner }

namespace ReconcileSnapshot

section

variable (snapshot : ReconcileSnapshot)

/-- What the planner is given of a Target of the snapshot. -/
def planningInput (related : RelatedTargetSnapshot) : TargetPlanningInput :=
  { desired := snapshot.desired, target := related.target,
    consumerRevision := related.consumerRevision, declaration := related.declaration,
    resources := snapshot.resources, revisions := snapshot.revisions }

/-- The claimed Target as one of the related ones. -/
def claimed : RelatedTargetSnapshot :=
  ⟨snapshot.target, snapshot.consumerRevision, snapshot.declaration⟩

/-- The Targets that are bound to a Resource. The claimed Target is one of them, and contributes the
projection it already has. -/
def bound (resource : EffectResourceId) : List RelatedTargetSnapshot :=
  (Map.valueList snapshot.relatedTargets).filter fun related =>
    related.declaration.bindings.contains resource

/-- What a related Target brings to the plan. A condition that blocks it is reported as one of the
claimed Target's own. -/
def contribute (projection : TargetProjection)
    (related : RelatedTargetSnapshot) : Except ReconcileError Contribution :=
  if related.target.identity = projection.target then .ok ⟨some projection, []⟩
  else
    match projectTarget (snapshot.planningInput related) with
    | .error error => .error (.target error)
    | .ok (.projected projection) => .ok ⟨some projection, []⟩
    | .ok (.blocked conditions) =>
      .ok ⟨none, conditions.map (·.reown (.target snapshot.target.identity))⟩

end

/-- The requirements that the contributions have for a Resource; a Target that is blocked has none,
and its conditions hold the plan back. -/
def requirements (resource : EffectResourceId) (contributions : List Contribution) :
    List ResourceRequirement :=
  contributions.filterMap fun contribution =>
    contribution.projection.bind fun projection => projection.resourceRequirements[resource]?

variable [EffectDigest]

variable (snapshot : ReconcileSnapshot) (observe : EffectResourceId → Option ResourceObservation)

/-- Observes a Resource and plans it. The watermarks are moved before the planner runs, so a
regression is an error and not a plan. -/
def planOne
    (entry : EffectResourceId × List Contribution) : Except ReconcileError ResourceOutcome :=
  let (resource, contributions) := entry
  if snapshot.resources.contains resource = false then .error (.resourceMissing resource)
  else
    match observe resource with
    | none => .error .adapter
    | some observed =>
      match snapshot.resourceStatuses[resource]? with
      | none => .error (.resourceStatusMissing resource)
      | some status =>
        match (status.catchUp snapshot.desired.generation).bind
            (·.recordObserved snapshot.desired.generation) with
        | .error error => .error (.status error)
        | .ok status =>
          match planResource
              { resource := resource, generation := snapshot.desired.generation,
                requirements := requirements resource contributions,
                desiredEffects := snapshot.desired.effects.map fun _ effect => effect.toDesiredEffect,
                revisions := snapshot.revisions.map fun _ revision => revision.toEffectRevision,
                managed := (snapshot.managed[resource]?).getD ⟨[], nodup_nil, nodup_nil⟩,
                observed := observed } with
          | .error error => .error (.planner error)
          | .ok (.projected plan) => .ok ⟨resource, status, some plan, []⟩
          | .ok (.blocked conditions) => .ok ⟨resource, status, none, conditions⟩

/-- The rest of the plan, once the claimed Target is projected. The conditions of the Targets come
before those of the Resources, Resource by Resource. -/
def planProjected (projection : TargetProjection) : Except ReconcileError SnapshotPlan := do
  let resources := projection.resourceRequirements.keys
  let contributions ← resources.mapM fun resource =>
    (snapshot.bound resource).mapM (snapshot.contribute projection)
  let outcomes ← (resources.zip contributions).mapM (snapshot.planOne observe)
  let observed : ReconcileSnapshot :=
    { snapshot with
      resourceStatuses := Map.insertEntries
        (fun outcome : ResourceOutcome => some (outcome.resource, outcome.status)) outcomes
        snapshot.resourceStatuses }
  let conditions := (contributions.flatMap fun contributions =>
    contributions.flatMap (·.conditions)) ++ outcomes.flatMap (·.conditions)
  if conditions ≠ [] then return .blocked observed conditions
  return .ready observed projection
    (Map.insertEntries (fun projection : TargetProjection => some (projection.target, projection))
      (projection :: contributions.flatMap fun contributions => contributions.filterMap (·.projection)) ∅)
    (Map.insertEntries (fun outcome : ResourceOutcome =>
      outcome.plan.map fun plan => (outcome.resource, plan)) outcomes ∅)

/-- `EffectReconciler::plan_snapshot`. Where the claimed Target itself is blocked, no other Target
is asked and no Resource is observed. -/
def planSnapshot : Except ReconcileError SnapshotPlan :=
  match snapshot.targetStatus.catchUp snapshot.desired.generation with
  | .error error => .error (.status error)
  | .ok status =>
    match projectTarget (snapshot.planningInput snapshot.claimed) with
    | .error error => .error (.target error)
    | .ok (.blocked conditions) => .ok (.blocked { snapshot with targetStatus := status } conditions)
    | .ok (.projected projection) =>
      match status.recordObserved snapshot.desired.generation with
      | .error error => .error (.status error)
      | .ok status => { snapshot with targetStatus := status }.planProjected observe projection

end ReconcileSnapshot

/-! ### The table of conditions -/

/-- A row of `effect_conditions`: a proposal with the span of time in which it was observed. -/
structure ConditionRow where
  proposal : ConditionProposal
  firstObservedAt : Int
  lastObservedAt : Int

/-- The unique key of the table. It has no Resource in it, so a condition that two Resources bring
for one owner cannot be stored twice. -/
def ConditionRow.key (row : ConditionRow) : ConditionOwner × ConditionSubject × String :=
  row.proposal.key

/-- A proposal as it is stored; a condition that was there keeps when it was first observed. -/
def ConditionRow.observed (existing : List ConditionRow) (observedAt : Int)
    (proposal : ConditionProposal) : ConditionRow :=
  match existing.find? fun row => decide (row.key = proposal.key) with
  | some row => ⟨proposal, row.firstObservedAt, max row.lastObservedAt observedAt⟩
  | none => ⟨proposal, observedAt, observedAt⟩

/-- Replaces the conditions of an owner; nothing where a row violates the key. -/
def replaceConditions (observedAt : Int) (table : List ConditionRow)
    (group : ConditionOwner × List ConditionProposal) : Option (List ConditionRow) :=
  let existing := table.filter fun row => decide (row.proposal.owner = group.1)
  let others := table.filter fun row => decide (row.proposal.owner ≠ group.1)
  UniqueKey.insertAll ConditionRow.key others
    (group.2.map (ConditionRow.observed existing observedAt))

/-- The conditions of each owner. They are replaced owner by owner, because a row is kept by its
owner and not by the plan it came from. -/
def groupConditions (conditions : List ConditionProposal) :
    List (ConditionOwner × List ConditionProposal) :=
  (conditions.map (·.owner)).dedup.map fun owner =>
    (owner, conditions.filter fun condition => decide (condition.owner = owner))

/-- What `block_target` records of the conditions. A Target without conditions of its own loses those
it had. -/
def recordBlocked (table : List ConditionRow) (target : EffectTargetId) (observedAt : Int)
    (conditions : List ConditionProposal) : Option (List ConditionRow) := do
  let table ← (groupConditions conditions).foldlM (replaceConditions observedAt) table
  if .target target ∈ conditions.map (·.owner) then some table
  else replaceConditions observedAt table (.target target, [])

/-! ### The conditions of a Resource -/

variable {conditions : List ConditionProposal} {condition : ConditionProposal}

namespace SkillPlanner

section Resource

variable [EffectDigest] {input : ResourcePlanningInput} {contract : MaterializationContract}

/-- What a pass of the loop over the desired identities adds: a condition or an item. -/
theorem resolve_cases {acc after : Resolution} {desiredId : DesiredEffectIdentity}
    (h : resolve input contract acc desiredId = .ok after) :
    (∃ condition, condition.owner = .resource input.resource ∧
        condition.subject = .desiredEffect desiredId ∧
        condition.code ≠ "preserved_item_conflict" ∧
        after.conditions = acc.conditions ++ [condition] ∧ after.items = acc.items) ∨
      ∃ item, item.desiredEffect = desiredId ∧ after.conditions = acc.conditions ∧
        after.items = acc.items.insert item.managedIdentity item := by
  unfold resolve at h
  split at h
  · cases h
  split at h
  · cases h
    exact .inl ⟨_, rfl, rfl, by simp [blockingCondition], rfl, rfl⟩
  obtain ⟨native, -, h⟩ := bind_eq_ok.mp h
  dsimp only at h
  split at h
  · cases h
    exact .inl ⟨_, rfl, rfl, by simp [blockingCondition], rfl, rfl⟩
  · split at h
    · cases h
    · cases h
      exact .inr ⟨_, rfl, rfl, rfl⟩

/-- What the loop has found for the identities it has seen: a condition on some, an item for some. -/
structure Found (input : ResourcePlanningInput) (seen : List DesiredEffectIdentity)
    (acc : Resolution) : Prop where
  conditions : ∀ condition ∈ acc.conditions, condition.owner = .resource input.resource ∧
    condition.code ≠ "preserved_item_conflict" ∧
    ∃ desiredId ∈ seen, condition.subject = .desiredEffect desiredId
  distinct : (acc.conditions.map (·.subject)).Nodup
  keyed : ∀ (identity : ManagedIdentity) item, acc.items[identity]? = some item →
    item.managedIdentity = identity
  items : ∀ (identity : ManagedIdentity) item, acc.items[identity]? = some item →
    item.desiredEffect ∈ seen
  apart : ∀ (identity identity' : ManagedIdentity) item item',
    acc.items[identity]? = some item → acc.items[identity']? = some item' →
      item.desiredEffect = item'.desiredEffect → identity = identity'

theorem Found.resolve {seen : List DesiredEffectIdentity} {acc after : Resolution}
    {desiredId : DesiredEffectIdentity} (h : Found input seen acc) (hnew : desiredId ∉ seen)
    (hresolve : SkillPlanner.resolve input contract acc desiredId = .ok after) :
    Found input (seen ++ [desiredId]) after := by
  have hseen : ∀ condition ∈ acc.conditions, condition.owner = .resource input.resource ∧
      condition.code ≠ "preserved_item_conflict" ∧
      ∃ other ∈ seen ++ [desiredId], condition.subject = .desiredEffect other := by
    intro condition hcondition
    obtain ⟨howner, hcode, other, hmem, hsubject⟩ := h.conditions condition hcondition
    exact ⟨howner, hcode, other, mem_append_left _ hmem, hsubject⟩
  rcases resolve_cases hresolve with
    ⟨condition, howner, hsubject, hcode, hconditions, hitems⟩ | ⟨item, hitem, hconditions, hitems⟩
  · refine ⟨?_, ?_, hitems ▸ h.keyed, ?_, hitems ▸ h.apart⟩
    · rw [hconditions]
      exact forall_mem_append.mpr ⟨hseen,
        forall_mem_singleton.mpr ⟨howner, hcode, desiredId, by simp, hsubject⟩⟩
    · rw [hconditions]
      refine UniqueKey.nodup_snoc h.distinct fun old hold heq => ?_
      obtain ⟨-, -, earlier, hearlier, hsame⟩ := h.conditions old hold
      rw [heq, hsubject] at hsame
      exact hnew (ConditionSubject.desiredEffect.inj hsame ▸ hearlier)
    · rw [hitems]
      exact fun identity item hitem => mem_append_left _ (h.items identity item hitem)
  · have hcases : ∀ (identity : ManagedIdentity) other, after.items[identity]? = some other →
        (identity = item.managedIdentity ∧ other = item) ∨ acc.items[identity]? = some other := by
      intro identity other hother
      rw [hitems, Map.getElem?_insert] at hother
      split at hother
      next heq => exact .inl ⟨heq.symm, (Option.some.inj hother).symm⟩
      next => exact .inr hother
    refine ⟨hconditions ▸ hseen, hconditions ▸ h.distinct, ?_, ?_, ?_⟩
    · intro identity other hother
      rcases hcases identity other hother with ⟨rfl, rfl⟩ | hold
      · rfl
      · exact h.keyed identity other hold
    · intro identity other hother
      rcases hcases identity other hother with ⟨-, rfl⟩ | hold
      · simp [hitem]
      · exact mem_append_left _ (h.items identity other hold)
    · intro identity identity' other other' hother hother' heq
      rcases hcases identity other hother with ⟨rfl, rfl⟩ | hold <;>
        rcases hcases identity' other' hother' with ⟨rfl, rfl⟩ | hold'
      · rfl
      · exact absurd (hitem ▸ heq ▸ h.items identity' other' hold') hnew
      · exact absurd (hitem ▸ heq ▸ h.items identity other hold) hnew
      · exact h.apart identity identity' other other' hold hold' heq

theorem Found.foldlM {seen desiredIds : List DesiredEffectIdentity} {acc after : Resolution}
    (h : Found input seen acc) (hnodup : (seen ++ desiredIds).Nodup)
    (hfold : desiredIds.foldlM (SkillPlanner.resolve input contract) acc = .ok after) :
    Found input (seen ++ desiredIds) after := by
  induction desiredIds generalizing seen acc with
  | nil =>
    cases hfold
    rwa [append_nil]
  | cons desiredId desiredIds ih =>
    rw [foldlM_cons] at hfold
    obtain ⟨next, hnext, hrest⟩ := bind_eq_ok.mp hfold
    have hnew : desiredId ∉ seen := by
      intro hmem
      exact (nodup_append.mp hnodup).2.2 _ hmem _ mem_cons_self rfl
    have hsplit : seen ++ desiredId :: desiredIds = (seen ++ [desiredId]) ++ desiredIds := by simp
    rw [hsplit] at hnodup ⊢
    exact ih (h.resolve hnew hnext) hnodup hrest

omit [EffectDigest] in
theorem found_empty (input : ResourcePlanningInput) : Found input [] ⟨[], ∅, ∅⟩ where
  conditions := nofun
  distinct := nodup_nil
  keyed := fun _ _ h => by simp at h
  items := fun _ _ h => by simp at h
  apart := fun _ _ _ _ h => by simp at h

omit [EffectDigest] in
/-- The conditions of the loop and those for preserved items have different keys. -/
theorem Found.nodup {seen : List DesiredEffectIdentity} {acc : Resolution} (h : Found input seen acc)
    (kept : List PreservedItem) :
    ((acc.conditions ++ preservedConflicts input kept acc.items).map (·.key)).Nodup := by
  rw [map_append, nodup_append]
  refine ⟨?_, ?_, ?_⟩
  · refine List.Nodup.of_map (fun key => key.2.1) ?_
    rw [map_map]
    exact h.distinct
  · have hitems : ((Map.valueList acc.items).map (·.desiredEffect)).Nodup :=
      pairwise_map.mpr (Map.pairwise_valueList_of_inj (h.apart _ _ _ _))
    refine List.Nodup.of_map (fun key => key.2.1) ?_
    simp only [preservedConflicts, map_map]
    have hsublist : ((Map.valueList acc.items).filter fun item =>
        kept.any (·.nativeIdentity == item.nativeIdentity)).map (·.desiredEffect) |>.Nodup :=
      hitems.sublist (filter_sublist.map _)
    have hsubjects := hsublist.map fun _ _ heq => ConditionSubject.desiredEffect.inj heq
    rwa [map_map] at hsubjects
  · intro key hkey other hother heq
    obtain ⟨condition, hcondition, rfl⟩ := mem_map.mp hkey
    obtain ⟨conflict, hconflict, rfl⟩ := mem_map.mp hother
    have hcode : condition.code = conflict.code := congrArg (fun key => key.2.2) heq
    obtain ⟨item, -, rfl⟩ := mem_map.mp hconflict
    exact (h.conditions condition hcondition).2.1 hcode

omit [EffectDigest] in
theorem planRow_error {generation : Generation} {owner : ConditionOwner}
    {observed : Map ManagedIdentity ObservedItem}
    {items : Map ManagedIdentity ResolvedMaterialization} {row : ManagedItem}
    (h : rowCondition (planRow generation owner observed items row) = some condition) :
    condition.owner = owner ∧ condition.subject = .managedItem row.identity := by
  unfold planRow at h
  split at h
  · cases h
  · cases h
  split at h
  · cases h
    exact ⟨rfl, rfl⟩
  · split at h
    · cases h
    · split at h <;> cases h

/-- The conditions of a blocked Resource are its own, and of different keys. -/
theorem planResource_blocked (h : planResource input = .ok (.blocked conditions)) :
    (conditions.map (·.key)).Nodup ∧
      ∀ condition ∈ conditions, condition.owner = .resource input.resource := by
  simp only [planResource] at h
  obtain ⟨-, h⟩ := if_throw_eq_ok.mp h
  obtain ⟨-, h⟩ := if_throw_eq_ok.mp h
  split at h
  next condition hcontract =>
    cases h
    have howner : condition.owner = .resource input.resource := by
      unfold materializationContract at hcontract
      dsimp only at hcontract
      split at hcontract
      · cases hcontract
        rfl
      · split at hcontract
        · cases hcontract
          rfl
        · cases hcontract
    exact ⟨nodup_singleton _, by simp [howner]⟩
  next contract _ =>
    obtain ⟨resolution, hresolution, h⟩ := bind_eq_ok.mp h
    have hfound : Found input ([] ++ (desiredIds input).toList) resolution :=
      (found_empty input).foldlM (desiredIds_nodup input) hresolution
    split at h
    next =>
      cases h
      refine ⟨hfound.nodup _, ?_⟩
      intro condition hcondition
      rcases mem_append.mp hcondition with hcondition | hcondition
      · exact (hfound.conditions condition hcondition).1
      · obtain ⟨item, -, rfl⟩ := mem_map.mp hcondition
        rfl
    next =>
      split at h
      · cases h
      split at h
      next =>
        cases h
        simp only [planChanges, filterMap_map]
        refine ⟨?_, ?_⟩
        · have hrows := input.managed.identities_nodup.map fun _ _ heq =>
            ConditionSubject.managedItem.inj heq
          rw [map_map] at hrows
          exact nodup_keys_filterMap hrows fun row _ condition h => (planRow_error h).2
        · intro condition hcondition
          obtain ⟨row, -, h⟩ := mem_filterMap.mp hcondition
          exact (planRow_error h).1
      next => cases h

end Resource

end SkillPlanner

/-! ### The conditions of a snapshot -/

namespace ReconcileSnapshot

variable {snapshot after : ReconcileSnapshot}

/-- The conditions a related Target brings. They do not depend on the Resource it is asked for,
which is why one that shares two Resources brings them twice. -/
def brought (snapshot : ReconcileSnapshot) (related : RelatedTargetSnapshot) :
    List ConditionProposal :=
  if related.target.identity = snapshot.target.identity then []
  else
    match projectTarget (snapshot.planningInput related) with
    | .ok (.blocked conditions) => conditions.map (·.reown (.target snapshot.target.identity))
    | _ => []

variable {projection : TargetProjection}

theorem projected_target (h : projectTarget (snapshot.planningInput snapshot.claimed) =
      .ok (.projected projection)) : projection.target = snapshot.target.identity := by
  obtain ⟨-, -, h⟩ := bind_eq_ok.mp h
  split at h
  · cases h
  · cases h
    rfl

variable {related : RelatedTargetSnapshot}

theorem contribute_conditions {contribution : Contribution}
    (htarget : projection.target = snapshot.target.identity)
    (h : snapshot.contribute projection related = .ok contribution) :
    contribution.conditions = snapshot.brought related := by
  unfold contribute at h
  rw [htarget] at h
  unfold brought
  split at h
  next hself =>
    cases h
    rw [if_pos hself]
  rename_i hother
  rw [if_neg hother]
  split at h
  next => cases h
  next hproject =>
    cases h
    rw [hproject]
  next hproject =>
    cases h
    rw [hproject]

theorem flatMap_eq_of_forall₂ {α β γ : Type} {f : α → List γ} {g : β → List γ} {as : List α}
    {bs : List β} (h : List.Forall₂ (fun a b => g b = f a) as bs) : bs.flatMap g = as.flatMap f := by
  induction h with
  | nil => rfl
  | cons hab _ ih => rw [flatMap_cons, flatMap_cons, hab, ih]

theorem nodup_keys (m : Map EffectResourceId ResourceRequirement) : m.keys.Nodup :=
  m.distinct_keys.imp fun hne heq => hne (Std.LawfulEqOrd.compare_eq_iff_eq.mpr heq)

variable [EffectDigest] {observe : EffectResourceId → Option ResourceObservation}

theorem planOne_outcome {entry : EffectResourceId × List Contribution} {outcome : ResourceOutcome}
    (h : snapshot.planOne observe entry = .ok outcome) :
    outcome.resource = entry.1 ∧ (outcome.conditions.map (·.key)).Nodup ∧
      ∀ condition ∈ outcome.conditions, condition.owner = .resource entry.1 := by
  unfold planOne at h
  dsimp only at h
  split at h
  · cases h
  split at h
  · cases h
  split at h
  · cases h
  split at h
  · cases h
  split at h
  next => cases h
  next =>
    cases h
    exact ⟨rfl, nodup_nil, nofun⟩
  next hplan =>
    cases h
    exact ⟨rfl, planResource_blocked hplan⟩

/-- The conditions of a blocked plan: those the Targets bound to each required Resource bring, then
those of the Resources. -/
structure Collected (snapshot : ReconcileSnapshot) (projection : TargetProjection)
    (conditions : List ConditionProposal) (outcomes : List ResourceOutcome) : Prop where
  projected : projectTarget (snapshot.planningInput snapshot.claimed) =
    .ok (.projected projection)
  conditions : conditions = (projection.resourceRequirements.keys.flatMap fun resource =>
    (snapshot.bound resource).flatMap snapshot.brought) ++ outcomes.flatMap (·.conditions)
  resources : (outcomes.map (·.resource)).Nodup
  nodup : ∀ outcome ∈ outcomes, (outcome.conditions.map (·.key)).Nodup
  owners : ∀ outcome ∈ outcomes, ∀ condition ∈ outcome.conditions,
    condition.owner = .resource outcome.resource

theorem planProjected_blocked
    (hprojected : projectTarget (snapshot.planningInput snapshot.claimed) =
      .ok (.projected projection))
    (h : snapshot.planProjected observe projection = .ok (.blocked after conditions)) :
    ∃ outcomes, Collected snapshot projection conditions outcomes := by
  simp only [planProjected] at h
  obtain ⟨contributions, hcontributions, h⟩ := bind_eq_ok.mp h
  obtain ⟨outcomes, houtcomes, h⟩ := bind_eq_ok.mp h
  rw [mapM_eq_ok] at hcontributions houtcomes
  split at h
  next =>
    cases h
    have hcontributed : (contributions.flatMap fun contributions =>
        contributions.flatMap (·.conditions)) = projection.resourceRequirements.keys.flatMap
          fun resource => (snapshot.bound resource).flatMap snapshot.brought := by
      refine flatMap_eq_of_forall₂ (hcontributions.imp ?_)
      intro resource contributions hmapM
      rw [mapM_eq_ok] at hmapM
      refine flatMap_eq_of_forall₂ (hmapM.imp ?_)
      intro related contribution hcontribute
      exact contribute_conditions (projected_target hprojected) hcontribute
    have hresources : outcomes.map (·.resource) =
        (projection.resourceRequirements.keys.zip contributions).map (·.1) :=
      map_eq_map houtcomes fun _ _ hone => (planOne_outcome hone).1
    refine ⟨outcomes, hprojected, by rw [hcontributed], ?_, ?_, ?_⟩
    · rw [hresources, map_fst_zip hcontributions.length_eq.le]
      exact nodup_keys _
    · intro outcome houtcome
      obtain ⟨entry, -, hone⟩ := exists_left houtcomes houtcome
      exact (planOne_outcome hone).2.1
    · intro outcome houtcome condition hcondition
      obtain ⟨entry, -, hone⟩ := exists_left houtcomes houtcome
      rw [(planOne_outcome hone).1]
      exact (planOne_outcome hone).2.2 condition hcondition
  next => cases h

theorem planSnapshot_blocked (h : snapshot.planSnapshot observe = .ok (.blocked after conditions)) :
    projectTarget (snapshot.planningInput snapshot.claimed) =
        .ok (.blocked conditions) ∨
      ∃ projection outcomes, Collected snapshot projection conditions outcomes := by
  unfold planSnapshot at h
  split at h
  · cases h
  split at h
  next => cases h
  next hproject =>
    cases h
    exact .inl hproject
  rename_i projection hproject
  split at h
  next => cases h
  rename_i status _
  right
  have hsame : projectTarget
      (planningInput { snapshot with targetStatus := status }
        (claimed { snapshot with targetStatus := status })) = .ok (.projected projection) :=
    hproject
  obtain ⟨outcomes, hcollected⟩ := planProjected_blocked hsame h
  exact ⟨projection, outcomes, hcollected.projected, hcollected.conditions,
    hcollected.resources, hcollected.nodup, hcollected.owners⟩

/-- Another Target than the claimed one is bound to a Resource that the claimed one requires, and is
blocked. -/
structure Disputes (snapshot : ReconcileSnapshot) (projection : TargetProjection)
    (resource : EffectResourceId) (related : RelatedTargetSnapshot)
    (conditions : List ConditionProposal) : Prop where
  required : resource ∈ projection.resourceRequirements.keys
  shared : related ∈ snapshot.bound resource
  other : related.target.identity ≠ snapshot.target.identity
  blocked : projectTarget (snapshot.planningInput related) = .ok (.blocked conditions)

/-- A blocked Target shares one Resource with the claimed one, and no two blocked Targets are blocked
on one subject with one code. This is asked only where the claimed Target is not blocked itself. -/
structure Undisputed (snapshot : ReconcileSnapshot) : Prop where
  once : ∀ projection, projectTarget (snapshot.planningInput snapshot.claimed) =
      .ok (.projected projection) → ∀ related resource resource' conditions conditions',
    snapshot.Disputes projection resource related conditions →
    snapshot.Disputes projection resource' related conditions' → resource = resource'
  apart : ∀ projection, projectTarget (snapshot.planningInput snapshot.claimed) =
      .ok (.projected projection) →
    ∀ related related' resource resource' conditions conditions',
      snapshot.Disputes projection resource related conditions →
      snapshot.Disputes projection resource' related' conditions' →
      related.target.identity ≠ related'.target.identity →
      ∀ condition ∈ conditions, ∀ condition' ∈ conditions',
        condition.subject = condition'.subject → condition.code ≠ condition'.code

section Disputes

omit [EffectDigest]

variable {resource : EffectResourceId}

theorem mem_bound :
    related ∈ snapshot.bound resource ↔
      (∃ identity : EffectTargetId, snapshot.relatedTargets[identity]? = some related) ∧
        related.declaration.bindings.contains resource = true := by
  rw [bound, mem_filter, Map.mem_valueList]

theorem disputes_of_mem_brought (hrequired : resource ∈ projection.resourceRequirements.keys)
    (hrelated : related ∈ snapshot.bound resource) (h : condition ∈ snapshot.brought related) :
    ∃ conditions, snapshot.Disputes projection resource related conditions ∧
      ∃ own ∈ conditions, condition = own.reown (.target snapshot.target.identity) := by
  unfold brought at h
  split at h
  · cases h
  rename_i hother
  split at h
  next conditions hblocked =>
    obtain ⟨own, hown, rfl⟩ := mem_map.mp h
    exact ⟨conditions, ⟨hrequired, hrelated, hother, hblocked⟩, own, hown, rfl⟩
  next => cases h

theorem Disputes.brought (h : snapshot.Disputes projection resource related conditions) :
    snapshot.brought related = conditions.map (·.reown (.target snapshot.target.identity)) := by
  unfold ReconcileSnapshot.brought
  simp only [if_neg h.other, h.blocked]

theorem reown_key (owner : ConditionOwner) (condition : ConditionProposal) :
    (condition.reown owner).key = (owner, condition.subject, condition.code) := rfl

theorem nodup_brought (snapshot : ReconcileSnapshot) (related : RelatedTargetSnapshot) :
    ((snapshot.brought related).map (·.key)).Nodup := by
  unfold ReconcileSnapshot.brought
  split
  · exact nodup_nil
  split
  next conditions hblocked =>
    obtain ⟨-, hnodup, howner⟩ := projectTarget_blocked hblocked
    rw [map_map]
    refine pairwise_map.mpr ((pairwise_map.mp hnodup).imp_of_mem ?_)
    intro condition other hcondition hother hne heq
    refine hne ?_
    simp only [Function.comp, reown_key, Prod.mk.injEq, true_and] at heq
    rw [ConditionProposal.key, ConditionProposal.key, howner condition hcondition,
      howner other hother, heq.1, heq.2]
  next => exact nodup_nil

/-- The keys that the Targets bound to a Resource bring. -/
def broughtKeys (snapshot : ReconcileSnapshot) (resource : EffectResourceId) :
    List (ConditionOwner × ConditionSubject × String) :=
  (snapshot.bound resource).flatMap fun related => (snapshot.brought related).map (·.key)

theorem mem_broughtKeys_of_disputes (h : snapshot.Disputes projection resource related conditions)
    (hcondition : condition ∈ conditions) :
    (.target snapshot.target.identity, condition.subject, condition.code) ∈
      (snapshot.brought related).map (·.key) := by
  rw [h.brought, map_map]
  exact mem_map.mpr ⟨condition, hcondition, rfl⟩

/-- Two disputes with a key in common are one, if the snapshot is undisputed. -/
theorem Undisputed.unique (h : snapshot.Undisputed)
    (hprojected : projectTarget (snapshot.planningInput snapshot.claimed) =
      .ok (.projected projection)) {resource resource' : EffectResourceId}
    {related related' : RelatedTargetSnapshot} {key : ConditionOwner × ConditionSubject × String}
    (hrequired : resource ∈ projection.resourceRequirements.keys)
    (hrequired' : resource' ∈ projection.resourceRequirements.keys)
    (hrelated : related ∈ snapshot.bound resource) (hrelated' : related' ∈ snapshot.bound resource')
    (hkey : key ∈ (snapshot.brought related).map (·.key))
    (hkey' : key ∈ (snapshot.brought related').map (·.key)) :
    related = related' ∧ resource = resource' := by
  obtain ⟨condition, hcondition, rfl⟩ := mem_map.mp hkey
  obtain ⟨condition', hcondition', heq⟩ := mem_map.mp hkey'
  obtain ⟨conditions, hdisputes, own, hown, rfl⟩ :=
    disputes_of_mem_brought hrequired hrelated hcondition
  obtain ⟨conditions', hdisputes', own', hown', rfl⟩ :=
    disputes_of_mem_brought hrequired' hrelated' hcondition'
  simp only [reown_key, Prod.mk.injEq, true_and] at heq
  have hsame : related.target.identity = related'.target.identity := by
    by_contra hne
    exact h.apart projection hprojected _ _ _ _ _ _ hdisputes hdisputes' hne own hown own' hown'
      heq.1.symm heq.2.symm
  -- a related Target is known by its identity
  obtain rfl : related = related' := by
    obtain ⟨⟨identity, hfound⟩, -⟩ := mem_bound.mp hrelated
    obtain ⟨⟨identity', hfound'⟩, -⟩ := mem_bound.mp hrelated'
    rw [snapshot.keyed identity related hfound, snapshot.keyed identity' related' hfound'] at hsame
    rw [hsame, hfound'] at hfound
    exact (Option.some.inj hfound).symm
  exact ⟨rfl, h.once projection hprojected _ _ _ _ _ hdisputes hdisputes'⟩

/-- What the Targets bring has different keys exactly in an undisputed snapshot. -/
theorem nodup_broughtKeys_iff
    (hprojected : projectTarget (snapshot.planningInput snapshot.claimed) =
      .ok (.projected projection)) :
    (projection.resourceRequirements.keys.flatMap snapshot.broughtKeys).Nodup ↔
      snapshot.Undisputed := by
  have hunique : ∀ other, projectTarget (snapshot.planningInput snapshot.claimed) =
      .ok (.projected other) → other = projection := by
    intro other hother
    rw [hprojected] at hother
    cases hother
    rfl
  constructor
  · intro h
    have hresources : ∀ {related related' : RelatedTargetSnapshot} {resource resource' conditions
        conditions' condition condition'},
        snapshot.Disputes projection resource related conditions →
        snapshot.Disputes projection resource' related' conditions' →
        condition ∈ conditions → condition' ∈ conditions' →
        condition.subject = condition'.subject → condition.code = condition'.code →
        resource = resource' := by
      intro related related' resource resource' conditions conditions' condition condition' hd hd'
        hmem hmem' hsubject hcode
      refine UniqueKey.eq_of_nodup_flatMap h hd.required hd'.required
        (mem_flatMap.mpr ⟨related, hd.shared, mem_broughtKeys_of_disputes hd hmem⟩)
        (mem_flatMap.mpr ⟨related', hd'.shared, ?_⟩)
      rw [hsubject, hcode]
      exact mem_broughtKeys_of_disputes hd' hmem'
    refine ⟨?_, ?_⟩
    · intro other hother related resource resource' conditions conditions' hd hd'
      obtain rfl := hunique other hother
      have hsame : conditions = conditions' := by
        have hblocked := hd.blocked
        rw [hd'.blocked] at hblocked
        cases hblocked
        rfl
      subst hsame
      obtain ⟨condition, hmem⟩ :=
        exists_mem_of_ne_nil _ (projectTarget_blocked hd.blocked).1
      exact hresources hd hd' hmem hmem rfl rfl
    · intro other hother related related' resource resource' conditions conditions' hd hd' hne
        condition hmem condition' hmem' hsubject hcode
      obtain rfl := hunique other hother
      obtain rfl := hresources hd hd' hmem hmem' hsubject hcode
      have hinner := (nodup_flatMap.mp h).1 resource hd.required
      refine hne (congrArg (·.target.identity) (UniqueKey.eq_of_nodup_flatMap hinner hd.shared
        hd'.shared (mem_broughtKeys_of_disputes hd hmem) ?_))
      rw [hsubject, hcode]
      exact mem_broughtKeys_of_disputes hd' hmem'
  · intro h
    refine nodup_flatMap.mpr ⟨?_, ?_⟩
    · intro resource hrequired
      refine nodup_flatMap.mpr ⟨fun related _ => snapshot.nodup_brought related, ?_⟩
      have hbound : (snapshot.bound resource).Pairwise fun related related' =>
          related.target.identity ≠ related'.target.identity :=
        (Map.pairwise_valueList snapshot.keyed).sublist filter_sublist
      refine hbound.imp_of_mem ?_
      intro related related' hrelated hrelated' hne key hkey hkey'
      exact hne (by rw [(h.unique hprojected hrequired hrequired hrelated hrelated' hkey hkey').1])
    · refine (nodup_keys _).pairwise_of_forall_ne ?_
      intro resource hrequired resource' hrequired' hne key hkey hkey'
      obtain ⟨related, hrelated, hkey⟩ := mem_flatMap.mp hkey
      obtain ⟨related', hrelated', hkey'⟩ := mem_flatMap.mp hkey'
      exact hne (h.unique hprojected hrequired hrequired' hrelated hrelated' hkey hkey').2

end Disputes

/-- The conditions of a blocked plan have different keys exactly in an undisputed snapshot. -/
theorem nodup_conditions_iff (h : snapshot.planSnapshot observe = .ok (.blocked after conditions)) :
    (conditions.map (·.key)).Nodup ↔ snapshot.Undisputed := by
  rcases planSnapshot_blocked h with hblocked | ⟨projection, outcomes, hcollected⟩
  · refine iff_of_true (projectTarget_blocked hblocked).2.1 ⟨?_, ?_⟩ <;>
      · intro projection hprojected
        rw [hblocked] at hprojected
        cases hprojected
  · rw [← nodup_broughtKeys_iff hcollected.projected, hcollected.conditions, map_append,
      nodup_append, map_flatMap]
    have hbrought : (projection.resourceRequirements.keys.flatMap fun resource =>
        ((snapshot.bound resource).flatMap snapshot.brought).map (·.key)) =
          projection.resourceRequirements.keys.flatMap snapshot.broughtKeys := by
      refine flatMap_congr fun resource _ => ?_
      rw [broughtKeys, map_flatMap]
    rw [hbrought]
    constructor
    · exact fun hnodup => hnodup.1
    · intro hnodup
      refine ⟨hnodup, ?_, ?_⟩
      · rw [map_flatMap, nodup_flatMap]
        refine ⟨hcollected.nodup, ?_⟩
        refine (pairwise_map.mp hcollected.resources).imp_of_mem ?_
        intro outcome outcome' houtcome houtcome' hne key hkey hkey'
        obtain ⟨condition, hcondition, rfl⟩ := mem_map.mp hkey
        obtain ⟨condition', hcondition', heq⟩ := mem_map.mp hkey'
        have howner : condition'.owner = condition.owner := congrArg (fun key => key.1) heq
        rw [hcollected.owners outcome houtcome condition hcondition,
          hcollected.owners outcome' houtcome' condition' hcondition'] at howner
        exact hne (ConditionOwner.resource.inj howner).symm
      · -- Targets and Resources are different owners
        intro key hkey other hother heq
        obtain ⟨resource, hrequired, hkey⟩ := mem_flatMap.mp hkey
        obtain ⟨related, hrelated, hkey⟩ := mem_flatMap.mp hkey
        obtain ⟨condition, hcondition, rfl⟩ := mem_map.mp hkey
        obtain ⟨-, -, own, -, rfl⟩ := disputes_of_mem_brought hrequired hrelated hcondition
        obtain ⟨condition', hcondition', rfl⟩ := mem_map.mp hother
        obtain ⟨outcome, houtcome, hcondition'⟩ := mem_flatMap.mp hcondition'
        have howner : ConditionOwner.target snapshot.target.identity = condition'.owner :=
          congrArg (fun key => key.1) heq
        rw [hcollected.owners outcome houtcome condition' hcondition'] at howner
        cases howner

end ReconcileSnapshot

/-! ### Recording -/

theorem ConditionRow.observed_key (existing : List ConditionRow) (observedAt : Int)
    (proposal : ConditionProposal) :
    (ConditionRow.observed existing observedAt proposal).key = proposal.key := by
  unfold ConditionRow.observed
  split <;> rfl

/-- The conditions of an owner can be replaced exactly when their keys are different. -/
theorem isSome_replaceConditions (observedAt : Int) (table : List ConditionRow)
    {group : ConditionOwner × List ConditionProposal}
    (howner : ∀ condition ∈ group.2, condition.owner = group.1) :
    (replaceConditions observedAt table group).isSome ↔ (group.2.map (·.key)).Nodup := by
  unfold replaceConditions
  dsimp only
  rw [UniqueKey.isSome_insertAll_iff, map_map]
  have hkeys : ∀ existing, group.2.map (ConditionRow.key ∘ ConditionRow.observed existing observedAt) =
      group.2.map (·.key) := by
    intro existing
    exact map_congr_left fun proposal _ => ConditionRow.observed_key existing observedAt proposal
  rw [hkeys]
  refine and_iff_left ?_
  intro row hrow hmem
  obtain ⟨proposal, hproposal, rfl⟩ := mem_map.mp hrow
  obtain ⟨other, hother, heq⟩ := mem_map.mp hmem
  rw [mem_filter, decide_eq_true_iff] at hother
  rw [ConditionRow.observed_key] at heq
  have hsame : other.proposal.owner = proposal.owner := congrArg (fun key => key.1) heq
  exact hother.2 (hsame.trans (howner proposal hproposal))

/-- Groups can be replaced one after the other when each can. -/
theorem isSome_foldlM_replaceConditions (observedAt : Int) (table : List ConditionRow)
    {groups : List (ConditionOwner × List ConditionProposal)}
    (howner : ∀ group ∈ groups, ∀ condition ∈ group.2, condition.owner = group.1) :
    (groups.foldlM (replaceConditions observedAt) table).isSome ↔
      ∀ group ∈ groups, (group.2.map (·.key)).Nodup := by
  induction groups generalizing table with
  | nil => simp
  | cons group groups ih =>
    have hgroup := isSome_replaceConditions observedAt table (howner group mem_cons_self)
    rw [foldlM_cons, forall_mem_cons, ← hgroup]
    cases hreplaced : replaceConditions observedAt table group with
    | none => simp
    | some next =>
      simp only [Option.bind_eq_bind, Option.bind_some, Option.isSome_some, true_and]
      exact ih next fun other hother => howner other (mem_cons_of_mem _ hother)

/-- Keys are different when they are among the conditions of each owner. -/
theorem nodup_keys_iff_groups (conditions : List ConditionProposal) :
    (∀ group ∈ groupConditions conditions, (group.2.map (·.key)).Nodup) ↔
      (conditions.map (·.key)).Nodup := by
  constructor
  · intro h
    refine pairwise_map.mpr (pairwise_iff_forall_sublist.mpr ?_)
    intro condition other hsublist heq
    have howner : other.owner = condition.owner := congrArg (fun key => key.1) heq.symm
    have hmem : condition ∈ conditions := hsublist.subset mem_cons_self
    have hgroup := h _ (mem_map.mpr ⟨condition.owner,
      mem_dedup.mpr (mem_map_of_mem hmem), rfl⟩)
    have hboth := hsublist.filter fun c => decide (c.owner = condition.owner)
    simp only [howner, decide_true, filter_cons_of_pos, filter_nil] at hboth
    exact pairwise_iff_forall_sublist.mp (pairwise_map.mp hgroup) hboth heq
  · intro h group hgroup
    obtain ⟨owner, -, rfl⟩ := mem_map.mp hgroup
    exact h.sublist (filter_sublist.map _)

/-- The conditions of a blocked plan can be recorded exactly when their keys are different. -/
theorem isSome_recordBlocked (table : List ConditionRow) (target : EffectTargetId) (observedAt : Int)
    (conditions : List ConditionProposal) :
    (recordBlocked table target observedAt conditions).isSome ↔
      (conditions.map (·.key)).Nodup := by
  have howner : ∀ group ∈ groupConditions conditions, ∀ condition ∈ group.2,
      condition.owner = group.1 := by
    intro group hgroup condition hcondition
    obtain ⟨owner, -, rfl⟩ := mem_map.mp hgroup
    rw [mem_filter, decide_eq_true_iff] at hcondition
    exact hcondition.2
  rw [← nodup_keys_iff_groups, ← isSome_foldlM_replaceConditions observedAt table howner]
  unfold recordBlocked
  cases hgroups : (groupConditions conditions).foldlM (replaceConditions observedAt) table with
  | none => simp
  | some next =>
    simp only [Option.bind_eq_bind, Option.bind_some, Option.isSome_some, iff_true]
    split
    · rfl
    · exact (isSome_replaceConditions observedAt next (by simp)).mpr nodup_nil

/-- A plan that is blocked has conditions of different keys, and can be recorded as blocked, if and
only if every other blocked Target shares one Resource with the claimed one and no two of them are
blocked on one subject with one code. -/
theorem blocked_conditions_recordable_iff [EffectDigest] {snapshot after : ReconcileSnapshot}
    {observe : EffectResourceId → Option ResourceObservation} {conditions : List ConditionProposal}
    (h : snapshot.planSnapshot observe = .ok (.blocked after conditions))
    (table : List ConditionRow) (observedAt : Int) :
    ((conditions.map (·.key)).Nodup ↔ snapshot.Undisputed) ∧
      ((recordBlocked table snapshot.target.identity observedAt conditions).isSome ↔
        snapshot.Undisputed) :=
  ⟨snapshot.nodup_conditions_iff h,
    (isSome_recordBlocked table _ observedAt conditions).trans (snapshot.nodup_conditions_iff h)⟩

/-! ### Two Agents in one Workspace -/

/-- An Agent that is bound to Skill directories. -/
def agentTarget (agent : String) (directories : List EffectResourceId) : RelatedTargetSnapshot :=
  { target := { identity := agent, scope := "workspace", consumer := agent,
                consumerRevision := "1", lifecycle := .active },
    consumerRevision := { identity := "1", consumer := agent,
                          capabilities := { effectProtocols := Map.insertEntries some [(.skill, 1)] ∅,
                                            materializationContracts := ∅ } },
    declaration := { target := agent, consumerRevision := "1",
                     bindings := Map.insertEntries (fun binding => some (binding.resource, binding))
                       (directories.map fun directory => ⟨directory, .skillDirectoryV1, ⟨∅, ∅⟩⟩) ∅,
                     keyed := fun _ _ => Map.key_of_getElem?_insertEntries } }

/-- The revision of a Skill whose package is gone. -/
def goneRevision : PublishedRevision :=
  { identity := "revision", availability := .unavailable "package_missing",
    definition :=
      { source := { sourceKind := .localSource, «namespace» := "local",
                    name := { display := "greeting", canonical := "greeting" } },
        skillMdDigest := "md", packageFingerprint := "content", packageRoot := "/skills/greeting" } }

/-- The Agent `other` alone is to have the Skill that is gone. -/
def goneIntent : AddressedEffect :=
  { identity := "intent", revision := "revision",
    audience := { requiredCapabilities := ⟨∅, ∅⟩,
                  inclusion := .only ((∅ : OrdSet ConsumerIdentity).insert "other"), exclude := ∅ } }

/-- The Agent `claimed`, bound to two directories, and the Agent `other`, bound to some of them. -/
def twoAgents (shared : List EffectResourceId) : ReconcileSnapshot :=
  let claimed := agentTarget "claimed" ["left", "right"]
  { desired := { scope := "workspace", generation := 1,
                 effects := Map.insertEntries (fun effect => some (effect.identity, effect))
                   [goneIntent] ∅,
                 keyed := fun _ _ => Map.key_of_getElem?_insertEntries },
    target := claimed.target, consumerRevision := claimed.consumerRevision,
    declaration := claimed.declaration,
    resources := (∅ : OrdSet EffectResourceId).insertMany ["left", "right"],
    revisions := Map.insertEntries some [("revision", goneRevision)] ∅,
    relatedTargets := Map.insertEntries (fun related => some (related.target.identity, related))
      [claimed, agentTarget "other" shared] ∅,
    keyed := fun _ _ => Map.key_of_getElem?_insertEntries,
    targetStatus := ⟨1, 0, 1⟩,
    resourceStatuses := Map.insertEntries some [("left", ⟨1, 0, 1⟩), ("right", ⟨1, 0, 1⟩)] ∅,
    managed := ∅ }

def observeEmpty (resource : EffectResourceId) : Option ResourceObservation :=
  some ⟨resource, ∅, fun _ _ h => by simp at h⟩

/-- The plan of a snapshot is blocked by conditions that pass the test. -/
def blocksTo [EffectDigest] (snapshot : ReconcileSnapshot) (test : List ConditionProposal → Bool) :
    Bool :=
  match snapshot.planSnapshot observeEmpty with
  | .ok (.blocked _ conditions) => test conditions
  | _ => false

theorem exists_of_blocksTo [EffectDigest] {snapshot : ReconcileSnapshot}
    {test : List ConditionProposal → Bool} (h : blocksTo snapshot test = true) :
    ∃ after conditions, snapshot.planSnapshot observeEmpty = .ok (.blocked after conditions) ∧
      test conditions = true := by
  rw [blocksTo] at h
  split at h
  · exact ⟨_, _, ‹_›, h⟩
  · cases h

/-- The other Agent shares both directories. The condition that blocks it is collected twice, and
the blocked plan cannot be recorded. -/
theorem blocked_condition_collected_twice :
    let _ := EffectDigest.spelled
    ∃ after conditions,
      (twoAgents ["left", "right"]).planSnapshot observeEmpty = .ok (.blocked after conditions) ∧
      conditions.map (·.key) =
        [(.target "claimed", .desiredEffect "intent", "revision_unavailable"),
          (.target "claimed", .desiredEffect "intent", "revision_unavailable")] ∧
      ∀ observedAt, recordBlocked [] "claimed" observedAt conditions = none := by
  intro _
  have hrun : blocksTo (twoAgents ["left", "right"]) (fun conditions =>
      decide (conditions.map (·.key) =
        [(.target "claimed", .desiredEffect "intent", "revision_unavailable"),
          (.target "claimed", .desiredEffect "intent", "revision_unavailable")])) = true := by
    decide +kernel
  obtain ⟨after, conditions, hblocked, htest⟩ := exists_of_blocksTo hrun
  have hkeys := of_decide_eq_true htest
  refine ⟨after, conditions, hblocked, hkeys, fun observedAt => ?_⟩
  rw [← Option.not_isSome_iff_eq_none, isSome_recordBlocked, hkeys]
  decide

/-- The criterion where the other Agent shares one directory. -/
theorem blocked_conditions_recordable_one_directory :
    let _ := EffectDigest.spelled
    ∃ after conditions,
      (twoAgents ["left"]).planSnapshot observeEmpty = .ok (.blocked after conditions) ∧
      (twoAgents ["left"]).Undisputed ∧ (conditions.map (·.key)).Nodup ∧
        (recordBlocked [] "claimed" 7 conditions).isSome := by
  intro _
  have hrun : blocksTo (twoAgents ["left"]) (fun conditions =>
      decide (conditions.map (·.key)).Nodup) = true := by
    decide +kernel
  obtain ⟨after, conditions, hblocked, htest⟩ := exists_of_blocksTo hrun
  have hnodup := of_decide_eq_true htest
  obtain ⟨hkeys, hrecorded⟩ := blocked_conditions_recordable_iff hblocked [] 7
  have hundisputed := hkeys.mp hnodup
  exact ⟨after, conditions, hblocked, hundisputed, hnodup, hrecorded.mpr hundisputed⟩

end OraDesktop.Effect
