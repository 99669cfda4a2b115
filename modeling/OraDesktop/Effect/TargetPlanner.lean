import OraDesktop.Effect.SkillPlanner

/-!
# Projecting a Target

A *Target* is one Consumer in one Scope. Its projection says which Desired Effects it selects and
what it requires of each Resource it is bound to. What it selects or is bound to but cannot have
blocks the projection, one condition for each such Desired Effect and each such binding.

## Main results

* `projectTarget_blocked` — a blocked projection has conditions, all of them the Target's own, and no
  two of them on one subject with one code
-/

namespace OraDesktop.Effect

open List

abbrev EffectScopeId := String
abbrev ConsumerIdentity := String
abbrev ConsumerRevisionId := String
abbrev EffectKind := String

def EffectKind.skill : EffectKind := "ora/skill"

/-! ### Capabilities and audiences -/

structure CapabilitySet where
  effectProtocols : Map EffectKind Nat
  materializationContracts : OrdSet String

structure CapabilityRequirement where
  effectProtocols : Map EffectKind Nat
  materializationContracts : OrdSet String

def CapabilityRequirement.isSatisfiedBy (requirement : CapabilityRequirement)
    (capabilities : CapabilitySet) : Bool :=
  (requirement.effectProtocols.toList.all fun (kind, version) =>
      decide (capabilities.effectProtocols[kind]? = some version)) &&
    requirement.materializationContracts.toList.all capabilities.materializationContracts.contains

/-- The mode is explicit, so that an empty set is not read as all. -/
inductive TargetInclusion where
  | allEligible
  | only (consumers : OrdSet ConsumerIdentity)

structure TargetSelector where
  requiredCapabilities : CapabilityRequirement
  inclusion : TargetInclusion
  exclude : OrdSet ConsumerIdentity

def TargetSelector.selects (selector : TargetSelector) (consumer : ConsumerIdentity)
    (capabilities : CapabilitySet) : Bool :=
  let included :=
    match selector.inclusion with
    | .allEligible => true
    | .only consumers => consumers.contains consumer
  included && !selector.exclude.contains consumer &&
    selector.requiredCapabilities.isSatisfiedBy capabilities

/-- A Desired Effect with the audience that is to have it. -/
structure AddressedEffect extends DesiredEffect where
  audience : TargetSelector

/-- Parameters are of the one kind there is; the check against the definition stays, as the source
makes it. -/
def AddressedEffect.kind (_ : AddressedEffect) : EffectKind := .skill

inductive RevisionAvailability where
  | available
  | unavailable (reason : String)

/-- A revision with what is known of its content at run time. -/
structure PublishedRevision extends EffectRevision where
  availability : RevisionAvailability

def PublishedRevision.kind (_ : PublishedRevision) : EffectKind := .skill

/-- The complete intent of one Scope, each Desired Effect under its own identity. -/
structure DesiredState where
  scope : EffectScopeId
  generation : Generation
  effects : Map DesiredEffectIdentity AddressedEffect
  keyed : ∀ identity (effect : AddressedEffect), effects[identity]? = some effect →
    effect.identity = identity

/-! ### Targets -/

inductive TargetLifecycle where
  | active
  | retiring
  deriving DecidableEq

structure EffectTarget where
  identity : EffectTargetId
  scope : EffectScopeId
  consumer : ConsumerIdentity
  consumerRevision : ConsumerRevisionId
  lifecycle : TargetLifecycle

structure ConsumerRevision where
  identity : ConsumerRevisionId
  consumer : ConsumerIdentity
  capabilities : CapabilitySet

structure TargetResourceBinding where
  resource : EffectResourceId
  materializationContract : MaterializationContract
  accepts : CapabilityRequirement

/-- The Resources a Target is bound to, each binding under the Resource it names. -/
structure TargetDeclaration where
  target : EffectTargetId
  consumerRevision : ConsumerRevisionId
  bindings : Map EffectResourceId TargetResourceBinding
  keyed : ∀ resource (binding : TargetResourceBinding), bindings[resource]? = some binding →
    binding.resource = resource

structure TargetPlanningInput where
  desired : DesiredState
  target : EffectTarget
  consumerRevision : ConsumerRevision
  declaration : TargetDeclaration
  resources : OrdSet EffectResourceId
  revisions : Map EffectRevisionId PublishedRevision

structure TargetProjection where
  target : EffectTargetId
  generation : Generation
  consumerRevision : ConsumerRevisionId
  desiredEffects : OrdSet DesiredEffectIdentity
  resourceRequirements : Map EffectResourceId ResourceRequirement

inductive TargetError where
  | scopeMismatch
  | consumerMismatch
  | consumerRevisionMismatch

namespace SkillPlanner

section

variable (input : TargetPlanningInput)

/-- The snapshots describe one Target. Anything else is an error of the caller and not a condition
to report. -/
def validateTargetInput : Except TargetError Unit :=
  if input.desired.scope ≠ input.target.scope then .error .scopeMismatch
  else if input.target.consumer ≠ input.consumerRevision.consumer then .error .consumerMismatch
  else if input.target.consumerRevision ≠ input.consumerRevision.identity ∨
      input.declaration.consumerRevision ≠ input.consumerRevision.identity ∨
      input.declaration.target ≠ input.target.identity then .error .consumerRevisionMismatch
  else .ok ()

/-- A condition on the Target, which blocks its whole projection. -/
def targetCondition (subject : ConditionSubject) (code : String)
    (message : String) : ConditionProposal :=
  blockingCondition (.target input.target.identity) subject code input.desired.generation message
    .onChange

/-- What the Target makes of a Desired Effect: nothing, a condition, or a selection. -/
def selectEffect (desired : AddressedEffect) :
    Option (Except ConditionProposal DesiredEffectIdentity) :=
  let subject : ConditionSubject := .desiredEffect desired.identity
  if input.target.lifecycle = .retiring then none
  else if desired.audience.selects input.target.consumer input.consumerRevision.capabilities = false
  then none
  else if desired.kind ≠ .skill then none
  else
    match input.revisions[desired.revision]? with
    | none => some (.error (targetCondition input subject "revision_missing"
        "The selected immutable Effect revision is unavailable."))
    | some revision =>
      match revision.availability with
      | .unavailable _ => some (.error (targetCondition input subject "revision_unavailable"
          "The selected immutable Effect revision is unavailable."))
      | .available =>
        if revision.kind ≠ desired.kind then
          some (.error (targetCondition input subject "effect_kind_mismatch"
            "The Desired parameters do not match the selected definition kind."))
        else if input.consumerRevision.capabilities.effectProtocols[revision.kind]? ≠ some 1 then
          some (.error (targetCondition input subject "unsupported_effect"
            "The Consumer Revision does not support this Effect protocol."))
        else some (.ok desired.identity)

/-- What the Target requires through a binding: nothing, a condition, or a requirement. -/
def requireBinding (selected : OrdSet DesiredEffectIdentity)
    (binding : TargetResourceBinding) : Option (Except ConditionProposal ResourceRequirement) :=
  let subject : ConditionSubject := .resource binding.resource
  if input.resources.contains binding.resource = false then
    some (.error (targetCondition input subject "resource_declaration_missing"
      "The Target binding refers to a Resource outside its declaration."))
  else if binding.accepts.isSatisfiedBy input.consumerRevision.capabilities = false then
    some (.error (targetCondition input subject "invalid_resource_binding"
      "The Target binding exceeds the Consumer Revision capabilities."))
  else if binding.materializationContract ≠ .skillDirectoryV1 then none
  else some (.ok ⟨input.target.identity, binding.resource, selected, binding.materializationContract⟩)

end

/-- The condition of an outcome, which is nothing, a condition or a result. The conditions are
collected apart, since a single one voids every result. -/
def condition? {α : Type} : Option (Except ConditionProposal α) → Option ConditionProposal
  | some (.error condition) => some condition
  | _ => none

def result? {α : Type} : Option (Except ConditionProposal α) → Option α
  | some (.ok result) => some result
  | _ => none

variable (input : TargetPlanningInput)

/-- The Desired Effects the Target selects, out of those that include it and whose revision can run;
none while it is retiring. -/
def selectedEffects : OrdSet DesiredEffectIdentity :=
  (∅ : OrdSet DesiredEffectIdentity).insertMany
    ((Map.valueList input.desired.effects).filterMap fun desired => result? (selectEffect input desired))

/-- What blocks the Target: first what it found at the Desired Effects, then what it found at the
bindings. -/
def targetConditions : List ConditionProposal :=
  ((Map.valueList input.desired.effects).filterMap fun desired =>
      condition? (selectEffect input desired)) ++
    (Map.valueList input.declaration.bindings).filterMap fun binding =>
      condition? (requireBinding input (selectedEffects input) binding)

/-- `SkillPlanner::project_target_snapshot` -/
def projectTarget : Except TargetError (PlanningResult TargetProjection) := do
  validateTargetInput input
  if targetConditions input ≠ [] then return .blocked (targetConditions input)
  return .projected
    { target := input.target.identity, generation := input.desired.generation,
      consumerRevision := input.consumerRevision.identity, desiredEffects := selectedEffects input,
      resourceRequirements := Map.insertEntries
        (fun binding => (result? (requireBinding input (selectedEffects input) binding)).map
          fun requirement => (binding.resource, requirement))
        (Map.valueList input.declaration.bindings) ∅ }

end SkillPlanner

/-! ### The conditions of a Target -/

/-- What a condition is stored under. Its message is not part of it. -/
def ConditionProposal.key (condition : ConditionProposal) :
    ConditionOwner × ConditionSubject × String :=
  (condition.owner, condition.subject, condition.code)

/-- Conditions found one by one on different subjects have different keys. -/
theorem nodup_keys_filterMap {α : Type} {f : α → Option ConditionProposal}
    {subject : α → ConditionSubject} {l : List α} (hl : (l.map subject).Nodup)
    (hf : ∀ a ∈ l, ∀ condition, f a = some condition → condition.subject = subject a) :
    ((l.filterMap f).map (·.key)).Nodup := by
  have hsubjects : ((l.filterMap f).map (·.subject)).Nodup := by
    induction l with
    | nil => exact nodup_nil
    | cons a l ih =>
      obtain ⟨hnot, hl⟩ := nodup_cons.mp hl
      have hrest := ih hl fun b hb => hf b (mem_cons_of_mem _ hb)
      cases hfa : f a with
      | none => rwa [filterMap_cons_none hfa]
      | some condition =>
        rw [filterMap_cons_some hfa, map_cons, nodup_cons]
        refine ⟨?_, hrest⟩
        intro hmem
        obtain ⟨other, hother, heq⟩ := mem_map.mp hmem
        obtain ⟨b, hb, hfb⟩ := mem_filterMap.mp hother
        refine hnot (mem_map.mpr ⟨b, hb, ?_⟩)
        rw [← hf b (mem_cons_of_mem _ hb) other hfb, heq, hf a mem_cons_self condition hfa]
  refine List.Nodup.of_map (fun key => key.2.1) ?_
  rw [map_map]
  exact hsubjects

namespace SkillPlanner

variable {input : TargetPlanningInput}

theorem selectEffect_condition {desired : AddressedEffect} {condition : ConditionProposal}
    (h : condition? (selectEffect input desired) = some condition) :
    condition.owner = .target input.target.identity ∧
      condition.subject = .desiredEffect desired.identity := by
  unfold selectEffect at h
  dsimp only at h
  repeat' split at h
  all_goals first
    | (cases h; exact ⟨rfl, rfl⟩)
    | cases h

theorem requireBinding_condition {selected : OrdSet DesiredEffectIdentity}
    {binding : TargetResourceBinding} {condition : ConditionProposal}
    (h : condition? (requireBinding input selected binding) = some condition) :
    condition.owner = .target input.target.identity ∧
      condition.subject = .resource binding.resource := by
  unfold requireBinding at h
  dsimp only at h
  repeat' split at h
  all_goals first
    | (cases h; exact ⟨rfl, rfl⟩)
    | cases h

theorem owner_of_mem_targetConditions {condition : ConditionProposal}
    (h : condition ∈ targetConditions input) : condition.owner = .target input.target.identity := by
  rcases mem_append.mp h with h | h
  · obtain ⟨desired, -, h⟩ := mem_filterMap.mp h
    exact (selectEffect_condition h).1
  · obtain ⟨binding, -, h⟩ := mem_filterMap.mp h
    exact (requireBinding_condition h).1

theorem nodup_targetConditions (input : TargetPlanningInput) :
    ((targetConditions input).map (·.key)).Nodup := by
  have heffects : ((Map.valueList input.desired.effects).map
      fun desired => ConditionSubject.desiredEffect desired.identity).Nodup := by
    refine pairwise_map.mpr ((Map.pairwise_valueList input.desired.keyed).imp ?_)
    intro a b hne heq
    exact hne (ConditionSubject.desiredEffect.inj heq)
  have hbindings : ((Map.valueList input.declaration.bindings).map
      fun binding => ConditionSubject.resource binding.resource).Nodup := by
    refine pairwise_map.mpr ((Map.pairwise_valueList input.declaration.keyed).imp ?_)
    intro a b hne heq
    exact hne (ConditionSubject.resource.inj heq)
  rw [targetConditions, map_append, nodup_append]
  refine ⟨nodup_keys_filterMap heffects fun _ _ _ h => (selectEffect_condition h).2,
    nodup_keys_filterMap hbindings fun _ _ _ h => (requireBinding_condition h).2, ?_⟩
  -- Desired Effects and Resources are different subjects
  intro key hkey other hother heq
  obtain ⟨condition, hcondition, rfl⟩ := mem_map.mp hkey
  obtain ⟨condition', hcondition', rfl⟩ := mem_map.mp hother
  obtain ⟨desired, -, h⟩ := mem_filterMap.mp hcondition
  obtain ⟨binding, -, h'⟩ := mem_filterMap.mp hcondition'
  have hsubject : condition.subject = condition'.subject := congrArg (fun key => key.2.1) heq
  rw [(selectEffect_condition h).2, (requireBinding_condition h').2] at hsubject
  cases hsubject

/-- A blocked projection has conditions, which are the Target's own and of different keys. -/
theorem projectTarget_blocked {conditions : List ConditionProposal}
    (h : projectTarget input = .ok (.blocked conditions)) :
    conditions ≠ [] ∧ (conditions.map (·.key)).Nodup ∧
      ∀ condition ∈ conditions, condition.owner = .target input.target.identity := by
  obtain ⟨-, -, h⟩ := Fallible.bind_eq_ok.mp h
  split at h
  next hblocked =>
    cases h
    exact ⟨hblocked, nodup_targetConditions input, fun _ => owner_of_mem_targetConditions⟩
  next => cases h

end SkillPlanner

end OraDesktop.Effect
