import OraDesktop.Lib.OrderedMap
import Std.Data.ExtTreeSet

/-!
# Effects: intent, ownership ledger, observation and plan

The data the Effect planner joins. A *Resource* is one directory of Skills outside the program's
control; the *ledger* records which of its items the program installed and owns; an *observation*
says what is there now and what the markers on it claim; *Desired Effects* say what should be there.

Identities are the source's string newtypes. Digests and fingerprints are texts; how they are
computed is a parameter (`EffectDigest`), since nothing below depends on it.
-/

namespace OraDesktop

/-- An ordered set with extensional equality, for the `BTreeSet`s of the source, whose order the
plans follow. -/
abbrev OrdSet (κ : Type) [Ord κ] := Std.ExtTreeSet κ

namespace Effect

abbrev EffectTargetId := String
abbrev EffectResourceId := String
abbrev EffectOperationId := String
abbrev EffectRevisionId := String
abbrev DesiredEffectIdentity := String
abbrev ManagedIdentity := String
abbrev NativeResourceIdentity := String
abbrev Fingerprint := String
abbrev Digest := String
abbrev Generation := Nat

/-! ### Desired state -/

inductive SkillSourceKind where
  | localSource
  | plugin
  deriving DecidableEq

/-- A Skill name with the lower-case spelling that names it in a Resource. -/
structure SkillName where
  display : String
  canonical : String
  deriving DecidableEq

structure SkillSourceKey where
  sourceKind : SkillSourceKind
  «namespace» : String
  name : SkillName
  deriving DecidableEq

/-- The only kind of Effect definition there is; the source has an enum with this one variant. -/
structure SkillDefinition where
  source : SkillSourceKey
  skillMdDigest : Digest
  packageFingerprint : Fingerprint
  packageRoot : String

structure EffectRevision where
  identity : EffectRevisionId
  definition : SkillDefinition

structure DesiredEffect where
  identity : DesiredEffectIdentity
  revision : EffectRevisionId

structure MaterializationContract where
  kind : String
  version : Nat
  deriving DecidableEq

def MaterializationContract.skillDirectoryV1 : MaterializationContract :=
  { kind := "ora/skill-directory", version := 1 }

/-- One Target's complete contribution to one Resource. -/
structure ResourceRequirement where
  target : EffectTargetId
  resource : EffectResourceId
  desiredEffects : OrdSet DesiredEffectIdentity
  materializationContract : MaterializationContract

/-! ### Projection -/

structure SkillMaterializationInput where
  name : SkillName
  source : SkillSourceKey
  packageRoot : String
  skillMdDigest : Digest
  packageFingerprint : Fingerprint
  deriving DecidableEq

structure ResolvedMaterialization where
  managedIdentity : ManagedIdentity
  desiredEffect : DesiredEffectIdentity
  revision : EffectRevisionId
  nativeIdentity : NativeResourceIdentity
  fingerprint : Fingerprint
  contract : MaterializationContract
  inputDigest : Digest
  input : SkillMaterializationInput
  deriving DecidableEq

structure ResourceProjection where
  resource : EffectResourceId
  generation : Generation
  contributors : OrdSet EffectTargetId
  items : Map ManagedIdentity ResolvedMaterialization
  digest : Digest

/-- The SHA-256 identities of the source. Serialising a package root that is not Unicode fails. -/
class EffectDigest where
  /-- `ManagedIdentity::for_intent` -/
  forIntent : EffectResourceId → DesiredEffectIdentity → ManagedIdentity
  materialization : SkillMaterializationInput → Option Digest
  projection : EffectResourceId → Generation → OrdSet EffectTargetId →
    Map ManagedIdentity ResolvedMaterialization → Option Digest

/-- Identities spelled out instead of hashed, to evaluate plans with. -/
@[reducible] def EffectDigest.spelled : EffectDigest where
  forIntent resource desired := "managed:" ++ resource ++ "/" ++ desired
  materialization input := some ("input:" ++ input.name.canonical)
  projection resource _ _ _ := some ("projection:" ++ resource)

/-! ### Ownership -/

/-- A row of the durable ownership ledger. It records what was installed and where, and is what an
observation is compared with. -/
structure ManagedItem where
  identity : ManagedIdentity
  resource : EffectResourceId
  desiredEffect : DesiredEffectIdentity
  appliedRevision : EffectRevisionId
  nativeIdentity : NativeResourceIdentity
  fingerprint : Fingerprint
  appliedGeneration : Generation

/-- The ledger rows of one Resource, with the two keys of their table: the identity, and the native
identity within the Resource. -/
structure Ledger where
  rows : List ManagedItem
  identities_nodup : (rows.map (·.identity)).Nodup
  natives_nodup : (rows.map (·.nativeIdentity)).Nodup

/-- What a marker on an item claims, once it names the Resource it was found in. -/
inductive OwnershipEvidence where
  | noOwnershipEvidence
  | claims (identity : ManagedIdentity)

structure ObservedItem where
  nativeIdentity : NativeResourceIdentity
  fingerprint : Fingerprint
  ownershipEvidence : OwnershipEvidence

/-- What an adapter found in a Resource, each item under its own native identity. -/
structure ResourceObservation where
  resource : EffectResourceId
  items : Map NativeResourceIdentity ObservedItem
  keyed : ∀ n (item : ObservedItem), items[n]? = some item → item.nativeIdentity = n

/-- An item without an exact ledger match, outside the planner's authority: it is neither rewritten
nor removed. -/
structure PreservedItem where
  resource : EffectResourceId
  nativeIdentity : NativeResourceIdentity
  fingerprint : Fingerprint

/-! ### Changes -/

inductive ExactPreviousState where
  | missing
  | present (nativeIdentity : NativeResourceIdentity) (fingerprint : Fingerprint)
      (managedIdentity : ManagedIdentity)
  deriving DecidableEq

inductive ExactPlannedState where
  | missing
  | present (nativeIdentity : NativeResourceIdentity) (fingerprint : Fingerprint)
      (managedIdentity : ManagedIdentity)
  deriving DecidableEq

inductive EffectMutation where
  | create
  | update
  | replace
  | delete
  deriving DecidableEq

structure PlannedMutation where
  managedIdentity : ManagedIdentity
  desiredEffect : Option DesiredEffectIdentity
  mutation : EffectMutation
  expected : ExactPreviousState
  planned : ExactPlannedState
  input : Option SkillMaterializationInput
  deriving DecidableEq

inductive PlannedResourceChange where
  | mutate (mutation : PlannedMutation)
  | forgetMissing (identity : ManagedIdentity)

structure ResourcePlan where
  projection : ResourceProjection
  preserved : List PreservedItem
  changes : List PlannedResourceChange

/-- The mutation of a change that has one; a row that only gives up its ownership has none. -/
def PlannedResourceChange.mutation? : PlannedResourceChange → Option PlannedMutation
  | .mutate mutation => some mutation
  | .forgetMissing _ => none

/-- The mutations of a plan, in plan order, which is the order they are carried out in. -/
def ResourcePlan.mutations (plan : ResourcePlan) : List PlannedMutation :=
  plan.changes.filterMap PlannedResourceChange.mutation?

/-! ### Conditions -/

inductive ConditionOwner where
  | target (identity : EffectTargetId)
  | resource (identity : EffectResourceId)
  deriving DecidableEq

inductive ConditionSubject where
  | target (identity : EffectTargetId)
  | desiredEffect (identity : DesiredEffectIdentity)
  | resource (identity : EffectResourceId)
  | managedItem (identity : ManagedIdentity)
  | operation (identity : EffectOperationId)
  deriving DecidableEq

inductive ConditionImpact where
  | blocking
  | nonBlocking

inductive ConditionRetry where
  | onChange
  | backoff (initialDelayMillis maximumDelayMillis : Nat)
  | manual

inductive ConditionGeneration where
  | unscoped
  | at (generation : Generation)

structure ConditionProposal where
  owner : ConditionOwner
  subject : ConditionSubject
  code : String
  impact : ConditionImpact
  retry : ConditionRetry
  generation : ConditionGeneration
  message : String

/-- Either a complete result or the facts that block it. Being blocked is not an error: it is
reported and planned again later. -/
inductive PlanningResult (α : Type) where
  | projected (result : α)
  | blocked (conditions : List ConditionProposal)

inductive PlannerError where
  | observationResourceMismatch
  | requirementResourceMismatch
  | desiredEffectMissing (identity : DesiredEffectIdentity)
  | serialize
  | emptyNativeResourceIdentity

end Effect

end OraDesktop
