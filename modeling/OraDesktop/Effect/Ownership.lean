import OraDesktop.Effect.Attempt
import OraDesktop.Effect.PlanShape

/-!
# Plans touch only what the ledger owns

An item is *owned* when the ledger has a row for its name and the item is exactly what the row
records: its content and a marker that claims the row. Every mutation of a plan either rewrites or
deletes an owned item, or creates one under a name that is free or that an owned item of the same
plan gives up. So carrying out a plan, as far as it gets, leaves every other item as it was.

## Main results

* `plan_touches_only_owned_items` — the mutations of a plan and the items they leave alone
* `creations_at_occupied_names` — a creation need not stand after a deletion that frees its name
-/

namespace OraDesktop.Effect

open SkillDirectory SkillPlanner Attempt

section

variable [EffectDigest] {input : ResourcePlanningInput} {plan : ResourcePlan}
  {resolved : List ResolvedMaterialization} {directory : Directory}

/-- The directory has under the name exactly what the ledger records for it: the fingerprint as well
as the marker, so an item whose content drifted is no longer owned. -/
def Owned (input : ResourcePlanningInput) (directory : Directory) (native : NativeResourceIdentity) :
    Prop :=
  ∃ row ∈ input.managed.rows, row.resource = input.resource ∧ row.nativeIdentity = native ∧
    directory[native]? = some (installedEntry input.resource row.fingerprint row.identity)

/-- The item is the row's, with the content the row records. A marker alone is a claim that anyone
could have copied. -/
structure Evidenced (input : ResourcePlanningInput) (row : ManagedItem) (current : ObservedItem) :
    Prop extends Exact input row current where
  fingerprint : current.fingerprint = row.fingerprint

/-- What entitles a plan to a mutation. A name that is taken must be given up by its holder, and
before the creation if that is of an item without a row: a plan ends with those. A creation that
restores a row stands where its row does, which may be before the holder's. -/
def Authorized (input : ResourcePlanningInput) (plan : ResourcePlan) (mutation : PlannedMutation) :
    Prop :=
  match mutation.mutation with
  | .create => ∃ native fingerprint, mutation.expected = .missing ∧
      mutation.planned = .present native fingerprint mutation.managedIdentity ∧
      (input.observed.items[native]? = none ∨
        ∃ row current, Evidenced input row current ∧ row.nativeIdentity = native ∧
          ∃ other ∈ plan.mutations, other.managedIdentity = row.identity ∧
            (other.mutation = .delete ∨ other.mutation = .replace) ∧
            ((∀ row ∈ input.managed.rows, row.identity ≠ mutation.managedIdentity) →
              StandsBefore plan.mutations other mutation))
  | .update | .replace | .delete => ∃ row current, Evidenced input row current ∧
      mutation.managedIdentity = row.identity ∧ mutation.expected = recordedState row

/-! ### The directory an observation was made of -/

omit [EffectDigest] in
theorem observed_eq (hobserved : observeResource input.resource directory = input.observed)
    (native : NativeResourceIdentity) :
    input.observed.items[native]? = (directory[native]?).map (observedItem input.resource native) := by
  rw [← hobserved, observeResource, Std.ExtTreeMap.getElem?_map]

variable {identity : ManagedIdentity}

omit [EffectDigest] in
theorem ownershipEvidence_eq_claims_iff {resource : EffectResourceId} {entry : Entry} :
    ownershipEvidence resource entry = .claims identity ↔
      entry.marker = some (.current resource identity) := by
  rcases hmarker : entry.marker with _ | ⟨version, res, managed⟩
  · simp [ownershipEvidence, hmarker]
  simp only [ownershipEvidence, hmarker, ManagedItemMarker.current, Option.some.injEq,
    ManagedItemMarker.mk.injEq]
  split
  · rename_i hcond
    simp [hcond]
  · rename_i hcond
    simp only [reduceCtorEq, false_iff]
    exact fun h => hcond ⟨h.1, h.2.1⟩

omit [EffectDigest] in
theorem ownershipEvidence_installedEntry (resource : EffectResourceId) (fingerprint : Fingerprint)
    (identity : ManagedIdentity) :
    ownershipEvidence resource (installedEntry resource fingerprint identity) = .claims identity :=
  if_pos ⟨rfl, rfl⟩

namespace SkillPlanner.IsPlan

variable (h : IsPlan input plan resolved)
include h

variable {current : ObservedItem} {row : ManagedItem}

theorem evidenced (hexact : Exact input row current) : Evidenced input row current :=
  ⟨hexact, h.fingerprint_eq hexact⟩

section

variable {item : ResolvedMaterialization} (hitem : plan.projection.items[identity]? = some item)

include hitem

theorem authorized_create
    (hunheld : ∀ row current, Exact input row current → row.identity ≠ identity) :
    input.observed.items[item.nativeIdentity]? = none ∨
      ∃ row current, Evidenced input row current ∧ row.nativeIdentity = item.nativeIdentity ∧
        ∃ other, rowMutation input plan.projection.items row = some other ∧
          other.managedIdentity = row.identity ∧
          (other.mutation = .delete ∨ other.mutation = .replace) := by
  rcases hfound : input.observed.items[item.nativeIdentity]? with _ | current
  · exact .inl rfl
  · obtain ⟨row, hexact, hnative⟩ := h.exact_of_item hitem hfound
    refine .inr ⟨row, current, h.evidenced hexact, hnative, ?_⟩
    -- the holder is a row that the plan moves away
    rcases hdesired : plan.projection.items[row.identity]? with _ | desired
    · exact ⟨_, h.rowMutation_undesired hexact hdesired, rfl, .inl rfl⟩
    -- the row is desired elsewhere, since names are given once
    have hne : row.nativeIdentity ≠ desired.nativeIdentity := fun heq => hunheld row current hexact
      (h.item_native_inj hdesired hitem (heq.symm.trans hnative))
    have hrow := h.rowMutation_desired hexact hdesired
    rw [if_neg fun hsettled => hne hsettled.2.2] at hrow
    exact ⟨_, hrow, rfl, .inr (if_neg hne)⟩

end

variable {mutation : PlannedMutation}

theorem authorized (hmem : mutation ∈ plan.mutations) : Authorized input plan mutation := by
  cases h.origin hmem with
  | remove exact _ => exact ⟨_, _, h.evidenced exact, rfl, rfl⟩
  | restore mem missing desires =>
    refine ⟨_, _, rfl, rfl, (h.authorized_create desires fun _ current hexact heq =>
      missing current (hexact.of_identity mem heq)).imp_right ?_⟩
    rintro ⟨holder, current, hevidenced, hnative, other, hother, hidentity, hkind⟩
    exact ⟨holder, current, hevidenced, hnative, other,
      h.mem_mutations_of_row hevidenced.mem hother, hidentity, hkind,
      fun hunknown => absurd rfl (hunknown _ mem)⟩
  | @rewrite row current desired exact _ _ =>
    by_cases hnative : row.nativeIdentity = desired.nativeIdentity
    · simp only [Authorized, rewriteMutation, materializeMutation, hnative, if_true]
      exact ⟨row, current, h.evidenced exact, rfl, rfl⟩
    · simp only [Authorized, rewriteMutation, materializeMutation, hnative, if_false]
      exact ⟨row, current, h.evidenced exact, rfl, rfl⟩
  | fresh desires unknown =>
    refine ⟨_, _, rfl, rfl, (h.authorized_create desires fun row _ hexact =>
      unknown row hexact.mem).imp_right ?_⟩
    rintro ⟨holder, current, hevidenced, hnative, other, hother, hidentity, hkind⟩
    exact ⟨holder, current, hevidenced, hnative, other,
      h.mem_mutations_of_row hevidenced.mem hother, hidentity, hkind,
      h.rowMutation_precedes_fresh hevidenced.mem hother desires⟩

/-- Every mutation that plans an item brings its source. -/
theorem source (hmem : mutation ∈ plan.mutations) (hplanned : mutation.planned ≠ .missing) :
    mutation.input.isSome := by
  cases h.origin hmem with
  | remove => exact absurd rfl hplanned
  | restore | rewrite | fresh => rfl

theorem preparable {generation : Generation} {sequence : Nat} {operations : List EffectOperation}
    (hprepare : prepareOperations input.resource generation sequence plan.mutations = .ok operations)
    (hmem : mutation ∈ plan.mutations) : Preparable mutation := by
  obtain ⟨operation, -, sequence, hoperation⟩ :=
    Fallible.exists_right (prepareOperations_eq_ok hprepare) hmem
  exact (prepare_accepts_iff generation sequence (h.source hmem)).mp ⟨operation, hoperation⟩

variable (hobserved : observeResource input.resource directory = input.observed)
include hobserved

theorem entry_of_exact (hexact : Exact input row current) :
    directory[row.nativeIdentity]? =
      some (installedEntry input.resource row.fingerprint row.identity) := by
  have hfound := hexact.found
  rw [observed_eq hobserved, Option.map_eq_some_iff] at hfound
  obtain ⟨⟨fingerprint, marker⟩, hentry, rfl⟩ := hfound
  have hclaims := ownershipEvidence_eq_claims_iff.mp hexact.claims
  have hfingerprint := h.fingerprint_eq hexact
  simp only [observedItem] at hclaims hfingerprint
  rw [hentry, installedEntry, hclaims, hfingerprint]

theorem owned_of_exact (hexact : Exact input row current) :
    Owned input directory row.nativeIdentity :=
  ⟨row, hexact.mem, hexact.resource.trans h.observed, rfl, h.entry_of_exact hobserved hexact⟩

theorem edit_key (hmem : mutation ∈ plan.mutations) :
    directory[(editOf input.resource mutation).key]? = none ∨
      Owned input directory (editOf input.resource mutation).key := by
  have hcreate : ∀ (identity : ManagedIdentity) item, plan.projection.items[identity]? = some item →
      directory[item.nativeIdentity]? = none ∨ Owned input directory item.nativeIdentity := by
    intro identity item hitem
    rcases hfound : directory[item.nativeIdentity]? with _ | entry
    · exact .inl rfl
    · obtain ⟨row, hexact, hnative⟩ := h.exact_of_item hitem
        (by rw [observed_eq hobserved, hfound]; rfl)
      exact .inr (hnative ▸ h.owned_of_exact hobserved hexact)
  cases h.origin hmem with
  | remove exact _ | rewrite exact _ _ => exact .inr (h.owned_of_exact hobserved exact)
  | restore _ _ desires | fresh desires _ => exact hcreate _ _ desires

end SkillPlanner.IsPlan

/-! ### The safety theorem -/

/-- Every mutation of a plan is authorized, and an attempt to carry the plan out, wherever it stops,
leaves every item that the ledger does not own exactly as it was. -/
theorem plan_touches_only_owned_items (h : planResource input = .ok (.projected plan)) :
    (∀ mutation ∈ plan.mutations, Authorized input plan mutation) ∧
      ∀ directory generation sequence operations,
        observeResource input.resource directory = input.observed →
        prepareOperations input.resource generation sequence plan.mutations = .ok operations →
        ∀ state ∈ durableStates directory [] operations, ∀ native entry,
          directory[native]? = some entry → ¬Owned input directory native →
            state.1[native]? = some entry := by
  obtain ⟨resolved, hplan⟩ := planResource_eq_projected_iff.mp h
  refine ⟨fun mutation hmem => hplan.authorized hmem, ?_⟩
  intro directory generation sequence operations hobserved hprepare state hstate native entry hentry
    hforeign
  obtain ⟨_, applied, hinitial, hdirectory⟩ := mem_durableStates
    (fun mutation hmem => hplan.preparable hprepare hmem) .nil
    (carries_of_prepareOperations hprepare) hstate
  have hframe : ∀ e ∈ edits input.resource applied, e.key ≠ native := by
    intro e he heq
    obtain ⟨mutation, hmutation, rfl⟩ := List.mem_map.mp he
    rcases hplan.edit_key hobserved (hinitial.subset hmutation) with hfree | howned
    · rw [heq, hentry] at hfree
      cases hfree
    · exact hforeign (heq ▸ howned)
  rw [hdirectory, Edit.getElem?_writeAll_of_forall_ne hframe, hentry]

end

/-! ### Evaluating plans -/

/-- The plan of an input passes the test, decided by running the planner. -/
def plansTo [EffectDigest] (input : ResourcePlanningInput) (test : ResourcePlan → Bool) : Bool :=
  match planResource input with
  | .ok (.projected plan) => test plan
  | _ => false

theorem exists_of_plansTo [EffectDigest] {input : ResourcePlanningInput} {test : ResourcePlan → Bool} (h : plansTo input test = true) :
    ∃ plan, planResource input = .ok (.projected plan) ∧ test plan = true := by
  rw [plansTo] at h
  split at h
  · exact ⟨_, ‹_›, h⟩
  · cases h

/-- The published revision of a local Skill, by its name. -/
def skillRevision (name : String) : EffectRevision :=
  { identity := "revision:" ++ name,
    definition :=
      { source := { sourceKind := .localSource, «namespace» := "local",
                    name := { display := name, canonical := name } },
        skillMdDigest := "md:" ++ name, packageFingerprint := "content:" ++ name,
        packageRoot := "/skills/" ++ name } }

/-- The ledger row of a Skill installed for a Desired Effect. -/
def skillRow (identity : ManagedIdentity) (desired : DesiredEffectIdentity) (name : String) :
    ManagedItem :=
  { identity, resource := "workspace", desiredEffect := desired,
    appliedRevision := "revision:" ++ name, nativeIdentity := name,
    fingerprint := "content:" ++ name, appliedGeneration := 1 }

/-- A directory with just the items of the rows, as the adapter would have left them. -/
def installed (rows : List ManagedItem) : Directory :=
  Map.insertEntries (fun row => some (row.nativeIdentity,
    installedEntry "workspace" row.fingerprint row.identity)) rows ∅

/-- One Agent wants each Desired Effect under a name. -/
def workspaceInput (managed : Ledger) (directory : Directory)
    (desired : List (DesiredEffectIdentity × String)) : ResourcePlanningInput :=
  { resource := "workspace", generation := 2,
    requirements := [{ target := "agent", resource := "workspace",
                       desiredEffects := (∅ : OrdSet DesiredEffectIdentity).insertMany
                         (desired.map (·.1)),
                       materializationContract := .skillDirectoryV1 }],
    desiredEffects := Map.insertEntries
      (fun d => some (d.1, ⟨d.1, "revision:" ++ d.2⟩)) desired ∅,
    revisions := Map.insertEntries
      (fun d => some ("revision:" ++ d.2, skillRevision d.2)) desired ∅,
    managed, observed := observeResource "workspace" directory }

/-- The renamed Skill `alpha` and a new one that takes its name. -/
def renamedInput : ResourcePlanningInput :=
  workspaceInput ⟨[skillRow "a" "first" "alpha"], by decide, by decide⟩
    (installed [skillRow "a" "first" "alpha"]) [("first", "beta"), ("second", "alpha")]

/-- An installed Skill beside a directory that has no marker. -/
def exchangedDirectory : Directory :=
  (installed [skillRow "a" "first" "alpha"]).insert "notes" ⟨"content:notes", none⟩

/-- The Skill `alpha` is no longer wanted, and another Desired Effect takes its name. -/
def exchangedInput : ResourcePlanningInput :=
  workspaceInput ⟨[skillRow "a" "first" "alpha"], by decide, by decide⟩ exchangedDirectory
    [("second", "alpha")]

/-- The missing Skill `alpha` is wanted under the name of `beta`, which is no longer wanted. -/
def displacedInput : ResourcePlanningInput :=
  workspaceInput ⟨[skillRow "a" "first" "alpha", skillRow "b" "second" "beta"], by decide, by decide⟩
    (installed [skillRow "b" "second" "beta"]) [("first", "beta")]

/-- Creations stand only at names that were not observed or that an earlier deletion frees. -/
def CreatesAtFreedNames (input : ResourcePlanningInput) (plan : ResourcePlan) : Prop :=
  ∀ before mutation after, plan.mutations = before ++ mutation :: after →
    mutation.mutation = .create → ∀ native fingerprint managed,
      mutation.planned = .present native fingerprint managed →
        input.observed.items[native]? = none ∨ ∃ earlier ∈ before, earlier.mutation = .delete ∧
          ∃ fingerprint managed, earlier.expected = .present native fingerprint managed

/-- The kind and the states of a mutation, without the input it materializes from. -/
def PlannedMutation.outline (mutation : PlannedMutation) :
    EffectMutation × ExactPreviousState × ExactPlannedState :=
  (mutation.mutation, mutation.expected, mutation.planned)

/-- A creation can take the name of an item that an earlier mutation moves away, and can stand before
the deletion that frees its name. -/
theorem creations_at_occupied_names :
    let _ := EffectDigest.spelled
    (∃ plan, planResource renamedInput = .ok (.projected plan) ∧
      ¬CreatesAtFreedNames renamedInput plan) ∧
    ∃ plan, planResource displacedInput = .ok (.projected plan) ∧
      ¬CreatesAtFreedNames displacedInput plan := by
  intro _
  constructor
  · have hrun : plansTo renamedInput (fun plan => decide (plan.mutations.map (·.outline) =
        [(.replace, .present "alpha" "content:alpha" "a", .present "beta" "content:beta" "a"),
         (.create, .missing,
          .present "alpha" "content:alpha" "managed:workspace/second")])) = true := by
      decide +kernel
    have hheld : (renamedInput.observed.items["alpha"]?).isSome = true := by decide +kernel
    obtain ⟨plan, hplan, htest⟩ := exists_of_plansTo hrun
    refine ⟨plan, hplan, fun hcreates => ?_⟩
    obtain ⟨move, rest, hmutations, hmove, hrest⟩ := List.map_eq_cons_iff.mp (of_decide_eq_true htest)
    obtain ⟨creation, rest, rfl, hcreation, hrest⟩ := List.map_eq_cons_iff.mp hrest
    obtain rfl := List.map_eq_nil_iff.mp hrest
    simp only [PlannedMutation.outline, Prod.mk.injEq] at hmove hcreation
    rcases hcreates [move] creation [] hmutations hcreation.1 _ _ _ hcreation.2.2 with
      hfree | ⟨earlier, hearlier, hdelete, _⟩
    · rw [hfree] at hheld
      cases hheld
    · obtain rfl := List.mem_singleton.mp hearlier
      rw [hmove.1] at hdelete
      cases hdelete
  · have hrun : plansTo displacedInput (fun plan => decide (plan.mutations.map (·.outline) =
        [(.create, .missing, .present "beta" "content:beta" "a"),
         (.delete, .present "beta" "content:beta" "b", .missing)])) = true := by
      decide +kernel
    have hheld : (displacedInput.observed.items["beta"]?).isSome = true := by decide +kernel
    obtain ⟨plan, hplan, htest⟩ := exists_of_plansTo hrun
    refine ⟨plan, hplan, fun hcreates => ?_⟩
    obtain ⟨creation, rest, hmutations, hcreation, _⟩ :=
      List.map_eq_cons_iff.mp (of_decide_eq_true htest)
    simp only [PlannedMutation.outline, Prod.mk.injEq] at hcreation
    rcases hcreates [] creation rest hmutations hcreation.1 _ _ _ hcreation.2.2 with
      hfree | ⟨earlier, hearlier, _⟩
    · rw [hfree] at hheld
      cases hheld
    · cases hearlier

/-- A name changes hands while the directory without a marker stays, wherever the attempt stops. -/
theorem plan_touches_only_owned_items_exchanged :
    let _ := EffectDigest.spelled
    ∃ plan operations, planResource exchangedInput = .ok (.projected plan) ∧
      prepareOperations "workspace" 2 0 plan.mutations = .ok operations ∧ operations.length = 2 ∧
      (∀ mutation ∈ plan.mutations, Authorized exchangedInput plan mutation) ∧
      ∀ state ∈ durableStates exchangedDirectory [] operations,
        state.1["notes"]? = some ⟨"content:notes", none⟩ := by
  intro _
  have hrun : plansTo exchangedInput (fun plan => (prepareOperations "workspace" 2 0
      plan.mutations).toOption.any (·.length == 2)) = true := by decide +kernel
  obtain ⟨plan, hplan, htest⟩ := exists_of_plansTo hrun
  obtain ⟨operations, hprepare, hlength⟩ := Fallible.any_toOption.mp htest
  obtain ⟨hauthorized, hkept⟩ := plan_touches_only_owned_items hplan
  refine ⟨plan, operations, hplan, hprepare, by simpa using hlength, hauthorized,
    fun state hstate => hkept exchangedDirectory 2 0 operations rfl hprepare state hstate _ _
      (by decide +kernel) ?_⟩
  rintro ⟨row, hrow, -, hnative, -⟩
  obtain rfl := List.mem_singleton.mp hrow
  exact absurd hnative (by decide)

end OraDesktop.Effect
