import OraDesktop.Effect.SkillPlanner
import OraDesktop.Lib.ListOrder

/-!
# The mutations of a plan

Every mutation of a plan comes from one ledger row or from one item without a row. `Origin` lists
the ways, with what each says about the row, the observation and the projection; the mutations stand
in the order of the rows, creations last, and no two of them have one identity.

## Main results

* `IsPlan.origin` — where a mutation of a plan comes from
* `IsPlan.mutations_pairwise` — one mutation for each identity
* `IsPlan.rowMutation_precedes` — the mutations of two rows stand in the order of the rows
-/

namespace OraDesktop.Effect

namespace SkillPlanner

open List

variable {input : ResourcePlanningInput} {plan : ResourcePlan}
  {resolved : List ResolvedMaterialization}

/-- The state the ledger records for a row. Where the observation is exact it is also the state that
is there, so a mutation expects it. -/
def recordedState (row : ManagedItem) : ExactPreviousState :=
  .present row.nativeIdentity row.fingerprint row.identity

/-- The item is as its row and its materialization want it, and the plan leaves it alone. -/
def Settled (row : ManagedItem) (desired : ResolvedMaterialization) : Prop :=
  row.fingerprint = desired.fingerprint ∧ row.appliedRevision = desired.revision ∧
    row.nativeIdentity = desired.nativeIdentity

instance (row : ManagedItem) (desired : ResolvedMaterialization) : Decidable (Settled row desired) :=
  inferInstanceAs (Decidable (_ ∧ _ ∧ _))

/-- The rewrite of an observed item: in place, or under another name. -/
def rewriteMutation (row : ManagedItem) (desired : ResolvedMaterialization) : PlannedMutation :=
  materializeMutation row desired
    (if row.nativeIdentity = desired.nativeIdentity then .update else .replace) (recordedState row)

/-- The deletion of a row's item, planned where no Desired Effect resolves to the row any more. -/
def removeMutation (row : ManagedItem) : PlannedMutation :=
  { managedIdentity := row.identity, desiredEffect := none, mutation := .delete,
    expected := recordedState row, planned := .missing, input := none }

/-- Where a mutation comes from. Every mutation is a rewrite, a deletion or a restoration of some
row, or the creation of an item without one, and the facts about plans are proved by these cases. -/
inductive Origin (input : ResourcePlanningInput)
    (items : Map ManagedIdentity ResolvedMaterialization) : PlannedMutation → Prop where
  | remove {row : ManagedItem} {current : ObservedItem} (exact : Exact input row current)
      (undesired : items[row.identity]? = none) : Origin input items (removeMutation row)
  | restore {row : ManagedItem} {desired : ResolvedMaterialization} (mem : row ∈ input.managed.rows)
      (missing : ∀ current, ¬Exact input row current)
      (desires : items[row.identity]? = some desired) :
      Origin input items (materializeMutation row desired .create .missing)
  | rewrite {row : ManagedItem} {current : ObservedItem} {desired : ResolvedMaterialization}
      (exact : Exact input row current) (desires : items[row.identity]? = some desired)
      (unsettled : ¬Settled row desired) : Origin input items (rewriteMutation row desired)
  | fresh {desired : ResolvedMaterialization}
      (desires : items[desired.managedIdentity]? = some desired)
      (unknown : ∀ row ∈ input.managed.rows, row.identity ≠ desired.managedIdentity) :
      Origin input items (createMutation desired)

/-! ### Evidence of a row -/

variable {row : ManagedItem} {current : ObservedItem}

theorem Exact.of_identity {other : ManagedItem} (h : Exact input other current)
    (hrow : row ∈ input.managed.rows) (heq : other.identity = row.identity) : Exact input row current :=
  inj_on_of_nodup_map input.managed.identities_nodup h.mem hrow heq ▸ h

theorem matched_row (hrow : row ∈ input.managed.rows) :
    (matched input)[row.identity]? = some current ↔ Exact input row current := by
  rw [matched_eq_some_iff]
  exact ⟨fun ⟨_, hother, heq⟩ => hother.of_identity hrow heq, fun h => ⟨row, h, rfl⟩⟩

/-- A row's native identity has one observed item. -/
theorem Exact.unique {row row' : ManagedItem} {current current' : ObservedItem}
    (h : Exact input row current) (h' : Exact input row' current')
    (hnative : row.nativeIdentity = row'.nativeIdentity) : row = row' ∧ current = current' := by
  have hrow : row = row' :=
    inj_on_of_nodup_map input.managed.natives_nodup h.mem h'.mem hnative
  subst hrow
  exact ⟨rfl, Option.some.inj (h.found.symm.trans h'.found)⟩

namespace IsPlan

variable [EffectDigest] (h : IsPlan input plan resolved)
include h

theorem fingerprint_eq (hexact : Exact input row current) : current.fingerprint = row.fingerprint :=
  h.undrifted row hexact.mem current ((matched_row hexact.mem).mpr hexact)

theorem previousState_eq (hexact : Exact input row current) :
    previousState row current = recordedState row := by
  rw [previousState, recordedState, h.fingerprint_eq hexact,
    input.observed.keyed _ _ hexact.found]

/-! ### The items of the projection -/

theorem item_mem {identity : ManagedIdentity} {item : ResolvedMaterialization}
    (hitem : plan.projection.items[identity]? = some item) :
    item ∈ resolved ∧ item.managedIdentity = identity := by
  rw [h.items, Map.getElem?_insertEntries_eq_getLast?] at hitem
  have hlast : (resolved.filter fun e => e.managedIdentity = identity).getLast? = some item := by
    simpa using hitem
  obtain ⟨hmem, hkey⟩ := mem_filter.mp (mem_of_getLast? hlast)
  exact ⟨hmem, by simpa using hkey⟩

theorem item_native_inj {identity identity' : ManagedIdentity} {item item' : ResolvedMaterialization}
    (hitem : plan.projection.items[identity]? = some item)
    (hitem' : plan.projection.items[identity']? = some item')
    (hnative : item.nativeIdentity = item'.nativeIdentity) : identity = identity' := by
  obtain ⟨hmem, hid⟩ := h.item_mem hitem
  obtain ⟨hmem', hid'⟩ := h.item_mem hitem'
  have hnodup : (resolved.map (·.nativeIdentity)).Nodup := pairwise_map.mpr h.natives
  rw [← hid, ← hid', inj_on_of_nodup_map hnodup hmem hmem' hnative]

/-- What is observed under the native identity of an item is some row's. -/
theorem exact_of_item {identity : ManagedIdentity} {item : ResolvedMaterialization}
    (hitem : plan.projection.items[identity]? = some item)
    (hfound : input.observed.items[item.nativeIdentity]? = some current) :
    ∃ row, Exact input row current ∧ row.nativeIdentity = item.nativeIdentity := by
  by_contra hno
  obtain ⟨kept, hkept, hnative⟩ := mem_preserved_iff.mpr ⟨current, hfound, fun row hrow =>
    hno ⟨row, hrow, by
      rw [← input.observed.keyed _ _ hrow.found, input.observed.keyed _ _ hfound]⟩⟩
  exact h.unpreserved identity item hitem kept hkept hnative

end IsPlan

/-! ### The mutations -/

section

variable (input : ResourcePlanningInput) (items : Map ManagedIdentity ResolvedMaterialization)

/-- The mutation a ledger row asks for, by its own observation and what is wanted of it; the other
rows have no say. -/
def rowMutation (row : ManagedItem) : Option PlannedMutation :=
  (rowChange (planRow input.generation (.resource input.resource) (matched input) items row)).bind
    PlannedResourceChange.mutation?

/-- The items that have no ledger row. Their creations end the plan. -/
def freshItems : List ResolvedMaterialization :=
  (Map.valueList items).filter fun desired =>
    desired.managedIdentity ∉ input.managed.rows.map (·.identity)

end

theorem rowMutation_missing {items : Map ManagedIdentity ResolvedMaterialization}
    (hrow : row ∈ input.managed.rows) (hmissing : ∀ current, ¬Exact input row current) :
    rowMutation input items row = (items[row.identity]?).map
      fun desired => materializeMutation row desired .create .missing := by
  have hnone : (matched input)[row.identity]? = none :=
    Option.eq_none_iff_forall_ne_some.mpr fun current => (matched_row hrow).not.mpr (hmissing current)
  rcases hitem : items[row.identity]? with _ | desired <;>
    simp [rowMutation, planRow, hnone, hitem, rowChange, PlannedResourceChange.mutation?]

variable {mutation : PlannedMutation}

theorem rowMutation_identity {items : Map ManagedIdentity ResolvedMaterialization}
    (hmutation : rowMutation input items row = some mutation) :
    mutation.managedIdentity = row.identity := by
  obtain ⟨change, hchange, hmut⟩ := Option.bind_eq_some_iff.mp hmutation
  simp only [planRow] at hchange
  split at hchange
  · cases hchange
    cases hmut
  · cases hchange
    cases hmut
    rfl
  split at hchange
  · cases hchange
  split at hchange
  · cases hchange
    cases hmut
    rfl
  split at hchange
  · cases hchange
  · cases hchange
    cases hmut
    rfl

namespace IsPlan

variable [EffectDigest] (h : IsPlan input plan resolved)
include h

theorem mutations_eq : plan.mutations =
    input.managed.rows.filterMap (rowMutation input plan.projection.items) ++
      (freshItems input plan.projection.items).map createMutation := by
  rw [ResourcePlan.mutations, h.changes, planChanges, filterMap_append, filterMap_map,
    filterMap_filterMap, filterMap_map]
  congr 1
  exact congrFun filterMap_eq_map _

theorem rowMutation_undesired (hexact : Exact input row current)
    (hitem : plan.projection.items[row.identity]? = none) :
    rowMutation input plan.projection.items row = some (removeMutation row) := by
  have hsome := (matched_row hexact.mem).mpr hexact
  have hprev := h.previousState_eq hexact
  simp [rowMutation, planRow, hsome, hitem, h.fingerprint_eq hexact, rowChange,
    PlannedResourceChange.mutation?, deleteMutation, removeMutation, hprev]

variable {desired : ResolvedMaterialization}

theorem rowMutation_desired (hexact : Exact input row current)
    (hitem : plan.projection.items[row.identity]? = some desired) :
    rowMutation input plan.projection.items row =
      if Settled row desired then none else some (rewriteMutation row desired) := by
  have hsome := (matched_row hexact.mem).mpr hexact
  simp only [rowMutation, planRow, hsome, hitem, h.fingerprint_eq hexact, ne_eq, not_true_eq_false,
    if_false, h.previousState_eq hexact]
  rcases Classical.em (Settled row desired) with hsettled | hsettled
  · rw [if_pos hsettled, if_pos (id hsettled : _ ∧ _ ∧ _)]
    rfl
  · rw [if_neg hsettled, if_neg (id hsettled : ¬(_ ∧ _ ∧ _))]
    rfl

theorem origin (hmem : mutation ∈ plan.mutations) :
    Origin input plan.projection.items mutation := by
  rw [h.mutations_eq, mem_append] at hmem
  rcases hmem with hmem | hmem
  · obtain ⟨row, hrow, heq⟩ := mem_filterMap.mp hmem
    by_cases hexact : ∃ current, Exact input row current
    · obtain ⟨current, hexact⟩ := hexact
      rcases hitem : plan.projection.items[row.identity]? with _ | desired
      · rw [h.rowMutation_undesired hexact hitem] at heq
        cases heq
        exact .remove hexact hitem
      rw [h.rowMutation_desired hexact hitem] at heq
      split at heq
      · cases heq
      · rename_i hunsettled
        cases heq
        exact .rewrite hexact hitem hunsettled
    · have hmissing := not_exists.mp hexact
      rw [rowMutation_missing hrow hmissing, Option.map_eq_some_iff] at heq
      obtain ⟨desired, hitem, rfl⟩ := heq
      exact .restore hrow hmissing hitem
  · obtain ⟨desired, hfresh, rfl⟩ := mem_map.mp hmem
    obtain ⟨hvalue, hunknown⟩ := mem_filter.mp hfresh
    obtain ⟨identity, hitem⟩ := Map.mem_valueList.mp hvalue
    obtain rfl := (h.item_mem hitem).2
    refine .fresh hitem fun row hrow heq => ?_
    simp only [decide_eq_true_eq] at hunknown
    exact hunknown (mem_map.mpr ⟨row, hrow, heq⟩)

theorem mem_mutations_of_row (hrow : row ∈ input.managed.rows)
    (hmutation : rowMutation input plan.projection.items row = some mutation) :
    mutation ∈ plan.mutations := by
  rw [h.mutations_eq]
  exact mem_append_left _ (mem_filterMap.mpr ⟨row, hrow, hmutation⟩)

theorem mem_mutations_of_fresh
    (hitem : plan.projection.items[desired.managedIdentity]? = some desired)
    (hunknown : ∀ row ∈ input.managed.rows, row.identity ≠ desired.managedIdentity) :
    createMutation desired ∈ plan.mutations := by
  rw [h.mutations_eq]
  refine mem_append_right _ (mem_map_of_mem (mem_filter.mpr
    ⟨Map.mem_valueList.mpr ⟨_, hitem⟩, ?_⟩))
  simpa using hunknown

/-- No two mutations of a plan have one identity. -/
theorem mutations_pairwise : plan.mutations.Pairwise fun x y => x.managedIdentity ≠ y.managedIdentity := by
  rw [h.mutations_eq, pairwise_append, pairwise_filterMap, pairwise_map]
  refine ⟨?_, ?_, ?_⟩
  · refine (pairwise_map.mp input.managed.identities_nodup).imp ?_
    intro row row' hne mutation hmutation mutation' hmutation'
    rw [rowMutation_identity hmutation, rowMutation_identity hmutation']
    exact hne
  · refine (Map.pairwise_valueList ?_).filter _
    exact fun identity item hitem => (h.item_mem hitem).2
  · intro mutation hmutation mutation' hmutation' heq
    obtain ⟨row, hrow, hmutation⟩ := mem_filterMap.mp hmutation
    obtain ⟨desired, hfresh, rfl⟩ := mem_map.mp hmutation'
    have hunknown := (mem_filter.mp hfresh).2
    simp only [decide_eq_true_eq] at hunknown
    exact hunknown (mem_map.mpr ⟨row, hrow, (rowMutation_identity hmutation).symm.trans heq⟩)

theorem mutation_eq_of_identity {mutation mutation' : PlannedMutation}
    (hmem : mutation ∈ plan.mutations) (hmem' : mutation' ∈ plan.mutations)
    (heq : mutation.managedIdentity = mutation'.managedIdentity) : mutation = mutation' :=
  inj_on_of_nodup_map (pairwise_map.mpr h.mutations_pairwise) hmem hmem' heq

/-- The mutations of two rows stand in the order of the rows. -/
theorem rowMutation_precedes {row row' : ManagedItem} (hrows : StandsBefore input.managed.rows row row')
    {mutation mutation' : PlannedMutation}
    (hmutation : rowMutation input plan.projection.items row = some mutation)
    (hmutation' : rowMutation input plan.projection.items row' = some mutation') :
    StandsBefore plan.mutations mutation mutation' := by
  rw [h.mutations_eq]
  exact (hrows.filterMap hmutation hmutation').append_right

/-- A creation for an item without a row stands after every mutation of a row. -/
theorem rowMutation_precedes_fresh (hrow : row ∈ input.managed.rows)
    (hmutation : rowMutation input plan.projection.items row = some mutation)
    (hitem : plan.projection.items[desired.managedIdentity]? = some desired)
    (hunknown : ∀ row ∈ input.managed.rows, row.identity ≠ desired.managedIdentity) :
    StandsBefore plan.mutations mutation (createMutation desired) := by
  rw [h.mutations_eq]
  refine .append_of_mem (mem_filterMap.mpr ⟨row, hrow, hmutation⟩) ?_
  refine mem_map_of_mem (mem_filter.mpr ⟨Map.mem_valueList.mpr ⟨_, hitem⟩, ?_⟩)
  simpa using hunknown

end IsPlan

end SkillPlanner

end OraDesktop.Effect
