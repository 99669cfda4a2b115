import OraDesktop.Effect.Ownership

/-!
# Carrying out the mutations of a plan

The edits of a plan work on one name each, and two of them share a name only where one removes an
item and the other puts a new one in its place. So the mutations can be carried out in order when
every such pair stands in this order, and what they leave is read off name by name.

## Main results

* `IsPlan.preparable_iff_inPlace` — when every mutation becomes an operation
* `IsPlan.ready_of_freedFirst`, `IsPlan.freedFirst_of_ready` — when each finds what it expects
* `IsPlan.final` — what they leave: the projected items and the preserved ones
-/

namespace OraDesktop.Effect

open SkillDirectory SkillPlanner Attempt List Edit

section

variable [EffectDigest] {input : ResourcePlanningInput} {plan : ResourcePlan}
  {resolved : List ResolvedMaterialization} {directory : Directory}

/-- No row is wanted under another name than the one it is observed under. A rewrite that moves its
item is planned all the same, but no operation can be prepared from it. -/
def InPlace (input : ResourcePlanningInput) (plan : ResourcePlan) : Prop :=
  ∀ row current desired, Exact input row current →
    plan.projection.items[row.identity]? = some desired → row.nativeIdentity = desired.nativeIdentity

/-- Where a missing item is wanted under the name another row holds, that row stands before it. The
mutations of rows follow the order of the ledger, which knows nothing of names. -/
def FreedFirst (input : ResourcePlanningInput) (plan : ResourcePlan) : Prop :=
  ∀ row ∈ input.managed.rows, (∀ current, ¬Exact input row current) →
    ∀ desired, plan.projection.items[row.identity]? = some desired →
      ∀ holder current, Exact input holder current →
        holder.nativeIdentity = desired.nativeIdentity →
          StandsBefore input.managed.rows holder row

/-- Everything the mutations leave: the projected items and the preserved ones. -/
structure Final (input : ResourcePlanningInput) (plan : ResourcePlan) (directory final : Directory) :
    Prop where
  projected : ∀ (identity : ManagedIdentity) item, plan.projection.items[identity]? = some item →
    final[item.nativeIdentity]? = some (installedEntry input.resource item.fingerprint identity)
  preserved : ∀ kept ∈ plan.preserved,
    final[kept.nativeIdentity]? = directory[kept.nativeIdentity]?
  nothingElse : ∀ native entry, final[native]? = some entry →
    (∃ (identity : ManagedIdentity) (item : ResolvedMaterialization),
        plan.projection.items[identity]? = some item ∧ item.nativeIdentity = native) ∨
      ∃ kept ∈ plan.preserved, kept.nativeIdentity = native

namespace SkillPlanner.IsPlan

variable (h : IsPlan input plan resolved)
include h

theorem mutations_nodup : plan.mutations.Nodup :=
  List.Nodup.of_map _ (pairwise_map.mpr h.mutations_pairwise)

/-! ### Acceptance -/

theorem preparable_iff_inPlace :
    (∀ mutation ∈ plan.mutations, Preparable mutation) ↔ InPlace input plan := by
  constructor
  · intro hall row current desired hexact hdesired
    by_contra hne
    have hrow := h.rowMutation_desired hexact hdesired
    rw [if_neg fun hsettled => hne hsettled.2.2] at hrow
    have hkind : (rewriteMutation row desired).mutation = .replace := if_neg hne
    -- only a rewrite can be labelled so, and it would stay under its name
    cases hall _ (h.mem_mutations_of_row hexact.mem hrow) with
    | create kind _ _ _ => rw [hkind] at kind; cases kind
    | delete kind _ _ => rw [hkind] at kind; cases kind
    | rewrite _ expected planned _ =>
      obtain ⟨hprevious, _, _⟩ := ExactPreviousState.present.inj expected
      obtain ⟨hplanned, _, _⟩ := ExactPlannedState.present.inj planned
      exact hne (hprevious.trans hplanned.symm)
  · intro hin mutation hmem
    cases h.origin hmem with
    | remove => exact .delete rfl rfl rfl
    | restore | fresh => exact .create rfl rfl rfl rfl
    | @rewrite row current desired exact desires _ =>
      have hnative := hin row current desired exact desires
      have hplanned : (rewriteMutation row desired).planned =
          .present row.nativeIdentity desired.fingerprint row.identity :=
        congrArg (ExactPlannedState.present · _ _) hnative.symm
      exact .rewrite (.inl (if_pos hnative)) rfl hplanned rfl

/-! ### The edits of a plan -/

variable {mutation : PlannedMutation}

/-- An edit removes the item of a row that is not wanted, or leaves the item that is. -/
theorem edit_cases (hin : InPlace input plan) (hmem : mutation ∈ plan.mutations) :
    (∃ row current, Exact input row current ∧ plan.projection.items[row.identity]? = none ∧
      mutation = removeMutation row) ∨
    ∃ item, plan.projection.items[mutation.managedIdentity]? = some item ∧
      (editOf input.resource mutation).key = item.nativeIdentity ∧
      (editOf input.resource mutation).planned =
        some (installedEntry input.resource item.fingerprint mutation.managedIdentity) := by
  cases h.origin hmem with
  | remove exact undesired => exact .inl ⟨_, _, exact, undesired, rfl⟩
  | restore _ _ desires | fresh desires _ => exact .inr ⟨_, desires, rfl, rfl⟩
  | rewrite exact desires _ => exact .inr ⟨_, desires, hin _ _ _ exact desires, rfl⟩

theorem mutation_eq_of_item {mutation mutation' : PlannedMutation}
    (hmem : mutation ∈ plan.mutations) (hmem' : mutation' ∈ plan.mutations)
    {item item' : ResolvedMaterialization}
    (hitem : plan.projection.items[mutation.managedIdentity]? = some item)
    (hitem' : plan.projection.items[mutation'.managedIdentity]? = some item')
    (hnative : item.nativeIdentity = item'.nativeIdentity) : mutation = mutation' :=
  h.mutation_eq_of_identity hmem hmem' (h.item_native_inj hitem hitem' hnative)

variable {item : ResolvedMaterialization}

/-- A deletion stands before the mutation that reuses its name. -/
theorem remove_standsBefore (hin : InPlace input plan) (hfreed : FreedFirst input plan)
    {row : ManagedItem} {current : ObservedItem} (hexact : Exact input row current)
    (hundesired : plan.projection.items[row.identity]? = none) (hmem : mutation ∈ plan.mutations)
    (hitem : plan.projection.items[mutation.managedIdentity]? = some item)
    (hnative : row.nativeIdentity = item.nativeIdentity) :
    StandsBefore plan.mutations (removeMutation row) mutation := by
  have hrow := h.rowMutation_undesired hexact hundesired
  cases h.origin hmem with
  | remove _ undesired =>
    cases undesired.symm.trans hitem
  | restore mem missing desires =>
    obtain rfl := Option.some.inj (desires.symm.trans hitem)
    refine h.rowMutation_precedes (hfreed _ mem missing _ desires row current hexact hnative) hrow ?_
    rw [rowMutation_missing mem missing, desires]
    rfl
  | rewrite exact desires _ =>
    obtain rfl := Option.some.inj (desires.symm.trans hitem)
    obtain ⟨rfl, _⟩ := hexact.unique exact (hnative.trans (hin _ _ _ exact desires).symm)
    rw [hundesired] at desires
    cases desires
  | fresh desires unknown =>
    exact h.rowMutation_precedes_fresh hexact.mem hrow desires unknown

/-! ### Every operation finds what it expects -/

variable {before after : List PlannedMutation}

section Split

variable {other : PlannedMutation} (hsplit : plan.mutations = before ++ mutation :: after)
include hsplit

/-- A mutation that stands in a list twice, once before and once at the split, stands in it once. -/
theorem ne_of_mem_before (hother : other ∈ before) : other ≠ mutation := by
  rintro rfl
  have hnodup := h.mutations_nodup
  rw [hsplit] at hnodup
  exact (nodup_append.mp hnodup).2.2 other hother other mem_cons_self rfl

theorem mem_before_of_standsBefore (hstands : StandsBefore plan.mutations other mutation) :
    other ∈ before := by
  have hnodup := h.mutations_nodup
  rw [hsplit] at hnodup hstands
  exact hstands.mem_left hnodup

theorem not_mem_before (hstands : StandsBefore plan.mutations mutation other) : other ∉ before := by
  intro hother
  refine StandsBefore.asymm h.mutations_nodup hstands ?_
  rw [hsplit]
  exact .of_mem_left hother

end Split

/-- A wanted item without a mutation is there already. -/
theorem settled_of_no_mutation {identity : ManagedIdentity}
    (hitem : plan.projection.items[identity]? = some item)
    (hno : ∀ mutation ∈ plan.mutations, mutation.managedIdentity ≠ identity) :
    ∃ row current, Exact input row current ∧ row.identity = identity ∧ Settled row item := by
  have hidentity := (h.item_mem hitem).2
  by_cases hrow : ∃ row ∈ input.managed.rows, row.identity = identity
  · obtain ⟨row, hrow, rfl⟩ := hrow
    by_cases hexact : ∃ current, Exact input row current
    · obtain ⟨current, hexact⟩ := hexact
      refine ⟨row, current, hexact, rfl, ?_⟩
      by_contra hunsettled
      have hmutation := h.rowMutation_desired hexact hitem
      rw [if_neg hunsettled] at hmutation
      exact hno _ (h.mem_mutations_of_row hrow hmutation) rfl
    · have hmutation : rowMutation input plan.projection.items row =
          some (materializeMutation row item .create .missing) := by
        rw [rowMutation_missing hrow (not_exists.mp hexact), hitem]
        rfl
      exact absurd rfl (hno _ (h.mem_mutations_of_row hrow hmutation))
  · have hunknown : ∀ row ∈ input.managed.rows, row.identity ≠ item.managedIdentity := by
      intro row hmem heq
      exact hrow ⟨row, hmem, heq.trans hidentity⟩
    rw [← hidentity] at hitem
    exact absurd hidentity (hno _ (h.mem_mutations_of_fresh hitem hunknown))

section Run

variable (hin : InPlace input plan) (hfreed : FreedFirst input plan)
  (hobserved : observeResource input.resource directory = input.observed)

include hin hfreed hobserved

/-- A creation finds its name free: no one held it, or the holder is gone. -/
theorem creation_finds_missing (hsplit : plan.mutations = before ++ mutation :: after)
    (hitem : plan.projection.items[mutation.managedIdentity]? = some item)
    (hunheld : ∀ row current, Exact input row current → row.identity ≠ mutation.managedIdentity) :
    (Edit.writeAll directory (edits input.resource before))[item.nativeIdentity]? = none := by
  have hmem : mutation ∈ plan.mutations := by simp [hsplit]
  have hsub : ∀ other ∈ before, other ∈ plan.mutations := fun other hother => by simp [hsplit, hother]
  refine getElem?_writeAll_of_forall ?_ ?_
  · intro e he hkey
    obtain ⟨other, hother, rfl⟩ := mem_map.mp he
    rcases h.edit_cases hin (hsub other hother) with ⟨_, _, _, _, rfl⟩ | ⟨item', hitem', hkey', _⟩
    · rfl
    · have heq := h.mutation_eq_of_item (hsub other hother) hmem hitem' hitem (hkey'.symm.trans hkey)
      exact absurd heq (h.ne_of_mem_before hsplit hother)
  · rcases hfound : directory[item.nativeIdentity]? with _ | entry
    · exact .inl rfl
    obtain ⟨holder, hexact, hnative⟩ := h.exact_of_item hitem
      (by rw [observed_eq hobserved, hfound]; rfl)
    rcases hdesired : plan.projection.items[holder.identity]? with _ | desired
    · have hstands := h.remove_standsBefore hin hfreed hexact hdesired hmem hitem hnative
      refine .inr ⟨_, mem_map_of_mem (h.mem_before_of_standsBefore hsplit hstands), ?_⟩
      exact hnative
    · have hsame := (hin holder _ desired hexact hdesired).symm.trans hnative
      exact absurd (h.item_native_inj hdesired hitem hsame) (hunheld holder _ hexact)

theorem ready_of_freedFirst : Edit.Ready directory (edits input.resource plan.mutations) := by
  rw [ready_edits_iff]
  intro before mutation after hsplit
  have hmem : mutation ∈ plan.mutations := by simp [hsplit]
  have hsub : ∀ other ∈ before, other ∈ plan.mutations := fun other hother => by simp [hsplit, hother]
  cases h.origin hmem with
  | @remove row current exact undesired =>
    refine (getElem?_writeAll_of_forall_ne fun e he hkey => ?_).trans
      (h.entry_of_exact hobserved exact)
    obtain ⟨other, hother, rfl⟩ := mem_map.mp he
    rcases h.edit_cases hin (hsub other hother) with
      ⟨row', _, exact', _, rfl⟩ | ⟨item, hitem, hkey', _⟩
    · obtain ⟨rfl, _⟩ := exact'.unique exact hkey
      exact h.ne_of_mem_before hsplit hother rfl
    · exact h.not_mem_before hsplit (h.remove_standsBefore hin hfreed exact undesired
        (hsub other hother) hitem (hkey.symm.trans hkey')) hother
  | @rewrite row current desired exact desires _ =>
    refine (getElem?_writeAll_of_forall_ne fun e he hkey => ?_).trans
      (h.entry_of_exact hobserved exact)
    obtain ⟨other, hother, rfl⟩ := mem_map.mp he
    rcases h.edit_cases hin (hsub other hother) with
      ⟨row', _, exact', undesired', rfl⟩ | ⟨item, hitem, hkey', _⟩
    · obtain ⟨rfl, _⟩ := exact'.unique exact hkey
      rw [undesired'] at desires
      cases desires
    · have hnative : item.nativeIdentity = desired.nativeIdentity :=
        hkey'.symm.trans (hkey.trans (hin row current desired exact desires))
      exact h.ne_of_mem_before hsplit hother
        (h.mutation_eq_of_item (hsub other hother) hmem hitem desires hnative)
  | restore mem missing desires =>
    exact h.creation_finds_missing hin hfreed hobserved hsplit desires
      fun _ current hexact heq => missing current (hexact.of_identity mem heq)
  | fresh desires unknown =>
    exact h.creation_finds_missing hin hfreed hobserved hsplit desires
      fun row _ hexact => unknown row hexact.mem

omit hfreed in
theorem freedFirst_of_ready (hready : Edit.Ready directory (edits input.resource plan.mutations)) :
    FreedFirst input plan := by
  intro row hrow hmissing desired hdesired holder current hexact hnative
  have hidentity : holder.identity ≠ row.identity := fun heq =>
    hmissing current (hexact.of_identity hrow heq)
  have hundesired : plan.projection.items[holder.identity]? = none := by
    rcases hitem : plan.projection.items[holder.identity]? with _ | item
    · rfl
    · have hsame := (hin holder current item hexact hitem).symm.trans hnative
      exact absurd (h.item_native_inj hitem hdesired hsame) hidentity
  have hcreate : rowMutation input plan.projection.items row =
      some (materializeMutation row desired .create .missing) := by
    rw [rowMutation_missing hrow hmissing, hdesired]
    rfl
  have hremove := h.rowMutation_undesired hexact hundesired
  rcases StandsBefore.total hexact.mem hrow (ne_of_apply_ne _ hidentity) with hbefore | hafter
  · exact hbefore
  -- the creation would come first and find the holder's item
  obtain ⟨before, after, hsplit⟩ :=
    append_of_mem (h.mem_mutations_of_row hrow hcreate)
  have hstands := h.rowMutation_precedes hafter hcreate hremove
  have hfound := ready_edits_iff.mp hready before _ after hsplit
  have hframe : ∀ e ∈ edits input.resource before, e.key ≠ desired.nativeIdentity := by
    intro e he hkey
    obtain ⟨other, hother, rfl⟩ := mem_map.mp he
    have hsub : other ∈ plan.mutations := by simp [hsplit, hother]
    rcases h.edit_cases hin hsub with ⟨row', _, exact', _, rfl⟩ | ⟨item, hitem, hkey', _⟩
    · obtain ⟨rfl, _⟩ := exact'.unique hexact (hkey.trans hnative.symm)
      exact h.not_mem_before hsplit hstands hother
    · have heq := h.mutation_eq_of_item hsub (h.mem_mutations_of_row hrow hcreate) hitem hdesired
        (hkey'.symm.trans hkey)
      exact h.ne_of_mem_before hsplit hother heq
  have hkey : (editOf input.resource (materializeMutation row desired .create .missing)).key =
      desired.nativeIdentity := rfl
  rw [Untouched, hkey, getElem?_writeAll_of_forall_ne hframe, ← hnative,
    h.entry_of_exact hobserved hexact] at hfound
  cases hfound

/-! ### What is left in the end -/

theorem final_projected
    {identity : ManagedIdentity} (hitem : plan.projection.items[identity]? = some item) :
    (Edit.writeAll directory (edits input.resource plan.mutations))[item.nativeIdentity]? =
      some (installedEntry input.resource item.fingerprint identity) := by
  by_cases hmutation : ∃ mutation ∈ plan.mutations, mutation.managedIdentity = identity
  · obtain ⟨mutation, hmem, rfl⟩ := hmutation
    rcases h.edit_cases hin hmem with ⟨_, _, _, hnone, rfl⟩ | ⟨item', hitem', hkey, hplanned⟩
    · cases hnone.symm.trans hitem
    obtain rfl := Option.some.inj (hitem'.symm.trans hitem)
    obtain ⟨before, after, hsplit⟩ := append_of_mem hmem
    -- nothing after the mutation works on its name
    have hlast : ∀ e ∈ edits input.resource after, e.key ≠ (editOf input.resource mutation).key := by
      intro e he heq
      obtain ⟨other, hother, rfl⟩ := mem_map.mp he
      have hsub : other ∈ plan.mutations := by simp [hsplit, hother]
      have hafter : StandsBefore plan.mutations mutation other := by
        rw [hsplit]
        exact sublist_append_of_sublist_right ((singleton_sublist.mpr hother).cons_cons _)
      rcases h.edit_cases hin hsub with ⟨row, _, exact', hnone, rfl⟩ | ⟨item', hitem', hkey', _⟩
      · exact StandsBefore.asymm h.mutations_nodup hafter
          (h.remove_standsBefore hin hfreed exact' hnone hmem hitem (heq.trans hkey))
      · have hsame := h.mutation_eq_of_item hsub hmem hitem' hitem (hkey'.symm.trans (heq.trans hkey))
        subst hsame
        exact StandsBefore.asymm h.mutations_nodup hafter hafter
    have hedits : edits input.resource plan.mutations = edits input.resource before ++
        editOf input.resource mutation :: edits input.resource after := by
      rw [hsplit, edits, map_append, map_cons]
      rfl
    rw [← hkey, ← hplanned, hedits]
    exact getElem?_writeAll_of_split hlast
  · have hno : ∀ mutation ∈ plan.mutations, mutation.managedIdentity ≠ identity :=
      fun mutation hmem heq => hmutation ⟨mutation, hmem, heq⟩
    obtain ⟨row, current, hexact, rfl, hfingerprint, _, hnative⟩ := h.settled_of_no_mutation hitem hno
    rw [← hnative, ← hfingerprint]
    refine (getElem?_writeAll_of_forall_ne fun e he hkey => ?_).trans
      (h.entry_of_exact hobserved hexact)
    obtain ⟨other, hother, rfl⟩ := mem_map.mp he
    rcases h.edit_cases hin hother with ⟨row', _, exact', hnone, rfl⟩ | ⟨item', hitem', hkey', _⟩
    · obtain ⟨rfl, _⟩ := exact'.unique hexact hkey
      cases hnone.symm.trans hitem
    · exact hno other hother
        (h.item_native_inj hitem' hitem (hkey'.symm.trans (hkey.trans hnative)))

omit hin hfreed in
theorem final_preserved {kept : PreservedItem} (hkept : kept ∈ plan.preserved) :
    (Edit.writeAll directory (edits input.resource plan.mutations))[kept.nativeIdentity]? =
      directory[kept.nativeIdentity]? := by
  rw [h.preserved] at hkept
  obtain ⟨current, hfound, hforeign⟩ := mem_preserved_iff.mp ⟨kept, hkept, rfl⟩
  refine getElem?_writeAll_of_forall_ne fun e he hkey => ?_
  obtain ⟨mutation, hmem, rfl⟩ := mem_map.mp he
  rw [observed_eq hobserved, Option.map_eq_some_iff] at hfound
  obtain ⟨entry, hentry, rfl⟩ := hfound
  rcases h.edit_key hobserved hmem with hfree | ⟨row, hrow, hres, hnative, howned⟩
  · rw [hkey, hentry] at hfree
    cases hfree
  rw [hkey] at hnative howned
  obtain rfl := Option.some.inj (hentry.symm.trans howned)
  refine hforeign row ⟨hrow, hres.trans h.observed.symm, ?_, ?_⟩
  · rw [hnative, observed_eq hobserved, hentry]
    rfl
  · exact ownershipEvidence_installedEntry _ row.fingerprint _

omit hfreed in
theorem final_nothingElse {native : NativeResourceIdentity} {entry : Entry}
    (hentry : (Edit.writeAll directory (edits input.resource plan.mutations))[native]? = some entry) :
    (∃ (identity : ManagedIdentity) (item : ResolvedMaterialization),
        plan.projection.items[identity]? = some item ∧ item.nativeIdentity = native) ∨
      ∃ kept ∈ plan.preserved, kept.nativeIdentity = native := by
  rw [h.preserved]
  by_contra hno
  obtain ⟨hunwanted, hunkept⟩ := not_or.mp hno
  -- every edit at the name removes, since no projected item has it
  have hremoves : ∀ e ∈ edits input.resource plan.mutations, e.key = native → e.planned = none := by
    intro e he hkey
    obtain ⟨mutation, hmem, rfl⟩ := mem_map.mp he
    rcases h.edit_cases hin hmem with ⟨_, _, _, _, rfl⟩ | ⟨item, hitem, hkey', _⟩
    · rfl
    · exact absurd ⟨_, item, hitem, hkey'.symm.trans hkey⟩ hunwanted
  have hgone : (writeAll directory (edits input.resource plan.mutations))[native]? = none := by
    refine getElem?_writeAll_of_forall hremoves ?_
    rcases hfound : directory[native]? with _ | found
    · exact .inl rfl
    have hobs : input.observed.items[native]? = some (observedItem input.resource native found) := by
      rw [observed_eq hobserved, hfound]
      rfl
    have hexact : ∃ row, Exact input row (observedItem input.resource native found) := by
      by_contra hforeign
      exact hunkept (mem_preserved_iff.mpr ⟨_, hobs, not_exists.mp hforeign⟩)
    obtain ⟨row, hexact⟩ := hexact
    have hnative : row.nativeIdentity = native := (input.observed.keyed _ _ hexact.found).symm
    rcases hdesired : plan.projection.items[row.identity]? with _ | desired
    · exact .inr ⟨_, mem_map_of_mem
        (h.mem_mutations_of_row hexact.mem (h.rowMutation_undesired hexact hdesired)), hnative⟩
    · exact absurd ⟨_, desired, hdesired,
        (hin row _ desired hexact hdesired).symm.trans hnative⟩ hunwanted
  rw [hgone] at hentry
  cases hentry

theorem final :
    Final input plan directory (Edit.writeAll directory (edits input.resource plan.mutations)) :=
  ⟨fun _ _ hitem => h.final_projected hin hfreed hobserved hitem,
    fun _ hkept => h.final_preserved hobserved hkept,
    fun _ _ hentry => h.final_nothingElse hin hobserved hentry⟩

end Run

end SkillPlanner.IsPlan

end

end OraDesktop.Effect
