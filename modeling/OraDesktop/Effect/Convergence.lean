import OraDesktop.Effect.Execution

/-!
# Plans converge

When do the mutations of a plan, carried out in order, lead to the projection, with nothing left to
do? Three things can go wrong, and nothing else: a row that is wanted under another name gets a
mutation that no operation accepts; a creation can stand before the deletion that frees its name;
and a Desired Effect that another one displaces from their common identity is missing from the
projection, so the next plan creates it.

## Main results

* `plan_converges_iff` — a plan is accepted, carried out, complete and final exactly when none of
  these happens
* `renamed_plan_is_refused` — the first of them, on a renamed Skill
-/

namespace OraDesktop.Effect

open SkillDirectory SkillPlanner Attempt List Map

section

variable [EffectDigest] {input : ResourcePlanningInput} {plan : ResourcePlan}
  {resolved : List ResolvedMaterialization} {directory : Directory}

/-! ### Planning again -/

/-- The ledger row that is committed for a materialized item. It names the item as it was installed,
so that the next observation of it is exact. -/
def projectedItem (resource : EffectResourceId) (generation : Generation)
    (item : ResolvedMaterialization) : ManagedItem :=
  { identity := item.managedIdentity, resource, desiredEffect := item.desiredEffect,
    appliedRevision := item.revision, nativeIdentity := item.nativeIdentity,
    fingerprint := item.fingerprint, appliedGeneration := generation }

/-- The ledger rows the reconciler commits for a plan, in the place of all rows of the Resource: one
for each projected item, whether or not it had a mutation. -/
def projectedManaged (plan : ResourcePlan) : List ManagedItem :=
  (Map.valueList plan.projection.items).map
    (projectedItem plan.projection.resource plan.projection.generation)

/-- The input of the next plan, made from the committed ledger and what is then observed, with
everything wanted left as it was. -/
def replanInput (input : ResourcePlanningInput) (ledger : Ledger) (final : Directory) :
    ResourcePlanningInput :=
  { input with managed := ledger, observed := observeResource input.resource final }

/-- Every Desired Effect that a later one displaces from its identity yields to a later one also
under the identity it would be given anew. Two Desired Effects can have one identity where a ledger
row carries it for the one and the digest gives it to the other. -/
def Displaceable (input : ResourcePlanningInput) : Prop :=
  ∀ d ∈ desiredIds input, ∀ d' ∈ desiredIds input, compare d d' = .lt →
    managedIdentity input d' = managedIdentity input d →
      ∃ d'' ∈ desiredIds input, compare d d'' = .lt ∧
        managedIdentity input d'' = EffectDigest.forIntent input.resource d

variable {item : ResolvedMaterialization} {identity : ManagedIdentity} {d : DesiredEffectIdentity}

namespace SkillPlanner.IsPlan

variable (h : IsPlan input plan resolved)
include h

theorem mem_projectedManaged {row : ManagedItem} : row ∈ projectedManaged plan ↔
    ∃ item, plan.projection.items[row.identity]? = some item ∧
      row = projectedItem input.resource input.generation item := by
  rw [projectedManaged, mem_map]
  have hresource : plan.projection.resource = input.resource := by rw [h.projection]
  have hgeneration : plan.projection.generation = input.generation := by rw [h.projection]
  rw [hresource, hgeneration]
  constructor
  · rintro ⟨item, hmem, rfl⟩
    obtain ⟨identity, hitem⟩ := mem_valueList.mp hmem
    obtain rfl := (h.item_mem hitem).2
    exact ⟨item, hitem, rfl⟩
  · rintro ⟨item, hitem, heq⟩
    exact ⟨item, mem_valueList.mpr ⟨_, hitem⟩, heq.symm⟩

theorem exists_projectedLedger : ∃ ledger : Ledger, ledger.rows = projectedManaged plan := by
  refine ⟨⟨projectedManaged plan, ?_, ?_⟩, rfl⟩
  · rw [projectedManaged, map_map, nodup_iff_pairwise_ne, pairwise_map]
    exact pairwise_valueList fun identity item hitem => (h.item_mem hitem).2
  · rw [projectedManaged, map_map, nodup_iff_pairwise_ne, pairwise_map]
    exact pairwise_valueList_of_inj h.item_native_inj

/-! ### Who is displaced -/

theorem resolved_map : resolved.map (·.desiredEffect) = (desiredIds input).toList := by
  have hmap : ∀ {ds : List DesiredEffectIdentity} {items : List ResolvedMaterialization},
      List.Forall₂ (IsResolved input .skillDirectoryV1) ds items →
        items.map (·.desiredEffect) = ds := by
    intro ds items hforall
    induction hforall with
    | nil => rfl
    | cons hitem _ ih => rw [map_cons, hitem.desiredEffect, ih]
  exact hmap h.resolves

/-- The resolved items stand in the order of their Desired Effects. -/
theorem resolved_ordered :
    resolved.Pairwise fun x y => compare x.desiredEffect y.desiredEffect = .lt := by
  have hordered := (desiredIds input).ordered_toList
  rw [← h.resolved_map, pairwise_map] at hordered
  exact hordered

theorem resolved_desired_inj {x y : ResolvedMaterialization} (hx : x ∈ resolved) (hy : y ∈ resolved)
    (heq : x.desiredEffect = y.desiredEffect) : x = y := by
  refine inj_on_of_nodup_map ?_ hx hy heq
  rw [h.resolved_map]
  exact desiredIds_nodup input

theorem exists_resolved (hd : d ∈ desiredIds input) :
    ∃ item ∈ resolved, item.desiredEffect = d := by
  rw [← Std.ExtTreeSet.mem_toList, ← h.resolved_map] at hd
  exact mem_map.mp hd

theorem mem_desiredIds (hitem : item ∈ resolved) : item.desiredEffect ∈ desiredIds input := by
  rw [← Std.ExtTreeSet.mem_toList, ← h.resolved_map]
  exact mem_map_of_mem hitem

theorem isResolved (hitem : item ∈ resolved) :
    IsResolved input .skillDirectoryV1 item.desiredEffect item := by
  obtain ⟨d, _, hresolved⟩ := Fallible.exists_left h.resolves hitem
  exact hresolved.desiredEffect ▸ hresolved

theorem resolved_identity (hitem : item ∈ resolved) :
    item.managedIdentity = managedIdentity input item.desiredEffect :=
  (h.isResolved hitem).managedIdentity

omit [EffectDigest] h in
/-- The last item of an ordered list that has an identity is the one found under it. -/
theorem last_eq_some_iff {items : List ResolvedMaterialization}
    (hordered : items.Pairwise fun x y => compare x.desiredEffect y.desiredEffect = .lt) :
    (Map.insertEntries (fun item => some (item.managedIdentity, item)) items
        (∅ : Map ManagedIdentity ResolvedMaterialization))[identity]? = some item ↔
      item ∈ items ∧ item.managedIdentity = identity ∧
        ∀ other ∈ items, other.managedIdentity = identity →
          other = item ∨ compare other.desiredEffect item.desiredEffect = .lt := by
  rw [getElem?_insertEntries_eq_getLast?]
  have hasymm : ∀ x y : ResolvedMaterialization,
      compare x.desiredEffect y.desiredEffect = .lt →
        ¬compare y.desiredEffect x.desiredEffect = .lt := by
    intro x y hxy hyx
    rw [Std.OrientedCmp.gt_of_lt hxy] at hyx
    cases hyx
  have hlast := getLast?_filter_eq_some_iff (p := fun e => decide (e.managedIdentity = identity))
    (a := item) hordered hasymm
  simpa using hlast

theorem item_eq_some_iff :
    plan.projection.items[identity]? = some item ↔ item ∈ resolved ∧
      item.managedIdentity = identity ∧ ∀ other ∈ resolved, other.managedIdentity = identity →
        other = item ∨ compare other.desiredEffect item.desiredEffect = .lt := by
  rw [h.items]
  exact last_eq_some_iff h.resolved_ordered

/-- Some item is found under every identity that is resolved, and none below another. -/
theorem exists_item (hitem : item ∈ resolved) :
    ∃ winner, plan.projection.items[item.managedIdentity]? = some winner ∧
      (item = winner ∨ compare item.desiredEffect winner.desiredEffect = .lt) := by
  rcases hfound : plan.projection.items[item.managedIdentity]? with _ | winner
  · rw [h.items, getElem?_insertEntries_eq_getLast?, Option.or_eq_none_iff,
      List.getLast?_eq_none_iff] at hfound
    exact absurd (mem_filter.mpr ⟨hitem, by simp⟩) (hfound.1 ▸ not_mem_nil)
  · exact ⟨winner, rfl, (h.item_eq_some_iff.mp hfound).2.2 item hitem rfl⟩

/-! ### The identities of the next plan -/

section Replan

variable {ledger : Ledger} (hledger : ledger.rows = projectedManaged plan) (next : Directory)
include hledger

/-- An item that is found keeps its identity; one that is displaced gets a fresh one. -/
theorem managedIdentity_replan (hitem : item ∈ resolved) :
    managedIdentity (replanInput input ledger next) item.desiredEffect =
      if plan.projection.items[item.managedIdentity]? = some item then item.managedIdentity
      else EffectDigest.forIntent input.resource item.desiredEffect := by
  have hkeys : (ledger.rows.map (·.desiredEffect)).Nodup := by
    rw [hledger, projectedManaged, map_map, nodup_iff_pairwise_ne, pairwise_map]
    refine pairwise_valueList_of_inj fun hi hj heq => ?_
    rw [← (h.item_mem hi).2, ← (h.item_mem hj).2,
      h.resolved_desired_inj (h.item_mem hi).1 (h.item_mem hj).1 heq]
  have hlookup : ∀ row, (insertEntries (fun managed : ManagedItem =>
      some (managed.desiredEffect, managed)) ledger.rows
        (∅ : Map DesiredEffectIdentity ManagedItem))[item.desiredEffect]? = some row ↔
      row ∈ ledger.rows ∧ row.desiredEffect = item.desiredEffect :=
    fun row => getElem?_insertEntries_key_eq_some_iff hkeys
  simp only [managedIdentity, replanInput]
  by_cases hfound : plan.projection.items[item.managedIdentity]? = some item
  · have hrow := (hlookup _).mpr ⟨hledger ▸ h.mem_projectedManaged.mpr ⟨item, hfound, rfl⟩, rfl⟩
    rw [if_pos hfound, hrow]
    rfl
  rw [if_neg hfound]
  split
  · rename_i row hrow
    obtain ⟨hmem, hdesired⟩ := (hlookup row).mp hrow
    obtain ⟨other, hother, rfl⟩ := h.mem_projectedManaged.mp (hledger ▸ hmem)
    have hsame := h.resolved_desired_inj (h.item_mem hother).1 hitem hdesired
    subst hsame
    exact absurd hother hfound
  · rfl

end Replan

end SkillPlanner.IsPlan

/-- What an item resolves to in the next plan: itself, or itself under a fresh identity where the
committed ledger has its own for another. -/
def reassign (next : ResourcePlanningInput) (item : ResolvedMaterialization) :
    ResolvedMaterialization :=
  { item with managedIdentity := managedIdentity next item.desiredEffect }

namespace SkillPlanner.IsPlan

variable (h : IsPlan input plan resolved) {ledger : Ledger}
  (hledger : ledger.rows = projectedManaged plan) {next : Directory}
include h

/-- Where displaced identities yield, so does the identity a displaced item gets anew. -/
theorem displaced_below (hyields : Displaceable input) (hitem : item ∈ resolved)
    (hdisplaced : plan.projection.items[item.managedIdentity]? ≠ some item) :
    ∃ winner, plan.projection.items[EffectDigest.forIntent input.resource item.desiredEffect]? =
      some winner ∧ compare item.desiredEffect winner.desiredEffect = .lt := by
  -- the item lies below another one that shares its identity
  obtain ⟨other, htop, rfl | hlt⟩ := h.exists_item hitem
  · exact absurd htop hdisplaced
  obtain ⟨hother, hsame⟩ := h.item_mem htop
  rw [h.resolved_identity hother, h.resolved_identity hitem] at hsame
  obtain ⟨d, hd, hlt', hidentity⟩ := hyields _ (h.mem_desiredIds hitem) _ (h.mem_desiredIds hother)
    hlt hsame
  obtain ⟨above, habove, rfl⟩ := h.exists_resolved hd
  rw [← h.resolved_identity habove] at hidentity
  obtain ⟨winner, hwinner, hbelow⟩ := h.exists_item habove
  rw [hidentity] at hwinner
  rcases hbelow with rfl | hbelow
  · exact ⟨above, hwinner, hlt'⟩
  · exact ⟨winner, hwinner, Std.TransCmp.lt_trans hlt' hbelow⟩

include hledger

theorem reassign_of_found (hitem : plan.projection.items[identity]? = some item) :
    reassign (replanInput input ledger next) item = item := by
  obtain ⟨hmem, rfl⟩ := h.item_mem hitem
  rw [reassign, h.managedIdentity_replan hledger next hmem, if_pos hitem]

theorem items_reassign (hyields : Displaceable input) :
    Map.insertEntries (fun item => some (item.managedIdentity, item))
      (resolved.map (reassign (replanInput input ledger next)))
      (∅ : Map ManagedIdentity ResolvedMaterialization) = plan.projection.items := by
  have hordered : (resolved.map (reassign (replanInput input ledger next))).Pairwise
      fun x y => compare x.desiredEffect y.desiredEffect = .lt :=
    pairwise_map.mpr h.resolved_ordered
  have hidentity : ∀ x ∈ resolved, (reassign (replanInput input ledger next) x).managedIdentity =
      if plan.projection.items[x.managedIdentity]? = some x then x.managedIdentity
      else EffectDigest.forIntent input.resource x.desiredEffect :=
    fun x hx => h.managedIdentity_replan hledger next hx
  refine Std.ExtTreeMap.ext_getElem? fun identity => Option.ext fun item => ?_
  rw [last_eq_some_iff hordered]
  constructor
  · rintro ⟨hmem, hid, hmax⟩
    obtain ⟨x, hx, rfl⟩ := mem_map.mp hmem
    by_cases hfound : plan.projection.items[x.managedIdentity]? = some x
    · rw [h.reassign_of_found hledger hfound] at hid ⊢
      rw [← hid, hfound]
    -- the winner under the fresh identity is above `x`, so `x` is not the last
    rw [hidentity x hx, if_neg hfound] at hid
    obtain ⟨winner, hwinner, hlt⟩ := h.displaced_below hyields hx hfound
    rw [hid] at hwinner
    have hsame : reassign (replanInput input ledger next) winner = winner :=
      h.reassign_of_found hledger hwinner
    have hlast := hmax winner (mem_map.mpr ⟨winner, (h.item_mem hwinner).1, hsame⟩)
      (h.item_mem hwinner).2
    have hgt := Std.OrientedCmp.gt_of_lt hlt
    rcases hlast with heq | hbelow
    · rw [heq] at hlt
      exact absurd (Std.ReflCmp.compare_self.symm.trans hlt) (by decide)
    · exact absurd (hgt.symm.trans hbelow) (by decide)
  · intro hitem
    obtain ⟨hmem, hid, hmax⟩ := h.item_eq_some_iff.mp hitem
    refine ⟨mem_map.mpr ⟨item, hmem, h.reassign_of_found hledger hitem⟩, hid, ?_⟩
    intro other hother hsame
    obtain ⟨x, hx, rfl⟩ := mem_map.mp hother
    by_cases hfound : plan.projection.items[x.managedIdentity]? = some x
    · rw [h.reassign_of_found hledger hfound] at hsame ⊢
      rw [hsame] at hfound
      exact .inl (Option.some.inj (hfound.symm.trans hitem))
    · rw [hidentity x hx, if_neg hfound] at hsame
      obtain ⟨winner, hwinner, hlt⟩ := h.displaced_below hyields hx hfound
      rw [hsame, hitem] at hwinner
      exact .inr (Option.some.inj hwinner ▸ hlt)

section

variable (hfinal : Final input plan directory next)

include hfinal

/-- The row of a projected item is exact in the next observation. -/
theorem exact_replan (hitem : plan.projection.items[identity]? = some item) :
    ∃ row, row.identity = identity ∧ Settled row item ∧
      Exact (replanInput input ledger next) row (observedItem input.resource item.nativeIdentity
        (installedEntry input.resource item.fingerprint identity)) := by
  obtain ⟨_, rfl⟩ := h.item_mem hitem
  refine ⟨projectedItem input.resource input.generation item, rfl, ⟨rfl, rfl, rfl⟩, ?_, rfl, ?_, ?_⟩
  · exact hledger ▸ h.mem_projectedManaged.mpr ⟨item, hitem, rfl⟩
  · have hobserved : observeResource (replanInput input ledger next).resource next =
        (replanInput input ledger next).observed := rfl
    rw [observed_eq hobserved]
    exact congrArg (Option.map _) (hfinal.projected _ _ hitem)
  · exact ownershipEvidence_installedEntry _ item.fingerprint _

/-- Every row of the next plan is wanted, there and as it should be. -/
theorem row_replan {row : ManagedItem} (hrow : row ∈ ledger.rows) :
    ∃ item, plan.projection.items[row.identity]? = some item ∧ Settled row item ∧
      Exact (replanInput input ledger next) row (observedItem input.resource item.nativeIdentity
        (installedEntry input.resource item.fingerprint row.identity)) := by
  obtain ⟨item, hitem, _⟩ := h.mem_projectedManaged.mp (hledger ▸ hrow)
  obtain ⟨other, hidentity, hsettled, hexact⟩ := h.exact_replan hledger hfinal hitem
  obtain rfl := inj_on_of_nodup_map ledger.identities_nodup hexact.mem hrow hidentity
  exact ⟨item, hitem, hsettled, hexact⟩

/-- Where displaced identities yield, the next plan exists and has nothing to do. -/
theorem replan (hyields : Displaceable input) :
    ∃ again, planResource (replanInput input ledger next) = .ok (.projected again) ∧
      again.mutations = [] := by
  let again : ResourcePlan :=
    ⟨plan.projection, SkillPlanner.preserved (replanInput input ledger next),
      (planChanges input.generation ledger.rows (matched (replanInput input ledger next))
        plan.projection (.resource input.resource)).1⟩
  have hagain : IsPlan (replanInput input ledger next) again
      (resolved.map (reassign (replanInput input ledger next))) :=
    { observed := rfl
      requirements := h.requirements
      contract := h.contract
      resolves := by
        refine forall₂_map_right_iff.mpr (h.resolves.imp fun _ _ hitem => ?_)
        obtain ⟨desired, revision, digest, hdesired, hrevision, hnative, hdigest, heq⟩ :=
          hitem.resolved
        exact ⟨desired, revision, digest, hdesired, hrevision, hnative, hdigest, by rw [heq]; rfl⟩
      natives := pairwise_map.mpr h.natives
      items := (h.items_reassign hledger hyields).symm
      unpreserved := by
        intro identity item hitem kept hkept hnative
        obtain ⟨row, _, hsettled, hexact⟩ := h.exact_replan hledger hfinal hitem
        obtain ⟨current, hfound, hforeign⟩ := mem_preserved_iff.mp ⟨kept, hkept, hnative⟩
        have hcurrent := hexact.found
        rw [hsettled.2.2, hfound] at hcurrent
        exact hforeign row (Option.some.inj hcurrent ▸ hexact)
      digest := h.digest
      undrifted := by
        intro row hrow current hmatched
        obtain ⟨item, _, hsettled, hexact⟩ := h.row_replan hledger hfinal hrow
        obtain ⟨_, rfl⟩ := ((matched_row hrow).mp hmatched).unique hexact rfl
        exact hsettled.1.symm
      projection := h.projection
      preserved := rfl
      changes := rfl }
  refine ⟨again, planResource_eq_projected_iff.mpr ⟨_, hagain⟩, ?_⟩
  rw [hagain.mutations_eq, append_eq_nil_iff]
  constructor
  · rw [filterMap_eq_nil_iff]
    intro row hrow
    obtain ⟨item, hitem, hsettled, hexact⟩ := h.row_replan hledger hfinal hrow
    rw [hagain.rowMutation_desired hexact hitem, if_pos hsettled]
  · rw [map_eq_nil_iff, freshItems, filter_eq_nil_iff]
    intro item hitem
    obtain ⟨identity, hitem⟩ := mem_valueList.mp hitem
    obtain ⟨row, hidentity, _, hexact⟩ := h.exact_replan hledger hfinal hitem
    simp only [decide_eq_true_eq, not_not]
    exact mem_map.mpr ⟨row, hexact.mem, hidentity.trans (h.item_mem hitem).2.symm⟩

end

/-- A next plan that has nothing to do shows that displaced identities yield. -/
theorem displaceable_of_replan {again : ResourcePlan}
    (hagain : planResource (replanInput input ledger next) = .ok (.projected again))
    (hdone : again.mutations = []) : Displaceable input := by
  obtain ⟨resolved', h'⟩ := planResource_eq_projected_iff.mp hagain
  intro d hd d' hd' hlt hsame
  obtain ⟨item, hitem, rfl⟩ := h.exists_resolved hd
  obtain ⟨other, hother, rfl⟩ := h.exists_resolved hd'
  rw [← h.resolved_identity hitem, ← h.resolved_identity hother] at hsame
  have hdisplaced : plan.projection.items[item.managedIdentity]? ≠ some item := by
    intro hfound
    rcases (h.item_eq_some_iff.mp hfound).2.2 other hother hsame with rfl | hbelow
    · exact absurd (Std.ReflCmp.compare_self.symm.trans hlt) (by decide)
    · exact absurd ((Std.OrientedCmp.gt_of_lt hlt).symm.trans hbelow) (by decide)
  -- the item under the fresh identity is settled, so the ledger has it already
  obtain ⟨item', hitem', hdesired⟩ := h'.exists_resolved hd
  have hfresh := h'.resolved_identity hitem'
  rw [hdesired, h.managedIdentity_replan hledger next hitem, if_neg hdisplaced] at hfresh
  obtain ⟨winner', hwinner', habove⟩ := h'.exists_item hitem'
  obtain ⟨row, _, hexact, hidentity, hsettled⟩ := h'.settled_of_no_mutation hwinner'
    (by simp [hdone])
  obtain ⟨winner, hwinner, hrow⟩ := h.mem_projectedManaged.mp (hledger ▸ hexact.mem)
  have hnative : winner.nativeIdentity = winner'.nativeIdentity := by
    rw [← hsettled.2.2, hrow]
    rfl
  rw [hidentity, hfresh] at hwinner
  have hwinnerMem := (h.item_mem hwinner).1
  have hwinnerDesired : winner.desiredEffect = winner'.desiredEffect := by
    have hmem' := (h'.item_mem hwinner').1
    obtain ⟨twin, htwin, heq⟩ := h.exists_resolved (h'.mem_desiredIds hmem')
    obtain ⟨desired, revision, _, hdesired, hrevision, hresolved, _⟩ :=
      (heq ▸ h.isResolved htwin).resolved
    obtain ⟨desired', revision', _, hdesired', hrevision', hresolved', _⟩ :=
      (h'.isResolved hmem').resolved
    obtain rfl := Option.some.inj (hdesired.symm.trans hdesired')
    obtain rfl := Option.some.inj (hrevision.symm.trans hrevision')
    have htwinNative := Except.ok.inj (hresolved.symm.trans hresolved')
    have hnodup : (resolved.map (·.nativeIdentity)).Nodup := pairwise_map.mpr h.natives
    rw [inj_on_of_nodup_map hnodup hwinnerMem htwin (hnative.trans htwinNative.symm), heq]
  refine ⟨winner.desiredEffect, h.mem_desiredIds hwinnerMem, ?_, ?_⟩
  · rw [hwinnerDesired, ← hdesired]
    refine habove.resolve_left fun heq => ?_
    have hself : winner = item :=
      h.resolved_desired_inj hwinnerMem hitem (by rw [hwinnerDesired, ← heq, hdesired])
    subst hself
    rw [← (h.item_mem hwinner).2] at hwinner
    exact hdisplaced hwinner
  · rw [← h.resolved_identity hwinnerMem, (h.item_mem hwinner).2]

end SkillPlanner.IsPlan

/-! ### Convergence -/

/-- The operations are prepared from the mutations, one from each. -/
def PreparedFrom (input : ResourcePlanningInput) (mutations : List PlannedMutation)
    (operations : List EffectOperation) : Prop :=
  List.Forall₂ (fun mutation operation => ∃ sequence,
    EffectOperation.prepare input.resource input.generation sequence mutation = .ok operation)
    mutations operations

/-- The plan is executable and complete, from the directory it was made for. -/
structure Converges (input : ResourcePlanningInput) (plan : ResourcePlan) (directory : Directory) :
    Prop where
  /-- Every mutation becomes an operation, so that none is lost between the plan and the journal. -/
  accepted : ∀ mutation ∈ plan.mutations, ∀ sequence, ∃ operation,
    EffectOperation.prepare input.resource input.generation sequence mutation = .ok operation
  /-- Every operation finds its exact expected state when its turn comes. -/
  finds : ∀ operations, PreparedFrom input plan.mutations operations →
    ∀ before operation after, operations = before ++ operation :: after → ∃ reached,
      applyAll directory before = .ok reached ∧ stateMatchesExpected reached operation = .ok true
  /-- What is left is the projection and the preserved items, and the plan made from it with the
  committed ledger has no mutation. -/
  completes : ∀ operations, PreparedFrom input plan.mutations operations → ∃ final,
    applyAll directory operations = .ok final ∧ Final input plan directory final ∧
      ∃ ledger : Ledger, ledger.rows = projectedManaged plan ∧ ∃ again,
        planResource (replanInput input ledger final) = .ok (.projected again) ∧
          again.mutations = []

/-- None of the three things that keep a plan from converging happens: a move to another name, a
creation before its name is freed, a displaced identity that does not yield. -/
structure Orderly (input : ResourcePlanningInput) (plan : ResourcePlan) : Prop where
  inPlace : InPlace input plan
  freedFirst : FreedFirst input plan
  displaceable : Displaceable input

omit [EffectDigest] in
theorem PreparedFrom.carries {mutations : List PlannedMutation} {operations : List EffectOperation}
    (h : PreparedFrom input mutations operations) :
    List.Forall₂ (Carries input.resource) mutations operations :=
  h.imp fun _ _ ⟨_, hprepare⟩ => (carries_of_prepare hprepare).1

omit [EffectDigest] in
theorem exists_preparedFrom : ∀ {mutations : List PlannedMutation}, (∀ mutation ∈ mutations,
    ∃ operation, EffectOperation.prepare input.resource input.generation 0 mutation = .ok operation) →
      ∃ operations, PreparedFrom input mutations operations
  | [], _ => ⟨[], .nil⟩
  | mutation :: mutations, h => by
    obtain ⟨⟨operation, hhead⟩, htail⟩ := forall_mem_cons.mp h
    obtain ⟨operations, hoperations⟩ := exists_preparedFrom htail
    exact ⟨operation :: operations, .cons ⟨0, hhead⟩ hoperations⟩

/-- A plan for the directory that was observed is accepted, finds before every step what it expects
and leaves nothing to do for a second plan, just if it is orderly. Each part of `Orderly` is needed:
the planner can emit plans that fail it. -/
theorem plan_converges_iff (h : planResource input = .ok (.projected plan))
    (hobserved : observeResource input.resource directory = input.observed) :
    Converges input plan directory ↔ Orderly input plan := by
  obtain ⟨resolved, hplan⟩ := planResource_eq_projected_iff.mp h
  constructor
  · intro hconverges
    have hshape : ∀ mutation ∈ plan.mutations, Preparable mutation := fun mutation hmem =>
      (prepare_accepts_iff input.generation 0 (hplan.source hmem)).mp
        (hconverges.accepted mutation hmem 0)
    have hin := hplan.preparable_iff_inPlace.mp hshape
    obtain ⟨operations, hoperations⟩ :=
      exists_preparedFrom fun mutation hmem => hconverges.accepted mutation hmem 0
    have hready := (ready_iff_finds_expected hshape hoperations.carries).mpr
      (hconverges.finds operations hoperations)
    obtain ⟨_, _, _, ledger, hledger, again, hagain, hdone⟩ :=
      hconverges.completes operations hoperations
    exact ⟨hin, hplan.freedFirst_of_ready hin hobserved hready,
      hplan.displaceable_of_replan hledger hagain hdone⟩
  · rintro ⟨hin, hfreed, hyields⟩
    have hshape := hplan.preparable_iff_inPlace.mpr hin
    have hready := hplan.ready_of_freedFirst hin hfreed hobserved
    refine ⟨fun mutation hmem sequence => ?_, fun operations hoperations => ?_,
      fun operations hoperations => ?_⟩
    · exact (prepare_accepts_iff _ sequence (hplan.source hmem)).mpr (hshape mutation hmem)
    · exact (ready_iff_finds_expected hshape hoperations.carries).mp hready
    · obtain ⟨ledger, hledger⟩ := hplan.exists_projectedLedger
      have hfinal := hplan.final hin hfreed hobserved
      exact ⟨_, applyAll_of_ready hshape hoperations.carries hready, hfinal, ledger, hledger,
        hplan.replan hledger hfinal hyields⟩

end

/-- The mutation that moves a renamed Skill is refused, so its plan does not converge. -/
theorem renamed_plan_is_refused :
    let _ := EffectDigest.spelled
    ∃ plan, planResource renamedInput = .ok (.projected plan) ∧
      (∃ mutation ∈ plan.mutations, ∀ sequence, EffectOperation.prepare renamedInput.resource
        renamedInput.generation sequence mutation = .error .invalidMutationStates) ∧
      ¬Converges renamedInput plan (installed [skillRow "a" "first" "alpha"]) := by
  intro _
  have hrun : plansTo renamedInput (fun plan => (plan.mutations.map (·.outline)).contains
      (.replace, .present "alpha" "content:alpha" "a",
        .present "beta" "content:beta" "a")) = true := by
    decide +kernel
  obtain ⟨plan, hplan, htest⟩ := exists_of_plansTo hrun
  obtain ⟨mutation, hmem, houtline⟩ := mem_map.mp (contains_iff_mem.mp htest)
  simp only [PlannedMutation.outline, Prod.mk.injEq] at houtline
  have hrefused : ∀ sequence, EffectOperation.prepare renamedInput.resource renamedInput.generation
      sequence mutation = .error .invalidMutationStates := by
    intro sequence
    rw [EffectOperation.prepare, houtline.1, houtline.2.1, houtline.2.2]
    rfl
  refine ⟨plan, hplan, ⟨mutation, hmem, hrefused⟩, fun hconverges => ?_⟩
  obtain ⟨operation, hoperation⟩ := hconverges.accepted mutation hmem 0
  cases (hrefused 0).symm.trans hoperation

/-- A plan that exchanges a Skill for another of the same name is orderly, so it converges. -/
theorem plan_converges_iff_exchanged :
    let _ := EffectDigest.spelled
    ∃ plan, planResource exchangedInput = .ok (.projected plan) ∧ plan.mutations.length = 2 ∧
      Converges exchangedInput plan exchangedDirectory := by
  intro _
  have hrun : plansTo exchangedInput (fun plan => plan.mutations.length == 2 &&
      plan.projection.items["a"]?.isNone) = true := by decide +kernel
  obtain ⟨plan, hplan, htest⟩ := exists_of_plansTo hrun
  simp only [Bool.and_eq_true, beq_iff_eq, Option.isNone_iff_eq_none] at htest
  obtain ⟨hlength, hgone⟩ := htest
  refine ⟨plan, hplan, hlength, (plan_converges_iff hplan rfl).mpr ⟨?_, ?_, ?_⟩⟩
  · intro row current desired hexact hitem
    obtain rfl := mem_singleton.mp hexact.mem
    cases hgone.symm.trans hitem
  · intro row hrow _ desired hitem
    obtain rfl := mem_singleton.mp hrow
    cases hgone.symm.trans hitem
  · intro d hd d' hd' hlt
    have hids : (desiredIds exchangedInput).toList = ["second"] := by decide +kernel
    rw [← Std.ExtTreeSet.mem_toList, hids, mem_singleton] at hd hd'
    subst hd hd'
    cases hlt

end OraDesktop.Effect
