import OraDesktop.Effect.SkillDirectory

/-!
# A reconcile attempt on one Resource

The reconciler first prepares an operation for every mutation of its plans and journals them
together, and then works through them: it applies an operation, records that it was applied, and
verifies it before it goes on. `durableStates` lists what a crash between two of these calls can
leave behind, the directory and the journal, from the moment the attempt is journalled until it is
finalized.

An attempt covers the plans of all Resources of a target, Resource after Resource, and numbers their
operations in one sequence. What is modelled here is the stretch of one Resource: its operations may
begin at any number of the sequence, and those of the other Resources work in directories of their
own.

## Main results

* `carries_of_prepareOperations` — the journal carries the plan's mutations
* `mem_durableStates` — every state left behind is the directory after some of the edits, in order
* `ready_iff_finds_expected` — the edits are ready exactly if every operation finds what it expects
-/

namespace OraDesktop.Effect

open SkillDirectory List

namespace Attempt

inductive ReconcileError where
  | operation (error : OperationTransitionError)
  | operationSequenceExhausted

/-- Prepares the operations of one Resource's plan, numbered on from what the plans before it have
used. The number is a `u32`, and using it up is an error. -/
def prepareOperations (resource : EffectResourceId) (generation : Generation) :
    Nat → List PlannedMutation → Except ReconcileError (List EffectOperation)
  | _, [] => .ok []
  | sequence, mutation :: rest => do
    let operation ← (EffectOperation.prepare resource generation sequence mutation).mapError
      ReconcileError.operation
    if 2 ^ 32 ≤ sequence + 1 then throw .operationSequenceExhausted
    let operations ← prepareOperations resource generation (sequence + 1) rest
    return operation :: operations

/-- The apply loop without its journal: the first operation that is refused ends it, and what the
ones before it changed stays. -/
def applyAll (directory : Directory) (operations : List EffectOperation) :
    Except SkillDirectoryError Directory :=
  operations.foldlM applyOperation directory

/-- What is durable between two calls of the apply loop, with `done` behind it. A turn is cut in
three: the operation is journalled, then applied, then recorded as applied; a crash can fall between
any two. -/
def durableStates (directory : Directory) (done : List EffectOperation) :
    List EffectOperation → List (Directory × List EffectOperation)
  | [] => [(directory, done)]
  | operation :: rest =>
    (directory, done ++ operation :: rest) :: match applyOperation directory operation with
      | .error _ => []
      | .ok changed =>
        (changed, done ++ operation :: rest) :: match operation.markApplied with
          | .error _ => []
          | .ok applied => match verifyOperation changed applied with
            | .error _ => [(changed, done ++ applied :: rest)]
            | .ok () => durableStates changed (done ++ [applied]) rest

/-! ### The journal -/

/-- The operation carries the mutation at a generation, with a progress that satisfies `P`. -/
structure Journalled (P : OperationProgress → Prop) (resource : EffectResourceId)
    (generation : Generation) (mutation : PlannedMutation) (operation : EffectOperation) : Prop where
  carries : Carries resource mutation operation
  atGeneration : operation.generation = generation
  progress : P operation.progress

/-- The operation is journalled and nothing of it is recorded yet, which is how a whole plan is
journalled before the first mutation. -/
abbrev Prepared := Journalled fun progress => progress = .prepared

/-- The operation is journalled and not closed: the only progress an attempt has before it is
finalized. -/
abbrev Open := Journalled fun progress => progress = .prepared ∨ progress = .applied

variable {resource : EffectResourceId} {generation : Generation}

/-- Every mutation was prepared, each with a sequence number of its own. -/
theorem prepareOperations_eq_ok : ∀ {sequence : Nat} {mutations : List PlannedMutation}
    {operations : List EffectOperation},
    prepareOperations resource generation sequence mutations = .ok operations →
      List.Forall₂ (fun mutation operation => ∃ sequence,
        EffectOperation.prepare resource generation sequence mutation = .ok operation)
        mutations operations
  | _, [], _, h => by
    cases h
    exact .nil
  | sequence, mutation :: rest, operations, h => by
    simp only [prepareOperations] at h
    obtain ⟨operation, hoperation, h⟩ := Fallible.bind_eq_ok.mp h
    obtain ⟨_, h⟩ := Fallible.if_throw_eq_ok.mp h
    obtain ⟨tail, htail, h⟩ := Fallible.bind_eq_ok.mp h
    cases h
    exact .cons ⟨sequence, Fallible.mapError_eq_ok.mp hoperation⟩ (prepareOperations_eq_ok htail)

theorem carries_of_prepareOperations {sequence : Nat} {mutations : List PlannedMutation}
    {operations : List EffectOperation}
    (h : prepareOperations resource generation sequence mutations = .ok operations) :
    List.Forall₂ (Prepared resource generation) mutations operations := by
  refine (prepareOperations_eq_ok h).imp fun mutation operation ⟨_, hoperation⟩ => ?_
  obtain ⟨hcarries, hgeneration, hprogress⟩ := carries_of_prepare hoperation
  exact ⟨hcarries, hgeneration, hprogress⟩

/-! ### What a crash leaves behind -/

/-- The mutations as edits, which is all the directory sees of them. -/
def edits (resource : EffectResourceId) (mutations : List PlannedMutation) :
    List (Edit NativeResourceIdentity Entry) :=
  mutations.map (editOf resource)

theorem ready_edits_iff {mutations : List PlannedMutation} {directory : Directory} :
    Edit.Ready directory (edits resource mutations) ↔ ∀ before mutation after,
      mutations = before ++ mutation :: after →
        Untouched resource (Edit.writeAll directory (edits resource before)) mutation := by
  rw [Edit.Ready, Edit.each_iff_forall_split]
  constructor
  · rintro h before mutation after rfl
    exact h _ _ _ (by rw [edits, map_append, map_cons]; rfl)
  · intro h pre e post heq
    obtain ⟨before, rest, rfl, rfl, hrest⟩ := map_eq_append_iff.mp heq
    obtain ⟨mutation, after, rfl, rfl, _⟩ := map_eq_cons_iff.mp hrest
    exact h before mutation after rfl

/-- One turn of the apply loop: where the operation is applied, what follows goes on from its edit. -/
theorem durableStates_cons {mutation : PlannedMutation} {directory : Directory}
    {done rest : List EffectOperation} {operation : EffectOperation}
    (hcarries : Carries resource mutation operation) (hshape : Preparable mutation)
    (hprogress : operation.progress = .prepared) :
    durableStates directory done (operation :: rest) =
      (directory, done ++ operation :: rest) ::
        if Landed resource directory mutation ∨ Untouched resource directory mutation then
          ((editOf resource mutation).write directory, done ++ operation :: rest) ::
            durableStates ((editOf resource mutation).write directory)
              (done ++ [{ operation with progress := .applied }]) rest
        else [] := by
  have hmark : operation.markApplied = .ok { operation with progress := .applied } := by
    rw [EffectOperation.markApplied, hprogress]
  have hverify : verifyOperation ((editOf resource mutation).write directory)
      { operation with progress := .applied } = .ok () := by
    rw [(hcarries.withProgress .applied).verifyOperation_iff hshape, Landed,
      Edit.getElem?_write, if_pos rfl]
  rw [durableStates, hcarries.applyOperation_eq hshape]
  by_cases hcond : Landed resource directory mutation ∨ Untouched resource directory mutation
  · simp only [if_pos hcond, hmark, hverify]
  · simp only [if_neg hcond]

theorem mem_durableStates {state : Directory × List EffectOperation}
    {mutations behind : List PlannedMutation} {directory : Directory}
    {done operations : List EffectOperation} (hshape : ∀ mutation ∈ mutations, Preparable mutation)
    (hdone : List.Forall₂ (Open resource generation) behind done)
    (hprepared : List.Forall₂ (Prepared resource generation) mutations operations)
    (hmem : state ∈ durableStates directory done operations) :
    List.Forall₂ (Open resource generation) (behind ++ mutations) state.2 ∧
      ∃ applied, applied <+: mutations ∧ state.1 = Edit.writeAll directory (edits resource applied) := by
  induction hprepared generalizing behind directory done with
  | nil =>
    obtain rfl := mem_singleton.mp hmem
    exact ⟨by simpa using hdone, [], prefix_rfl, rfl⟩
  | @cons mutation operation mutations operations hprepared hrest ih =>
    obtain ⟨hcarries, hgeneration, hprogress⟩ := hprepared
    obtain ⟨hpreparable, hshape⟩ := forall_mem_cons.mp hshape
    have htail : List.Forall₂ (Open resource generation) mutations operations :=
      hrest.imp fun _ _ h => ⟨h.carries, h.atGeneration, .inl h.progress⟩
    have hjournal := rel_append hdone (.cons ⟨hcarries, hgeneration, .inl hprogress⟩ htail)
    rw [durableStates_cons hcarries hpreparable hprogress, mem_cons] at hmem
    rcases hmem with rfl | hmem
    · exact ⟨hjournal, [], nil_prefix, rfl⟩
    split at hmem
    · rcases mem_cons.mp hmem with rfl | hmem
      · exact ⟨hjournal, [mutation], prefix_append [mutation] mutations, rfl⟩
      -- the operation is now behind, marked applied
      have happlied : Open resource generation mutation { operation with progress := .applied } :=
        ⟨hcarries.withProgress .applied, hgeneration, .inr rfl⟩
      obtain ⟨hopen, applied, hinitial, hstate⟩ := ih hshape
        (rel_append hdone (.cons happlied .nil)) hmem
      refine ⟨by simpa using hopen, mutation :: applied, ?_, hstate⟩
      exact cons_prefix_cons.mpr ⟨rfl, hinitial⟩
    · cases hmem

theorem applyAll_of_ready : ∀ {mutations : List PlannedMutation} {operations : List EffectOperation}
    {directory : Directory}, (∀ mutation ∈ mutations, Preparable mutation) →
    List.Forall₂ (Carries resource) mutations operations →
    Edit.Ready directory (edits resource mutations) →
      applyAll directory operations = .ok (Edit.writeAll directory (edits resource mutations))
  | [], _, _, _, .nil, _ => rfl
  | mutation :: mutations, operation :: operations, directory, hshape, .cons hcarries hrest, hready => by
    obtain ⟨hpreparable, hshape⟩ := forall_mem_cons.mp hshape
    obtain ⟨hhead, htail⟩ := hready
    rw [applyAll, foldlM_cons, hcarries.applyOperation_eq hpreparable, if_pos (.inr hhead)]
    exact applyAll_of_ready hshape hrest htail

/-- The mutations are ready exactly when each operation finds its expected state in its turn. -/
theorem ready_iff_finds_expected {mutations : List PlannedMutation}
    {operations : List EffectOperation} (hshape : ∀ mutation ∈ mutations, Preparable mutation)
    (hcarries : List.Forall₂ (Carries resource) mutations operations) : ∀ {directory : Directory},
    Edit.Ready directory (edits resource mutations) ↔ ∀ before operation after,
      operations = before ++ operation :: after → ∃ reached,
        applyAll directory before = .ok reached ∧
          stateMatchesExpected reached operation = .ok true := by
  induction hcarries with
  | nil => simp [edits, Edit.Ready, Edit.Each]
  | @cons mutation operation mutations operations hhead _ ih =>
    intro directory
    obtain ⟨hpreparable, hrest⟩ := forall_mem_cons.mp hshape
    have hnext : ∀ {before : List EffectOperation},
        Untouched resource directory mutation → applyAll directory (operation :: before) =
          applyAll ((editOf resource mutation).write directory) before := by
      intro before hexpected
      rw [applyAll, foldlM_cons, hhead.applyOperation_eq hpreparable, if_pos (.inr hexpected)]
      rfl
    have hfinds : stateMatchesExpected directory operation = .ok true ↔
        Untouched resource directory mutation := by
      rw [hhead.stateMatchesExpected_eq hpreparable, Except.ok.injEq, decide_eq_true_eq]
    constructor
    · rintro ⟨hexpected, htail⟩ before operation' after heq
      rcases before with _ | ⟨first, before⟩
      · cases heq
        exact ⟨directory, rfl, hfinds.mpr hexpected⟩
      · cases heq
        rw [hnext hexpected]
        exact (ih hrest).mp htail before operation' after rfl
    · intro hall
      obtain ⟨reached, hreached, hmatches⟩ := hall [] operation operations rfl
      cases hreached
      have hexpected := hfinds.mp hmatches
      refine ⟨hexpected, (ih hrest).mpr fun before operation' after heq => ?_⟩
      rw [← hnext hexpected]
      exact hall (operation :: before) operation' after (by rw [heq]; rfl)

end Attempt

end OraDesktop.Effect
