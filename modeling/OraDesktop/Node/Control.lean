import OraDesktop.Lib.UniqueKey
import OraDesktop.Node.LedgerSteps

/-!
# One control responsibility at a time

The stored binding is only ever replaced by one that keeps its tenant and workspace and lowers no
epoch, and while an execution is unfinished only by one that keeps the rest of the responsibility
too. So every unfinished execution that was accepted under a permit still agrees with the binding,
and since a new one is only accepted when nothing else is unfinished, there is at most one of them —
or a Revision delivery beside the upload of the same run. An epoch whose input was closed stays
closed: no permit of it matches any more.

## Main results

* `supersedes_of_unfinished` — what a binding must keep while an execution is unfinished
* `Step.coherent` — every write keeps the responsibility one
* `one_control_responsibility` — every history
-/

namespace OraDesktop.Node

namespace Ledger

open Journal List

variable {B : Ledger → Command → Prop} {s t : Ledger} {event : LedgerEvent} {record : Execution}
  {row : Control}

/-- The permit belongs to the responsibility the binding stands for. -/
structure Agrees (permit bound : RuntimeBinding) : Prop where
  tenant : permit.tenantId = bound.tenantId
  workspace : permit.workspaceId = bound.workspaceId
  sandbox : permit.sandboxId = bound.sandboxId
  generation : permit.runtimeGeneration = bound.runtimeGeneration
  epoch : permit.controlEpoch = bound.controlEpoch
  session : permit.sessionId = bound.sessionId
  actor : permit.actorUserId = bound.actorUserId
  operation : permit.operationId = bound.operationId

theorem Agrees.trans {a b c : RuntimeBinding} (h : Agrees a b) (h' : Agrees b c) : Agrees a c :=
  ⟨h.tenant.trans h'.tenant, h.workspace.trans h'.workspace, h.sandbox.trans h'.sandbox,
    h.generation.trans h'.generation, h.epoch.trans h'.epoch, h.session.trans h'.session,
    h.actor.trans h'.actor, h.operation.trans h'.operation⟩

theorem agrees_of_matches {permit bound : RuntimeBinding} (h : permit.matches bound = true) :
    Agrees permit bound := by
  simp only [RuntimeBinding.matches, Bool.not_eq_true', Bool.or_eq_false_iff,
    decide_eq_false_iff_not, ne_eq, not_not] at h
  obtain ⟨⟨⟨⟨⟨⟨⟨⟨⟨⟨⟨⟨_, h₁⟩, h₂⟩, h₃⟩, h₄⟩, _⟩, _⟩, _⟩, h₅⟩, h₆⟩, h₇⟩, h₈⟩, _⟩ := h
  exact ⟨h₁, h₂, h₃, h₄, h₅, h₆, h₇, h₈⟩

theorem open_of_matches {permit bound : RuntimeBinding} (h : permit.matches bound = true) :
    bound.inputClosed = false := by
  simp only [RuntimeBinding.matches, Bool.not_eq_true', Bool.or_eq_false_iff] at h
  exact h.1.1.1.1.1.1.1.1.1.1.1.1

/-! ### Replacing the binding -/

/-- The epochs never decrease, and an epoch whose input was closed stays closed. -/
structure Advances (old binding : RuntimeBinding) : Prop where
  generation : old.runtimeGeneration ≤ binding.runtimeGeneration
  controller : old.controllerEpoch ≤ binding.controllerEpoch
  control : old.controlEpoch ≤ binding.controlEpoch
  closed : old.inputClosed = true → binding.controlEpoch = old.controlEpoch →
    binding.inputClosed = true

theorem Advances.refl (binding : RuntimeBinding) : Advances binding binding :=
  ⟨Int.le_refl _, Int.le_refl _, Int.le_refl _, fun h _ => h⟩

theorem Advances.trans {a b c : RuntimeBinding} (h : Advances a b) (h' : Advances b c) :
    Advances a c where
  generation := Int.le_trans h.generation h'.generation
  controller := Int.le_trans h.controller h'.controller
  control := Int.le_trans h.control h'.control
  closed := by
    intro hclosed heq
    have hab := h.control
    have hbc := h'.control
    exact h'.closed (h.closed hclosed (by omega)) (by omega)

section

variable {binding old : RuntimeBinding} {unfinished : List ExecutionId}
  (h : supersedes binding old unfinished = true)

include h

theorem supersedes_advances : Advances old binding := by
  simp only [supersedes, Bool.not_eq_true', Bool.or_eq_false_iff, Bool.and_eq_false_iff,
    decide_eq_false_iff_not, ne_eq, not_not, Int.not_lt, Bool.not_eq_false'] at h
  obtain ⟨⟨⟨⟨⟨⟨⟨⟨_, _⟩, hgeneration⟩, _⟩, _⟩, hcontroller⟩, hcontrol⟩, hsame⟩, _⟩ := h
  refine ⟨hgeneration, hcontroller, hcontrol, fun hclosed heq => ?_⟩
  rcases hsame with hne | ⟨⟨⟨⟨_, hkept⟩, _⟩, _⟩, _⟩
  · exact absurd heq hne
  · rcases hkept with hopen | hkept
    · rw [hclosed] at hopen
      cases hopen
    · exact hkept

/-- What a binding must keep while an execution is unfinished. -/
theorem supersedes_of_unfinished (hne : unfinished ≠ []) : Agrees old binding := by
  have hempty : unfinished.isEmpty = false := by
    cases unfinished with
    | nil => exact absurd rfl hne
    | cons _ _ => rfl
  simp only [supersedes, hempty, Bool.not_eq_true', Bool.or_eq_false_iff, Bool.and_eq_false_iff,
    decide_eq_false_iff_not, ne_eq, not_not, Int.not_lt, Bool.not_eq_false', Bool.not_false,
    Bool.true_eq_false, or_false, and_false, false_and] at h
  obtain ⟨⟨⟨⟨⟨⟨⟨⟨htenant, hworkspace⟩, hgeneration⟩, hsandbox⟩, hnewer⟩, _⟩, hcontrol⟩, hsame⟩,
    hepoch⟩ := h
  have hgen : binding.runtimeGeneration = old.runtimeGeneration := by omega
  have hctl : binding.controlEpoch = old.controlEpoch := by omega
  rcases hsame with hdiffers | ⟨⟨⟨⟨_, _⟩, hsession⟩, hoperation⟩, hactor⟩
  · exact absurd hctl hdiffers
  · rcases hsandbox with hdiffers | hsandbox
    · exact absurd hgen hdiffers
    · exact ⟨htenant, hworkspace, hsandbox, hgen.symm, hctl.symm, hsession, hactor, hoperation⟩

end

/-! ### Executions under a permit -/

/-- An unfinished execution that was accepted under a permit. -/
structure Held (ledger : Ledger) (record : Execution) (row : Control) : Prop where
  mem : record ∈ ledger.executions
  controlled : row ∈ ledger.control
  same : row.execution = record.command.execution
  unfinished : record.state ≠ .completed

/-- The two families that may run side by side, in either order. -/
def Pair (family other : Family) : Prop :=
  family = .deliverRevision ∧ other = .deliverScheduledArtifacts ∨
    family = .deliverScheduledArtifacts ∧ other = .deliverRevision

/-- Everything that is held belongs to one responsibility. A binding for another one is refused
while something is unfinished, so this cannot change under what is held. -/
structure Coherent (ledger : Ledger) : Prop where
  nodup : (ledger.executions.map fun record => record.command.execution).Nodup
  unique : (ledger.control.map (·.execution)).Nodup
  known : ∀ row ∈ ledger.control, ∃ record ∈ ledger.executions,
    record.command.execution = row.execution
  agrees : ∀ record row, Held ledger record row →
    ∃ bound, ledger.binding = some bound ∧ Agrees row.permit bound
  alone : ∀ record row record' row', Held ledger record row → Held ledger record' row' →
    record.command.execution ≠ record'.command.execution →
    Pair record.command.family record'.command.family

theorem mem_unfinishedExecutionsBeside {peer : Option Family} (hrecord : record ∈ s.executions)
    (hunfinished : record.state ≠ .completed) (hpeer : peer ≠ some record.command.family) :
    record.command.execution ∈ s.unfinishedExecutionsBeside peer := by
  refine mem_append_left _ (mem_append_left _ (mem_map.mpr ⟨record, ?_, rfl⟩))
  rw [mem_filter, Bool.and_eq_true, decide_eq_true_eq, decide_eq_true_eq]
  exact ⟨hrecord, hunfinished, hpeer⟩

theorem Held.mem_unfinished (h : Held s record row) :
    record.command.execution ∈ s.unfinishedRuntimeExecutions :=
  mem_unfinishedExecutionsBeside h.mem h.unfinished nofun

theorem Coherent.of_held (h : Coherent s)
    (hcommands : t.executions.map (·.command) = s.executions.map (·.command))
    (hcontrol : t.control.map (·.execution) = s.control.map (·.execution))
    (hheld : ∀ record row, Held t record row → ∃ record' row', Held s record' row' ∧
      record'.command = record.command ∧ row'.permit = row.permit)
    (hbound : ∀ record row bound, Held s record row → s.binding = some bound →
      Agrees row.permit bound → ∃ bound', t.binding = some bound' ∧ Agrees row.permit bound') :
    Coherent t where
  nodup := by
    have hids : t.executions.map (fun record => record.command.execution) =
        s.executions.map fun record => record.command.execution := by
      simpa [Function.comp_def] using congrArg (List.map Command.execution) hcommands
    rw [hids]
    exact h.nodup
  unique := by
    rw [hcontrol]
    exact h.unique
  known := by
    intro row hrow
    have hmem : row.execution ∈ s.control.map (·.execution) := by
      rw [← hcontrol]
      exact mem_map_of_mem hrow
    obtain ⟨row', hrow', hexecution⟩ := mem_map.mp hmem
    obtain ⟨record, hrecord, hsame⟩ := h.known row' hrow'
    have hmem : record.command ∈ t.executions.map (·.command) := by
      rw [hcommands]
      exact mem_map_of_mem hrecord
    obtain ⟨record', hrecord', hcommand⟩ := mem_map.mp hmem
    exact ⟨record', hrecord', by rw [hcommand, hsame, hexecution]⟩
  agrees := by
    intro record row hrow
    obtain ⟨record', row', hold, _, hpermit⟩ := hheld record row hrow
    obtain ⟨bound, hstored, hagrees⟩ := h.agrees record' row' hold
    rw [← hpermit]
    exact hbound record' row' bound hold hstored hagrees
  alone := by
    intro record row record' row' hrow hrow' hne
    obtain ⟨old, oldRow, hold, hcommand, _⟩ := hheld record row hrow
    obtain ⟨old', oldRow', hold', hcommand', _⟩ := hheld record' row' hrow'
    rw [← hcommand, ← hcommand'] at hne ⊢
    exact h.alone old oldRow old' oldRow' hold hold' hne

theorem Coherent.of_binding (h : Coherent s) {binding : RuntimeBinding}
    (hbound : ∀ record row bound, Held s record row → s.binding = some bound →
      Agrees bound binding) : Coherent { s with binding := some binding } :=
  h.of_held rfl rfl (fun record row hheld => ⟨record, row, { hheld with }, rfl, rfl⟩)
    fun record row bound hheld hstored hagrees =>
      ⟨binding, rfl, hagrees.trans (hbound record row bound hheld hstored)⟩

/-! ### Records that change -/

theorem commands_setState (family : Family) (execution : ExecutionId) (state : State) :
    (s.setState family execution state).executions.map (·.command) =
      s.executions.map (·.command) := by
  rw [setState, map_map]
  refine map_congr_left fun record _ => ?_
  rw [Function.comp_apply]
  split <;> rfl

variable {execution : ExecutionId}

theorem Coherent.setState (h : Coherent s) {family : Family} {state : State}
    (hstate : state = .completed ∨ ∀ record ∈ s.executions,
      record.command.family = family → record.command.execution = execution →
        record.state ≠ .completed) : Coherent (s.setState family execution state) := by
  refine h.of_held (commands_setState family execution state) rfl ?_
    fun _ _ bound _ hstored hagrees => ⟨bound, hstored, hagrees⟩
  rintro record row ⟨hrecord, hrow, hsame, hunfinished⟩
  obtain ⟨old, hold, rfl⟩ := mem_map.mp hrecord
  split at hsame
  · rename_i hmatch
    rw [if_pos hmatch] at hunfinished
    refine ⟨old, row, ⟨hold, hrow, hsame, ?_⟩, by rw [if_pos hmatch], rfl⟩
    rcases hstate with rfl | hopen
    · exact absurd rfl hunfinished
    · exact hopen old hold hmatch.1 hmatch.2
  · rename_i hmatch
    rw [if_neg hmatch] at hunfinished
    exact ⟨old, row, ⟨hold, hrow, hsame, hunfinished⟩, by rw [if_neg hmatch], rfl⟩

theorem mem_markStarted (h : row ∈ (s.markStarted execution).control) :
    ∃ old ∈ s.control, old.execution = row.execution ∧ old.permit = row.permit := by
  obtain ⟨old, hold, rfl⟩ := mem_map.mp h
  refine ⟨old, hold, ?_⟩
  split <;> exact ⟨rfl, rfl⟩

theorem Coherent.markStarted (h : Coherent s) (execution : ExecutionId) :
    Coherent (s.markStarted execution) := by
  refine h.of_held rfl ?_ (fun record row hheld => ?_)
    fun _ _ bound _ hstored hagrees => ⟨bound, hstored, hagrees⟩
  · rw [Ledger.markStarted, map_map]
    refine map_congr_left fun row _ => ?_
    rw [Function.comp_apply]
    split <;> rfl
  · obtain ⟨old, hold, hexecution, hpermit⟩ := mem_markStarted hheld.controlled
    exact ⟨record, old, ⟨hheld.mem, hold, hexecution.trans hheld.same, hheld.unfinished⟩, rfl,
      hpermit⟩

/-! ### Acceptance -/

theorem execution_ne_of_fresh {command : Command}
    (hfresh : s.identityKind command.operation command.execution = .ok none)
    (hrecord : record ∈ s.executions) : record.command.execution ≠ command.execution := by
  rw [identityKind] at hfresh
  split at hfresh
  · split at hfresh <;> cases hfresh
  rename_i hnone
  intro hsame
  have hidentity := List.find?_eq_none.mp hnone
    ⟨record.command.operation, record.command.execution, record.command.family⟩
    (mem_append_left _ (mem_map.mpr ⟨record, hrecord, rfl⟩))
  simp [hsame] at hidentity

theorem family_of_unfinished {peer : Option Family} (h : s.unfinishedExecutionsBeside peer = [])
    (hrecord : record ∈ s.executions) (hunfinished : record.state ≠ .completed) :
    peer = some record.command.family := by
  by_contra hpeer
  have hmem := mem_unfinishedExecutionsBeside hrecord hunfinished hpeer
  rw [h] at hmem
  cases hmem

theorem pair_of_isPeer {family other : Family} (h : IsPeer family (some other)) :
    Pair family other := by
  rcases h with h | ⟨rfl, h⟩ | ⟨rfl, h⟩
  · cases h
  · cases h
    exact .inl ⟨rfl, rfl⟩
  · cases h
    exact .inr ⟨rfl, rfl⟩

theorem Pair.symm {family other : Family} (h : Pair family other) : Pair other family := by
  rcases h with ⟨rfl, rfl⟩ | ⟨rfl, rfl⟩
  · exact .inr ⟨rfl, rfl⟩
  · exact .inl ⟨rfl, rfl⟩

theorem mem_control_register {permit : Option RuntimeBinding} {started : Bool}
    (h : row ∈ (s.register record permit started).control) : row ∈ s.control ∨
      ∃ binding, permit = some binding ∧ row = ⟨record.command.execution, binding, started⟩ := by
  rw [register, mem_append] at h
  refine h.imp id fun hnew => ?_
  cases permit with
  | none => cases hnew
  | some binding => exact ⟨binding, rfl, mem_singleton.mp hnew⟩

/-- What is held after an acceptance: what was held before, or the new execution. -/
theorem held_register {new : Execution} {permit : Option RuntimeBinding} {started : Bool}
    (h : Coherent s)
    (hfresh : s.identityKind new.command.operation new.command.execution = .ok none)
    (hheld : Held (s.register new permit started) record row) :
    Held s record row ∨ record = new ∧ ∃ binding, permit = some binding ∧ row.permit = binding := by
  obtain ⟨hrecord, hrow, hsame, hunfinished⟩ := hheld
  rw [register, mem_append, mem_singleton] at hrecord
  rcases mem_control_register hrow with hold | ⟨binding, hpermit, rfl⟩
  · -- A row that was there belongs to a record that was there.
    obtain ⟨known, hknown, hexecution⟩ := h.known row hold
    have hne := execution_ne_of_fresh hfresh hknown
    rcases hrecord with hrecord | rfl
    · exact .inl ⟨hrecord, hold, hsame, hunfinished⟩
    · rw [hexecution] at hne
      exact absurd hsame hne
  · rcases hrecord with hrecord | rfl
    · exact absurd hsame.symm (execution_ne_of_fresh hfresh hrecord)
    · exact .inr ⟨rfl, binding, hpermit, rfl⟩

theorem Coherent.accept (h : Coherent s) {command : Command} {target : Option CloneTarget}
    {permit : Option (RuntimeBinding × Int)} {state : State} {started : Bool}
    (haccepts : Accepts s command permit state) :
    Coherent (s.register ⟨command, target, state⟩ (permit.map (·.1)) started) := by
  have hnew : ∀ binding, permit.map (·.1) = some binding →
      (∃ bound, s.binding = some bound ∧ Agrees binding bound) ∧
      ∃ peer, IsPeer command.family peer ∧ s.unfinishedExecutionsBeside peer = [] := by
    intro binding hbinding
    obtain ⟨⟨binding, now⟩, hpermit, rfl⟩ := Option.map_eq_some_iff.mp hbinding
    obtain ⟨bound, hbound, hmatches⟩ := (haccepts.permits binding now hpermit).bound
    exact ⟨⟨bound, hbound, agrees_of_matches hmatches⟩, haccepts.alone (by rw [hpermit]; rfl)⟩
  have hpair : ∀ binding, permit.map (·.1) = some binding → ∀ record row, Held s record row →
      Pair command.family record.command.family := by
    intro binding hbinding record row hheld
    obtain ⟨_, peer, hpeer, hunfinished⟩ := hnew binding hbinding
    rw [family_of_unfinished hunfinished hheld.mem hheld.unfinished] at hpeer
    exact pair_of_isPeer hpeer
  refine ⟨?_, ?_, fun row hrow => ?_, fun record row hheld => ?_,
    fun record row record' row' hheld hheld' hne => ?_⟩
  · exact UniqueKey.nodup_snoc h.nodup fun _ => execution_ne_of_fresh haccepts.fresh
  · rw [register, map_append, nodup_append]
    refine ⟨h.unique, ?_, fun execution hexecution other hother => ?_⟩
    · cases permit <;> simp
    · obtain ⟨row, hrow, rfl⟩ := mem_map.mp hexecution
      obtain ⟨record, hrecord, hsame⟩ := h.known row hrow
      have hcommand : other = command.execution := by
        cases permit with
        | none => cases hother
        | some permit => exact mem_singleton.mp hother
      rw [← hsame, hcommand]
      exact execution_ne_of_fresh haccepts.fresh hrecord
  · rcases mem_control_register hrow with hold | ⟨binding, _, rfl⟩
    · obtain ⟨record, hrecord, hsame⟩ := h.known row hold
      exact ⟨record, mem_append_left _ hrecord, hsame⟩
    · exact ⟨_, mem_append_right _ (mem_singleton_self _), rfl⟩
  · rcases held_register h haccepts.fresh hheld with hold | ⟨_, binding, hbinding, rfl⟩
    · exact h.agrees record row hold
    · exact (hnew row.permit hbinding).1
  · rcases held_register h haccepts.fresh hheld with hold | ⟨rfl, binding, hbinding, _⟩
    · rcases held_register h haccepts.fresh hheld' with hold' | ⟨rfl, binding, hbinding, _⟩
      · exact h.alone record row record' row' hold hold' hne
      · exact (hpair binding hbinding record row hold).symm
    · rcases held_register h haccepts.fresh hheld' with hold' | ⟨rfl, _⟩
      · exact hpair binding hbinding record' row' hold'
      · exact absurd rfl hne

/-! ### Every write -/

theorem Step.coherent (h : Step B s event t) (hs : Coherent s) : Coherent t := by
  cases h with
  | enforce =>
    exact hs.of_held rfl rfl
      (fun record row hheld => ⟨record, row, { hheld with }, rfl, rfl⟩)
      fun _ _ bound _ hstored hagrees => ⟨bound, hstored, hagrees⟩
  | close binding hbinding =>
    refine hs.of_binding fun record row bound _ hstored => ?_
    rw [hbinding] at hstored
    cases hstored
    exact ⟨rfl, rfl, rfl, rfl, rfl, rfl, rfl, rfl⟩
  | bind binding hsupersedes =>
    refine hs.of_binding fun record row bound hheld hstored => ?_
    exact supersedes_of_unfinished (hsupersedes bound hstored)
      (ne_nil_of_mem hheld.mem_unfinished)
  | accept command target permit state started haccepts _ => exact hs.accept haccepts
  | start row _ _ => exact hs.markStarted row.execution
  | grant execution _ => exact hs
  | progress record hrecord hunfinished state hstate =>
    refine hs.setState (.inr fun other hother _ hsame => ?_)
    rw [inj_on_of_nodup_map hs.nodup hother hrecord hsame]
    exact hunfinished
  | complete family execution => exact hs.setState (.inl rfl)
  | elsewhere worktrees liabilities legacyRestores resources =>
    exact hs.of_held rfl rfl
      (fun record row hheld => ⟨record, row, { hheld with }, rfl, rfl⟩)
      fun _ _ bound _ hstored hagrees => ⟨bound, hstored, hagrees⟩

variable {bound : RuntimeBinding}

theorem Step.advances (h : Step B s event t) (hbound : s.binding = some bound) :
    ∃ bound', t.binding = some bound' ∧ Advances bound bound' := by
  cases h with
  | close binding hbinding =>
    rw [hbinding] at hbound
    cases hbound
    exact ⟨_, rfl, Int.le_refl _, Int.le_refl _, Int.le_refl _, fun _ _ => rfl⟩
  | bind binding hsupersedes =>
    exact ⟨binding, rfl, supersedes_advances (hsupersedes bound hbound)⟩
  | _ => exact ⟨bound, hbound, .refl bound⟩

/-- Where the input of an epoch was closed, nothing of it is started. -/
theorem Step.started (h : Step B s event t) (hs : Coherent s) {epoch : Int}
    (hbound : s.binding = some bound)
    (hclosed : bound.controlEpoch = epoch → bound.inputClosed = true) (hrow : row ∈ t.control)
    (hstarted : row.started = true) (hepoch : row.permit.controlEpoch = epoch) :
    row ∈ s.control := by
  have hmatches : ∀ {permit : RuntimeBinding}, permit.controlEpoch = epoch →
      ¬∃ bound, s.binding = some bound ∧ permit.matches bound = true := by
    rintro permit hpermit ⟨other, hother, hmatches⟩
    rw [hbound] at hother
    cases hother
    have hopen := open_of_matches hmatches
    rw [hclosed ((agrees_of_matches hmatches).epoch.symm.trans hpermit)] at hopen
    cases hopen
  cases h with
  | accept command target permit state started haccepts _ =>
    rcases mem_control_register hrow with hold | ⟨binding, hbinding, rfl⟩
    · exact hold
    · obtain ⟨⟨binding, now⟩, hpermit, rfl⟩ := Option.map_eq_some_iff.mp hbinding
      exact absurd (haccepts.permits binding now hpermit).bound (hmatches hepoch)
  | start other hother hmatch =>
    obtain ⟨old, hold, rfl⟩ := mem_map.mp hrow
    split at hepoch
    · rename_i hsame
      rw [inj_on_of_nodup_map hs.unique hold hother hsame] at hepoch
      exact absurd hmatch (hmatches hepoch)
    · rename_i hsame
      rw [if_neg hsame]
      exact hold
  | _ => exact hrow

/-! ### Whole histories -/

/-- The unfinished executions that were accepted under a permit. -/
def heldExecutions (ledger : Ledger) : List Execution :=
  ledger.executions.filter fun record => decide (record.state ≠ .completed) &&
    ledger.control.any fun row => decide (row.execution = record.command.execution)

theorem mem_heldExecutions (h : record ∈ s.heldExecutions) : ∃ row, Held s record row := by
  rw [heldExecutions, mem_filter, Bool.and_eq_true, decide_eq_true_eq, any_eq_true] at h
  obtain ⟨hrecord, hunfinished, row, hrow, hsame⟩ := h
  exact ⟨row, hrecord, hrow, by simpa using hsame, hunfinished⟩

/-- At most one execution is held, or a Revision delivery beside an upload. -/
theorem Coherent.heldExecutions (h : Coherent s) : s.heldExecutions.length ≤ 1 ∨
    s.heldExecutions.map (fun record => record.command.family) =
      [.deliverRevision, .deliverScheduledArtifacts] ∨
    s.heldExecutions.map (fun record => record.command.family) =
      [.deliverScheduledArtifacts, .deliverRevision] := by
  have hnodup : (s.heldExecutions.map fun record => record.command.execution).Nodup :=
    h.nodup.sublist (filter_sublist.map _)
  have hpair : ∀ record ∈ s.heldExecutions, ∀ record' ∈ s.heldExecutions,
      record.command.execution ≠ record'.command.execution →
      Pair record.command.family record'.command.family := by
    intro record hrecord record' hrecord' hne
    obtain ⟨row, hrow⟩ := mem_heldExecutions hrecord
    obtain ⟨row', hrow'⟩ := mem_heldExecutions hrecord'
    exact h.alone record row record' row' hrow hrow' hne
  generalize s.heldExecutions = held at hnodup hpair
  match held with
  | [] => exact .inl (Nat.zero_le _)
  | [_] => exact .inl (Nat.le_refl _)
  | [a, b] =>
    have hne : a.command.execution ≠ b.command.execution := by simpa using hnodup
    rcases hpair a (by simp) b (by simp) hne with ⟨ha, hb⟩ | ⟨ha, hb⟩
    · exact .inr (.inl (by rw [List.map, List.map, ha, hb]; rfl))
    · exact .inr (.inr (by rw [List.map, List.map, ha, hb]; rfl))
  | a :: b :: c :: rest =>
    -- Of three families that pairwise differ as the two do, two are the same.
    have hne : a.command.execution ≠ b.command.execution ∧
        a.command.execution ≠ c.command.execution ∧ b.command.execution ≠ c.command.execution := by
      simp only [map_cons, nodup_cons, mem_cons, not_or] at hnodup
      exact ⟨hnodup.1.1, hnodup.1.2.1, hnodup.2.1.1⟩
    have hab := hpair a (by simp) b (by simp) hne.1
    have hac := hpair a (by simp) c (by simp) hne.2.1
    have hbc := hpair b (by simp) c (by simp) hne.2.2
    rcases hab with ⟨ha, hb⟩ | ⟨ha, hb⟩ <;> rcases hac with ⟨ha', hc⟩ | ⟨ha', hc⟩ <;>
      rcases hbc with ⟨hb', hc'⟩ | ⟨hb', hc'⟩ <;> simp_all

theorem Initial.coherent (h : Initial s) : Coherent s where
  nodup := h.nodup
  unique := by
    rw [h.control]
    exact nodup_nil
  known := by
    rw [h.control]
    exact forall_mem_nil _
  agrees := by
    intro record row hheld
    have hrow := hheld.controlled
    rw [h.control] at hrow
    cases hrow
  alone := by
    intro record row record' row' hheld
    have hrow := hheld.controlled
    rw [h.control] at hrow
    cases hrow

theorem Path.advances {j : List (LedgerEvent × Ledger)} (h : Path (Step B) s j t)
    (hbound : s.binding = some bound) : ∃ bound', t.binding = some bound' ∧ Advances bound bound' :=
  h.invariant (P := fun u => ∃ bound', u.binding = some bound' ∧ Advances bound bound')
    (fun _ _ _ hs hstep => by
      obtain ⟨bound', hbound', hadvances⟩ := hs
      obtain ⟨last, hlast, hadvances'⟩ := hstep.advances hbound'
      exact ⟨last, hlast, hadvances.trans hadvances'⟩) ⟨bound, hbound, .refl bound⟩

/-- What is started of an epoch was started when its input was closed. -/
theorem Path.started {j : List (LedgerEvent × Ledger)} (h : Path (Step B) s j t) (hs : Coherent s)
    (hbound : s.binding = some bound) (hclosed : bound.inputClosed = true)
    (hrow : row ∈ t.control) (hstarted : row.started = true)
    (hepoch : row.permit.controlEpoch = bound.controlEpoch) : row ∈ s.control := by
  have hkept := h.invariant (P := fun u => Coherent u ∧
    (∃ bound', u.binding = some bound' ∧ Advances bound bound') ∧ ∀ row ∈ u.control,
      row.started = true → row.permit.controlEpoch = bound.controlEpoch → row ∈ s.control)
    (fun u event v hu hstep => by
      obtain ⟨hcoherent, ⟨bound', hbound', hadvances⟩, hold⟩ := hu
      obtain ⟨last, hlast, hadvances'⟩ := hstep.advances hbound'
      refine ⟨hstep.coherent hcoherent, ⟨last, hlast, hadvances.trans hadvances'⟩, ?_⟩
      intro row hrow hstarted hepoch
      exact hold row (hstep.started hcoherent hbound' (fun heq => hadvances.closed hclosed heq)
        hrow hstarted hepoch) hstarted hepoch)
    ⟨hs, ⟨bound, hbound, .refl bound⟩, fun row hrow _ _ => hrow⟩
  exact hkept.2.2 row hrow hstarted hepoch

def serveIn (protocol : Protocol) (call : World × LedgerCall) : Work LedgerReply :=
  serve protocol call.1 call.2

/-- Over every history of a Node home: what is held agrees with the stored binding and is one
execution or a Revision delivery beside an upload; the epochs never decrease; and once the input of
an epoch is closed, nothing of it is started. -/
theorem one_control_responsibility {protocol : Protocol} {first last : Ledger}
    {journal : List (LedgerEvent × Ledger)}
    (h : History Initial (serveIn protocol) first journal last) :
    (∀ ledger ∈ first :: journal.map (·.2),
      (∀ record row, Held ledger record row →
        ∃ bound, ledger.binding = some bound ∧ Agrees row.permit bound) ∧
      (ledger.heldExecutions.length ≤ 1 ∨
        ledger.heldExecutions.map (fun record => record.command.family) =
          [.deliverRevision, .deliverScheduledArtifacts] ∨
        ledger.heldExecutions.map (fun record => record.command.family) =
          [.deliverScheduledArtifacts, .deliverRevision])) ∧
    ∀ before later, journal = before ++ later → ∀ bound,
      (lastState first before).binding = some bound →
      (∃ bound', last.binding = some bound' ∧
        bound.runtimeGeneration ≤ bound'.runtimeGeneration ∧
        bound.controlEpoch ≤ bound'.controlEpoch ∧
        bound.controllerEpoch ≤ bound'.controllerEpoch) ∧
      (bound.inputClosed = true → ∀ row ∈ last.control, row.started = true →
        row.permit.controlEpoch = bound.controlEpoch → row ∈ (lastState first before).control) := by
  have htraced : ∀ call : World × LedgerCall,
      Safe (Step fun _ _ => True) (fun _ => True) (serveIn protocol call) :=
    fun _ => traced_serve (fun _ _ _ => trivial) fun _ _ _ _ _ => trivial
  obtain ⟨hinitial, hpath⟩ := h.path htraced
  refine ⟨fun ledger hledger => ?_, ?_⟩
  · have hcoherent := hpath.forall_state (fun _ _ _ hs hstep => hstep.coherent hs)
      hinitial.coherent ledger hledger
    exact ⟨hcoherent.agrees, hcoherent.heldExecutions⟩
  · rintro before later rfl bound hbound
    obtain ⟨hbefore, hlater⟩ := hpath.of_append
    refine ⟨?_, fun hclosed row hrow hstarted hepoch => ?_⟩
    · obtain ⟨bound', hbound', hadvances⟩ := Path.advances hlater hbound
      exact ⟨bound', hbound', hadvances.generation, hadvances.control, hadvances.controller⟩
    · exact Path.started hlater (hbefore.invariant (fun _ _ _ hs hstep => hstep.coherent hs)
        hinitial.coherent) hbound hclosed hrow hstarted hepoch

/-! ### A clone and the end of its epoch -/

def freshHome : Ledger where
  nodeId := "node"
  enforced := false
  binding := none
  control := []
  executions := []
  worktrees := []
  liabilities := []
  legacyRestores := []
  resources := []

theorem initial_freshHome : Initial freshHome := ⟨rfl, rfl, rfl, nodup_nil⟩

/-- Writes take effect, and it is always the same time. -/
def steadyWorld : World where
  writes := fun _ => .written
  now := fun _ => some 2000

def sessionBinding : RuntimeBinding where
  tenantId := "tenant"
  workspaceId := "workspace"
  sandboxId := "sandbox"
  runtimeGeneration := 1
  nodeId := "node"
  nodeIncarnationId := "incarnation"
  nodeInstanceId := "instance"
  controllerEpoch := 1
  controlEpoch := 1
  controlVersion := 1
  sessionId := "session"
  actorUserId := "user"
  operationId := ""
  executionId := ""
  nodeOperationId := ""
  inputClosed := false
  issuedAtMs := 1000
  expiresAtMs := 30000

def cloneMessage : Message := ⟨"operation", "execution", "node", "snapshot"⟩

def cloneTarget : CloneTarget :=
  ⟨"repository", ⟨true, ["repositories"]⟩, ⟨true, ["repositories", "repository"]⟩⟩

/-- The runtime is bound, a clone is accepted and started, and the input is closed. -/
def startedClone : List (World × LedgerCall) :=
  [(steadyWorld, .bindRuntime sessionBinding),
    (steadyWorld, .acceptControlledClone cloneMessage cloneTarget
      { sessionBinding with executionId := "execution", nodeOperationId := "operation" }),
    (steadyWorld, .startControlledExecutionFor "execution" (some "incarnation")),
    (steadyWorld, .bindRuntime { sessionBinding with controlVersion := 2, inputClosed := true })]

theorem one_control_responsibility_clone :
    (replay (serveIn fun _ => none) startedClone freshHome).2.heldExecutions.length = 1 ∧
    ∀ record row, Held (replay (serveIn fun _ => none) startedClone freshHome).2 record row →
      ∃ bound, (replay (serveIn fun _ => none) startedClone freshHome).2.binding = some bound ∧
        Agrees row.permit bound := by
  have h : History Initial (serveIn fun _ => none) freshHome _ _ :=
    History.of_replay initial_freshHome startedClone
  exact ⟨by decide +kernel, ((one_control_responsibility h).1 _ h.mem_states).1⟩

end Ledger

end OraDesktop.Node
