import OraDesktop.Node.Ledger

/-!
# What one write of the ledger can be

Every write of every operation is one of the steps below, with the checks that were made for it. An
acceptance either carries a permit that was live and matched the stored binding, or it is bare: then
the home is not fenced, or the execution is a clone.

## Main results

* `Step` — the writes
* `traced_serve` — every operation is a path of them
-/

namespace OraDesktop.Node

namespace Ledger

open Journal

variable {ledger : Ledger} {protocol : Protocol} {world : World}

/-- The permit is live by the clock, open, issued for the command and matches the stored binding. -/
structure Permits (ledger : Ledger) (permit : RuntimeBinding) (now : Int) (command : Command) :
    Prop where
  live : permit.isLive now = true
  bound : ∃ bound, ledger.binding = some bound ∧ permit.matches bound = true
  issued : issuedFor permit command

def IsPeer (family : Family) (peer : Option Family) : Prop :=
  peer = none ∨ family = .deliverRevision ∧ peer = some .deliverScheduledArtifacts ∨
    family = .deliverScheduledArtifacts ∧ peer = some .deliverRevision

/-- What is checked before an acceptance is written, in the same transaction, so it still holds when
it is. -/
structure Accepts (ledger : Ledger) (command : Command) (permit : Option (RuntimeBinding × Int))
    (state : State) : Prop where
  fresh : ledger.identityKind command.operation command.execution = .ok none
  unfinished : state ≠ .completed
  permits : ∀ binding now, permit = some (binding, now) → Permits ledger binding now command
  alone : permit.isSome = true →
    ∃ peer, IsPeer command.family peer ∧ ledger.unfinishedExecutionsBeside peer = []

/-- One write. A bare acceptance is one that `B` admits. -/
inductive Step (B : Ledger → Command → Prop) : Ledger → LedgerEvent → Ledger → Prop where
  | enforce (ledger : Ledger) : Step B ledger .enforced { ledger with enforced := true }
  | close (ledger : Ledger) (binding : RuntimeBinding) (h : ledger.binding = some binding) :
    Step B ledger (.bound { binding with inputClosed := true })
      { ledger with binding := some { binding with inputClosed := true } }
  | bind (ledger : Ledger) (binding : RuntimeBinding) (h : ∀ old, ledger.binding = some old →
      supersedes binding old ledger.unfinishedRuntimeExecutions = true) :
    Step B ledger (.bound binding) { ledger with binding := some binding }
  | accept (ledger : Ledger) (command : Command) (target : Option CloneTarget)
      (permit : Option (RuntimeBinding × Int)) (state : State) (started : Bool)
      (h : Accepts ledger command permit state) (hbare : permit = none → B ledger command) :
    Step B ledger (.accepted command permit)
      (ledger.register ⟨command, target, state⟩ (permit.map (·.1)) started)
  | start (ledger : Ledger) (row : Control) (hrow : row ∈ ledger.control)
      (h : ∃ bound, ledger.binding = some bound ∧ row.permit.matches bound = true) :
    Step B ledger (.started row.execution) (ledger.markStarted row.execution)
  | grant (ledger : Ledger) (execution : ExecutionId) (h : ledger.fenced = true →
      ∃ row ∈ ledger.control, row.execution = execution ∧ row.started = true) :
    Step B ledger (.granted execution) ledger
  | progress (ledger : Ledger) (record : Execution) (hrecord : record ∈ ledger.executions)
      (h : record.state ≠ .completed) (state : State) (hstate : state ≠ .completed) :
    Step B ledger (.progressed record.command.execution)
      (ledger.setState record.command.family record.command.execution state)
  | complete (ledger : Ledger) (family : Family) (execution : ExecutionId) :
    Step B ledger (.completed execution) (ledger.setState family execution .completed)
  | elsewhere (ledger : Ledger) (worktrees : List (OperationId × ExecutionId))
      (liabilities legacyRestores : List ExecutionId) (resources : List PathBuf) :
    Step B ledger .elsewhere { ledger with
      worktrees := worktrees, liabilities := liabilities, legacyRestores := legacyRestores,
      resources := resources }

section Traced

variable {B : Ledger → Command → Prop} {R : Ledger → LedgerEvent → Ledger → Prop}
  {P : Ledger → Prop}

/-! ### Reads -/

theorem traced_write {point : WritePoint} {event : LedgerEvent} {t : Ledger} {Q : Unit → Ledger → Prop}
    (h : ∀ s, P s → R s event t ∧ Q () t) : Traced R P (write world point event t) Q := by
  refine Traced.draw.bind fun n => ?_
  split
  · exact .commit h
  · exact .fail
  · exact (Traced.commit h).bind fun _ => .fail

theorem traced_checked {result : Except ValidationError Unit} :
    Traced R P (checked result) fun _ s => P s := by
  rw [checked.eq_def]
  split
  · exact .pure fun _ h => h
  · exact .fail

variable {permit : RuntimeBinding}

theorem traced_live :
    Traced R P (live world permit) fun now s => P s ∧ permit.isLive now = true := by
  refine .bind (Q := fun _ s => P s) (Traced.draw.bind fun n => ?_) fun now => ?_
  · split
    · exact .pure fun _ h => h
    · exact .fail
  · exact Traced.ensure.bind fun _ => .pure fun _ h => h

theorem traced_validateRuntimePermit :
    Traced R P (validateRuntimePermit world permit) fun now s =>
      P s ∧ permit.isLive now = true ∧
        ∃ bound, s.binding = some bound ∧ permit.matches bound = true := by
  refine traced_checked.bind fun _ => traced_live.bind fun now => Traced.get.bind fun ledger => ?_
  refine Traced.ensure.bind fun _ => .pure ?_
  rintro s ⟨⟨rfl, hP, hlive⟩, hbound⟩
  rw [Option.any_eq_true] at hbound
  exact ⟨hP, hlive, hbound⟩

/-! ### Bindings -/

theorem traced_enforceRuntimeControl : Safe (Step B) P (enforceRuntimeControl world) := by
  refine Traced.get.bind fun ledger => traced_write ?_
  rintro s ⟨rfl, _⟩
  exact ⟨.enforce _, trivial⟩

theorem traced_enforceRuntimeIncarnation {incarnation : String} :
    Safe (Step B) P (enforceRuntimeIncarnation world incarnation) := by
  refine traced_enforceRuntimeControl.bind fun _ => Traced.get.bind fun ledger => ?_
  split
  · rename_i binding hbinding
    refine .whenever (fun _ => traced_write ?_) fun _ _ _ => trivial
    rintro s ⟨rfl, _⟩
    exact ⟨.close _ binding hbinding, trivial⟩
  · exact .done

theorem traced_checkBinding {binding : RuntimeBinding} :
    Traced R P (checkBinding ledger binding) fun _ s => P s ∧ ∀ old, ledger.binding = some old →
      supersedes binding old ledger.unfinishedRuntimeExecutions = true := by
  rw [checkBinding]
  split
  · rename_i old hold
    refine Traced.ensure.post ?_
    rintro _ s ⟨hP, h⟩
    refine ⟨hP, fun other hother => ?_⟩
    rw [hold] at hother
    cases hother
    exact h
  · rename_i hnone
    refine Traced.ensure.post ?_
    rintro _ s ⟨hP, _⟩
    refine ⟨hP, fun old hold => ?_⟩
    rw [hnone] at hold
    cases hold

theorem traced_bindRuntime {binding : RuntimeBinding} :
    Safe (Step B) P (bindRuntime world binding) := by
  refine traced_checked.bind fun _ => Traced.get.bind fun ledger => Traced.ensure.bind fun _ =>
    traced_checkBinding.bind fun _ => ?_
  refine .bind (Q := fun _ s => ledger = s ∧ ∀ old, ledger.binding = some old →
    supersedes binding old ledger.unfinishedRuntimeExecutions = true)
    (.whenever (fun _ => ?_) fun _ s h => ⟨h.1.1.1, h.2⟩) fun _ => traced_write ?_
  · exact traced_live.bind fun _ => .pure fun _ h => ⟨h.1.1.1.1, h.1.2⟩
  · rintro s ⟨rfl, h⟩
    exact ⟨.bind _ binding h, trivial⟩

/-! ### Starts -/

variable {execution : ExecutionId}

theorem traced_startControlledExecutionFor {incarnation : Option String}
    (records : List Execution) :
    Traced (Step B) (fun s => s.executions = records)
      (startControlledExecutionFor world execution incarnation)
      fun _ s => s.executions = records := by
  refine Traced.get.bind fun ledger => ?_
  split
  · split
    · exact .pure fun _ h => h.2
    · rename_i hfenced
      refine .bind (.note ?_) fun _ => .pure fun _ h => h
      rintro s ⟨rfl, hrecords⟩
      exact ⟨.grant _ execution fun h => absurd h hfenced, hrecords⟩
  · rename_i row hfind
    have hrow := List.mem_of_find?_eq_some hfind
    obtain rfl : row.execution = execution := by simpa using List.find?_some hfind
    split
    · exact .pure fun _ h => h.2
    split
    · rename_i hstarted
      refine .bind (.note ?_) fun _ => .pure fun _ h => h
      rintro s ⟨rfl, hrecords⟩
      exact ⟨.grant _ _ fun _ => ⟨row, hrow, rfl, hstarted⟩, hrecords⟩
    · have hvalid : Traced (fun _ _ _ => False) (fun s => ledger = s ∧ s.executions = records)
          (validateRuntimePermit world row.permit) _ := traced_validateRuntimePermit
      refine .bind ((hvalid.attempt (I := fun s => ledger = s ∧ s.executions = records)
        (fun _ h => h) fun _ _ _ _ hstep => hstep.elim).mono fun _ _ _ hstep => hstep.elim)
        fun result => ?_
      split
      · exact .pure fun _ h => h.1.2
      · exact .fail
      rename_i now
      refine .bind (Q := fun _ s => s = ledger.markStarted row.execution ∧
        s.executions = records) (traced_write ?_) fun _ => ?_
      · rintro s ⟨⟨rfl, hrecords⟩, hpermit⟩
        exact ⟨.start _ row hrow (hpermit now rfl).2.2, rfl, hrecords⟩
      · refine .bind (.note ?_) fun _ => .pure fun _ h => h
        rintro s ⟨rfl, hrecords⟩
        refine ⟨.grant _ _ fun _ => ⟨{ row with started := true }, ?_, rfl, rfl⟩, hrecords⟩
        exact List.mem_map.mpr ⟨row, hrow, if_pos rfl⟩

theorem mem_of_read {family : Family} {record : Execution}
    (h : ledger.read family execution = some record) :
    record ∈ ledger.executions ∧ record.command.family = family ∧
      record.command.execution = execution :=
  ⟨List.mem_of_find?_eq_some h, by simpa using List.find?_some h⟩

theorem read_of_find {family : Family} {operation : OperationId} {found : Option Execution}
    (h : ledger.find family operation execution = .ok found) :
    ledger.read family execution = found := by
  rw [find] at h
  split at h
  · cases h
  · split at h
    · cases h
    · cases h
      rfl

variable {command : Command}

theorem traced_startRecord {startable : State → Bool} {incarnation : String}
    (hstartable : startable .completed = false) :
    Safe (Step B) P (startRecord world command startable incarnation) := by
  refine Traced.get.bind fun ledger => ?_
  split
  · exact .fail
  · exact .fail
  rename_i record hfind
  obtain ⟨hrecord, hfamily, hexecution⟩ := mem_of_read (read_of_find hfind)
  refine .bind (Q := fun _ s => s.executions = ledger.executions ∧
    record.state ≠ .completed) (Traced.ensure.post ?_) fun _ => ?_
  · rintro _ s ⟨⟨rfl, _⟩, _, hstate⟩
    refine ⟨rfl, fun hcompleted => ?_⟩
    rw [hcompleted, hstartable] at hstate
    cases hstate
  · by_cases hstate : record.state = .completed
    · exact .vacuous fun s hs => hs.2 hstate
    refine .bind ((traced_startControlledExecutionFor ledger.executions).pre
      fun s hs => hs.1) fun allowed => ?_
    split
    · refine Traced.get.bind fun current => .bind (Q := fun _ _ => True)
        (traced_write ?_) fun _ => .done
      rintro s ⟨rfl, hrecords⟩
      have hmem : record ∈ current.executions := by
        rw [hrecords]
        exact hrecord
      have hstep : Step B current (.progressed record.command.execution)
          (current.setState record.command.family record.command.execution .running) :=
        .progress current record hmem hstate .running (by decide)
      rw [hfamily, hexecution] at hstep
      exact ⟨hstep, trivial⟩
    · exact .done

/-! ### Acceptance -/

theorem mem_of_identityKind
    (h : ledger.identityKind command.operation command.execution = .ok (some command.family)) :
    ∃ record ∈ ledger.executions, record.command.family = command.family ∧
      record.command.execution = command.execution := by
  rw [identityKind] at h
  split at h
  · rename_i identity hfind
    split at h
    · rename_i hsame
      have hkind : identity.kind = command.family := Option.some.inj (Except.ok.inj h)
      have hmem := List.mem_of_find?_eq_some hfind
      rw [identities, List.mem_append, List.mem_map, List.mem_map] at hmem
      rcases hmem with ⟨record, hrecord, rfl⟩ | ⟨worktree, _, rfl⟩
      · exact ⟨record, hrecord, hkind, hsame.2⟩
      · cases command <;> cases hkind
    · cases h
  · cases h

theorem identityKind_of_find
    (h : ledger.find command.family command.operation command.execution = .ok none) :
    ledger.identityKind command.operation command.execution = .ok none := by
  have hread := read_of_find h
  rw [find] at h
  split at h
  · cases h
  rename_i kind hkind
  split at h
  · cases h
  rename_i hfamily
  cases kind with
  | none => exact hkind
  | some kind =>
    -- An identity of the family comes with a record in its table.
    have hsame : kind = command.family := by simpa using hfamily
    obtain ⟨record, hrecord, hfam, hexec⟩ := mem_of_identityKind (hsame ▸ hkind)
    have hnone := List.find?_eq_none.mp hread record hrecord
    rw [hfam, hexec] at hnone
    simp at hnone

variable {refused : Ledger → Bool} {peer : Option Family} {state : State} {started : Bool}

theorem traced_acceptInput {target : Option CloneTarget} {permit : Option (RuntimeBinding × Int)}
    (hpeer : IsPeer command.family peer) (hstate : state ≠ .completed) :
    Safe (Step B) (fun s => (∀ binding now, permit = some (binding, now) →
        Permits s binding now command) ∧ (permit = none → B s command))
      (acceptInput protocol world command target permit peer refused state started) := by
  rw [acceptInput]
  split
  · exact .fail
  refine Traced.get.bind fun ledger => Traced.ensure.bind fun _ => ?_
  split
  · exact .fail
  · exact Traced.ensure.bind fun _ => .done
  rename_i hfind
  refine Traced.ensure.bind fun _ => Traced.ensure.bind fun _ => Traced.ensure.bind fun _ =>
    .bind (Q := fun _ _ => True) (traced_write ?_) fun _ => .done
  rintro s ⟨⟨⟨⟨⟨rfl, hpermits, hbare⟩, _⟩, halone⟩, _⟩, _⟩
  refine ⟨.accept _ command target permit state started
    ⟨identityKind_of_find hfind, hstate, hpermits, fun h => ⟨peer, hpeer, halone h⟩⟩ hbare,
    trivial⟩

/-- A bare acceptance behind the fence of its family. -/
theorem traced_acceptBare (hpeer : IsPeer command.family peer) (hstate : state ≠ .completed)
    (hB : ∀ s, s.fenced = false → B s command) :
    Safe (Step B) P (unfenced
      (acceptInput protocol world command none none peer refused state started)) := by
  refine Traced.get.bind fun ledger => Traced.ensure.bind fun _ =>
    (traced_acceptInput hpeer hstate).pre ?_
  rintro s ⟨⟨rfl, _⟩, hfenced⟩
  exact ⟨fun _ _ => nofun, fun _ => hB _ hfenced⟩

theorem permits_of_some {s : Ledger} {now : Int} (h : Permits s permit now command) :
    (∀ binding now', some (permit, now) = some (binding, now') →
      Permits s binding now' command) ∧ (some (permit, now) = none → B s command) := by
  refine ⟨fun binding now' heq => ?_, nofun⟩
  cases heq
  exact h

/-- The permit is checked, then that it is issued for the command. -/
theorem traced_acceptIssued {target : Option CloneTarget} (hpeer : IsPeer command.family peer)
    (hstate : state ≠ .completed) :
    Safe (Step B) P (do
      let now ← validateRuntimePermit world permit
      Proc.ensure (issuedFor permit command) .identityConflict
      acceptInput protocol world command target (some (permit, now)) peer refused state started) := by
  refine traced_validateRuntimePermit.bind fun now => Traced.ensure.bind fun _ =>
    (traced_acceptInput hpeer hstate).pre ?_
  rintro s ⟨⟨_, hlive, hbound⟩, hissued⟩
  exact permits_of_some ⟨hlive, hbound, hissued⟩

theorem traced_validateEnvelope :
    Traced R P (validateEnvelope protocol command permit) fun _ _ => issuedFor permit command := by
  refine traced_checked.bind fun _ => ?_
  split
  · exact .fail
  · exact Traced.ensure.post fun _ _ h => h.2.2.1

theorem traced_acceptEnvelope (hpeer : IsPeer command.family peer) (hstate : state ≠ .completed) :
    Safe (Step B) P (do
      validateEnvelope protocol command permit
      let now ← validateRuntimePermit world permit
      acceptInput protocol world command none (some (permit, now)) peer refused state started) := by
  refine traced_validateEnvelope.bind fun _ => traced_validateRuntimePermit.bind fun now =>
    (traced_acceptInput hpeer hstate).pre ?_
  rintro s ⟨hissued, hlive, hbound⟩
  exact permits_of_some ⟨hlive, hbound, hissued⟩

/-! ### Progress and completion -/

theorem traced_advanceClone : Safe (Step B) P (advanceClone world execution state) := by
  refine Traced.get.bind fun ledger => Traced.ensure.bind fun _ => traced_write ?_
  rintro s ⟨⟨rfl, _⟩, hread, hstate⟩
  rw [Option.any_eq_true] at hread
  obtain ⟨record, hread, hunfinished⟩ := hread
  obtain ⟨hrecord, hfamily, hexecution⟩ := mem_of_read hread
  have hstep : Step B ledger (.progressed record.command.execution)
      (ledger.setState record.command.family record.command.execution state) :=
    .progress ledger record hrecord (by simpa using hunfinished) state hstate
  rw [hfamily, hexecution] at hstep
  exact ⟨hstep, trivial⟩

theorem traced_complete {family : Family} {evidence : Except Error Unit} :
    Safe (Step B) P (complete world family execution evidence) := by
  refine Traced.get.bind fun ledger => ?_
  split
  · exact .fail
  refine Traced.ensure.bind fun _ => ?_
  split
  · exact .fail
  · refine traced_write ?_
    rintro s ⟨⟨rfl, _⟩, _⟩
    exact ⟨.complete _ family execution, trivial⟩

theorem traced_elsewhere {worktrees : List (OperationId × ExecutionId)}
    {liabilities legacyRestores : List ExecutionId} {resources : List PathBuf} :
    Safe (Step B) P (elsewhere worktrees liabilities legacyRestores resources) := by
  refine Traced.get.bind fun ledger => .commit ?_
  rintro s ⟨rfl, _⟩
  exact ⟨.elsewhere _ worktrees liabilities legacyRestores resources, trivial⟩

/-! ### Every operation -/

/-- Every operation, where a bare clone is one that `B` admits. -/
theorem traced_serve {call : LedgerCall} (hB : ∀ s command, s.fenced = false → B s command)
    (hclone : ∀ s message target, P s → call = .acceptClone message target → B s (.clone message)) :
    Safe (Step B) P (serve protocol world call) := by
  have hpeer : ∀ {family}, IsPeer family none := .inl rfl
  have hrevision : ∀ message, IsPeer (Command.deliverRevision message).family
      (some .deliverScheduledArtifacts) := fun _ => .inr (.inl ⟨rfl, rfl⟩)
  have hupload : ∀ message, IsPeer (Command.deliverScheduledArtifacts message).family
      (some .deliverRevision) := fun _ => .inr (.inr ⟨rfl, rfl⟩)
  have hdone : ∀ {m : Work Unit}, Traced (Step B) P m (fun _ _ => True) →
      Safe (Step B) P (do m; pure LedgerReply.done) := fun h =>
    h.bind fun _ => .done
  cases call with
  | enforceRuntimeControl => exact hdone traced_enforceRuntimeControl
  | enforceRuntimeIncarnation incarnation => exact hdone traced_enforceRuntimeIncarnation
  | bindRuntime binding => exact hdone traced_bindRuntime
  | acceptClone message target =>
    refine .map (.pre (traced_acceptInput hpeer (by decide)) ?_) fun _ _ _ => trivial
    exact fun s hs => ⟨fun _ _ => nofun, fun _ => hclone s message target hs rfl⟩
  | acceptControlledClone message target permit =>
    exact (traced_acceptIssued hpeer (by decide)).map fun _ _ _ => trivial
  | acceptPlugins message =>
    exact (traced_acceptBare hpeer (by decide) fun s => hB s _).map fun _ _ _ => trivial
  | acceptControlledPlugins message permit =>
    exact (traced_acceptEnvelope hpeer (by decide)).map fun _ _ _ => trivial
  | acceptSession message =>
    exact (traced_acceptBare hpeer (by decide) fun s => hB s _).map fun _ _ _ => trivial
  | acceptControlledSession message permit =>
    exact (traced_acceptIssued hpeer (by decide)).map fun _ _ _ => trivial
  | acceptDelivery message =>
    exact (traced_acceptBare (hrevision message) (by decide) fun s => hB s _).map fun _ _ _ => trivial
  | acceptControlledDelivery message permit =>
    exact (traced_acceptEnvelope (hrevision message) (by decide)).map fun _ _ _ => trivial
  | acceptScheduledArtifacts message =>
    exact (traced_acceptBare (hupload message) (by decide) fun s => hB s _).map fun _ _ _ => trivial
  | acceptControlledScheduledArtifacts message permit =>
    exact (traced_acceptEnvelope (hupload message) (by decide)).map fun _ _ _ => trivial
  | startControlledExecutionFor execution incarnation =>
    refine .map (Q := fun _ _ => True) ?_ fun _ _ _ => trivial
    exact .of_eq fun s _ => ((traced_startControlledExecutionFor s.executions).pre
      fun t ht => by rw [ht]).post fun _ _ _ => trivial
  | startPlugins message incarnation =>
    exact (traced_startRecord (by decide)).map fun _ _ _ => trivial
  | startSession message incarnation =>
    exact (traced_startRecord (by decide)).map fun _ _ _ => trivial
  | advanceClone execution state => exact hdone traced_advanceClone
  | complete family execution evidence => exact hdone traced_complete
  | elsewhere worktrees liabilities legacyRestores resources => exact hdone traced_elsewhere

end Traced

end Ledger

end OraDesktop.Node
