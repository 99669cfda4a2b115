import OraDesktop.Node.Control

/-!
# Runtime control and bare commands

Once a home was put under runtime control, a command is accepted only with a permit. Four of the
five families refuse a bare command behind a fence of their own; the clone family has none, and
relies on its callers: a home that was under control and is opened by a host that serves bare
commands accepts a bare clone. Such a clone is never started, since a start needs the control that
is recorded with a permit.

## Main results

* `Path.accepted` — the control of an execution was recorded when it was accepted
* `control_not_bypassed_without_bare_clones` — every history in which no bare clone reaches a home
  under control
-/

namespace OraDesktop.Node

namespace Ledger

open Journal

variable {B : Ledger → Command → Prop} {s t : Ledger} {event : LedgerEvent} {row : Control}
  {journal : List (LedgerEvent × Ledger)}

/-- The execution was accepted, in the journal, under a permit that was good then. -/
def AcceptedUnder (first : Ledger) (journal : List (LedgerEvent × Ledger)) (execution : ExecutionId) :
    Prop :=
  ∃ earlier command binding now ledger between,
    journal = earlier ++ (.accepted command (some (binding, now)), ledger) :: between ∧
    command.execution = execution ∧ Permits (lastState first earlier) binding now command

theorem AcceptedUnder.cons {execution : ExecutionId} (h : AcceptedUnder t journal execution) :
    AcceptedUnder s ((event, t) :: journal) execution := by
  obtain ⟨earlier, command, binding, now, ledger, between, rfl, hexecution, hpermits⟩ := h
  exact ⟨(event, t) :: earlier, command, binding, now, ledger, between, rfl, hexecution, hpermits⟩

theorem Step.control (h : Step B s event t) (hrow : row ∈ t.control) :
    (∃ old ∈ s.control, old.execution = row.execution) ∨
      ∃ command binding now, event = .accepted command (some (binding, now)) ∧
        command.execution = row.execution ∧ Permits s binding now command := by
  cases h with
  | accept command target permit state started haccepts _ =>
    rcases mem_control_register hrow with hold | ⟨binding, hbinding, rfl⟩
    · exact .inl ⟨row, hold, rfl⟩
    · obtain ⟨⟨binding, now⟩, rfl, rfl⟩ := Option.map_eq_some_iff.mp hbinding
      exact .inr ⟨command, binding, now, rfl, rfl, haccepts.permits binding now rfl⟩
  | start other _ _ =>
    obtain ⟨old, hold, hsame, _⟩ := mem_markStarted hrow
    exact .inl ⟨old, hold, hsame⟩
  | _ => exact .inl ⟨row, hrow, rfl⟩

/-- The control of an execution was recorded when it was accepted. -/
theorem Path.accepted (h : Path (Step B) s journal t) (hrow : row ∈ t.control) :
    (∃ old ∈ s.control, old.execution = row.execution) ∨
      AcceptedUnder s journal row.execution := by
  induction h with
  | nil s => exact .inl ⟨row, hrow, rfl⟩
  | @cons s u t event journal hstep rest ih =>
    rcases ih hrow with ⟨old, hold, hsame⟩ | haccepted
    · rcases hstep.control hold with ⟨older, holder, hsame'⟩ |
        ⟨command, binding, now, rfl, hcommand, hpermits⟩
      · exact .inl ⟨older, holder, hsame'.trans hsame⟩
      · exact .inr ⟨[], command, binding, now, u, journal, rfl, hcommand.trans hsame, hpermits⟩
    · exact .inr haccepted.cons

theorem Step.granted {execution : ExecutionId} (h : Step B s event t) (hfenced : s.fenced = true)
    (hevent : event = .started execution ∨ event = .granted execution) :
    ∃ row ∈ s.control, row.execution = execution := by
  cases h with
  | start row hrow _ =>
    rcases hevent with heq | heq
    · cases heq
      exact ⟨row, hrow, rfl⟩
    · cases heq
  | grant other hgrant =>
    rcases hevent with heq | heq
    · cases heq
    · cases heq
      obtain ⟨row, hrow, hsame, _⟩ := hgrant hfenced
      exact ⟨row, hrow, hsame⟩
  | _ => rcases hevent with heq | heq <;> cases heq

/-- No bare clone is asked of a home under control. The other families have a fence that refuses
one, and clones do not. -/
def NoBareClone (ledger : Ledger) (call : World × LedgerCall) : Prop :=
  ledger.fenced = true → ∀ message target, call.2 ≠ .acceptClone message target

/-- In every history in which no bare clone reaches a home under control: once it is under control,
an execution is accepted only with a permit that was live and matched the open binding, and only
executions accepted so are started. -/
theorem control_not_bypassed_without_bare_clones {protocol : Protocol} {first last : Ledger}
    (h : HistoryWhere NoBareClone Initial (serveIn protocol) first journal last) :
    ∀ before event ledger later, journal = before ++ (event, ledger) :: later →
      (lastState first before).fenced = true →
      (∀ command permit, event = .accepted command permit → ∃ binding now,
        permit = some (binding, now) ∧ Permits (lastState first before) binding now command) ∧
      (∀ execution, event = .started execution ∨ event = .granted execution →
        AcceptedUnder first before execution) := by
  have htraced : ∀ call : World × LedgerCall, Safe (Step fun ledger _ => ledger.fenced = false)
      (fun s => True ∧ NoBareClone s call) (serveIn protocol call) := by
    intro call
    refine traced_serve (fun _ _ hfenced => hfenced) fun s message target hs hcall => ?_
    by_contra hfenced
    exact hs.2 (by simpa using hfenced) message target hcall
  obtain ⟨hinitial, hpath, _⟩ := h.path_of_invariant (P := fun _ => True) (fun _ _ => trivial)
    (fun _ _ _ _ _ => trivial) htraced
  rintro before event ledger later rfl hfenced
  obtain ⟨hbefore, hrest⟩ := hpath.of_append
  cases hrest with
  | cons hstep _ =>
    refine ⟨?_, fun execution hevent => ?_⟩
    · rintro command permit rfl
      cases hstep with
      | accept command target permit state started haccepts hbare =>
        cases permit with
        | none =>
          rw [hbare rfl] at hfenced
          cases hfenced
        | some permit => exact ⟨permit.1, permit.2, rfl, haccepts.permits permit.1 permit.2 rfl⟩
    · obtain ⟨row, hrow, rfl⟩ := hstep.granted hfenced hevent
      rcases Path.accepted hbefore hrow with ⟨old, hold, _⟩ | haccepted
      · rw [hinitial.control] at hold
        cases hold
      · exact haccepted

/-- A clone under a permit, from the binding of the runtime to the close of its input. -/
theorem control_not_bypassed_of_controlled_clone :
    (replay (serveIn fun _ => none) startedClone freshHome).1.map (·.1) =
      [.bound sessionBinding,
        .accepted (.clone cloneMessage) (some
          ({ sessionBinding with executionId := "execution", nodeOperationId := "operation" }, 2000)),
        .started "execution", .granted "execution",
        .bound { sessionBinding with controlVersion := 2, inputClosed := true }] ∧
    ∀ before event ledger later,
      (replay (serveIn fun _ => none) startedClone freshHome).1 = before ++ (event, ledger) :: later →
      (lastState freshHome before).fenced = true → ∀ execution, event = .granted execution →
        AcceptedUnder freshHome before execution := by
  have hno : ∀ call ∈ startedClone, ∀ ledger, NoBareClone ledger call := by
    intro call hcall ledger _ message target
    simp only [startedClone, List.mem_cons, List.not_mem_nil, or_false] at hcall
    rcases hcall with rfl | rfl | rfl | rfl <;> rintro ⟨⟩
  have h : HistoryWhere NoBareClone Initial (serveIn fun _ => none) freshHome _ _ :=
    HistoryWhere.of_replay initial_freshHome hno
  refine ⟨by decide +kernel, fun before event ledger later hsplit hfenced execution hevent => ?_⟩
  exact (control_not_bypassed_without_bare_clones h before event ledger later hsplit hfenced).2
    execution (.inr hevent)

/-- The home is under control, and a bare clone is accepted all the same. -/
theorem bare_clone_accepted_under_control :
    (replay (serveIn fun _ => none)
      [(steadyWorld, .enforceRuntimeControl), (steadyWorld, .acceptClone cloneMessage cloneTarget)]
      freshHome).1.map (fun entry => (entry.1, entry.2.fenced)) =
      [(.enforced, true), (.accepted (.clone cloneMessage) none, true)] := by
  decide +kernel

end Ledger

end OraDesktop.Node
