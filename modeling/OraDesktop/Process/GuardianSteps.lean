import Mathlib.Data.List.Perm.Subperm
import OraDesktop.Process.Guardian
import OraDesktop.Process.RuntimeHistory

/-!
# What a guardian call commits

Every procedure of the guardian is traced by `Step`: each commit it makes, to the journal or to
memory, is one of a few kinds and is made under the guard its kind promises. Whether the call fails
later does not matter, and neither does which of its writes fails or takes effect unnoticed.

## Main results

* `Quiet`, `Starts` — the kinds of commits
* `Sound` — what relates the journal, the list of live Runs and the runtime
* `Step.sound` — every commit keeps it
* `traced_applyRun`, `traced_applyManagement` — every operation is a path of steps
-/

namespace OraDesktop.Process

namespace Guardian

open Journal Std.ExtTreeMap Traced ScopeRuntime

abbrev store (guardian : Guardian) : GuardianStore := guardian.connection.committed

def stored (guardian : Guardian) (f : GuardianStore → GuardianStore) : Guardian :=
  { guardian with connection := guardian.connection.write f }

/-- The guardian after its runtime carried out a command. -/
def advanced (guardian : Guardian) (input : Input) : Guardian :=
  { guardian with runtime := guardian.runtime.apply input }

/-- The writes to the journal, but for the acceptance of a Run. None of them adds a row. -/
inductive Writes (guardian : Guardian) : (GuardianStore → GuardianStore) → Prop where
  | requestStop (run : RunId) :
      Writes guardian fun store => { store with
        rows := store.rows.modify run fun row => { row with stopRequested := true } }
  | close (hscope : guardian.store.scope = .open) :
      Writes guardian fun store => { store with
        scope := .closing
        rows := store.rows.map fun _ row => { row with stopRequested := true } }
  | bind (host : HostBinding) (hepoch : guardian.store.host.epoch ≤ host.epoch)
      (hinstance : host.epoch = guardian.store.host.epoch → host = guardian.store.host) :
      Writes guardian fun store => { store with host := host }
  | saveSnapshot (run : RunId) (current : RunSnapshot)
      (hcurrent : guardian.runtime.run run = some current) :
      Writes guardian fun store => { store with
        rows := store.rows.modify run fun row => { row with snapshot := current } }
  | saveScope (hstate : guardian.store.scope ≠ .open → guardian.runtime.state ≠ .open)
      (hsize : guardian.store.rows.size = guardian.live.length)
      (hsaved : ∀ run ∈ guardian.live, ∃ row, guardian.store.rows[run]? = some row ∧
        guardian.runtime.run run = some row.snapshot) :
      Writes guardian fun store => { store with scope := guardian.runtime.state }

/-- The commits that neither accept a Run nor spawn one. -/
inductive Quiet : Guardian → GuardianEvent → Guardian → Prop where
  | write (guardian : Guardian) (f : GuardianStore → GuardianStore)
      (hauto : guardian.connection.pending = none) (h : Writes guardian f) :
      Quiet guardian .stored (guardian.stored f)
  | stuck (guardian : Guardian) (pending : GuardianStore) :
      Quiet guardian .stuck
        { guardian with connection := { guardian.connection with pending := some pending } }
  | push (guardian : Guardian) (run : RunId) (hrow : run ∈ guardian.store.rows)
      (hlive : run ∉ guardian.live) :
      Quiet guardian .remembered { guardian with live := guardian.live ++ [run] }
  | advance (guardian : Guardian) (input : Input)
      (hstart : ∀ run spec, input.command ≠ .start run spec) :
      Quiet guardian .remembered (guardian.advanced input)
  | settle (guardian : Guardian) (settled : Bool) :
      Quiet guardian .remembered { guardian with settled := settled }

/-- A Run is accepted from a host, and then spawned. -/
inductive Starts (host : HostBinding) (run : RunId) (spec : RunSpec) :
    Guardian → GuardianEvent → Guardian → Prop where
  | accept (guardian : Guardian) (hauto : guardian.connection.pending = none)
      (hhost : guardian.store.host = host) (hscope : guardian.store.scope = .open)
      (hnew : guardian.store.rows[run]? = none) :
      Starts host run spec guardian .stored (guardian.stored (withRow run spec))
  | spawn (guardian : Guardian) (platform : Platform) (hhost : guardian.store.host = host)
      (hscope : guardian.store.scope = .open) (hlive : run ∈ guardian.live)
      (hrow : ∃ row, guardian.store.rows[run]? = some row ∧ row.spec = spec)
      (hspawns : guardian.runtime.spawns run = true) :
      Starts host run spec guardian (.spawned run spec)
        (guardian.advanced ⟨.start run spec, platform⟩)

/-- One commit of a guardian call, whichever call it is: what every invariant of the guardian is
proved against. -/
def Step (guardian : Guardian) (event : GuardianEvent) (after : Guardian) : Prop :=
  Quiet guardian event after ∨ ∃ host run spec, Starts host run spec guardian event after

/-- What relates the journal, the list of live Runs and the runtime between any two commits. -/
structure Sound (guardian : Guardian) : Prop where
  nodup : guardian.live.Nodup
  rows : ∀ run ∈ guardian.live, run ∈ guardian.store.rows
  known : ∀ run ∈ guardian.runtime.runs, run ∈ guardian.live
  quiescent : guardian.runtime.Quiescent
  final : ∀ (run : RunId) (row : GuardianRow), guardian.store.rows[run]? = some row →
    row.snapshot.cleanup.isComplete = true → guardian.runtime.run run = some row.snapshot
  closed : guardian.store.scope.isClosed = true → guardian.runtime.state.isClosed = true ∧
    ∀ (run : RunId) (row : GuardianRow), guardian.store.rows[run]? = some row →
      row.snapshot.cleanup.isComplete = true

variable {guardian after : Guardian} {event : GuardianEvent} {f : GuardianStore → GuardianStore}

section

variable (hauto : guardian.connection.pending = none)

include hauto

theorem store_stored : (guardian.stored f).store = f guardian.store := by
  rw [store, stored, GuardianConnection.write, hauto]

theorem pending_stored : (guardian.stored f).connection.pending = none := by
  rw [stored, GuardianConnection.write, hauto]

theorem view_eq_store : guardian.connection.view = guardian.store := by
  rw [GuardianConnection.view, hauto]
  rfl

end

variable {run : RunId}

/-- Live Runs as many as rows are all there are. -/
theorem mem_live_of_size (hnodup : guardian.live.Nodup)
    (hrows : ∀ run ∈ guardian.live, run ∈ guardian.store.rows)
    (hsize : guardian.store.rows.size = guardian.live.length) (h : run ∈ guardian.store.rows) :
    run ∈ guardian.live := by
  have hsub : guardian.live.Subperm guardian.store.rows.keys :=
    List.subperm_of_subset hnodup fun run hrun => mem_keys.mpr (hrows run hrun)
  have hperm := hsub.perm_of_length_le (by rw [length_keys, hsize])
  exact hperm.mem_iff.mpr (mem_keys.mpr h)

/-- A Run that is reported as cleaned up in a closed Scope. -/
theorem isComplete_of_closed (h : guardian.runtime.Quiescent)
    (hclosed : guardian.runtime.state.isClosed = true) {current : RunSnapshot}
    (hcurrent : guardian.runtime.run run = some current) : current.cleanup.isComplete = true := by
  obtain ⟨record, hrecord, rfl⟩ := Option.map_eq_some_iff.mp hcurrent
  exact h hclosed run record hrecord

namespace Writes

variable (h : Writes guardian f)

include h

theorem mem_rows (hrun : run ∈ guardian.store.rows) : run ∈ (f guardian.store).rows := by
  cases h with
  | requestStop other => exact mem_modify.mpr hrun
  | close _ => exact mem_map.mpr hrun
  | bind host _ => exact hrun
  | saveSnapshot other current _ => exact mem_modify.mpr hrun
  | saveScope _ _ _ => exact hrun

/-- What a write does to a row: its snapshot stays, or becomes what the runtime knows. -/
theorem row {row : GuardianRow} (hrow : (f guardian.store).rows[run]? = some row) :
    ∃ before, guardian.store.rows[run]? = some before ∧
      (row.snapshot = before.snapshot ∨ guardian.runtime.run run = some row.snapshot) := by
  cases h with
  | requestStop other =>
    rw [Map.getElem?_modify] at hrow
    split at hrow
    · obtain ⟨before, hbefore, rfl⟩ := Option.map_eq_some_iff.mp hrow
      rename_i hother
      exact ⟨before, hother ▸ hbefore, .inl rfl⟩
    · exact ⟨row, hrow, .inl rfl⟩
  | close _ =>
    rw [getElem?_map] at hrow
    obtain ⟨before, hbefore, rfl⟩ := Option.map_eq_some_iff.mp hrow
    exact ⟨before, hbefore, .inl rfl⟩
  | bind host _ _ => exact ⟨row, hrow, .inl rfl⟩
  | saveSnapshot other current hcurrent =>
    rw [Map.getElem?_modify] at hrow
    split at hrow
    · obtain ⟨before, hbefore, rfl⟩ := Option.map_eq_some_iff.mp hrow
      rename_i hother
      exact ⟨before, hother ▸ hbefore, .inr (hother ▸ hcurrent)⟩
    · exact ⟨row, hrow, .inl rfl⟩
  | saveScope _ _ _ => exact ⟨row, hrow, .inl rfl⟩

/-- A row that records a cleaned-up Run records what the runtime knows. -/
theorem final (hsound : Sound guardian) {row : GuardianRow}
    (hrow : (f guardian.store).rows[run]? = some row)
    (hcomplete : row.snapshot.cleanup.isComplete = true) :
    guardian.runtime.run run = some row.snapshot := by
  obtain ⟨before, hbefore, hsame | hcurrent⟩ := h.row hrow
  · rw [hsame] at hcomplete ⊢
    exact hsound.final run before hbefore hcomplete
  · exact hcurrent

theorem closed (hsound : Sound guardian) (hclosed : (f guardian.store).scope.isClosed = true) :
    guardian.runtime.state.isClosed = true ∧
      ∀ (run : RunId) (row : GuardianRow), (f guardian.store).rows[run]? = some row →
        row.snapshot.cleanup.isComplete = true := by
  have hkept : guardian.store.scope.isClosed = true → guardian.runtime.state.isClosed = true ∧
      ∀ (run : RunId) (row : GuardianRow), (f guardian.store).rows[run]? = some row →
        row.snapshot.cleanup.isComplete = true := by
    intro hbefore
    obtain ⟨hruntime, hrows⟩ := hsound.closed hbefore
    refine ⟨hruntime, fun run row hrow => ?_⟩
    obtain ⟨before, hrow', hsame | hcurrent⟩ := h.row hrow
    · rw [hsame]
      exact hrows run before hrow'
    · exact isComplete_of_closed hsound.quiescent hruntime hcurrent
  cases h with
  | requestStop other => exact hkept hclosed
  | close _ => cases hclosed
  | bind host _ _ => exact hkept hclosed
  | saveSnapshot other current hcurrent => exact hkept hclosed
  | saveScope _ hsize hsaved =>
    refine ⟨hclosed, fun run row hrow => ?_⟩
    have hmem : run ∈ guardian.store.rows := by
      rw [mem_iff_isSome_getElem?, hrow]
      rfl
    obtain ⟨saved, hrow', hcurrent⟩ :=
      hsaved run (mem_live_of_size hsound.nodup hsound.rows hsize hmem)
    rw [hrow] at hrow'
    cases hrow'
    exact isComplete_of_closed hsound.quiescent hclosed hcurrent

end Writes

theorem Quiet.sound (h : Quiet guardian event after) (hsound : Sound guardian) : Sound after := by
  cases h with
  | write f hauto hwrites =>
    have hstore : (guardian.stored f).store = f guardian.store := store_stored hauto
    refine ⟨hsound.nodup, fun run hrun => ?_, hsound.known, hsound.quiescent,
      fun run row hrow hcomplete => ?_, fun hclosed => ?_⟩
    · rw [hstore]
      exact hwrites.mem_rows (hsound.rows run hrun)
    · rw [hstore] at hrow
      exact hwrites.final hsound hrow hcomplete
    · rw [hstore] at hclosed ⊢
      exact hwrites.closed hsound hclosed
  | stuck pending =>
    exact ⟨hsound.nodup, hsound.rows, hsound.known, hsound.quiescent, hsound.final, hsound.closed⟩
  | push run hrow hlive =>
    refine ⟨?_, List.forall_mem_append.mpr ⟨hsound.rows, List.forall_mem_singleton.mpr hrow⟩,
      fun other hother => ?_, hsound.quiescent, hsound.final, hsound.closed⟩
    · rw [← List.concat_eq_append]
      exact hsound.nodup.concat hlive
    · exact List.mem_append_left _ (hsound.known other hother)
  | advance input hstart =>
    refine ⟨hsound.nodup, hsound.rows, fun run hrun => hsound.known run ?_,
      hsound.quiescent.apply input, fun run row hrow hcomplete => ?_, fun hclosed => ?_⟩
    · by_contra hnone
      rw [mem_iff_isSome_getElem?, Option.not_isSome_iff_eq_none] at hnone
      have hafter := getElem?_apply_of_none hnone (hstart run)
      rw [mem_iff_isSome_getElem?] at hrun
      rw [show (guardian.advanced input).runtime = guardian.runtime.apply input from rfl,
        hafter] at hrun
      cases hrun
    · exact run_apply_of_complete input (hsound.final run row hrow hcomplete) hcomplete
    · obtain ⟨hruntime, hrows⟩ := hsound.closed hclosed
      refine ⟨?_, hrows⟩
      show (guardian.runtime.apply input).state.isClosed = true
      rw [(keeps_apply guardian.runtime input).closed hruntime]
      exact hruntime
  | settle settled =>
    exact ⟨hsound.nodup, hsound.rows, hsound.known, hsound.quiescent, hsound.final, hsound.closed⟩

theorem Starts.sound {host : HostBinding} {spec : RunSpec}
    (h : Starts host run spec guardian event after) (hsound : Sound guardian) : Sound after := by
  cases h with
  | accept hauto _ hscope hnew =>
    have hstore : (guardian.stored (withRow run spec)).store = withRow run spec guardian.store :=
      store_stored hauto
    refine ⟨hsound.nodup, fun other hother => ?_, hsound.known, hsound.quiescent,
      fun other row hrow hcomplete => ?_, fun hclosed => ?_⟩
    · rw [hstore]
      exact mem_insert.mpr (.inr (hsound.rows other hother))
    · rw [hstore, withRow, Map.getElem?_insert] at hrow
      split at hrow
      · cases hrow
        cases hcomplete
      · exact hsound.final other row hrow hcomplete
    · rw [hstore, withRow, hscope] at hclosed
      cases hclosed
  | spawn platform _ hscope hlive _ _ =>
    refine ⟨hsound.nodup, hsound.rows, fun other hother => ?_, hsound.quiescent.apply _,
      fun other row hrow hcomplete => ?_, fun hclosed => ?_⟩
    · by_cases hrun : other = run
      · rw [hrun]
        exact hlive
      · refine hsound.known other ?_
        rw [mem_iff_isSome_getElem?] at hother ⊢
        rw [advanced, getElem?_apply] at hother
        simpa [Ne.symm hrun] using hother
    · exact run_apply_of_complete _ (hsound.final other row hrow hcomplete) hcomplete
    · rw [show (guardian.advanced ⟨.start run spec, platform⟩).store = guardian.store from rfl,
        hscope] at hclosed
      cases hclosed

theorem Step.sound (h : Step guardian event after) (hsound : Sound guardian) : Sound after := by
  obtain h | ⟨host, run, spec, h⟩ := h
  · exact h.sound hsound
  · exact h.sound hsound

/-! ### The operations on journal and memory -/

section

variable {ε α : Type} {frame : Frame} {world : GuardianWorld} {unavailable : ε}
  {P : Guardian → Prop} {R : Guardian → GuardianEvent → Guardian → Prop}

theorem traced_read {g : GuardianStore → α} {Q : α → Guardian → Prop}
    (h : ∀ s, P s → Q (g s.connection.view) s) : Traced R P (read world unavailable g) Q := by
  refine draw.bind fun n => .bind .get fun s => ?_
  split
  · refine .pure ?_
    rintro t ⟨rfl, hs⟩
    exact h s hs
  · exact .fail

variable {Q : Unit → Guardian → Prop}

theorem traced_write_of (hquiet : ∀ s event t, Quiet s event t → R s event t)
    (h : ∀ s, P s → R s .stored (s.stored f) ∧ Q () (s.stored f)) :
    Traced R P (write world unavailable f) Q := by
  refine draw.bind fun n => .bind .get fun s => ?_
  have hstored : Traced R (fun t => s = t ∧ P t)
      (Proc.commit .stored (s.stored f) : Work ε Unit) Q := by
    refine .commit ?_
    rintro t ⟨rfl, hs⟩
    exact h s hs
  cases world.writes n with
  | written => exact hstored
  | lost => exact .fail
  | kept => exact hstored.bind fun _ => .fail
  | stuck pending =>
    refine .bind (Q := fun _ _ => True) (.commit ?_) fun _ => .fail
    rintro t ⟨rfl, _⟩
    exact ⟨hquiet _ _ _ (.stuck s pending), trivial⟩

theorem traced_write (h : ∀ s, P s → s.connection.pending = none ∧ Writes s f ∧ Q () (s.stored f)) :
    Traced Quiet P (write world unavailable f) Q := by
  refine traced_write_of (fun _ _ _ hstep => hstep) fun s hs => ?_
  obtain ⟨hauto, hwrites, hpost⟩ := h s hs
  exact ⟨.write s f hauto hwrites, hpost⟩

theorem traced_remember {g : Guardian → Guardian}
    (h : ∀ s, P s → Quiet s .remembered (g s) ∧ Q () (g s)) :
    Traced Quiet P (remember g : Work ε Unit) Q := by
  refine .bind .get fun s => .commit ?_
  rintro t ⟨rfl, hs⟩
  exact h s hs

/-! ### Reconciliation -/

/-- Between two commits of a call that found its connection free. -/
structure Ready (guardian : Guardian) : Prop where
  sound : Sound guardian
  auto : guardian.connection.pending = none

/-- The runtime has been told that the Scope is to be closed. -/
structure Restored (guardian : Guardian) : Prop extends Ready guardian where
  told : guardian.store.scope ≠ .open → guardian.runtime.state ≠ .open

theorem Ready.stored (h : Ready guardian) (hwrites : Writes guardian f) :
    Ready (guardian.stored f) :=
  ⟨(Quiet.write guardian f h.auto hwrites).sound h.sound, pending_stored h.auto⟩

theorem Ready.advanced (h : Ready guardian) (input : Input)
    (hstart : ∀ run spec, input.command ≠ .start run spec) : Ready (guardian.advanced input) :=
  ⟨(Quiet.advance guardian input hstart).sound h.sound, h.auto⟩

theorem Restored.advanced (h : Restored guardian) (input : Input)
    (hstart : ∀ run spec, input.command ≠ .start run spec) : Restored (guardian.advanced input) :=
  ⟨h.toReady.advanced input hstart,
    fun hscope => state_ne_open_apply (h.told hscope) input⟩

theorem traced_autocommit {Q : Guardian → Prop} (h : ∀ s, P s → Q s ∧ Sound s) (unavailable : ε) :
    Traced R (fun s => guardian = s ∧ P s)
      (Proc.ensure guardian.connection.isAutocommit unavailable : Work ε Unit)
      fun _ s => Q s ∧ Ready s := by
  refine ensure.post ?_
  rintro _ s ⟨⟨rfl, hs⟩, hauto⟩
  exact ⟨(h _ hs).1, (h _ hs).2, Option.isNone_iff_eq_none.mp hauto⟩

theorem traced_scopeState {Q : Guardian → Prop} (h : ∀ s, P s → Ready s ∧ Q s) :
    Traced R P (scopeState world) fun scope s => scope = s.store.scope ∧ Q s :=
  traced_read fun s hs => ⟨by rw [view_eq_store (h s hs).1.auto], (h s hs).2⟩

/-- A forced close is never refused, and leaves the runtime closing or closed. -/
theorem state_forceClose (runtime : ScopeRuntime) (now : Instant) :
    (runtime.close .force now).1.state ≠ .open := by
  rw [close]
  split
  · rename_i hclosed
    intro hopen
    rw [hopen] at hclosed
    cases hclosed
  · rintro ⟨⟩

/-- What the runtime answers to a forced stop is remembered before it is looked at. -/
theorem traced_forced {after : Guardian} {answer : Except StopError Unit}
    (h : P guardian → Quiet guardian .remembered after ∧ Restored after) :
    Traced Quiet (fun s => guardian = s ∧ P s) (do
      Proc.commit .remembered after
      match answer with
      | .ok () => Pure.pure ()
      | .error _ => Proc.fail .storageUnavailable : Work GuardianRunRejection Unit)
      fun _ => Restored := by
  refine .bind (.commit (Q := fun _ => Restored) ?_) fun _ => ?_
  · rintro s ⟨rfl, hs⟩
    exact h hs
  · split
    · exact .pure fun s hs => hs
    · exact .fail

theorem traced_forceClose : Traced Quiet Ready (forceClose world) fun _ => Restored := by
  refine draw.bind fun n => .bind .get fun s => traced_forced fun hready => ?_
  have hstart : ∀ run spec, Command.close .force (world.now n) ≠ .start run spec := nofun
  have hquiet := Quiet.advance s ⟨.close .force (world.now n), world.platform n⟩ hstart
  exact ⟨hquiet, ⟨hquiet.sound hready.sound, hready.auto⟩, fun _ => state_forceClose _ _⟩

theorem traced_forceStop (run : RunId) :
    Traced Quiet Restored (forceStop world run) fun _ => Restored := by
  refine draw.bind fun n => .bind .get fun s => traced_forced fun hrestored => ?_
  have hstart : ∀ other spec, Command.stopRun run .force (world.now n) ≠ .start other spec := nofun
  exact ⟨Quiet.advance s ⟨.stopRun run .force (world.now n), world.platform n⟩ hstart,
    hrestored.advanced ⟨.stopRun run .force (world.now n), world.platform n⟩ hstart⟩

theorem traced_restoreStop (run : RunId) :
    Traced Quiet Restored (restoreStop world run) fun _ => Restored := by
  refine .bind (Q := fun _ => Restored) (traced_read fun _ hs => hs) fun row => ?_
  cases row with
  | none => exact .fail
  | some row =>
    exact .whenever (fun _ => traced_forceStop run) fun _ s hs => hs

theorem traced_restoreStopIntents :
    Traced Quiet Sound (restoreStopIntents world) fun _ => Restored := by
  refine .bind .get fun _ => (traced_autocommit (fun _ hs => ⟨hs, hs⟩) _).bind fun _ => ?_
  refine (traced_scopeState (Q := Ready) fun s hs => ⟨hs.2, hs.2⟩).bind fun scope => ?_
  refine .bind (Q := fun _ => Restored) (.whenever ?_ ?_) fun _ => ?_
  · exact fun _ => traced_forceClose.pre fun s hs => hs.2
  · rintro hopen s ⟨hscope, hready⟩
    exact ⟨hready, fun hne => absurd (hscope.symm.trans (not_not.mp hopen)) hne⟩
  · exact .forM (I := fun _ => Restored) fun _ run _ _ => traced_restoreStop run

/-- The rows of these Runs hold what the runtime knows of them. -/
def Saved (done : List RunId) (guardian : Guardian) : Prop :=
  ∀ run ∈ done, ∃ row, guardian.store.rows[run]? = some row ∧
    guardian.runtime.run run = some row.snapshot

theorem Restored.stored (h : Restored guardian) (hwrites : Writes guardian f)
    (hscope : (f guardian.store).scope = guardian.store.scope) : Restored (guardian.stored f) := by
  refine ⟨h.toReady.stored hwrites, fun hne => h.told ?_⟩
  rwa [store_stored h.auto, hscope] at hne

theorem Saved.modify {done : List RunId} {current : RunSnapshot} (h : Saved done guardian)
    (hauto : guardian.connection.pending = none) (hrow : run ∈ guardian.store.rows)
    (hcurrent : guardian.runtime.run run = some current) :
    Saved (done ++ [run]) (guardian.stored fun store => { store with
      rows := store.rows.modify run fun row => { row with snapshot := current } }) := by
  intro other hother
  rw [store_stored hauto]
  show ∃ row, (guardian.store.rows.modify run _)[other]? = some row ∧ _
  rw [Map.getElem?_modify]
  by_cases hsame : run = other
  · rw [mem_iff_isSome_getElem?] at hrow
    obtain ⟨row, hrow⟩ := Option.isSome_iff_exists.mp hrow
    rw [← hsame, if_pos rfl, hrow]
    exact ⟨_, rfl, hcurrent⟩
  · rw [if_neg hsame]
    rcases List.mem_append.mp hother with hother | hother
    · exact h other hother
    · exact absurd (List.mem_singleton.mp hother).symm hsame

theorem traced_saveSnapshot {live done : List RunId} (hlive : run ∈ live) :
    Traced Quiet (fun s => Restored s ∧ s.live = live ∧ Saved done s)
      (saveSnapshot frame world run)
      fun _ s => Restored s ∧ s.live = live ∧ Saved (done ++ [run]) s := by
  refine .bind .get fun guardian => ?_
  split
  · exact .fail
  rename_i current hcurrent
  refine ensure.bind fun _ => traced_write ?_
  rintro s ⟨⟨rfl, hrestored, rfl, hsaved⟩, _⟩
  have hwrites : Writes guardian _ := .saveSnapshot run current hcurrent
  exact ⟨hrestored.auto, hwrites, hrestored.stored hwrites rfl, rfl,
    hsaved.modify hrestored.auto (hrestored.sound.rows run hlive) hcurrent⟩

theorem traced_saveScope :
    Traced Quiet (fun s => Restored s ∧ Saved s.live s) (saveScope world) fun _ => Ready := by
  refine .bind (Q := fun count s => count = s.store.rows.size ∧ Restored s ∧ Saved s.live s)
    (traced_read ?_) fun count => .bind .get fun guardian => .whenever ?_ ?_
  · rintro s ⟨hrestored, hsaved⟩
    exact ⟨by rw [view_eq_store hrestored.auto], hrestored, hsaved⟩
  · intro hsize
    refine .bind (Q := fun _ => Ready) (traced_write ?_) fun _ => traced_remember ?_
    · rintro s ⟨rfl, rfl, hrestored, hsaved⟩
      have hwrites := Writes.saveScope hrestored.told hsize hsaved
      exact ⟨hrestored.auto, hwrites, hrestored.toReady.stored hwrites⟩
    · intro s hready
      have hquiet := Quiet.settle s guardian.runtime.state.isClosed
      exact ⟨hquiet, hquiet.sound hready.sound, hready.auto⟩
  · rintro _ s ⟨_, _, hrestored, _⟩
    exact hrestored.toReady

/-- A reconciliation that gets to its end leaves the connection free, unless there was nothing to
do. -/
theorem traced_reconcile (hP : ∀ s, P s → Sound s) :
    Traced Quiet P (reconcile frame world) fun _ s => Ready s ∨ P s := by
  refine .bind .get fun guardian => .whenever (fun _ => ?_) fun _ s hs => .inr hs.2
  have hintents : Traced Quiet (fun s => guardian = s ∧ P s) (restoreStopIntents world)
      fun _ => Restored := traced_restoreStopIntents.pre fun s hs => hP s hs.2
  refine (hintents.attempt (I := Sound) (fun s hs => hP s hs.2)
    fun s o t hs hstep => hstep.sound hs).bind fun intents => ?_
  refine draw.bind fun n => ?_
  refine .bind (Q := fun _ s => Sound s ∧ ∀ a, intents = .ok a → Restored s)
    (traced_remember ?_) fun _ => ?_
  · rintro s ⟨hsound, hrestored⟩
    have hstart : ∀ run spec, Command.reconcile (world.now n) ≠ .start run spec := nofun
    have hquiet := Quiet.advance s ⟨.reconcile (world.now n), world.platform n⟩ hstart
    exact ⟨hquiet, hquiet.sound hsound, fun a ha => (hrestored a ha).advanced
      ⟨.reconcile (world.now n), world.platform n⟩ hstart⟩
  · cases intents with
    | error reason => exact .fail
    | ok =>
      refine .bind .get fun guardian => ?_
      refine .bind (Q := fun _ s => Restored s ∧ s.live = guardian.live ∧
        Saved guardian.live s) ?_ fun _ => (traced_saveScope.pre ?_).post fun _ s hs => .inl hs
      · refine (Traced.forM (I := fun done s => Restored s ∧ s.live = guardian.live ∧
          Saved done s) ?_).pre ?_
        · intro done run rest hlive
          exact traced_saveSnapshot (by rw [hlive]; exact List.mem_append_right _ List.mem_cons_self)
        · rintro s ⟨rfl, _, hrestored⟩
          exact ⟨hrestored () rfl, rfl, List.forall_mem_nil _⟩
      · rintro s ⟨hrestored, hlive, hsaved⟩
        exact ⟨hrestored, by rwa [hlive]⟩

/-! ### Run operations -/

/-- The commits of an operation: only the start of a Run without a row accepts it and spawns it, for
the host that is bound when the operation begins. -/
def OperationStep (first : Guardian) (operation : GuardianRunOperation) (guardian : Guardian)
    (event : GuardianEvent) (after : Guardian) : Prop :=
  Quiet guardian event after ∨ ∃ run spec, operation = .start run spec ∧
    first.store.rows[run]? = none ∧ Starts first.store.host run spec guardian event after

variable {operation : GuardianRunOperation}

theorem OperationStep.step {first : Guardian}
    (h : OperationStep first operation guardian event after) : Step guardian event after := by
  obtain h | ⟨run, spec, _, _, h⟩ := h
  · exact .inl h
  · exact .inr ⟨_, run, spec, h⟩

/-- A Run that was just accepted: its row is committed, and the runtime does not know it yet. -/
structure Accepted (host : HostBinding) (run : RunId) (spec : RunSpec) (guardian : Guardian) :
    Prop extends Ready guardian where
  host : guardian.store.host = host
  scope : guardian.store.scope = .open
  row : ∃ row, guardian.store.rows[run]? = some row ∧ row.spec = spec

theorem Accepted.mem_rows {host : HostBinding} {spec : RunSpec}
    (h : Accepted host run spec guardian) : run ∈ guardian.store.rows := by
  obtain ⟨row, hrow, _⟩ := h.row
  rw [mem_iff_isSome_getElem?, hrow]
  rfl

/-- The answer of an operation is read back from the journal. -/
def Answers (guardian : Guardian) (operation : GuardianRunOperation) : GuardianRunResult → Prop
  | .run snapshot => ∀ run, operation.target = some run →
    ∃ row, guardian.store.rows[run]? = some row ∧ row.snapshot = snapshot
  | .scope state => state = guardian.store.scope
  | .rejected reason => ∀ run, operation = .stop run → reason = .unknownRun →
    guardian.store.rows[run]? = none
  | .output _ _ _ _ => True

variable {first : Guardian} {run : RunId} {spec : RunSpec}

theorem traced_launch (hnew : first.store.rows[run]? = none) :
    Traced (OperationStep first (.start run spec))
      (fun s => Accepted first.store.host run spec s ∧ run ∈ s.live) (launch world run spec)
      fun _ => Ready := by
  refine draw.bind fun n => .bind .get fun s => ?_
  refine .bind (Q := fun _ => Ready) (.whenever (fun hspawns => .commit ?_) ?_)
    fun _ => ?_
  · rintro t ⟨rfl, haccepted, hlive⟩
    have hspawn : Starts first.store.host run spec s (.spawned run spec)
        (s.advanced ⟨.start run spec, world.platform n⟩) :=
      .spawn s _ haccepted.host haccepted.scope hlive haccepted.row hspawns
    exact ⟨.inr ⟨run, spec, rfl, hnew, hspawn⟩, hspawn.sound haccepted.sound, haccepted.auto⟩
  · rintro _ t ⟨_, haccepted, _⟩
    exact haccepted.toReady
  · split
    · exact .pure fun t ht => ht
    · exact .fail

theorem traced_accept (hnew : first.store.rows[run]? = none) :
    Traced (OperationStep first (.start run spec)) (fun s => first = s ∧ Ready s)
      (accept frame world run spec) fun _ => Ready := by
  refine (traced_scopeState fun s hs => ⟨hs.2, hs⟩).bind fun scope => ensure.bind fun _ => ?_
  refine .bind (Q := fun _ s => (scope = s.store.scope ∧ first = s ∧ Ready s) ∧
    scope = .open) (traced_read fun s hs => hs) fun count => ?_
  refine ensure.bind fun _ => ensure.bind fun _ => ensure.bind fun _ => ?_
  refine .bind (Q := fun _ s => Accepted first.store.host run spec s ∧ run ∉ s.live)
    (traced_write_of (fun _ _ _ => .inl) ?_) fun _ => ?_
  · rintro s ⟨⟨⟨⟨⟨hscope, rfl, hready⟩, hopen⟩, _⟩, _⟩, _⟩
    have hstarts : Starts first.store.host run spec first .stored
        (first.stored (withRow run spec)) :=
      .accept first hready.auto rfl (hscope.symm.trans hopen) hnew
    have hstore : (first.stored (withRow run spec)).store = withRow run spec first.store :=
      store_stored hready.auto
    have hlive : run ∉ first.live := fun hlive => by
      have hrow := hready.sound.rows run hlive
      rw [mem_iff_isSome_getElem?, hnew] at hrow
      cases hrow
    refine ⟨.inr ⟨run, spec, rfl, hnew, hstarts⟩,
      ⟨⟨hstarts.sound hready.sound, pending_stored hready.auto⟩, ?_, ?_, ?_⟩, hlive⟩
    · rw [hstore]
      rfl
    · rw [hstore]
      exact hscope.symm.trans hopen
    · rw [hstore, withRow, Map.getElem?_insert, if_pos rfl]
      exact ⟨_, rfl, rfl⟩
  · refine .bind ((traced_remember ?_).mono fun _ _ _ => .inl) fun _ => traced_launch hnew
    rintro s ⟨haccepted, hlive⟩
    have hquiet := Quiet.push s run haccepted.mem_rows hlive
    exact ⟨hquiet, ⟨⟨hquiet.sound haccepted.sound, haccepted.auto⟩, haccepted.host, haccepted.scope,
      haccepted.row⟩, List.mem_append_right _ (List.mem_singleton.mpr rfl)⟩

theorem traced_start :
    Traced (OperationStep first (.start run spec)) (fun s => first = s ∧ Ready s)
      (start frame world run spec) fun _ => Ready := by
  refine .bind (Q := fun row s => (first = s ∧ Ready s) ∧ row = first.store.rows[run]?)
    (traced_read ?_) fun row => ?_
  · rintro s ⟨rfl, hready⟩
    exact ⟨⟨rfl, hready⟩, by rw [view_eq_store hready.auto]⟩
  · cases row with
    | none =>
      cases hnew : first.store.rows[run]? with
      | none => exact (traced_accept hnew).pre fun s hs => hs.1
      | some row => exact .vacuous fun s hs => nomatch hs.2
    | some row => exact ensure.post fun _ s hs => hs.1.1.2

theorem traced_requestStop : Traced Quiet Ready (requestStop world run) fun _ => Ready := by
  refine .bind (Q := fun _ => Ready) ?_ fun _ => traced_write fun s hready => ?_
  · refine .bind (Q := fun _ => Ready) (traced_read fun s hs => hs) fun row => ?_
    cases row with
    | none => exact .fail
    | some row => exact .pure fun s hs => hs
  · have hwrites : Writes s _ := .requestStop run
    exact ⟨hready.auto, hwrites, hready.stored hwrites⟩

theorem traced_closeScope : Traced Quiet Ready (closeScope world) fun _ => Ready := by
  refine (traced_scopeState fun s hs => ⟨hs, hs⟩).bind fun scope => .whenever ?_ ?_
  · intro hopen
    refine traced_write ?_
    rintro s ⟨hscope, hready⟩
    have hwrites : Writes s _ := .close (hscope.symm.trans hopen)
    exact ⟨hready.auto, hwrites, hready.stored hwrites⟩
  · exact fun _ s hs => hs.2

theorem traced_answerRun (htarget : operation.target = some run) :
    Traced R Ready (snapshot world run >>= fun current => pure (GuardianRunResult.run current))
      fun result s => Sound s ∧ Answers s operation result := by
  refine .bind (Q := fun current s => Ready s ∧
    ∃ row, s.store.rows[run]? = some row ∧ row.snapshot = current) ?_ fun current => ?_
  · refine .bind (Q := fun row s => Ready s ∧ row = s.store.rows[run]?)
      (traced_read fun s hs => ⟨hs, by rw [view_eq_store hs.auto]⟩) fun row => ?_
    cases row with
    | none => exact .fail
    | some row => exact .pure fun s hs => ⟨hs.1, row, hs.2.symm, rfl⟩
  · refine .pure ?_
    rintro s ⟨hready, hrow⟩
    refine ⟨hready.sound, fun other hother => ?_⟩
    rw [htarget] at hother
    cases hother
    exact hrow

theorem traced_answerScope :
    Traced R Ready (scopeState world >>= fun state => pure (GuardianRunResult.scope state))
      fun result s => Sound s ∧ Answers s operation result :=
  (traced_scopeState fun _ hs => ⟨hs, hs⟩).bind fun _ =>
    .pure fun _ hs => ⟨hs.2.sound, hs.1⟩

theorem traced_applyRun (operation : GuardianRunOperation) :
    Traced (OperationStep first operation) (fun s => first = s ∧ Sound s)
      (applyRun frame world operation) fun result s => Sound s ∧ Answers s operation result := by
  have hreconcile : Traced (OperationStep first operation) Ready (reconcile frame world)
      fun _ => Ready :=
    ((traced_reconcile fun _ hs => hs.sound).post fun _ _ hs => hs.elim id id).mono
      fun _ _ _ => .inl
  refine .bind .get fun _ => (traced_autocommit (fun _ hs => hs) _).bind fun _ => ?_
  cases operation with
  | start run spec =>
    exact traced_start.bind fun _ => hreconcile.bind fun _ => traced_answerRun rfl
  | query run => exact (hreconcile.pre fun s hs => hs.2).bind fun _ => traced_answerRun rfl
  | stop run =>
    exact ((traced_requestStop.mono fun _ _ _ => .inl).pre fun s hs => hs.2).bind fun _ =>
      hreconcile.bind fun _ => traced_answerRun rfl
  | close =>
    exact ((traced_closeScope.mono fun _ _ _ => .inl).pre fun s hs => hs.2).bind fun _ =>
      hreconcile.bind fun _ => traced_answerScope
  | scope => exact (hreconcile.pre fun s hs => hs.2).bind fun _ => traced_answerScope
  | output run stream offset maxBytes =>
    refine ensure.bind fun _ => .bind (Q := fun _ => Sound) ?_ fun _ =>
      draw.bind fun n => ?_
    · refine .bind (Q := fun _ => Sound) (traced_read fun s hs => hs.1.2.sound) fun row => ?_
      cases row with
      | none => exact .fail
      | some row => exact .pure fun s hs => hs
    · split
      · exact .pure fun s hs => ⟨hs, trivial⟩
      · exact .fail

/-! ### Management -/

/-- An inspection commits nothing and succeeds for the bound host. -/
theorem traced_inspect (channel : GuardianChannel) (session : GuardianHostSession) :
    Traced (fun _ _ _ => False) (fun s => first = s ∧ Sound s)
      (applyManagement world channel (.inspect session)) fun _ s =>
        (first = s ∧ Sound s) ∧ session.host = first.store.host := by
  refine .bind .get fun _ => (traced_autocommit (fun _ hs => hs) _).bind fun _ => ?_
  refine .bind (Q := fun current s => (first = s ∧ Ready s) ∧ current = first.store.host)
    (traced_read ?_) fun current => ?_
  · rintro s ⟨rfl, hready⟩
    exact ⟨⟨rfl, hready⟩, by rw [view_eq_store hready.auto]⟩
  · refine ensure.bind fun _ => .pure ?_
    rintro s ⟨⟨⟨rfl, hready⟩, rfl⟩, hsession⟩
    exact ⟨⟨rfl, hready.sound⟩, hsession⟩

theorem traced_applyManagement (channel : GuardianChannel)
    (operation : GuardianManagementOperation) :
    Traced Quiet Sound (applyManagement world channel operation) fun reply s =>
      Sound s ∧ ∀ intent session, reply = .bound intent session → session.host = s.store.host := by
  refine .bind .get fun _ => (traced_autocommit (fun _ hs => ⟨hs, hs⟩) _).bind fun _ => ?_
  refine .bind (Q := fun current s => Ready s ∧ current = s.store.host)
    (traced_read ?_) fun current => ?_
  · rintro s ⟨_, hready⟩
    exact ⟨hready, by rw [view_eq_store hready.auto]⟩
  · cases operation with
    | bind host =>
      refine ensure.bind fun _ => ensure.bind fun _ => ensure.bind fun _ =>
        ensure.bind fun _ => ?_
      refine .bind (Q := fun _ s => Sound s ∧ host = s.store.host) (.whenever ?_ ?_)
        fun _ => .pure ?_
      · intro _
        refine traced_write ?_
        rintro s ⟨⟨⟨⟨⟨hready, rfl⟩, _⟩, _⟩, hepoch⟩, hinstance⟩
        have hwrites : Writes s fun store => { store with host := host } :=
          .bind host hepoch fun heq => by
            cases host
            simp_all
        exact ⟨hready.auto, hwrites, (hready.stored hwrites).sound, by rw [store_stored hready.auto]⟩
      · rintro hsame s ⟨⟨⟨⟨⟨hready, hcurrent⟩, _⟩, _⟩, _⟩, _⟩
        exact ⟨hready.sound, (not_not.mp hsame).trans hcurrent⟩
      · rintro s ⟨hsound, rfl⟩
        refine ⟨hsound, fun intent session hreply => ?_⟩
        cases hreply
        rfl
    | inspect session =>
      exact ensure.bind fun _ => .pure fun s hs => ⟨hs.1.1.sound, nofun⟩

end

end Guardian

end OraDesktop.Process
