import OraDesktop.Process.GuardianReplies

/-!
# At most one execution for each Run

A history is any sequence of guardian calls — Run operations, takeovers by hosts and background
reconciliations — in which every statement may fail, with or without effect, and every call may be
cut off between two commits. Over every history a Run is spawned at most once and as its row says,
nothing is spawned once the Scope has left `Open`, and a Scope whose journal says `Closed` has only
Runs that are cleaned up.

## Main results

* `Step.scope_ne_open` — the journal does not reopen a Scope
* `spawnCount_add_known_le` — a Run the runtime knows is not spawned again
* `spawns_at_most_once` — every history
-/

namespace OraDesktop.Process

namespace Guardian

open Journal

variable {guardian after : Guardian} {event : GuardianEvent} {run : RunId}
  {f : GuardianStore → GuardianStore} {frame : Frame}

def isSpawnOf (run : RunId) : GuardianEvent → Bool
  | .spawned other _ => decide (other = run)
  | _ => false

theorem isSpawnOf_eq_true_iff : isSpawnOf run event = true ↔ ∃ spec, event = .spawned run spec := by
  cases event <;> simp [isSpawnOf]

def spawnCount (run : RunId) (journal : List (GuardianEvent × Guardian)) : Nat :=
  journal.countP fun entry => isSpawnOf run entry.1

theorem Writes.scope_ne_open (h : Writes guardian f) (hscope : guardian.store.scope ≠ .open) :
    (f guardian.store).scope ≠ .open := by
  cases h with
  | requestStop _ => exact hscope
  | close hopen => exact nofun
  | bind _ _ _ => exact hscope
  | saveSnapshot _ _ _ => exact hscope
  | saveScope hstate _ _ => exact hstate hscope

theorem Step.scope_ne_open (h : Step guardian event after)
    (hscope : guardian.store.scope ≠ .open) : after.store.scope ≠ .open := by
  obtain h | ⟨_, _, _, h⟩ := h
  · cases h with
    | write f hauto hwrites =>
      rw [store_stored hauto]
      exact hwrites.scope_ne_open hscope
    | stuck pending | push run _ _ | advance input _ | settle settled => exact hscope
  · cases h with
    | accept _ _ hopen _ | spawn _ _ hopen _ _ _ => exact absurd hopen hscope

theorem Step.known (h : Step guardian event after) (hrun : run ∈ guardian.runtime.runs) :
    run ∈ after.runtime.runs := by
  have hadvanced : ∀ input, run ∈ (guardian.runtime.apply input).runs := fun input => by
    rw [Std.ExtTreeMap.mem_iff_isSome_getElem?] at hrun ⊢
    obtain ⟨record, hrecord⟩ := Option.isSome_iff_exists.mp hrun
    obtain ⟨record', hrecord', _⟩ :=
      (ScopeRuntime.keeps_apply guardian.runtime input).record run record hrecord
    rw [hrecord']
    rfl
  obtain h | ⟨_, _, _, h⟩ := h
  · cases h with
    | write f _ _ | stuck pending | push run _ _ => exact hrun
    | advance input _ => exact hadvanced input
    | settle settled => exact hrun
  · cases h with
    | accept _ _ _ _ => exact hrun
    | spawn platform _ _ _ _ _ => exact hadvanced _

/-- A spawned Run has a row and was not known to the runtime. -/
theorem Step.spawned {spec : RunSpec} (h : Step guardian (.spawned run spec) after) :
    guardian.store.scope = .open ∧
      (∃ row, guardian.store.rows[run]? = some row ∧ row.spec = spec) ∧
      run ∉ guardian.runtime.runs ∧ run ∈ after.runtime.runs := by
  obtain h | ⟨_, _, _, h⟩ := h
  · cases h
  cases h with
  | spawn platform _ hscope _ hrow hspawns =>
    refine ⟨hscope, hrow, ?_, ?_⟩
    · rw [ScopeRuntime.spawns, Bool.and_eq_true] at hspawns
      rw [Std.ExtTreeMap.mem_iff_isSome_getElem?, Option.isNone_iff_eq_none.mp hspawns.1]
      rintro ⟨⟩
    · rw [Std.ExtTreeMap.mem_iff_isSome_getElem?, advanced, ScopeRuntime.getElem?_apply]
      simp [hspawns]

section

variable {s t : Guardian} {j : List (GuardianEvent × Guardian)} (h : Path Step s j t)

include h

theorem spawnCount_add_known_le (run : RunId) :
    spawnCount run j + (if run ∈ s.runtime.runs then 1 else 0) ≤ 1 := by
  induction h with
  | nil s =>
    rw [spawnCount, List.countP_nil]
    split <;> omega
  | @cons s t u event j hstep _ ih =>
    rw [spawnCount, List.countP_cons, ← spawnCount]
    by_cases hspawn : isSpawnOf run event = true
    · obtain ⟨spec, rfl⟩ := isSpawnOf_eq_true_iff.mp hspawn
      obtain ⟨_, _, hbefore, hafter⟩ := hstep.spawned
      rw [if_pos hafter] at ih
      rw [if_pos hspawn, if_neg hbefore]
      omega
    · rw [if_neg hspawn]
      by_cases hknown : run ∈ s.runtime.runs
      · rw [if_pos (Step.known hstep hknown)] at ih
        rw [if_pos hknown]
        omega
      · rw [if_neg hknown]
        omega

/-- Nothing is spawned on a path that starts after the Scope has left `Open`. -/
theorem not_spawned_of_scope_ne_open (hscope : s.store.scope ≠ .open) :
    ∀ entry ∈ j, ∀ run spec, entry.1 ≠ .spawned run spec := by
  induction h with
  | nil s => exact List.forall_mem_nil _
  | cons hstep _ ih =>
    refine List.forall_mem_cons.mpr ⟨?_, ih (hstep.scope_ne_open hscope)⟩
    rintro run spec rfl
    exact hscope hstep.spawned.1

end

theorem Initial.sound (h : Initial guardian) : Sound guardian := by
  obtain ⟨hconnection, hlive, _, capabilities, hruntime⟩ := h
  have hnew := ScopeRuntime.new_eq_ok hruntime
  have hscope : guardian.store.scope = .open := by rw [store, hconnection]
  refine ⟨?_, ?_, ?_, ?_, ?_, ?_⟩
  · rw [hlive]
    exact List.nodup_nil
  · rw [hlive]
    exact List.forall_mem_nil _
  · rw [hnew.1]
    exact fun run hrun => absurd hrun Std.ExtTreeMap.not_mem_empty
  · intro hclosed
    rw [hnew.2] at hclosed
    cases hclosed
  · intro run row hrow
    rw [store, hconnection] at hrow
    simp at hrow
  · intro hclosed
    rw [hscope] at hclosed
    cases hclosed

theorem traced_call (world : GuardianWorld) (call : Call) :
    Safe Step Sound (serve frame world call) := by
  refine Traced.of_eq fun first hsound => ?_
  refine ((traced_serve first call).weaken ?_ fun _ _ _ => trivial).mono
    fun _ _ _ hstep => hstep.step
  rintro s rfl
  exact ⟨rfl, hsound⟩

/-- A call together with what the outside answers while it runs. -/
def serveIn (frame : Frame) (i : GuardianWorld × Call) : Work Empty Reply := serve frame i.1 i.2

/-- In every history of a guardian a Run is spawned at most once, with the specification its row
holds; once the journal says that the Scope is closing nothing is spawned any more; and whenever the
journal says that the Scope is closed, every accepted Run is recorded as cleaned up. -/
theorem spawns_at_most_once (frame : Frame) {s₀ s : Guardian} {j : List (GuardianEvent × Guardian)}
    (h : History Initial (serveIn frame) s₀ j s) :
    (∀ run, spawnCount run j ≤ 1) ∧
    (∀ before entry rest, j = before ++ entry :: rest → ∀ run spec, entry.1 = .spawned run spec →
      ∃ row, (lastState s₀ before).store.rows[run]? = some row ∧ row.spec = spec) ∧
    (∀ before rest, j = before ++ rest → (lastState s₀ before).store.scope ≠ .open →
      ∀ entry ∈ rest, ∀ run spec, entry.1 ≠ .spawned run spec) ∧
    ∀ t ∈ s₀ :: j.map (·.2), t.store.scope.isClosed = true →
      ∀ (run : RunId) (row : GuardianRow), t.store.rows[run]? = some row →
        row.snapshot.cleanup.isComplete = true := by
  obtain ⟨hinit, hpath⟩ := h.path_of_invariant (fun s hs => Initial.sound hs)
    (fun s o t hs hstep => Step.sound hstep hs)
    fun i : GuardianWorld × Call => traced_call i.1 i.2
  refine ⟨fun run => ?_, ?_, ?_, fun t ht hclosed => ?_⟩
  · have hcount := spawnCount_add_known_le hpath run
    omega
  · rintro before ⟨event, t⟩ rest rfl run spec rfl
    cases hpath.of_append.2 with
    | cons hstep _ => exact hstep.spawned.2.1
  · rintro before rest rfl hscope
    exact not_spawned_of_scope_ne_open hpath.of_append.2 hscope
  · have hsound := hpath.forall_state (P := Sound) (fun s o t hs hstep => Step.sound hstep hs)
      hinit.sound t ht
    exact (hsound.closed hclosed).2

def fresh (intent : ScopeCreationIntent) : Guardian where
  intent := intent
  connection := { committed := { host := intent.createdBy, scope := .open, rows := ∅ }
                  pending := none }
  runtime := { guarantee := .bestEffort, runs := ∅, state := .open }
  live := []
  settled := false

theorem initial_fresh (intent : ScopeCreationIntent) : Initial (fresh intent) :=
  ⟨rfl, rfl, rfl, .bestEffortOnly, rfl⟩

/-- Every spawn succeeds and every process exits at once, leaving nothing behind. -/
def promptPlatform : Platform where
  spawn := fun _ _ _ => .ok ()
  observe := fun _ => .ok { direct := .exited (.code 0), containment := .empty }
  signal := fun _ _ => .ok ()

/-- A world in which nothing fails but the given write, which takes effect all the same. -/
def unacknowledged (write : Option Nat) (platform : Platform) : GuardianWorld where
  reads := fun _ => true
  writes := fun n => if write = some n then .kept else .written
  now := fun n => n
  platform := fun _ => platform
  output := fun _ _ _ _ _ => .error "no output"

/-- A Run whose acceptance takes effect but is reported as failed, its retry, another Run, and the
close of the Scope. -/
def retriedStart : List (GuardianWorld × Call) :=
  let call (write : Option Nat) (operation : GuardianRunOperation) : GuardianWorld × Call :=
    (unacknowledged write promptPlatform, .run .control ⟨⟨⟨1, 4⟩⟩, operation⟩)
  let spec := RunSpec.new "sh" "/" .waitForAll
  [call (some 4) (.start 7 spec), call none (.start 7 spec), call none (.start 8 spec),
    call none .close]

/-- The retry does not spawn the Run, which keeps the Scope from being reported as closed. -/
theorem spawns_at_most_once_retry :
    let frame : Frame := { spec := fun _ => true, snapshot := fun _ => true }
    let run := replay (serveIn frame) retriedStart (fresh ⟨2, 3, ⟨1, 4⟩⟩)
    spawnCount 8 run.1 ≤ 1 ∧ spawnCount 7 run.1 = 0 ∧ spawnCount 8 run.1 = 1 ∧
      run.2.store.rows.size = 2 ∧ run.2.store.scope = .closing := by
  intro frame
  have h := spawns_at_most_once frame (.of_replay (initial_fresh ⟨2, 3, ⟨1, 4⟩⟩) retriedStart)
  refine ⟨h.1 8, ?_⟩
  decide +kernel

end Guardian

end OraDesktop.Process
