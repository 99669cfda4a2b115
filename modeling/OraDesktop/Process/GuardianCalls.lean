import OraDesktop.Process.AtMostOnce

/-!
# What a whole guardian call leaves behind

A host sees the guardian only through calls and replies. Here the commits of a call are put
together: rows are never lost and a row that records a cleaned-up Run does not change, the bound
host is only ever replaced by a later one, and a Run gets a row or is spawned only by a start of the
bound host.

## Main results

* `Later` — how the bound host may change
* `CallEnds` — what a call leaves behind
* `callEnds_serve` — every call
-/

namespace OraDesktop.Process

namespace Guardian

open Journal

variable {guardian after first : Guardian} {event : GuardianEvent} {run : RunId} {call : Call}
  {frame : Frame} {world : GuardianWorld} {journal : List (GuardianEvent × Guardian)}

/-- The second binding is the first or a later one. Takeovers only ever move in this direction. -/
def Later (before after : HostBinding) : Prop := before.epoch < after.epoch ∨ after = before

theorem Later.refl (host : HostBinding) : Later host host := .inr rfl

theorem Later.trans {a b c : HostBinding} (h : Later a b) (h' : Later b c) : Later a c := by
  rcases h with h | rfl
  · rcases h' with h' | rfl
    · exact .inl (Nat.lt_trans h h')
    · exact .inl h
  · exact h'

/-! ### One commit -/

theorem Writes.later {f : GuardianStore → GuardianStore} (h : Writes guardian f) :
    Later guardian.store.host (f guardian.store).host := by
  cases h with
  | requestStop _ => exact .refl _
  | close _ => exact .refl _
  | bind host hepoch hinstance =>
    rcases Nat.lt_or_eq_of_le hepoch with hlt | heq
    · exact .inl hlt
    · exact .inr (hinstance heq.symm)
  | saveSnapshot _ _ _ => exact .refl _
  | saveScope _ _ _ => exact .refl _

theorem Quiet.later (h : Quiet guardian event after) : Later guardian.store.host after.store.host := by
  cases h with
  | write f hauto hwrites =>
    rw [store_stored hauto]
    exact hwrites.later
  | stuck _ | push _ _ _ | advance _ _ | settle _ => exact .refl _

theorem Step.later (h : Step guardian event after) : Later guardian.store.host after.store.host := by
  obtain h | ⟨_, _, _, h⟩ := h
  · exact h.later
  cases h with
  | accept hauto _ _ _ =>
    rw [store_stored hauto]
    exact .refl _
  | spawn _ _ _ _ _ _ => exact .refl _

theorem Quiet.row (h : Quiet guardian event after) {row : GuardianRow}
    (hrow : after.store.rows[run]? = some row) :
    ∃ before, guardian.store.rows[run]? = some before ∧
      (row.snapshot = before.snapshot ∨ guardian.runtime.run run = some row.snapshot) := by
  cases h with
  | write f hauto hwrites =>
    rw [store_stored hauto] at hrow
    exact hwrites.row hrow
  | stuck _ | push _ _ _ | advance _ _ | settle _ => exact ⟨row, hrow, .inl rfl⟩

theorem Step.mem_rows (h : Step guardian event after) (hrun : run ∈ guardian.store.rows) :
    run ∈ after.store.rows := by
  obtain h | ⟨_, _, _, h⟩ := h
  · cases h with
    | write f hauto hwrites =>
      rw [store_stored hauto]
      exact hwrites.mem_rows hrun
    | stuck _ | push _ _ _ | advance _ _ | settle _ => exact hrun
  · cases h with
    | accept hauto _ _ _ =>
      rw [store_stored hauto]
      exact Std.ExtTreeMap.mem_insert.mpr (.inr hrun)
    | spawn _ _ _ _ _ _ => exact hrun

/-- The row of the Run records that it is cleaned up, with this snapshot. -/
def Final (run : RunId) (snapshot : RunSnapshot) (guardian : Guardian) : Prop :=
  snapshot.cleanup.isComplete = true ∧
    ∃ row, guardian.store.rows[run]? = some row ∧ row.snapshot = snapshot

theorem Step.final {snapshot : RunSnapshot} (h : Step guardian event after)
    (hsound : Sound guardian) (hfinal : Final run snapshot guardian) : Final run snapshot after := by
  obtain ⟨hcomplete, before, hbefore, rfl⟩ := hfinal
  have hmem : run ∈ guardian.store.rows := by
    rw [Std.ExtTreeMap.mem_iff_isSome_getElem?, hbefore]
    rfl
  have hmem' := h.mem_rows hmem
  rw [Std.ExtTreeMap.mem_iff_isSome_getElem?] at hmem'
  obtain ⟨row, hrow⟩ := Option.isSome_iff_exists.mp hmem'
  refine ⟨hcomplete, row, hrow, ?_⟩
  obtain h | ⟨_, other, _, h⟩ := h
  · obtain ⟨before', hbefore', hsame | hcurrent⟩ := h.row hrow
    · rw [hbefore] at hbefore'
      cases hbefore'
      exact hsame
    · -- What the runtime knows of a cleaned-up Run is what the row says already.
      rw [hsound.final run before hbefore hcomplete] at hcurrent
      exact (Option.some.inj hcurrent).symm
  · cases h with
    | accept hauto _ _ hnew =>
      rw [store_stored hauto, withRow, Map.getElem?_insert] at hrow
      split at hrow
      · rename_i heq
        rw [heq, hbefore] at hnew
        cases hnew
      · rw [hbefore] at hrow
        cases hrow
        rfl
    | spawn _ _ _ _ _ _ =>
      rw [show (guardian.advanced _).store = guardian.store from rfl, hbefore] at hrow
      cases hrow
      rfl

theorem Step.isClosed (h : Step guardian event after) (hsound : Sound guardian)
    (hclosed : guardian.store.scope.isClosed = true) : after.store.scope.isClosed = true := by
  have hne : guardian.store.scope ≠ .open := fun hopen => by
    rw [hopen] at hclosed
    cases hclosed
  obtain h | ⟨_, _, _, h⟩ := h
  · cases h with
    | write f hauto hwrites =>
      rw [store_stored hauto]
      cases hwrites with
      | requestStop _ => exact hclosed
      | close hopen => exact absurd hopen hne
      | bind _ _ _ => exact hclosed
      | saveSnapshot _ _ _ => exact hclosed
      | saveScope _ _ _ => exact (hsound.closed hclosed).1
    | stuck _ | push _ _ _ | advance _ _ | settle _ => exact hclosed
  · cases h with
    | accept _ _ hopen _ | spawn _ _ hopen _ _ _ => exact absurd hopen hne

/-! ### Whole calls -/

/-- The call is a start of the Run by the bound host. -/
def StartOf (guardian : Guardian) (run : RunId) (call : Call) : Prop :=
  ∃ channel request spec, call = .run channel request ∧ request.operation = .start run spec ∧
    request.session.host = guardian.store.host

theorem CallStep.other (h : CallStep first call guardian event after)
    (hcall : ¬StartOf first run call) (hrow : guardian.store.rows[run]? = none) :
    after.store.rows[run]? = none ∧ isSpawnOf run event = false := by
  obtain h | ⟨channel, request, other, spec, hcall', hstart, hhost, _, h⟩ := h
  · refine ⟨?_, ?_⟩
    · by_contra hsome
      obtain ⟨row, hrow'⟩ := Option.ne_none_iff_exists'.mp hsome
      obtain ⟨before, hbefore, _⟩ := h.row hrow'
      rw [hrow] at hbefore
      cases hbefore
    · cases h <;> rfl
  · have hne : other ≠ run := by
      rintro rfl
      exact hcall ⟨channel, request, spec, hcall', hstart, hhost⟩
    cases h with
    | accept hauto _ _ _ =>
      refine ⟨?_, rfl⟩
      rw [store_stored hauto, withRow, Map.getElem?_insert, if_neg hne]
      exact hrow
    | spawn _ _ _ _ _ _ => exact ⟨hrow, decide_eq_false hne⟩

/-- What a call leaves behind, failed or not, which is all the host's side needs to know of it. -/
structure CallEnds (first : Guardian) (call : Call) (journal : List (GuardianEvent × Guardian))
    (last : Guardian) : Prop where
  sound : Sound last
  later : Later first.store.host last.store.host
  rows : ∀ run ∈ first.store.rows, run ∈ last.store.rows
  final : ∀ run snapshot, Final run snapshot first → Final run snapshot last
  closed : first.store.scope.isClosed = true → last.store.scope.isClosed = true
  other : ∀ run : RunId, ¬StartOf first run call → first.store.rows[run]? = none →
    last.store.rows[run]? = none ∧ spawnCount run journal = 0
  spawned : ∀ run : RunId, spawnCount run journal ≠ 0 → first.store.rows[run]? = none

theorem CallEnds.of_path (hsound : Sound first) (h : Path (CallStep first call) first journal after) :
    CallEnds first call journal after := by
  have hstep : ∀ s event t, CallStep first call s event t → Step s event t :=
    fun _ _ _ hstep => hstep.step
  have hsteps := h.mono hstep
  have hother : ∀ run : RunId, ¬StartOf first run call → ∀ {s t j},
      Path (CallStep first call) s j t → s.store.rows[run]? = none →
        t.store.rows[run]? = none ∧ spawnCount run j = 0 := by
    intro run hcall s t j hpath
    induction hpath with
    | nil s => exact fun hrow => ⟨hrow, rfl⟩
    | cons hstep _ ih =>
      intro hrow
      obtain ⟨hrow', hevent⟩ := hstep.other hcall hrow
      obtain ⟨hlast, hcount⟩ := ih hrow'
      refine ⟨hlast, ?_⟩
      rw [spawnCount, List.countP_cons, ← spawnCount, hcount, hevent]
      rfl
  refine ⟨hsteps.invariant (fun _ _ _ hs hstep => hstep.sound hs) hsound, ?_, fun run hrun => ?_,
    fun run snapshot hfinal => ?_, fun hclosed => ?_, fun run hcall hrow => hother run hcall h hrow,
    fun run hcount => ?_⟩
  · exact hsteps.invariant (P := fun s => Later first.store.host s.store.host)
      (fun _ _ _ hs hstep => hs.trans hstep.later) (.refl _)
  · exact hsteps.invariant (P := fun s => run ∈ s.store.rows)
      (fun _ _ _ hs hstep => hstep.mem_rows hs) hrun
  · exact (hsteps.invariant (P := fun s => Sound s ∧ Final run snapshot s)
      (fun _ _ _ hs hstep => ⟨hstep.sound hs.1, hstep.final hs.1 hs.2⟩) ⟨hsound, hfinal⟩).2
  · exact (hsteps.invariant (P := fun s => Sound s ∧ s.store.scope.isClosed = true)
      (fun _ _ _ hs hstep => ⟨hstep.sound hs.1, hstep.isClosed hs.1 hs.2⟩) ⟨hsound, hclosed⟩).2
  · -- A spawn in the call was made by a step that started the Run, which had no row.
    rw [spawnCount, ← Nat.pos_iff_ne_zero, List.countP_pos_iff] at hcount
    obtain ⟨entry, hentry, hspawn⟩ := hcount
    have hlabel := h.forall_label (p := fun event => isSpawnOf run event = true →
      first.store.rows[run]? = none) (fun s event t hstep hspawn => by
        obtain ⟨spec, rfl⟩ := isSpawnOf_eq_true_iff.mp hspawn
        obtain hquiet | ⟨_, _, _, _, _, _, _, hnew, hstarts⟩ := hstep
        · cases hquiet
        · cases hstarts
          exact hnew)
    exact hlabel entry hentry hspawn

theorem callEnds_serve (hsound : Sound guardian) (call : Call) :
    CallEnds guardian call (serve frame world call guardian 0).journal
      (serve frame world call guardian 0).state ∧
    ∀ reply, (serve frame world call guardian 0).result = .ok reply →
      Replies guardian (serve frame world call guardian 0).state call reply := by
  have htraced : Traced _ _ (serve frame world call) _ := traced_serve guardian call
  obtain ⟨hpath, hreply⟩ := htraced guardian 0 ⟨rfl, hsound⟩
  exact ⟨.of_path hsound hpath, fun reply h => (hreply reply h).2⟩

end Guardian

end OraDesktop.Process
