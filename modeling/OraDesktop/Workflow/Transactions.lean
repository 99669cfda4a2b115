import OraDesktop.Workflow.Repository
import Mathlib.Data.List.Pairwise

/-!
# What the transactions do to the tables

A transaction changes rows by updates and inserts, and what identifies a row never changes.
`RowMoves allowed w news w'` says that `w'` has the rows of `w` after such changes, followed by the
inserted rows `news`; `allowed` bounds which rows may get which new status. Each transaction has
one lemma that says what a commit of it means; later proofs use those and never unfold it.

## Main results

* `RowMoves.evolved`, `RowMoves.origin`, `RowMoves.keyed` — rows before and after
* `completeNode_commits`, `failNode_commits`, … — one per transaction
-/

namespace OraDesktop.Workflow

open Fallible List World

/-- The transaction commits `w'`, with whatever result: facts about commits do not depend on the
answer. -/
def Commits {ρ : Type} (tx : Transaction ρ) (w w' : World) : Prop :=
  ∃ result, tx w = .ok (.commit result w')

/-! ### Rows over time -/

/-- The same attempt at two moments: what identifies a row and its place in a chain of retries never
change, it was not superseded in between, and it does not come to wait. -/
structure NodeRun.Same (r r' : NodeRun) : Prop where
  id_eq : r'.id = r.id
  scopeId_eq : r'.scopeId = r.scopeId
  nodeId_eq : r'.nodeId = r.nodeId
  nodeType_eq : r'.nodeType = r.nodeType
  iteration_eq : r'.iteration = r.iteration
  autoRetry_eq : r'.payload.autoRetry = r.payload.autoRetry
  retryChain_eq : r'.payload.retryChain = r.payload.retryChain
  isLive_eq : r'.isLive = r.isLive
  waits : r'.isWaiting = true → r.isWaiting = true

/-- What never changes about an attempt, so that attempts can be counted across states. -/
structure Attempt where
  id : String
  scopeId : String
  nodeId : String
  nodeType : NodeType
  iteration : Option Nat
  autoRetry : Option NodeAutoRetry
  retryChain : List String

def NodeRun.attempt (r : NodeRun) : Attempt :=
  ⟨r.id, r.scopeId, r.nodeId, r.nodeType, r.iteration, r.payload.autoRetry, r.payload.retryChain⟩

theorem NodeRun.Same.attempt_eq {r r' : NodeRun} (h : r.Same r') : r'.attempt = r.attempt := by
  rw [attempt, attempt, h.id_eq, h.scopeId_eq, h.nodeId_eq, h.nodeType_eq, h.iteration_eq,
    h.autoRetry_eq, h.retryChain_eq]

/-- A row before and after updates: only a live active row changes. -/
structure NodeRun.Evolves (r r' : NodeRun) : Prop extends NodeRun.Same r r' where
  frozen : r.isLive = false ∨ r.status.isActive = false → r' = r

section

variable (r : NodeRun) (status : WorkflowNodeStatus) (output error : Option String)
  (startedAt finishedAt : Option Int)

theorem NodeRun.Same.rewrite : r.Same { r with status, output, error, startedAt, finishedAt } :=
  ⟨rfl, rfl, rfl, rfl, rfl, rfl, rfl, rfl, fun h => h⟩

/-- An update that also removes the marker of a waiting attempt. -/
theorem NodeRun.Same.unmark : r.Same { r with
      status, output, error, startedAt, finishedAt, payload := { r.payload with retryWait := none } } :=
  ⟨rfl, rfl, rfl, rfl, rfl, rfl, rfl, rfl, nofun⟩

end

theorem NodeRun.Same.refl (r : NodeRun) : r.Same r := .rewrite r _ _ _ _ _

theorem NodeRun.Same.trans {r r' r'' : NodeRun} (h : r.Same r') (h' : r'.Same r'') : r.Same r'' :=
  ⟨h'.id_eq.trans h.id_eq, h'.scopeId_eq.trans h.scopeId_eq, h'.nodeId_eq.trans h.nodeId_eq,
    h'.nodeType_eq.trans h.nodeType_eq, h'.iteration_eq.trans h.iteration_eq,
    h'.autoRetry_eq.trans h.autoRetry_eq, h'.retryChain_eq.trans h.retryChain_eq,
    h'.isLive_eq.trans h.isLive_eq, fun hw => h.waits (h'.waits hw)⟩

theorem NodeRun.Evolves.refl (r : NodeRun) : r.Evolves r := ⟨.refl r, fun _ => rfl⟩

theorem NodeRun.Evolves.trans {r r' r'' : NodeRun} (h : r.Evolves r') (h' : r'.Evolves r'') :
    r.Evolves r'' where
  toSame := h.toSame.trans h'.toSame
  frozen := fun hr => by
    have heq := h.frozen hr
    rw [h'.frozen (heq ▸ hr), heq]

theorem NodeRun.Evolves.of_active {r r' : NodeRun} (hsame : r.Same r') (hlive : r.isLive = true)
    (hactive : r.status.isActive = true) : r.Evolves r' where
  toSame := hsame
  frozen := fun h => by
    rcases h with h | h
    · rw [hlive] at h
      cases h
    · rw [hactive] at h
      cases h

theorem isActive_of_running {s : WorkflowNodeStatus} (h : s = .running) :
    s.isActive = true := by rw [h]; rfl

/-! ### Updates of a state -/

variable {row : NodeRun} {round : LoopRound} {scopeId : String}

namespace World

variable (w : World) (p : NodeRun → Bool) (f : NodeRun → NodeRun) (q : LoopRound → Bool)
  (k : LoopRound → LoopRound) (m : List String → List String) (payload : WorkflowRunPayload)

@[simp] theorem rows_updateRounds : (w.updateRounds q k).rows = w.rows := rfl

@[simp] theorem rows_rewriteCurrentNodes : (w.rewriteCurrentNodes m).rows = w.rows := rfl

@[simp] theorem rounds_rewriteCurrentNodes : (w.rewriteCurrentNodes m).rounds = w.rounds := rfl

@[simp] theorem rows_persistPayload : (w.persistPayload payload).rows = w.rows := rfl

theorem mem_updateRows {r' : NodeRun} :
    r' ∈ (w.updateRows p f).rows ↔ ∃ r ∈ w.rows, (if p r then f r else r) = r' := by
  simp [updateRows]

/-- What a transaction that does not touch the run's own status leaves alone. -/
structure Frame (w w' : World) : Prop where
  status_eq : w'.run.status = w.run.status
  error_eq : w'.run.error = w.run.error
  output_eq : w'.run.output = w.run.output
  rootScopeId_eq : w'.rootScopeId = w.rootScopeId
  retiredScopeIds_eq : w'.retiredScopeIds = w.retiredScopeIds

theorem Frame.refl (w : World) : w.Frame w := ⟨rfl, rfl, rfl, rfl, rfl⟩

theorem Frame.trans {w w' w'' : World} (h : w.Frame w') (h' : w'.Frame w'') : w.Frame w'' :=
  ⟨h'.status_eq.trans h.status_eq, h'.error_eq.trans h.error_eq, h'.output_eq.trans h.output_eq,
    h'.rootScopeId_eq.trans h.rootScopeId_eq, h'.retiredScopeIds_eq.trans h.retiredScopeIds_eq⟩

theorem frame_updateRows : w.Frame (w.updateRows p f) := ⟨rfl, rfl, rfl, rfl, rfl⟩

theorem frame_rewriteCurrentNodes : w.Frame (w.rewriteCurrentNodes m) := ⟨rfl, rfl, rfl, rfl, rfl⟩

@[simp] theorem payload_rewriteCurrentNodes :
    (w.rewriteCurrentNodes m).run.payload = w.run.payload := rfl

/-- No two rows share an id, and no two live rows share scope, node and round: the table's unique
indexes. -/
structure Keyed (w : World) : Prop where
  id_unique : w.rows.Pairwise fun r s => r.id ≠ s.id
  live_unique : w.rows.Pairwise fun r s => r.isLive = true → s.isLive = true →
    ¬(r.scopeId = s.scopeId ∧ r.nodeId = s.nodeId ∧ r.iteration = s.iteration)

variable {w}

theorem Keyed.eq_of_id (h : w.Keyed) {r s : NodeRun} (hr : r ∈ w.rows) (hs : s ∈ w.rows)
    (hid : r.id = s.id) : r = s := by
  have : Std.Symm fun r s : NodeRun => r.id ≠ s.id := ⟨fun _ _ hne => hne.symm⟩
  by_contra hne
  exact h.id_unique.forall hr hs hne hid

theorem findNodeRunById_some {id : String} (h : w.findNodeRunById id = some row) :
    row ∈ w.rows ∧ row.isLive = true ∧ row.id = id := by
  have hp := List.find?_some h
  simp only [Bool.and_eq_true, beq_iff_eq] at hp
  exact ⟨mem_of_find?_eq_some h, hp.1, hp.2⟩

theorem findRound_some (h : w.findRound scopeId = some round) :
    round ∈ w.rounds ∧ round.id = scopeId :=
  ⟨mem_of_find?_eq_some h, by simpa using List.find?_some h⟩

theorem Keyed.findNodeRunById (h : w.Keyed) (hrow : row ∈ w.rows) (hlive : row.isLive = true) :
    w.findNodeRunById row.id = some row := by
  rcases hf : w.findNodeRunById row.id with _ | r
  · rw [World.findNodeRunById, List.find?_eq_none] at hf
    simpa [hlive] using hf row hrow
  · obtain ⟨hr, -, hid⟩ := findNodeRunById_some hf
    rw [h.eq_of_id hr hrow hid]

theorem mem_listNodeRunsInScope :
    row ∈ w.listNodeRunsInScope scopeId ↔
      row ∈ w.rows ∧ row.isLive = true ∧ row.scopeId = scopeId := by
  rw [listNodeRunsInScope, mem_insertionSort, mem_filter]
  simp

end World

/-! ### Rows before and after a transaction -/

/-- `w'` has the rows of `w` after updates, then the inserted rows. A row's status is unchanged or
one that `allowed` admits for it. -/
inductive RowMoves (allowed : NodeRun → WorkflowNodeStatus → Prop) (w : World) :
    List NodeRun → World → Prop where
  | refl : RowMoves allowed w [] w
  | frame {news : List NodeRun} {w₁ w₂ : World} (before : RowMoves allowed w news w₁)
      (rows_eq : w₂.rows = w₁.rows) : RowMoves allowed w news w₂
  | update {w₁ : World} {p : NodeRun → Bool} {f : NodeRun → NodeRun}
      (before : RowMoves allowed w [] w₁) (evolves : ∀ r ∈ w₁.rows, p r = true → r.Evolves (f r))
      (status : ∀ r ∈ w₁.rows, p r = true → (f r).status = r.status ∨ allowed r (f r).status)
      (stable : ∀ r r', r.Evolves r' → ∀ s, allowed r' s → allowed r s) :
      RowMoves allowed w [] (w₁.updateRows p f)
  | insert {news : List NodeRun} {w₁ w₂ : World} {row : NodeRun}
      (before : RowMoves allowed w news w₁) (inserted : w₁.insertRow row = .ok w₂) :
      RowMoves allowed w (news ++ [row]) w₂

abbrev Ends : NodeRun → WorkflowNodeStatus → Prop := fun _ s => s = .failed ∨ s = .cancelled

theorem World.insertRow_eq {w w' : World} (h : w.insertRow row = .ok w') :
    w' = { w with rows := w.rows ++ [row] } ∧ (∀ r ∈ w.rows, r.id ≠ row.id) ∧
      ∀ r ∈ w.rows, r.isLive = true →
        ¬(r.scopeId = row.scopeId ∧ r.nodeId = row.nodeId ∧ r.iteration = row.iteration) := by
  unfold insertRow at h
  split at h
  · cases h
  rename_i hid
  split at h
  · cases h
  split at h
  · cases h
  rename_i hlive
  refine ⟨(Except.ok.inj h).symm, fun r hr heq => hid ?_, fun r hr hl hkey => hlive ?_⟩
  · exact any_eq_true.mpr ⟨r, hr, by simp [heq]⟩
  · exact any_eq_true.mpr ⟨r, hr, by simp [hl, hkey]⟩

variable {starts : List NodeRunToStart} {f : NodeRun → NodeRun} {w₁ : World} {p : NodeRun → Bool}

namespace RowMoves

variable {allowed : NodeRun → WorkflowNodeStatus → Prop} {w w' : World} {news : List NodeRun}

section

variable (h : RowMoves allowed w news w')

include h

theorem keyed (hk : w.Keyed) : w'.Keyed := by
  induction h with
  | refl => exact hk
  | frame before rows_eq ih => exact ⟨rows_eq ▸ ih.id_unique, rows_eq ▸ ih.live_unique⟩
  | @update w₁ p f before evolves status stable ih =>
    have hev : ∀ r ∈ w₁.rows, r.Evolves (if p r then f r else r) := by
      intro r hr
      split
      · rename_i hp
        exact evolves r hr hp
      · exact .refl r
    constructor
    · refine pairwise_map.mpr (ih.id_unique.imp_of_mem fun {r s} hr hs hne => ?_)
      rw [(hev r hr).id_eq, (hev s hs).id_eq]
      exact hne
    · refine pairwise_map.mpr (ih.live_unique.imp_of_mem fun {r s} hr hs hne hrl hsl => ?_)
      rw [(hev r hr).scopeId_eq, (hev s hs).scopeId_eq, (hev r hr).nodeId_eq, (hev s hs).nodeId_eq,
        (hev r hr).iteration_eq, (hev s hs).iteration_eq]
      exact hne ((hev r hr).isLive_eq ▸ hrl) ((hev s hs).isLive_eq ▸ hsl)
  | @insert news w₁ w₂ row before inserted ih =>
    obtain ⟨heq, hid, hlive⟩ := insertRow_eq inserted
    rw [heq]
    constructor
    · refine pairwise_append.mpr ⟨ih.id_unique, pairwise_singleton .., fun r hr s hs => ?_⟩
      rw [mem_singleton.mp hs]
      exact hid r hr
    · refine pairwise_append.mpr ⟨ih.live_unique, pairwise_singleton ..,
        fun r hr s hs hrl _ => ?_⟩
      rw [mem_singleton.mp hs]
      exact hlive r hr hrl

/-- No row disappears or changes its place, and only the inserted ones are added. -/
theorem split :
    ∃ kept, List.Forall₂ (fun r r' => NodeRun.Evolves r r' ∧
        (r'.status = r.status ∨ allowed r r'.status)) w.rows kept ∧ w'.rows = kept ++ news := by
  induction h with
  | refl => exact ⟨w.rows, forall₂_same.mpr fun r _ => ⟨.refl r, .inl rfl⟩, by simp⟩
  | frame before rows_eq ih => rwa [rows_eq]
  | @update w₁ p f before evolves status stable ih =>
    obtain ⟨kept, hkept, hrows⟩ := ih
    rw [append_nil] at hrows
    subst hrows
    refine ⟨_, ?_, (append_nil _).symm⟩
    have hmem := ((forall₂_and_left _ _).mpr ⟨fun r₁ hr₁ => hr₁, hkept.flip⟩).flip
    refine forall₂_map_right_iff.mpr (hmem.imp fun r r₁ ⟨hr₁, hr⟩ => ?_)
    by_cases hp : p r₁ = true
    · rw [if_pos hp]
      refine ⟨hr.1.trans (evolves r₁ hr₁ hp), ?_⟩
      rcases status r₁ hr₁ hp with heq | hallowed
      · rw [heq]
        exact hr.2
      · exact .inr (stable r r₁ hr.1 _ hallowed)
    · rwa [if_neg hp]
  | insert before inserted ih =>
    obtain ⟨kept, hkept, hrows⟩ := ih
    exact ⟨kept, hkept, by rw [(insertRow_eq inserted).1, hrows, append_assoc]⟩

theorem evolved {r : NodeRun} (hr : r ∈ w.rows) :
    ∃ r' ∈ w'.rows, r.Evolves r' := by
  obtain ⟨kept, hkept, hrows⟩ := h.split
  obtain ⟨r', hr', hev⟩ := exists_right hkept hr
  exact ⟨r', hrows ▸ mem_append_left _ hr', hev.1⟩

theorem origin {r' : NodeRun} (hr' : r' ∈ w'.rows) :
    (∃ r ∈ w.rows, r.Evolves r' ∧ (r'.status = r.status ∨ allowed r r'.status)) ∨ r' ∈ news := by
  obtain ⟨kept, hkept, hrows⟩ := h.split
  rw [hrows] at hr'
  exact (mem_append.mp hr').imp_left (exists_left hkept)

/-- What never changes about the attempts: only the inserted ones are added. -/
theorem attempts : w'.rows.map (·.attempt) = w.rows.map (·.attempt) ++ news.map (·.attempt) := by
  obtain ⟨kept, hkept, hrows⟩ := h.split
  rw [hrows, map_append, map_eq_map hkept fun _ _ hr => hr.1.attempt_eq]

theorem ids : w'.rows.map (·.id) = w.rows.map (·.id) ++ news.map (·.id) := by
  simpa [Function.comp_def, NodeRun.attempt] using congrArg (List.map fun a => a.id) h.attempts

theorem mono {bound : WorkflowNodeStatus → Prop}
    (himp : ∀ r s, allowed r s → bound s) : RowMoves (fun _ s => bound s) w news w' := by
  induction h with
  | refl => exact refl
  | frame before rows_eq ih => exact ih.frame rows_eq
  | update before evolves status stable ih =>
    exact ih.update evolves (fun r hr hp => (status r hr hp).imp_right (himp r _)) fun _ _ _ _ h => h
  | insert before inserted ih => exact ih.insert inserted

end

theorem insertNodeRuns {now : Int} {w₁ w₂ : World} (before : RowMoves allowed w news w₁)
    (h : World.insertNodeRuns now starts w₁ = .ok w₂) :
    RowMoves allowed w (news ++ starts.map (·.toRow now)) w₂ := by
  induction starts generalizing w₁ news with
  | nil =>
    cases h
    simpa using before
  | cons start rest ih =>
    rw [insertNodeRuns, bind_eq_ok] at h
    obtain ⟨w₃, hrow, hrest⟩ := h
    simpa using ih (before.insert hrow) hrest

theorem of_map (hrows : w'.rows = w.rows.map fun r => if p r then f r else r)
    (evolves : ∀ r ∈ w.rows, p r = true → r.Evolves (f r))
    (status : ∀ r ∈ w.rows, p r = true → (f r).status = r.status ∨ allowed r (f r).status)
    (stable : ∀ r r', r.Evolves r' → ∀ s, allowed r' s → allowed r s) : RowMoves allowed w [] w' :=
  (update refl evolves status stable).frame hrows

/-- An update of the live row with an id, which is active. -/
theorem of_row (hk : w.Keyed) {id : String} (hrow : w.findNodeRunById id = some row)
    (hactive : row.status.isActive = true) {Q : WorkflowNodeStatus → Prop}
    (hrows : w'.rows = w.rows.map fun r => if r.isLive && r.id == id then f r else r)
    (hsame : row.Same (f row)) (hstatus : (f row).status = row.status ∨ Q (f row).status) :
    RowMoves (fun r s => r.id = id ∧ Q s) w [] w' := by
  obtain ⟨hmem, hlive, hid⟩ := findNodeRunById_some hrow
  have hfound : ∀ r ∈ w.rows, (r.isLive && r.id == id) = true → r = row := by
    intro r hr hp
    simp only [Bool.and_eq_true, beq_iff_eq] at hp
    exact hk.eq_of_id hr hmem (hp.2.trans hid.symm)
  refine .of_map hrows (fun r hr hp => ?_) (fun r hr hp => ?_) ?_
  · obtain rfl := hfound r hr hp
    exact .of_active hsame hlive hactive
  · obtain rfl := hfound r hr hp
    exact hstatus.imp_right (.intro hid)
  · rintro r r' hev s ⟨hid, hs⟩
    exact ⟨hev.id_eq ▸ hid, hs⟩

theorem settle (before : RowMoves Ends w [] w₁)
    (hp : ∀ r, p r = true → r.isLive = true ∧ r.status.isActive = true)
    (hf : ∀ r : NodeRun, r.Same (f r) ∧ Ends r (f r).status) :
    RowMoves Ends w [] (w₁.updateRows p f) :=
  before.update (fun r _ h => .of_active (hf r).1 (hp r h).1 (hp r h).2)
    (fun r _ _ => .inr (hf r).2) fun _ _ _ _ h => h

end RowMoves

/-! ### One lemma for each transaction -/

namespace Repository

variable {w w' : World} {id : String} {now : Int}

variable {output : Option String}

section

variable [JsonText]

variable {structured : Option Value}

theorem recordCompletion_eq_ok (h : w.recordCompletion row output structured = .ok w') :
    (row.scopeId = w.rootScopeId ∧ ∃ payload,
      updateRunExecutionState w.run.payload row output structured = .ok payload ∧
        w' = w.persistPayload payload) ∨
    (row.scopeId ≠ w.rootScopeId ∧ ∃ round state, w.findRound row.scopeId = some round ∧
      updateScopeExecutionState round.state row output structured = .ok state ∧
        w' = w.updateRounds (fun r => r.id == round.id && r.status == .running)
          fun r => { r with state }) := by
  unfold recordCompletion at h
  split at h
  · rename_i hroot
    obtain ⟨payload, hpayload, heq⟩ := bind_eq_ok.mp h
    exact .inl ⟨hroot, payload, hpayload, (Except.ok.inj heq).symm⟩
  rename_i hroot
  split at h
  · cases h
  · rename_i round hround
    obtain ⟨state, hstate, heq⟩ := bind_eq_ok.mp h
    exact .inr ⟨hroot, round, state, hround, hstate, (Except.ok.inj heq).symm⟩

/-- A commit of `completeNode`: the active attempt succeeds, and what it produced is recorded. -/
theorem completeNode_commits (h : Commits (completeNode id output structured now) w w') :
    ∃ row recorded, w.findNodeRunById id = some row ∧ row.status.isActive = true ∧
      w.recordCompletion row output structured = .ok recorded ∧ w.Frame w' ∧
      w'.rounds = recorded.rounds ∧
      w'.rows = w.rows.map fun r => if r.isLive && r.id == id then { r with
        status := .succeeded
        output := if r.nodeType = .condition then none else output
        finishedAt := some now } else r := by
  obtain ⟨result, h⟩ := h
  unfold completeNode at h
  split at h
  · cases h
  rename_i row hrow
  split at h
  · cases h
  rename_i hactive
  obtain ⟨recorded, hrec, heq⟩ := bind_eq_ok.mp h
  have hframe : w.Frame recorded ∧ recorded.rows = w.rows := by
    obtain ⟨-, payload, -, rfl⟩ | ⟨-, round, state, -, -, rfl⟩ := recordCompletion_eq_ok hrec
    · exact ⟨⟨rfl, rfl, rfl, rfl, rfl⟩, rfl⟩
    · exact ⟨⟨rfl, rfl, rfl, rfl, rfl⟩, rfl⟩
  cases heq
  refine ⟨row, recorded, hrow, by simpa using hactive, hrec, ?_⟩
  split
  · exact ⟨⟨hframe.1.1, hframe.1.2, hframe.1.3, hframe.1.4, hframe.1.5⟩, rfl,
      congrArg (List.map _) hframe.2⟩
  · exact ⟨⟨hframe.1.1, hframe.1.2, hframe.1.3, hframe.1.4, hframe.1.5⟩, rfl,
      congrArg (List.map _) hframe.2⟩

theorem completeNode_rowMoves (hk : w.Keyed)
    (h : Commits (completeNode id output structured now) w w') :
    RowMoves (fun r s => r.id = id ∧ s = .succeeded) w [] w' := by
  obtain ⟨row, recorded, hrow, hactive, -, -, -, hrows⟩ := completeNode_commits h
  exact .of_row hk hrow hactive hrows (.rewrite ..) (.inr rfl)

end

/-! #### Failures -/

theorem settleRetryWaits_rowMoves (before : RowMoves Ends w [] w₁) (error : Option String)
    (now : Int) : RowMoves Ends w [] (w₁.settleRetryWaits .cancelled error now) := by
  refine before.settle (fun r hp => ?_) fun r => ⟨.unmark .., .inr rfl⟩
  simp only [Bool.and_eq_true, beq_iff_eq] at hp
  exact ⟨hp.1.1, isActive_of_running hp.1.2⟩

theorem failRoundOf_rowMoves (before : RowMoves Ends w [] w₁) (row : NodeRun) (error : String)
    (now : Int) : RowMoves Ends w [] (w₁.failRoundOf row error now) := by
  have hsiblings : RowMoves Ends w [] (w₁.updateRows
      (fun r => r.isLive && r.scopeId == row.scopeId && r.id != row.id && r.status.isActive)
      fun r => { r with
        status := .cancelled
        error := r.error.or (some siblingFailed)
        finishedAt := r.finishedAt.or (some now) }) := by
    refine before.settle (fun r hp => ?_) fun r => ⟨.rewrite .., .inr rfl⟩
    simp only [Bool.and_eq_true] at hp
    exact ⟨hp.1.1.1, hp.2⟩
  unfold failRoundOf
  split
  · exact hsiblings.frame rfl
  · refine .settle (hsiblings.frame rfl) (fun r hp => ?_)
      fun r => ⟨.rewrite .., .inl rfl⟩
    simp only [Bool.and_eq_true] at hp
    exact ⟨hp.1.1, hp.2⟩

/-- The run's fields after a failure that reaches the run. -/
structure FailsRun (w w' : World) (error : String) : Prop where
  status_eq : w'.run.status = if w.run.status = .running then .failed else w.run.status
  error_eq : w'.run.error = if w.run.status = .running then some error else w.run.error
  output_eq : w'.run.output = w.run.output
  payload_eq : w'.run.payload = w.run.payload
  rootScopeId_eq : w'.rootScopeId = w.rootScopeId
  retiredScopeIds_eq : w'.retiredScopeIds = w.retiredScopeIds

theorem failRunningRun_failsRun (hframe : w.Frame w₁) (hpayload : w₁.run.payload = w.run.payload)
    (error : String) (now : Int) : FailsRun w (w₁.failRunningRun error now) error := by
  unfold failRunningRun
  have hstatus := hframe.status_eq
  by_cases hrun : w.run.status = .running
  · rw [if_pos (hstatus.trans hrun)]
    exact ⟨by simp [hrun], by simp [hrun], hframe.output_eq, hpayload, hframe.rootScopeId_eq,
      hframe.retiredScopeIds_eq⟩
  · rw [if_neg (fun h => hrun (hstatus.symm.trans h))]
    exact ⟨by simp [hrun, hstatus], by simp [hrun, hframe.error_eq], hframe.output_eq, hpayload,
      hframe.rootScopeId_eq, hframe.retiredScopeIds_eq⟩

theorem rows_failRunningRun (w : World) (error : String) (now : Int) :
    (w.failRunningRun error now).rows = w.rows := by
  unfold failRunningRun
  split <;> rfl

theorem rounds_failRunningRun (w : World) (error : String) (now : Int) :
    (w.failRunningRun error now).rounds = w.rounds := by
  unfold failRunningRun
  split <;> rfl

theorem failRoundOf_frame (w : World) (row : NodeRun) (error : String) (now : Int) :
    w.Frame (w.failRoundOf row error now) ∧
      (w.failRoundOf row error now).run.payload = w.run.payload ∧
      (w.failRoundOf row error now).rounds = w.rounds.map fun r =>
        if r.id == row.scopeId && r.status.isActive then { r with status := .failed } else r := by
  unfold failRoundOf
  dsimp only
  split
  · exact ⟨⟨rfl, rfl, rfl, rfl, rfl⟩, rfl, rfl⟩
  · exact ⟨⟨rfl, rfl, rfl, rfl, rfl⟩, rfl, rfl⟩

def failedRow (failure : NodeFailure) (now : Int) (r : NodeRun) : NodeRun :=
  { r with
    status := .failed
    error := some failure.message
    output := failure.output
    payload := { r.payload with retryWait := none }
    finishedAt := some now }

variable {failure : NodeFailure}

/-- A commit of `failNode` that the composite absorbs: only the row fails. -/
theorem failNode_composite_commits (h : Commits (failNode id failure .composite now) w w') :
    ∃ row, w.findNodeRunById id = some row ∧ row.status = .running ∧ w.Frame w' ∧
      w'.rounds = w.rounds ∧
      w'.rows = w.rows.map fun r => if r.isLive && r.id == id then failedRow failure now r else r := by
  obtain ⟨result, h⟩ := h
  unfold failNode at h
  split at h
  · cases h
  rename_i row hrow
  split at h
  · cases h
  · rename_i hrunning
    cases h
    exact ⟨row, hrow, by simpa using hrunning, ⟨rfl, rfl, rfl, rfl, rfl⟩, rfl, rfl⟩

theorem failNode_composite_rowMoves (hk : w.Keyed)
    (h : Commits (failNode id failure .composite now) w w') :
    RowMoves (fun r s => r.id = id ∧ s = .failed) w [] w' := by
  obtain ⟨row, hrow, hrunning, -, -, hrows⟩ := failNode_composite_commits h
  exact .of_row hk hrow (isActive_of_running hrunning) hrows (.unmark ..) (.inr rfl)

/-- A commit of `failNode` that reaches the run. -/
theorem failNode_run_commits (hk : w.Keyed) (h : Commits (failNode id failure .run now) w w') :
    FailsRun w w' failure.message ∧ RowMoves Ends w [] w' ∧ ∃ row : NodeRun,
      w'.rounds = if row.scopeId = w.rootScopeId then w.rounds else w.rounds.map fun r =>
        if r.id == row.scopeId && r.status.isActive then { r with status := .failed } else r := by
  obtain ⟨result, h⟩ := h
  unfold failNode at h
  split at h
  · cases h
  rename_i row hrow
  split at h
  · cases h
  rename_i hrunning
  have hrunning : row.status = .running := by simpa using hrunning
  have hfailed : RowMoves Ends w [] (w.persistFailedNodeRun id failure now) :=
    (RowMoves.of_row (Q := (· = .failed)) hk hrow (isActive_of_running hrunning) rfl (.unmark ..)
      (.inr rfl)).mono fun _ _ hfailed => .inl hfailed.2
  have hsettled := settleRetryWaits_rowMoves hfailed (some retryAbandoned) now
  dsimp only at h
  cases h
  refine ⟨?_, ?_, row, ?_⟩
  · refine failRunningRun_failsRun (World.Frame.trans ?_ (frame_rewriteCurrentNodes ..))
      ?_ _ _
    · split
      · exact ⟨rfl, rfl, rfl, rfl, rfl⟩
      · refine .trans ?_ (failRoundOf_frame _ row failure.message now).1
        exact ⟨rfl, rfl, rfl, rfl, rfl⟩
    · rw [payload_rewriteCurrentNodes]
      split
      · rfl
      · exact (failRoundOf_frame _ row failure.message now).2.1
  · refine .frame ?_ (rows_failRunningRun ..)
    refine RowMoves.frame ?_ (rows_rewriteCurrentNodes ..)
    split
    · exact hsettled
    · exact failRoundOf_rowMoves hsettled row failure.message now
  · rw [rounds_failRunningRun, rounds_rewriteCurrentNodes]
    split
    · rfl
    · exact (failRoundOf_frame _ row failure.message now).2.2

/-! #### The sweep after a crash -/

theorem failInterruptedNodeRuns_commits {ids : List String}
    (h : Commits (failInterruptedNodeRuns ids now) w w') :
    w.Frame w' ∧ w'.rounds = w.rounds ∧ RowMoves Ends w [] w' := by
  obtain ⟨result, h⟩ := h
  cases h
  refine ⟨⟨rfl, rfl, rfl, rfl, rfl⟩, rfl, RowMoves.refl.settle (fun r hp => ?_)
    fun r => ⟨.unmark .., .inl rfl⟩⟩
  simp only [Bool.and_eq_true, beq_iff_eq] at hp
  exact ⟨hp.1.1, isActive_of_running hp.1.2⟩

theorem failOrphanedNodeRuns_commits (h : Commits (failOrphanedNodeRuns now) w w') :
    FailsRun w w' interruptedByRestart ∧ RowMoves Ends w [] w' ∧
      w'.rounds = w.rounds.map fun r =>
        if r.status.isActive then { r with status := .failed } else r := by
  obtain ⟨result, h⟩ := h
  unfold failOrphanedNodeRuns at h
  split at h
  · cases h
  cases h
  refine ⟨?_, ?_, ?_⟩
  · -- closing the rounds does not touch the run
    have hfails := failRunningRun_failsRun (w := w)
      (w.frame_updateRows (fun r => r.isLive && r.status.isActive) fun r => { r with
        status := .failed
        error := some interruptedByRestart
        output := none
        payload := { r.payload with retryWait := none }
        finishedAt := some now }) rfl interruptedByRestart now
    exact ⟨hfails.status_eq, hfails.error_eq, hfails.output_eq, hfails.payload_eq,
      hfails.rootScopeId_eq, hfails.retiredScopeIds_eq⟩
  · refine .frame ?_ (rows_failRunningRun ..)
    refine RowMoves.refl.settle (fun r hp => ?_)
      fun r => ⟨.unmark .., .inl rfl⟩
    simpa only [Bool.and_eq_true] using hp
  · simp only [updateRounds]
    rw [rounds_failRunningRun]
    rfl

/-! #### Changes of one attempt -/

theorem transitionNodeRunStatus_commits {source target : WorkflowNodeStatus}
    (h : Commits (transitionNodeRunStatus id source target) w w') :
    ∃ row, w.findNodeRunById id = some row ∧ row.status = source ∧ w.Frame w' ∧
      w'.rounds = w.rounds ∧
      w'.rows = w.rows.map fun r => if r.isLive && r.id == id then { r with status := target }
        else r := by
  obtain ⟨result, h⟩ := h
  unfold transitionNodeRunStatus at h
  split at h
  · cases h
  rename_i row hrow
  split at h
  · cases h
  · rename_i hsource
    cases h
    exact ⟨row, hrow, by simpa using hsource, ⟨rfl, rfl, rfl, rfl, rfl⟩, rfl, rfl⟩

theorem transitionNodeRunStatus_rowMoves (hk : w.Keyed) {source target : WorkflowNodeStatus}
    (hsource : source.isActive = true)
    (h : Commits (transitionNodeRunStatus id source target) w w') :
    RowMoves (fun r s => r.id = id ∧ s = target) w [] w' := by
  obtain ⟨row, hrow, hstatus, -, -, hrows⟩ := transitionNodeRunStatus_commits h
  exact .of_row hk hrow (hstatus ▸ hsource) hrows (.rewrite ..) (.inr rfl)

theorem insertNodeRuns_eq {w₁ w₂ : World} (h : World.insertNodeRuns now starts w₁ = .ok w₂) :
    w₂ = { w₁ with rows := w₁.rows ++ starts.map (·.toRow now) } := by
  induction starts generalizing w₁ with
  | nil =>
    cases h
    simp
  | cons start rest ih =>
    rw [insertNodeRuns, bind_eq_ok] at h
    obtain ⟨w₃, hrow, hrest⟩ := h
    rw [ih hrest, (insertRow_eq hrow).1]
    simp

abbrev Quiet : NodeRun → WorkflowNodeStatus → Prop := fun _ _ => False

/-- Rows are inserted, and nothing else happens to the table. -/
structure Inserts (w : World) (news : List NodeRun) (w' : World) : Prop where
  moves : RowMoves Quiet w news w'
  rows_eq : w'.rows = w.rows ++ news

namespace Inserts

variable {news : List NodeRun} {w₁ w₂ : World}

theorem frame (h : Inserts w news w₁) (hrows : w₂.rows = w₁.rows) : Inserts w news w₂ :=
  ⟨h.moves.frame hrows, hrows.trans h.rows_eq⟩

theorem insertRow (hrows : w₁.rows = w.rows) (h : w₁.insertRow row = .ok w₂) : Inserts w [row] w₂ :=
  ⟨(RowMoves.refl.frame hrows).insert h, by rw [(insertRow_eq h).1, hrows]⟩

theorem insertNodeRuns (hrows : w₁.rows = w.rows)
    (h : World.insertNodeRuns now starts w₁ = .ok w₂) :
    w₂ = { w₁ with rows := w₁.rows ++ starts.map (·.toRow now) } ∧
      Inserts w (starts.map (·.toRow now)) w₂ :=
  ⟨insertNodeRuns_eq h, (RowMoves.refl.frame hrows).insertNodeRuns h,
    by rw [insertNodeRuns_eq h, hrows]⟩

end Inserts

/-- The row of an attempt that a retry replaces. -/
def supersededRow (failure : NodeFailure) (now : Int) (r : NodeRun) : NodeRun :=
  { failedRow failure now r with isDeleted := true }

/-- A commit of `scheduleNodeRetry`: the failed attempt is superseded, then a waiting one takes its
place. -/
theorem scheduleNodeRetry_commits (hk : w.Keyed) {retry : NodeRetryToSchedule}
    (h : Commits (scheduleNodeRetry id failure retry now) w w') :
    ∃ row attempt deleted, w.findNodeRunById id = some row ∧ row.status = .running ∧
      w.run.status = .running ∧ w.Frame w' ∧ w'.rounds = w.rounds ∧
      World.rows deleted = w.rows.map (fun r =>
        if r.id == id then supersededRow failure now r else r) ∧
      Inserts deleted [waitingAttempt row attempt retry now] w' := by
  obtain ⟨result, h⟩ := h
  unfold scheduleNodeRetry at h
  split at h
  · cases h
  rename_i row hrow
  obtain ⟨hmem, hlive, hid⟩ := findNodeRunById_some hrow
  split at h
  · cases h
  rename_i hstatus
  split at h
  · cases h
  rename_i hrun
  obtain ⟨scheduled, hins, heq⟩ := bind_eq_ok.mp h
  cases heq
  have hinserts := Inserts.insertRow rfl hins
  obtain ⟨rfl, -⟩ := insertRow_eq hins
  refine ⟨row, _, _, hrow, by simpa using hstatus, by simpa using hrun, ⟨rfl, rfl, rfl, rfl, rfl⟩,
    rfl, ?_, hinserts⟩
  -- the two updates of the source are one, since only the live row has this id
  simp only [updateRows, persistFailedNodeRun, map_map]
  refine map_congr_left fun r hr => ?_
  by_cases hrid : r.id = id
  · obtain rfl := hk.eq_of_id hr hmem (hrid.trans hid.symm)
    simp [hrid, hlive, failedRow, supersededRow]
  · simp [hrid]

theorem supersede_keyed (hk : w.Keyed)
    (hrows : w'.rows = w.rows.map fun r => if p r then f r else r) (hid : ∀ r, (f r).id = r.id)
    (hdead : ∀ r, (f r).isLive = false) : w'.Keyed := by
  constructor
  · rw [hrows]
    refine pairwise_map.mpr (hk.id_unique.imp fun {r s} hne => ?_)
    by_cases hr : p r = true <;> by_cases hs : p s = true <;> simpa [hr, hs, hid] using hne
  · rw [hrows]
    refine pairwise_map.mpr (hk.live_unique.imp fun {r s} hne hrl hsl => ?_)
    by_cases hr : p r = true
    · simp [hr, hdead] at hrl
    · by_cases hs : p s = true
      · simp [hs, hdead] at hsl
      · simp only [hr, hs] at hrl hsl ⊢
        exact hne hrl hsl

theorem beginNodeRetry_commits (hk : w.Keyed) (h : Commits (beginNodeRetry id now) w w') :
    w.Frame w' ∧ w'.rounds = w.rounds ∧
      RowMoves (fun r s => r.id = id ∧ s = .cancelled ∧ w.run.status ≠ .running) w [] w' := by
  obtain ⟨result, h⟩ := h
  unfold beginNodeRetry at h
  split at h
  · cases h
  rename_i row hrow
  split at h
  · cases h
  dsimp only at h
  split at h
  · cases h
  rename_i hstatus
  have hactive : row.status.isActive = true := isActive_of_running (by simpa using hstatus)
  split at h
  · rename_i hrun
    cases h
    exact ⟨⟨rfl, rfl, rfl, rfl, rfl⟩, rfl,
      .of_row hk hrow hactive rfl (.unmark ..) (.inr ⟨rfl, hrun⟩)⟩
  · split at h
    · cases h
    cases h
    exact ⟨⟨rfl, rfl, rfl, rfl, rfl⟩, rfl, .of_row hk hrow hactive rfl (.unmark ..) (.inl rfl)⟩

/-- The attempt that `beginNodeRetry` reports as started is in the table. -/
theorem mem_of_beginNodeRetry (h : beginNodeRetry id now w = .ok (.commit (.started row) w')) :
    ∃ r ∈ w'.rows, r.isLive = true ∧ row.Same r := by
  unfold beginNodeRetry at h
  split at h
  · cases h
  rename_i found hfound
  obtain ⟨hmem, hlive, hid⟩ := findNodeRunById_some hfound
  split at h
  · cases h
  dsimp only at h
  split at h
  · cases h
  split at h
  · cases h
  split at h
  · cases h
  · cases h
    refine ⟨_, (mem_updateRows ..).mpr ⟨found, hmem, rfl⟩, ?_⟩
    simp only [hlive, hid, beq_self_eq_true, Bool.and_self, if_true]
    exact ⟨hlive, (.rewrite ..)⟩

theorem beginNodeRetry_ne_rollback : beginNodeRetry id now w ≠ .ok (.rollback (.started row)) := by
  intro h
  unfold beginNodeRetry at h
  split at h
  · cases h
  split at h
  · cases h
  dsimp only at h
  split at h
  · cases h
  split at h
  · cases h
  · split at h
    · cases h
    · cases h

/-! #### Starting rows -/

theorem startRun_commits {start : NodeRunToStart} (h : Commits (startRun start now) w w') :
    w.run.status = .pending ∧ w'.run.status = .running ∧ w'.rounds = w.rounds ∧
      Inserts w [start.toRow now] w' := by
  obtain ⟨result, h⟩ := h
  unfold startRun at h
  split at h
  · cases h
  rename_i hpending
  rw [not_or, not_not] at hpending
  obtain ⟨inserted, hins, h⟩ := bind_eq_ok.mp h
  obtain ⟨pool, -, heq⟩ := bind_eq_ok.mp h
  have hmoves : Inserts w [start.toRow now] inserted := .insertRow rfl hins
  obtain ⟨rfl, -⟩ := insertRow_eq hins
  cases heq
  exact ⟨hpending.1, rfl, rfl, hmoves.frame rfl⟩

theorem startReadyNodes_commits (h : Commits (startReadyNodes starts now) w w') :
    w.Frame w' ∧ w'.run.payload = w.run.payload ∧ w'.rounds = w.rounds ∧
      Inserts w (starts.map (·.toRow now)) w' := by
  obtain ⟨result, h⟩ := h
  obtain ⟨inserted, hins, heq⟩ := bind_eq_ok.mp h
  obtain ⟨rfl, hmoves⟩ := Inserts.insertNodeRuns (w := w) rfl hins
  cases heq
  exact ⟨⟨rfl, rfl, rfl, rfl, rfl⟩, rfl, rfl, hmoves.frame rfl⟩

/-! #### Iteration rounds -/

/-- The row of a composite owner once it succeeded. -/
def completedRow (output : Option String) (now : Int) (r : NodeRun) : NodeRun :=
  { r with status := .succeeded, output, finishedAt := some now }

variable {ownerId : String}

theorem isRunningOwnerRow_iff {r : NodeRun} :
    World.isRunningOwnerRow ownerId r = true ↔ r.isLive = true ∧ r.nodeId = ownerId ∧
      r.iteration = none ∧ r.status = .running := by
  simp [isRunningOwnerRow, and_assoc]

theorem completeOwnerRow_rowMoves (hrows : w₁.rows = w.rows) :
    RowMoves (fun r s => r.nodeId = ownerId ∧ r.iteration = none ∧ s = .succeeded) w []
      (w₁.completeOwnerRow ownerId output now) := by
  refine .frame (.update (RowMoves.refl.frame hrows) (fun r _ hp => ?_)
    (fun r _ hp => ?_) ?_) rfl
  · obtain ⟨hlive, -, -, hrunning⟩ := isRunningOwnerRow_iff.mp hp
    exact .of_active (.rewrite ..) hlive
      (isActive_of_running hrunning)
  · obtain ⟨-, hnode, hiter, -⟩ := isRunningOwnerRow_iff.mp hp
    exact .inr ⟨hnode, hiter, rfl⟩
  · rintro r r' hev s ⟨hnode, hiter, hs⟩
    exact ⟨hev.nodeId_eq ▸ hnode, hev.iteration_eq ▸ hiter, hs⟩

theorem failOwnerRow_rowMoves {ownerId error : String} (hrows : w₁.rows = w.rows) :
    RowMoves Ends w [] (w₁.failOwnerRow ownerId error now) := by
  refine .frame (settleRetryWaits_rowMoves (.frame (.settle (RowMoves.refl.frame hrows)
    (fun r hp => ?_) ?_) (rows_rewriteCurrentNodes ..)) (some retryAbandoned) now) rfl
  · obtain ⟨hlive, -, -, hrunning⟩ := isRunningOwnerRow_iff.mp hp
    exact ⟨hlive, isActive_of_running hrunning⟩
  · exact fun r => ⟨.rewrite .., .inl rfl⟩

theorem startIterationRound_commits {round : Nat} {item : Value}
    (h : Commits (startIterationRound ownerId round item starts now) w w') :
    w.Frame w' ∧ w'.rounds = w.rounds ∧ Inserts w (starts.map (·.toRow now)) w' := by
  obtain ⟨result, h⟩ := h
  unfold startIterationRound at h
  split at h
  · cases h
  obtain ⟨pool, -, h⟩ := bind_eq_ok.mp h
  obtain ⟨inserted, hins, heq⟩ := bind_eq_ok.mp h
  obtain ⟨rfl, hmoves⟩ := Inserts.insertNodeRuns (w := w) (rows_persistPayload ..) hins
  cases heq
  exact ⟨⟨rfl, rfl, rfl, rfl, rfl⟩, rfl, hmoves⟩

def SettledInto (w : World) (ownerId : String) (payload : WorkflowRunPayload) (now : Int) :
    IterationRoundContinuation → World → Prop
  | .startNextRound next item starts, w' => w.Frame w' ∧
      Inserts w (starts.map (·.toRow now)) w' ∧
      ∃ pool, writePoolVariables writeDeclaredPoolVariable ownerId
          (roundVariables ownerId next item) payload.variablePool = .ok pool ∧
        w'.run.payload = { payload with variablePool := pool }
  | .complete exposed output, w' => w.Frame w' ∧
      w'.rows = w.rows.map (fun r => if World.isRunningOwnerRow ownerId r then
        completedRow output now r else r) ∧
      RowMoves (fun r s => r.nodeId = ownerId ∧ r.iteration = none ∧ s = .succeeded) w [] w' ∧
      ∃ pool, writePoolVariables writeDeclaredPoolVariable ownerId exposed payload.variablePool =
          .ok pool ∧
        w'.run.payload = { payload with variablePool := pool }
  | .fail error, w' => w'.run.status = .failed ∧ w'.run.error = some error ∧
      w'.run.output = w.run.output ∧ w'.run.payload = payload ∧ w'.rootScopeId = w.rootScopeId ∧
      w'.retiredScopeIds = w.retiredScopeIds ∧ RowMoves Ends w [] w' ∧
      w'.rows = (w.failOwnerRow ownerId error now).rows

theorem settleIterationRound_commits {round : Nat} {entry : RoundOutcome}
    {continuation : IterationRoundContinuation}
    (h : Commits (settleIterationRound ownerId round entry continuation now) w w') :
    w'.rounds = w.rounds ∧ ∃ payload, SettledInto w ownerId payload now continuation w' := by
  obtain ⟨result, h⟩ := h
  unfold settleIterationRound at h
  split at h
  · cases h
  split at h
  · cases h
  rename_i payload _
  cases continuation with
  | startNextRound next item starts =>
    obtain ⟨pool, hpool, h⟩ := bind_eq_ok.mp h
    obtain ⟨inserted, hins, heq⟩ := bind_eq_ok.mp h
    obtain ⟨rfl, hmoves⟩ := Inserts.insertNodeRuns (w := w) (rows_persistPayload ..) hins
    cases heq
    exact ⟨rfl, payload, ⟨rfl, rfl, rfl, rfl, rfl⟩, hmoves, pool, hpool, rfl⟩
  | complete exposed output =>
    obtain ⟨pool, hpool, heq⟩ := bind_eq_ok.mp h
    cases heq
    exact ⟨rfl, payload, ⟨rfl, rfl, rfl, rfl, rfl⟩, rfl, completeOwnerRow_rowMoves rfl, pool, hpool,
      rfl⟩
  | fail error =>
    cases h
    exact ⟨rfl, payload, rfl, rfl, rfl, rfl, rfl, rfl, failOwnerRow_rowMoves rfl, rfl⟩

theorem completeIterationNode_commits {exposed : List (String × Value)}
    (h : Commits (completeIterationNode id ownerId exposed output now) w w') :
    w.Frame w' ∧ w'.rounds = w.rounds ∧
      w'.rows = w.rows.map (fun r => if World.isRunningOwnerRow ownerId r then
        completedRow output now r else r) ∧
      RowMoves (fun r s => r.nodeId = ownerId ∧ r.iteration = none ∧ s = .succeeded) w [] w' := by
  obtain ⟨result, h⟩ := h
  unfold completeIterationNode at h
  split at h
  · cases h
  split at h
  · cases h
  obtain ⟨pool, -, heq⟩ := bind_eq_ok.mp h
  cases heq
  exact ⟨⟨rfl, rfl, rfl, rfl, rfl⟩, rfl, rfl, completeOwnerRow_rowMoves rfl⟩

/-! #### Loop rounds -/

theorem insertLoopRound_eq (h : w.insertLoopRound round = .ok w') :
    w' = { w with rounds := w.rounds ++ [round] } ∧
      ∃ parent ∈ w.rows, parent.id = round.parentLoopNodeRunId ∧ parent.nodeType = .loop := by
  unfold insertLoopRound at h
  split at h
  · cases h
  rename_i hparent
  split at h
  · cases h
  split at h
  · cases h
  simp only [Bool.not_eq_true', Bool.not_eq_false, Bool.and_eq_true, beq_iff_eq,
    any_eq_true] at hparent
  obtain ⟨-, parent, hmem, hid, -⟩ := hparent
  exact ⟨(Except.ok.inj h).symm, parent, hmem, hid⟩

theorem openLoopRound_eq {start : LoopRoundToStart} (h : openLoopRound start now w = .ok w') :
    start.startNodeRun.scopeId = start.id ∧ ∃ w₁, w.insertLoopRound start.toRound = .ok w₁ ∧
      w₁.insertNodeRun start.startNodeRun now = .ok w' ∧
      w' = { w with
        rounds := w.rounds ++ [start.toRound]
        rows := w.rows ++ [start.startNodeRun.toRow now] } := by
  unfold openLoopRound at h
  split at h
  · cases h
  · rename_i hscope
    obtain ⟨w₁, hround, hrow⟩ := bind_eq_ok.mp h
    refine ⟨by simpa using hscope, w₁, hround, hrow, ?_⟩
    rw [(insertRow_eq hrow).1, (insertLoopRound_eq hround).1]

theorem startLoopRound_commits {start : LoopRoundToStart}
    (h : Commits (startLoopRound start now) w w') :
    w.Frame w' ∧ w'.rounds = w.rounds ++ [start.toRound] ∧
      Inserts w [start.startNodeRun.toRow now] w' ∧
      ∃ w₁, w.insertLoopRound start.toRound = .ok w₁ := by
  obtain ⟨result, h⟩ := h
  obtain ⟨opened, hopen, heq⟩ := bind_eq_ok.mp h
  cases heq
  obtain ⟨-, w₁, hround, hrow, rfl⟩ := openLoopRound_eq hopen
  refine ⟨⟨rfl, rfl, rfl, rfl, rfl⟩, rfl, ?_, w₁, hround⟩
  have hrows : w₁.rows = w.rows := by rw [(insertLoopRound_eq hround).1]
  exact .insertRow hrows hrow

theorem startScopeReadyNodes_commits (h : Commits (startScopeReadyNodes scopeId starts now) w w') :
    (∀ start ∈ starts, start.scopeId = scopeId) ∧ w.Frame w' ∧ w'.rounds = w.rounds ∧
      Inserts w (starts.map (·.toRow now)) w' := by
  obtain ⟨result, h⟩ := h
  unfold startScopeReadyNodes at h
  split at h
  · cases h
  rename_i hcond
  obtain ⟨inserted, hins, heq⟩ := bind_eq_ok.mp h
  obtain ⟨rfl, hmoves⟩ := Inserts.insertNodeRuns (w := w) rfl hins
  cases heq
  simp only [Bool.or_eq_true, Bool.not_eq_true', not_or, Bool.not_eq_false, any_eq_true,
    Bool.and_eq_true, beq_iff_eq, bne_iff_ne, not_exists, not_and, not_not] at hcond
  exact ⟨hcond.2, ⟨rfl, rfl, rfl, rfl, rfl⟩, rfl, hmoves⟩

theorem failLoop_rowMoves {parent : NodeRun} {error : String} :
    RowMoves Ends w [] (failLoop round parent error now w) := by
  refine .frame ?_ (rows_failRunningRun ..)
  refine .settle (.frame (.settle (settleRetryWaits_rowMoves .refl (some retryAbandoned) now)
    (fun r hp => ?_) ?_) rfl) (fun r hp => ?_) fun r => ⟨.rewrite .., .inl rfl⟩
  · simp only [Bool.and_eq_true] at hp
    exact ⟨hp.1.1, hp.2⟩
  · exact fun r => ⟨.rewrite .., .inl rfl⟩
  · simp only [Bool.and_eq_true, beq_iff_eq] at hp
    exact ⟨hp.1.1, isActive_of_running hp.2⟩

theorem activeChildren_false
    (h : ¬(w.rows.any fun r => r.isLive && r.scopeId == scopeId && r.status.isActive) = true) :
    ∀ r ∈ w.rows, r.isLive = true → r.scopeId = scopeId → r.status.isActive = false := by
  intro r hr hlive hscope
  by_contra hactive
  refine h (any_eq_true.mpr ⟨r, hr, ?_⟩)
  simp only [hlive, hscope, beq_self_eq_true, Bool.true_and]
  simpa using hactive

section

variable {nodeRunId : String} {result : Except String (Map String Value)}
  (h : requestLoopExit round nodeRunId result now w = .ok w')

include h

theorem requestLoopExit_rowMoves :
    RowMoves (fun r s => r.scopeId = round.id ∧ s ≠ .pending) w [] w' := by
  have hstable : ∀ r r' : NodeRun, r.Evolves r' → ∀ s : WorkflowNodeStatus,
      r'.scopeId = round.id ∧ s ≠ .pending → r.scopeId = round.id ∧ s ≠ .pending :=
    fun r r' hev _ h => ⟨hev.scopeId_eq ▸ h.1, h.2⟩
  unfold requestLoopExit at h
  split at h
  · cases h
    exact .refl
  dsimp only at h
  split at h
  · cases h
  cases h
  refine .update (.frame (.update .refl (fun r _ hp => ?_)
    (fun r _ hp => ?_) hstable) (rows_updateRounds ..)) (fun r _ hp => ?_) (fun r _ hp => ?_)
    hstable
  · simp only [Bool.and_eq_true, beq_iff_eq] at hp
    exact .of_active (.rewrite ..) hp.1.1.1.1
      (isActive_of_running hp.2)
  · simp only [Bool.and_eq_true, beq_iff_eq] at hp
    exact .inr ⟨hp.1.1.2, by simp⟩
  · simp only [Bool.and_eq_true, beq_iff_eq] at hp
    exact .of_active (.rewrite ..) hp.1.1 hp.2
  · simp only [Bool.and_eq_true, beq_iff_eq] at hp
    exact .inr ⟨hp.1.2, by simp⟩

/-- What an exit request does to the rounds: the round is marked, unless it was. -/
theorem requestLoopExit_eq_ok : w.Frame w' ∧
      ((round.state.exit.isSome = true ∧ w' = w) ∨ (round.state.exit = none ∧
        w'.rounds = w.rounds.map fun r => if r.id == round.id && r.status == .running then
          { r with state := { round.state with exit := some ⟨nodeRunId, now, result⟩ } } else r)) := by
  unfold requestLoopExit at h
  split at h
  · rename_i hexit
    cases h
    exact ⟨.refl _, .inl ⟨hexit, rfl⟩⟩
  rename_i hexit
  dsimp only at h
  split at h
  · cases h
  cases h
  refine ⟨⟨rfl, rfl, rfl, rfl, rfl⟩, .inr ⟨?_, rfl⟩⟩
  rcases hx : round.state.exit with _ | x
  · rfl
  · simp [hx] at hexit

end

section

variable [JsonText]

def loopSucceededRow (outputs : Map String Value) (now : Int) (r : NodeRun) : NodeRun :=
  { r with
    status := .succeeded
    output := some (JsonText.toText (.obj outputs.toList))
    finishedAt := some now }

/-- How a Loop advances, for each kind of advance. -/
def AdvancedInto (w : World) (round : LoopRound) (parent : NodeRun) (now : Int) :
    LoopRoundAdvance → World → Prop
  | .requestExit nodeRunId result, w' => requestLoopExit round nodeRunId result now w = .ok w'
  | .continue next, w' => next.parentLoopNodeRunId = parent.id ∧ w.Frame w' ∧
      w'.run.payload = w.run.payload ∧
      (∃ w₁, (settleRound round.id .succeeded w).insertLoopRound next.toRound = .ok w₁) ∧
      next.startNodeRun.scopeId = next.id ∧
      w'.rounds = (settleRound round.id .succeeded w).rounds ++ [next.toRound] ∧
      Inserts w [next.startNodeRun.toRow now] w' ∧
      ∀ r ∈ w.rows, r.isLive = true → r.scopeId = round.id → r.status.isActive = false
  | .succeed outputs _, w' => w.Frame w' ∧
      (∃ pool, writePoolVariables writePoolVariable parent.nodeId
          (outputs.toList.map fun output => (parent.nodeId ++ "." ++ output.1, output.2))
          w.run.payload.variablePool = .ok pool ∧
        w'.run.payload = { w.run.payload with variablePool := pool }) ∧
      w'.rounds = (settleRound round.id .succeeded w).rounds ∧
      w'.rows = w.rows.map (fun r => if r.isLive && r.id == parent.id && r.status == .running then
        loopSucceededRow outputs now r else r) ∧
      ∀ r ∈ w.rows, r.isLive = true → r.scopeId = round.id → r.status.isActive = false
  | .fail error, w' => FailsRun w w' error ∧
      w'.rounds = (settleRound round.id .failed w).rounds ∧ RowMoves Ends w [] w' ∧
      w'.rows = (failLoop round parent error now w).rows

/-- A commit of `advanceLoopRound`: the run is Running. -/
theorem advanceLoopRound_commits {advance : LoopRoundAdvance}
    (h : Commits (advanceLoopRound scopeId advance now) w w') :
    ∃ round parent, w.findRound scopeId = some round ∧
      w.findNodeRunById round.parentLoopNodeRunId = some parent ∧ w.run.status = .running ∧
      AdvancedInto w round parent now advance w' := by
  obtain ⟨result, h⟩ := h
  unfold advanceLoopRound at h
  split at h
  · cases h
  rename_i round hround
  have hid : round.id = scopeId := by simpa using List.find?_some hround
  split at h
  · cases h
  rename_i parent hparent
  split at h
  · cases h
  rename_i hrunning
  rw [not_or, not_or, not_not, not_not, not_not] at hrunning
  refine ⟨round, parent, hround, hparent, hrunning.2.2, ?_⟩
  dsimp only at h
  cases advance with
  | requestExit nodeRunId result' =>
    obtain ⟨exited, hexit, heq⟩ := bind_eq_ok.mp h
    cases heq
    exact hexit
  | fail error =>
    cases h
    refine ⟨?_, rounds_failRunningRun .., failLoop_rowMoves, rfl⟩
    unfold failLoop
    refine failRunningRun_failsRun ?_ ?_ error now
    · exact ⟨rfl, rfl, rfl, rfl, rfl⟩
    · rfl
  | «continue» next =>
    dsimp only at h
    split at h
    · cases h
    rename_i hchildren
    split at h
    · cases h
    rename_i hpar
    obtain ⟨opened, hopen, heq⟩ := bind_eq_ok.mp h
    cases heq
    obtain ⟨hscope, w₁, hins, hrow, rfl⟩ := openLoopRound_eq hopen
    subst hid
    refine ⟨by simpa using hpar, ⟨rfl, rfl, rfl, rfl, rfl⟩, rfl, ⟨w₁, hins⟩, hscope, rfl, ?_,
      activeChildren_false hchildren⟩
    have hrows : w₁.rows = w.rows := by rw [(insertLoopRound_eq hins).1]; rfl
    exact .insertRow hrows hrow
  | succeed outputs reason =>
    dsimp only at h
    split at h
    · cases h
    rename_i hchildren
    obtain ⟨succeeded, hsucc, heq⟩ := bind_eq_ok.mp h
    cases heq
    obtain ⟨pool, hpool, heq⟩ := bind_eq_ok.mp hsucc
    cases heq
    subst hid
    exact ⟨⟨rfl, rfl, rfl, rfl, rfl⟩, ⟨pool, hpool, rfl⟩, rfl, rfl,
      activeChildren_false hchildren⟩

theorem succeedLoop_rowMoves {parent : NodeRun} {outputs : Map String Value}
    (hrows : w'.rows = w.rows.map (fun r => if r.isLive && r.id == parent.id &&
      r.status == .running then loopSucceededRow outputs now r else r)) :
    RowMoves (fun r s => r.id = parent.id ∧ s = .succeeded) w [] w' := by
  refine .of_map hrows (fun r _ hp => ?_) (fun r _ hp => ?_) ?_
  · simp only [Bool.and_eq_true, beq_iff_eq] at hp
    exact .of_active (.rewrite ..) hp.1.1 (isActive_of_running hp.2)
  · simp only [Bool.and_eq_true, beq_iff_eq] at hp
    exact .inr ⟨hp.1.2, rfl⟩
  · rintro r r' hev s ⟨hid, hs⟩
    exact ⟨hev.id_eq ▸ hid, hs⟩

end

/-! #### Advances -/

/-- The transaction commits exactly when it reports an advance. -/
def Decisive (tx : Transaction AdvanceWorkflowRunResult) : Prop :=
  ∀ w t, tx w = .ok t → (∃ w', t = .commit .advanced w') ∨ ∃ result, result ≠ .advanced ∧
    t = .rollback result

theorem startIterationRound_decisive {round : Nat} {item : Value} :
    Decisive (startIterationRound ownerId round item starts now) := by
  intro w t h
  unfold startIterationRound at h
  split at h
  · exact .inr ⟨_, by simp, (Except.ok.inj h).symm⟩
  · obtain ⟨_, -, h⟩ := bind_eq_ok.mp h
    obtain ⟨_, -, h⟩ := bind_eq_ok.mp h
    exact .inl ⟨_, (Except.ok.inj h).symm⟩

theorem settleIterationRound_decisive {round : Nat} {entry : RoundOutcome}
    {continuation : IterationRoundContinuation} :
    Decisive (settleIterationRound ownerId round entry continuation now) := by
  intro w t h
  unfold settleIterationRound at h
  split at h
  · exact .inr ⟨_, by simp, (Except.ok.inj h).symm⟩
  split at h
  · exact .inr ⟨_, by simp, (Except.ok.inj h).symm⟩
  split at h
  · obtain ⟨_, -, h⟩ := bind_eq_ok.mp h
    obtain ⟨_, -, h⟩ := bind_eq_ok.mp h
    exact .inl ⟨_, (Except.ok.inj h).symm⟩
  · obtain ⟨_, -, h⟩ := bind_eq_ok.mp h
    exact .inl ⟨_, (Except.ok.inj h).symm⟩
  · exact .inl ⟨_, (Except.ok.inj h).symm⟩

theorem completeIterationNode_decisive {exposed : List (String × Value)} :
    Decisive (completeIterationNode id ownerId exposed output now) := by
  intro w t h
  unfold completeIterationNode at h
  split at h
  · exact .inr ⟨_, by simp, (Except.ok.inj h).symm⟩
  · split at h
    · exact .inr ⟨_, by simp, (Except.ok.inj h).symm⟩
    · obtain ⟨_, -, h⟩ := bind_eq_ok.mp h
      exact .inl ⟨_, (Except.ok.inj h).symm⟩

theorem failNode_decisive {propagation : FailurePropagation} :
    Decisive (failNode id failure propagation now) := by
  intro w t h
  unfold failNode at h
  split at h
  · exact .inr ⟨_, by simp, (Except.ok.inj h).symm⟩
  split at h
  · exact .inr ⟨_, by simp, (Except.ok.inj h).symm⟩
  · cases propagation
    · exact .inl ⟨_, (Except.ok.inj h).symm⟩
    · exact .inl ⟨_, (Except.ok.inj h).symm⟩

/-! #### The run's own transitions -/

theorem finishRun_commits (h : Commits (finishRun output now) w w') :
    (w.run.status = .pending ∨ w.run.status = .running) ∧ w'.run.status = .succeeded ∧
      w'.rows = w.rows ∧ w'.rounds = w.rounds := by
  obtain ⟨result, h⟩ := h
  unfold finishRun at h
  split at h
  · rename_i hstatus
    cases h
    exact ⟨hstatus, rfl, rfl, rfl⟩
  · cases h

theorem cancelRun_commits (h : Commits (cancelRun now) w w') :
    w.run.status = .running ∧ w'.run.status = .cancelled ∧
      w'.rounds = w.rounds.map (fun r => if r.status.isActive then { r with status := .cancelled }
        else r) ∧
      RowMoves Ends w [] w' := by
  obtain ⟨result, h⟩ := h
  unfold cancelRun at h
  split at h
  · cases h
  rename_i hstatus
  cases h
  refine ⟨by simpa using hstatus, rfl, rfl, ?_⟩
  refine .frame (.settle (settleRetryWaits_rowMoves .refl none now) (fun r hp => ?_) ?_) rfl
  · simpa only [Bool.and_eq_true] using hp
  · exact fun r => ⟨.rewrite .., .inr rfl⟩

theorem restartRun_commits {newRootScopeId : String}
    (h : Commits (restartRun newRootScopeId) w w') :
    w'.run.status = .pending ∧
      w'.rounds = w.rounds.map (fun r => if r.status.isActive then { r with status := .cancelled }
        else r) ∧
      w'.rows = w.rows.map fun r => if r.isLive then { r with isDeleted := true } else r := by
  obtain ⟨result, h⟩ := h
  unfold restartRun at h
  split at h
  · cases h
  split at h
  · cases h
  cases h
  exact ⟨rfl, rfl, rfl⟩

/-- A row that `resume_from_failure` supersedes: its node is cleared, or its round belongs to a
cleared Loop. -/
def isClearedRow (w : World) (cleared : List String) (r : NodeRun) : Bool :=
  r.isLive && (cleared.contains r.nodeId ||
    w.rounds.any fun round => round.id == r.scopeId && isClearedRound w cleared round)

/-- Superseding the rows of some rounds, then those of some nodes. -/
theorem delete_twice (cleared : List String) (r : NodeRun) (inRound : Bool) :
    (let r₁ := if r.isLive && inRound then { r with isDeleted := true } else r
      if r₁.isLive && cleared.contains r₁.nodeId then { r₁ with isDeleted := true } else r₁) =
    if r.isLive && (cleared.contains r.nodeId || inRound) then { r with isDeleted := true }
      else r := by
  rcases hdeleted : r.isDeleted with _ | _
  · cases inRound <;> simp [NodeRun.isLive, hdeleted]
  · simp [NodeRun.isLive, hdeleted]

theorem resumeFromFailure_commits {cleared : List String}
    (h : Commits (resumeFromFailure cleared) w w') :
    (∀ r ∈ w.rows, r.isLive = true → r.status = .running → r.nodeType = .iteration ∨
        r.nodeType = .loop) ∧
      w'.run.status = .running ∧
      w'.rows = w.rows.map (fun r => if isClearedRow w cleared r then { r with isDeleted := true }
        else r) ∧
      ∃ q : LoopRound → Bool, w'.rounds = w.rounds.map fun round =>
        if round.status.isActive && q round then { round with status := .cancelled } else round := by
  obtain ⟨result, h⟩ := h
  unfold resumeFromFailure at h
  split at h
  · cases h
  split at h
  · cases h
  rename_i hblocked
  cases h
  refine ⟨fun r hr hlive hrunning => ?_, rfl, ?_,
    isClearedRound (w.updateRows (fun r => r.isLive && w.rounds.any fun round =>
      round.id == r.scopeId && isClearedRound w cleared round) fun r => { r with
        isDeleted := true }) cleared, rfl⟩
  · by_contra hnot
    rw [not_or] at hnot
    refine hblocked (any_eq_true.mpr ⟨r, hr, ?_⟩)
    simp [hlive, hrunning, runningRowBlocksResume, hnot.1, hnot.2]
  · -- the two deletions of the source as one
    simp only [updateRows, updateRounds, map_map]
    refine map_congr_left fun r _ => ?_
    exact delete_twice cleared r _

/-- A commit of `updateRunInput`: only the input and the pool change. -/
theorem updateRunInput_commits {input : Option String} {vars : Map String Value}
    (h : Commits (updateRunInput input vars) w w') :
    ∃ payload, w' = { w with run := { w.run with input, payload } } := by
  obtain ⟨result, h⟩ := h
  unfold updateRunInput at h
  dsimp only at h
  split at h
  · cases h
  split at h
  · cases h
  · cases h
  · obtain ⟨payload, -, heq⟩ := bind_eq_ok.mp h
    cases heq
    exact ⟨payload, rfl⟩

end Repository

end OraDesktop.Workflow
