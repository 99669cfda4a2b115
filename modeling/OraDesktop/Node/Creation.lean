import OraDesktop.Node.WorktreeSteps

/-!
# What a worktree execution may remove

Every Git mutation is made under a recorded intent: by the record its stage is running under the
incarnation that makes it.

A creation cleans up after itself where its record is no longer merely accepted. That does not show
that it added anything: a first pass that cannot verify or observe, or finds something it
did not make, rewrites the record as unknown, and the next one takes a foreign branch at the base
commit for its own and removes it. Where every pass over an accepted record proves what there is, a
cleanup comes after an intent to create.

## Main results

* `intent_precedes_mutation` — every history
* `removal_follows_create_of_proven` — where accepted records are proven
-/

namespace OraDesktop.Node

namespace Worktree

open Journal

variable {strict : Prop} {s t : Database} {event : Event} {record : Execution}
  {execution : ExecutionId} {journal : List (Event × Database)} {checks : Checks}

/-- The progress of an execution that has begun was recorded. -/
theorem Step.recorded {progress : Progress} (h : Step strict s event t)
    (hbegun : progress.begun ≠ none) (ht : (t.lookup execution).map (·.progress) = some progress) :
    (s.lookup execution).map (·.progress) = some progress ∨
      event = .progressed execution progress := by
  obtain ⟨record, hlookup, rfl⟩ := Option.map_eq_some_iff.mp ht
  rcases h.lookup hlookup with hadds | ⟨old, hold, _, _, hsame | hnone | hevent⟩
  · exact absurd hadds.begun hbegun
  · rw [hold, Option.map_some, hsame]
    exact .inl rfl
  · exact absurd hnone hbegun
  · exact .inr hevent

/-- The creation of an `ensure` has begun: from then on, what is found at its place may be what it
left there itself. -/
def HasBegun (execution : ExecutionId) (db : Database) : Prop :=
  ∃ record, db.lookup execution = some record ∧ record.command.isEnsure = true ∧
    record.progress.begun ≠ none

def RecordsCreate (execution : ExecutionId) (event : Event) : Prop :=
  ∃ observer observedAt, event = .progressed execution (.running .create observer observedAt)

theorem Stage.eq_create_of_isEnsure {stage : Stage} (h : stage.isEnsure = true)
    (hcleanup : stage ≠ .cleanupCreation) : stage = .create := by
  cases stage with
  | create => rfl
  | cleanupCreation => exact absurd rfl hcleanup
  | removeWorktree => cases h
  | removeBranch => cases h

theorem Progress.begun_ne_none {progress : Progress} (hopen : progress.isCompleted = false)
    (haccepted : progress ≠ .accepted) : progress.begun ≠ none := by
  cases progress with
  | accepted => exact absurd rfl haccepted
  | running stage observer observedAt => exact nofun
  | unknown stage observer observedAt diagnostic => exact nofun
  | completed result => cases hopen

theorem Step.progressed {progress : Progress}
    (h : Step strict s (.progressed execution progress) t) :
    ∃ old, s.lookup execution = some old ∧ old.progress.isCompleted = false ∧
      (strict → old.command.isEnsure = true → old.progress = .accepted →
        ∃ observer observedAt, progress = .running .create observer observedAt) := by
  cases h with
  | run old stage observer observedAt hrecord hopen hkind hstage =>
    refine ⟨old, hrecord, hopen, fun _ hensure haccepted => ⟨observer, observedAt, ?_⟩⟩
    rw [hensure] at hkind
    rw [Stage.eq_create_of_isEnsure hkind.symm fun h => hstage h haccepted]
  | doubt old stage observer observedAt diagnostic hrecord hopen hdoubt =>
    exact ⟨old, hrecord, hopen, fun hstrict hensure haccepted =>
      absurd haccepted (hdoubt hstrict hensure)⟩

theorem Step.hasBegun (h : Step True s event t) (ht : HasBegun execution t) :
    HasBegun execution s ∨ RecordsCreate execution event := by
  obtain ⟨record, hlookup, hensure, hbegun⟩ := ht
  rcases h.lookup hlookup with hadds | ⟨old, hold, hcommand, _, hsame | hnone | rfl⟩
  · exact absurd hadds.begun hbegun
  · exact .inl ⟨old, hold, by rw [hcommand, hensure], by rwa [hsame]⟩
  · exact absurd hnone hbegun
  -- the record was written: over one that has begun, or over an accepted one to create
  obtain ⟨_, hold', hopen, hcreate⟩ := h.progressed
  cases hold.symm.trans hold'
  rw [← hcommand] at hensure
  by_cases haccepted : old.progress = .accepted
  · obtain ⟨observer, observedAt, hprogress⟩ := hcreate trivial hensure haccepted
    exact .inr ⟨observer, observedAt, by rw [hprogress]⟩
  · exact .inl ⟨old, hold, hensure, Progress.begun_ne_none hopen haccepted⟩

/-- The mutation is made under a recorded intent of the incarnation that makes it. -/
def Intended (db : Database) (before : List (Event × Database)) (execution : ExecutionId)
    (mutation : Mutation) (actor : RuntimeIdentity) : Prop :=
  ∃ record stage observedAt, db.lookup execution = some record ∧
    record.command.stageOf mutation = some stage ∧
    record.progress = .running stage actor observedAt ∧
    ∃ entry ∈ before, entry.1 = .progressed execution (.running stage actor observedAt)

theorem intended_of_path {first last db : Database} {before later : List (Event × Database)}
    {mutation : Mutation} {actor : RuntimeIdentity} (hinitial : Initial first)
    (h : Path (Step strict) first (before ++ (.mutated execution mutation actor, db) :: later) last) :
    Intended (lastState first before) before execution mutation actor := by
  obtain ⟨hbefore, hrest⟩ := h.of_append
  cases hrest with
  | cons hstep _ =>
    cases hstep with
    | mutate record mutation stage actor observedAt hrecord hstage hrunning =>
      refine ⟨record, stage, observedAt, hrecord, hstage, hrunning, ?_⟩
      have hprogress : ((lastState first before).lookup record.command.executionId).map
          (·.progress) = some (.running stage actor observedAt) := by
        rw [hrecord, Option.map_some, hrunning]
      rcases hbefore.since (fun s o t hstep ht => hstep.recorded (by exact nofun) ht) hprogress with
        hfirst | hentry
      · rw [Database.lookup, hinitial.executions] at hfirst
        cases hfirst
      · exact hentry

theorem owned_of_initial (h : Initial s) : Owned s := by
  intro execution record message target hlookup
  rw [Database.lookup, h.executions] at hlookup
  cases hlookup

theorem distinct_of_initial (h : Initial s) : Distinct s := by
  rw [Distinct, h.executions]
  exact List.nodup_nil

def serveIn (checks : Checks) (call : World × Call) : Work (Option Progress) :=
  serve checks call.1 call.2

/-- In every history: a Git mutation is made only while its stage is recorded as running by the
incarnation that makes it. -/
theorem intent_precedes_mutation {first last : Database}
    (h : History Initial (serveIn checks) first journal last)
    {before later : List (Event × Database)} {mutation : Mutation} {actor : RuntimeIdentity}
    {db : Database} (hjournal : journal = before ++ (.mutated execution mutation actor, db) :: later) :
    Intended (lastState first before) before execution mutation actor := by
  have htraced : ∀ call : World × Call, Safe (Step False) (fun s => Owned s ∧ Distinct s)
      (serveIn checks call) := fun call =>
    traced_serve fun s hs => ⟨hs.1, hs.2, False.elim⟩
  obtain ⟨hinitial, hpath⟩ := h.path_of_invariant
    (fun s hs => ⟨owned_of_initial hs, distinct_of_initial hs⟩)
    (fun s o t hs hstep => ⟨hstep.owned hs.1, hstep.distinct hs.2⟩) htraced
  rw [hjournal] at hpath
  exact intended_of_path hinitial hpath

/-- In every history in which each pass over an `ensure` that was only accepted proves what there
is: a Git mutation is made only while its stage is recorded as running by the incarnation that
makes it, and an `ensure` removes a branch or a directory only after its intent to create was
recorded. -/
theorem removal_follows_create_of_proven {first last : Database}
    (h : HistoryWhere (fun db call => ProvenCall call.1 db call.2) Initial (serveIn checks) first
      journal last) :
    ∀ before execution mutation actor db later,
      journal = before ++ (.mutated execution mutation actor, db) :: later →
      Intended (lastState first before) before execution mutation actor ∧
      ∀ record, (lastState first before).lookup execution = some record →
        record.command.isEnsure = true →
        mutation = .removeBranch ∨ mutation = .removeEmptyDirectory →
        ∃ entry ∈ before, RecordsCreate execution entry.1 := by
  have htraced : ∀ call : World × Call, Safe (Step True)
      (fun s => (Owned s ∧ Distinct s) ∧ ProvenCall call.1 s call.2) (serveIn checks call) := fun call =>
    traced_serve fun s hs => ⟨hs.1.1, hs.1.2, fun _ => hs.2⟩
  obtain ⟨hinitial, hpath, _⟩ := h.path_of_invariant
    (fun s hs => ⟨owned_of_initial hs, distinct_of_initial hs⟩)
    (fun s o t hs hstep => ⟨hstep.owned hs.1, hstep.distinct hs.2⟩) htraced
  rintro before execution mutation actor db later rfl
  have hintended := intended_of_path hinitial hpath
  refine ⟨hintended, fun record hrecord hensure _ => ?_⟩
  obtain ⟨_, stage, observedAt, hlookup, _, hrunning, _⟩ := hintended
  cases hrecord.symm.trans hlookup
  have hbegun : HasBegun execution (lastState first before) := by
    refine ⟨record, hrecord, hensure, ?_⟩
    rw [hrunning]
    exact nofun
  rcases hpath.of_append.1.since (fun s o t hstep ht => hstep.hasBegun ht) hbegun with
    ⟨old, hold, _⟩ | hentry
  · rw [Database.lookup, hinitial.executions] at hold
    cases hold
  · exact hentry

/-! ### Two creations -/

def emptyNode : Database := ⟨"node", [], [], [], []⟩

def anyMessage : Checks := ⟨fun _ => none, fun _ _ => none⟩

def incarnation : RuntimeIdentity := ⟨"node", "incarnation"⟩

def taskTarget : Target :=
  ⟨⟨⟨true, ["main"]⟩, ⟨true, ["main", ".git"]⟩, ⟨true, []⟩, ⟨true, ["trees"]⟩,
    ⟨true, ["trees", "task"]⟩⟩, "task", "base"⟩

def taskCommand : Command :=
  .ensure ⟨"request", "operation", "execution",
    ⟨"node", "workspace", "worktree", "repository", "main", "main", "task", "task"⟩⟩

def nothing : Observation := ⟨none, none, .absent, false⟩

/-- A branch at the base commit, checked out nowhere. -/
def branchOnly : Observation := ⟨none, some "base", .absent, false⟩

def worktree : Observation :=
  ⟨some ⟨⟨true, ["trees", "task"]⟩, "task", "base"⟩, some "base", .nonempty, false⟩

/-- Everything goes as it should, and this is what is observed. -/
def calm (observe : Site → Except Failure Observation) : World where
  identity := incarnation
  writes _ := .written
  now _ := "now"
  acceptingWork _ := true
  beginExecution _ := .ok ()
  locate _ _ := .ok taskTarget.toLocation
  resolveBase _ := .ok "base"
  observe _ := observe
  mutate _ _ := .ok ()

def gitFailed : Failure := ⟨.operationFailed, "git"⟩

/-- The creation is interrupted: what it left is seen only by a later pass. -/
def interrupted : World × Call :=
  (calm fun site => if site = .created then .error gitFailed else .ok nothing, .submit taskCommand)

theorem intent_precedes_creation : ∃ before,
    Intended (lastState emptyNode before) before "execution" .create incarnation := by
  have h : History Initial (serveIn anyMessage) emptyNode _ _ :=
    .of_replay ⟨rfl, rfl⟩ [interrupted]
  exact ⟨[_, _], intent_precedes_mutation h rfl⟩

/-- A pass that finds the branch, removes it and creates the worktree. -/
def cleaning : World × Call :=
  (calm fun
    | .entry => .ok branchOnly
    | .created => .ok worktree
    | _ => .ok nothing, .recover)

/-- A creation that was interrupted after its worktree was added is cleaned up and made again. -/
theorem removal_follows_create_of_interrupted :
    (replay (serveIn anyMessage) [interrupted, cleaning] emptyNode).1.map (·.1) =
      [.accepted "execution",
        .progressed "execution" (.running .create incarnation "now"),
        .mutated "execution" .create incarnation,
        .progressed "execution" (.unknown .create incarnation "now" "git"),
        .progressed "execution" (.running .cleanupCreation incarnation "now"),
        .mutated "execution" .removeBranch incarnation,
        .progressed "execution" (.running .create incarnation "now"),
        .mutated "execution" .create incarnation,
        .completed "execution" (.ready ⟨incarnation, "workspace", "worktree"⟩
          ⟨⟨true, ["trees", "task"]⟩, "task", "base"⟩)] ∧
    ∀ before db later,
      (replay (serveIn anyMessage) [interrupted, cleaning] emptyNode).1 =
        before ++ (.mutated "execution" .removeBranch incarnation, db) :: later →
      Intended (lastState emptyNode before) before "execution" .removeBranch incarnation ∧
        ∃ entry ∈ before, RecordsCreate "execution" entry.1 := by
  have hadmitted : Admitted (fun db call => ProvenCall call.1 db call.2) (serveIn anyMessage)
      [interrupted, cleaning] emptyNode := by
    refine ⟨fun _ target htarget => ?_, ?_, trivial⟩
    · have hresolve : resolve interrupted.1 emptyNode taskCommand = .ok taskTarget := rfl
      cases hresolve.symm.trans htarget
      exact ⟨rfl, nothing, rfl, .inl rfl⟩
    · -- the only record is in doubt by then
      intro record hrecord _ _ haccepted
      have hprogress : (lastState emptyNode
          (serveIn anyMessage interrupted emptyNode 0).journal).executions.map (·.progress) =
            [.unknown .create incarnation "now" "git"] := by
        decide +kernel
      have hmem := List.mem_map_of_mem (f := (·.progress)) hrecord
      rw [hprogress, haccepted, List.mem_singleton] at hmem
      cases hmem
  have h : HistoryWhere (fun db call => ProvenCall call.1 db call.2) Initial (serveIn anyMessage)
      emptyNode _ _ := HistoryWhere.of_admitted ⟨rfl, rfl⟩ hadmitted
  refine ⟨by decide +kernel, fun before db later hsplit => ?_⟩
  obtain ⟨hintended, hcreate⟩ := removal_follows_create_of_proven h before "execution"
    .removeBranch incarnation db later hsplit
  have hensure : ∀ db ∈ emptyNode ::
      (replay (serveIn anyMessage) [interrupted, cleaning] emptyNode).1.map (·.2),
      ∀ record ∈ db.executions, record.command.isEnsure = true := by decide +kernel
  have hstate := lastState_mem emptyNode before
  have ⟨record, _, _, hlookup, _⟩ := hintended
  refine ⟨hintended, hcreate record hlookup (hensure _ ?_ record
    (List.mem_of_find?_eq_some hlookup)) (.inl rfl)⟩
  rw [hsplit, List.map_append]
  exact List.cons_subset_cons _ (List.subset_append_left _ _) hstate

/-- The Node stops before the first pass over the new execution. -/
def stopped : World × Call :=
  ({ calm fun _ => .ok nothing with beginExecution := fun _ => .error gitFailed },
    .submit taskCommand)

/-- A branch of the expected name is made by someone else in the meantime. The first pass is in
doubt about it, and the second one removes it, before anything was created. -/
theorem foreign_branch_is_removed :
    (replay (serveIn anyMessage) [stopped, cleaning, cleaning] emptyNode).1.map (·.1) =
      [.accepted "execution",
        .progressed "execution" (.unknown .create incarnation "now"
          "creation facts are incomplete or differ from the frozen baseline"),
        .progressed "execution" (.running .cleanupCreation incarnation "now"),
        .mutated "execution" .removeBranch incarnation,
        .progressed "execution" (.running .create incarnation "now"),
        .mutated "execution" .create incarnation,
        .completed "execution" (.ready ⟨incarnation, "workspace", "worktree"⟩
          ⟨⟨true, ["trees", "task"]⟩, "task", "base"⟩)] := by
  decide +kernel

end Worktree

end OraDesktop.Node
