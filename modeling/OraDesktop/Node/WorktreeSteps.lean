import OraDesktop.Lib.UniqueKey
import OraDesktop.Node.Worktree

/-!
# What one step of a worktree execution can be

Every write and every Git mutation of a pass is one of the steps below. A mutation is made only
while the record says that its stage is running under the incarnation that makes it, and a cleanup
begins only over a record that is no longer merely accepted.

A pass also writes `unknown` over any record it is in doubt about. With `Step True` this is only
done to the record of an `ensure` whose creation has begun, with `Step False` to any.

## Main results

* `Step` — the steps
* `Step.owned` — the resource of an `ensure` stays its own
* `traced_serve` — every call is a path of them
-/

namespace OraDesktop.Node

namespace Worktree

open Journal Database

variable {db s t : Database} {event : Event} {record : Execution} {execution : ExecutionId}

/-! ### The database -/

namespace Database

theorem executionId_of_lookup (h : db.lookup execution = some record) :
    record.command.executionId = execution := by
  have := List.find?_some h
  simpa using this

theorem command_ite (record : Execution) (progress : Progress) :
    (if record.command.executionId = execution then { record with progress := progress }
      else record : Execution).command = record.command := by
  split <;> rfl

theorem lookup_setProgress (db : Database) (execution other : ExecutionId) (progress : Progress) :
    (db.setProgress execution progress).lookup other =
      if other = execution then
        (db.lookup other).map fun record => { record with progress := progress }
      else db.lookup other := by
  rw [lookup, setProgress, List.find?_map]
  simp only [Function.comp_def, command_ite]
  rw [← lookup]
  rcases hlookup : db.lookup other with _ | record
  · simp
  · rw [Option.map_some, executionId_of_lookup hlookup]
    split <;> simp

theorem lookup_insert (db : Database) (record : Execution) (execution : ExecutionId) :
    (db.insert record).lookup execution =
      (db.lookup execution).or
        (if record.command.executionId = execution then some record else none) := by
  rw [lookup, insert, List.find?_append, ← lookup]
  simp [List.find?_cons]
  split <;> simp_all

theorem resource_setResource (db : Database) (worktree other : String) (state : ResourceState)
    {resource : Resource} (h : db.resource other = some resource) :
    ∃ new, (db.setResource worktree state).resource other = some new ∧
      new.spec = resource.spec ∧ new.target = resource.target := by
  have hspec : ∀ resource : Resource,
      (if resource.spec.worktreeId = worktree then { resource with state := state }
        else resource : Resource).spec = resource.spec := by
    intro resource
    split <;> rfl
  rw [Database.resource, setResource, List.find?_map]
  simp only [Function.comp_def, hspec]
  rw [← Database.resource, h, Option.map_some]
  refine ⟨_, rfl, hspec resource, ?_⟩
  split <;> rfl

theorem resource_insert (db : Database) (record : Execution) {worktree : String}
    {resource : Resource} (h : db.resource worktree = some resource) :
    (db.insert record).resource worktree = some resource := by
  rw [Database.resource, insert, List.find?_append, ← Database.resource, h]
  rfl

theorem lookup_of_existing {command : Command} (h : db.existing command = .ok none) :
    db.lookup command.executionId = none := by
  have hfind : db.find command.operationId command.executionId = .ok none := by
    rw [existing] at h
    split at h
    · cases h
    · rename_i record hrecord
      split at h
      · cases h
      · rw [hrecord, h]
  rw [find] at hfind
  split at hfind
  · cases hfind
  split at hfind
  · cases hfind
  split at hfind
  · split at hfind <;> cases hfind
  rename_i hnone
  rw [List.find?_eq_none] at hnone
  rw [lookup, List.find?_eq_none]
  intro record hrecord hsame
  exact hnone record hrecord (by simp [of_decide_eq_true hsame])

end Database

/-! ### Steps -/

/-- In a strict history, an `ensure` is in doubt only once its creation has begun. -/
def Doubtful (strict : Prop) (record : Execution) : Prop :=
  strict → record.command.isEnsure = true → record.progress ≠ .accepted

theorem Doubtful.of_begun {strict : Prop} (h : record.progress ≠ .accepted) :
    Doubtful strict record := fun _ _ => h

/-- One step of a pass: a write, or a Git mutation, which is only made under a recorded intent. -/
inductive Step (strict : Prop) : Database → Event → Database → Prop where
  | accept (s : Database) (command : Command) (target : Target)
      (hnew : s.lookup command.executionId = none) (hfree : s.conflicts command target = false) :
    Step strict s (.accepted command.executionId) (s.insert ⟨command, some target, .accepted⟩)
  | reject (s : Database) (command : Command) (result : Result)
      (hnew : s.lookup command.executionId = none) :
    Step strict s (.rejected command.executionId result)
      (s.insert ⟨command, none, .completed result⟩)
  | run (s : Database) (record : Execution) (stage : Stage) (observer : RuntimeIdentity)
      (observedAt : String) (hrecord : s.lookup record.command.executionId = some record)
      (hopen : record.progress.isCompleted = false)
      (hkind : record.command.isEnsure = stage.isEnsure)
      (hstage : stage = .cleanupCreation → record.progress ≠ .accepted) :
    Step strict s (.progressed record.command.executionId (.running stage observer observedAt))
      (s.setProgress record.command.executionId (.running stage observer observedAt))
  | doubt (s : Database) (record : Execution) (stage : Stage) (observer : RuntimeIdentity)
      (observedAt diagnostic : String)
      (hrecord : s.lookup record.command.executionId = some record)
      (hopen : record.progress.isCompleted = false) (hdoubt : Doubtful strict record) :
    Step strict s
      (.progressed record.command.executionId (.unknown stage observer observedAt diagnostic))
      (s.setProgress record.command.executionId (.unknown stage observer observedAt diagnostic))
  | complete (s : Database) (record : Execution) (result : Result)
      (state : Option ResourceState) :
    Step strict s (.completed record.command.executionId result)
      (state.elim (s.setProgress record.command.executionId (.completed result))
        ((s.setProgress record.command.executionId (.completed result)).setResource
          record.command.spec.worktreeId))
  | mutate (s : Database) (record : Execution) (mutation : Mutation) (stage : Stage)
      (actor : RuntimeIdentity) (observedAt : String)
      (hrecord : s.lookup record.command.executionId = some record)
      (hstage : record.command.stageOf mutation = some stage)
      (hrunning : record.progress = .running stage actor observedAt) :
    Step strict s (.mutated record.command.executionId mutation actor) s
  | elsewhere (s : Database) (others : List Identity) (clonePaths : List PathBuf) :
    Step strict s .elsewhere { s with others := others, clonePaths := clonePaths }

variable {strict : Prop}

structure Adds (s : Database) (record : Execution) (t : Database) : Prop where
  insert : t = s.insert record
  begun : record.progress.begun = none
  free : ∀ target, record.target = some target → s.conflicts record.command target = false

def Distinct (db : Database) : Prop := (db.executions.map (·.command.executionId)).Nodup

theorem Distinct.lookup (h : Distinct db) (hrecord : record ∈ db.executions) :
    db.lookup record.command.executionId = some record := by
  rcases hlookup : db.lookup record.command.executionId with _ | stored
  · rw [Database.lookup, List.find?_eq_none] at hlookup
    exact absurd (decide_eq_true rfl) (hlookup record hrecord)
  · rw [List.inj_on_of_nodup_map h (List.mem_of_find?_eq_some hlookup) hrecord
      (executionId_of_lookup hlookup)]

theorem Distinct.insert (h : Distinct db) (hnew : db.lookup record.command.executionId = none) :
    Distinct (db.insert record) := by
  rw [Database.lookup, List.find?_eq_none] at hnew
  exact UniqueKey.nodup_snoc h fun other hother hsame => hnew other hother (decide_eq_true hsame)

theorem Distinct.setProgress {progress : Progress} (h : Distinct db) :
    Distinct (db.setProgress execution progress) := by
  rw [Distinct, Database.setProgress, List.map_map]
  simp only [Function.comp_def, command_ite]
  exact h

theorem Step.distinct (h : Step strict s event t) (hs : Distinct s) : Distinct t := by
  cases h with
  | accept command target hnew _ => exact hs.insert hnew
  | reject command result hnew => exact hs.insert hnew
  | run changed stage observer observedAt _ _ _ _ => exact hs.setProgress
  | doubt changed stage observer observedAt diagnostic _ _ _ => exact hs.setProgress
  | complete changed result state =>
    cases state with
    | none | some state => exact hs.setProgress
  | mutate changed mutation stage actor observedAt _ _ _ => exact hs
  | elsewhere others clonePaths => exact hs

/-- What becomes of a record in one step: it is new, or the old one with what the event says. -/
theorem Step.lookup (h : Step strict s event t) (hlookup : t.lookup execution = some record) :
    Adds s record t ∨
      ∃ old, s.lookup execution = some old ∧ old.command = record.command ∧
        old.target = record.target ∧
        (old.progress = record.progress ∨ record.progress.begun = none ∨
          event = .progressed execution record.progress) := by
  have hset : ∀ changed : ExecutionId, ∀ progress,
      (s.setProgress changed progress).lookup execution = some record →
      (progress.begun = none ∨ event = .progressed changed progress) →
      ∃ old, s.lookup execution = some old ∧ old.command = record.command ∧
        old.target = record.target ∧
        (old.progress = record.progress ∨ record.progress.begun = none ∨
          event = .progressed execution record.progress) := by
    intro changed progress hset hprogress
    rw [lookup_setProgress] at hset
    split at hset
    · rename_i hsame
      obtain ⟨old, hold, rfl⟩ := Option.map_eq_some_iff.mp hset
      rw [hsame] at hold ⊢
      exact ⟨old, hold, rfl, rfl, .inr hprogress⟩
    · exact ⟨record, hset, rfl, rfl, .inl rfl⟩
  have hinsert : ∀ new : Execution, Adds s new (s.insert new) →
      (s.insert new).lookup execution = some record →
      Adds s record (s.insert new) ∨ s.lookup execution = some record := by
    intro new hadds hinsert
    rw [lookup_insert, Option.or_eq_some_iff] at hinsert
    rcases hinsert with hold | ⟨_, hrecord⟩
    · exact .inr hold
    · split at hrecord
      · cases hrecord
        exact .inl hadds
      · cases hrecord
  cases h with
  | accept command target _ hfree =>
    refine (hinsert _ ⟨rfl, rfl, ?_⟩ hlookup).imp_right fun hold => ⟨record, hold, rfl, rfl, .inl rfl⟩
    rintro _ ⟨⟩
    exact hfree
  | reject command result _ =>
    exact (hinsert _ ⟨rfl, rfl, fun _ h => by cases h⟩ hlookup).imp_right
      fun hold => ⟨record, hold, rfl, rfl, .inl rfl⟩
  | run changed stage observer observedAt _ _ _ _ => exact .inr (hset _ _ hlookup (.inr rfl))
  | doubt changed stage observer observedAt diagnostic _ _ _ =>
    exact .inr (hset _ _ hlookup (.inr rfl))
  | complete changed result state =>
    refine .inr (hset changed.command.executionId (.completed result) ?_ (.inl rfl))
    cases state with
    | none => exact hlookup
    | some state => exact hlookup
  | mutate changed mutation stage actor observedAt _ _ _ =>
    exact .inr ⟨record, hlookup, rfl, rfl, .inl rfl⟩
  | elsewhere others clonePaths => exact .inr ⟨record, hlookup, rfl, rfl, .inl rfl⟩

theorem Step.lookup_isSome (h : Step strict s event t) (hlookup : s.lookup execution = some record) :
    ∃ new, t.lookup execution = some new ∧ new.command = record.command ∧
      new.target = record.target := by
  have hset : ∀ changed : ExecutionId, ∀ progress, ∃ new,
      (s.setProgress changed progress).lookup execution = some new ∧
        new.command = record.command ∧ new.target = record.target := by
    intro changed progress
    rw [lookup_setProgress, hlookup]
    split
    · exact ⟨_, rfl, rfl, rfl⟩
    · exact ⟨record, rfl, rfl, rfl⟩
  cases h with
  | accept command target hnew _ =>
    exact ⟨record, by rw [lookup_insert, hlookup]; rfl, rfl, rfl⟩
  | reject command result hnew =>
    exact ⟨record, by rw [lookup_insert, hlookup]; rfl, rfl, rfl⟩
  | run changed stage observer observedAt _ _ _ _ => exact hset _ _
  | doubt changed stage observer observedAt diagnostic _ _ _ => exact hset _ _
  | complete changed result state =>
    cases state with
    | none => exact hset _ _
    | some state => exact hset _ _
  | mutate changed mutation stage actor observedAt _ _ _ | elsewhere others clonePaths =>
    exact ⟨record, hlookup, rfl, rfl⟩

/-! ### Ownership -/

/-- The resource of every `ensure` that was accepted is its own. -/
def Owned (db : Database) : Prop :=
  ∀ execution record message target, db.lookup execution = some record →
    record.command = .ensure message → record.target = some target →
    ∃ resource, db.resource message.spec.worktreeId = some resource ∧
      resource.spec = message.spec ∧ resource.target = target

theorem Step.resource {worktree : String} {resource : Resource} (h : Step strict s event t)
    (hresource : s.resource worktree = some resource) :
    ∃ new, t.resource worktree = some new ∧ new.spec = resource.spec ∧
      new.target = resource.target := by
  cases h with
  | accept command target _ _ =>
    exact ⟨resource, resource_insert s _ hresource, rfl, rfl⟩
  | reject command result _ =>
    exact ⟨resource, resource_insert s _ hresource, rfl, rfl⟩
  | complete changed result state =>
    cases state with
    | none => exact ⟨resource, hresource, rfl, rfl⟩
    | some state => exact resource_setResource (s.setProgress _ _) _ _ _ hresource
  | _ => exact ⟨resource, hresource, rfl, rfl⟩

variable {message : Message}

/-- A new `ensure` reserves the resource of its worktree, which none had. -/
theorem Adds.reserves {target : Target} (h : Adds s record t)
    (hcommand : record.command = .ensure message) (htarget : record.target = some target) :
    t.resource message.spec.worktreeId = some ⟨message.spec, target, .reserved⟩ := by
  have hfree := h.free target htarget
  rw [hcommand, conflicts, Bool.or_eq_false_iff, Bool.or_eq_false_iff] at hfree
  have hnone : s.resource message.spec.worktreeId = none := by simpa using hfree.1.1
  rw [h.insert, Database.resource, Database.insert, List.find?_append, ← Database.resource, hnone,
    hcommand, htarget]
  simp

theorem Step.owned (h : Step strict s event t) (hs : Owned s) : Owned t := by
  intro execution record message target hlookup hcommand htarget
  rcases h.lookup hlookup with hadds | ⟨old, hold, hsame, htargets, _⟩
  · exact ⟨_, hadds.reserves hcommand htarget, rfl, rfl⟩
  · obtain ⟨resource, hresource, hspec, hkept⟩ :=
      hs execution old message target hold (hsame.trans hcommand) (htargets.trans htarget)
    obtain ⟨new, hnew, hspec', hkept'⟩ := h.resource hresource
    exact ⟨new, hnew, hspec'.trans hspec, hkept'.trans hkept⟩

/-! ### Writes -/

section Traced

variable {R : Database → Event → Database → Prop} {P : Database → Prop} {checks : Checks}
  {world : World} {command : Command} {target : Target} {site : Site}

/-- The record is stored, with some progress: others may have moved it on since it was read. -/
def Knows (record : Execution) (db : Database) : Prop :=
  ∃ stored, db.lookup record.command.executionId = some stored ∧
    stored.command = record.command ∧ stored.target = record.target

def At (record : Execution) (db : Database) : Prop :=
  db.lookup record.command.executionId = some record

theorem At.knows (h : At record db) : Knows record db := ⟨record, h, rfl, rfl⟩

theorem Step.knows (hknows : Knows record s) (h : Step strict s event t) : Knows record t := by
  obtain ⟨stored, hstored, hcommand, htarget⟩ := hknows
  obtain ⟨new, hnew, hcommand', htarget'⟩ := h.lookup_isSome hstored
  exact ⟨new, hnew, hcommand'.trans hcommand, htarget'.trans htarget⟩

/-- The stored record is the one that is known once their progress agrees. -/
theorem Knows.at (h : Knows record db)
    (hprogress : (db.lookup record.command.executionId).map (·.progress) = some record.progress) :
    At record db := by
  obtain ⟨stored, hstored, hcommand, htarget⟩ := h
  rw [hstored, Option.map_some, Option.some.injEq] at hprogress
  rw [At, hstored]
  cases stored
  cases record
  simp only at hcommand htarget hprogress
  rw [hcommand, htarget, hprogress]

theorem traced_write {point : WritePoint} {Q : Unit → Database → Prop}
    (h : ∀ s, P s → R s event t ∧ Q () t) : Traced R P (write world point event t) Q := by
  refine Traced.draw.bind fun n => ?_
  split
  · exact .commit h
  · exact .fail
  · exact (Traced.commit h).bind fun _ => .fail

theorem traced_checked {verdict : Option String} {error : ValidationError → PassError} :
    Traced R P (checked verdict error) fun _ s => P s := by
  rw [checked.eq_def]
  split
  · exact .fail
  · exact .pure fun _ h => h

theorem traced_stored {answer : Except Error Unit} : Traced R P (stored answer) fun _ s => P s := by
  rw [stored.eq_def]
  split
  · exact .fail
  · exact .pure fun _ h => h

/-- The progress is written over the record that is known. -/
theorem traced_advance {progress : Progress}
    (h : ∀ s stage observer, At record s → progress.begun = some (stage, observer) →
      record.progress.isCompleted = false → record.command.isEnsure = stage.isEnsure →
      R s (.progressed record.command.executionId progress)
        (s.setProgress record.command.executionId progress)) :
    Traced R (Knows record) (advance world record progress) fun new s =>
      new = { record with progress := progress } ∧ At new s := by
  refine Traced.get.bind fun db => ?_
  split
  · exact .fail
  rename_i stage observer hbegun
  refine Traced.ensure.bind fun _ => Traced.ensure.bind fun _ =>
    .bind (Q := fun _ s => At { record with progress := progress } s) ?_ fun _ =>
      .pure fun s hs => ⟨rfl, hs⟩
  refine traced_write ?_
  rintro s ⟨⟨⟨rfl, hknows⟩, hopen, _, _, hkind⟩, hprogress⟩
  have hat := hknows.at hprogress
  refine ⟨h _ stage observer hat hbegun hopen hkind, ?_⟩
  rw [At, lookup_setProgress, if_pos rfl, hat]
  rfl

/-- The record, with its stage running under the incarnation of the pass. -/
structure Runs (world : World) (record : Execution) (stage : Stage) (new : Execution) : Prop where
  command : new.command = record.command
  target : new.target = record.target
  running : ∃ observedAt, new.progress = .running stage world.identity observedAt

variable {new : Execution} {stage : Stage}

theorem Runs.begun (h : Runs world record stage new) : new.progress ≠ .accepted := by
  obtain ⟨observedAt, hrunning⟩ := h.running
  rw [hrunning]
  exact nofun

theorem traced_running (hstage : stage = .cleanupCreation → record.progress ≠ .accepted) :
    Traced (Step strict) (Knows record) (running world record stage) fun new s =>
      Runs world record stage new ∧ At new s := by
  refine Traced.draw.bind fun n => (traced_advance ?_).post ?_
  · intro s _ _ hat hbegun hopen hkind
    cases hbegun
    exact .run s record stage _ _ hat hopen hkind hstage
  · rintro new s ⟨rfl, hat⟩
    exact ⟨⟨rfl, rfl, _, rfl⟩, hat⟩

theorem traced_unknown {reason : Failure} (hdoubt : Doubtful strict record) :
    Safe (Step strict) (Knows record) (unknown world record stage reason) := by
  refine Traced.draw.bind fun n => (traced_advance ?_).bind fun _ => .done
  intro s _ _ hat _ hopen _
  exact .doubt s record stage _ _ _ hat hopen hdoubt

theorem traced_complete {result : Result} :
    Safe (Step strict) P (complete checks world record result) := by
  refine Traced.ensure.bind fun _ => traced_stored.bind fun _ => traced_stored.bind fun _ =>
    Traced.get.bind fun db => Traced.ensure.bind fun _ => ?_
  split
  · refine traced_write ?_
    rintro s ⟨⟨rfl, _⟩, _⟩
    exact ⟨.complete _ record result none, trivial⟩
  · rename_i state _
    refine Traced.ensure.bind fun _ => traced_write ?_
    rintro s ⟨⟨⟨rfl, _⟩, _⟩, _⟩
    exact ⟨.complete _ record result (some state), trivial⟩

/-! ### Questions and mutations -/

theorem traced_andThen {α β : Type} {answer : Except Failure α}
    {next : α → Work (Except Failure β)} (h : ∀ a, Traced R P (next a) fun _ => P) :
    Traced R P (andThen answer next) fun _ => P := by
  rw [andThen.eq_def]
  split
  · exact h _
  · exact .pure fun _ hs => hs

theorem traced_verified : Traced R P (verified world command target site) fun answer s =>
    P s ∧ answer = verify world s command target site := by
  refine Traced.get.bind fun db => .pure ?_
  rintro s ⟨rfl, hs⟩
  exact ⟨hs, rfl⟩

theorem traced_inspect : Traced R P (inspect world command target site) fun answer s =>
    P s ∧ (verify world s command target site = .ok () →
      answer = world.observe command.executionId site) := by
  refine traced_verified.bind fun answer => ?_
  split
  · refine .pure ?_
    rintro s ⟨hs, hanswer⟩
    refine ⟨hs, fun hok => ?_⟩
    rw [hok] at hanswer
    cases hanswer
  · exact .pure fun s hs => ⟨hs.1, fun _ => rfl⟩

section

variable {mutation : Mutation} (hruns : Runs world record stage new)
  (hstage : record.command.stageOf mutation = some stage)

include hruns hstage

theorem traced_mutate :
    Traced (Step strict) (At new) (mutate world new.command mutation) fun _ => At new := by
  refine .bind (Q := fun _ => At new) (.note fun s hat => ⟨?_, hat⟩) fun _ =>
    .pure fun _ hs => hs
  obtain ⟨observedAt, hrunning⟩ := hruns.running
  rw [← hruns.command] at hstage
  exact .mutate s new mutation stage _ observedAt hat hstage hrunning

end

/-! ### Creation -/

variable {observed : Observation}

/-- Where the pass goes on after the cleanup: with what it had, or with a record that has begun. -/
def GoesOn (record : Execution) (observed : Observation) (answer : Option (Execution × Observation))
    (db : Database) : Prop :=
  ∀ new after, answer = some (new, after) →
    (new.command = record.command ∧ (new = record ∧ after = observed ∨ new.progress ≠ .accepted)) ∧
      Knows new db

theorem GoesOn.none : GoesOn record observed none db :=
  fun _ _ h => by cases h

theorem GoesOn.runs {observed after : Observation} (hruns : Runs world record stage new)
    (hat : At new db) : GoesOn record observed (some (new, after)) db := by
  rintro _ _ ⟨⟩
  exact ⟨⟨hruns.command, .inr hruns.begun⟩, hat.knows⟩

theorem traced_giveUp {α : Type} {stage at' : Stage} {reason : Failure}
    (hruns : Runs world record stage new) {answer : α} {Q : α → Database → Prop}
    (hQ : ∀ s, Q answer s) :
    Traced (Step strict) (At new) (unknown world new at' reason >>= fun _ => pure answer) Q :=
  ((traced_unknown (.of_begun hruns.begun)).pre fun _ hat => hat.knows).bind fun _ =>
    .pure fun s _ => hQ s

/-- What a pass over an `ensure` that has not begun may find. -/
def Conclusive (target : Target) (observed : Observation) : Prop :=
  observed.absent = true ∨ observed.finished target = true

section Creation

variable (hcommand : record.command = .ensure message)
include hcommand

theorem traced_cleanup (hruns : Runs world record .cleanupCreation new) :
    Traced (Step strict) (At new) (cleanup world new target observed) fun _ => At new := by
  refine traced_verified.bind fun ready => .bind (Q := fun _ => At new) ?_ fun branch => ?_
  · refine (traced_andThen fun _ => ?_).pre fun _ hs => hs.1
    split
    · exact traced_mutate hruns (by rw [hcommand]; rfl)
    · exact .pure fun _ hs => hs
  · refine traced_andThen fun _ => ?_
    split
    · exact traced_mutate hruns (by rw [hcommand]; rfl)
    · exact .pure fun _ hs => hs

theorem traced_cleanupCreation {pass : CreatePass} :
    Traced (Step strict) (Knows record) (cleanupCreation world pass record target observed)
      (GoesOn record observed) := by
  rw [cleanupCreation]
  split
  · rename_i hpass
    have hbegun : record.progress ≠ .accepted := by
      have := hpass.2
      simp only [residual, Bool.and_eq_true, decide_eq_true_eq] at this
      exact this.1.1.1.1
    refine (traced_running fun _ => hbegun).bind fun new => .assume fun hruns => ?_
    refine (traced_cleanup hcommand hruns).bind fun answer => ?_
    split
    · exact traced_giveUp hruns fun _ => .none
    · split
      · exact traced_giveUp hruns fun _ => .none
      · exact .pure fun s hat => .runs hruns hat
  · refine .pure fun s hknows => ?_
    rintro _ _ ⟨⟩
    exact ⟨⟨rfl, .inl ⟨rfl, rfl⟩⟩, hknows⟩

theorem traced_create {again : Execution → Observation → Work Unit}
    (hagain : ∀ new after, Runs world record .create new →
      Safe (Step strict) (Knows new) (again new after)) :
    Safe (Step strict) (Knows record) (create checks world again record target) := by
  refine (traced_running fun h => by cases h).bind fun new => .assume fun hruns => ?_
  refine (traced_verified.bind fun _ => (traced_andThen fun _ =>
    traced_mutate hruns (by rw [hcommand]; rfl)).pre fun _ hs => hs.1).bind fun mutation =>
    traced_inspect.bind fun answer => ?_
  split
  · exact (traced_unknown (.of_begun hruns.begun)).pre fun _ hs => hs.1.knows
  · split
    · exact traced_complete
    · exact (hagain new _ hruns).pre fun _ hs => hs.1.knows

theorem traced_ensureWith {again : Execution → Observation → Work Unit} {pass : CreatePass}
    (hfound : Doubtful strict record ∨ Conclusive target observed)
    (hagain : ∀ new after, new.command = record.command → new.progress ≠ .accepted →
      Safe (Step strict) (Knows new) (again new after)) :
    Safe (Step strict) (Knows record)
      (ensureWith checks world again pass target record observed) := by
  rw [ensureWith]
  split
  · exact traced_complete
  rename_i hunfinished
  refine (traced_cleanupCreation hcommand).bind fun answer => ?_
  split
  · exact .done
  rename_i new after
  refine (Traced.assume ?_).pre fun s hgoes => hgoes new after rfl
  rintro ⟨hsame, hnew⟩
  split
  · refine traced_create (hsame.trans hcommand) fun newer after hruns => ?_
    exact hagain newer after (hruns.command.trans hsame) hruns.begun
  rename_i hpresent
  refine traced_unknown ?_
  rcases hnew with ⟨rfl, rfl⟩ | hbegun
  · rcases hfound with hdoubt | habsent | hfinished
    · exact hdoubt
    · exact absurd habsent hpresent
    · exact absurd hfinished hunfinished
  · exact .of_begun hbegun

theorem traced_ensure (hfound : Doubtful strict record ∨ Conclusive target observed) :
    Safe (Step strict) (Knows record) (ensure checks world .recovery target record observed) := by
  refine traced_ensureWith hcommand hfound fun new after hsame hbegun => ?_
  refine traced_ensureWith (hsame.trans hcommand) (.inl (.of_begun hbegun)) fun _ _ _ _ => ?_
  exact .done

end Creation

/-! ### Removal -/

/-- A removal goes on with its own record. -/
def Continues (record : Execution) (answer : Option Execution) (db : Database) : Prop :=
  ∀ new, answer = some new → new.command = record.command ∧ Knows new db

theorem Continues.none : Continues record none db := fun _ h => by cases h

theorem Continues.same (h : Knows record db) : Continues record (some record) db := by
  rintro _ ⟨⟩
  exact ⟨rfl, h⟩

theorem Continues.runs (hruns : Runs world record stage new) (hat : At new db) :
    Continues record (some new) db := by
  rintro _ ⟨⟩
  exact ⟨hruns.command, hat.knows⟩

section Removal

variable {message : Message} {observed : Observation} {initiallyAbsent : Bool}
  (hcommand : record.command = .remove message)

include hcommand

theorem doubtful_of_remove :
    Doubtful strict record := fun _ hensure => by
  rw [hcommand] at hensure
  cases hensure

theorem traced_removeCheckout :
    Traced (Step strict) (Knows record) (removeCheckout world record target observed)
      (GoesOn record observed) := by
  rw [removeCheckout]
  split
  · refine (traced_running fun h => by cases h).bind fun new => .assume fun hruns => ?_
    refine traced_verified.bind fun ready => .bind (Q := fun _ => At new)
      ((traced_andThen fun _ => traced_mutate hruns (by rw [hcommand]; rfl)).pre fun _ hs => hs.1)
      fun answer => ?_
    split
    · exact traced_giveUp hruns fun _ => .none
    · refine traced_inspect.bind fun answer => ?_
      split
      · exact (traced_giveUp hruns fun _ => .none).pre fun _ hs => hs.1
      · exact .pure fun s hs => .runs hruns hs.1
  · refine .pure fun s hknows => ?_
    rintro _ _ ⟨⟩
    exact ⟨⟨rfl, .inl ⟨rfl, rfl⟩⟩, hknows⟩

theorem traced_removeResidue :
    Traced (Step strict) (Knows record) (removeResidue world record target observed)
      (Continues record) := by
  rw [removeResidue]
  split
  · refine (traced_running fun h => by cases h).bind fun new => .assume fun hruns => ?_
    refine traced_verified.bind fun ready => .bind (Q := fun _ => At new)
      ((traced_andThen fun _ => traced_mutate hruns (by rw [hcommand]; rfl)).pre fun _ hs => hs.1)
      fun answer => ?_
    split
    · exact traced_giveUp hruns fun _ => .none
    · exact .pure fun s hs => .runs hruns hs
  · exact .pure fun s hknows => .same hknows

theorem traced_removeOwnedBranch :
    Traced (Step strict) (Knows record) (removeOwnedBranch world record target observed)
      (Continues record) := by
  rw [removeOwnedBranch]
  split
  · refine (traced_running fun h => by cases h).bind fun new => .assume fun hruns => ?_
    refine traced_inspect.bind fun answer => ?_
    split
    · exact (traced_giveUp hruns fun _ => .none).pre fun _ hs => hs.1
    split
    · refine ((traced_mutate hruns (by rw [hcommand]; rfl)).pre fun _ hs => hs.1).bind
        fun answer => ?_
      split
      · exact traced_giveUp hruns fun _ => .none
      · exact .pure fun s hs => .runs hruns hs
    · exact (traced_giveUp hruns fun _ => .none).pre fun _ hs => hs.1
  · exact .pure fun s hknows => .same hknows

theorem traced_removed :
    Safe (Step strict) (Knows record) (removed checks world record target initiallyAbsent) := by
  refine traced_inspect.bind fun answer => ?_
  split
  · exact (traced_unknown (doubtful_of_remove hcommand)).pre fun _ hs => hs.1
  · split
    · exact traced_complete
    · exact (traced_unknown (doubtful_of_remove hcommand)).pre fun _ hs => hs.1

theorem traced_removeRest :
    Safe (Step strict) (Knows record)
      (removeRest checks world record target observed initiallyAbsent) := by
  rw [removeRest]
  split
  · exact traced_unknown (doubtful_of_remove hcommand)
  refine (traced_removeResidue hcommand).bind fun answer => ?_
  split
  · exact .done
  rename_i new
  refine (Traced.assume fun hsame => ?_).pre fun s hgoes => hgoes new rfl
  refine (traced_removeOwnedBranch (hsame.trans hcommand)).bind fun answer => ?_
  split
  · exact .done
  · rename_i last
    refine (Traced.assume fun hsame' => ?_).pre fun s hgoes => hgoes last rfl
    exact traced_removed ((hsame'.trans hsame).trans hcommand)

theorem traced_remove :
    Safe (Step strict) (Knows record) (remove checks world target record observed) := by
  refine Traced.get.bind fun db => ?_
  split
  · exact .fail
  split
  · exact traced_complete
  split
  · exact (traced_unknown (doubtful_of_remove hcommand)).pre fun _ hs => hs.2
  refine ((traced_removeCheckout hcommand).pre fun _ hs => hs.2).bind fun answer => ?_
  split
  · exact .done
  · rename_i new after
    refine (Traced.assume fun hsame => ?_).pre fun s hgoes => hgoes new after rfl
    exact traced_removeRest (hsame.1.trans hcommand)

end Removal

/-! ### Passes -/

/-- The entry of the pass proves what there is: the target is where the configuration has it, and
nothing of it or the finished worktree is there. -/
def Proven (world : World) (execution : ExecutionId) (target : Target) : Prop :=
  world.locate execution .entry = .ok target.toLocation ∧
    ∃ observed, world.observe execution .entry = .ok observed ∧ Conclusive target observed

/-- A pass over an `ensure` that was only accepted proves what there is. -/
def ProvenEntry (strict : Prop) (world : World) (record : Execution) : Prop :=
  strict → record.command.isEnsure = true → record.progress = .accepted →
    ∀ target, record.target = some target → Proven world record.command.executionId target

theorem traced_drive (hentry : ProvenEntry strict world record) :
    Safe (Step strict) (fun s => Knows record s ∧ Owned s) (drive checks world record) := by
  rw [drive]
  split
  · exact .fail
  rename_i target htarget
  split
  · exact .done
  rename_i stage _
  split
  · split
    · exact .done
    · rename_i hbegun
      exact (traced_unknown (.of_begun hbegun)).pre fun _ hs => hs.1
  rcases hcommand : record.command with message | message
  · -- a record that was only accepted comes with a proof of what there is
    have hfound : ∀ s answer, Owned s → Knows record s →
        (verify world s (.ensure message) target .entry = .ok () →
          answer = world.observe message.executionId .entry) →
        Doubtful strict record ∨ ∃ observed, answer = .ok observed ∧ Conclusive target observed := by
      intro s answer howned hknows hanswer
      by_cases hdoubt : Doubtful strict record
      · exact .inl hdoubt
      simp only [Doubtful, Classical.not_imp, not_not] at hdoubt
      obtain ⟨hstrict, hensure, haccepted⟩ := hdoubt
      obtain ⟨hlocate, observed, hobserved, hconclusive⟩ :=
        hentry hstrict hensure haccepted target htarget
      -- the verification depends on the configuration alone
      have hverify : verify world s record.command target .entry = .ok () := by
        obtain ⟨stored, hstored, hsame, htargets⟩ := hknows
        obtain ⟨resource, hresource, hspec, hkept⟩ :=
          howned _ stored message target hstored (hsame.trans hcommand) (htargets.trans htarget)
        have howns : resource.owns message.spec target = true := by
          rw [Resource.owns, hspec, hkept]
          simp
        have hspecs : record.command.spec = message.spec := by
          rw [hcommand]
          rfl
        simp [verify, hlocate, hspecs, hresource, howns]
      rw [hcommand] at hverify hobserved
      exact .inr ⟨observed, (hanswer hverify).trans hobserved, hconclusive⟩
    refine traced_inspect.bind fun answer => .of_eq fun s hs => ?_
    obtain ⟨⟨hknows, howned⟩, hanswer⟩ := hs
    have hthere := hfound s answer howned hknows hanswer
    have hpre : ∀ t, t = s → Knows record t := by
      rintro _ rfl
      exact hknows
    split
    · refine (traced_unknown ?_).pre hpre
      rcases hthere with hdoubt | ⟨_, heq, _⟩
      · exact hdoubt
      · cases heq
    · refine (traced_ensure hcommand ?_).pre hpre
      rcases hthere with hdoubt | ⟨_, heq, hconclusive⟩
      · exact .inl hdoubt
      · cases heq
        exact .inr hconclusive
  · refine traced_inspect.bind fun answer => ?_
    split
    · exact (traced_unknown (doubtful_of_remove hcommand)).pre fun _ hs => hs.1.1
    · exact (traced_remove hcommand).pre fun _ hs => hs.1.1

theorem traced_accept :
    Traced (Step strict) (fun s => s.existing command = .ok none)
      (accept checks world command target) fun new s =>
        new = ⟨command, some target, .accepted⟩ ∧ Knows new s := by
  refine traced_checked.bind fun _ => Traced.get.bind fun db => Traced.ensure.bind fun _ => ?_
  split
  · exact .fail
  · rename_i hexisting
    refine .vacuous ?_
    rintro s ⟨⟨rfl, hnew⟩, _⟩
    rw [hnew] at hexisting
    cases hexisting
  · rename_i hexisting
    refine Traced.ensure.bind fun _ =>
      .bind (Q := fun _ => Knows ⟨command, some target, .accepted⟩) ?_ fun _ =>
        .pure fun _ hs => ⟨rfl, hs⟩
    refine traced_write ?_
    rintro s ⟨⟨⟨rfl, _⟩, _⟩, hfree⟩
    have hnew := lookup_of_existing hexisting
    refine ⟨.accept _ command target hnew hfree, At.knows ?_⟩
    rw [At, lookup_insert, hnew, if_pos rfl]
    rfl

theorem traced_reject {result : Result} :
    Safe (Step strict) P (reject checks world command result) := by
  refine traced_checked.bind fun _ => Traced.get.bind fun db => Traced.ensure.bind fun _ => ?_
  split
  · exact .fail
  · exact .fail
  · rename_i hexisting
    refine traced_stored.bind fun _ => Traced.ensure.bind fun _ => traced_write ?_
    rintro s ⟨⟨⟨rfl, _⟩, _⟩, _⟩
    exact ⟨.reject _ command result (lookup_of_existing hexisting), trivial⟩

theorem traced_refuse {reason : Failure} :
    Safe (Step strict) P (refuse checks world command reason) :=
  traced_reject.bind fun _ => .done

theorem traced_driveNew (hentry : ProvenEntry strict world record) :
    Safe (Step strict) (fun s => Knows record s ∧ Owned s) (driveNew checks world record) := by
  refine (traced_drive hentry).bind fun _ => Traced.get.bind fun db => ?_
  split
  · exact .done
  · exact .fail
  · exact .fail

/-- A new `ensure` proves what there is when it is driven for the first time. -/
def ProvenSubmit (world : World) (db : Database) (command : Command) : Prop :=
  command.isEnsure = true → ∀ target, resolve world db command = .ok target →
    Proven world command.executionId target

theorem traced_submit (hP : ∀ s, P s → Owned s ∧ (strict → ProvenSubmit world s command)) :
    Safe (Step strict) P (submit checks world command) := by
  refine traced_checked.bind fun _ => Traced.ensure.bind fun _ => Traced.get.bind fun db => ?_
  split
  · exact .fail
  · exact .done
  rename_i hexisting
  refine Traced.ensure.bind fun _ => ?_
  split
  · exact traced_refuse
  rename_i target htarget
  refine .of_eq ?_
  rintro s ⟨⟨rfl, hs, _⟩, _⟩
  obtain ⟨howned, hproven⟩ := hP _ hs
  have hentry : ProvenEntry strict world ⟨command, some target, .accepted⟩ := by
    rintro hstrict hensure _ _ ⟨⟩
    exact hproven hstrict hensure target htarget
  have haccept : Traced (Step strict) (fun s => s.existing command = .ok none ∧ Owned s)
      (.attempt (accept checks world command target) : Work _) fun result s =>
        Owned s ∧ ∀ new, result = .ok new →
          new = ⟨command, some target, .accepted⟩ ∧ Knows new s :=
    (traced_accept.pre fun _ h => h.1).attempt (fun _ h => h.2) fun _ _ _ h hstep =>
      hstep.owned h
  refine (haccept.pre ?_).bind fun result => ?_
  · rintro _ rfl
    exact ⟨hexisting, howned⟩
  · split
    · rename_i new
      refine .of_eq ?_
      rintro t ⟨howned, hresult⟩
      obtain ⟨rfl, hknows⟩ := hresult new rfl
      refine (traced_driveNew hentry).pre ?_
      rintro _ rfl
      exact ⟨hknows, howned⟩
    · exact traced_refuse
    · exact .fail

/-- Every record of the list comes with a proof of what there is. -/
theorem traced_driveAll {records : List Execution}
    (hentry : ∀ record ∈ records, ProvenEntry strict world record) :
    Safe (Step strict) (fun s => Owned s ∧ ∀ record ∈ records, Knows record s)
      (driveAll checks world records) := by
  induction records with
  | nil => exact .done
  | cons record rest ih =>
    obtain ⟨hfirst, hrest⟩ := List.forall_mem_cons.mp hentry
    rw [driveAll]
    split
    · have hkeep : ∀ s o t, (Owned s ∧ ∀ record ∈ rest, Knows record s) → Step strict s o t →
          Owned t ∧ ∀ record ∈ rest, Knows record t := by
        rintro s o t ⟨howned, hknows⟩ hstep
        exact ⟨hstep.owned howned, fun record hrecord => hstep.knows (hknows record hrecord)⟩
      refine (((traced_drive hfirst).keep hkeep).pre ?_).bind fun _ => (ih hrest).pre fun _ hs => hs.2
      rintro s ⟨howned, hknows⟩
      obtain ⟨hrecord, hothers⟩ := List.forall_mem_cons.mp hknows
      exact ⟨⟨hrecord, howned⟩, howned, hothers⟩
    · exact .done

/-- A call that drives an `ensure` that was only accepted proves what there is. -/
def ProvenCall (world : World) (db : Database) : Call → Prop
  | .submit command => ProvenSubmit world db command
  | .recover => ∀ record ∈ db.executions, ProvenEntry True world record
  | .elsewhere _ _ => True

theorem traced_serve {call : Call}
    (hP : ∀ s, P s → Owned s ∧ Distinct s ∧ (strict → ProvenCall world s call)) :
    Safe (Step strict) P (serve checks world call) := by
  cases call with
  | submit command =>
    refine (traced_submit fun s hs => ?_).bind fun _ => .done
    exact ⟨(hP s hs).1, (hP s hs).2.2⟩
  | recover =>
    refine .bind (Q := fun _ _ => True) (Traced.get.bind fun db => .of_eq ?_) fun _ =>
      .done
    rintro s ⟨rfl, hs⟩
    obtain ⟨howned, hdistinct, hproven⟩ := hP _ hs
    refine (traced_driveAll ?_).pre ?_
    · intro record hrecord hstrict
      exact hproven hstrict record (List.mem_of_mem_filter hrecord) trivial
    · rintro _ rfl
      refine ⟨howned, fun record hrecord => ?_⟩
      exact At.knows (hdistinct.lookup (List.mem_of_mem_filter hrecord))
  | elsewhere others clonePaths =>
    refine Traced.get.bind fun db => .bind (Q := fun _ _ => True) (.commit ?_) fun _ =>
      .done
    rintro s ⟨rfl, _⟩
    exact ⟨.elsewhere _ others clonePaths, trivial⟩

end Traced

end Worktree

end OraDesktop.Node
