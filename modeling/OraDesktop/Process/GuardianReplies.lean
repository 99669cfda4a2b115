import OraDesktop.Process.GuardianSteps

/-!
# Guardian calls and their replies

An operation that fails is answered with its rejection. The one rejection a host draws a conclusion
from is *unknown Run* in answer to a stop: it is given only where the Run has no row, since
everything else an operation can fail with is a failure of the journal.

## Main results

* `blames_reconcile` — a reconciliation fails only where the journal does
* `traced_serve` — every call is a path of steps, only the start of a Run by the bound host accepts
  and spawns it, and the reply says what the journal says
-/

namespace OraDesktop.Process

namespace Guardian

open Journal Blames

variable {ε : Type} {guardian after first : Guardian} {event : GuardianEvent} {run : RunId}
  {frame : Frame} {world : GuardianWorld} {P : Guardian → Prop}

/-! ### Rejections -/


/-- The errors of a procedure that only fails where the journal does. -/
def Unavailable (reason : GuardianRunRejection) (_ : Guardian) : Prop :=
  reason = .storageUnavailable

theorem blames_read {α : Type} {f : GuardianStore → α} :
    Blames P (read world .storageUnavailable f) Unavailable :=
  draw.bind_any fun _ => .bind_any .get fun _ => by
    split
    · exact .pure
    · exact .fail fun _ _ => rfl

theorem blames_write {f : GuardianStore → GuardianStore} :
    Blames P (write world .storageUnavailable f) Unavailable :=
  draw.bind_any fun n => .bind_any .get fun _ => by
    cases world.writes n with
    | written => exact .commit
    | lost => exact .fail fun _ _ => rfl
    | kept | stuck pending => exact commit.bind_any fun _ => .fail fun _ _ => rfl

theorem blames_remember {f : Guardian → Guardian} :
    Blames P (remember f : Work GuardianRunRejection Unit) Unavailable :=
  .bind_any .get fun _ => .commit

theorem blames_forceStop : Blames P (forceStop world run) Unavailable :=
  draw.bind_any fun _ => .bind_any .get fun _ => commit.bind_any fun _ => by
    split
    · exact .pure
    · exact .fail fun _ _ => rfl

theorem blames_restoreStop : Blames P (restoreStop world run) Unavailable :=
  blames_read.bind_any fun row => by
    cases row with
    | none => exact .fail fun _ _ => rfl
    | some row => exact .whenever fun _ => blames_forceStop

theorem blames_saveSnapshot : Blames P (saveSnapshot frame world run) Unavailable :=
  .bind_any .get fun _ => by
    split
    · exact .fail fun _ _ => rfl
    · exact (ensure fun _ _ _ => rfl).bind_any fun _ => blames_write

theorem blames_restoreStopIntents : Blames P (restoreStopIntents world) Unavailable := by
  refine .bind_any .get fun _ => (ensure fun _ _ _ => rfl).bind_any fun _ =>
    blames_read.bind_any fun _ => (whenever fun _ => ?_).bind_any fun _ =>
      .forM fun _ => blames_restoreStop
  refine draw.bind_any fun _ => .bind_any .get fun _ => commit.bind_any fun _ => ?_
  split
  · exact .pure
  · exact .fail fun _ _ => rfl

theorem blames_reconcile : Blames P (reconcile frame world) Unavailable := by
  refine .bind_any .get fun _ => .whenever fun _ => ?_
  refine .bind_attempt (p := (· = .storageUnavailable)) blames_restoreStopIntents
    fun intents hintents => draw.bind_any fun _ => blames_remember.bind_any fun _ => ?_
  cases intents with
  | error reason => exact .fail fun _ _ => hintents reason rfl
  | ok =>
    exact .bind_any .get fun _ => (Blames.forM fun _ => blames_saveSnapshot).bind_any fun _ =>
      blames_read.bind_any fun _ => .bind_any .get fun _ => .whenever fun _ =>
        blames_write.bind_any fun _ => blames_remember

/-- An answer *unknown Run* means that the Run has no row. -/
def Missing (run : RunId) (reason : GuardianRunRejection) (guardian : Guardian) : Prop :=
  reason = .unknownRun → guardian.store.rows[run]? = none

theorem Unavailable.missing {reason : GuardianRunRejection} (h : Unavailable reason guardian) :
    Missing run reason guardian := fun hunknown => by
  rw [show reason = .storageUnavailable from h] at hunknown
  cases hunknown

theorem blames_snapshot (hP : ∀ s, P s → Ready s) :
    Blames P (snapshot world run) (Missing run) := by
  refine (blames_read.mono fun _ _ => Unavailable.missing).bind (R := fun _ _ _ => True)
    (Q := fun row s => row = s.store.rows[run]?)
    (traced_read fun s hs => by rw [view_eq_store (hP s hs).auto]) fun row => ?_
  cases row with
  | none => exact .fail fun s hs _ => hs.symm
  | some row => exact .pure

theorem blames_applyRun_stop :
    Blames (fun s => first = s ∧ Sound s) (applyRun frame world (.stop run)) (Missing run) := by
  refine .bind .get (R := Quiet) Traced.get fun guardian => ?_
  refine .bind (Q := fun _ => Ready) (R := Quiet)
    (ensure fun s _ _ => Unavailable.missing rfl) (Traced.ensure.post ?_) fun _ => ?_
  · rintro _ s ⟨⟨rfl, rfl, hsound⟩, hauto⟩
    exact ⟨hsound, Option.isNone_iff_eq_none.mp hauto⟩
  · refine .bind ?_ traced_requestStop fun _ => ?_
    · exact (blames_snapshot fun _ hs => hs).bind_any fun _ =>
        blames_write.mono fun _ _ => Unavailable.missing
    · refine (blames_reconcile.mono fun _ _ => Unavailable.missing).bind
        (traced_reconcile fun s hs => hs.sound) fun _ => ?_
      exact (blames_snapshot fun s hs => hs.elim id id).bind_any fun _ => .pure

/-! ### Whole calls -/

/-- The commits of a call: only the start of a Run by the bound host accepts it and spawns it. -/
def CallStep (first : Guardian) (call : Call) (guardian : Guardian) (event : GuardianEvent)
    (after : Guardian) : Prop :=
  Quiet guardian event after ∨ ∃ channel request run spec, call = .run channel request ∧
    request.operation = .start run spec ∧ request.session.host = first.store.host ∧
    first.store.rows[run]? = none ∧ Starts first.store.host run spec guardian event after

theorem CallStep.step {call : Call} (h : CallStep first call guardian event after) :
    Step guardian event after := by
  obtain h | ⟨_, _, run, spec, _, _, _, _, h⟩ := h
  · exact .inl h
  · exact .inr ⟨_, run, spec, h⟩

/-- What a reply says of the guardian when the call ends; the operation ran for the host that was
bound when it began, unless the reply says otherwise. -/
def Replies (first last : Guardian) : Call → Reply → Prop
  | .management _ _, .management (.bound _ session) => session.host = last.store.host
  | .run _ request, .run reply => Answers last request.operation reply.result ∧
    ((∃ reason, reply.result = .rejected (.management reason)) ∨
      request.session.host = first.store.host)
  | _, _ => True

theorem traced_executeOperation (first : Guardian) (operation : GuardianRunOperation) :
    Traced (OperationStep first operation) (fun s => first = s ∧ Sound s)
      (executeOperation frame world operation : Work ε GuardianRunResult) fun result s =>
        Sound s ∧ Answers s operation result := by
  refine .bind ((traced_applyRun operation).attempt_blames (I := Sound)
    (E := fun reason s => ∀ run, operation = .stop run → Missing run reason s)
    (fun s hs => hs.2) (fun _ _ _ hs hstep => hstep.step.sound hs) ?_) fun result => ?_
  · rintro s n hs reason hreason run rfl
    exact blames_applyRun_stop s n hs reason hreason
  cases result with
  | ok result => exact .pure fun s hs => hs.2.1 result rfl
  | error reason => exact .pure fun s hs => ⟨hs.1, hs.2.2 reason rfl⟩

theorem traced_executeRun (channel : GuardianChannel) (request : GuardianRunRequest) :
    Traced (CallStep first (.run channel request)) (fun s => first = s ∧ Sound s)
      (executeRun frame world channel request : Work ε GuardianRunReply) fun reply s =>
        Sound s ∧ Replies first s (.run channel request) (.run reply) := by
  refine Traced.get.bind fun guardian => ?_
  split
  · exact .pure fun s hs => ⟨hs.2.2, fun _ _ => nofun, .inl ⟨_, rfl⟩⟩
  have hinspect : Traced (fun _ _ _ => False) (fun s => guardian = s ∧ first = s ∧ Sound s)
      (applyManagement world channel (.inspect request.session)) _ :=
    (traced_inspect channel request.session).pre fun s hs => hs.2
  refine .bind ((hinspect.attempt (I := Sound) (fun s hs => hs.2.2)
    fun _ _ _ _ hstep => hstep.elim).mono fun _ _ _ hstep => hstep.elim) fun inspected => ?_
  cases inspected with
  | error reason => exact .pure fun s hs => ⟨hs.1, fun _ _ => nofun, .inl ⟨_, rfl⟩⟩
  | ok reply =>
    by_cases hsession : request.session.host = first.store.host
    · refine .bind (Q := fun result s => Sound s ∧ Answers s request.operation result) ?_
        fun _ => .pure fun s hs => ⟨hs.1, hs.2, .inr hsession⟩
      refine ((traced_executeOperation first request.operation).pre ?_).mono ?_
      · exact fun s hs => (hs.2 reply rfl).1
      · rintro s event t (hstep | ⟨run, spec, hstart, hnew, hstarts⟩)
        · exact .inl hstep
        · exact .inr ⟨channel, request, run, spec, rfl, hstart, hsession, hnew, hstarts⟩
    · exact .vacuous fun s hs => hsession (hs.2 reply rfl).2

/-- Every call is a path of steps, and its reply says what the journal says. -/
theorem traced_serve (first : Guardian) (call : Call) :
    Traced (CallStep first call) (fun s => first = s ∧ Sound s) (serve frame world call)
      fun reply s => Sound s ∧ Replies first s call reply := by
  cases call with
  | management channel operation =>
    refine .bind (Q := fun reply s => Sound s ∧ ∀ intent session,
      reply = .bound intent session → session.host = s.store.host) ?_ fun reply => .pure ?_
    · refine .bind ((((traced_applyManagement channel operation).pre fun s hs => hs.2).attempt
        (I := Sound) (fun s hs => hs.2) fun _ _ _ hs hstep => hstep.sound hs).mono
        fun _ _ _ => .inl) fun result => ?_
      cases result with
      | ok reply => exact .pure fun s hs => hs.2 reply rfl
      | error reason => exact .pure fun s hs => ⟨hs.1, nofun⟩
    · rintro s ⟨hsound, hbound⟩
      refine ⟨hsound, ?_⟩
      cases reply with
      | bound intent session => exact hbound intent session rfl
      | current _ _ _ => trivial
      | rejected _ => trivial
  | run channel request =>
    exact (traced_executeRun channel request).bind fun _ => .pure fun s hs => hs
  | reconcile =>
    exact ((((traced_reconcile (P := fun s => first = s ∧ Sound s) fun s hs => hs.2).post
      (Q := fun _ _ => True) fun _ _ _ => trivial).attempt (I := Sound) (fun s hs => hs.2)
      fun _ _ _ hs hstep => hstep.sound hs).mono fun _ _ _ => .inl).bind fun _ =>
        .pure fun s hs => ⟨hs.1, trivial⟩

end Guardian

end OraDesktop.Process
