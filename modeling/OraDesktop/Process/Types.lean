import OraDesktop.Lib.OrderedMap

/-!
# Processes under a guardian: the shared vocabulary

A *Run* is one attempt to execute a specification, a *Scope* a group of Runs that is closed as a
whole. What is known about a Run is kept apart by source: whether it was launched at all, what
became of the directly launched process, and whether everything it left behind is gone.

Identities are the numeric value of the source's UUIDs, which is also the order of its maps. Times
and durations are nanoseconds.
-/

namespace OraDesktop.Process

abbrev RunId := Nat
abbrev ScopeId := Nat
abbrev Duration := Nat

/-- A reading of the monotonic clock. -/
abbrev Instant := Nat

/-- The last instant there is: the clock counts whole seconds in an `i64`. -/
def Instant.last : Instant := (2 ^ 63 - 1) * 10 ^ 9 + 999999999

def Instant.checkedAdd (now : Instant) (timeout : Duration) : Option Instant :=
  if now + timeout ≤ Instant.last then some (now + timeout) else none

/-! ### Specifications -/

inductive DescendantPolicy where
  | cleanup (grace : Duration)
  | waitForAll
  deriving DecidableEq

inductive OutputPolicy where
  | discard
  | capture (stdoutLimit stderrLimit : Nat)
  deriving DecidableEq

inductive RunLifetime where
  | independent
  | terminateOnOwnerExit (pid startTicks : Nat)
  deriving DecidableEq

structure RunSpec where
  program : String
  args : List String
  cwd : String
  env : List (String × String)
  descendants : DescendantPolicy
  output : OutputPolicy
  lifetime : RunLifetime
  deriving DecidableEq

def RunSpec.new (program cwd : String) (descendants : DescendantPolicy) : RunSpec where
  program := program
  args := []
  cwd := cwd
  env := []
  descendants := descendants
  output := .discard
  lifetime := .independent

/-! ### Evidence -/

inductive LaunchFact where
  | notStarted (reason : String)
  | started
  | unknown (reason : String)
  deriving DecidableEq

inductive ExitOutcome where
  | code (value : Int)
  | signal (value : Int)
  | unknown
  deriving DecidableEq

inductive DirectProcessState where
  | notStarted
  | running
  | exited (outcome : ExitOutcome)
  | unknown
  deriving DecidableEq

def DirectProcessState.isExited : DirectProcessState → Bool
  | .exited _ => true
  | _ => false

inductive CleanupEvidence where
  | confirmedQuiescence
  | bestEffortComplete
  deriving DecidableEq

inductive CleanupState where
  | pending
  | blocked (reason : String)
  | complete (evidence : CleanupEvidence)
  deriving DecidableEq

def CleanupState.isComplete : CleanupState → Bool
  | .complete _ => true
  | _ => false

inductive ScopeState where
  | «open»
  | closing
  | closed (evidence : CleanupEvidence)
  deriving DecidableEq

def ScopeState.isClosed : ScopeState → Bool
  | .closed _ => true
  | _ => false

structure RunSnapshot where
  id : RunId
  launch : LaunchFact
  direct : DirectProcessState
  cleanup : CleanupState
  deriving DecidableEq

/-! ### Requests -/

inductive StopRequest where
  | wait (timeout : Duration)
  | notifyThenWait (timeout : Duration)
  | force

inductive ContainmentRequest where
  | requireStrong
  | preferStrong
  | bestEffort

inductive ContainmentGuarantee where
  | strong
  | bestEffort

/-! ### The platform -/

inductive PlatformCapabilities where
  | unavailable
  | bestEffortOnly
  | strongOnly
  | strongAndBestEffort

/-- An operational failure, with its text. It says nothing about whether the operation took
place. -/
abbrev PlatformError := String

inductive ContainmentObservation where
  | occupied
  | empty
  | unknown
  deriving DecidableEq

structure PlatformObservation where
  direct : DirectProcessState
  containment : ContainmentObservation

inductive StopSignal where
  | requestExit
  | force
  deriving DecidableEq

inductive SpawnError where
  | notStarted (reason : String)
  | unknown (reason : String)

/-- What the platform answers while one operation runs. No operation asks about a Run twice, so a
platform that changes its mind between two operations is a different `Platform` for the second. -/
structure Platform where
  spawn : RunId → RunSpec → ContainmentGuarantee → Except SpawnError Unit
  observe : RunId → Except PlatformError PlatformObservation
  signal : RunId → StopSignal → Except PlatformError Unit

end OraDesktop.Process
