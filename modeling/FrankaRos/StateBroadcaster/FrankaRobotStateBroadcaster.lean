/-
# StateBroadcaster.FrankaRobotStateBroadcaster -- a publisher behind a condition variable

`update` fills the message and tells a thread of its own, `publishRunner`, to publish
it; the destructor tells the thread to end and joins it.  Both write a flag and notify
a condition variable, and neither holds the mutex under which the thread looks at the
flags.

The model interleaves two threads at the granularity of flag accesses, lock operations
and operations of the condition variable: `publishRunner`, and its owner, which calls
`update` any number of times and destroys the object at last.  An event is one action;
an action that is not possible yet leaves the state as it is.
-/
import FrankaRos.Theory.Run

namespace FrankaRos.StateBroadcaster

open FrankaRos.Theory

set_option autoImplicit false

inductive Thread where
  | runner
  | owner
  deriving DecidableEq, Repr

/-- The next action of `publishRunner`. -/
inductive Runner where
  /-- read `is_publish_thread_running_`, the loop's condition -/
  | loopCheck
  /-- lock `publish_mutex_` -/
  | lock
  /-- read `publish_now_`, the first half of the predicate of `wait` -/
  | readPublishNow
  /-- read `is_publish_thread_running_`, the second half -/
  | readRunning
  /-- release the mutex and block, in one action -/
  | block
  /-- nothing: waiting to be notified -/
  | blocked
  /-- lock the mutex again -/
  | relock
  /-- read `publish_now_` behind `wait` -/
  | bodyCheck
  | publish
  /-- write `publish_now_ = false` -/
  | clear
  | unlock
  /-- nothing: the thread has returned -/
  | exited
  deriving DecidableEq, Repr

/-- The next action of the owner. -/
inductive Owner where
  /-- nothing, until a function is called -/
  | idle
  /-- in `update`: lock `publish_mutex_` -/
  | lock
  /-- read the state into the message, and unlock -/
  | fill
  /-- write `publish_now_ = true` -/
  | setPublishNow
  | notify
  /-- in the destructor: write `is_publish_thread_running_ = false` -/
  | clearRunning
  | notifyLast
  /-- wait for the thread to return -/
  | join
  /-- nothing: the object is gone -/
  | destroyed
  deriving DecidableEq, Repr

/-- `FrankaRobotStateBroadcaster`: the flags, who holds `publish_mutex_`, and the threads. -/
structure FrankaRobotStateBroadcaster where
  publishNow : Bool
  isPublishThreadRunning : Bool
  publishMutex : Option Thread
  runner : Runner
  owner : Owner
  deriving DecidableEq, Repr

inductive Event where
  /-- the next action of `publishRunner` -/
  | runner
  /-- `wait` wakes up without having been notified -/
  | spuriousWakeup
  /-- `update` is called; `locked` is what `trylock` of the realtime publisher returns -/
  | update (locked : Bool)
  /-- the destructor is called -/
  | destroy
  /-- the owner's next action; `values` is what `get_values_as_message` returns -/
  | owner (values : Bool)
  deriving DecidableEq, Repr

namespace FrankaRobotStateBroadcaster

/-- The object when the constructor has started the thread. -/
def constructed : FrankaRobotStateBroadcaster := ⟨false, true, none, .loopCheck, .idle⟩

/-- `publishRunner`. -/
def publishRunner (s : FrankaRobotStateBroadcaster) : FrankaRobotStateBroadcaster :=
  match s.runner with
  | .loopCheck => { s with runner := if s.isPublishThreadRunning then .lock else .exited }
  | .lock =>
      if s.publishMutex = none then
        { s with publishMutex := some .runner, runner := .readPublishNow }
      else s
  | .readPublishNow => { s with runner := if s.publishNow then .bodyCheck else .readRunning }
  | .readRunning => { s with runner := if s.isPublishThreadRunning then .block else .bodyCheck }
  | .block => { s with publishMutex := none, runner := .blocked }
  | .blocked => s
  | .relock =>
      if s.publishMutex = none then
        { s with publishMutex := some .runner, runner := .readPublishNow }
      else s
  | .bodyCheck => { s with runner := if s.publishNow then .publish else .clear }
  | .publish => { s with runner := .clear }
  | .clear => { s with publishNow := false, runner := .unlock }
  | .unlock => { s with publishMutex := none, runner := .loopCheck }
  | .exited => s

/-- `notify_all` wakes the thread only if it is already waiting. -/
def notifyAll (s : FrankaRobotStateBroadcaster) : FrankaRobotStateBroadcaster :=
  if s.runner = .blocked then { s with runner := .relock } else s

/-- The actions of `update` and of the destructor. -/
def ownerAction (values : Bool) (s : FrankaRobotStateBroadcaster) : FrankaRobotStateBroadcaster :=
  match s.owner with
  | .idle => s
  | .lock =>
      if s.publishMutex = none then { s with publishMutex := some .owner, owner := .fill } else s
  | .fill =>
      { s with publishMutex := none, owner := if values then .setPublishNow else .idle }
  | .setPublishNow => { s with publishNow := true, owner := .notify }
  | .notify => { s.notifyAll with owner := .idle }
  | .clearRunning => { s with isPublishThreadRunning := false, owner := .notifyLast }
  | .notifyLast => { s.notifyAll with owner := .join }
  | .join => if s.runner = .exited then { s with owner := .destroyed } else s
  | .destroyed => s

def step (s : FrankaRobotStateBroadcaster) : Event → FrankaRobotStateBroadcaster
  | .runner => s.publishRunner
  | .spuriousWakeup => s.notifyAll
  | .update locked =>
      if s.owner = .idle ∧ locked = true then { s with owner := .lock } else s
  | .destroy => if s.owner = .idle then { s with owner := .clearRunning } else s
  | .owner values => s.ownerAction values

end FrankaRobotStateBroadcaster

end FrankaRos.StateBroadcaster
