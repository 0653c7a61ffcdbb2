import Sidecar.Coordinator.Pipeline

namespace Sidecar.Coordinator

/-- The steps of `wait_for_dependencies` between two points where other tasks may run. A
notified future exists from `select` on; a notification before that is not seen. -/
inductive WaitPc where
  | check
  | deadline
  | clone
  | create
  | select (woken : Bool)
  | done (result : Bool)
  deriving DecidableEq

/-- One step of the wait. `expired` is what the clock says; `wake` is the branch that the
final `select!` takes, of those that are ready. The deadline branch does not look at the
mailbox again. -/
def waitStep (id : InstanceId) (deps : List CrossRollupDependency) (expired wake : Bool)
    (st : CoordinatorState) : WaitPc → Option (CoordinatorState × WaitPc)
  | .check =>
    let (st', added) := fulfillDependenciesFromMailbox st id deps
    some (st', if 0 < added then .done true else .deadline)
  | .deadline => some (st, if expired then .done false else .clone)
  | .clone => some (st, .create)
  | .create => some (st, .select false)
  | .select woken =>
    if wake then if woken then some (st, .check) else none
    else if expired then some (st, .done false)
    else none
  | .done _ => none

/-- What `notify_waiters` does to a wait: only a future that exists already is woken. -/
def WaitPc.notified : WaitPc → WaitPc
  | .select _ => .select true
  | pc => pc

end Sidecar.Coordinator
