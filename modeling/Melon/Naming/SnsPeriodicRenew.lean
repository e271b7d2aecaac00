/-
Melon.Naming.SnsPeriodicRenew — the model of `SnsNamingClient::periodic_renew`
(`src/melon/naming/consul_naming_service.cc`), the fiber that
`register_peer` starts to keep the peer registered.

* `RenewAct` — what the fiber does that the discovery server or the log
  sees: `fiber_usleep`, the warning before it re-registers,
  `do_register()` and `do_renew()` with whether each returned 0.
* `RenewPc`, `RenewFiber` — where the fiber is, `consecutive_renew_error`,
  and what it has done so far.
* `RenewFiber.step` — one step, given the answer to the one question the
  fiber asks there: whether the first `fiber_usleep` failed with `ESTOP`,
  whether `fiber_stopped(fiber_self())` is true, or whether the call
  returned 0. `RenewFiber.run` — the steps for a list of answers.

`threshold` is `FLAGS_sns_reregister_threshold`, read at each loop head.
The durations of the sleeps, and the return value of the sleeps the code
does not read, are left out. `consecutive_renew_error` is an `int`: its
`++` wraps from `INT_MAX` to `INT_MIN` (`toCInt`), as gcc's code does.
-/
import Melon.Base.Libc

namespace Melon.Naming

/-- What `periodic_renew` does that the discovery server or the log sees. -/
inductive RenewAct
  /-- `fiber_usleep(...)`. -/
  | sleep
  /-- `LOG(WARNING) << "Re-register since discovery renew error threshold reached"`. -/
  | warn
  /-- `sns->do_register()`, and whether it returned 0. -/
  | register (ok : Bool)
  /-- `sns->do_renew()`, and whether it returned 0. -/
  | renew (ok : Bool)
  deriving DecidableEq, Repr

/-- Where `periodic_renew` is. -/
inductive RenewPc
  /-- Before the first `fiber_usleep`. -/
  | start
  /-- At `while (!fiber_stopped(fiber_self()))`. -/
  | loop
  /-- At the inner `while (!fiber_stopped(fiber_self()))` that re-registers. -/
  | reregister
  /-- About to call `sns->do_register()`. -/
  | register
  /-- About to call `sns->do_renew()`. -/
  | renew
  /-- Returned. -/
  | done
  deriving DecidableEq, Repr

/-- The renewal fiber: where it is, `consecutive_renew_error`, and what it
has done, in order. -/
structure RenewFiber where
  pc : RenewPc
  consecutiveRenewError : Int
  trace : List RenewAct
  deriving DecidableEq, Repr

namespace RenewFiber

/-- The fiber `fiber_start_background` starts. -/
def init : RenewFiber := ⟨.start, 0, []⟩

/-- One step of `periodic_renew`, given the answer `b` to what it asks
next. -/
def step (threshold : Int) (f : RenewFiber) (b : Bool) : RenewFiber :=
  match f.pc with
  | .start => { f with pc := if b then .done else .loop, trace := f.trace ++ [.sleep] }
  | .loop =>
    if b then { f with pc := .done }
    else if f.consecutiveRenewError = threshold then { f with pc := .reregister, trace := f.trace ++ [.warn] }
    else { f with pc := .renew }
  | .reregister =>
    if b then { f with pc := .renew, consecutiveRenewError := 0 } else { f with pc := .register }
  | .register =>
    if b then { f with pc := .renew, consecutiveRenewError := 0, trace := f.trace ++ [.register true] }
    else { f with pc := .reregister, trace := f.trace ++ [.register false, .sleep] }
  | .renew =>
    if b then { f with pc := .loop, consecutiveRenewError := 0, trace := f.trace ++ [.renew true, .sleep] }
    else
      { f with
        pc := .loop, consecutiveRenewError := Melon.Base.toCInt (f.consecutiveRenewError + 1),
        trace := f.trace ++ [.renew false] }
  | .done => f

/-- The steps of `periodic_renew` for the answers, in order. -/
def run (threshold : Int) (f : RenewFiber) (answers : List Bool) : RenewFiber :=
  answers.foldl (step threshold) f

end RenewFiber

end Melon.Naming
