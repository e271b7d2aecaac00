/-
Melon.Metrics.Collector — the model of `melon::Collector`
(`src/unnamed/part_009`, `melon/metrics/collector`): the thread that grabs
the samples submitted through `Collected::submit`, drops them when the
dump thread falls behind, and hands the rest to the thread that dumps
them; and `update_speed_limit`, which sets how often samples are taken.

* `sizeT` — a value converted to `size_t`: modulo `2 ^ 64`.
* `CollectorSpeedLimit`, `updateSpeedLimit`,
  `isCollectableBeforeFirstTimeGrabbed` — the fields of a speed limit the
  two functions read and write, and the two functions, with
  `get_current_time_micros()` given as `now`.
* `CollectorEnv` — `FLAGS_variable_collector_max_pending_samples`, the
  preprocessor of each sample (its address, `0` for `nullptr`) and what
  each `CollectorPreprocessor::process` makes of its samples.
* `prepKeys`, `prepare` — the grouping of one round's samples by
  preprocessor in `grab_thread`: the groups in the order `std::map`
  iterates them, each passed through its preprocessor.
* `GrabLimits` — `ngrab_map`, `last_ngrab_map` and
  `last_before_update_sl` of `grab_thread`, and the speed limits they are
  kept for; `GrabLimits.update` is the loop over `ngrab_map` that ends
  each round.
* `Collector` — `_ngrab`, `_ndrop`, `_ndump`, `_dump_root`, `_stop`,
  `_last_active_cpuwide_us`, the reducer's samples, where each thread is,
  the `root` lists of both threads, the speed-limit bookkeeping, and which
  samples were submitted, counted this round, dropped and dumped (history
  the code does not keep).
* `submit`, `grabStep`, `dumpStep`, `destroy`, `step`, `run` — one call of
  `Collected::submit`, one step of `grab_thread`, one step of
  `dump_thread`, the destructor's `_stop = true`, one call of
  `is_collectable_before_first_time_grabbed` from a sampling thread, and
  runs of them in any interleaving.

Each step of a thread is one round of its loop body between two accesses
to shared state: taking the reducer's samples, counting one sample,
handing the round's samples over under `_dump_thread_mutex`, taking them
under that mutex, dumping one sample. The reducer (`*d << this` and
`this->reset()`) is taken to append and to take everything atomically,
in order; the agent combiner it is built on is modelled in
`Melon.Var.Combiner`. The counters are `int64_t`, counted here in `Int`:
each step adds at most 1 to one of them, so on every run of fewer than
2^63 steps they are the code's values.
The counts of `ngrab_map` are `size_t` and are kept unbounded here, which
changes nothing: `update_speed_limit` reads only the difference of two of
them as a `size_t` (`sizeT`). The loop that ends a round updates each
speed limit in one step, with one clock reading; a sampling thread's
`is_collectable_before_first_time_grabbed` is one step too. Those two
write disjoint fields of a speed limit, and the sampling thread's are read
by the update only while `ever_grabbed` is false, so no other
interleaving of their accesses reaches another state of the fields the
model follows. `pthread_create` is taken to succeed.
-/
import Mathlib.Data.List.Dedup
import Mathlib.Algebra.Order.Ring.Int

namespace Melon.Metrics

/-- `COLLECTOR_GRAB_INTERVAL_US`. -/
def COLLECTOR_GRAB_INTERVAL_US : Int := 100000

/-- A value converted to `size_t`. -/
def sizeT (x : Int) : Nat := (x % 2 ^ 64).toNat

/-! ## 1. Speed limits -/

/-- The fields of a `CollectorSpeedLimit` the two functions below read
and write. -/
structure CollectorSpeedLimit where
  samplingRange : Nat
  everGrabbed : Bool
  countBeforeGrabbed : Int
  firstSampleRealUs : Int
  deriving DecidableEq, Repr

/-- `(new_sampling_range * interval_us + old_sampling_range * (1000000L -
interval_us)) / 1000000L`: don't grow or shrink too fast. -/
def smoothRange (newRange oldRange : Nat) (intervalUs : Int) : Nat :=
  sizeT (newRange * intervalUs + oldRange * (1000000 - intervalUs)) / 1000000

/-- The sampling range `update_speed_limit` computes, before it is made
sane. `base` is `COLLECTOR_SAMPLING_BASE`, `expected` is
`FLAGS_variable_collector_expected_per_second`. -/
def nextRange (base : Nat) (expected : Int) (sl : CollectorSpeedLimit) (roundNgrab : Nat) (intervalUs now : Int) :
    Nat :=
  let intervalUs := max intervalUs 0
  if !sl.everGrabbed then
    let intervalUs := if sl.firstSampleRealUs ≠ 0 then max (now - sl.firstSampleRealUs) 0 else intervalUs
    sizeT (expected * intervalUs * base) / sizeT (1000000 * roundNgrab)
  else
    let newRange := sizeT (expected * intervalUs * sl.samplingRange) / sizeT (1000000 * roundNgrab)
    if intervalUs < 1000000 then smoothRange newRange sl.samplingRange intervalUs else newRange

/-- "Make sure new value is sane". -/
def saneRange (base newRange : Nat) : Nat :=
  if newRange = 0 then 1 else if newRange > base then base else newRange

/-- `Collector::update_speed_limit(sl, last_ngrab, cur_ngrab, interval_us)`:
the speed limit and `*last_ngrab` after the call. The code stores
`sampling_range` only when it changes, which leaves the same value. -/
def updateSpeedLimit (base : Nat) (expected : Int) (sl : CollectorSpeedLimit) (lastNgrab curNgrab : Nat)
    (intervalUs now : Int) : CollectorSpeedLimit × Nat :=
  let roundNgrab := sizeT (curNgrab - lastNgrab)
  if roundNgrab = 0 then (sl, lastNgrab)
  else
    ({ sl with samplingRange := saneRange base (nextRange base expected sl roundNgrab intervalUs now),
               everGrabbed := true }, curNgrab)

/-- `is_collectable_before_first_time_grabbed(sl)`: the sampling range it
returns, the speed limit after, and whether it wakes the grab thread. -/
def isCollectableBeforeFirstTimeGrabbed (expected : Int) (sl : CollectorSpeedLimit) (now : Int) :
    Nat × CollectorSpeedLimit × Bool :=
  if !sl.everGrabbed then
    let beforeAdd := sl.countBeforeGrabbed
    let sl := { sl with countBeforeGrabbed := beforeAdd + 1 }
    if beforeAdd = 0 then (sl.samplingRange, { sl with firstSampleRealUs := now }, false)
    else (sl.samplingRange, sl, decide (beforeAdd ≥ expected))
  else (sl.samplingRange, sl, false)

/-- What `grab_thread` keeps for the speed limits, and the speed limits
themselves, by address. The key `none` is `&g_null_speed_limit`, where
the samples whose `speed_limit()` is `nullptr` are counted. -/
structure GrabLimits where
  /-- `ngrab_map`: the samples of each speed limit counted so far. -/
  ngrabMap : Option Nat → Nat
  /-- The keys of `ngrab_map`. -/
  keys : List (Option Nat)
  /-- `last_ngrab_map`. -/
  lastNgrabMap : Option Nat → Nat
  /-- `last_before_update_sl`. -/
  lastBeforeUpdateSl : Int
  speedLimits : Option Nat → CollectorSpeedLimit

namespace GrabLimits

/-- The maps when `grab_thread` starts at `now`, with the speed limits
`sls`. -/
def init (now : Int) (sls : Option Nat → CollectorSpeedLimit) : GrabLimits := ⟨fun _ => 0, [], fun _ => 0, now, sls⟩

/-- `++ngrab_map[k]`. -/
def count (g : GrabLimits) (k : Option Nat) : GrabLimits :=
  { g with ngrabMap := Function.update g.ngrabMap k (g.ngrabMap k + 1),
           keys := if k ∈ g.keys then g.keys else g.keys ++ [k] }

/-- The end of a round at `now`: `interval = now - last_before_update_sl`,
`last_before_update_sl = now`, and for each key `k` of `ngrab_map`,
`update_speed_limit(k, &last_ngrab_map[k], ngrab_map[k], interval)`. Each
call reads and writes only its own key's entries, so they are made at
once. -/
def update (base : Nat) (expected : Int) (g : GrabLimits) (now : Int) : GrabLimits :=
  let upd k := updateSpeedLimit base expected (g.speedLimits k) (g.lastNgrabMap k) (g.ngrabMap k)
    (now - g.lastBeforeUpdateSl) now
  { g with speedLimits := fun k => if k ∈ g.keys then (upd k).1 else g.speedLimits k,
           lastNgrabMap := fun k => if k ∈ g.keys then (upd k).2 else g.lastNgrabMap k,
           lastBeforeUpdateSl := now }

/-- `is_collectable_before_first_time_grabbed(sl)` on the speed limit at
`k`, at time `now`. -/
def collectable (expected : Int) (g : GrabLimits) (k : Option Nat) (now : Int) : GrabLimits :=
  let sl := (isCollectableBeforeFirstTimeGrabbed expected (g.speedLimits k) now).2.1
  { g with speedLimits := Function.update g.speedLimits k sl }

end GrabLimits

/-! ## 2. The grab and dump threads -/

/-- What the collector is given: `FLAGS_variable_collector_max_pending_samples`,
`Collected::preprocessor()` as an address (`0` for `nullptr`), what
`CollectorPreprocessor::process` leaves in a group, `Collected::speed_limit()`
as an address (`none` for `nullptr`), `COLLECTOR_SAMPLING_BASE` and
`FLAGS_variable_collector_expected_per_second`. -/
structure CollectorEnv (α : Type) where
  maxPendingSamples : Int
  preprocessor : α → Nat
  process : Nat → List α → List α
  speedLimit : α → Option Nat
  samplingBase : Nat
  expectedPerSecond : Int

variable {α : Type} (e : CollectorEnv α)

/-- The preprocessors of one round's samples, in the order `prep_map`
iterates them. -/
def prepKeys (l : List α) : List Nat := ((l.map e.preprocessor).dedup).mergeSort

/-- The samples of one round in the order `grab_thread` counts them: grouped
by preprocessor, each group passed through its preprocessor unless that is
`nullptr`. -/
def prepare (l : List α) : List α :=
  (prepKeys e l).flatMap fun k =>
    let group := l.filter (e.preprocessor · = k)
    if k = 0 then group else e.process k group

/-- Where `grab_thread` is. -/
inductive GrabPc (α : Type)
  /-- At `while (!_stop)`. -/
  | loop
  /-- Counting the samples of this round; `todo` are those not counted yet. -/
  | collect (todo : List α)
  /-- After the loop. -/
  | done
  deriving DecidableEq, Repr

/-- Where `dump_thread` is. -/
inductive DumpPc
  /-- At `while (!_stop)`, waiting on `_dump_thread_cond` while `_dump_root` is empty. -/
  | loop
  /-- In the loop that calls `dump_and_destroy` on each sample of its `root`. -/
  | drain
  /-- After the loop. -/
  | done
  deriving DecidableEq, Repr

/-- The collector and its two threads. -/
structure Collector (α : Type) where
  /-- The samples combined in the reducer: what `this->reset()` returns. -/
  reduced : List α
  ngrab : Int
  ndrop : Int
  ndump : Int
  /-- `_dump_root`. -/
  dumpRoot : List α
  stop : Bool
  lastActiveCpuwideUs : Int
  grab : GrabPc α
  /-- `grab_thread`'s `root`: the samples of this round kept so far. -/
  root : List α
  dump : DumpPc
  /-- `dump_thread`'s `root`. -/
  dumpList : List α
  limits : GrabLimits
  /-- The samples `submit` gave to the reducer. -/
  accepted : List α
  /-- The samples `grab_thread` counted since the last end of a round. -/
  round : List α
  /-- The samples `grab_thread` destroyed. -/
  dropped : List α
  /-- The samples `dump_thread` dumped. -/
  dumped : List α

/-- What one thread does next. -/
inductive CollectorStep (α : Type)
  /-- `s->submit(cpuwide_us)`, from any thread. -/
  | submit (s : α) (cpuwideUs : Int)
  /-- One step of `grab_thread`, at time `now`. -/
  | grab (now : Int)
  /-- One step of `dump_thread`. -/
  | dump
  /-- `_stop = true` in `~Collector()`. -/
  | destroy
  /-- `is_collectable_before_first_time_grabbed` on the speed limit at `k`,
  from a sampling thread, at time `now`. -/
  | collectable (k : Option Nat) (now : Int)
  deriving DecidableEq, Repr

namespace Collector

/-- `Collector()` and the start of `grab_thread`, at time `now`, with the
speed limits `sls`. -/
def init (now : Int) (sls : Option Nat → CollectorSpeedLimit) : Collector α :=
  ⟨[], 0, 0, 0, [], false, now, .loop, [], .loop, [], .init now sls, [], [], [], []⟩

/-- `get_pending_count`. -/
def getPendingCount (c : Collector α) : Int := c.ngrab - c.ndump - c.ndrop

/-- `Collected::submit(cpuwide_us)`: into the reducer, or destroyed in
place when the grab thread did not run for twice its interval. -/
def submit (c : Collector α) (s : α) (cpuwideUs : Int) : Collector α :=
  if cpuwideUs < c.lastActiveCpuwideUs + COLLECTOR_GRAB_INTERVAL_US * 2 then
    { c with reduced := c.reduced ++ [s], accepted := c.accepted ++ [s] }
  else c

/-- The end of a round of `grab_thread` at `now`: the speed limits are
updated, and `_last_active_cpuwide_us = now`. -/
def endRound (c : Collector α) (now : Int) : Collector α :=
  { c with limits := c.limits.update e.samplingBase e.expectedPerSecond now, round := [], lastActiveCpuwideUs := now }

/-- One step of `grab_thread`. A sample is counted for its speed limit
before it is dropped or kept. -/
def grabStep (c : Collector α) (now : Int) : Collector α :=
  match c.grab with
  | .loop =>
    if c.stop then { c with grab := .done }
    else if c.reduced.isEmpty then c.endRound e now
    else { c with reduced := [], grab := .collect (prepare e c.reduced) }
  | .collect (p :: todo) =>
    if c.ngrab + 1 ≥ c.ndrop + c.ndump + e.maxPendingSamples then
      { c with limits := c.limits.count (e.speedLimit p), round := c.round ++ [p], ngrab := c.ngrab + 1,
               ndrop := c.ndrop + 1, dropped := c.dropped ++ [p], grab := .collect todo }
    else
      { c with limits := c.limits.count (e.speedLimit p), round := c.round ++ [p], ngrab := c.ngrab + 1,
               root := c.root ++ [p], grab := .collect todo }
  | .collect [] => endRound e { c with dumpRoot := c.dumpRoot ++ c.root, root := [], grab := .loop } now
  | .done => c

/-- One step of `dump_thread`. -/
def dumpStep (c : Collector α) : Collector α :=
  match c.dump with
  | .loop =>
    if c.stop then { c with dump := .done }
    else if c.dumpRoot.isEmpty then c
    else { c with dumpList := c.dumpList ++ c.dumpRoot, dumpRoot := [], dump := .drain }
  | .drain =>
    match c.stop, c.dumpList with
    | false, s :: rest => { c with dumpList := rest, ndump := c.ndump + 1, dumped := c.dumped ++ [s] }
    | _, _ => { c with dump := .loop }
  | .done => c

/-- One step of any thread. -/
def step (c : Collector α) : CollectorStep α → Collector α
  | .submit s t => c.submit s t
  | .grab now => c.grabStep e now
  | .dump => c.dumpStep
  | .destroy => { c with stop := true }
  | .collectable k now => { c with limits := c.limits.collectable e.expectedPerSecond k now }

/-- The steps of a schedule, one after another. -/
def run (c : Collector α) (sched : List (CollectorStep α)) : Collector α := sched.foldl (step e) c

end Collector

end Melon.Metrics
