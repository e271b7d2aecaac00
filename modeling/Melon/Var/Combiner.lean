/-
Melon.Var.Combiner — the model of `AgentCombiner` and of the
`ElementContainer`s of its agents (`src/melon/var/detail/combiner.h`),
for threads that modify their own agents while any thread resets the
combiner.

* `Agent` — a thread's tls agent: whether `combiner` is set (the agent
  was appended to `_agents`), and the value of its `element`.
* `CombOp` — a thread's calls: `modify(op, v)` on the agent that
  `get_or_create_tls_agent` gives, `commit_and_clear`, `commit_and_erase`
  (from `~Agent` at thread exit), `reset_all_agents`.
* `CombPc` — where a thread is inside a call: between the load (or a
  failed `compare_exchange_weak`) and the next `compare_exchange_weak`
  of the atomic `modify`, or inside the loop of `reset_all_agents`.
* `AgentCombiner.localStep` — one atomic step of one thread, on the
  combiner and the thread's own state.
* `CombSystem.run` — a schedule names the thread that moves.
* `AgentCombiner.combineAgents` — `combine_agents()`, which writes
  nothing and is a function of the state.

The element type and the result type coincide (`α`); `op` is `_op`,
applied as `call_op_returning_void(op, x, y)`, which leaves `op x y` in
`x`. Which `ElementContainer` the agents use depends on the type only,
so `atomical` is a parameter of the whole run. Steps:

* the mutex `modify`, `exchange` and `load` each hold the element's
  lock, so each is one step;
* the atomic `modify` is a load, then one step per
  `compare_exchange_weak`. A relaxed load may read an older value than
  the last; the compare-exchange that follows then fails and reads the
  last one, which reaches the same states as a load of the last value;
* `commit_and_clear`, `commit_and_erase` and the `Append` of
  `get_or_create_tls_agent` run under `_lock` on the caller's own
  agent, which no other thread writes while `_lock` is held: one step
  each, taken only when no `reset_all_agents` holds `_lock`;
* `reset_all_agents` takes `_lock` and keeps it over one step per agent.

`contributed` and `returned` are history: the `v` of every `modify`
that has returned, and every value `reset_all_agents` returned.
-/
import Mathlib.Data.List.Basic

namespace Melon.Var

/-- A thread's tls `Agent`. -/
structure Agent (α : Type) where
  /-- `combiner != NULL`: `get_or_create_tls_agent` set it up. -/
  combiner : Bool
  /-- The value of `element`. -/
  value : α
  deriving DecidableEq, Repr

/-- What a thread calls. -/
inductive CombOp (α : Type)
  /-- `get_or_create_tls_agent()->element.modify(op, v)`. -/
  | modify (v : α)
  /-- `commit_and_clear(agent)` on the thread's own agent. -/
  | commitAndClear
  /-- `~Agent`: `commit_and_erase(this)`, then `combiner = NULL`. -/
  | commitAndErase
  /-- `reset_all_agents()`. -/
  | resetAllAgents
  deriving DecidableEq, Repr

/-- Where a thread is inside a call, with the locals it carries. -/
inductive CombPc (α : Type)
  | idle
  /-- The atomic `modify(op, v)` read `old_value`; its next
  `compare_exchange_weak` writes `op(old_value, v)`. -/
  | cas (v old : α)
  /-- `reset_all_agents` holds `_lock` with `tmp`; `rest` are the agents
  of `_agents` it has not exchanged yet. -/
  | resetting (tmp : α) (rest : List Nat)
  deriving DecidableEq, Repr

/-- A thread: where it is, and its calls to come. -/
structure CombThread (α : Type) where
  pc : CombPc α
  ops : List (CombOp α)
  deriving DecidableEq, Repr

/-- The combiner and the agents of its threads; thread `i`'s agent is
`elems i`. -/
structure AgentCombiner (α : Type) where
  /-- `_global_result`. -/
  globalResult : α
  /-- `_agents`, as the indices of the threads that own them. -/
  agents : List Nat
  elems : Nat → Agent α
  /-- The thread in `reset_all_agents`, which holds `_lock`. -/
  lock : Option Nat
  /-- What the calls of `reset_all_agents` returned. -/
  returned : List α
  /-- The `v` of every `modify` that returned. -/
  contributed : List α

/-- The combiner and its threads. -/
structure CombSystem (α : Type) where
  comb : AgentCombiner α
  threads : List (CombThread α)

namespace AgentCombiner

variable {α : Type} (op : α → α → α) (elementIdentity resultIdentity : α) (c : AgentCombiner α)

/-- `combine_agents()`: `_global_result`, then `op` with each agent's
element. -/
def combineAgents : α :=
  c.agents.foldl (fun ret j => op ret (c.elems j).value) c.globalResult

/-- Agent `j` is now `a`. -/
def setElem (j : Nat) (a : Agent α) : AgentCombiner α :=
  { c with elems := Function.update c.elems j a }

/-- `get_or_create_tls_agent` for thread `i`: `agent->reset(
_element_identity, this)`, then `_agents.Append(agent)` under `_lock`. -/
def createAgent (i : Nat) : AgentCombiner α :=
  { c.setElem i ⟨true, elementIdentity⟩ with agents := c.agents ++ [i] }

/-- A `modify(op, v)` of agent `i` returned, having stored `x`. -/
def modified (i : Nat) (x v : α) : AgentCombiner α :=
  { c.setElem i { c.elems i with value := x } with contributed := c.contributed ++ [v] }

/-- `commit_and_clear(agent)`: `exchange(&prev, _element_identity)` and
`op(_global_result, prev)`. -/
def commitAndClear (i : Nat) : AgentCombiner α :=
  { c.setElem i { c.elems i with value := elementIdentity } with
    globalResult := op c.globalResult (c.elems i).value }

/-- `commit_and_erase(agent)`: `op(_global_result, element)` and
`RemoveFromList`; `~Agent` then clears `combiner`. -/
def commitAndErase (i : Nat) : AgentCombiner α :=
  { c.setElem i { c.elems i with combiner := false } with
    globalResult := op c.globalResult (c.elems i).value, agents := c.agents.erase i }

variable [DecidableEq α] (atomical : Bool)

/-- One atomic step of thread `i` in state `t`: the combiner and the
thread after it. A thread with nothing to do, or that waits for
`_lock`, does not move. -/
def localStep (i : Nat) : CombThread α → Option (AgentCombiner α × CombThread α)
  | ⟨.idle, []⟩ => none
  | ⟨.idle, .modify v :: ops⟩ =>
    if !(c.elems i).combiner then
      if c.lock.isSome then none
      else some (c.createAgent elementIdentity i, ⟨.idle, .modify v :: ops⟩)
    else if atomical then some (c, ⟨.cas v (c.elems i).value, ops⟩)
    else some (c.modified i (op (c.elems i).value v) v, ⟨.idle, ops⟩)
  | ⟨.idle, .commitAndClear :: ops⟩ =>
    if !(c.elems i).combiner then some (c, ⟨.idle, ops⟩)
    else if c.lock.isSome then none
    else some (c.commitAndClear op elementIdentity i, ⟨.idle, ops⟩)
  | ⟨.idle, .commitAndErase :: ops⟩ =>
    if !(c.elems i).combiner then some (c, ⟨.idle, ops⟩)
    else if c.lock.isSome then none
    else some (c.commitAndErase op i, ⟨.idle, ops⟩)
  | ⟨.idle, .resetAllAgents :: ops⟩ =>
    -- `tmp = _global_result; _global_result = _result_identity`
    if c.lock.isSome then none
    else some ({ c with lock := some i, globalResult := resultIdentity },
      ⟨.resetting c.globalResult c.agents, ops⟩)
  | ⟨.cas v old, ops⟩ =>
    -- `compare_exchange_weak(old_value, new_value)`; on failure
    -- `old_value` is the element's value and `new_value` is recomputed
    if (c.elems i).value = old then some (c.modified i (op old v) v, ⟨.idle, ops⟩)
    else some (c, ⟨.cas v (c.elems i).value, ops⟩)
  | ⟨.resetting tmp (j :: rest), ops⟩ =>
    -- `exchange(&prev, _element_identity); op(tmp, prev)`
    some (c.setElem j { c.elems j with value := elementIdentity },
      ⟨.resetting (op tmp (c.elems j).value) rest, ops⟩)
  | ⟨.resetting tmp [], ops⟩ =>
    some ({ c with lock := none, returned := c.returned ++ [tmp] }, ⟨.idle, ops⟩)

end AgentCombiner

namespace CombSystem

variable {α : Type} [DecidableEq α] (op : α → α → α) (elementIdentity resultIdentity : α)
  (atomical : Bool)

/-- A new combiner, `_global_result(result_identity)` and no agent, and
threads about to run `progs`. -/
def init (progs : List (List (CombOp α))) : CombSystem α :=
  ⟨⟨resultIdentity, [], fun _ => ⟨false, elementIdentity⟩, none, [], []⟩,
    progs.map fun ops => ⟨.idle, ops⟩⟩

variable (s : CombSystem α)

/-- One atomic step of thread `i`. -/
def threadStep (i : Nat) : Option (CombSystem α) :=
  match s.threads[i]? with
  | none => none
  | some t =>
    (s.comb.localStep op elementIdentity resultIdentity atomical i t).map
      fun r => ⟨r.1, s.threads.set i r.2⟩

/-- Thread `i` moves if it can. -/
def step (i : Nat) : CombSystem α :=
  (s.threadStep op elementIdentity resultIdentity atomical i).getD s

/-- A schedule. -/
def run (sched : List Nat) : CombSystem α :=
  sched.foldl (step op elementIdentity resultIdentity atomical) s

/-- No thread is inside a call. -/
def quiescent : Bool :=
  s.threads.all fun t => t.pc matches .idle

end CombSystem

end Melon.Var
