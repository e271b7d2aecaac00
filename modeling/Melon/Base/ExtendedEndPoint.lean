/-
Melon.Base.ExtendedEndPoint — the model of the reference counting of
`ExtendedEndPoint` and of `GlobalEndPointSet` (`src/unnamed/part_004`,
`endpoint_extended.h`), for threads that create, copy and reset extended
`end_point`s at the same time.

* `Slot` — an `ExtendedEndPoint` of the resource pool: `_ref_count`, the
  socket address (`none` for `AF_UNSPEC`), and whether the pool has handed
  it out.
* `EpOp`, `EpPc`, `EpThread` — a thread's calls (create an extended
  `end_point` for an address, copy one, reset one), where it is inside a
  call, and the ids its extended `end_point`s embed.
* `EpSystem.threadStep` — one atomic step of a thread: `get_resource`, the
  critical section of `GlobalEndPointSet::insert` or `erase`, a
  `fetch_add` or `fetch_sub`, the writes that give a resource back.
* `EpSystem.run` — a schedule picks the thread that moves and, for
  `get_resource`, the id the pool hands out (any free one).

The address type `A` only needs equality: `Hash` and `Equals` compare
`_socklen` bytes of `_u`, which is equality of the addresses. The pool is
`ResourcePool`, which is not among the sources; the model lets it hand out
any resource that is not in use. Atomics are sequentially consistent.
-/
import Mathlib.Data.List.Basic

namespace Melon.Base

/-- An `ExtendedEndPoint` in the resource pool. -/
structure Slot (A : Type) where
  /-- `_ref_count`. -/
  refCount : Int
  /-- `_u`, or `none` when `_u.sa.sa_family == AF_UNSPEC`. -/
  addr : Option A
  /-- Handed out by `get_resource` and not yet given back. -/
  live : Bool
  deriving DecidableEq, Repr

/-- What a thread does with extended `end_point`s. -/
inductive EpOp (A : Type)
  /-- `ExtendedEndPoint::create` for address `a`, into a new `end_point`. -/
  | create (a : A)
  /-- Copy construction from the thread's `k`-th `end_point`: `inc_ref`. -/
  | copy (k : Nat)
  /-- `reset()` or destruction of the thread's `k`-th `end_point`: `dec_ref`. -/
  | reset (k : Nat)
  deriving DecidableEq, Repr

/-- Where a thread is inside a call, with the locals it carries. -/
inductive EpPc
  | idle
  /-- `dedup(p)`: `global_set()->insert(p)`. -/
  | inserting (p : Nat)
  /-- `dedup(p)` found `e`: `p` goes back to the pool. -/
  | discarding (p e : Nat)
  /-- `embed_to(ep)` with `x`. -/
  | embedding (x : Nat)
  /-- `dec_ref` took `_ref_count` to 0: `global_set()->erase(this)`. -/
  | erasing (x : Nat)
  /-- `_u.sa.sa_family = AF_UNSPEC; return_resource(_id)`. -/
  | clearing (x : Nat)
  deriving DecidableEq, Repr

/-- A thread: where it is, its calls to come, and the resource ids its
extended `end_point`s embed, in the order it made them. -/
structure EpThread (A : Type) where
  pc : EpPc
  ops : List (EpOp A)
  eps : List Nat
  deriving DecidableEq, Repr

/-- What the resource pool is asked: `get_resource` and `return_resource`. -/
inductive PoolEvent
  | get (x : Nat)
  | ret (x : Nat)
  deriving DecidableEq, Repr

/-- The pool, the set, the threads, and the pool's calls so far. -/
structure EpSystem (A : Type) where
  slots : Nat → Slot A
  /-- `GlobalEndPointSet::_set`, as the ids of its entries. -/
  set : List Nat
  threads : List (EpThread A)
  log : List PoolEvent

/-- A choice of the schedule: thread `i` moves, and `get_resource` hands
out `fresh` if it is free. -/
structure EpChoice where
  i : Nat
  fresh : Nat
  deriving DecidableEq, Repr

namespace EpSystem

variable {A : Type} [DecidableEq A]

/-- No thread has started; every resource is in the pool. -/
def init (progs : List (List (EpOp A))) : EpSystem A :=
  ⟨fun _ => ⟨0, none, false⟩, [], progs.map fun ops => ⟨.idle, ops, []⟩, []⟩

variable (s : EpSystem A)

/-- `_set.find(p)`: the entry whose address is `p`'s. -/
def find (p : Nat) : Option Nat :=
  s.set.find? fun e => (s.slots e).addr = (s.slots p).addr

/-- Change slot `x`. -/
def setSlot (x : Nat) (v : Slot A) : EpSystem A :=
  { s with slots := Function.update s.slots x v }

/-- `GlobalEndPointSet::insert(p)` under `_mutex`, with the `fetch_add`
(and the `fetch_sub` that undoes it) on the entry found: the entry
`dedup` goes on with, and the system after. -/
def insert (p : Nat) : Nat × EpSystem A :=
  match s.find p with
  | none => (p, { s with set := s.set ++ [p] })
  | some e =>
    if (s.slots e).refCount = 0 then (p, { s with set := s.set.erase e ++ [p] })
    else (e, s.setSlot e { s.slots e with refCount := (s.slots e).refCount + 1 })

/-- `GlobalEndPointSet::erase(x)` under `_mutex`. -/
def erase (x : Nat) : EpSystem A :=
  match s.find x with
  | some e => if e = x then { s with set := s.set.erase x } else s
  | none => s

/-- `get_resource`, handing out `x`, which becomes `v`. -/
def getResource (x : Nat) (v : Slot A) : EpSystem A :=
  { s.setSlot x v with log := s.log ++ [.get x] }

/-- `return_resource(x)`, after `x` became `v`. -/
def returnResource (x : Nat) (v : Slot A) : EpSystem A :=
  { s.setSlot x v with log := s.log ++ [.ret x] }

/-- Thread `i` is now `t`. -/
def setThread (i : Nat) (t : EpThread A) : EpSystem A :=
  { s with threads := s.threads.set i t }

/-- One atomic step of thread `i`; `fresh` is the id `get_resource` hands
out. A thread with nothing to do, or a pool asked for a resource in use,
does not move. -/
def threadStep (i fresh : Nat) : Option (EpSystem A) :=
  match s.threads[i]? with
  | none => none
  | some t =>
    match t.pc with
    | .idle =>
      match t.ops with
      | [] => none
      | .create a :: ops =>
        -- `new_extended_endpoint`: `get_resource`, then `_ref_count = 1`
        if (s.slots fresh).live then none
        else some ((s.getResource fresh ⟨1, some a, true⟩).setThread i ⟨.inserting fresh, ops, t.eps⟩)
      | .copy k :: ops =>
        match t.eps[k]? with
        | none => some (s.setThread i { t with ops := ops })
        | some x =>
          -- `inc_ref`: `fetch_add(1)`
          some ((s.setSlot x { s.slots x with refCount := (s.slots x).refCount + 1 }).setThread i
            ⟨.idle, ops, t.eps ++ [x]⟩)
      | .reset k :: ops =>
        match t.eps[k]? with
        | none => some (s.setThread i { t with ops := ops })
        | some x =>
          -- `dec_ref`: `fetch_sub(1)`; the last reference goes on to `erase`
          some ((s.setSlot x { s.slots x with refCount := (s.slots x).refCount - 1 }).setThread i
            ⟨if (s.slots x).refCount = 1 then .erasing x else .idle, ops, t.eps.eraseIdx k⟩)
    | .inserting p =>
      let r := s.insert p
      some (r.2.setThread i { t with pc := if r.1 = p then .embedding p else .discarding p r.1 })
    | .discarding p e =>
      -- `_ref_count.store(0)`, `sa_family = AF_UNSPEC`, `return_resource`
      some ((s.returnResource p ⟨0, none, false⟩).setThread i { t with pc := .embedding e })
    | .embedding x => some (s.setThread i { t with pc := .idle, eps := t.eps ++ [x] })
    | .erasing x => some ((s.erase x).setThread i { t with pc := .clearing x })
    | .clearing x =>
      some ((s.returnResource x { s.slots x with addr := none, live := false }).setThread i
        { t with pc := .idle })

/-- One choice of the schedule; a thread that cannot move changes nothing. -/
def step (ch : EpChoice) : EpSystem A := (s.threadStep ch.i ch.fresh).getD s

/-- A schedule. -/
def run (sched : List EpChoice) : EpSystem A := sched.foldl step s

end EpSystem

end Melon.Base
