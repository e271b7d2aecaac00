/-
Melon.Container.BoundedQueue — the model of `container::bounded_queue<T>`
(`src/unnamed/part_011`), a double-ended queue in a fixed array of `_cap`
slots, whose items start at slot `_start` and wrap around.

* `BoundedQueue` — `_count`, `_cap`, `_start` as `UInt32`, the code's
  `uint32_t`, and the slots: `items i` is the item constructed in slot `i`,
  `none` for a slot holding none. `log` is a ghost field the code does not
  hold: every placement `new`, `operator=` and `~T()` on a slot so far, in
  order (`SlotAccess`).
* `ofStorage`, `ofCapacity`, `empty` — the three constructors; `_cap` is
  `memsize / sizeof(T)`, `capacity` or 0, kept modulo 2^32.
* `mod` — `_mod(off, cap)`, the loop `while (off >= cap) off -= cap`. It is
  run with enough rounds for every `cap > 0`; `none` stands for the loop
  that never ends, which is what `cap = 0` gives.
* `push`, `elimPush`, `pushDefault`, `pushTop`, `pushTopDefault`, `pop`,
  `popItem`, `popBottom`, `popBottomItem`, `clear`, `top`, `topAt`,
  `bottom`, `bottomAt` and the size queries — the member functions,
  statement by statement. A call that reaches a `_mod` that never returns
  is `none`; an address into the array is the slot's index.
* `QueueOp.step`, `QueueOp.run` — the calls that change the queue, one
  after another.

Additions are `uint32_t` additions and wrap modulo 2^32; `index` arguments
are `size_t`, so `_start + index` is a 64-bit sum handed to `_mod`'s
`uint32_t` parameter, which keeps it modulo 2^32. The ownership flag and
the pointer to the storage only decide `initialized()` and the destructor,
and are left out.
-/
import Mathlib.Data.List.Basic
import Mathlib.Algebra.Group.Nat.Basic

namespace Melon.Container

/-- The loop of `_mod` on the values of its arguments, for at most `fuel`
rounds. -/
def modLoop (cap : Nat) : Nat → Nat → Option Nat
  | 0, off => if off ≥ cap then none else some off
  | fuel + 1, off => if off ≥ cap then modLoop cap fuel (off - cap) else some off

/-- What a member function does to one slot of the array. -/
inductive SlotAccess
  /-- Placement `new` of an item in the slot. -/
  | construct (i : UInt32)
  /-- `operator=` into the slot's item. -/
  | assign (i : UInt32)
  /-- `~T()` on the slot's item. -/
  | destroy (i : UInt32)
  deriving DecidableEq, Repr

/-- The slot an access is to. -/
def SlotAccess.slot : SlotAccess → UInt32
  | .construct i | .assign i | .destroy i => i

/-- The members of `bounded_queue<T>` that its functions use, and the
accesses to the slots so far. -/
structure BoundedQueue (α : Type) where
  count : UInt32
  cap : UInt32
  start : UInt32
  items : Nat → Option α
  log : List SlotAccess

namespace BoundedQueue

variable {α : Type}

/-- `_mod(off, cap)`: `off` rounds of the loop are enough when `cap > 0`
(each takes at least 1 off `off`); for `cap = 0` no number is. -/
def mod (off cap : UInt32) : Option UInt32 := (modLoop cap.toNat off.toNat off.toNat).map UInt32.ofNat

/-- `bounded_queue(size_t capacity)`, its `size_t` capacity stored into the
`uint32_t` `_cap`. -/
def ofCapacity (capacity : Nat) : BoundedQueue α := ⟨0, UInt32.ofNat capacity, 0, fun _ => none, []⟩

/-- `bounded_queue(mem, memsize, ownership)`: the `size_t` quotient
`memsize / sizeof(T)` stored into `_cap`. -/
def ofStorage (memsize sizeofT : Nat) : BoundedQueue α :=
  ⟨0, UInt32.ofNat (memsize / sizeofT), 0, fun _ => none, []⟩

/-- `bounded_queue()`: no storage and capacity 0. -/
def empty : BoundedQueue α := ⟨0, 0, 0, fun _ => none, []⟩

variable (q : BoundedQueue α)

/-- Construct `x` in slot `i`. -/
def setSlot (i : UInt32) (x : α) : BoundedQueue α :=
  { q with items := fun j => if j = i.toNat then some x else q.items j, log := q.log ++ [.construct i] }

/-- Assign `x` to the item in slot `i`. -/
def assignSlot (i : UInt32) (x : α) : BoundedQueue α := { q.setSlot i x with log := q.log ++ [.assign i] }

/-- Destroy the item in slot `i`. -/
def destroySlot (i : UInt32) : BoundedQueue α :=
  { q with items := fun j => if j = i.toNat then none else q.items j, log := q.log ++ [.destroy i] }

/-- `push(item)`: into slot `_mod(_start + _count, _cap)` if not full. -/
def push (x : α) : Option (Bool × BoundedQueue α) :=
  if q.count < q.cap then
    (mod (q.start + q.count) q.cap).map fun i => (true, { q.setSlot i x with count := q.count + 1 })
  else some (false, q)

/-- `elim_push(item)`: as `push`, but on a full queue the item overwrites
slot `_start` and `_start` moves on. -/
def elimPush (x : α) : Option (BoundedQueue α) :=
  if q.count < q.cap then
    (mod (q.start + q.count) q.cap).map fun i => { q.setSlot i x with count := q.count + 1 }
  else (mod (q.start + 1) q.cap).map fun s => { q.assignSlot q.start x with start := s }

/-- `push()`: a value-initialized item `dflt` at the bottom; its address. -/
def pushDefault (dflt : α) : Option (Option UInt32 × BoundedQueue α) :=
  if q.count < q.cap then
    (mod (q.start + q.count) q.cap).map fun i =>
      (some i, { q.setSlot i dflt with count := q.count + 1 })
  else some (none, q)

/-- The slot before `_start`: `_start ? (_start - 1) : (_cap - 1)`. -/
def prevStart : UInt32 := if q.start ≠ 0 then q.start - 1 else q.cap - 1

/-- `push_top(item)`. -/
def pushTop (x : α) : Bool × BoundedQueue α :=
  if q.count < q.cap then (true, { q with start := q.prevStart, count := q.count + 1 }.setSlot q.prevStart x)
  else (false, q)

/-- `push_top()`: a value-initialized item at the top; its address. -/
def pushTopDefault (dflt : α) : Option UInt32 × BoundedQueue α :=
  if q.count < q.cap then
    (some q.prevStart, { q with start := q.prevStart, count := q.count + 1 }.setSlot q.prevStart dflt)
  else (none, q)

/-- `pop()`: destroy the top item and move `_start` on. -/
def pop : Option (Bool × BoundedQueue α) :=
  if q.count ≠ 0 then
    (mod (q.start + 1) q.cap).map fun s =>
      (true, { q.destroySlot q.start with count := q.count - 1, start := s })
  else some (false, q)

/-- `pop(item)`: as `pop`, and the item copied out first. -/
def popItem : Option (Option α × BoundedQueue α) :=
  if q.count ≠ 0 then
    (mod (q.start + 1) q.cap).map fun s =>
      (q.items q.start.toNat, { q.destroySlot q.start with count := q.count - 1, start := s })
  else some (none, q)

/-- `pop_bottom()`: destroy the bottom item. -/
def popBottom : Option (Bool × BoundedQueue α) :=
  if q.count ≠ 0 then
    (mod (q.start + (q.count - 1)) q.cap).map fun i =>
      (true, { q.destroySlot i with count := q.count - 1 })
  else some (false, q)

/-- `pop_bottom(item)`: as `pop_bottom`, and the item copied out first. -/
def popBottomItem : Option (Option α × BoundedQueue α) :=
  if q.count ≠ 0 then
    (mod (q.start + (q.count - 1)) q.cap).map fun i =>
      (q.items i.toNat, { q.destroySlot i with count := q.count - 1 })
  else some (none, q)

/-- `clear()`: destroy the items `_mod(_start + i, _cap)` for `i < _count`,
then `_count = _start = 0`. -/
def clear : Option (BoundedQueue α) :=
  ((List.range q.count.toNat).foldlM (fun (r : BoundedQueue α) i =>
      (mod (q.start + UInt32.ofNat i) q.cap).map r.destroySlot) q).map
    fun r => { r with count := 0, start := 0 }

/-- `top()`: the address of slot `_start`, or `nullptr` when empty. -/
def top : Option UInt32 := if q.count ≠ 0 then some q.start else none

/-- `top(index)`. -/
def topAt (index : Nat) : Option (Option UInt32) :=
  if index < q.count.toNat then (mod (UInt32.ofNat (q.start.toNat + index)) q.cap).map some
  else some none

/-- `bottom()`. -/
def bottom : Option (Option UInt32) :=
  if q.count ≠ 0 then (mod (q.start + q.count - 1) q.cap).map some else some none

/-- `bottom(index)`: `_start + _count - index - 1`, the `uint32_t` sum less
`index + 1` in `size_t`, handed to `_mod`. -/
def bottomAt (index : Nat) : Option (Option UInt32) :=
  if index < q.count.toNat then
    (mod (UInt32.ofNat ((2 ^ 64 + (q.start + q.count).toNat - index - 1) % 2 ^ 64)) q.cap).map some
  else some none

/-- `size()`, `empty()`, `full()`, `capacity()`. -/
def size : Nat := q.count.toNat
def isEmpty : Bool := q.count == 0
def full : Bool := q.cap == q.count
def capacity : Nat := q.cap.toNat

/-- `max_capacity()`: `(1UL << (sizeof(_cap) * 8)) - 1`. -/
def maxCapacity : Nat := 2 ^ 32 - 1

end BoundedQueue

/-- The calls that change a `bounded_queue`. -/
inductive QueueOp (α : Type)
  | push (x : α)
  | pushDefault
  | elimPush (x : α)
  | pushTop (x : α)
  | pushTopDefault
  | pop
  | popItem
  | popBottom
  | popBottomItem
  | clear

namespace QueueOp

variable {α : Type}

/-- One call, with `dflt` the value-initialized `T`; what it returns is
dropped. -/
def step (dflt : α) (q : BoundedQueue α) : QueueOp α → Option (BoundedQueue α)
  | .push x => (q.push x).map Prod.snd
  | .pushDefault => (q.pushDefault dflt).map Prod.snd
  | .elimPush x => q.elimPush x
  | .pushTop x => some (q.pushTop x).2
  | .pushTopDefault => some (q.pushTopDefault dflt).2
  | .pop => q.pop.map Prod.snd
  | .popItem => q.popItem.map Prod.snd
  | .popBottom => q.popBottom.map Prod.snd
  | .popBottomItem => q.popBottomItem.map Prod.snd
  | .clear => q.clear

/-- A sequence of calls; `none` once one of them never returns. -/
def run (dflt : α) (q : BoundedQueue α) (ops : List (QueueOp α)) : Option (BoundedQueue α) :=
  ops.foldlM (step dflt) q

end QueueOp

end Melon.Container
