/-
Melon.Utility.TempFile — `mutil::fd_guard` and the writes of
`mutil::TempFile` (`src/melon/utility/fd_guard.h`, with `temp_file.cpp`).

* `FdGuard` — the descriptor a guard owns (`-1` for none); `reset`,
  `release` and the destructor, each with the `::close` calls it makes.
  `FdGuard.run` — calls on one guard, then its destructor: the closes in
  order and what each `release` returned.
* `WriteReturn` — what one `write(fd, buf + off, count - off)` returned:
  a byte count, or `-1` with `errno`.
* `writeAllLoop` — `temp_file_write_all(fd, buf, count)`: the loop that
  writes until all is written or an error other than `EINTR`, given what
  each `write` returns, in order. It gives the return value and how many
  bytes were written; `none` where the loop has not returned when the
  writes given run out.
* `saveBin` — `TempFile::save_bin(buf, count)`: the return value and the
  `errno` it sets itself.

A `write` that returns `n` wrote the first `n` bytes it was given, so the
bytes written are always the first ones of `buf`; only their number is
followed. `_reopen_if_necessary` is given as whether it returned a
descriptor.
-/
import Mathlib.Data.List.Basic
import Mathlib.Algebra.Order.Ring.Int

namespace Melon.Utility

/-! ## 1. `fd_guard` -/

/-- `fd_guard`: `_fd`. -/
structure FdGuard where
  fd : Int
  deriving DecidableEq, Repr

namespace FdGuard

/-- `if (_fd >= 0) ::close(_fd);`: the descriptors closed. -/
def closeOwned (g : FdGuard) : List Int := if 0 ≤ g.fd then [g.fd] else []

/-- `reset(fd)`: the guard after, and the descriptors closed. -/
def reset (g : FdGuard) (fd : Int) : FdGuard × List Int := (⟨fd⟩, g.closeOwned)

/-- `release()`: the value returned, and the guard after. -/
def release (g : FdGuard) : Int × FdGuard := (g.fd, ⟨-1⟩)

/-- `~fd_guard()`: the descriptors closed. -/
def destroy (g : FdGuard) : List Int := g.closeOwned

/-- A call on a guard. -/
inductive GuardCall
  | reset (fd : Int)
  | release
  deriving DecidableEq, Repr

/-- Calls on a guard, then its destructor: the descriptors closed, in
order, and what each `release()` returned. -/
def run (g : FdGuard) : List GuardCall → List Int × List Int
  | [] => (g.destroy, [])
  | .reset fd :: calls =>
    let r := g.reset fd
    let rest := run r.1 calls
    (r.2 ++ rest.1, rest.2)
  | .release :: calls =>
    let r := g.release
    let rest := run r.2 calls
    (rest.1, r.1 :: rest.2)

/-- The descriptors the calls hand to the guard. -/
def given : List GuardCall → List Int
  | [] => []
  | .reset fd :: calls => fd :: given calls
  | .release :: calls => given calls

end FdGuard

/-! ## 2. `temp_file_write_all` and `save_bin` -/

/-- `EINTR` and `ENOSPC`. -/
def EINTR : Nat := 4
def ENOSPC : Nat := 28

/-- What one `write` returned: `nw`, and `errno` when it is negative. -/
structure WriteReturn where
  nw : Int
  errno : Nat
  deriving DecidableEq, Repr

/-- The loop of `temp_file_write_all(fd, buf, count)` from `off` on: the
return value and the bytes written, or `none` while it has not returned. -/
def writeAllLoop (count : Nat) : Nat → List WriteReturn → Option (Int × Nat)
  | _, [] => none
  | off, w :: ws =>
    if w.nw = ((count - off : Nat) : Int) then some (count, count)
    else if 0 ≤ w.nw then writeAllLoop count (off + w.nw.toNat) ws
    else if w.errno ≠ EINTR then some (-1, off)
    else writeAllLoop count off ws

/-- `temp_file_write_all(fd, buf, count)`. -/
def writeAll (count : Nat) (ws : List WriteReturn) : Option (Int × Nat) := writeAllLoop count 0 ws

/-- `TempFile::save_bin(buf, count)`, given whether `_reopen_if_necessary`
returned a descriptor: the return value, and the `errno` it sets itself. -/
def saveBin (reopened : Bool) (count : Nat) (ws : List WriteReturn) : Option (Int × Option Nat) :=
  if !reopened then some (-1, none)
  else
    (writeAll count ws).map fun r =>
      if r.1 < 0 then (-1, none)
      else if r.1 ≠ (count : Int) then (-1, some ENOSPC)
      else (0, none)

end Melon.Utility
