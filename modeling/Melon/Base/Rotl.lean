/-
Melon.Base.Rotl — `melon::base::rotl` (`src/melon/base/math/rotl.h`):
the portable rotation and the one the processor does agree on every word
and every count.

* `rotlGeneric32`, `rotlGeneric64` — `rotl_generic(x, i)` on `uint32_t`
  and `uint64_t`: `(x << (i & 31)) | (x >> ((32 - (i & 31)) & 31))`, and
  the same with 63. `i & 31` of an `int` is `i mod 32`, and the shifts are
  those of `UInt32` and `UInt64`.
* `rotl32`, `rotl64` — `rotl(x, i)` where it is `roll %cl` / `rolq %cl`
  (or `_rotl`): the processor masks the count in `cl` to 5 or 6 bits, so
  it rotates by `i mod 32` or `i mod 64`.
* `rotlGeneric_eq_rotl` — the two agree at both widths
  (`rotlGeneric32_eq_rotl32`, `rotlGeneric64_eq_rotl64`), so `rotl`
  computes the same on every platform, for negative counts and counts past
  the width too.

## How the proof goes

Both members are `shifts_eq_rotateLeft` at their width: bit by bit, the
left shift gives the bits at or above the count and the right shift the
ones below it; a count of 0 shifts both ways by 0 and is `x ||| x`.
-/
import Mathlib.Algebra.Order.Ring.Int

namespace Melon.Base

/-- `rotl_generic(x, i)` on `uint32_t`. -/
def rotlGeneric32 (x : UInt32) (i : Int) : UInt32 :=
  let r := (i % 32).toNat
  (x <<< UInt32.ofNat r) ||| (x >>> UInt32.ofNat ((32 - r) % 32))

/-- `rotl_generic(x, i)` on `uint64_t`. -/
def rotlGeneric64 (x : UInt64) (i : Int) : UInt64 :=
  let r := (i % 64).toNat
  (x <<< UInt64.ofNat r) ||| (x >>> UInt64.ofNat ((64 - r) % 64))

/-- `rotl(x, i)` by `roll %cl`. -/
def rotl32 (x : UInt32) (i : Int) : UInt32 := ⟨x.toBitVec.rotateLeft (i % 32).toNat⟩

/-- `rotl(x, i)` by `rolq %cl`. -/
def rotl64 (x : UInt64) (i : Int) : UInt64 := ⟨x.toBitVec.rotateLeft (i % 64).toNat⟩

/-- The two shifts of `rotl_generic`, by a count below the width, are a
rotation. -/
theorem shifts_eq_rotateLeft {w : Nat} (x : BitVec w) {r : Nat} (hr : r < w) :
    x <<< r ||| x >>> ((w - r) % w) = x.rotateLeft r := by
  apply BitVec.eq_of_getLsbD_eq
  intro ⟨j, hj⟩
  simp only [BitVec.getLsbD_or, BitVec.getLsbD_shiftLeft, BitVec.getLsbD_ushiftRight, BitVec.getLsbD_rotateLeft,
    Nat.mod_eq_of_lt hr]
  by_cases h0 : r = 0
  · subst h0
    simp [hj]
  · rw [Nat.mod_eq_of_lt (by omega : w - r < w)]
    by_cases hjr : j < r
    · simp [hjr, hj, show ¬r ≤ j by omega]
    · simp [hjr, hj, BitVec.getLsbD_ge x (w - r + j) (by omega)]

theorem rotlGeneric32_eq_rotl32 (x : UInt32) (i : Int) : rotlGeneric32 x i = rotl32 x i := by
  have hr : (i % 32).toNat < 32 := by omega
  have hamt : ∀ n < 32, (UInt32.ofNat n % 32).toBitVec.toNat = n := fun n hn => by
    show n % 2 ^ 32 % 32 = n
    omega
  unfold rotlGeneric32 rotl32
  show (⟨x.toBitVec <<< (UInt32.ofNat _ % 32).toBitVec ||| x.toBitVec >>> (UInt32.ofNat _ % 32).toBitVec⟩ : UInt32) = _
  rw [BitVec.shiftLeft_eq', BitVec.ushiftRight_eq', hamt _ hr, hamt _ (by omega), shifts_eq_rotateLeft _ hr]

theorem rotlGeneric64_eq_rotl64 (x : UInt64) (i : Int) : rotlGeneric64 x i = rotl64 x i := by
  have hr : (i % 64).toNat < 64 := by omega
  have hamt : ∀ n < 64, (UInt64.ofNat n % 64).toBitVec.toNat = n := fun n hn => by
    show n % 2 ^ 64 % 64 = n
    omega
  unfold rotlGeneric64 rotl64
  show (⟨x.toBitVec <<< (UInt64.ofNat _ % 64).toBitVec ||| x.toBitVec >>> (UInt64.ofNat _ % 64).toBitVec⟩ : UInt64) = _
  rw [BitVec.shiftLeft_eq', BitVec.ushiftRight_eq', hamt _ hr, hamt _ (by omega), shifts_eq_rotateLeft _ hr]

/-- On every word and every count, at 32 and at 64 bits, `rotl_generic`
and the processor's rotation agree. -/
theorem rotlGeneric_eq_rotl :
    (∀ x i, rotlGeneric32 x i = rotl32 x i) ∧ ∀ x i, rotlGeneric64 x i = rotl64 x i :=
  ⟨rotlGeneric32_eq_rotl32, rotlGeneric64_eq_rotl64⟩

end Melon.Base
