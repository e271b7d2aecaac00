/-
Melon.Raft.LogIndex — runs of consecutive log indices, the shape both the
deque of `MemoryLogStorage` and the pending queue of `BallotBox` keep.
-/
import Mathlib.Data.List.Basic

namespace Melon.Raft

/-- `a, a + 1, ..., a + n - 1`. -/
def idsFrom (a : Int) : Nat → List Int
  | 0 => []
  | n + 1 => a :: idsFrom (a + 1) n

@[simp] theorem length_idsFrom (a : Int) (n : Nat) : (idsFrom a n).length = n := by
  induction n generalizing a <;> simp [idsFrom, *]

theorem idsFrom_succ (a : Int) (n : Nat) : idsFrom a (n + 1) = idsFrom a n ++ [a + n] := by
  induction n generalizing a with
  | zero => simp [idsFrom]
  | succ n ih =>
    rw [idsFrom, ih, idsFrom]
    simp only [List.cons_append, List.cons.injEq, List.append_cancel_left_eq, true_and, and_true]
    omega

theorem idsFrom_drop (a : Int) : ∀ (n m : Nat), (idsFrom a n).drop m = idsFrom (a + m) (n - m)
  | n, 0 => by simp
  | 0, m + 1 => by simp [idsFrom]
  | n + 1, m + 1 => by
    rw [idsFrom, List.drop_succ_cons, idsFrom_drop (a + 1) n m]
    rw [Nat.add_sub_add_right]
    congr 1
    omega

theorem idsFrom_take (a : Int) : ∀ (n m : Nat), (idsFrom a n).take m = idsFrom a (min m n)
  | n, 0 => by simp [idsFrom]
  | 0, m + 1 => by simp [idsFrom]
  | n + 1, m + 1 => by
    rw [idsFrom, List.take_succ_cons, idsFrom_take (a + 1) n m, Nat.add_min_add_right, idsFrom]

theorem getElem?_idsFrom (a : Int) : ∀ (n i : Nat), (idsFrom a n)[i]? = if i < n then some (a + i) else none
  | 0, i => by simp [idsFrom]
  | n + 1, 0 => by simp [idsFrom]
  | n + 1, i + 1 => by
    rw [idsFrom, List.getElem?_cons_succ, getElem?_idsFrom (a + 1) n i]
    simp only [Nat.add_lt_add_iff_right]
    split_ifs <;> simp only [Option.some.injEq]
    omega

end Melon.Raft
