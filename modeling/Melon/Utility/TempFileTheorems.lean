/-
Melon.Utility.TempFileTheorems — what a guard closes, and what
`temp_file_write_all` can return.

* `FdGuard.run_closes` — over any calls on a guard and its destructor,
  the descriptors closed and those `release()` handed back are, together,
  exactly the non-negative ones the guard was given, each as often as it
  was given. `reset(fd)` with the guard's own descriptor gives it twice:
  it is closed by `reset` and again by the destructor (`reset_self`).
* `writeAllLoop_spec` — the loop returns `count` with every byte written,
  or `-1`; so `save_bin` never reaches its `errno = ENOSPC` branch
  (`saveBin_ne_enospc`).
* `writeAllLoop_zero_writes` — a `write` that keeps returning 0 for a
  non-empty remainder is retried for ever: the loop has no bound.

## How the proof goes

Each result is an induction over the calls or the writes, following the
recursion of `FdGuard.run` and `writeAllLoop`; the step of the first is
one `List.Perm` rearrangement per call.
-/
import Melon.Utility.TempFile

namespace Melon.Utility

/-! ## 1. `fd_guard` -/

namespace FdGuard

/-- `reset` with the guard's own descriptor closes it and keeps it. -/
theorem reset_self (g : FdGuard) (h : 0 ≤ g.fd) : g.reset g.fd = (g, [g.fd]) := by
  simp [reset, closeOwned, h]

/-- The descriptor a guard owns, among the non-negative ones. -/
theorem filter_cons_fd (g : FdGuard) (l : List Int) : (g.fd :: l).filter (0 ≤ ·) = g.closeOwned ++ l.filter (0 ≤ ·) := by
  by_cases h : 0 ≤ g.fd <;> simp [closeOwned, h]

/-- Every non-negative descriptor a guard is given is closed by it or
handed back by `release()`, once for each time it was given. -/
theorem run_closes (g : FdGuard) (calls : List GuardCall) :
    ((run g calls).1 ++ (run g calls).2.filter (0 ≤ ·)).Perm ((g.fd :: given calls).filter (0 ≤ ·)) := by
  induction calls generalizing g with
  | nil => simp [run, given, destroy, filter_cons_fd]
  | cons c calls ih =>
    rw [filter_cons_fd]
    cases c with
    | reset fd =>
      simp only [run, given, reset, List.append_assoc]
      exact (ih ⟨fd⟩).append_left _
    | release =>
      have hrest : (given calls).filter (0 ≤ ·) = ((⟨-1⟩ : FdGuard).fd :: given calls).filter (0 ≤ ·) := by
        simp [filter_cons_fd, closeOwned]
      simp only [run, given, release, filter_cons_fd, ← List.append_assoc, hrest]
      exact (List.perm_append_comm.append_right _).trans (by rw [List.append_assoc]; exact (ih ⟨-1⟩).append_left _)

end FdGuard

/-! ## 2. `temp_file_write_all` -/

/-- The loop returns `count` with all of it written, or `-1`. -/
theorem writeAllLoop_spec (count : Nat) :
    ∀ (off : Nat) (ws : List WriteReturn) {rc : Int} {n : Nat}, writeAllLoop count off ws = some (rc, n) →
      (rc = count ∧ n = count) ∨ rc = -1
  | _, [], _, _, h => by cases h
  | off, w :: ws, rc, n, h => by
    unfold writeAllLoop at h
    split_ifs at h
    · cases h; exact .inl ⟨rfl, rfl⟩
    · exact writeAllLoop_spec count _ ws h
    · cases h; exact .inr rfl
    · exact writeAllLoop_spec count _ ws h

/-- `save_bin` sets `errno = ENOSPC` on no run: `temp_file_write_all`
returns `count` or `-1`. -/
theorem saveBin_ne_enospc (reopened : Bool) (count : Nat) (ws : List WriteReturn) :
    saveBin reopened count ws ≠ some (-1, some ENOSPC) := by
  unfold saveBin
  split
  · simp
  · intro h
    obtain ⟨⟨rc, n⟩, hw, he⟩ := Option.map_eq_some'.1 h
    have hc : ¬(count : Int) < 0 := by omega
    rcases writeAllLoop_spec count 0 ws hw with ⟨rfl, -⟩ | rfl <;> simp [hc] at he

/-- However many times `write` returns 0 for a non-empty remainder, the
loop has not returned. -/
theorem writeAllLoop_zero_writes {count off : Nat} (h : off < count) (errno : Nat) :
    ∀ k, writeAllLoop count off (List.replicate k ⟨0, errno⟩) = none
  | 0 => rfl
  | k + 1 => by
    have hne : (0 : Int) ≠ ((count - off : Nat) : Int) := by omega
    simp only [List.replicate_succ, writeAllLoop, hne, if_false, le_refl, if_true, Int.toNat_zero, Nat.add_zero]
    exact writeAllLoop_zero_writes h errno k

end Melon.Utility
