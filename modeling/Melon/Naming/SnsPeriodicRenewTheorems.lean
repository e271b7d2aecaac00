/-
Melon.Naming.SnsPeriodicRenewTheorems — when `periodic_renew`
re-registers, over every run of the fiber.

* `reregister_after_threshold_failures` — for every `int` threshold, every
  warning (and so every re-registration) comes right after a run of
  exactly `threshold mod 2^32` failed renewals: `threshold` itself when it
  is positive, `2^32 + threshold` when it is negative, since
  `consecutive_renew_error` wraps through `INT_MIN` to it. With 0 the run
  is empty, or, after a re-registration, 2^32 long.
* `failed_renew_retried_at_once` — what follows a failed renewal is
  another renewal or the warning, never a sleep: the fiber retries at
  once.

## How the proof goes

`trailingFails` counts the failed renewals at the end of the trace. The
trace invariant `TraceOk` (the two statements above, for the trace so
far) is kept by appending an action under two side conditions
(`TraceOk.snoc`). `PcOk` says that at the loop head and before a renewal
`consecutive_renew_error` is `trailingFails` stored in an `int`, and that
`trailingFails` has not passed `failLimit`, the first count the loop head
checks whose `int` equals the threshold. One step keeps both
(`RenewInv.step`), and so does a run (`RenewInv.run`).
-/
import Melon.Naming.SnsPeriodicRenew

namespace Melon.Naming

/-! ## 1. Failed renewals at the end of a trace -/

/-- The number of failed renewals the trace ends with. -/
def trailingFails (tr : List RenewAct) : Nat := (tr.reverse.takeWhile (· == .renew false)).length

@[simp] theorem trailingFails_nil : trailingFails [] = 0 := rfl

theorem trailingFails_snoc (tr : List RenewAct) (a : RenewAct) :
    trailingFails (tr ++ [a]) = if a = .renew false then trailingFails tr + 1 else 0 := by
  by_cases h : a = .renew false
  · simp [trailingFails, h]
  · simp [trailingFails, h, List.takeWhile_cons]

@[simp] theorem trailingFails_snoc_fail (tr : List RenewAct) : trailingFails (tr ++ [.renew false]) = trailingFails tr + 1 := by
  simp [trailingFails_snoc]

theorem trailingFails_snoc_of_ne {a : RenewAct} (h : a ≠ .renew false) (tr : List RenewAct) :
    trailingFails (tr ++ [a]) = 0 := by
  simp [trailingFails_snoc, h]

@[simp] theorem trailingFails_snoc_sleep (tr : List RenewAct) : trailingFails (tr ++ [.sleep]) = 0 :=
  trailingFails_snoc_of_ne (by simp) tr

@[simp] theorem trailingFails_pair_sleep (tr : List RenewAct) (a : RenewAct) : trailingFails (tr ++ [a, .sleep]) = 0 := by
  rw [show tr ++ [a, .sleep] = tr ++ [a] ++ [.sleep] by simp, trailingFails_snoc_sleep]

/-! ## 2. What holds of the trace -/

open Melon.Base (toCInt)

/-- Every warning comes right after `threshold mod 2^32` failed renewals,
or after 2^32 of them when that is 0. -/
def WarnOk (threshold : Int) (tr : List RenewAct) : Prop :=
  ∀ pre post, tr = pre ++ .warn :: post →
    (trailingFails pre : Int) = threshold % 2 ^ 32 ∨ (threshold = 0 ∧ trailingFails pre = 2 ^ 32)

/-- A failed renewal is followed by a renewal or a warning. -/
def RetryOk (tr : List RenewAct) : Prop :=
  ∀ pre a post, tr = pre ++ .renew false :: a :: post → a = .warn ∨ ∃ b, a = .renew b

/-- The trace invariant. -/
structure TraceOk (threshold : Int) (tr : List RenewAct) : Prop where
  warns : WarnOk threshold tr
  retries : RetryOk tr

variable {threshold : Int}

theorem TraceOk.nil : TraceOk threshold [] :=
  ⟨fun pre post h => by simp at h, fun pre a post h => by simp at h⟩

/-- Appending one action keeps the invariant: a warning only after the
right number of failures, and only a renewal or a warning after a
failure. -/
theorem TraceOk.snoc {tr : List RenewAct} (h : TraceOk threshold tr) {a : RenewAct}
    (hw : a = .warn →
      (trailingFails tr : Int) = threshold % 2 ^ 32 ∨ (threshold = 0 ∧ trailingFails tr = 2 ^ 32))
    (hr : 0 < trailingFails tr → a = .warn ∨ ∃ b, a = .renew b) : TraceOk threshold (tr ++ [a]) := by
  refine ⟨fun pre post he => ?_, fun pre x post he => ?_⟩
  · rcases List.eq_nil_or_concat post with rfl | ⟨post, c, rfl⟩
    · obtain ⟨rfl, hx⟩ := List.append_inj' he rfl
      exact hw (List.singleton_inj.1 hx)
    · rw [List.concat_eq_append, ← List.cons_append, ← List.append_assoc] at he
      exact h.warns pre post (List.append_inj' he rfl).1
  · rcases List.eq_nil_or_concat post with rfl | ⟨post, c, rfl⟩
    · rw [show pre ++ [RenewAct.renew false, x] = (pre ++ [.renew false]) ++ [x] by simp] at he
      obtain ⟨rfl, hx⟩ := List.append_inj' he rfl
      rw [← List.singleton_inj.1 hx]
      exact hr (by simp)
    · rw [List.concat_eq_append, ← List.cons_append, ← List.cons_append, ← List.append_assoc] at he
      exact h.retries pre x post (List.append_inj' he rfl).1

/-! ## 3. The counter -/

/-- The most failed renewals in a row the loop head lets through:
`threshold mod 2^32`, the first count whose `int` is `threshold`, or 2^32
when that is 0 (a re-registration leaves the counter at 0 before a
renewal, so the loop head first sees it at 1). -/
def failLimit (threshold : Int) : Int := if threshold % 2 ^ 32 = 0 then 2 ^ 32 else threshold % 2 ^ 32

theorem one_le_failLimit (threshold : Int) : 1 ≤ failLimit threshold := by
  unfold failLimit
  split_ifs <;> omega

variable {n : Nat}

/-- At the loop head the counter is `threshold` only at `failLimit`, or at
0 when the threshold is 0; it is then an `int`. -/
theorem count_of_toCInt_eq (he : toCInt n = threshold)
    (hn : -2 ^ 31 ≤ threshold ∧ threshold < 2 ^ 31 → n ≤ failLimit threshold) :
    (n : Int) = threshold % 2 ^ 32 ∨ (threshold = 0 ∧ n = 2 ^ 32) := by
  have hr : -2 ^ 31 ≤ threshold ∧ threshold < 2 ^ 31 := by unfold toCInt at he; omega
  have hn := hn hr
  unfold toCInt at he
  unfold failLimit at hn
  split_ifs at hn <;> omega

/-- Up to `failLimit`, a count whose `int` is not `threshold` is below it. -/
theorem lt_failLimit (he : toCInt n ≠ threshold)
    (hn : -2 ^ 31 ≤ threshold ∧ threshold < 2 ^ 31 → n ≤ failLimit threshold) :
    -2 ^ 31 ≤ threshold ∧ threshold < 2 ^ 31 → n < failLimit threshold := fun hr => by
  have hn := hn hr
  unfold toCInt at he
  unfold failLimit at hn ⊢
  split_ifs at hn ⊢ <;> omega

/-- `consecutive_renew_error++` on the `int` of a count is the `int` of the
next count. -/
theorem toCInt_succ_toCInt (v : Int) : toCInt (toCInt v + 1) = toCInt (v + 1) := by
  unfold toCInt
  omega

/-! ## 4. The fiber -/

namespace RenewFiber

/-- What holds at each place of the fiber. A threshold outside the range
of `int` is never equal to the counter, so it bounds nothing. -/
def PcOk (threshold : Int) (f : RenewFiber) : Prop :=
  match f.pc with
  | .start => f.trace = [] ∧ f.consecutiveRenewError = 0
  | .loop => f.consecutiveRenewError = toCInt (trailingFails f.trace) ∧
    (-2 ^ 31 ≤ threshold ∧ threshold < 2 ^ 31 → trailingFails f.trace ≤ failLimit threshold)
  | .renew => f.consecutiveRenewError = toCInt (trailingFails f.trace) ∧
    (-2 ^ 31 ≤ threshold ∧ threshold < 2 ^ 31 → trailingFails f.trace < failLimit threshold)
  | .reregister | .register => trailingFails f.trace = 0
  | .done => True

/-- The invariant of the fiber. -/
structure RenewInv (threshold : Int) (f : RenewFiber) : Prop where
  trace : TraceOk threshold f.trace
  pc : PcOk threshold f

theorem renewInv_init : RenewInv threshold init := ⟨TraceOk.nil, ⟨rfl, rfl⟩⟩

theorem RenewInv.step {f : RenewFiber} (h : RenewInv threshold f) (b : Bool) :
    RenewInv threshold (f.step threshold b) := by
  obtain ⟨ht, hp⟩ := h
  have h1 := one_le_failLimit threshold
  have h0 : toCInt 0 = 0 := by decide
  unfold RenewFiber.step
  unfold PcOk at hp
  split <;> simp only [*] at hp
  case h_1 =>
    have ht' := ht.snoc (a := .sleep) (by simp) (by simp [hp.1])
    cases b
    · refine ⟨ht', ?_⟩
      simp only [PcOk, hp.2, if_false, trailingFails_snoc_sleep]
      exact ⟨h0.symm, fun _ => by omega⟩
    · exact ⟨ht', by simp [PcOk]⟩
  case h_2 =>
    split
    · exact ⟨ht, by simp [PcOk]⟩
    split
    · next he => exact ⟨ht.snoc (fun _ => count_of_toCInt_eq (hp.1 ▸ he) hp.2) (fun _ => .inl rfl),
        by simp [PcOk, trailingFails_snoc_of_ne]⟩
    · next he => exact ⟨ht, by simp only [PcOk]; exact ⟨hp.1, lt_failLimit (hp.1 ▸ he) hp.2⟩⟩
  case h_3 =>
    split
    · exact ⟨ht, by simp only [PcOk, hp]; exact ⟨h0.symm, fun _ => by omega⟩⟩
    · exact ⟨ht, by simpa [PcOk] using hp⟩
  case h_4 =>
    have hr : ∀ a : RenewAct, 0 < trailingFails f.trace → a = .warn ∨ ∃ b, a = .renew b := by simp [hp]
    split
    · refine ⟨ht.snoc (by simp) (hr _), ?_⟩
      simp only [PcOk, trailingFails_snoc_of_ne (a := .register true) (by simp)]
      exact ⟨h0.symm, fun _ => by omega⟩
    · have ht' := ht.snoc (a := .register false) (by simp) (hr _)
      exact ⟨by simpa using ht'.snoc (a := .sleep) (by simp) (by simp [trailingFails_snoc_of_ne]),
        by simp [PcOk]⟩
  case h_5 =>
    split
    · have ht' := ht.snoc (a := .renew true) (by simp) (fun _ => .inr ⟨_, rfl⟩)
      refine ⟨by simpa using ht'.snoc (a := .sleep) (by simp) (by simp [trailingFails_snoc_of_ne]), ?_⟩
      simp only [PcOk, trailingFails_pair_sleep]
      exact ⟨h0.symm, fun _ => by omega⟩
    · refine ⟨ht.snoc (by simp) (fun _ => .inr ⟨_, rfl⟩), ?_⟩
      simp only [PcOk, trailingFails_snoc_fail, hp.1, toCInt_succ_toCInt]
      exact ⟨by push_cast; rfl, fun hr => by have := hp.2 hr; push_cast; omega⟩
  case h_6 => exact ⟨ht, by simp [PcOk, *]⟩

theorem RenewInv.run {f : RenewFiber} (h : RenewInv threshold f) (answers : List Bool) :
    RenewInv threshold (f.run threshold answers) := by
  induction answers generalizing f with
  | nil => exact h
  | cons b bs ih => exact ih (h.step b)

end RenewFiber

open RenewFiber

/-! ## 5. Every run of the fiber -/

theorem reregister_after_threshold_failures (threshold : Int) (answers : List Bool) {pre post : List RenewAct}
    (h : (init.run threshold answers).trace = pre ++ .warn :: post) :
    (trailingFails pre : Int) = threshold % 2 ^ 32 ∨ (threshold = 0 ∧ trailingFails pre = 2 ^ 32) :=
  (renewInv_init.run answers).trace.warns pre post h

theorem failed_renew_retried_at_once (threshold : Int) (answers : List Bool) {pre post : List RenewAct}
    {a : RenewAct} (h : (init.run threshold answers).trace = pre ++ .renew false :: a :: post) :
    a = .warn ∨ ∃ b, a = .renew b :=
  (renewInv_init.run answers).trace.retries pre a post h

/-! ## 6. Runs on fixed inputs -/

/-- A fiber with threshold 2 whose discovery server fails two renewals,
then accepts the registration and the next renewal. -/
def twoFailures : List Bool := [false, false, false, false, false, false, false, true, true]

theorem reregister_after_threshold_failures_two :
    (init.run 2 twoFailures).trace =
        [.sleep, .renew false, .renew false] ++ .warn :: [.register true, .renew true, .sleep] ∧
      ((trailingFails [.sleep, .renew false, .renew false] : Int) = 2 % 2 ^ 32 ∨
        ((2 : Int) = 0 ∧ trailingFails [.sleep, .renew false, .renew false] = 2 ^ 32)) :=
  ⟨rfl, @reregister_after_threshold_failures 2 twoFailures [.sleep, .renew false, .renew false]
    [.register true, .renew true, .sleep] rfl⟩

theorem failed_renew_retried_at_once_two :
    (init.run 2 twoFailures).trace = [.sleep] ++ .renew false :: .renew false :: [.warn, .register true, .renew true, .sleep] ∧
      (RenewAct.renew false = .warn ∨ ∃ b, RenewAct.renew false = .renew b) :=
  ⟨rfl, @failed_renew_retried_at_once 2 twoFailures [.sleep] [.warn, .register true, .renew true, .sleep]
    (.renew false) rfl⟩

end Melon.Naming
