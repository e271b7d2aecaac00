/-
Melon.Base.LibcTheorems — the C library text functions of
`Melon.Base.Libc` read back what the printers write.

* `toDigits_eq` — `Nat.toDigits 10 n` is the digits of `n / 10`, then
  the last digit; every later lemma about `"%d"` and `"%u"` cites it
  and not the fuel of `Nat.toDigitsCore`.
* `strtol_decimalInt` — `strtol` reads a printed non-negative `long`
  back, consuming all of it.
* `inetPton4_inetNtop4` — `inet_pton(AF_INET)` reads back every address
  `inet_ntop(AF_INET)` prints.

## How the proof goes

`digitsValue_toDigits` is strong induction on `n` through `toDigits_eq`.
The loop of `inet_pton4` reads one printed octet from a fresh state into
`tp` (`inetPton4Loop_toDigits`, strong induction on the octet: the
digits after the first see `tp = m / 10 ≠ 0`, so the leading-zero check
never fires), then a dot; four octets leave `octets = 4`.
-/
import Melon.Base.Libc
import Mathlib.Tactic.IntervalCases
import Mathlib.Data.Nat.Digits

namespace Melon.Base

/-! ## 1. Decimal digits -/

theorem toDigitsCore_append (f n : Nat) (ds : List Char) (hf : n < f) :
    Nat.toDigitsCore 10 f n ds = Nat.toDigitsCore 10 f n [] ++ ds := by
  induction f generalizing n ds with
  | zero => omega
  | succ f ih =>
    simp only [Nat.toDigitsCore]
    split_ifs with h
    · rfl
    · rw [ih _ _ (by omega), ih _ [_] (by omega), List.append_assoc, List.singleton_append]

theorem toDigitsCore_fuel (f f' n : Nat) (hf : n < f) (hf' : n < f') :
    Nat.toDigitsCore 10 f n [] = Nat.toDigitsCore 10 f' n [] := by
  induction f generalizing n f' with
  | zero => omega
  | succ f ih =>
    obtain ⟨g, rfl⟩ : ∃ g, f' = g + 1 := ⟨f' - 1, by omega⟩
    simp only [Nat.toDigitsCore]
    split_ifs with h
    · rfl
    · rw [toDigitsCore_append f (n / 10) _ (by omega), toDigitsCore_append g (n / 10) _ (by omega),
        ih g (n / 10) (by omega) (by omega)]

/-- `"%u"` of `n`: the digits of `n / 10`, then the last one. -/
theorem toDigits_eq (n : Nat) :
    Nat.toDigits 10 n = (if n < 10 then [] else Nat.toDigits 10 (n / 10)) ++ [Nat.digitChar (n % 10)] := by
  rw [Nat.toDigits, Nat.toDigitsCore]
  split_ifs with h₁ h₂ h₂
  · rfl
  · omega
  · omega
  · rw [toDigitsCore_append _ _ _ (by omega), Nat.toDigits, toDigitsCore_fuel n (n / 10 + 1) _ (by omega) (by omega)]

theorem digitChar_of_lt {d : Nat} (h : d < 10) :
    (Nat.digitChar d).isDigit = true ∧ (Nat.digitChar d).toNat - '0'.toNat = d :=
  (by decide : ∀ d : Fin 10, (Nat.digitChar d).isDigit = true ∧ (Nat.digitChar d).toNat - '0'.toNat = d) ⟨d, h⟩

theorem isDigit_of_mem_toDigits (n : Nat) : ∀ c ∈ Nat.toDigits 10 n, c.isDigit = true := by
  induction n using Nat.strong_induction_on with
  | _ n ih =>
    rw [toDigits_eq]
    intro c hc
    rcases List.mem_append.1 hc with hc | hc
    · split_ifs at hc with h
      · cases hc
      · exact ih _ (by omega) c hc
    · rw [List.mem_singleton.1 hc]; exact (digitChar_of_lt (Nat.mod_lt _ (by omega))).1

theorem toDigits_ne_nil (n : Nat) : Nat.toDigits 10 n ≠ [] := by
  rw [toDigits_eq]; simp

theorem toDigits_length_le (n k : Nat) (h : n < 10 ^ (k + 1)) : (Nat.toDigits 10 n).length ≤ k + 1 := by
  induction k generalizing n with
  | zero => rw [toDigits_eq, if_pos (by omega)]; simp
  | succ k ih =>
    rw [toDigits_eq]
    split_ifs
    · simp
    · have := ih (n / 10) (by rw [pow_succ] at h; omega)
      simp only [List.length_append, List.length_singleton]; omega

theorem digitsValue_toDigits (n : Nat) : digitsValue (Nat.toDigits 10 n) = n := by
  induction n using Nat.strong_induction_on with
  | _ n ih =>
    have hd := (digitChar_of_lt (Nat.mod_lt n (by omega : 10 > 0))).2
    rw [toDigits_eq, digitsValue, List.foldl_append, List.foldl_cons, List.foldl_nil]
    split_ifs with h
    · simp only [List.foldl_nil, hd]; omega
    · rw [← digitsValue, ih _ (by omega), hd]; omega

/-- A digit is not white space. -/
theorem isspace_of_isDigit {c : Char} (h : c.isDigit = true) : isspace c = false := by
  cases hc : isspace c
  · rfl
  · simp only [isspace, Bool.or_eq_true, beq_iff_eq] at hc
    rcases hc with ((((rfl | rfl) | rfl) | rfl) | rfl) | rfl <;> simp at h

/-! ## 2. `strtol` and `"%d"` -/

theorem decimalInt_of_nonneg {n : Int} (h : 0 ≤ n) : decimalInt n = Nat.toDigits 10 n.toNat := by
  rw [decimalInt, if_neg (by omega)]

/-- `strtol` reads a printed non-negative `long` back, and stops before
what follows when that is not a digit. -/
theorem strtol_decimalInt_append {n : Int} (h : 0 ≤ n) (h' : n ≤ LONG_MAX) (tail : List Char)
    (ht : ∀ c ∈ tail.head?, c.isDigit = false) :
    strtol (decimalInt n ++ tail) = (n, (decimalInt n).length) := by
  rw [decimalInt_of_nonneg h]
  have hdig := isDigit_of_mem_toDigits n.toNat
  obtain ⟨c, cs, hcs⟩ : ∃ c cs, Nat.toDigits 10 n.toNat = c :: cs :=
    List.exists_cons_of_ne_nil (toDigits_ne_nil _)
  have hc := hdig c (by rw [hcs]; exact List.mem_cons_self _ _)
  have hws : (Nat.toDigits 10 n.toNat ++ tail).takeWhile isspace = [] := by
    rw [hcs, List.cons_append, List.takeWhile_cons, isspace_of_isDigit hc]; rfl
  have hsgn : ¬((Nat.toDigits 10 n.toNat ++ tail).head? = some '-' ∨
      (Nat.toDigits 10 n.toNat ++ tail).head? = some '+') := by
    rw [hcs]; rintro (h | h) <;> (cases h; simp at hc)
  have htail : tail.takeWhile Char.isDigit = [] := by
    cases tail with
    | nil => rfl
    | cons d ds => rw [List.takeWhile_cons, if_neg (by simpa using ht d rfl)]
  have hds : (Nat.toDigits 10 n.toNat ++ tail).takeWhile Char.isDigit = Nat.toDigits 10 n.toNat := by
    rw [List.takeWhile_append_of_pos hdig, htail, List.append_nil]
  simp only [strtol, hws, List.length_nil, List.drop_zero, hsgn, if_false, hds, toDigits_ne_nil,
    digitsValue_toDigits, Int.toNat_of_nonneg h, Nat.zero_add]
  rw [if_neg (by rw [hcs]; intro h; cases h; simp at hc)]
  simp only [Int.toNat_of_nonneg h, Prod.mk.injEq, and_true]
  rw [min_eq_right h', max_eq_right (by rw [LONG_MIN]; omega)]

/-- `strtol` reads a printed non-negative `long` back, consuming all of
it. -/
theorem strtol_decimalInt {n : Int} (h : 0 ≤ n) (h' : n ≤ LONG_MAX) :
    strtol (decimalInt n) = (n, (decimalInt n).length) := by
  simpa using strtol_decimalInt_append h h' [] (by simp)

/-- `toCInt` leaves an `int` alone. -/
theorem toCInt_of_range {n : Int} (h : -2 ^ 31 ≤ n) (h' : n < 2 ^ 31) : toCInt n = n := by
  rw [toCInt, Int.emod_eq_of_lt (by omega) (by omega)]; omega

/-! ## 3. `inet_pton` and `inet_ntop` for `AF_INET` -/

/-- The loop reads one printed octet from a fresh state. -/
theorem inetPton4Loop_toDigits (m : Nat) (hm : m < 256) (rest : List Char) {o : Nat} (ho : o < 4)
    (prev : List Nat) :
    inetPton4Loop (Nat.toDigits 10 m ++ rest) false o 0 prev = inetPton4Loop rest true (o + 1) m prev := by
  induction m using Nat.strong_induction_on generalizing rest with
  | _ m ih =>
    obtain ⟨hd, hv⟩ := digitChar_of_lt (Nat.mod_lt m (by omega : 10 > 0))
    rw [toDigits_eq]
    split_ifs with h
    · rw [List.nil_append, List.singleton_append, inetPton4Loop, if_pos hd, hv, Nat.mod_eq_of_lt h]
      simp only [Bool.false_and, Bool.false_eq_true, if_false, Bool.not_false, if_true]
      rw [if_neg (by omega), if_neg (by omega), Nat.zero_mul, Nat.zero_add]
    · rw [List.append_assoc, List.singleton_append, ih _ (by omega) (by omega), inetPton4Loop, if_pos hd, hv]
      have hne : (m / 10 == 0) = false := by simp; omega
      simp only [Bool.true_and, hne, Bool.false_eq_true, if_false, Bool.not_true]
      rw [if_neg (by omega), show m / 10 * 10 + m % 10 = m by omega]

theorem inetPton4Loop_dot (rest : List Char) {o : Nat} (ho : o < 4) (tp : Nat) (prev : List Nat) :
    inetPton4Loop ('.' :: rest) true o tp prev = inetPton4Loop rest false o 0 (tp :: prev) := by
  rw [inetPton4Loop, if_neg (by decide), if_pos (by decide), if_neg (by simp; omega)]

/-- `inet_pton(AF_INET)` reads back what `inet_ntop(AF_INET)` prints. -/
theorem inetPton4_inetNtop4 (ip : UInt32) : inetPton4 (inetNtop4 ip) = some ip := by
  have hip : ip.toNat < 2 ^ 32 := ip.toNat_lt_size
  simp only [inetPton4, inetNtop4, octets, List.append_assoc, List.cons_append]
  rw [← List.append_nil (Nat.toDigits 10 (ip.toNat / 16777216)),
    inetPton4Loop_toDigits _ (by omega) _ (by omega), inetPton4Loop_dot _ (by omega),
    inetPton4Loop_toDigits _ (by omega) _ (by omega), inetPton4Loop_dot _ (by omega),
    inetPton4Loop_toDigits _ (by omega) _ (by omega), inetPton4Loop_dot _ (by omega),
    inetPton4Loop_toDigits _ (by omega) _ (by omega), inetPton4Loop, if_neg (by omega)]
  simp only [List.reverse_cons, List.reverse_nil, List.nil_append, List.singleton_append,
    List.cons_append, Option.map_some', ofOctets, List.foldr, Option.some.injEq]
  refine UInt32.toNat.inj ((BitVec.toNat_ofNat _ _).trans ?_)
  show _ % 2 ^ 32 = ip.toNat
  omega

/-- What `inet_ntop(AF_INET)` prints: digits and dots, at most 15. -/
theorem inetNtop4_chars (ip : UInt32) :
    (∀ c ∈ inetNtop4 ip, c.isDigit = true ∨ c = '.') ∧ (inetNtop4 ip).length ≤ 15 ∧
      ∃ c cs, inetNtop4 ip = c :: cs ∧ c.isDigit = true := by
  have hip : ip.toNat < 2 ^ 32 := ip.toNat_lt_size
  have hl (m : Nat) (h : m < 256) : (Nat.toDigits 10 m).length ≤ 3 := toDigits_length_le m 2 (by omega)
  have hd (m : Nat) : ∀ c ∈ Nat.toDigits 10 m, c.isDigit = true ∨ c = '.' :=
    fun c hc => .inl (isDigit_of_mem_toDigits m c hc)
  obtain ⟨c, cs, hcs⟩ := List.exists_cons_of_ne_nil (toDigits_ne_nil (ip.toNat % 256))
  simp only [inetNtop4, octets]
  refine ⟨?_, ?_, ⟨c, _, by rw [hcs, List.cons_append, List.cons_append, List.cons_append], ?_⟩⟩
  · intro c' hc'
    simp only [List.mem_append, List.mem_cons, or_assoc] at hc'
    rcases hc' with h | h | h | h | h | h | h <;> first | exact .inr h | exact hd _ c' h
  · simp only [List.length_append, List.length_cons]
    have := hl (ip.toNat % 256) (Nat.mod_lt _ (by omega)); have := hl (ip.toNat / 256 % 256) (Nat.mod_lt _ (by omega))
    have := hl (ip.toNat / 65536 % 256) (Nat.mod_lt _ (by omega)); have := hl (ip.toNat / 16777216) (by omega)
    omega
  · exact isDigit_of_mem_toDigits _ c (by rw [hcs]; exact List.mem_cons_self _ _)

end Melon.Base
