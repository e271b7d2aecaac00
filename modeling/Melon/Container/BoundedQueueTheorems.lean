/-
Melon.Container.BoundedQueueTheorems — `bounded_queue` against the list of
its items, `L = [slot((_start + i) mod _cap) | i < _count]`.

## How the proof goes

`_mod(off, cap)` is `off % cap` for every `cap > 0` (`mod_eq`). `Refines q L`
says that `q` holds `L`: the capacity is positive, `_start < _cap`,
`_count = |L|` and slot `(_start + i) % _cap` holds `L[i]`. For capacities
up to 2^31 every sum the queue hands to `_mod` is below 2^32, so no
`uint32_t` addition wraps, and each member function does on `L` what the
list model does (`Refines.push`, `Refines.pushTop`, ...). The two slot facts
everything rests on are that `(s + i) % c` are distinct for distinct
`i < c` (`slot_ne`) and how a position moves when `_start` moves by one
(`slot_succ`, `slot_prev`).

Past 2^31 the sum `_start + _count` can wrap: at capacity 2^32 - 1, after
`push_top` and two `push`es both pushes land in slot 0, and `top(1)` then
returns the last item (`topAt_one_after_wrap`).
-/
import Melon.Container.BoundedQueue

namespace Melon.Container

/-! ## 1. `uint32_t` arithmetic -/

namespace U32

theorem toNat_add (a b : UInt32) : (a + b).toNat = (a.toNat + b.toNat) % 2 ^ 32 := rfl

theorem lt_iff (a b : UInt32) : a < b ↔ a.toNat < b.toNat := Iff.rfl

theorem toNat_ofNat (n : Nat) : (UInt32.ofNat n).toNat = n % 2 ^ 32 := BitVec.toNat_ofNat _ _

theorem toNat_one : (1 : UInt32).toNat = 1 := rfl

theorem eq_zero_iff (a : UInt32) : a = 0 ↔ a.toNat = 0 :=
  ⟨fun h => h ▸ rfl, fun h => UInt32.toNat.inj h⟩

theorem toNat_sub {a b : UInt32} (h : b.toNat ≤ a.toNat) : (a - b).toNat = a.toNat - b.toNat :=
  UInt32.toNat_sub_of_le a b h

theorem lt_size (a : UInt32) : a.toNat < 2 ^ 32 := a.toNat_lt_size

end U32

/-! ## 2. `_mod` -/

/-- Enough rounds of the loop compute the remainder. -/
theorem modLoop_eq {cap : Nat} (hcap : 0 < cap) :
    ∀ (fuel off : Nat), off / cap ≤ fuel → modLoop cap fuel off = some (off % cap)
  | 0, off, h => by
    have : off < cap := by rwa [Nat.le_zero, Nat.div_eq_zero_iff hcap] at h
    rw [modLoop, if_neg (by omega), Nat.mod_eq_of_lt this]
  | fuel + 1, off, h => by
    rw [modLoop]
    split_ifs with hoff
    · rw [modLoop_eq hcap fuel (off - cap) (by rw [Nat.div_eq_sub_div hcap hoff] at h; omega),
        ← Nat.mod_eq_sub_mod hoff]
    · rw [Nat.mod_eq_of_lt (by omega)]

/-- With `cap = 0` the loop never leaves. -/
theorem modLoop_zero : ∀ (fuel off : Nat), modLoop 0 fuel off = none
  | 0, off => by rw [modLoop, if_pos (Nat.zero_le off)]
  | fuel + 1, off => by rw [modLoop, if_pos (Nat.zero_le off), modLoop_zero fuel]

namespace BoundedQueue

/-- `_mod(off, cap)` returns `off % cap` for every `cap > 0`. -/
theorem mod_eq {off cap : UInt32} (hcap : 0 < cap.toNat) :
    mod off cap = some (UInt32.ofNat (off.toNat % cap.toNat)) := by
  rw [mod, modLoop_eq hcap _ _ (Nat.div_le_self _ _), Option.map_some']

/-- `_mod(off, 0)` never returns. -/
theorem mod_zero (off : UInt32) : mod off 0 = none := by
  rw [mod, UInt32.toNat_zero, modLoop_zero, Option.map_none']

end BoundedQueue

/-! ## 3. Slots -/

/-- Positions below the capacity go to distinct slots. -/
theorem slot_ne {s a b c : Nat} (hab : a < b) (hb : b < a + c) : (s + a) % c ≠ (s + b) % c := by
  intro h
  have h' := Nat.sub_mod_eq_zero_of_mod_eq h.symm
  rw [show s + b - (s + a) = b - a by omega, Nat.mod_eq_of_lt (by omega)] at h'
  omega

/-- One step further from `_start` is one step further from the next slot. -/
theorem slot_succ (s i c : Nat) : ((s + 1) % c + i) % c = (s + (i + 1)) % c := by
  rw [Nat.add_mod, Nat.mod_mod, ← Nat.add_mod, Nat.add_assoc, Nat.add_comm 1 i]

/-- The slot before `_start`, and the positions counted from it. -/
theorem slot_prev {s c : Nat} (hs : s < c) (i : Nat) :
    ((if s ≠ 0 then s - 1 else c - 1) + (i + 1)) % c = (s + i) % c := by
  split_ifs with h
  · congr 1; omega
  · rw [show c - 1 + (i + 1) = (s + i) + c by omega, Nat.add_mod_right]

theorem slot_prev_lt {s c : Nat} (hs : s < c) : (if s ≠ 0 then s - 1 else c - 1) < c := by
  split_ifs <;> omega

theorem prev_eq_mod {s c : Nat} (hs : s < c) : (if s ≠ 0 then s - 1 else c - 1) = (s + (c - 1)) % c := by
  split_ifs with h
  · rw [show s + (c - 1) = s - 1 + c by omega, Nat.add_mod_right, Nat.mod_eq_of_lt (by omega)]
  · rw [show s = 0 by omega, Nat.zero_add, Nat.mod_eq_of_lt (by omega)]

/-! ## 4. The bounded double-ended list -/

namespace QueueOp

variable {α : Type}

/-- What each call does to a double-ended list of capacity `c`: pushes on a
full list do nothing (`elim_push` drops the front first), pops on an empty
one do nothing, `clear` empties it. -/
def listStep (c : Nat) (dflt : α) (L : List α) : QueueOp α → List α
  | .push x => if L.length < c then L ++ [x] else L
  | .pushDefault => if L.length < c then L ++ [dflt] else L
  | .elimPush x => if L.length < c then L ++ [x] else L.tail ++ [x]
  | .pushTop x => if L.length < c then x :: L else L
  | .pushTopDefault => if L.length < c then dflt :: L else L
  | .pop | .popItem => L.tail
  | .popBottom | .popBottomItem => L.dropLast
  | .clear => []

def listRun (c : Nat) (dflt : α) (L : List α) (ops : List (QueueOp α)) : List α :=
  ops.foldl (listStep c dflt) L

end QueueOp

/-! ## 5. The list a queue holds -/

namespace BoundedQueue

variable {α : Type} {q : BoundedQueue α} {L : List α}

@[simp] theorem setSlot_items (q : BoundedQueue α) (i : UInt32) (x : α) (j : Nat) :
    (q.setSlot i x).items j = if j = i.toNat then some x else q.items j := rfl

@[simp] theorem setSlot_count (q : BoundedQueue α) (i : UInt32) (x : α) :
    (q.setSlot i x).count = q.count := rfl

@[simp] theorem setSlot_cap (q : BoundedQueue α) (i : UInt32) (x : α) :
    (q.setSlot i x).cap = q.cap := rfl

@[simp] theorem setSlot_start (q : BoundedQueue α) (i : UInt32) (x : α) :
    (q.setSlot i x).start = q.start := rfl

@[simp] theorem setSlot_log (q : BoundedQueue α) (i : UInt32) (x : α) :
    (q.setSlot i x).log = q.log ++ [.construct i] := rfl

@[simp] theorem assignSlot_items (q : BoundedQueue α) (i : UInt32) (x : α) (j : Nat) :
    (q.assignSlot i x).items j = if j = i.toNat then some x else q.items j := rfl

@[simp] theorem assignSlot_count (q : BoundedQueue α) (i : UInt32) (x : α) :
    (q.assignSlot i x).count = q.count := rfl

@[simp] theorem assignSlot_cap (q : BoundedQueue α) (i : UInt32) (x : α) :
    (q.assignSlot i x).cap = q.cap := rfl

@[simp] theorem assignSlot_start (q : BoundedQueue α) (i : UInt32) (x : α) :
    (q.assignSlot i x).start = q.start := rfl

@[simp] theorem assignSlot_log (q : BoundedQueue α) (i : UInt32) (x : α) :
    (q.assignSlot i x).log = q.log ++ [.assign i] := rfl

@[simp] theorem destroySlot_count (q : BoundedQueue α) (i : UInt32) :
    (q.destroySlot i).count = q.count := rfl

@[simp] theorem destroySlot_cap (q : BoundedQueue α) (i : UInt32) :
    (q.destroySlot i).cap = q.cap := rfl

@[simp] theorem destroySlot_start (q : BoundedQueue α) (i : UInt32) :
    (q.destroySlot i).start = q.start := rfl

@[simp] theorem destroySlot_items (q : BoundedQueue α) (i : UInt32) (j : Nat) :
    (q.destroySlot i).items j = if j = i.toNat then none else q.items j := rfl

@[simp] theorem destroySlot_log (q : BoundedQueue α) (i : UInt32) :
    (q.destroySlot i).log = q.log ++ [.destroy i] := rfl

/-- `q` holds the list `L`: slot `(_start + i) % _cap` holds `L[i]`. -/
structure Refines (q : BoundedQueue α) (L : List α) : Prop where
  cap_pos : 0 < q.cap.toNat
  cap_le : q.cap.toNat ≤ 2 ^ 31
  start_lt : q.start.toNat < q.cap.toNat
  count_eq : q.count.toNat = L.length
  len_le : L.length ≤ q.cap.toNat
  slots : ∀ i (h : i < L.length), q.items ((q.start.toNat + i) % q.cap.toNat) = some L[i]

/-- What the queries and calls of a queue holding `L` answer: `top()`,
`bottom()`, `top(i)` and `bottom(i)` the addresses of `L`'s front, back,
`L[i]` and `L[|L| - 1 - i]` (`nullptr` where there is none); `size()`,
`empty()` and `full()` its length; `push(item)`, `push()`, `push_top(item)`
and `push_top()` succeed exactly when `|L| < _cap`; `pop()` and
`pop_bottom()` exactly when `L` is not empty; `pop(item)` and
`pop_bottom(item)` give `L`'s front and back. -/
structure Answers (q : BoundedQueue α) (L : List α) : Prop where
  top : q.top.isSome = !L.isEmpty ∧ q.top.bind (fun a => q.items a.toNat) = L.head?
  bottom : ∃ r, q.bottom = some r ∧ r.isSome = !L.isEmpty ∧ r.bind (fun a => q.items a.toNat) = L.getLast?
  topAt : ∀ i, ∃ r, q.topAt i = some r ∧ r.isSome = decide (i < L.length) ∧
    r.bind (fun a => q.items a.toNat) = L[i]?
  bottomAt : ∀ i, ∃ r, q.bottomAt i = some r ∧ r.isSome = decide (i < L.length) ∧
    r.bind (fun a => q.items a.toNat) = L.reverse[i]?
  sizes : q.size = L.length ∧ q.isEmpty = L.isEmpty ∧ q.full = decide (L.length = q.cap.toNat)
  pushes : (∀ x, (q.push x).map Prod.fst = some (decide (L.length < q.cap.toNat))) ∧
    (∀ d, (q.pushDefault d).map (·.1.isSome) = some (decide (L.length < q.cap.toNat))) ∧
    (∀ x, (q.pushTop x).1 = decide (L.length < q.cap.toNat)) ∧
    ∀ d, (q.pushTopDefault d).1.isSome = decide (L.length < q.cap.toNat)
  pops : q.pop.map Prod.fst = some (!L.isEmpty) ∧ q.popItem.map Prod.fst = some L.head? ∧
    q.popBottom.map Prod.fst = some (!L.isEmpty) ∧ q.popBottomItem.map Prod.fst = some L.getLast?

/-- A fresh queue of capacity `1 ≤ c ≤ 2^31` holds the empty list. -/
theorem refines_ofCapacity {c : Nat} (h1 : 0 < c) (h2 : c ≤ 2 ^ 31) :
    Refines (ofCapacity c : BoundedQueue α) [] := by
  have hc : (UInt32.ofNat c).toNat = c := by rw [U32.toNat_ofNat, Nat.mod_eq_of_lt (by omega)]
  refine ⟨?_, ?_, ?_, rfl, Nat.zero_le _, fun _ h => absurd h (by simp)⟩ <;>
    simp only [ofCapacity, hc, UInt32.toNat_zero] <;> omega

/-- A slot index computed by `_mod` fits in `uint32_t` unchanged. -/
theorem toNat_ofNat_mod {x c : Nat} (hc : 0 < c) (hc' : c ≤ 2 ^ 32) :
    (UInt32.ofNat (x % c)).toNat = x % c := by
  rw [U32.toNat_ofNat, Nat.mod_eq_of_lt (by have := Nat.mod_lt x hc; omega)]

/-- A fold whose every step succeeds succeeds. -/
theorem foldlM_some {β γ : Type} (F : β → γ → β) :
    ∀ (l : List γ) (b : β), l.foldlM (fun b i => some (F b i)) b = some (l.foldl F b)
  | [], _ => rfl
  | i :: l, b => foldlM_some F l (F b i)

theorem foldl_destroySlot_cap (g : Nat → UInt32) :
    ∀ (l : List Nat) (r : BoundedQueue α), (l.foldl (fun r i => r.destroySlot (g i)) r).cap = r.cap
  | [], _ => rfl
  | i :: l, r => foldl_destroySlot_cap g l (r.destroySlot (g i))

/-- Destroying the slots `g i` for `i ∈ l` empties exactly those. -/
theorem foldl_destroySlot_items (g : Nat → UInt32) : ∀ (l : List Nat) (r : BoundedQueue α) (j : Nat),
    (l.foldl (fun r i => r.destroySlot (g i)) r).items j =
      if ∃ i ∈ l, j = (g i).toNat then none else r.items j
  | [], _, _ => by simp
  | i :: l, r, j => by
    rw [List.foldl_cons, foldl_destroySlot_items g l]
    by_cases hj : j = (g i).toNat <;> simp [hj]

/-- The slot before `_start`, for `_start` a slot. -/
theorem toNat_prevStart (hs : q.start.toNat < q.cap.toNat) :
    q.prevStart.toNat = (q.start.toNat + (q.cap.toNat - 1)) % q.cap.toNat := by
  rw [← prev_eq_mod hs]
  unfold prevStart
  by_cases h0 : q.start.toNat = 0
  · rw [if_neg (not_not.mpr ((U32.eq_zero_iff _).mpr h0)), if_neg (by omega),
      U32.toNat_sub (by rw [U32.toNat_one]; omega), U32.toNat_one]
  · rw [if_pos (fun e => h0 ((U32.eq_zero_iff _).mp e)), if_pos h0,
      U32.toNat_sub (by rw [U32.toNat_one]; omega), U32.toNat_one]

namespace Refines

variable (h : Refines q L)
include h

theorem mod_eq (off : UInt32) :
    mod off q.cap = some (UInt32.ofNat (off.toNat % q.cap.toNat)) := BoundedQueue.mod_eq h.cap_pos

theorem toNat_slot (x : Nat) : (UInt32.ofNat (x % q.cap.toNat)).toNat = x % q.cap.toNat :=
  toNat_ofNat_mod h.cap_pos (by have := h.cap_le; omega)

/-- `_start + _count` does not wrap. -/
theorem toNat_start_add_count : (q.start + q.count).toNat = q.start.toNat + L.length := by
  have := h.start_lt; have := h.cap_le; have := h.len_le
  rw [U32.toNat_add, h.count_eq, Nat.mod_eq_of_lt (by omega)]

theorem toNat_start_add_one : (q.start + 1).toNat = q.start.toNat + 1 := by
  have := h.start_lt; have := h.cap_le
  rw [U32.toNat_add, U32.toNat_one, Nat.mod_eq_of_lt (by omega)]

theorem count_lt_iff : q.count < q.cap ↔ L.length < q.cap.toNat := by
  rw [U32.lt_iff, h.count_eq]

theorem count_ne_zero_iff : q.count ≠ 0 ↔ L ≠ [] := by
  rw [Ne, U32.eq_zero_iff, h.count_eq, Ne, List.length_eq_zero]

/-- The bottom item goes one position past the last. -/
theorem snoc (hlt : L.length < q.cap.toNat) (x : α) :
    Refines { q.setSlot (UInt32.ofNat ((q.start.toNat + L.length) % q.cap.toNat)) x with
      count := q.count + 1 } (L ++ [x]) := by
  have hs := h.toNat_slot
  refine ⟨h.cap_pos, h.cap_le, h.start_lt, ?_, ?_, fun i hi => ?_⟩
  · have := h.cap_le
    dsimp only
    rw [U32.toNat_add, h.count_eq, U32.toNat_one, List.length_append, List.length_singleton,
      Nat.mod_eq_of_lt (by omega)]
  · simp only [setSlot_cap, List.length_append, List.length_singleton]; omega
  · simp only [setSlot_items, setSlot_start, setSlot_cap, hs]
    rw [List.length_append, List.length_singleton] at hi
    by_cases hin : i < L.length
    · rw [if_neg (slot_ne hin (by omega)), List.getElem_append_left hin]
      exact h.slots i hin
    · have : i = L.length := by omega
      subst this
      simp

/-- The top item goes into the slot before `_start`. -/
theorem cons (hlt : L.length < q.cap.toNat) (x : α) :
    Refines ({ q with start := q.prevStart, count := q.count + 1 }.setSlot q.prevStart x)
      (x :: L) := by
  have hs := h.start_lt
  have hp := toNat_prevStart h.start_lt
  have hplt : q.prevStart.toNat < q.cap.toNat := hp ▸ Nat.mod_lt _ h.cap_pos
  refine ⟨h.cap_pos, h.cap_le, hplt, ?_, ?_, fun i hi => ?_⟩
  · have := h.cap_le
    simp only [setSlot_count]
    rw [U32.toNat_add, h.count_eq, U32.toNat_one, List.length_cons, Nat.mod_eq_of_lt (by omega)]
  · rw [List.length_cons]; exact hlt
  · simp only [setSlot_items, setSlot_start, setSlot_cap]
    cases i with
    | zero => simp [Nat.mod_eq_of_lt hplt]
    | succ k =>
      have hk : k < L.length := by simp only [List.length_cons] at hi; omega
      have e : (q.prevStart.toNat + (k + 1)) % q.cap.toNat = (q.start.toNat + k) % q.cap.toNat := by
        rw [hp, prev_eq_mod hs |>.symm, slot_prev hs]
      rw [e, if_neg (by rw [hp]; exact slot_ne (by omega) (by omega)), List.getElem_cons_succ]
      exact h.slots k hk

/-- The top item leaves, and `_start` moves to the next slot. -/
theorem tail (hne : L ≠ []) :
    Refines { q.destroySlot q.start with
      count := q.count - 1, start := UInt32.ofNat ((q.start.toNat + 1) % q.cap.toNat) } L.tail := by
  have hs := h.toNat_slot
  have hn : 0 < L.length := List.length_pos.mpr hne
  refine ⟨h.cap_pos, h.cap_le, ?_, ?_, ?_, fun i hi => ?_⟩
  · dsimp only; rw [hs]; exact Nat.mod_lt _ h.cap_pos
  · dsimp only
    rw [U32.toNat_sub (by rw [U32.toNat_one, h.count_eq]; omega), U32.toNat_one, h.count_eq,
      List.length_tail]
  · simp only [destroySlot_cap, List.length_tail]; have := h.len_le; omega
  · rw [List.length_tail] at hi
    have hne' : (q.start.toNat + (i + 1)) % q.cap.toNat ≠ q.start.toNat := fun e =>
      slot_ne (s := q.start.toNat) (c := q.cap.toNat) (Nat.succ_pos i)
        (by have := h.len_le; omega) (by rw [Nat.add_zero, Nat.mod_eq_of_lt h.start_lt]; exact e.symm)
    simp only [destroySlot_items, destroySlot_cap, hs, slot_succ, if_neg hne', List.getElem_tail]
    exact h.slots (i + 1) (by omega)

/-- The bottom item leaves. -/
theorem dropLast (hne : L ≠ []) :
    Refines { q.destroySlot (UInt32.ofNat ((q.start.toNat + (L.length - 1)) % q.cap.toNat)) with
      count := q.count - 1 } L.dropLast := by
  have hs := h.toNat_slot
  have hn : 0 < L.length := List.length_pos.mpr hne
  refine ⟨h.cap_pos, h.cap_le, h.start_lt, ?_, ?_, fun i hi => ?_⟩
  · dsimp only
    rw [U32.toNat_sub (by rw [U32.toNat_one, h.count_eq]; omega), U32.toNat_one, h.count_eq,
      List.length_dropLast]
  · simp only [destroySlot_cap, List.length_dropLast]; have := h.len_le; omega
  · rw [List.length_dropLast] at hi
    have hne' := slot_ne (s := q.start.toNat) (c := q.cap.toNat) (show i < L.length - 1 from hi)
      (by have := h.len_le; omega)
    simp only [destroySlot_items, destroySlot_start, destroySlot_cap, hs, if_neg hne',
      List.getElem_dropLast]
    exact h.slots i (by omega)

/-- On a full queue, the top item gives way to `x` at the bottom. -/
theorem rotate (hfull : L.length = q.cap.toNat) (x : α) :
    Refines { q.assignSlot q.start x with
      start := UInt32.ofNat ((q.start.toNat + 1) % q.cap.toNat) } (L.tail ++ [x]) := by
  have hs := h.toNat_slot
  have hc := h.cap_pos
  refine ⟨hc, h.cap_le, ?_, ?_, ?_, fun i hi => ?_⟩
  · dsimp only; rw [hs]; exact Nat.mod_lt _ hc
  · simp only [assignSlot_count, List.length_append, List.length_tail, List.length_singleton,
      h.count_eq]
    omega
  · simp only [assignSlot_cap, List.length_append, List.length_tail, List.length_singleton]; omega
  · simp only [List.length_append, List.length_tail, List.length_singleton] at hi
    simp only [assignSlot_items, assignSlot_cap, hs, slot_succ]
    by_cases hi' : i + 1 < L.length
    · have hne' : (q.start.toNat + (i + 1)) % q.cap.toNat ≠ q.start.toNat := fun e =>
        slot_ne (s := q.start.toNat) (c := q.cap.toNat) (Nat.succ_pos i) (by omega)
          (by rw [Nat.add_zero, Nat.mod_eq_of_lt h.start_lt]; exact e.symm)
      rw [if_neg hne', List.getElem_append_left (by simp only [List.length_tail]; omega),
        List.getElem_tail]
      exact h.slots (i + 1) hi'
    · have hi1 : i + 1 = q.cap.toNat := by omega
      rw [hi1, Nat.add_mod_right, Nat.mod_eq_of_lt h.start_lt, if_pos rfl,
        List.getElem_append_right (by simp only [List.length_tail]; omega)]
      simp

/-! ### The member functions on the list -/

/-- `push(item)` appends at the back when the list is not full, and fails
leaving everything as it was when it is. -/
theorem push (x : α) : ∃ q', q.push x = some (decide (L.length < q.cap.toNat), q') ∧
    Refines q' (if L.length < q.cap.toNat then L ++ [x] else L) := by
  unfold BoundedQueue.push
  by_cases hlt : L.length < q.cap.toNat
  · rw [if_pos (h.count_lt_iff.mpr hlt), h.mod_eq, h.toNat_start_add_count, if_pos hlt]
    exact ⟨_, by simp [hlt], h.snoc hlt x⟩
  · rw [if_neg (fun e => hlt (h.count_lt_iff.mp e)), if_neg hlt]
    exact ⟨q, by simp [hlt], h⟩

/-- `push()` appends a value-initialized item and returns its slot, the
slot of the last position. -/
theorem pushDefault (dflt : α) : ∃ r q', q.pushDefault dflt = some (r, q') ∧
    r.map UInt32.toNat =
      (if L.length < q.cap.toNat then some ((q'.start.toNat + L.length) % q'.cap.toNat) else none) ∧
    Refines q' (if L.length < q.cap.toNat then L ++ [dflt] else L) := by
  unfold BoundedQueue.pushDefault
  by_cases hlt : L.length < q.cap.toNat
  · rw [if_pos (h.count_lt_iff.mpr hlt), h.mod_eq, h.toNat_start_add_count]
    simp only [if_pos hlt]
    exact ⟨_, _, rfl, by simp [h.toNat_slot], h.snoc hlt dflt⟩
  · rw [if_neg (fun e => hlt (h.count_lt_iff.mp e))]
    simp only [if_neg hlt]
    exact ⟨_, q, rfl, rfl, h⟩

/-- `push_top(item)` prepends when the list is not full. -/
theorem pushTop (x : α) : (q.pushTop x).1 = decide (L.length < q.cap.toNat) ∧
    Refines (q.pushTop x).2 (if L.length < q.cap.toNat then x :: L else L) := by
  unfold BoundedQueue.pushTop
  by_cases hlt : L.length < q.cap.toNat
  · rw [if_pos (h.count_lt_iff.mpr hlt), if_pos hlt]
    exact ⟨by simp [hlt], h.cons hlt x⟩
  · rw [if_neg (fun e => hlt (h.count_lt_iff.mp e)), if_neg hlt]
    exact ⟨by simp [hlt], h⟩

/-- `push_top()` prepends a value-initialized item and returns the new
`_start`, the slot of position 0. -/
theorem pushTopDefault (dflt : α) :
    (q.pushTopDefault dflt).1 =
      (if L.length < q.cap.toNat then some (q.pushTopDefault dflt).2.start else none) ∧
    Refines (q.pushTopDefault dflt).2 (if L.length < q.cap.toNat then dflt :: L else L) := by
  unfold BoundedQueue.pushTopDefault
  by_cases hlt : L.length < q.cap.toNat
  · rw [if_pos (h.count_lt_iff.mpr hlt)]
    simp only [if_pos hlt]
    exact ⟨rfl, h.cons hlt dflt⟩
  · rw [if_neg (fun e => hlt (h.count_lt_iff.mp e))]
    simp only [if_neg hlt]
    exact ⟨trivial, h⟩

/-- `elim_push(item)` appends, dropping the front first when full. -/
theorem elimPush (x : α) : ∃ q', q.elimPush x = some q' ∧
    Refines q' (if L.length < q.cap.toNat then L ++ [x] else L.tail ++ [x]) := by
  unfold BoundedQueue.elimPush
  by_cases hlt : L.length < q.cap.toNat
  · rw [if_pos (h.count_lt_iff.mpr hlt), h.mod_eq, h.toNat_start_add_count, if_pos hlt]
    exact ⟨_, rfl, h.snoc hlt x⟩
  · rw [if_neg (fun e => hlt (h.count_lt_iff.mp e)), h.mod_eq, h.toNat_start_add_one, if_neg hlt]
    exact ⟨_, rfl, h.rotate (by have := h.len_le; omega) x⟩

/-- `pop()` removes the front of a non-empty list and fails on an empty
one. -/
theorem pop : ∃ q', q.pop = some (!L.isEmpty, q') ∧ Refines q' L.tail := by
  unfold BoundedQueue.pop
  by_cases hne : L ≠ []
  · rw [if_pos (h.count_ne_zero_iff.mpr hne), h.mod_eq, h.toNat_start_add_one]
    exact ⟨_, by simp [hne], h.tail hne⟩
  · rw [if_neg (fun e => hne (h.count_ne_zero_iff.mp e))]
    rw [not_not] at hne
    subst hne
    exact ⟨q, rfl, h⟩

/-- `pop(item)` copies out the front item. -/
theorem popItem : ∃ q', q.popItem = some (L.head?, q') ∧ Refines q' L.tail := by
  unfold BoundedQueue.popItem
  by_cases hne : L ≠ []
  · rw [if_pos (h.count_ne_zero_iff.mpr hne), h.mod_eq, h.toNat_start_add_one]
    have := h.slots 0 (List.length_pos.mpr hne)
    rw [Nat.add_zero, Nat.mod_eq_of_lt h.start_lt] at this
    refine ⟨_, ?_, h.tail hne⟩
    rw [this, List.head?_eq_getElem?, List.getElem?_eq_getElem (List.length_pos.mpr hne)]
    rfl
  · rw [if_neg (fun e => hne (h.count_ne_zero_iff.mp e))]
    rw [not_not] at hne
    subst hne
    exact ⟨q, rfl, h⟩

/-- `pop_bottom()` removes the back of a non-empty list. -/
theorem popBottom : ∃ q', q.popBottom = some (!L.isEmpty, q') ∧ Refines q' L.dropLast := by
  unfold BoundedQueue.popBottom
  by_cases hne : L ≠ []
  · have hn := List.length_pos.mpr hne
    have hc : (q.start + (q.count - 1)).toNat = q.start.toNat + (L.length - 1) := by
      have := h.start_lt; have := h.cap_le; have := h.len_le
      rw [U32.toNat_add, U32.toNat_sub (by rw [U32.toNat_one, h.count_eq]; omega), U32.toNat_one,
        h.count_eq, Nat.mod_eq_of_lt (by omega)]
    rw [if_pos (h.count_ne_zero_iff.mpr hne), h.mod_eq, hc]
    exact ⟨_, by simp [hne], h.dropLast hne⟩
  · rw [if_neg (fun e => hne (h.count_ne_zero_iff.mp e))]
    rw [not_not] at hne
    subst hne
    exact ⟨q, rfl, h⟩

/-- `pop_bottom(item)` copies out the back item. -/
theorem popBottomItem : ∃ q', q.popBottomItem = some (L.getLast?, q') ∧ Refines q' L.dropLast := by
  unfold BoundedQueue.popBottomItem
  by_cases hne : L ≠ []
  · have hn := List.length_pos.mpr hne
    have hc : (q.start + (q.count - 1)).toNat = q.start.toNat + (L.length - 1) := by
      have := h.start_lt; have := h.cap_le; have := h.len_le
      rw [U32.toNat_add, U32.toNat_sub (by rw [U32.toNat_one, h.count_eq]; omega), U32.toNat_one,
        h.count_eq, Nat.mod_eq_of_lt (by omega)]
    rw [if_pos (h.count_ne_zero_iff.mpr hne), h.mod_eq, hc]
    refine ⟨_, ?_, h.dropLast hne⟩
    rw [Option.map_some', h.toNat_slot, h.slots _ (by omega), List.getLast?_eq_getElem?,
      List.getElem?_eq_getElem (by omega)]
  · rw [if_neg (fun e => hne (h.count_ne_zero_iff.mp e))]
    rw [not_not] at hne
    subst hne
    exact ⟨q, rfl, h⟩

/-- `clear()` destroys the item of every position and leaves the empty list. -/
theorem clear : ∃ q', q.clear = some q' ∧ q'.cap = q.cap ∧ Refines q' [] ∧
    ∀ i < L.length, q'.items ((q.start.toNat + i) % q.cap.toNat) = none := by
  unfold BoundedQueue.clear
  simp only [h.mod_eq, Option.map_some', foldlM_some, h.count_eq]
  refine ⟨_, rfl, foldl_destroySlot_cap _ _ _, ⟨?_, ?_, ?_, rfl, Nat.zero_le _, fun _ h => absurd h (by simp)⟩, fun i hi => ?_⟩
  · rw [foldl_destroySlot_cap]; exact h.cap_pos
  · rw [foldl_destroySlot_cap]; exact h.cap_le
  · rw [foldl_destroySlot_cap, UInt32.toNat_zero]; exact h.cap_pos
  · have := h.start_lt; have := h.cap_le; have := h.len_le
    have e : (q.start.toNat + i) % q.cap.toNat =
        (UInt32.ofNat ((q.start + UInt32.ofNat i).toNat % q.cap.toNat)).toNat := by
      rw [h.toNat_slot, U32.toNat_add, U32.toNat_ofNat, Nat.mod_eq_of_lt (show i < 2 ^ 32 by omega),
        Nat.mod_eq_of_lt (show q.start.toNat + i < 2 ^ 32 by omega)]
    exact (foldl_destroySlot_items _ _ _ _).trans (if_pos ⟨i, List.mem_range.mpr hi, e⟩)

/-! ### The queries on the list -/

/-- `top(index)` is the address of `L[index]`, and `nullptr` past the end. -/
theorem topAt (i : Nat) : ∃ r, q.topAt i = some r ∧ r.isSome = decide (i < L.length) ∧
    r.bind (fun a => q.items a.toNat) = L[i]? := by
  unfold BoundedQueue.topAt
  rw [h.count_eq]
  by_cases hi : i < L.length
  · have e : (UInt32.ofNat (q.start.toNat + i)).toNat = q.start.toNat + i := by
      have := h.start_lt; have := h.cap_le; have := h.len_le
      rw [U32.toNat_ofNat, Nat.mod_eq_of_lt (by omega)]
    rw [if_pos hi, h.mod_eq, e, Option.map_some']
    refine ⟨_, rfl, by simp [hi], ?_⟩
    rw [Option.some_bind, h.toNat_slot, h.slots i hi, List.getElem?_eq_getElem hi]
  · rw [if_neg hi]
    exact ⟨none, rfl, by simp [hi], (List.getElem?_eq_none (by omega)).symm⟩

/-- `bottom(index)` is the address of `L[|L| - 1 - index]`, and `nullptr`
past the end. -/
theorem bottomAt (i : Nat) : ∃ r, q.bottomAt i = some r ∧ r.isSome = decide (i < L.length) ∧
    r.bind (fun a => q.items a.toNat) = L.reverse[i]? := by
  unfold BoundedQueue.bottomAt
  rw [h.count_eq]
  by_cases hi : i < L.length
  · have e : (UInt32.ofNat ((2 ^ 64 + (q.start + q.count).toNat - i - 1) % 2 ^ 64)).toNat =
        q.start.toNat + (L.length - 1 - i) := by
      have := h.start_lt; have := h.cap_le; have := h.len_le
      rw [h.toNat_start_add_count, show 2 ^ 64 + (q.start.toNat + L.length) - i - 1 =
        q.start.toNat + (L.length - 1 - i) + 2 ^ 64 by omega, Nat.add_mod_right, U32.toNat_ofNat,
        Nat.mod_mod_of_dvd _ (Nat.pow_dvd_pow 2 (by omega)), Nat.mod_eq_of_lt (by omega)]
    rw [if_pos hi, h.mod_eq, e, Option.map_some']
    refine ⟨_, rfl, by simp [hi], ?_⟩
    rw [Option.some_bind, h.toNat_slot, h.slots _ (by omega), List.getElem?_reverse hi,
      List.getElem?_eq_getElem (by omega)]
  · rw [if_neg hi]
    exact ⟨none, rfl, by simp [hi], (List.getElem?_eq_none (by simp; omega)).symm⟩

/-- `top()` is the address of the front item, `nullptr` on an empty list. -/
theorem top : q.top.isSome = !L.isEmpty ∧ q.top.bind (fun a => q.items a.toNat) = L.head? := by
  unfold BoundedQueue.top
  by_cases hne : L ≠ []
  · rw [if_pos (h.count_ne_zero_iff.mpr hne)]
    have := h.slots 0 (List.length_pos.mpr hne)
    rw [Nat.add_zero, Nat.mod_eq_of_lt h.start_lt] at this
    refine ⟨by simp [hne], ?_⟩
    rw [Option.some_bind, this, List.head?_eq_getElem?, List.getElem?_eq_getElem (List.length_pos.mpr hne)]
  · rw [if_neg (fun e => hne (h.count_ne_zero_iff.mp e))]
    rw [not_not] at hne
    subst hne
    exact ⟨rfl, rfl⟩

/-- `bottom()` is the address of the back item, `nullptr` on an empty list. -/
theorem bottom : ∃ r, q.bottom = some r ∧ r.isSome = !L.isEmpty ∧
    r.bind (fun a => q.items a.toNat) = L.getLast? := by
  unfold BoundedQueue.bottom
  by_cases hne : L ≠ []
  · have hn := List.length_pos.mpr hne
    have e : (q.start + q.count - 1).toNat = q.start.toNat + (L.length - 1) := by
      have := h.toNat_start_add_count
      rw [U32.toNat_sub (by rw [U32.toNat_one]; omega), U32.toNat_one, this]
      omega
    rw [if_pos (h.count_ne_zero_iff.mpr hne), h.mod_eq, e, Option.map_some']
    refine ⟨_, rfl, by simp [hne], ?_⟩
    rw [Option.some_bind, h.toNat_slot, h.slots _ (by omega), List.getLast?_eq_getElem?,
      List.getElem?_eq_getElem (by omega)]
  · rw [if_neg (fun e => hne (h.count_ne_zero_iff.mp e))]
    rw [not_not] at hne
    subst hne
    exact ⟨none, rfl, rfl, rfl⟩

/-- `size()`, `empty()` and `full()` read the list. -/
theorem size_isEmpty_full : q.size = L.length ∧ q.isEmpty = L.isEmpty ∧
    q.full = decide (L.length = q.cap.toNat) := by
  refine ⟨h.count_eq, ?_, ?_⟩
  · rw [BoundedQueue.isEmpty, Bool.eq_iff_iff, beq_iff_eq, U32.eq_zero_iff, h.count_eq,
      List.isEmpty_iff, List.length_eq_zero]
  · rw [BoundedQueue.full, Bool.eq_iff_iff, beq_iff_eq, decide_eq_true_iff, ← h.count_eq, eq_comm]
    exact ⟨fun e => e ▸ rfl, fun e => UInt32.toNat.inj e⟩

theorem pushes : (∀ x, (q.push x).map Prod.fst = some (decide (L.length < q.cap.toNat))) ∧
    (∀ d, (q.pushDefault d).map (·.1.isSome) = some (decide (L.length < q.cap.toNat))) ∧
    (∀ x, (q.pushTop x).1 = decide (L.length < q.cap.toNat)) ∧
    ∀ d, (q.pushTopDefault d).1.isSome = decide (L.length < q.cap.toNat) := by
  refine ⟨fun x => (h.push x).elim fun _ hq => hq.1 ▸ rfl, fun d => ?_, fun x => (h.pushTop x).1, fun d => ?_⟩
  · obtain ⟨r, _, e, hr, -⟩ := h.pushDefault d
    rw [e, Option.map_some', ← Option.isSome_map' (f := UInt32.toNat), hr]
    split_ifs <;> simp [*]
  · rw [(h.pushTopDefault d).1]
    split_ifs <;> simp [*]

theorem pops : q.pop.map Prod.fst = some (!L.isEmpty) ∧ q.popItem.map Prod.fst = some L.head? ∧
    q.popBottom.map Prod.fst = some (!L.isEmpty) ∧ q.popBottomItem.map Prod.fst = some L.getLast? :=
  ⟨h.pop.elim fun _ hq => hq.1 ▸ rfl, h.popItem.elim fun _ hq => hq.1 ▸ rfl,
    h.popBottom.elim fun _ hq => hq.1 ▸ rfl, h.popBottomItem.elim fun _ hq => hq.1 ▸ rfl⟩

theorem answers : Answers q L := ⟨h.top, h.bottom, h.topAt, h.bottomAt, h.size_isEmpty_full, h.pushes, h.pops⟩

/-! ### Whole runs -/

/-- A call keeps the capacity. -/
theorem step_cap {dflt : α} {q' : BoundedQueue α} {op : QueueOp α}
    (hs : QueueOp.step dflt q op = some q') : q'.cap = q.cap := by
  cases op <;>
    simp only [QueueOp.step, BoundedQueue.push, BoundedQueue.pushDefault, BoundedQueue.elimPush,
      BoundedQueue.pushTop, BoundedQueue.pushTopDefault, BoundedQueue.pop, BoundedQueue.popItem,
      BoundedQueue.popBottom, BoundedQueue.popBottomItem, BoundedQueue.clear, h.mod_eq,
      Option.map_some', foldlM_some] at hs <;>
    (try split_ifs at hs) <;> cases hs <;> first | rfl | exact foldl_destroySlot_cap _ _ _

/-- Each call returns, and does to the list what the list model does. -/
theorem step (dflt : α) (op : QueueOp α) :
    ∃ q', QueueOp.step dflt q op = some q' ∧ Refines q' (QueueOp.listStep q.cap.toNat dflt L op) := by
  cases op with
  | push x =>
    obtain ⟨q', e, hq⟩ := h.push x
    exact ⟨q', by rw [QueueOp.step, e]; rfl, hq⟩
  | pushDefault =>
    obtain ⟨_, q', e, -, hq⟩ := h.pushDefault dflt
    exact ⟨q', by rw [QueueOp.step, e]; rfl, hq⟩
  | elimPush x => exact h.elimPush x
  | pushTop x => exact ⟨_, rfl, (h.pushTop x).2⟩
  | pushTopDefault => exact ⟨_, rfl, (h.pushTopDefault dflt).2⟩
  | pop =>
    obtain ⟨q', e, hq⟩ := h.pop
    exact ⟨q', by rw [QueueOp.step, e]; rfl, hq⟩
  | popItem =>
    obtain ⟨q', e, hq⟩ := h.popItem
    exact ⟨q', by rw [QueueOp.step, e]; rfl, hq⟩
  | popBottom =>
    obtain ⟨q', e, hq⟩ := h.popBottom
    exact ⟨q', by rw [QueueOp.step, e]; rfl, hq⟩
  | popBottomItem =>
    obtain ⟨q', e, hq⟩ := h.popBottomItem
    exact ⟨q', by rw [QueueOp.step, e]; rfl, hq⟩
  | clear =>
    obtain ⟨q', e, -, hq, -⟩ := h.clear
    exact ⟨q', e, hq⟩

end Refines

/-- Every run from a queue holding `L` returns, and holds what the list
model makes of `L`. -/
theorem Refines.run (dflt : α) :
    ∀ (ops : List (QueueOp α)) {q : BoundedQueue α} {L : List α}, Refines q L →
      ∃ q', QueueOp.run dflt q ops = some q' ∧ Refines q' (QueueOp.listRun q.cap.toNat dflt L ops)
  | [], q, _, h => ⟨q, rfl, h⟩
  | op :: ops, _, _, h => by
    obtain ⟨q1, e1, h1⟩ := h.step dflt op
    obtain ⟨q2, e2, h2⟩ := Refines.run dflt ops h1
    refine ⟨q2, ?_, ?_⟩
    · rw [QueueOp.run, List.foldlM_cons, e1, Option.bind_eq_bind, Option.some_bind]
      exact e2
    · rw [h.step_cap e1] at h2
      exact h2

/-- For every capacity `1 ≤ c ≤ 2^31`, every sequence of calls on a fresh
`bounded_queue(c)` returns, the queue holds the list that the bounded
double-ended list of capacity `c` holds after the same calls, and its
queries and calls answer from that list (`Answers`). What each call of the
run returned is then what the list before it gives: the same theorem at
the prefix of the calls before it. -/
theorem run_refines_listRun {c : Nat} (h1 : 0 < c) (h2 : c ≤ 2 ^ 31) (dflt : α)
    (ops : List (QueueOp α)) :
    ∃ q, QueueOp.run dflt (ofCapacity c) ops = some q ∧ Refines q (QueueOp.listRun c dflt [] ops) ∧
      Answers q (QueueOp.listRun c dflt [] ops) := by
  have h := (refines_ofCapacity h1 h2 : Refines (ofCapacity c : BoundedQueue α) [])
  have hc : (ofCapacity c : BoundedQueue α).cap.toNat = c := by
    rw [ofCapacity, U32.toNat_ofNat, Nat.mod_eq_of_lt (by omega)]
  obtain ⟨q, e, hq⟩ := h.run dflt ops
  rw [hc] at hq
  exact ⟨q, e, hq, hq.answers⟩

theorem run_refines_listRun_small :
    ∃ q, QueueOp.run 'x' (ofCapacity 2) [.push 'a', .pushTop 'b', .elimPush 'c', .popBottom] = some q ∧
      Refines q (QueueOp.listRun 2 'x' [] [.push 'a', .pushTop 'b', .elimPush 'c', .popBottom]) ∧
      Answers q (QueueOp.listRun 2 'x' [] [.push 'a', .pushTop 'b', .elimPush 'c', .popBottom]) :=
  run_refines_listRun (by decide) (by decide) 'x' _

/-- The calls of a run at capacity `max_capacity()`. -/
def wrapOps : List (QueueOp Char) := [.pushTop 'a', .push 'b', .push 'c']

/-- At capacity `2^32 - 1` the list after `push_top('a')`, `push('b')`,
`push('c')` is `[a, b, c]`, but `_start + _count` wrapped: `c` went into
slot 0 over `b`, and `top(1)` is slot 0, which holds `c`. -/
theorem topAt_one_after_wrap :
    QueueOp.listRun (2 ^ 32 - 1) 'x' [] wrapOps = ['a', 'b', 'c'] ∧
    ∃ q, QueueOp.run 'x' (ofCapacity (2 ^ 32 - 1)) wrapOps = some q ∧
      q.topAt 1 = some (some 0) ∧ q.items 0 = some 'c' :=
  ⟨rfl, _, rfl, by decide, rfl⟩

end BoundedQueue

end Melon.Container
