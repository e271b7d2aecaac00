/-
Melon.Container.BoundedQueueBounds — whether the `_mod` loop of
`bounded_queue` ends, and which slots its member functions touch, at every
capacity its constructors can give.

* `elim_push_zero_capacity` — `bounded_queue()`, `bounded_queue(c)` for
  `c` a multiple of 2^32 (`_cap` is a `uint32_t`) and
  `bounded_queue(mem, memsize, o)` for `memsize < sizeof(T)` give
  `_cap = 0`. On such a queue `elim_push` finds the queue full, writes
  slot `_start`, which is not below `_cap`, and calls
  `_mod(_start + 1, 0)`, whose loop no number of rounds ends.
* `InBounds` — `_cap > 0` and `_start < _cap`; the constructors build one
  for every capacity that is not 0 modulo 2^32 (`inBounds_ofCapacity`,
  `inBounds_ofStorage`).
* `InBounds.step`, `InBounds.run` — on such a queue every call returns,
  and changes the queue only as `Within` allows: `_cap` kept, still in
  bounds, every slot at or past `_cap` as it was, and every slot the call
  constructs, assigns or destroys below `_cap`. `InBounds.step` names the
  slot of each call.
* `calls_stay_in_bounds` — from those constructors, every sequence of
  calls returns, and every construction, assignment and destruction of a
  slot that any of them made was below `_cap`; the queries `top`,
  `bottom`, `top(i)` and `bottom(i)` then return an address below `_cap`
  or `nullptr`.

## How the proof goes

Every slot a member function touches is `_start`, the slot before it
(`toNat_prevStart`), or an answer of `_mod`, which at `_cap > 0` is below
`_cap` (`mod_lt`). So one constructor of `Within` (`InBounds.within`)
takes each call, and `Within.trans` a run. The push and pop calls guard
`_mod` by `_count < _cap` or `_count != 0`, neither of which holds on a
fresh queue of capacity 0; the full-queue branch of `elim_push` has no
guard, and that is where capacity 0 goes wrong.
-/
import Melon.Container.BoundedQueueTheorems

namespace Melon.Container

namespace BoundedQueue

variable {α : Type} {q : BoundedQueue α}

/-! ## 1. The constructors' capacity -/

@[simp] theorem toNat_cap_ofCapacity (c : Nat) : (ofCapacity c : BoundedQueue α).cap.toNat = c % 2 ^ 32 :=
  U32.toNat_ofNat c

@[simp] theorem toNat_cap_ofStorage (memsize sizeofT : Nat) :
    (ofStorage memsize sizeofT : BoundedQueue α).cap.toNat = memsize / sizeofT % 2 ^ 32 :=
  U32.toNat_ofNat _

/-! ## 2. Capacity 0 -/

/-- On the queue of capacity 0 that the default constructor, a capacity
that is a multiple of 2^32, or a storage smaller than one item builds,
`elim_push` takes the full-queue branch, writes `((T *) _items)[_start]`
with `_start` not below `_cap`, and then runs `_mod(_start + 1, 0)`,
whose loop runs out of every number of rounds: the call never returns. -/
theorem elim_push_zero_capacity (x : α)
    (hq : q = empty ∨ (∃ c, c % 2 ^ 32 = 0 ∧ q = ofCapacity c) ∨
      ∃ memsize sizeofT, memsize < sizeofT ∧ q = ofStorage memsize sizeofT) :
    ¬q.count < q.cap ∧ q.cap.toNat ≤ q.start.toNat ∧
      (∀ fuel, modLoop q.cap.toNat fuel (q.start + 1).toNat = none) ∧ q.elimPush x = none := by
  have hcap : q.cap.toNat = 0 := by
    rcases hq with rfl | ⟨c, hc, rfl⟩ | ⟨m, s, hm, rfl⟩
    · rfl
    · rw [toNat_cap_ofCapacity, hc]
    · rw [toNat_cap_ofStorage, Nat.div_eq_of_lt hm, Nat.zero_mod]
  have hfull : ¬q.count < q.cap := by rw [U32.lt_iff, hcap]; exact Nat.not_lt_zero _
  refine ⟨hfull, hcap ▸ Nat.zero_le _, fun fuel => by rw [hcap]; exact modLoop_zero fuel _, ?_⟩
  rw [elimPush, if_neg hfull, (U32.eq_zero_iff _).2 hcap, mod_zero, Option.map_none']

theorem elim_push_zero_capacity_empty :
    ((empty : BoundedQueue Int) = empty ∨ (∃ c, c % 2 ^ 32 = 0 ∧ (empty : BoundedQueue Int) = ofCapacity c) ∨
      ∃ memsize sizeofT, memsize < sizeofT ∧ (empty : BoundedQueue Int) = ofStorage memsize sizeofT) ∧
    (¬(empty : BoundedQueue Int).count < (empty : BoundedQueue Int).cap ∧
      (empty : BoundedQueue Int).cap.toNat ≤ (empty : BoundedQueue Int).start.toNat ∧
      (∀ fuel, modLoop (empty : BoundedQueue Int).cap.toNat fuel ((empty : BoundedQueue Int).start + 1).toNat = none) ∧
      (empty : BoundedQueue Int).elimPush 1 = none) :=
  ⟨Or.inl rfl, elim_push_zero_capacity 1 (Or.inl rfl)⟩

/-! ## 3. Queues in bounds -/

/-- A queue on which `_mod` returns and `_start` is a slot of the array. -/
structure InBounds (q : BoundedQueue α) : Prop where
  cap_pos : 0 < q.cap.toNat
  start_lt : q.start.toNat < q.cap.toNat

instance (q : BoundedQueue α) : Decidable q.InBounds :=
  decidable_of_iff (0 < q.cap.toNat ∧ q.start.toNat < q.cap.toNat)
    ⟨fun ⟨a, b⟩ => ⟨a, b⟩, fun ⟨a, b⟩ => ⟨a, b⟩⟩

theorem inBounds_ofCapacity {c : Nat} (hc : c % 2 ^ 32 ≠ 0) : (ofCapacity c : BoundedQueue α).InBounds :=
  have h : 0 < (ofCapacity c : BoundedQueue α).cap.toNat := by rw [toNat_cap_ofCapacity]; omega
  ⟨h, h⟩

theorem inBounds_ofStorage {memsize sizeofT : Nat} (hc : memsize / sizeofT % 2 ^ 32 ≠ 0) :
    (ofStorage memsize sizeofT : BoundedQueue α).InBounds :=
  have h : 0 < (ofStorage memsize sizeofT : BoundedQueue α).cap.toNat := by rw [toNat_cap_ofStorage]; omega
  ⟨h, h⟩

/-- A slot that `_mod` computes is below `_cap`. -/
theorem toNat_slot_lt {cap : UInt32} (hcap : 0 < cap.toNat) (x : Nat) :
    (UInt32.ofNat (x % cap.toNat)).toNat < cap.toNat := by
  rw [toNat_ofNat_mod hcap (U32.lt_size cap).le]
  exact Nat.mod_lt x hcap

/-- At `_cap > 0`, `_mod` returns a slot. -/
theorem mod_lt {cap : UInt32} (hcap : 0 < cap.toNat) (off : UInt32) :
    ∃ r, mod off cap = some r ∧ r.toNat < cap.toNat :=
  ⟨_, mod_eq hcap, toNat_slot_lt hcap _⟩

theorem setSlot_items_of_le {i : UInt32} {j : Nat} (hi : i.toNat < q.cap.toNat) (hj : q.cap.toNat ≤ j) (x : α) :
    (q.setSlot i x).items j = q.items j := by
  rw [setSlot_items, if_neg (by omega)]

theorem destroySlot_items_of_le {i : UInt32} {j : Nat} (hi : i.toNat < q.cap.toNat) (hj : q.cap.toNat ≤ j) :
    (q.destroySlot i).items j = q.items j := by
  rw [destroySlot_items, if_neg (by omega)]

theorem foldl_destroySlot_log (g : Nat → UInt32) : ∀ (l : List Nat) (r : BoundedQueue α),
    (l.foldl (fun r i => r.destroySlot (g i)) r).log = r.log ++ l.map fun i => .destroy (g i)
  | [], _ => by simp
  | i :: l, r => by rw [List.foldl_cons, foldl_destroySlot_log g l]; simp

/-! ## 4. What a call may change -/

/-- What a call may make of `q`: the same `_cap`, still in bounds, every
slot at or past `_cap` as it was, and only slots below `_cap` constructed,
assigned or destroyed. -/
structure Within (q q' : BoundedQueue α) : Prop where
  inBounds : q'.InBounds
  cap_eq : q'.cap = q.cap
  items_eq : ∀ j, q.cap.toNat ≤ j → q'.items j = q.items j
  log_eq : ∃ acc, q'.log = q.log ++ acc ∧ ∀ a ∈ acc, a.slot.toNat < q.cap.toNat

namespace InBounds

variable (h : q.InBounds)
include h

theorem within {q' : BoundedQueue α} (hc : q'.cap = q.cap) (hs : q'.start.toNat < q.cap.toNat)
    (hi : ∀ j, q.cap.toNat ≤ j → q'.items j = q.items j) {acc : List SlotAccess} (hl : q'.log = q.log ++ acc)
    (ha : ∀ a ∈ acc, a.slot.toNat < q.cap.toNat) : Within q q' :=
  ⟨⟨hc ▸ h.cap_pos, hc ▸ hs⟩, hc, hi, acc, hl, ha⟩

/-- A call that touches the one slot `i`, below `_cap`. -/
theorem within_one {q' : BoundedQueue α} (hc : q'.cap = q.cap) (hs : q'.start.toNat < q.cap.toNat)
    (hi : ∀ j, q.cap.toNat ≤ j → q'.items j = q.items j) {a : SlotAccess} (hl : q'.log = q.log ++ [a])
    (ha : a.slot.toNat < q.cap.toNat) : Within q q' :=
  h.within hc hs hi hl fun _ hb => List.mem_singleton.1 hb ▸ ha

theorem within_self : Within q q := h.within rfl h.start_lt (fun _ _ => rfl) (List.append_nil _).symm
  fun _ hb => absurd hb (List.not_mem_nil _)

theorem prevStart_lt : q.prevStart.toNat < q.cap.toNat := by
  rw [toNat_prevStart h.start_lt]
  exact Nat.mod_lt _ h.cap_pos

/-- `clear()` destroys only slots that `_mod` computes. -/
theorem clear : ∃ q', q.clear = some q' ∧ Within q q' := by
  unfold BoundedQueue.clear
  simp only [mod_eq h.cap_pos, Option.map_some', foldlM_some]
  refine ⟨_, rfl, h.within (foldl_destroySlot_cap _ _ _) h.cap_pos (fun j hj => ?_)
    (foldl_destroySlot_log _ _ _) fun a ha => ?_⟩
  · dsimp only
    rw [foldl_destroySlot_items, if_neg]
    rintro ⟨k, -, rfl⟩
    exact absurd hj (Nat.not_le.2 (toNat_slot_lt h.cap_pos _))
  · obtain ⟨k, -, rfl⟩ := List.mem_map.1 ha
    exact toNat_slot_lt h.cap_pos _

/-- Every call returns, and changes the queue only as `Within` allows: a
push constructs `_mod(_start + _count, _cap)`, a `push_top` the slot
before `_start`, a full `elim_push` assigns `_start`, a pop destroys
`_start` and a `pop_bottom` `_mod(_start + _count - 1, _cap)`, each below
`_cap`. -/
theorem step (dflt : α) (op : QueueOp α) : ∃ q', QueueOp.step dflt q op = some q' ∧ Within q q' := by
  obtain ⟨i, hi, hil⟩ := mod_lt h.cap_pos (q.start + q.count)
  obtain ⟨s, hs, hsl⟩ := mod_lt h.cap_pos (q.start + 1)
  obtain ⟨b, hb, hbl⟩ := mod_lt h.cap_pos (q.start + (q.count - 1))
  have hp := h.prevStart_lt
  cases op with
  | push | pushDefault =>
    simp only [QueueOp.step, BoundedQueue.push, pushDefault]
    split_ifs
    · rw [hi]
      exact ⟨_, rfl, h.within_one rfl h.start_lt (fun j hj => setSlot_items_of_le hil hj _) rfl hil⟩
    · exact ⟨q, rfl, h.within_self⟩
  | elimPush x =>
    simp only [QueueOp.step, elimPush]
    split_ifs
    · rw [hi]
      exact ⟨_, rfl, h.within_one rfl h.start_lt (fun j hj => setSlot_items_of_le hil hj x) rfl hil⟩
    · rw [hs]
      exact ⟨_, rfl, h.within_one rfl hsl (fun j hj => setSlot_items_of_le h.start_lt hj x) rfl h.start_lt⟩
  | pushTop | pushTopDefault =>
    simp only [QueueOp.step, pushTop, pushTopDefault]
    split_ifs
    · exact ⟨_, rfl, h.within_one rfl hp (fun j hj => setSlot_items_of_le hp hj _) rfl hp⟩
    · exact ⟨q, rfl, h.within_self⟩
  | pop | popItem =>
    simp only [QueueOp.step, pop, popItem]
    split_ifs
    · rw [hs]
      exact ⟨_, rfl, h.within_one rfl hsl (fun j hj => destroySlot_items_of_le h.start_lt hj) rfl h.start_lt⟩
    · exact ⟨q, rfl, h.within_self⟩
  | popBottom | popBottomItem =>
    simp only [QueueOp.step, popBottom, popBottomItem]
    split_ifs
    · rw [hb]
      exact ⟨_, rfl, h.within_one rfl h.start_lt (fun j hj => destroySlot_items_of_le hbl hj) rfl hbl⟩
    · exact ⟨q, rfl, h.within_self⟩
  | clear => exact h.clear

end InBounds

theorem Within.trans {q₁ q₂ : BoundedQueue α} (h₁ : Within q q₁) (h₂ : Within q₁ q₂) : Within q q₂ := by
  obtain ⟨acc₁, e₁, ha₁⟩ := h₁.log_eq
  obtain ⟨acc₂, e₂, ha₂⟩ := h₂.log_eq
  refine ⟨h₂.inBounds, h₂.cap_eq.trans h₁.cap_eq,
    fun j hj => (h₂.items_eq j (by rw [h₁.cap_eq]; exact hj)).trans (h₁.items_eq j hj),
    acc₁ ++ acc₂, by rw [e₂, e₁, List.append_assoc], fun a ha => ?_⟩
  rcases List.mem_append.1 ha with ha | ha
  · exact ha₁ a ha
  · exact h₁.cap_eq ▸ ha₂ a ha

/-- Every sequence of calls returns, and changes the queue only as
`Within` allows. -/
theorem InBounds.run (dflt : α) :
    ∀ (ops : List (QueueOp α)) {q : BoundedQueue α}, q.InBounds →
      ∃ q', QueueOp.run dflt q ops = some q' ∧ Within q q'
  | [], _, h => ⟨_, rfl, h.within_self⟩
  | op :: ops, _, h => by
    obtain ⟨q₁, e₁, h₁⟩ := h.step dflt op
    obtain ⟨q₂, e₂, h₂⟩ := InBounds.run dflt ops h₁.inBounds
    refine ⟨q₂, ?_, h₁.trans h₂⟩
    rw [QueueOp.run, List.foldlM_cons, e₁, Option.bind_eq_bind, Option.some_bind]
    exact e₂

/-! ## 5. The queries -/

/-- What a query that returns an address gives: it returns, and the
address is a slot below `_cap` or `nullptr`. -/
def Addresses (q : BoundedQueue α) (r : Option (Option UInt32)) : Prop :=
  ∃ a, r = some a ∧ ∀ i ∈ a, i.toNat < q.cap.toNat

theorem addresses_null : q.Addresses (some none) := ⟨none, rfl, fun _ hi => absurd hi (Option.not_mem_none _)⟩

theorem InBounds.addresses_mod (h : q.InBounds) (off : UInt32) : q.Addresses ((mod off q.cap).map some) := by
  obtain ⟨r, hr, hrl⟩ := mod_lt h.cap_pos off
  exact ⟨some r, by rw [hr]; rfl, fun i hi => Option.some.inj hi ▸ hrl⟩

/-- `top()`, `bottom()`, `top(index)` and `bottom(index)` return, with
an address below `_cap` or `nullptr`. -/
theorem InBounds.queries (h : q.InBounds) (index : Nat) :
    q.Addresses (some q.top) ∧ q.Addresses q.bottom ∧ q.Addresses (q.topAt index) ∧
      q.Addresses (q.bottomAt index) := by
  refine ⟨⟨q.top, rfl, fun i hi => ?_⟩, ?_, ?_, ?_⟩
  · unfold top at hi
    split_ifs at hi
    · exact Option.some.inj hi ▸ h.start_lt
    · exact absurd hi (Option.not_mem_none _)
  all_goals
    simp only [bottom, topAt, bottomAt]
    split_ifs
    exacts [h.addresses_mod _, addresses_null]

/-- From `bounded_queue(c)` or `bounded_queue(mem, memsize, o)` with a
capacity that is not 0 modulo 2^32, every sequence of calls returns,
keeps `_cap`, leaves every slot at or past `_cap` as it was, has
constructed, assigned and destroyed only slots below `_cap`, and leaves a
queue in bounds whose queries return an address below `_cap` or
`nullptr`. -/
theorem calls_stay_in_bounds (dflt : α)
    (hq : (∃ c, c % 2 ^ 32 ≠ 0 ∧ q = ofCapacity c) ∨
      ∃ memsize sizeofT, memsize / sizeofT % 2 ^ 32 ≠ 0 ∧ q = ofStorage memsize sizeofT)
    (ops : List (QueueOp α)) :
    ∃ q', QueueOp.run dflt q ops = some q' ∧ q'.InBounds ∧ q'.cap = q.cap ∧
      (∀ j, q.cap.toNat ≤ j → q'.items j = q.items j) ∧ (∀ a ∈ q'.log, a.slot.toNat < q.cap.toNat) ∧
      ∀ index, q'.Addresses (some q'.top) ∧ q'.Addresses q'.bottom ∧ q'.Addresses (q'.topAt index) ∧
        q'.Addresses (q'.bottomAt index) := by
  have h : q.InBounds ∧ q.log = [] := by
    rcases hq with ⟨c, hc, rfl⟩ | ⟨m, s, hc, rfl⟩
    exacts [⟨inBounds_ofCapacity hc, rfl⟩, ⟨inBounds_ofStorage hc, rfl⟩]
  obtain ⟨q', e, hw⟩ := h.1.run dflt ops
  obtain ⟨acc, hl, ha⟩ := hw.log_eq
  rw [h.2, List.nil_append] at hl
  exact ⟨q', e, hw.inBounds, hw.cap_eq, hw.items_eq, hl ▸ ha, hw.inBounds.queries⟩

/-- Four `int`s in 16 bytes of storage. -/
def fourInts : BoundedQueue Int := ofStorage 16 4

/-- Calls on it that wrap `_start`, assign in a full `elim_push` and
destroy. -/
def wrapCalls : List (QueueOp Int) := [.push 1, .pushTop 2, .elimPush 3, .elimPush 4, .elimPush 5, .pop]

theorem calls_stay_in_bounds_storage :
    ((∃ c, c % 2 ^ 32 ≠ 0 ∧ fourInts = ofCapacity c) ∨
      ∃ memsize sizeofT, memsize / sizeofT % 2 ^ 32 ≠ 0 ∧ fourInts = ofStorage memsize sizeofT) ∧
    ∃ q', QueueOp.run 0 fourInts wrapCalls = some q' ∧ q'.InBounds ∧ q'.cap = fourInts.cap ∧
      (∀ j, fourInts.cap.toNat ≤ j → q'.items j = fourInts.items j) ∧
      (∀ a ∈ q'.log, a.slot.toNat < fourInts.cap.toNat) ∧
      ∀ index, q'.Addresses (some q'.top) ∧ q'.Addresses q'.bottom ∧ q'.Addresses (q'.topAt index) ∧
        q'.Addresses (q'.bottomAt index) :=
  ⟨Or.inr ⟨16, 4, by decide, rfl⟩, calls_stay_in_bounds 0 (Or.inr ⟨16, 4, by decide, rfl⟩) wrapCalls⟩

end BoundedQueue

end Melon.Container
