/-
Melon.Base.ExtendedEndPointTheorems — the reference counts of extended
`end_point`s stay exact over every interleaving of threads creating,
copying and resetting them.

## How the proof goes

A thread's references (`EpThread.refs`) are the ids its extended
`end_point`s embed and the resources its current call holds: the new
`ExtendedEndPoint` of a `create` until `dedup` gives it back, and the entry
`dedup` found. `Inv` says that `_ref_count` is the number of references
over all threads (`owners`), that a resource back in the pool has none,
that the set holds live resources with distinct addresses, that every
embedded id is in the set, and that once `dec_ref` has taken a count to 0
exactly one thread finishes with the resource and no thread gets a
reference to it again: the `fetch_add` of `insert` on an entry at 0 is
undone in the same critical section, and the entry replaced. One lemma per
kind of step keeps `Inv` (`Inv.threadStep`), so it holds after every
schedule (`Inv.run`). The pool's calls, replayed on the set of resources
in use, never hand out a resource in use and never take back one that is
not (`pool` field).
-/
import Melon.Base.ExtendedEndPoint
import Mathlib.Algebra.BigOperators.Group.List
import Mathlib.Algebra.Order.Ring.Nat

namespace Melon.Base

/-! ## 1. References -/

/-- The resources a thread's current call holds a reference to. -/
def EpPc.refs : EpPc → List Nat
  | .inserting p => [p]
  | .discarding p e => [p, e]
  | .embedding x => [x]
  | _ => []

/-- The resources a thread's current call is about to embed. -/
def EpPc.held : EpPc → List Nat
  | .discarding _ e => [e]
  | .embedding x => [x]
  | _ => []

/-- The new `ExtendedEndPoint` a `create` holds before `dedup` is done. -/
def EpPc.fresh : EpPc → Option Nat
  | .inserting p | .discarding p _ => some p
  | _ => none

/-- The resource whose count `dec_ref` took to 0. -/
def EpPc.zombie : EpPc → Option Nat
  | .erasing x | .clearing x => some x
  | _ => none

/-- Every reference a thread holds. -/
def EpThread.refs {A : Type} (t : EpThread A) : List Nat := t.eps ++ t.pc.refs

/-- The pool replaying one call on the set of resources in use: it never
hands out a resource in use, and never takes back one that is not. -/
def poolStep (live : Nat → Bool) : PoolEvent → Option (Nat → Bool)
  | .get x => if live x then none else some (Function.update live x true)
  | .ret x => if live x then some (Function.update live x false) else none

namespace EpSystem

variable {A : Type}

/-- The references to `x` over all threads. -/
def owners (s : EpSystem A) (x : Nat) : Nat := (s.threads.map fun t => t.refs.count x).sum

section Frame

variable (s : EpSystem A)

@[simp] theorem setSlot_threads (x : Nat) (v : Slot A) : (s.setSlot x v).threads = s.threads := rfl
@[simp] theorem setSlot_set (x : Nat) (v : Slot A) : (s.setSlot x v).set = s.set := rfl
@[simp] theorem setSlot_log (x : Nat) (v : Slot A) : (s.setSlot x v).log = s.log := rfl
@[simp] theorem setSlot_slots (x : Nat) (v : Slot A) :
    (s.setSlot x v).slots = Function.update s.slots x v := rfl
@[simp] theorem getResource_threads (x : Nat) (v : Slot A) :
    (s.getResource x v).threads = s.threads := rfl
@[simp] theorem getResource_set (x : Nat) (v : Slot A) : (s.getResource x v).set = s.set := rfl
@[simp] theorem getResource_log (x : Nat) (v : Slot A) :
    (s.getResource x v).log = s.log ++ [.get x] := rfl
@[simp] theorem getResource_slots (x : Nat) (v : Slot A) :
    (s.getResource x v).slots = Function.update s.slots x v := rfl
@[simp] theorem returnResource_threads (x : Nat) (v : Slot A) :
    (s.returnResource x v).threads = s.threads := rfl
@[simp] theorem returnResource_set (x : Nat) (v : Slot A) : (s.returnResource x v).set = s.set := rfl
@[simp] theorem returnResource_log (x : Nat) (v : Slot A) :
    (s.returnResource x v).log = s.log ++ [.ret x] := rfl
@[simp] theorem returnResource_slots (x : Nat) (v : Slot A) :
    (s.returnResource x v).slots = Function.update s.slots x v := rfl
@[simp] theorem setThread_threads (i : Nat) (t : EpThread A) :
    (s.setThread i t).threads = s.threads.set i t := rfl
@[simp] theorem setThread_set (i : Nat) (t : EpThread A) : (s.setThread i t).set = s.set := rfl
@[simp] theorem setThread_log (i : Nat) (t : EpThread A) : (s.setThread i t).log = s.log := rfl
@[simp] theorem setThread_slots (i : Nat) (t : EpThread A) : (s.setThread i t).slots = s.slots := rfl
@[simp] theorem owners_of_threads {s s' : EpSystem A} (h : s'.threads = s.threads) (x : Nat) :
    s'.owners x = s.owners x := by
  simp only [owners, h]

variable [DecidableEq A]

@[simp] theorem erase_threads (x : Nat) : (s.erase x).threads = s.threads := by
  unfold erase; split <;> (try split) <;> rfl
@[simp] theorem erase_slots (x : Nat) : (s.erase x).slots = s.slots := by
  unfold erase; split <;> (try split) <;> rfl
@[simp] theorem erase_log (x : Nat) : (s.erase x).log = s.log := by
  unfold erase; split <;> (try split) <;> rfl
@[simp] theorem insert_threads (p : Nat) : (s.insert p).2.threads = s.threads := by
  unfold insert; split <;> (try split) <;> rfl
@[simp] theorem insert_log (p : Nat) : (s.insert p).2.log = s.log := by
  unfold insert; split <;> (try split) <;> rfl

end Frame

/-- Replacing one element of a list changes the sum of `f` by the
difference. -/
theorem sum_map_set {β : Type} (f : β → Nat) :
    ∀ (l : List β) (i : Nat) (b : β) (hi : i < l.length),
      ((l.set i b).map f).sum + f l[i] = (l.map f).sum + f b
  | [], _, _, hi => absurd hi (Nat.not_lt_zero _)
  | a :: l, 0, b, _ => by simp; omega
  | a :: l, i + 1, b, hi => by
    have := sum_map_set f l i b (by simpa using hi)
    simp only [List.set_cons_succ, List.map_cons, List.sum_cons, List.getElem_cons_succ]
    omega

/-- The references after thread `i` changes from `t` to `t'`. -/
theorem owners_setThread {s : EpSystem A} {i : Nat} {t : EpThread A} (hi : s.threads[i]? = some t)
    (t' : EpThread A) (x : Nat) :
    (s.setThread i t').owners x + t.refs.count x = s.owners x + t'.refs.count x := by
  obtain ⟨hlt, rfl⟩ := List.getElem?_eq_some_iff.mp hi
  exact sum_map_set (fun t => t.refs.count x) s.threads i t' hlt

theorem getElem?_setThread {s : EpSystem A} {i : Nat} {t : EpThread A} (hi : s.threads[i]? = some t)
    (t' : EpThread A) (j : Nat) :
    (s.setThread i t').threads[j]? = if j = i then some t' else s.threads[j]? := by
  have hlt := (List.getElem?_eq_some_iff.mp hi).1
  rw [setThread_threads]
  split_ifs with hj
  · rw [hj, List.getElem?_set_self hlt]
  · exact List.getElem?_set_ne (Ne.symm hj)

/-- One thread's references count towards the total. -/
theorem count_le_owners {s : EpSystem A} {i : Nat} {t : EpThread A} (hi : s.threads[i]? = some t)
    (x : Nat) : t.refs.count x ≤ s.owners x := by
  have := owners_setThread hi ⟨.idle, [], []⟩ x
  have h0 : (⟨.idle, [], []⟩ : EpThread A).refs.count x = 0 := rfl
  omega

/-! ## 2. The invariant -/

/-- What every state of every schedule keeps. -/
structure Inv (s : EpSystem A) : Prop where
  /-- `_ref_count` is the number of references. -/
  ref_eq : ∀ x, (s.slots x).refCount = s.owners x
  /-- A resource in the pool has no address and no reference. -/
  dead : ∀ x, (s.slots x).live = false → (s.slots x).addr = none ∧ s.owners x = 0
  set_live : ∀ x ∈ s.set, (s.slots x).live = true
  set_nodup : s.set.Nodup
  /-- At most one entry per address. -/
  set_addr : ∀ x ∈ s.set, ∀ y ∈ s.set, (s.slots x).addr = (s.slots y).addr → x = y
  /-- Every embedded id, and every id about to be embedded, is in the set. -/
  held : ∀ (j : Nat) (t : EpThread A), s.threads[j]? = some t → ∀ x, x ∈ t.eps ∨ x ∈ t.pc.held → x ∈ s.set
  /-- `create`'s new resource is in use, outside the set, and its own. -/
  fresh : ∀ (j : Nat) (t : EpThread A), s.threads[j]? = some t → ∀ p, t.pc.fresh = some p →
    (s.slots p).live = true ∧ p ∉ s.set ∧ s.owners p = 1 ∧ (s.slots p).addr ≠ none
  /-- A resource whose count `dec_ref` took to 0 is in use, and nobody's. -/
  zombie : ∀ (j : Nat) (t : EpThread A), s.threads[j]? = some t → ∀ x, t.pc.zombie = some x →
    (s.slots x).live = true ∧ s.owners x = 0
  zombie_unique : ∀ (i j : Nat) (t t' : EpThread A) x, s.threads[i]? = some t → s.threads[j]? = some t' →
    t.pc.zombie = some x → t'.pc.zombie = some x → i = j
  /-- After `erase`, the resource is out of the set. -/
  clearing_out : ∀ (j : Nat) (t : EpThread A), s.threads[j]? = some t → ∀ x, t.pc = .clearing x →
    x ∉ s.set
  /-- The pool's calls so far, replayed, give the resources in use. -/
  pool : s.log.foldlM poolStep (fun _ => false) = some fun x => (s.slots x).live

theorem inv_init (progs : List (List (EpOp A))) : Inv (init progs) where
  ref_eq x := by
    simp only [init, owners, List.map_map]
    rw [List.sum_eq_zero]
    · rfl
    · intro n hn
      obtain ⟨t, -, rfl⟩ := List.mem_map.mp hn
      rfl
  dead x _ := ⟨rfl, by
    simp only [init, owners, List.map_map]
    rw [List.sum_eq_zero]
    intro n hn
    obtain ⟨t, -, rfl⟩ := List.mem_map.mp hn
    rfl⟩
  set_live := by simp [init]
  set_nodup := List.nodup_nil
  set_addr := by simp [init]
  held j t h := by
    simp only [init, List.getElem?_map, Option.map_eq_some'] at h
    obtain ⟨_, -, rfl⟩ := h
    simp [EpPc.held]
  fresh j t h := by
    simp only [init, List.getElem?_map, Option.map_eq_some'] at h
    obtain ⟨_, -, rfl⟩ := h
    simp [EpPc.fresh]
  zombie j t h := by
    simp only [init, List.getElem?_map, Option.map_eq_some'] at h
    obtain ⟨_, -, rfl⟩ := h
    simp [EpPc.zombie]
  zombie_unique i j t t' x h := by
    simp only [init, List.getElem?_map, Option.map_eq_some'] at h
    obtain ⟨_, -, rfl⟩ := h
    simp [EpPc.zombie]
  clearing_out j t h := by
    simp only [init, List.getElem?_map, Option.map_eq_some'] at h
    obtain ⟨_, -, rfl⟩ := h
    simp
  pool := rfl

/-! ## 3. Each kind of step keeps the invariant -/

section Steps

variable {s : EpSystem A} {i : Nat} {t : EpThread A}

/-- A property of every thread survives thread `i` changing to `t'` if it
holds of `t'` and of every other thread. -/
theorem forall_setThread {s₁ : EpSystem A} (hs : s₁.threads = s.threads) {P : Nat → EpThread A → Prop}
    (hi : s.threads[i]? = some t) {t' : EpThread A} (h' : P i t')
    (hother : ∀ j u, j ≠ i → s.threads[j]? = some u → P j u) :
    ∀ j u, (s₁.setThread i t').threads[j]? = some u → P j u := by
  intro j u hj
  have hi₁ : s₁.threads[i]? = some t := hs ▸ hi
  rw [getElem?_setThread hi₁] at hj
  split_ifs at hj with hji
  · cases hj; exact hji ▸ h'
  · exact hother j u hji (hs ▸ hj)

/-- `zombie_unique` survives thread `i` changing to `t'` when `t'` is
finishing no resource, or the same one as `t`. -/
theorem Inv.zombie_unique_setThread (h : Inv s) {s₁ : EpSystem A} (hs : s₁.threads = s.threads)
    (hi : s.threads[i]? = some t) {t' : EpThread A}
    (hz : t'.pc.zombie = none ∨ t'.pc.zombie = t.pc.zombie) :
    ∀ (i₁ j₁ : Nat) (u u' : EpThread A) x, (s₁.setThread i t').threads[i₁]? = some u →
      (s₁.setThread i t').threads[j₁]? = some u' → u.pc.zombie = some x → u'.pc.zombie = some x →
      i₁ = j₁ := by
  have hz' (x : Nat) (hx : t'.pc.zombie = some x) : t.pc.zombie = some x := by
    rcases hz with hz | hz <;> rw [hz] at hx
    · cases hx
    · exact hx
  intro i₁ j₁ u u' x h1 h2 hu hu'
  rw [getElem?_setThread (hs ▸ hi), hs] at h1 h2
  split_ifs at h1 h2 with e1 e2 e2
  · exact e1.trans e2.symm
  · cases h1; exact e1 ▸ h.zombie_unique i j₁ t u' x hi h2 (hz' x hu) hu'
  · cases h2; exact e2 ▸ h.zombie_unique i₁ i u t x h1 hi hu (hz' x hu')
  · exact h.zombie_unique i₁ j₁ u u' x h1 h2 hu hu'

theorem pool_get {live : Nat → Bool} {log : List PoolEvent}
    (h : log.foldlM poolStep (fun _ => false) = some live) {x : Nat} (hx : live x = false) :
    (log ++ [PoolEvent.get x]).foldlM poolStep (fun _ => false) = some (Function.update live x true) := by
  simp [List.foldlM_append, h, poolStep, hx]

theorem pool_ret {live : Nat → Bool} {log : List PoolEvent}
    (h : log.foldlM poolStep (fun _ => false) = some live) {x : Nat} (hx : live x = true) :
    (log ++ [PoolEvent.ret x]).foldlM poolStep (fun _ => false) = some (Function.update live x false) := by
  simp [List.foldlM_append, h, poolStep, hx]

/-- The references after thread `i` changes from `t` to `t'`, with the
other threads as in `s`. -/
theorem owners_step {s₁ : EpSystem A} (hs : s₁.threads = s.threads) (hi : s.threads[i]? = some t)
    (t' : EpThread A) (x : Nat) :
    (s₁.setThread i t').owners x + t.refs.count x = s.owners x + t'.refs.count x := by
  rw [← owners_of_threads hs x]
  exact owners_setThread (hs ▸ hi) t' x

/-- Two threads' references count towards the total. -/
theorem count_add_count_le_owners {j : Nat} {u : EpThread A} (hi : s.threads[i]? = some t)
    (hj : s.threads[j]? = some u) (hij : i ≠ j) (x : Nat) :
    t.refs.count x + u.refs.count x ≤ s.owners x := by
  have h1 := owners_setThread hi ⟨.idle, [], []⟩ x
  have hj' : (s.setThread i ⟨.idle, [], []⟩).threads[j]? = some u := by
    rw [getElem?_setThread hi, if_neg (Ne.symm hij), hj]
  have h2 := count_le_owners hj' x
  have h0 : (⟨.idle, [], []⟩ : EpThread A).refs.count x = 0 := rfl
  omega

theorem mem_refs_of_held {u : EpThread A} {x : Nat} (hx : x ∈ u.eps ∨ x ∈ u.pc.held) :
    x ∈ u.refs := by
  rcases hx with hx | hx
  · exact List.mem_append_left _ hx
  · apply List.mem_append_right
    cases hpc : u.pc <;> simp_all [EpPc.held, EpPc.refs]

theorem mem_refs_of_fresh {u : EpThread A} {p : Nat} (hp : u.pc.fresh = some p) : p ∈ u.refs := by
  apply List.mem_append_right
  cases hpc : u.pc <;> simp_all [EpPc.fresh, EpPc.refs]

/-- A thread that holds `x` makes its count positive. -/
theorem owners_pos {j : Nat} {u : EpThread A} (hj : s.threads[j]? = some u) {x : Nat}
    (hx : x ∈ u.refs) : 0 < s.owners x :=
  Nat.lt_of_lt_of_le (List.count_pos_iff.mpr hx) (count_le_owners hj x)

theorem count_eraseIdx {x y : Nat} : ∀ {l : List Nat} {k : Nat}, l[k]? = some y →
    (l.eraseIdx k).count x + (if y = x then 1 else 0) = l.count x
  | a :: l, 0, h => by
    simp only [List.getElem?_cons_zero, Option.some.injEq] at h
    subst h
    simp [List.count_cons]
  | a :: l, k + 1, h => by
    simp only [List.getElem?_cons_succ] at h
    have := count_eraseIdx (x := x) h
    simp only [List.eraseIdx_cons_succ, List.count_cons]
    omega

/-- `new_extended_endpoint`: `get_resource` hands out `f`, its count set
to 1, its address to `a`. -/
theorem Inv.create (h : Inv s) (hi : s.threads[i]? = some t) (hpc : t.pc = .idle) {f : Nat}
    (hf : (s.slots f).live = false) (a : A) (ops : List (EpOp A)) :
    Inv ((s.getResource f ⟨1, some a, true⟩).setThread i ⟨.inserting f, ops, t.eps⟩) := by
  obtain ⟨hfa, hfo⟩ := h.dead f hf
  have hown (x : Nat) : ((s.getResource f ⟨1, some a, true⟩).setThread i ⟨.inserting f, ops, t.eps⟩).owners x =
      s.owners x + if x = f then 1 else 0 := by
    have := owners_step (getResource_threads s f ⟨1, some a, true⟩) hi ⟨.inserting f, ops, t.eps⟩ x
    simp only [EpThread.refs, hpc, EpPc.refs, List.append_nil, List.count_append,
      List.count_singleton'] at this ⊢
    split_ifs at this ⊢ <;> omega
  have hfset : f ∉ s.set := fun hm => by rw [h.set_live f hm] at hf; cases hf
  have hne {x : Nat} (hx : (s.slots x).live = true) : x ≠ f := fun e => by rw [e, hf] at hx; cases hx
  have hs := getResource_threads s f ⟨1, some a, true⟩
  refine ⟨fun x => ?_, fun x hx => ?_, fun x hx => ?_, h.set_nodup, fun x hx y hy => ?_, ?_, ?_, ?_,
    ?_, ?_, ?_⟩
  · rw [hown]
    by_cases hx : x = f
    · subst hx; simp [hfo]
    · simp [hx, h.ref_eq x]
  · have hxf : x ≠ f := fun e => by subst e; simp at hx
    simp only [setThread_slots, getResource_slots, Function.update_noteq hxf] at hx ⊢
    rw [hown, if_neg hxf]
    exact h.dead x hx
  · simpa [hne (h.set_live x hx)] using h.set_live x hx
  · simp only [setThread_slots, getResource_slots, Function.update_noteq (hne (h.set_live x hx)),
      Function.update_noteq (hne (h.set_live y hy))]
    exact h.set_addr x hx y hy
  · refine forall_setThread hs hi ?_ fun j u _ hj => h.held j u hj
    intro x hx
    simp only [EpPc.held, List.not_mem_nil, or_false] at hx
    exact h.held i t hi x (.inl hx)
  · refine forall_setThread hs hi ?_ fun j u _ hj p hp => ?_
    · intro p hp
      simp only [EpPc.fresh, Option.some.injEq] at hp
      subst hp
      exact ⟨by simp, hfset, by simp [hown, hfo], by simp⟩
    · obtain ⟨h1, h2, h3, h4⟩ := h.fresh j u hj p hp
      have := hne h1
      exact ⟨by simpa [this] using h1, h2, by simp [hown, this, h3], by simpa [this] using h4⟩
  · refine forall_setThread hs hi (by simp [EpPc.zombie]) fun j u _ hj x hx => ?_
    obtain ⟨h1, h2⟩ := h.zombie j u hj x hx
    have := hne h1
    exact ⟨by simpa [this] using h1, by simp [hown, this, h2]⟩
  · exact h.zombie_unique_setThread hs hi (.inl rfl)
  · exact forall_setThread hs hi (by simp) fun j u _ hj => h.clearing_out j u hj
  · simp only [setThread_log, getResource_log, setThread_slots, getResource_slots]
    rw [pool_get h.pool hf]
    congr 1
    funext x
    by_cases hx : x = f
    · subst hx; simp
    · simp [hx]

@[simp] theorem update_refCount_live (sl : Nat → Slot A) (x y : Nat) (r : Int) :
    (Function.update sl x { sl x with refCount := r } y).live = (sl y).live := by
  by_cases hy : y = x
  · subst hy; simp
  · simp [hy]

@[simp] theorem update_refCount_addr (sl : Nat → Slot A) (x y : Nat) (r : Int) :
    (Function.update sl x { sl x with refCount := r } y).addr = (sl y).addr := by
  by_cases hy : y = x
  · subst hy; simp
  · simp [hy]

/-- A step of thread `i` that keeps its references and where it is keeps
every field about the threads. -/
theorem Inv.setThread_same (h : Inv s) (hi : s.threads[i]? = some t) {t' : EpThread A}
    (hpc : t'.pc = t.pc) (heps : t'.eps = t.eps) : Inv (s.setThread i t') := by
  have hown (x : Nat) : (s.setThread i t').owners x = s.owners x := by
    have := owners_step rfl hi t' x
    simp only [EpThread.refs, hpc, heps] at this
    omega
  have hs : s.threads = s.threads := rfl
  refine ⟨fun x => by rw [hown]; exact h.ref_eq x, fun x hx => by rw [hown]; exact h.dead x hx,
    h.set_live, h.set_nodup, h.set_addr, forall_setThread hs hi ?_ fun j u _ hj => h.held j u hj,
    forall_setThread hs hi ?_ fun j u _ hj p hp => ?_,
    forall_setThread hs hi ?_ fun j u _ hj x hx => ?_, ?_,
    forall_setThread hs hi ?_ fun j u _ hj => h.clearing_out j u hj, h.pool⟩
  · rw [hpc, heps]; exact h.held i t hi
  · rw [hpc]; intro p hp
    obtain ⟨h1, h2, h3, h4⟩ := h.fresh i t hi p hp
    exact ⟨h1, h2, by rw [hown]; exact h3, h4⟩
  · obtain ⟨h1, h2, h3, h4⟩ := h.fresh j u hj p hp
    exact ⟨h1, h2, by rw [hown]; exact h3, h4⟩
  · rw [hpc]; intro x hx
    obtain ⟨h1, h2⟩ := h.zombie i t hi x hx
    exact ⟨h1, by rw [hown]; exact h2⟩
  · obtain ⟨h1, h2⟩ := h.zombie j u hj x hx
    exact ⟨h1, by rw [hown]; exact h2⟩
  · exact h.zombie_unique_setThread hs hi (.inr (by rw [hpc]))
  · rw [hpc]; exact h.clearing_out i t hi

/-- `embed_to(ep)`: the new `end_point` embeds `x`. -/
theorem Inv.embed (h : Inv s) (hi : s.threads[i]? = some t) {x : Nat} (hpc : t.pc = .embedding x) :
    Inv (s.setThread i { t with pc := .idle, eps := t.eps ++ [x] }) := by
  have hown (y : Nat) : (s.setThread i { t with pc := .idle, eps := t.eps ++ [x] }).owners y =
      s.owners y := by
    have := owners_step rfl hi { t with pc := .idle, eps := t.eps ++ [x] } y
    simp only [EpThread.refs, hpc, EpPc.refs, List.count_append, List.append_nil] at this
    omega
  have hxs : x ∈ s.set := h.held i t hi x (.inr (by simp [hpc, EpPc.held]))
  have hs : s.threads = s.threads := rfl
  refine ⟨fun y => by rw [hown]; exact h.ref_eq y, fun y hy => by rw [hown]; exact h.dead y hy,
    h.set_live, h.set_nodup, h.set_addr, forall_setThread hs hi ?_ fun j u _ hj => h.held j u hj,
    forall_setThread hs hi (by simp [EpPc.fresh]) fun j u _ hj p hp => ?_,
    forall_setThread hs hi (by simp [EpPc.zombie]) fun j u _ hj y hy => ?_, ?_,
    forall_setThread hs hi (by simp) fun j u _ hj => h.clearing_out j u hj, h.pool⟩
  · intro y hy
    simp only [EpPc.held, List.not_mem_nil, or_false, List.mem_append, List.mem_singleton] at hy
    rcases hy with hy | rfl
    · exact h.held i t hi y (.inl hy)
    · exact hxs
  · obtain ⟨h1, h2, h3, h4⟩ := h.fresh j u hj p hp
    exact ⟨h1, h2, by rw [hown]; exact h3, h4⟩
  · obtain ⟨h1, h2⟩ := h.zombie j u hj y hy
    exact ⟨h1, by rw [hown]; exact h2⟩
  · exact h.zombie_unique_setThread hs hi (.inl rfl)

/-- A thread's `end_point`s embed ids in the set, hence live ones. -/
theorem Inv.live_of_eps (h : Inv s) (hi : s.threads[i]? = some t) {x : Nat} (hx : x ∈ t.eps) :
    (s.slots x).live = true :=
  h.set_live x (h.held i t hi x (.inl hx))

theorem refs_ite_idle (c : Prop) [Decidable c] (x : Nat) :
    (if c then EpPc.erasing x else EpPc.idle).refs = [] := by
  split_ifs <;> rfl

/-- `dec_ref` on the thread's `k`-th `end_point`, embedding `x`:
`fetch_sub(1)`, and the last reference goes on to `erase`. -/
theorem Inv.reset (h : Inv s) (hi : s.threads[i]? = some t) (hpc : t.pc = .idle) {k x : Nat}
    (hk : t.eps[k]? = some x) (ops : List (EpOp A)) :
    Inv ((s.setSlot x { s.slots x with refCount := (s.slots x).refCount - 1 }).setThread i
      ⟨if (s.slots x).refCount = 1 then .erasing x else .idle, ops, t.eps.eraseIdx k⟩) := by
  generalize hv : ({ s.slots x with refCount := (s.slots x).refCount - 1 } : Slot A) = v
  generalize hp : (if (s.slots x).refCount = 1 then EpPc.erasing x else EpPc.idle) = pc'
  have hs := setSlot_threads s x v
  have hx : x ∈ t.eps := List.getElem?_mem hk
  have hpcr : pc'.refs = [] := by rw [← hp]; split_ifs <;> rfl
  have hown (y : Nat) : ((s.setSlot x v).setThread i ⟨pc', ops, t.eps.eraseIdx k⟩).owners y +
      (if x = y then 1 else 0) = s.owners y := by
    have := owners_step hs hi ⟨pc', ops, t.eps.eraseIdx k⟩ y
    have he := count_eraseIdx (x := y) hk
    have e1 : t.refs.count y = t.eps.count y := by simp [EpThread.refs, hpc, EpPc.refs]
    have e2 : (⟨pc', ops, t.eps.eraseIdx k⟩ : EpThread A).refs.count y = (t.eps.eraseIdx k).count y := by
      simp [EpThread.refs, hpcr]
    omega
  have hxs : x ∈ s.set := h.held i t hi x (.inl hx)
  have hxo : 0 < s.owners x := owners_pos hi (List.mem_append_left _ hx)
  have hown' (y : Nat) (hy : y ≠ x) :
      ((s.setSlot x v).setThread i ⟨pc', ops, t.eps.eraseIdx k⟩).owners y = s.owners y := by
    have := hown y; rw [if_neg (Ne.symm hy)] at this; omega
  have hvx : ((s.setSlot x v).setThread i ⟨pc', ops, t.eps.eraseIdx k⟩).owners x + 1 = s.owners x := by
    have := hown x; rwa [if_pos rfl] at this
  have hlive (y : Nat) : (Function.update s.slots x v y).live = (s.slots y).live := by
    rw [← hv]; exact update_refCount_live _ _ _ _
  have haddr (y : Nat) : (Function.update s.slots x v y).addr = (s.slots y).addr := by
    rw [← hv]; exact update_refCount_addr _ _ _ _
  refine ⟨fun y => ?_, fun y hy => ?_, fun y hy => by simpa [hlive] using h.set_live y hy, h.set_nodup,
    fun y hy z hz => by simpa [haddr] using h.set_addr y hy z hz, ?_, ?_, ?_, ?_, ?_, ?_⟩
  · by_cases hy : y = x
    · subst hy
      have := h.ref_eq y
      have hvr : v.refCount = (s.slots y).refCount - 1 := by rw [← hv]
      simp only [setThread_slots, setSlot_slots, Function.update_same, hvr]
      omega
    · simp only [setThread_slots, setSlot_slots, Function.update_noteq hy, hown' y hy]
      exact h.ref_eq y
  · simp only [setThread_slots, setSlot_slots, hlive] at hy
    have hyx : y ≠ x := fun e => by rw [e, h.live_of_eps hi hx] at hy; cases hy
    simpa [haddr, hown' y hyx] using h.dead y hy
  · refine forall_setThread hs hi ?_ fun j u _ hj => h.held j u hj
    intro y hy
    rcases hy with hy | hy
    · exact h.held i t hi y (.inl (List.mem_of_mem_eraseIdx hy))
    · rw [← hp] at hy; split_ifs at hy <;> simp [EpPc.held] at hy
  · refine forall_setThread hs hi (by rw [← hp]; split_ifs <;> simp [EpPc.fresh]) fun j u _ hj p hp => ?_
    obtain ⟨h1, h2, h3, h4⟩ := h.fresh j u hj p hp
    have hpx : p ≠ x := fun e => h2 (e ▸ hxs)
    exact ⟨by simpa [hlive] using h1, h2, by rw [hown' p hpx, h3], by simpa [haddr] using h4⟩
  · refine forall_setThread hs hi ?_ fun j u _ hj y hy => ?_
    · intro y hy
      rw [← hp] at hy
      split_ifs at hy with h1
      · simp only [EpPc.zombie, Option.some.injEq] at hy
        subst hy
        refine ⟨by simp only [setThread_slots, setSlot_slots, hlive]; exact h.live_of_eps hi hx, ?_⟩
        have := h.ref_eq x
        omega
      · simp [EpPc.zombie] at hy
    · obtain ⟨h1, h2⟩ := h.zombie j u hj y hy
      have hyx : y ≠ x := fun e => by rw [e] at h2; omega
      exact ⟨by simpa [hlive] using h1, by rw [hown' y hyx, h2]⟩
  · intro i₁ j₁ u u' y h1 h2 hz hz'
    have hz0 (j : Nat) (u : EpThread A) (hj : s.threads[j]? = some u) (hu : u.pc.zombie = some x) :
        False := by
      have := (h.zombie j u hj x hu).2; omega
    have hzx (hz : pc'.zombie = some y) : y = x := by
      rw [← hp] at hz; split_ifs at hz
      · exact (Option.some.inj hz).symm
      · cases hz
    rw [getElem?_setThread (hs ▸ hi)] at h1 h2
    split_ifs at h1 h2 with e1 e2 e2
    · exact e1.trans e2.symm
    · cases h1
      obtain rfl := hzx hz
      exact (hz0 j₁ u' h2 hz').elim
    · cases h2
      obtain rfl := hzx hz'
      exact (hz0 i₁ u h1 hz).elim
    · exact h.zombie_unique i₁ j₁ u u' y h1 h2 hz hz'
  · exact forall_setThread hs hi (by rw [← hp]; split_ifs <;> simp) fun j u _ hj => h.clearing_out j u hj
  · simpa [hlive] using h.pool

/-- `dedup` found another entry: `p` goes back to the pool, and the call
goes on with `e`. -/
theorem Inv.discard (h : Inv s) (hi : s.threads[i]? = some t) {p e : Nat}
    (hpc : t.pc = .discarding p e) :
    Inv ((s.returnResource p ⟨0, none, false⟩).setThread i { t with pc := .embedding e }) := by
  have hs := returnResource_threads s p ⟨0, none, false⟩
  have hown (y : Nat) : ((s.returnResource p ⟨0, none, false⟩).setThread i
      { t with pc := .embedding e }).owners y + (if p = y then 1 else 0) = s.owners y := by
    have := owners_step hs hi { t with pc := .embedding e } y
    simp only [EpThread.refs, hpc, EpPc.refs, List.count_append, List.count_cons, List.count_nil,
      beq_iff_eq] at this
    split_ifs at this ⊢ <;> omega
  obtain ⟨hpl, hps, hpo, -⟩ := h.fresh i t hi p (by simp [hpc, EpPc.fresh])
  have hes : e ∈ s.set := h.held i t hi e (.inr (by simp [hpc, EpPc.held]))
  have hown' (y : Nat) (hy : y ≠ p) : ((s.returnResource p ⟨0, none, false⟩).setThread i
      { t with pc := .embedding e }).owners y = s.owners y := by
    have := hown y; rw [if_neg (Ne.symm hy)] at this; exact this
  have hne {y : Nat} (hy : y ∈ s.set) : y ≠ p := fun e => hps (e ▸ hy)
  /- Only thread `i` holds `p`. -/
  have honly (j : Nat) (u : EpThread A) (hj : s.threads[j]? = some u) (hji : j ≠ i) {y : Nat}
      (hy : y ∈ u.refs) : y ≠ p := by
    rintro rfl
    have := count_add_count_le_owners hi hj (Ne.symm hji) y
    have h1 : 0 < u.refs.count y := List.count_pos_iff.mpr hy
    have h2 : 0 < t.refs.count y := List.count_pos_iff.mpr (mem_refs_of_fresh (by simp [hpc, EpPc.fresh]))
    omega
  refine ⟨fun y => ?_, fun y hy => ?_, fun y hy => ?_, h.set_nodup, fun y hy z hz => ?_, ?_, ?_, ?_, ?_,
    forall_setThread hs hi (by simp) fun j u _ hj => h.clearing_out j u hj, ?_⟩
  · by_cases hy : y = p
    · subst hy
      have := hown y
      simp only [if_true] at this
      simp only [setThread_slots, returnResource_slots, Function.update_same]
      omega
    · simp only [setThread_slots, returnResource_slots, Function.update_noteq hy, hown' y hy]
      exact h.ref_eq y
  · by_cases hyp : y = p
    · subst hyp
      have := hown y
      simp only [if_true] at this
      exact ⟨by simp, by omega⟩
    · simp only [setThread_slots, returnResource_slots, Function.update_noteq hyp] at hy ⊢
      rw [hown' y hyp]
      exact h.dead y hy
  · simpa [Function.update_noteq (hne hy)] using h.set_live y hy
  · simpa [Function.update_noteq (hne hy), Function.update_noteq (hne hz)] using h.set_addr y hy z hz
  · refine forall_setThread hs hi ?_ fun j u _ hj => h.held j u hj
    intro y hy
    rcases hy with hy | hy
    · exact h.held i t hi y (.inl hy)
    · simp only [EpPc.held, List.mem_singleton] at hy
      exact hy ▸ hes
  · refine forall_setThread hs hi (by simp [EpPc.fresh]) fun j u hji hj p' hp' => ?_
    obtain ⟨h1, h2, h3, h4⟩ := h.fresh j u hj p' hp'
    have := honly j u hj hji (mem_refs_of_fresh hp')
    exact ⟨by simpa [this] using h1, h2, by rw [hown' p' this, h3], by simpa [this] using h4⟩
  · refine forall_setThread hs hi (by simp [EpPc.zombie]) fun j u _ hj y hy => ?_
    obtain ⟨h1, h2⟩ := h.zombie j u hj y hy
    have hyp : y ≠ p := fun e => by rw [e] at h2; omega
    exact ⟨by simpa [hyp] using h1, by rw [hown' y hyp, h2]⟩
  · exact h.zombie_unique_setThread hs hi (.inl rfl)
  · simp only [setThread_log, returnResource_log, setThread_slots, returnResource_slots]
    rw [pool_ret h.pool hpl]
    congr 1
    funext y
    by_cases hy : y = p
    · subst hy; simp
    · simp [hy]

/-- The end of `dec_ref`: `sa_family = AF_UNSPEC`, and `return_resource`. -/
theorem Inv.clear (h : Inv s) (hi : s.threads[i]? = some t) {x : Nat} (hpc : t.pc = .clearing x) :
    Inv ((s.returnResource x { s.slots x with addr := none, live := false }).setThread i
      { t with pc := .idle }) := by
  generalize hv : ({ s.slots x with addr := none, live := false } : Slot A) = v
  have hs := returnResource_threads s x v
  have hown (y : Nat) : ((s.returnResource x v).setThread i { t with pc := .idle }).owners y =
      s.owners y := by
    have := owners_step hs hi { t with pc := .idle } y
    simp only [EpThread.refs, hpc, EpPc.refs] at this
    omega
  obtain ⟨hxl, hxo⟩ := h.zombie i t hi x (by simp [hpc, EpPc.zombie])
  have hxs : x ∉ s.set := h.clearing_out i t hi x hpc
  have hne {y : Nat} (hy : y ∈ s.set) : y ≠ x := fun e => hxs (e ▸ hy)
  refine ⟨fun y => ?_, fun y hy => ?_, fun y hy => ?_, h.set_nodup, fun y hy z hz => ?_, ?_, ?_, ?_, ?_,
    forall_setThread hs hi (by simp) fun j u _ hj => h.clearing_out j u hj, ?_⟩
  · rw [hown]
    by_cases hy : y = x
    · subst hy
      simp only [setThread_slots, returnResource_slots, Function.update_same, ← hv]
      exact h.ref_eq y
    · simp only [setThread_slots, returnResource_slots, Function.update_noteq hy]
      exact h.ref_eq y
  · by_cases hyx : y = x
    · subst hyx
      refine ⟨?_, (hown y).trans hxo⟩
      simp only [setThread_slots, returnResource_slots, Function.update_same, ← hv]
    · simp only [setThread_slots, returnResource_slots, Function.update_noteq hyx] at hy ⊢
      rw [hown]
      exact h.dead y hy
  · simpa [Function.update_noteq (hne hy)] using h.set_live y hy
  · simpa [Function.update_noteq (hne hy), Function.update_noteq (hne hz)] using h.set_addr y hy z hz
  · refine forall_setThread hs hi ?_ fun j u _ hj => h.held j u hj
    intro y hy
    rcases hy with hy | hy
    · exact h.held i t hi y (.inl hy)
    · simp [EpPc.held] at hy
  · refine forall_setThread hs hi (by simp [EpPc.fresh]) fun j u _ hj p hp => ?_
    obtain ⟨h1, h2, h3, h4⟩ := h.fresh j u hj p hp
    have hpx : p ≠ x := fun e => by rw [e] at h3; omega
    exact ⟨by simpa [hpx] using h1, h2, by rw [hown, h3], by simpa [hpx] using h4⟩
  · refine forall_setThread hs hi (by simp [EpPc.zombie]) fun j u hji hj y hy => ?_
    obtain ⟨h1, h2⟩ := h.zombie j u hj y hy
    have hyx : y ≠ x := by
      rintro rfl
      exact hji (h.zombie_unique j i u t y hj hi hy (by simp [hpc, EpPc.zombie]))
    exact ⟨by simpa [hyx] using h1, by rw [hown, h2]⟩
  · exact h.zombie_unique_setThread hs hi (.inl rfl)
  · simp only [setThread_log, returnResource_log, setThread_slots, returnResource_slots]
    rw [pool_ret h.pool hxl]
    congr 1
    funext y
    by_cases hy : y = x
    · subst hy; simp [← hv]
    · simp [hy]

/-- `insert(p)` making `p` the entry for its address: `L` is what stays
of the set, and what goes nobody holds. -/
theorem Inv.insertAs (h : Inv s) (hi : s.threads[i]? = some t) {p : Nat}
    (hpc : t.pc = .inserting p) {L : List Nat} (hL : L.Sublist s.set)
    (hLp : ∀ y ∈ L, (s.slots y).addr ≠ (s.slots p).addr)
    (hkeep : ∀ y ∈ s.set, y ∉ L → s.owners y = 0) :
    Inv ({ s with set := L ++ [p] }.setThread i { t with pc := .embedding p }) := by
  have hs : ({ s with set := L ++ [p] } : EpSystem A).threads = s.threads := rfl
  have hown (y : Nat) : ({ s with set := L ++ [p] }.setThread i { t with pc := .embedding p }).owners y =
      s.owners y := by
    have := owners_step hs hi { t with pc := .embedding p } y
    simp only [EpThread.refs, hpc, EpPc.refs] at this
    omega
  obtain ⟨hpl, hps, hpo, -⟩ := h.fresh i t hi p (by simp [hpc, EpPc.fresh])
  /- Only thread `i` holds `p`. -/
  have honly (j : Nat) (u : EpThread A) (hj : s.threads[j]? = some u) (hji : j ≠ i) {y : Nat}
      (hy : y ∈ u.refs) : y ≠ p := by
    rintro rfl
    have := count_add_count_le_owners hi hj (Ne.symm hji) y
    have h1 : 0 < u.refs.count y := List.count_pos_iff.mpr hy
    have h2 : 0 < t.refs.count y := List.count_pos_iff.mpr (mem_refs_of_fresh (by simp [hpc, EpPc.fresh]))
    omega
  /- What a thread holds stays in the set. -/
  have hinL (j : Nat) (u : EpThread A) (hj : s.threads[j]? = some u) (y : Nat)
      (hy : y ∈ u.eps ∨ y ∈ u.pc.held) : y ∈ L := by
    by_contra hyL
    have := hkeep y (h.held j u hj y hy) hyL
    have := owners_pos hj (mem_refs_of_held hy)
    omega
  refine ⟨fun y => by rw [hown]; exact h.ref_eq y, fun y hy => by rw [hown]; exact h.dead y hy,
    fun y hy => ?_, ?_, fun y hy z hz => ?_, ?_, ?_, ?_,
    h.zombie_unique_setThread hs hi (.inl rfl), ?_, h.pool⟩
  · rcases List.mem_append.mp hy with hy | hy
    · exact h.set_live y (hL.subset hy)
    · rw [List.mem_singleton.mp hy]; exact hpl
  · exact List.nodup_append.mpr ⟨h.set_nodup.sublist hL, List.nodup_singleton p,
      fun y hy hy' => hps ((List.mem_singleton.mp hy') ▸ hL.subset hy)⟩
  · rcases List.mem_append.mp hy with hy | hy <;> rcases List.mem_append.mp hz with hz | hz
    · exact h.set_addr y (hL.subset hy) z (hL.subset hz)
    · rw [List.mem_singleton.mp hz]; intro e; exact absurd e (hLp y hy)
    · rw [List.mem_singleton.mp hy]; intro e; exact absurd e.symm (hLp z hz)
    · rw [List.mem_singleton.mp hy, List.mem_singleton.mp hz]; intro; rfl
  · refine forall_setThread hs hi ?_ fun j u _ hj y hy => List.mem_append_left _ (hinL j u hj y hy)
    intro y hy
    rcases hy with hy | hy
    · exact List.mem_append_left _ (hinL i t hi y (.inl hy))
    · simp only [EpPc.held, List.mem_singleton] at hy
      rw [hy]; exact List.mem_append_right _ (List.mem_singleton_self p)
  · refine forall_setThread hs hi (by simp [EpPc.fresh]) fun j u hji hj p' hp' => ?_
    obtain ⟨h1, h2, h3, h4⟩ := h.fresh j u hj p' hp'
    have := honly j u hj hji (mem_refs_of_fresh hp')
    refine ⟨h1, fun hm => ?_, by rw [hown, h3], h4⟩
    rcases List.mem_append.mp hm with hm | hm
    · exact h2 (hL.subset hm)
    · exact this (List.mem_singleton.mp hm)
  · refine forall_setThread hs hi (by simp [EpPc.zombie]) fun j u _ hj y hy => ?_
    obtain ⟨h1, h2⟩ := h.zombie j u hj y hy
    exact ⟨h1, by rw [hown, h2]⟩
  · refine forall_setThread hs hi (by simp) fun j u _ hj y hy hm => ?_
    rcases List.mem_append.mp hm with hm | hm
    · exact h.clearing_out j u hj y hy (hL.subset hm)
    · have := (h.zombie j u hj y (by simp [hy, EpPc.zombie])).2
      rw [List.mem_singleton.mp hm] at this
      omega

/-- `fetch_add(1)` on an entry `x` someone holds, thread `i` taking the
new reference: `inc_ref`, and `insert` reusing an entry. -/
theorem Inv.incRef (h : Inv s) (hi : s.threads[i]? = some t) {x : Nat} (hxs : x ∈ s.set)
    (hxo : 0 < s.owners x) {t' : EpThread A}
    (hrefs : ∀ y, t'.refs.count y = t.refs.count y + if y = x then 1 else 0)
    (hheld : ∀ y, y ∈ t'.eps ∨ y ∈ t'.pc.held → y ∈ t.eps ∨ y ∈ t.pc.held ∨ y = x)
    (hfresh : t'.pc.fresh = t.pc.fresh) (hzombie : t'.pc.zombie = none) :
    Inv ((s.setSlot x { s.slots x with refCount := (s.slots x).refCount + 1 }).setThread i t') := by
  have hs := setSlot_threads s x { s.slots x with refCount := (s.slots x).refCount + 1 }
  have hown (y : Nat) : ((s.setSlot x { s.slots x with refCount := (s.slots x).refCount + 1 }).setThread i
      t').owners y = s.owners y + if y = x then 1 else 0 := by
    have := owners_step hs hi t' y
    rw [hrefs] at this
    omega
  refine ⟨fun y => ?_, fun y hy => ?_, fun y hy => by simpa using h.set_live y hy, h.set_nodup,
    fun y hy z hz => by simpa using h.set_addr y hy z hz, ?_, fun j u hj p hp => ?_, ?_,
    h.zombie_unique_setThread hs hi (.inl hzombie), ?_, by simpa using h.pool⟩
  · rw [hown]
    by_cases hy : y = x
    · subst hy; simp [h.ref_eq]
    · simp [hy, h.ref_eq y]
  · simp only [setThread_slots, setSlot_slots, update_refCount_live] at hy
    have hyx : y ≠ x := fun e => by rw [e, h.set_live x hxs] at hy; cases hy
    simpa [hown, hyx] using h.dead y hy
  · refine forall_setThread hs hi ?_ fun j u _ hj => h.held j u hj
    intro y hy
    rcases hheld y hy with hy | hy | rfl
    · exact h.held i t hi y (.inl hy)
    · exact h.held i t hi y (.inr hy)
    · exact hxs
  · obtain ⟨j', u', hj', hp'⟩ : ∃ (j' : Nat) (u' : EpThread A), s.threads[j']? = some u' ∧ u'.pc.fresh = some p := by
      rw [getElem?_setThread (hs ▸ hi), hs] at hj
      split_ifs at hj
      · cases hj; exact ⟨i, t, hi, hfresh ▸ hp⟩
      · exact ⟨j, u, hj, hp⟩
    obtain ⟨h1, h2, h3, h4⟩ := h.fresh j' u' hj' p hp'
    have hpx : p ≠ x := fun e => h2 (e ▸ hxs)
    exact ⟨by simpa using h1, h2, by simp [hown, hpx, h3], by simpa using h4⟩
  · refine forall_setThread hs hi (by simp [hzombie]) fun j u _ hj y hy => ?_
    obtain ⟨h1, h2⟩ := h.zombie j u hj y hy
    have hyx : y ≠ x := fun e => by rw [e] at h2; omega
    exact ⟨by simpa using h1, by simp [hown, hyx, h2]⟩
  · refine forall_setThread hs hi ?_ fun j u _ hj => h.clearing_out j u hj
    intro y hy
    rw [hy] at hzombie
    cases hzombie

/-- `inc_ref` on the thread's `end_point` embedding `x`, for its copy. -/
theorem Inv.copy (h : Inv s) (hi : s.threads[i]? = some t) (hpc : t.pc = .idle) {x : Nat}
    (hx : x ∈ t.eps) (ops : List (EpOp A)) :
    Inv ((s.setSlot x { s.slots x with refCount := (s.slots x).refCount + 1 }).setThread i
      ⟨.idle, ops, t.eps ++ [x]⟩) :=
  h.incRef hi (h.held i t hi x (.inl hx)) (owners_pos hi (List.mem_append_left _ hx))
    (fun y => by simp [EpThread.refs, hpc, EpPc.refs, List.count_singleton', eq_comm])
    (fun y hy => by simpa [hpc, EpPc.held, or_comm] using hy) (by rw [hpc]) rfl

/-- `insert(p)` found a live entry `e`: its `fetch_add` stands, and
`dedup` goes on to give `p` back. -/
theorem Inv.reuse (h : Inv s) (hi : s.threads[i]? = some t) {p e : Nat} (hpc : t.pc = .inserting p)
    (hes : e ∈ s.set) (he : (s.slots e).refCount ≠ 0) :
    Inv ((s.setSlot e { s.slots e with refCount := (s.slots e).refCount + 1 }).setThread i
      { t with pc := .discarding p e }) :=
  h.incRef hi hes (by have := h.ref_eq e; omega)
    (fun y => by
      simp only [EpThread.refs, hpc, EpPc.refs, List.count_append, List.count_cons, List.count_nil,
        beq_iff_eq]
      split_ifs <;> omega)
    (fun y hy => by simpa [hpc, EpPc.held] using hy) (by rw [hpc]; rfl) rfl

end Steps

section Set

variable [DecidableEq A] {s : EpSystem A} {i : Nat} {t : EpThread A}

theorem find_some {p e : Nat} (hf : s.find p = some e) :
    e ∈ s.set ∧ (s.slots e).addr = (s.slots p).addr := by
  unfold find at hf
  exact ⟨List.mem_of_find?_eq_some hf, by simpa using List.find?_some hf⟩

theorem find_none {p : Nat} (hf : s.find p = none) :
    ∀ e ∈ s.set, (s.slots e).addr ≠ (s.slots p).addr := by
  unfold find at hf
  intro e he
  simpa using List.find?_eq_none.mp hf e he

@[simp] theorem insert_of_find_none {p : Nat} (hf : s.find p = none) :
    s.insert p = (p, { s with set := s.set ++ [p] }) := by
  simp only [insert, hf]

theorem insert_of_dead_entry {p e : Nat} (hf : s.find p = some e) (he : (s.slots e).refCount = 0) :
    s.insert p = (p, { s with set := s.set.erase e ++ [p] }) := by
  simp only [insert, hf, he, if_true]

theorem insert_of_live_entry {p e : Nat} (hf : s.find p = some e) (he : (s.slots e).refCount ≠ 0) :
    s.insert p = (e, s.setSlot e { s.slots e with refCount := (s.slots e).refCount + 1 }) := by
  simp only [insert, hf, he, if_false]

/-- Under `Inv`, `erase(x)` takes `x` out of the set: when the entry
for `x`'s address is another one, `x` was already out. -/
theorem Inv.erase_set (h : Inv s) (x : Nat) : (s.erase x).set = s.set.erase x := by
  cases hf : s.find x with
  | none =>
    have hx : x ∉ s.set := fun hx => find_none hf x hx rfl
    simp only [erase, hf, List.erase_of_not_mem hx]
  | some e =>
    by_cases hex : e = x
    · simp only [erase, hf, hex, if_true]
    · obtain ⟨he, hea⟩ := find_some hf
      have hx : x ∉ s.set := fun hx => hex (h.set_addr e he x hx hea)
      simp only [erase, hf, hex, if_false, List.erase_of_not_mem hx]

/-- `global_set()->erase(this)` after `dec_ref` took `x`'s count to 0. -/
theorem Inv.erase (h : Inv s) (hi : s.threads[i]? = some t) {x : Nat} (hpc : t.pc = .erasing x) :
    Inv ((s.erase x).setThread i { t with pc := .clearing x }) := by
  have hs := erase_threads s x
  have hown (y : Nat) : ((s.erase x).setThread i { t with pc := .clearing x }).owners y = s.owners y := by
    have := owners_step hs hi { t with pc := .clearing x } y
    simp only [EpThread.refs, hpc, EpPc.refs] at this
    omega
  obtain ⟨hxl, hxo⟩ := h.zombie i t hi x (by simp [hpc, EpPc.zombie])
  have hset : ((s.erase x).setThread i { t with pc := .clearing x }).set = s.set.erase x := by
    rw [setThread_set, h.erase_set x]
  have hsub {y : Nat} (hy : y ∈ s.set.erase x) : y ∈ s.set := List.mem_of_mem_erase hy
  /- What a thread holds has a reference, so it is not `x`. -/
  have hkept (j : Nat) (u : EpThread A) (hj : s.threads[j]? = some u) (y : Nat)
      (hy : y ∈ u.eps ∨ y ∈ u.pc.held) : y ∈ s.set.erase x := by
    have hyx : y ≠ x := fun e => by
      have := owners_pos hj (mem_refs_of_held hy); rw [e] at this; omega
    exact (List.mem_erase_of_ne hyx).mpr (h.held j u hj y hy)
  rw [← hset] at hsub hkept
  refine ⟨fun y => by simpa [hown] using h.ref_eq y, fun y hy => ?_,
    fun y hy => by simpa using h.set_live y (hsub hy), by rw [hset]; exact h.set_nodup.erase x,
    fun y hy z hz => by simpa using h.set_addr y (hsub hy) z (hsub hz), ?_, ?_, ?_,
    h.zombie_unique_setThread hs hi (.inr (by rw [hpc]; rfl)), ?_, by simpa using h.pool⟩
  · simp only [setThread_slots, erase_slots] at hy ⊢
    rw [hown]; exact h.dead y hy
  · refine forall_setThread hs hi ?_ fun j u _ hj => hkept j u hj
    intro y hy
    rcases hy with hy | hy
    · exact hkept i t hi y (.inl hy)
    · simp [EpPc.held] at hy
  · refine forall_setThread hs hi (by simp [EpPc.fresh]) fun j u _ hj p hp => ?_
    obtain ⟨h1, h2, h3, h4⟩ := h.fresh j u hj p hp
    exact ⟨by simpa using h1, fun hm => h2 (hsub hm), by rw [hown, h3], by simpa using h4⟩
  · refine forall_setThread hs hi ?_ fun j u _ hj y hy => ?_
    · intro y hy
      simp only [EpPc.zombie, Option.some.injEq] at hy
      subst hy
      exact ⟨by simpa using hxl, by rw [hown, hxo]⟩
    · obtain ⟨h1, h2⟩ := h.zombie j u hj y hy
      exact ⟨by simpa using h1, by rw [hown, h2]⟩
  · refine forall_setThread hs hi ?_ fun j u _ hj y hy hm => h.clearing_out j u hj y hy (hsub hm)
    intro y hy
    cases hy
    rw [hset]
    exact h.set_nodup.not_mem_erase

/-- `dedup`'s call of `insert(p)`, whatever it finds. -/
theorem Inv.insert (h : Inv s) (hi : s.threads[i]? = some t) {p : Nat} (hpc : t.pc = .inserting p) :
    Inv ((s.insert p).2.setThread i
      { t with pc := if (s.insert p).1 = p then .embedding p else .discarding p (s.insert p).1 }) := by
  cases hf : s.find p with
  | none =>
    simp only [insert_of_find_none hf, if_true]
    exact h.insertAs hi hpc (List.Sublist.refl _) (find_none hf) fun y hy hy' => absurd hy hy'
  | some e =>
    obtain ⟨hes, hea⟩ := find_some hf
    by_cases he : (s.slots e).refCount = 0
    · simp only [insert_of_dead_entry hf he, if_true]
      refine h.insertAs hi hpc (List.erase_sublist e s.set) (fun y hy hya => ?_) fun y hy hy' => ?_
      · obtain ⟨hye, hys⟩ := (List.Nodup.mem_erase_iff h.set_nodup).mp hy
        exact hye (h.set_addr y hys e hes (hya.trans hea.symm))
      · have hye : y = e := by_contra fun hye => hy' ((List.mem_erase_of_ne hye).mpr hy)
        have := h.ref_eq e
        rw [hye]; omega
    · have hep : e ≠ p := fun hep => (h.fresh i t hi p (by simp [hpc, EpPc.fresh])).2.1 (hep ▸ hes)
      simp only [insert_of_live_entry hf he, if_neg hep]
      exact h.reuse hi hpc hes he

/-- Every step of every thread keeps `Inv`. -/
theorem Inv.threadStep (h : Inv s) {f : Nat} {s' : EpSystem A} (hs : s.threadStep i f = some s') :
    Inv s' := by
  unfold EpSystem.threadStep at hs
  split at hs
  · cases hs
  rename_i t hi
  split at hs
  · rename_i hpc
    split at hs
    · cases hs
    · split_ifs at hs with hf
      cases hs
      exact h.create hi hpc (by simpa using hf) _ _
    · split at hs <;> cases hs
      · exact h.setThread_same hi rfl rfl
      · exact h.copy hi hpc (List.getElem?_mem ‹_›) _
    · split at hs <;> cases hs
      · exact h.setThread_same hi rfl rfl
      · exact h.reset hi hpc ‹_› _
  · cases hs; exact h.insert hi ‹_›
  · cases hs; exact h.discard hi ‹_›
  · cases hs; exact h.embed hi ‹_›
  · cases hs; exact h.erase hi ‹_›
  · cases hs; exact h.clear hi ‹_›

theorem Inv.step (h : Inv s) (ch : EpChoice) : Inv (s.step ch) := by
  unfold EpSystem.step
  cases hs : s.threadStep ch.i ch.fresh with
  | none => exact h
  | some s' => exact h.threadStep hs

theorem Inv.run (h : Inv s) (sched : List EpChoice) : Inv (s.run sched) := by
  induction sched generalizing s with
  | nil => exact h
  | cons ch sched ih => exact ih (h.step ch)

end Set

/-! ## 4. Every schedule -/

/-- Over every schedule of any number of threads creating, copying and
resetting extended `end_point`s: the pool never hands out a resource in
use and never takes back one that is not; `_ref_count` is the number of
references; a resource back in the pool has count 0 and no `end_point`
embeds it; the set holds live resources, one per address, and every
embedded id is in it; and two `end_point`s with the same address embed
the same id. -/
theorem extended_endpoints_safe [DecidableEq A] (progs : List (List (EpOp A)))
    (sched : List EpChoice) :
    let s := (init progs).run sched
    (s.log.foldlM poolStep (fun _ => false)).isSome ∧
    (∀ x, (s.slots x).refCount = s.owners x) ∧
    (∀ x, (s.slots x).live = false →
      (s.slots x).refCount = 0 ∧ ∀ (j : Nat) (t : EpThread A), s.threads[j]? = some t → x ∉ t.eps) ∧
    (∀ x ∈ s.set, (s.slots x).live = true) ∧
    (∀ x ∈ s.set, ∀ y ∈ s.set, (s.slots x).addr = (s.slots y).addr → x = y) ∧
    (∀ (j : Nat) (t : EpThread A), s.threads[j]? = some t → ∀ x ∈ t.eps, x ∈ s.set) ∧
    (∀ (j j' : Nat) (t t' : EpThread A) (x y : Nat), s.threads[j]? = some t → s.threads[j']? = some t' →
      x ∈ t.eps → y ∈ t'.eps → (s.slots x).addr = (s.slots y).addr → x = y) := by
  intro s
  have h : Inv s := (inv_init progs).run sched
  refine ⟨by rw [h.pool]; rfl, h.ref_eq, fun x hx => ⟨?_, fun j t hj hxt => ?_⟩, h.set_live, h.set_addr,
    fun j t hj x hx => h.held j t hj x (.inl hx),
    fun j j' t t' x y hj hj' hx hy => h.set_addr x (h.held j t hj x (.inl hx)) y (h.held j' t' hj' y (.inl hy))⟩
  · rw [h.ref_eq, (h.dead x hx).2]; rfl
  · have := owners_pos hj (List.mem_append_left _ hxt)
    have := (h.dead x hx).2
    omega

end EpSystem

end Melon.Base
