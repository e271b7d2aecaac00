/-
Melon.Var.AgentGroupTlsTheorems — the agent of an id in one thread never
moves, and two ids never share one.

* `tls_agents_stable_and_distinct` — after any calls of
  `get_or_create_tls_agent` in one thread, with any allocation failing or
  not, `get_tls_agent(id)` returns for each id the agent some call
  returned for it, and no two ids reach the same agent. So an id that
  `destroy_agent` gives back and `create_new_agent` hands out again
  reaches, in each thread, the very agent its previous holder used.

## How the proof goes

A call only appends NULL entries (`grow`) or fills a NULL entry with a
block it has just allocated, so the blocks stay where they were
(`KeepsList`, `Keeps.getTlsAgent`); `InvList` says that the blocks are
below the next address `new ThreadBlock` returns and no two entries hold
the same one, which both kinds of change keep. Two ids that reach one
agent then have the same entry and the same offset, hence the same
quotient and remainder by `ELEMENTS_PER_BLOCK` (`eq_of_agentAt`).
-/
import Melon.Var.AgentGroupTls

namespace Melon.Var

namespace TlsBlocks

/-! ## 1. The vector of blocks -/

/-- Every block of `v` stays at its entry in `w`. -/
def KeepsList (v w : List (Option Nat)) : Prop := ∀ i tb : Nat, v[i]? = some (some tb) → w[i]? = some (some tb)

/-- The blocks of `v` are below `n`, and no two entries hold the same
block. -/
structure InvList (n : Nat) (v : List (Option Nat)) : Prop where
  lt : ∀ i tb : Nat, v[i]? = some (some tb) → tb < n
  inj : ∀ i j tb : Nat, v[i]? = some (some tb) → v[j]? = some (some tb) → i = j

theorem grow_some_iff {v : List (Option Nat)} {blockId i tb : Nat} :
    (grow v blockId)[i]? = some (some tb) ↔ v[i]? = some (some tb) := by
  unfold grow
  split
  · rfl
  by_cases hi : i < v.length
  · rw [List.getElem?_append_left hi]
  · rw [List.getElem?_append_right (by omega), List.getElem?_replicate, List.getElem?_eq_none (by omega)]
    split <;> simp

theorem lt_length_grow (v : List (Option Nat)) (blockId : Nat) : blockId < (grow v blockId).length := by
  unfold grow
  split
  · assumption
  · simp only [List.length_append, List.length_replicate]
    omega

theorem keepsList_grow (v : List (Option Nat)) (blockId : Nat) : KeepsList v (grow v blockId) :=
  fun _ _ h => grow_some_iff.2 h

theorem InvList.grow {n : Nat} {v : List (Option Nat)} (h : InvList n v) (blockId : Nat) :
    InvList n (grow v blockId) :=
  ⟨fun i tb hi => h.lt i tb (grow_some_iff.1 hi), fun i j tb hi hj => h.inj i j tb (grow_some_iff.1 hi) (grow_some_iff.1 hj)⟩

theorem keepsList_set_of_none {w : List (Option Nat)} {b : Nat} (hb : w[b]? = some none) (x : Option Nat) :
    KeepsList w (w.set b x) := by
  intro i tb hi
  have hne : b ≠ i := by rintro rfl; rw [hb] at hi; cases hi
  rwa [List.getElem?_set_ne hne]

/-- Filling a NULL entry with a block just allocated at `n` keeps the
invariant, with `n + 1` as the next address. -/
theorem InvList.set_fresh {n : Nat} {w : List (Option Nat)} (h : InvList n w) {b : Nat} (hb : w[b]? = some none) :
    InvList (n + 1) (w.set b (some n)) := by
  have hlt : b < w.length := (List.getElem?_eq_some.1 hb).1
  have hval : ∀ i tb, (w.set b (some n))[i]? = some (some tb) → i = b ∧ tb = n ∨ i ≠ b ∧ w[i]? = some (some tb) := by
    intro i tb hi
    by_cases he : b = i
    · subst he; rw [List.getElem?_set_self hlt] at hi; cases hi; exact .inl ⟨rfl, rfl⟩
    · rw [List.getElem?_set_ne he] at hi; exact .inr ⟨Ne.symm he, hi⟩
  refine ⟨fun i tb hi => ?_, fun i j tb hi hj => ?_⟩
  · rcases hval i tb hi with ⟨-, rfl⟩ | ⟨-, hi⟩
    · omega
    · exact Nat.lt_succ_of_lt (h.lt i tb hi)
  · rcases hval i tb hi with ⟨hi1, ht1⟩ | ⟨-, hi'⟩ <;> rcases hval j tb hj with ⟨hj1, ht2⟩ | ⟨-, hj'⟩
    · exact hi1.trans hj1.symm
    · exact absurd (h.lt j tb hj') (by omega)
    · exact absurd (h.lt i tb hi') (by omega)
    · exact h.inj i j tb hi' hj'

/-! ## 2. One call -/

/-- Every block of `t` stays at its entry in `t'`. -/
def Keeps (t t' : TlsBlocks) : Prop := ∀ v ∈ t.blocks, ∃ v' ∈ t'.blocks, KeepsList v v'

/-- The invariant of the blocks of one thread. -/
def Inv (t : TlsBlocks) : Prop := ∀ v ∈ t.blocks, InvList t.nextBlock v

variable {sizeofAgent : Nat}

theorem Keeps.refl (t : TlsBlocks) : Keeps t t := fun v hv => ⟨v, hv, fun _ _ h => h⟩

theorem Keeps.trans {t₁ t₂ t₃ : TlsBlocks} (h₁ : Keeps t₁ t₂) (h₂ : Keeps t₂ t₃) : Keeps t₁ t₃ := fun v hv => by
  obtain ⟨v₂, hv₂, hk₂⟩ := h₁ v hv
  obtain ⟨v₃, hv₃, hk₃⟩ := h₂ v₂ hv₂
  exact ⟨v₃, hv₃, fun i tb h => hk₃ i tb (hk₂ i tb h)⟩

theorem agentAt_eq_some {v : List (Option Nat)} {blockId offset : Nat} {a : AgentAddr} :
    agentAt v blockId offset = some a ↔ v[blockId]? = some (some a.block) ∧ a.offset = offset := by
  unfold agentAt
  cases h : v[blockId]? with
  | none => simp
  | some x => cases x <;> cases a <;> simp [eq_comm]

theorem Keeps.getTlsAgent {t t' : TlsBlocks} (h : Keeps t t') {id : Int} {a : AgentAddr}
    (ha : t.getTlsAgent sizeofAgent id = some a) : t'.getTlsAgent sizeofAgent id = some a := by
  unfold TlsBlocks.getTlsAgent at ha ⊢
  split at ha
  · cases ha
  rw [if_neg ‹_›]
  obtain ⟨v, hv, ha⟩ := Option.bind_eq_some.1 ha
  obtain ⟨v', hv', hk⟩ := h v hv
  rw [agentAt_eq_some] at ha
  exact Option.bind_eq_some.2 ⟨v', hv', agentAt_eq_some.2 ⟨hk _ _ ha.1, ha.2⟩⟩

/-- `get_tls_agent(id)` on a vector whose entry for `id` holds a block. -/
theorem getTlsAgent_of_entry {id : Int} (hid : ¬id < 0) {w : List (Option Nat)} {tb : Nat} (n : Nat)
    (hw : w[id.toNat / ELEMENTS_PER_BLOCK sizeofAgent]? = some (some tb)) :
    (⟨some w, n⟩ : TlsBlocks).getTlsAgent sizeofAgent id =
      some ⟨tb, id.toNat - id.toNat / ELEMENTS_PER_BLOCK sizeofAgent * ELEMENTS_PER_BLOCK sizeofAgent⟩ := by
  unfold TlsBlocks.getTlsAgent
  rw [if_neg hid]
  exact Option.bind_eq_some.2 ⟨w, rfl, agentAt_eq_some.2 ⟨hw, rfl⟩⟩

/-- The vector a call works on: the thread's, or a new empty one. -/
theorem orElse_vector {t : TlsBlocks} {vector : Bool} {v : List (Option Nat)}
    (hv : (t.blocks.orElse fun _ => if vector then some [] else none) = some v) :
    t.blocks = some v ∨ (t.blocks = none ∧ v = []) := by
  cases hb : t.blocks with
  | some v₀ => rw [hb] at hv; exact .inl hv
  | none =>
    rw [hb] at hv
    simp only [Option.orElse] at hv
    split at hv <;> cases hv
    exact .inr ⟨rfl, rfl⟩

/-- What a call of `get_or_create_tls_agent` does: it keeps the invariant
and every block, and `get_tls_agent` then returns the agent it returned. -/
theorem getOrCreateTlsAgent_spec {t : TlsBlocks} (h : t.Inv) (id : Int) (alloc : TlsAlloc) :
    (t.getOrCreateTlsAgent sizeofAgent id alloc).2.Inv ∧ Keeps t (t.getOrCreateTlsAgent sizeofAgent id alloc).2 ∧
      ∀ a, (t.getOrCreateTlsAgent sizeofAgent id alloc).1 = some a →
        (t.getOrCreateTlsAgent sizeofAgent id alloc).2.getTlsAgent sizeofAgent id = some a := by
  unfold getOrCreateTlsAgent
  split
  · exact ⟨h, Keeps.refl t, by simp⟩
  next hid =>
  split
  · exact ⟨h, Keeps.refl t, by simp⟩
  next v hv =>
  dsimp only
  have hvc := orElse_vector hv
  have hv1 : InvList t.nextBlock v := by
    rcases hvc with hb | ⟨-, rfl⟩
    · exact h v hb
    · exact ⟨by simp, by simp⟩
  have hv2 : ∀ v₀ ∈ t.blocks, KeepsList v₀ (grow v (id.toNat / ELEMENTS_PER_BLOCK sizeofAgent)) := by
    intro v₀ hv₀
    rcases hvc with hb | ⟨hb, -⟩
    · rw [hb, Option.mem_some_iff] at hv₀; subst hv₀; exact keepsList_grow _ _
    · rw [hb] at hv₀; cases hv₀
  have hw := hv1.grow (id.toNat / ELEMENTS_PER_BLOCK sizeofAgent)
  split
  · next tb htb =>
    exact ⟨fun _ hv' => by cases hv'; exact hw, fun v₀ hv₀ => ⟨_, rfl, hv2 v₀ hv₀⟩,
      fun a ha => by cases ha; exact getTlsAgent_of_entry hid _ (Option.join_eq_some.1 htb)⟩
  · next hnone =>
    have hb : (grow v (id.toNat / ELEMENTS_PER_BLOCK sizeofAgent))[id.toNat / ELEMENTS_PER_BLOCK sizeofAgent]? =
        some none := by
      rw [List.getElem?_eq_getElem (lt_length_grow v _)] at hnone ⊢
      simpa using hnone
    split
    · refine ⟨fun _ hv' => by cases hv'; exact hw.set_fresh hb,
        fun v₀ hv₀ => ⟨_, rfl, fun i tb hi => keepsList_set_of_none hb _ i tb (hv2 v₀ hv₀ i tb hi)⟩,
        fun a ha => by cases ha; exact getTlsAgent_of_entry hid _ (List.getElem?_set_self (List.getElem?_eq_some.1 hb).1)⟩
    · exact ⟨fun _ hv' => by cases hv'; exact hw, fun v₀ hv₀ => ⟨_, rfl, hv2 v₀ hv₀⟩, by simp⟩

theorem inv_init : init.Inv := fun _ h => by cases h

/-- Two ids that reach the same agent are the same id. -/
theorem eq_of_agentAt {t : TlsBlocks} (h : t.Inv) {i j : Int} {a : AgentAddr}
    (hi : t.getTlsAgent sizeofAgent i = some a) (hj : t.getTlsAgent sizeofAgent j = some a) : i = j := by
  unfold TlsBlocks.getTlsAgent at hi hj
  split at hi
  · cases hi
  split at hj
  · cases hj
  obtain ⟨v, hv, hi⟩ := Option.bind_eq_some.1 hi
  obtain ⟨v', hv', hj⟩ := Option.bind_eq_some.1 hj
  rw [hv] at hv'
  cases hv'
  rw [agentAt_eq_some] at hi hj
  have hq := (h v hv).inj _ _ _ hi.1 hj.1
  have ho := hi.2.symm.trans hj.2
  have hi' := Nat.div_mul_le_self i.toNat (ELEMENTS_PER_BLOCK sizeofAgent)
  have hj' := Nat.div_mul_le_self j.toNat (ELEMENTS_PER_BLOCK sizeofAgent)
  rw [hq] at ho hi'
  generalize j.toNat / ELEMENTS_PER_BLOCK sizeofAgent * ELEMENTS_PER_BLOCK sizeofAgent = q at ho hi' hj'
  omega

/-- A run keeps the invariant and every block, and each agent a call
returned is still what `get_tls_agent` returns for its id. -/
theorem run_spec {t : TlsBlocks} (h : t.Inv) (calls : List (Int × TlsAlloc)) :
    (t.run sizeofAgent calls).1.Inv ∧ Keeps t (t.run sizeofAgent calls).1 ∧
      ∀ id a, (id, some a) ∈ (t.run sizeofAgent calls).2 →
        (t.run sizeofAgent calls).1.getTlsAgent sizeofAgent id = some a := by
  induction calls generalizing t with
  | nil => exact ⟨h, Keeps.refl t, by simp [TlsBlocks.run]⟩
  | cons c calls ih =>
    obtain ⟨id, alloc⟩ := c
    obtain ⟨h1, k1, g1⟩ := getOrCreateTlsAgent_spec h id alloc
    obtain ⟨h2, k2, g2⟩ := ih h1
    refine ⟨h2, k1.trans k2, fun id' a ha => ?_⟩
    rcases List.mem_cons.1 ha with ha | ha
    · obtain ⟨rfl, hr⟩ := Prod.mk.inj ha
      exact k2.getTlsAgent (g1 a hr.symm)
    · exact g2 id' a ha

end TlsBlocks

open TlsBlocks

/-- In one thread, after any calls of `get_or_create_tls_agent`, each id
still reaches the agent its calls returned, and no two ids reach the same
agent. -/
theorem tls_agents_stable_and_distinct (sizeofAgent : Nat) (calls : List (Int × TlsAlloc)) :
    (∀ id a, (id, some a) ∈ (init.run sizeofAgent calls).2 →
      (init.run sizeofAgent calls).1.getTlsAgent sizeofAgent id = some a) ∧
    (∀ i j a, (init.run sizeofAgent calls).1.getTlsAgent sizeofAgent i = some a →
      (init.run sizeofAgent calls).1.getTlsAgent sizeofAgent j = some a → i = j) :=
  ⟨(run_spec inv_init calls).2.2, fun _ _ _ hi hj => eq_of_agentAt (run_spec inv_init calls).1 hi hj⟩

/-- Agents of 64 bytes, 64 to a block: ids 0 and 100 in two blocks, the
second call's vector allocation not needed. -/
theorem tls_agents_stable_and_distinct_two :
    (∀ id a, (id, some a) ∈ (init.run 64 [(0, ⟨true, true⟩), (100, ⟨false, true⟩)]).2 →
      (init.run 64 [(0, ⟨true, true⟩), (100, ⟨false, true⟩)]).1.getTlsAgent 64 id = some a) ∧
    (∀ i j a, (init.run 64 [(0, ⟨true, true⟩), (100, ⟨false, true⟩)]).1.getTlsAgent 64 i = some a →
      (init.run 64 [(0, ⟨true, true⟩), (100, ⟨false, true⟩)]).1.getTlsAgent 64 j = some a → i = j) :=
  tls_agents_stable_and_distinct 64 [(0, ⟨true, true⟩), (100, ⟨false, true⟩)]

end Melon.Var
