/-
Melon.Var.AgentGroupTheorems — `create_new_agent` never hands out an id
that is live, as long as every `destroy_agent` gives back a live id.

* `AgentBook.Inv` — the ids live and the free list partition
  `[0, _s_agent_kinds)`: every id of it is in one of them, once.
* `Inv.create`, `Inv.destroy` — each call keeps the invariant; the id
  `create_new_agent` returns is not live (`createNewAgent_not_live`).
* `agent_ids_partition` — from the first call on, over any sequence of
  calls that only destroys live ids: the invariant, a free list without
  duplicates, `_s_agent_kinds` below `INT_MAX`, no live id handed out,
  and `-1` with `EINVAL` for an id out of range, with nothing changed.

## How the proof goes

The invariant is a permutation statement on `live ++ free`, so the
popping and the pushing of the free list keep it by `List.Perm`
(`Inv.of_perm`); a fresh id is `_s_agent_kinds`, above every id the
invariant allows. Induction over the calls lifts the two step lemmas to a
run (`Inv.run`), and the count of `create` calls bounds
`_s_agent_kinds` (`agentKinds_run_le`).
-/
import Melon.Var.AgentGroup
import Mathlib.Data.List.Nodup

namespace Melon.Var

namespace AgentBook

/-! ## 1. The invariant -/

/-- The ids live and the ids in the free list partition
`[0, _s_agent_kinds)`, each id once. -/
structure Inv (b : AgentBook) : Prop where
  kinds_nonneg : 0 ≤ b.group.agentKinds
  nodup : (b.live ++ b.group.freeIds).Nodup
  mem_iff : ∀ x, x ∈ b.live ++ b.group.freeIds ↔ 0 ≤ x ∧ x < b.group.agentKinds

theorem inv_init : init.Inv :=
  ⟨le_refl _, List.nodup_nil, fun x => by simp [init, AgentGroup.init]⟩

variable {b : AgentBook}

/-- The invariant depends only on the ids live and free as a multiset. -/
theorem Inv.of_perm (h : b.Inv) {b' : AgentBook} (hp : (b'.live ++ b'.group.freeIds).Perm (b.live ++ b.group.freeIds))
    (hk : b'.group.agentKinds = b.group.agentKinds) : b'.Inv :=
  ⟨hk ▸ h.kinds_nonneg, hp.nodup_iff.2 h.nodup, fun x => by rw [hp.mem_iff, h.mem_iff, hk]⟩

/-! ## 2. One call -/

/-- What `create_new_agent` does: it pops the back of a non-empty free
list, or else makes the fresh id `_s_agent_kinds`. -/
theorem createNewAgent_spec (g : AgentGroup) :
    (∃ ys id, g.freeIds = ys ++ [id] ∧ g.createNewAgent = (id, ⟨g.agentKinds, ys⟩)) ∨
      (g.freeIds = [] ∧ g.createNewAgent = (g.agentKinds, ⟨g.agentKinds + 1, []⟩)) := by
  unfold AgentGroup.createNewAgent
  split
  · next id hid =>
    obtain ⟨ys, hys⟩ := List.getLast?_eq_some_iff.1 hid
    exact Or.inl ⟨ys, id, hys, by rw [hys, List.dropLast_concat]⟩
  · next hn =>
    have hf := List.getLast?_eq_none_iff.1 hn
    exact Or.inr ⟨hf, by rw [hf]⟩

/-- The id `create_new_agent` returns is not live. -/
theorem createNewAgent_not_live (h : b.Inv) : b.group.createNewAgent.1 ∉ b.live := by
  rcases createNewAgent_spec b.group with ⟨ys, id, hys, hc⟩ | ⟨-, hc⟩ <;> rw [hc] <;> intro hl
  · exact (List.nodup_append.1 h.nodup).2.2 hl (by simp [hys])
  · have := (h.mem_iff _).1 (List.mem_append_left _ hl)
    omega

theorem Inv.create (h : b.Inv) : (b.call .create).Inv := by
  have hn := createNewAgent_not_live h
  rcases createNewAgent_spec b.group with ⟨ys, id, hys, hc⟩ | ⟨hf, hc⟩ <;> simp only [call, hc] at hn ⊢
  · refine h.of_perm ?_ rfl
    rw [hys, List.cons_append, ← List.append_assoc]
    exact (List.perm_append_singleton _ _).symm
  · have h0 := h.kinds_nonneg
    refine ⟨show 0 ≤ b.group.agentKinds + 1 by omega, ?_, fun x => ?_⟩
    · rw [List.append_nil]
      exact List.nodup_cons.2 ⟨hn, by simpa [hf] using h.nodup⟩
    · have := h.mem_iff x
      simp only [hf, List.append_nil, List.mem_cons] at this ⊢
      rw [this]
      omega

/-- `destroy_agent` of a live id returns 0 and pushes it on the free
list. -/
theorem destroyAgent_of_live (h : b.Inv) {id : Int} (hl : id ∈ b.live) :
    b.group.destroyAgent id = (0, none, { b.group with freeIds := b.group.freeIds ++ [id] }) := by
  have := (h.mem_iff id).1 (List.mem_append_left _ hl)
  simp only [AgentGroup.destroyAgent, if_neg (show ¬(id < 0 ∨ id ≥ b.group.agentKinds) by omega)]

theorem Inv.destroy (h : b.Inv) {id : Int} (hl : id ∈ b.live) : (b.call (.destroy id)).Inv := by
  refine h.of_perm ?_ ?_ <;> simp only [call, destroyAgent_of_live h hl]
  rw [← List.append_assoc]
  exact (List.perm_append_singleton _ _).trans ((List.perm_cons_erase hl).append_right _).symm

/-! ## 3. Runs -/

theorem Inv.run (h : b.Inv) {cs : List AgentCall} (hl : b.Legal cs) : (b.run cs).Inv := by
  induction cs generalizing b with
  | nil => exact h
  | cons c cs ih =>
    cases c with
    | create => exact ih h.create hl
    | destroy id => exact ih (h.destroy hl.1) hl.2

/-- A `create` makes at most one fresh id; a `destroy` none. -/
theorem agentKinds_call_le (c : AgentCall) :
    (b.call c).group.agentKinds ≤ b.group.agentKinds + if c == .create then 1 else 0 := by
  cases c with
  | create =>
    rcases createNewAgent_spec b.group with ⟨_, _, _, hc⟩ | ⟨_, hc⟩ <;>
      simp only [call, hc, beq_self_eq_true, if_true] <;> omega
  | destroy id =>
    simp only [call, AgentGroup.destroyAgent]
    split <;> simp

theorem agentKinds_run_le (cs : List AgentCall) :
    (b.run cs).group.agentKinds ≤ b.group.agentKinds + cs.count .create := by
  induction cs generalizing b with
  | nil => simp [run]
  | cons c cs ih =>
    have hc := agentKinds_call_le (b := b) c
    have := ih (b := b.call c)
    simp only [run, List.foldl_cons, List.count_cons] at this ⊢
    split at hc <;> simp only [*, if_true, if_false, Int.natCast_add, Int.ofNat_one] at * <;> omega

end AgentBook

/-- Over any sequence of calls from the start in which `destroy_agent` is
only given live ids, and fewer than `INT_MAX` calls create: the ids live
and free partition `[0, _s_agent_kinds)`, the free list has no duplicate,
`_s_agent_kinds` stays below `INT_MAX`, the next `create_new_agent`
returns no live id, and `destroy_agent` of an id out of range returns
`-1` with `EINVAL` and changes nothing. -/
theorem agent_ids_partition (cs : List AgentCall) (hl : AgentBook.init.Legal cs)
    (hc : cs.count .create < INT_MAX) :
    (AgentBook.init.run cs).Inv ∧ (AgentBook.init.run cs).group.freeIds.Nodup ∧
      (AgentBook.init.run cs).group.agentKinds < INT_MAX ∧
      (AgentBook.init.run cs).group.createNewAgent.1 ∉ (AgentBook.init.run cs).live ∧
      ∀ id, (id < 0 ∨ (AgentBook.init.run cs).group.agentKinds ≤ id) →
        (AgentBook.init.run cs).group.destroyAgent id = (-1, some .EINVAL, (AgentBook.init.run cs).group) := by
  have h := AgentBook.inv_init.run hl
  have hk := AgentBook.agentKinds_run_le (b := AgentBook.init) cs
  refine ⟨h, (List.nodup_append.1 h.nodup).2.1, ?_, AgentBook.createNewAgent_not_live h, fun id hid => ?_⟩
  · have h0 : AgentBook.init.group.agentKinds = 0 := rfl
    omega
  · simp only [AgentGroup.destroyAgent, if_pos (show id < 0 ∨ id ≥ _ from hid.imp_right ge_iff_le.2)]

/-- Two creates, the first id given back, a create that reuses it, the
second id given back. -/
def churn : List AgentCall := [.create, .create, .destroy 0, .create, .destroy 1]

theorem agent_ids_partition_churn :
    AgentBook.init.Legal churn ∧ churn.count .create < INT_MAX ∧
    ((AgentBook.init.run churn).Inv ∧ (AgentBook.init.run churn).group.freeIds.Nodup ∧
      (AgentBook.init.run churn).group.agentKinds < INT_MAX ∧
      (AgentBook.init.run churn).group.createNewAgent.1 ∉ (AgentBook.init.run churn).live ∧
      ∀ id, (id < 0 ∨ (AgentBook.init.run churn).group.agentKinds ≤ id) →
        (AgentBook.init.run churn).group.destroyAgent id = (-1, some .EINVAL, (AgentBook.init.run churn).group)) :=
  ⟨by decide, by decide, agent_ids_partition _ (by decide) (by decide)⟩

end Melon.Var
