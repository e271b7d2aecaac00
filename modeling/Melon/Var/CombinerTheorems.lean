/-
Melon.Var.CombinerTheorems — every value passed to `modify` is counted
once, by a value `reset_all_agents` returned or by `combine_agents()`.

* `AgentCombiner.held` — what the combiner holds of the contributions:
  the values its resets returned, `_global_result` and the agents'
  elements, folded with `op`; `CombSystem.held` adds the `tmp` of a
  reset in progress.
* `AgentCombiner.Shape`, `AgentCombiner.LocalOk` — `_agents` is the set
  of agents whose `combiner` is set; a thread inside the atomic `modify`
  has its agent in `_agents`; a thread inside `reset_all_agents` holds
  `_lock` and has agents of `_agents` left to exchange.
* `CombSystem.Inv` — both, and `held` is the fold of `contributed`.
* `combiner_counts_each_modify_once` — at quiescence the values the
  resets returned, with `combine_agents()`, fold to the values passed
  to `modify`.

## How the proof goes

`op` is associative and commutative, with `element_identity` and
`result_identity` neutral. Each step is one thread's, on the combiner
and the thread's own state (`localStep`). It moves values between the
places the combiner keeps them (an element, the `tmp` of a reset,
`_global_result`, a returned value), and a `modify` that returns adds
its `v` to `held` and to `contributed` (`localStep_spec`). The fold
over the agents with agent `j` taken out (`foldl_map_erase`) and over
the threads with thread `i` taken out (`foldl_map_set`) reduce each
case to an identity of `op`, closed by `ac_rfl`.

`result_identity` has to be neutral as well: `_global_result` starts at
it and each reset puts it back, so with `+` and `result_identity = 1`
the total is off by one per reset, and one more
(`result_identity_counted_per_reset`).
-/
import Melon.Var.Combiner
import Mathlib.Data.List.Nodup

namespace Melon.Var

/-! ## 1. Folds of an associative, commutative `op` -/

theorem set_of_getElem? {β : Type} : ∀ {l : List β} {i : Nat} {t : β}, l[i]? = some t → l.set i t = l
  | _ :: _, 0, _, h => by simp_all
  | _ :: _, _ + 1, _, h => by rw [List.set_cons_succ, set_of_getElem? (by simpa using h)]

section Fold

variable {α β : Type} (op : α → α → α) (e : α) [Std.Associative op] [Std.Commutative op]
  (he : ∀ a, op a e = a)
include he

omit [Std.Associative op] in
theorem op_identity_left (a : α) : op e a = a := (Std.Commutative.comm e a).trans (he a)

omit [Std.Commutative op] in
theorem foldl_op_eq (l : List α) (a : α) : l.foldl op a = op a (l.foldl op e) := by
  conv_lhs => rw [← he a]
  exact List.foldl_assoc

omit [Std.Commutative op] in
theorem foldl_append_op (l l' : List α) :
    (l ++ l').foldl op e = op (l.foldl op e) (l'.foldl op e) := by
  rw [List.foldl_append, foldl_op_eq op e he]

theorem foldl_map_cons (f : β → α) (b : β) (l : List β) :
    ((b :: l).map f).foldl op e = op ((l.map f).foldl op e) (f b) := by
  rw [List.map_cons, List.foldl_cons, foldl_op_eq op e he, op_identity_left op e he]
  ac_rfl

/-- The fold with the first `j` taken out, and `f j`. -/
theorem foldl_map_erase [DecidableEq β] (f : β → α) {j : β} : ∀ {l : List β}, j ∈ l →
    (l.map f).foldl op e = op (((l.erase j).map f).foldl op e) (f j)
  | b :: l, hj => by
    by_cases hb : b = j
    · subst hb
      rw [List.erase_cons_head, foldl_map_cons op e he]
    · have hj' : j ∈ l := (List.mem_cons.1 hj).resolve_left (Ne.symm hb)
      rw [List.erase_cons_tail (by simpa using hb), foldl_map_cons op e he, foldl_map_cons op e he,
        foldl_map_erase f hj']
      ac_rfl

/-- The fold after entry `i` became `x`: the others, and `f x`. -/
theorem foldl_map_set (f : β → α) (x : β) : ∀ {l : List β} {i : Nat}, i < l.length →
    ((l.set i x).map f).foldl op e = op (((l.eraseIdx i).map f).foldl op e) (f x)
  | _ :: _, 0, _ => by rw [List.set_cons_zero, List.eraseIdx_cons_zero, foldl_map_cons op e he]
  | _ :: _, _ + 1, hi => by
    rw [List.set_cons_succ, List.eraseIdx_cons_succ, foldl_map_cons op e he, foldl_map_cons op e he,
      foldl_map_set f x (Nat.lt_of_succ_lt_succ hi)]
    ac_rfl

theorem foldl_map_getElem? (f : β → α) {l : List β} {i : Nat} {t : β} (h : l[i]? = some t) :
    (l.map f).foldl op e = op (((l.eraseIdx i).map f).foldl op e) (f t) := by
  conv_lhs => rw [← set_of_getElem? h]
  exact foldl_map_set op e he f t (List.getElem?_eq_some_iff.1 h).1

end Fold

/-! ## 2. What the combiner holds -/

section Ledger

variable {α : Type} (op : α → α → α) (e : α)

/-- What thread `t` holds: the `tmp` of its reset in progress. -/
def pendingOf (t : CombThread α) : α :=
  match t.pc with
  | .resetting tmp _ => tmp
  | _ => e

/-- The agents' elements, folded. -/
def AgentCombiner.agentSum (c : AgentCombiner α) : α :=
  (c.agents.map fun j => (c.elems j).value).foldl op e

/-- The values the resets returned, `_global_result`, and the agents'
elements, folded. -/
def AgentCombiner.held (c : AgentCombiner α) : α :=
  op (op (c.returned.foldl op e) c.globalResult) (c.agentSum op e)

/-- What the combiner and the resets in progress hold. -/
def CombSystem.held (s : CombSystem α) : α :=
  op (s.comb.held op e) ((s.threads.map (pendingOf e)).foldl op e)

end Ledger

/-! ## 3. The shape of `_agents` and of each thread -/

namespace AgentCombiner

variable {α : Type} (c : AgentCombiner α)

@[simp] theorem setElem_agents (j : Nat) (a : Agent α) : (c.setElem j a).agents = c.agents := rfl
@[simp] theorem setElem_lock (j : Nat) (a : Agent α) : (c.setElem j a).lock = c.lock := rfl
@[simp] theorem setElem_elems (j : Nat) (a : Agent α) :
    (c.setElem j a).elems = Function.update c.elems j a := rfl
@[simp] theorem setElem_globalResult (j : Nat) (a : Agent α) :
    (c.setElem j a).globalResult = c.globalResult := rfl
@[simp] theorem setElem_returned (j : Nat) (a : Agent α) : (c.setElem j a).returned = c.returned := rfl
@[simp] theorem setElem_contributed (j : Nat) (a : Agent α) :
    (c.setElem j a).contributed = c.contributed := rfl

/-- `_agents` lists each agent once, and an agent is in it exactly when
its `combiner` is set. -/
structure Shape : Prop where
  nodup : c.agents.Nodup
  combiner_iff : ∀ j, (c.elems j).combiner = true ↔ j ∈ c.agents

/-- Thread `i` in state `t` agrees with the combiner: the atomic
`modify` works on an agent of `_agents`, and a reset in progress holds
`_lock` and has only agents of `_agents` left. -/
structure LocalOk (i : Nat) (t : CombThread α) : Prop where
  cas : ∀ v old, t.pc = .cas v old → (c.elems i).combiner = true
  resetting : ∀ tmp rest, t.pc = .resetting tmp rest → c.lock = some i ∧ ∀ j ∈ rest, j ∈ c.agents

/-- A step that keeps `_agents`, `_lock` and every `combiner`. -/
structure SameShape (c' : AgentCombiner α) : Prop where
  agents : c'.agents = c.agents
  lock : c'.lock = c.lock
  combiner : ∀ j, (c'.elems j).combiner = (c.elems j).combiner

variable {c} {c' : AgentCombiner α}

theorem localOk_idle (i : Nat) (ops : List (CombOp α)) : c.LocalOk i ⟨.idle, ops⟩ :=
  ⟨fun _ _ h => (nomatch h), fun _ _ h => (nomatch h)⟩

theorem Shape.same (h : c.Shape) (hs : c.SameShape c') : c'.Shape :=
  ⟨hs.agents ▸ h.nodup, fun j => by rw [hs.combiner, hs.agents]; exact h.combiner_iff j⟩

/-- A step that keeps thread `k`'s agent set up, and `_lock` and
`_agents` while thread `k` holds `_lock`, keeps thread `k` in order. -/
theorem LocalOk.frame {k : Nat} {u : CombThread α} (h : c.LocalOk k u)
    (hcas : (c.elems k).combiner = true → (c'.elems k).combiner = true)
    (hres : c.lock = some k → c'.lock = some k ∧ c'.agents = c.agents) : c'.LocalOk k u := by
  refine ⟨fun v old hp => hcas (h.cas v old hp), fun tmp rest hp => ?_⟩
  obtain ⟨hl, hr⟩ := h.resetting tmp rest hp
  obtain ⟨hl', ha⟩ := hres hl
  exact ⟨hl', by rw [ha]; exact hr⟩

theorem LocalOk.same {k : Nat} {u : CombThread α} (h : c.LocalOk k u) (hs : c.SameShape c') :
    c'.LocalOk k u :=
  h.frame (by rw [hs.combiner]; exact id) fun hl => ⟨hs.lock ▸ hl, hs.agents⟩

theorem sameShape_setValue (j : Nat) (x : α) : c.SameShape (c.setElem j { c.elems j with value := x }) :=
  ⟨rfl, rfl, fun k => by by_cases hk : k = j <;> simp [hk]⟩

theorem Shape.createAgent (h : c.Shape) {i : Nat} (hi : (c.elems i).combiner = false) (e : α) :
    (c.createAgent e i).Shape := by
  have hni : i ∉ c.agents := fun hm => by simp [(h.combiner_iff i).2 hm] at hi
  refine ⟨List.nodup_append.2 ⟨h.nodup, List.nodup_singleton i, by simpa using hni⟩, fun j => ?_⟩
  by_cases hj : j = i
  · subst hj; simp [AgentCombiner.createAgent]
  · simp [AgentCombiner.createAgent, Function.update_noteq hj, hj, h.combiner_iff j]

theorem Shape.commitAndErase (h : c.Shape) (op : α → α → α) (i : Nat) :
    (c.commitAndErase op i).Shape := by
  refine ⟨h.nodup.erase i, fun j => ?_⟩
  by_cases hj : j = i
  · subst hj; simp [AgentCombiner.commitAndErase, h.nodup.not_mem_erase]
  · simp [AgentCombiner.commitAndErase, Function.update_noteq hj, List.mem_erase_of_ne hj, h.combiner_iff j]

theorem sameShape_modified (i : Nat) (x v : α) : c.SameShape (c.modified i x v) :=
  ⟨rfl, rfl, (sameShape_setValue i x).combiner⟩

theorem sameShape_commitAndClear (op : α → α → α) (e : α) (i : Nat) :
    c.SameShape (c.commitAndClear op e i) :=
  ⟨rfl, rfl, (sameShape_setValue i e).combiner⟩

/-! ## 4. What each step does to `held` -/

section Held

variable (op : α → α → α) (e : α) [Std.Associative op] [Std.Commutative op] (he : ∀ a, op a e = a)
include he

/-- The agents' elements, with agent `j`'s folded last. -/
theorem agentSum_eq {j : Nat} (hj : j ∈ c.agents) :
    c.agentSum op e = op (((c.agents.erase j).map fun k => (c.elems k).value).foldl op e) (c.elems j).value :=
  foldl_map_erase op e he _ hj

/-- The agents' elements after only agent `j`'s changed. -/
theorem agentSum_update (c' : AgentCombiner α) (hnd : c.agents.Nodup) {j : Nat} (hj : j ∈ c.agents)
    (ha : c'.agents = c.agents) (hv : ∀ k, k ≠ j → (c'.elems k).value = (c.elems k).value) :
    c'.agentSum op e =
      op (((c.agents.erase j).map fun k => (c.elems k).value).foldl op e) (c'.elems j).value := by
  have hrest : (c.agents.erase j).map (fun k => (c'.elems k).value) =
      (c.agents.erase j).map fun k => (c.elems k).value :=
    List.map_congr_left fun k hk => hv k fun hkj => hnd.not_mem_erase (hkj ▸ hk)
  rw [agentSum, ha, foldl_map_erase op e he _ hj, hrest]

omit [Std.Commutative op] in
theorem held_createAgent (h : c.Shape) {i : Nat} (hi : (c.elems i).combiner = false) :
    (c.createAgent e i).held op e = c.held op e := by
  have hni : i ∉ c.agents := fun hm => by simp [(h.combiner_iff i).2 hm] at hi
  have hrest : c.agents.map (fun k => ((c.createAgent e i).elems k).value) =
      c.agents.map fun k => (c.elems k).value :=
    List.map_congr_left fun k hk => by
      simp [AgentCombiner.createAgent, Function.update_noteq (ne_of_mem_of_not_mem hk hni)]
  simp only [held, agentSum]
  rw [show (c.createAgent e i).agents = c.agents ++ [i] from rfl, List.map_append,
    foldl_append_op op e he, hrest]
  simp [AgentCombiner.createAgent, he]

theorem held_modified (h : c.Shape) {i : Nat} (hi : i ∈ c.agents) (v : α) :
    (c.modified i (op (c.elems i).value v) v).held op e = op (c.held op e) v := by
  rw [held, held, agentSum_update op e he (c.modified i (op (c.elems i).value v) v) h.nodup hi rfl fun k hk => by
    simp [AgentCombiner.modified, Function.update_noteq hk], agentSum_eq op e he hi]
  simp only [AgentCombiner.modified, setElem_returned, setElem_globalResult, setElem_elems,
    Function.update_same]
  ac_rfl

theorem held_commitAndClear (h : c.Shape) {i : Nat} (hi : i ∈ c.agents) :
    (c.commitAndClear op e i).held op e = c.held op e := by
  rw [held, held, agentSum_update op e he (c.commitAndClear op e i) h.nodup hi rfl fun k hk => by
    simp [AgentCombiner.commitAndClear, Function.update_noteq hk], agentSum_eq op e he hi]
  simp only [AgentCombiner.commitAndClear, setElem_returned, setElem_elems, Function.update_same, he]
  ac_rfl

theorem held_commitAndErase {i : Nat} (hi : i ∈ c.agents) :
    (c.commitAndErase op i).held op e = c.held op e := by
  have hv : ∀ k, ((c.commitAndErase op i).elems k).value = (c.elems k).value := fun k => by
    by_cases hk : k = i <;> simp [AgentCombiner.commitAndErase, hk]
  rw [held, held, agentSum_eq op e he hi, agentSum]
  simp only [hv]
  simp only [AgentCombiner.commitAndErase, setElem_returned]
  ac_rfl

/-- An exchange of `reset_all_agents` moves agent `j`'s element into `tmp`. -/
theorem held_exchange (h : c.Shape) {j : Nat} (hj : j ∈ c.agents) (tmp : α) :
    op ((c.setElem j { c.elems j with value := e }).held op e) (op tmp (c.elems j).value) =
      op (c.held op e) tmp := by
  rw [held, held, agentSum_update op e he (c.setElem j { c.elems j with value := e }) h.nodup hj rfl fun k hk => by
    simp [Function.update_noteq hk], agentSum_eq op e he hj]
  simp only [setElem_returned, setElem_globalResult, setElem_elems, Function.update_same, he]
  ac_rfl

end Held

/-! ## 5. One step of one thread -/

section Step

variable [DecidableEq α] (op : α → α → α) (e r : α) [Std.Associative op] [Std.Commutative op]
  (he : ∀ a, op a e = a) (hr : ∀ a, op a r = a) (atomical : Bool)
include he hr

/-- What a step of thread `i` does: the combiner keeps its shape, thread
`i` and every other thread stay in order, and what the combiner and
thread `i` hold grows by the values of the `modify`s that returned. -/
theorem localStep_spec {i : Nat} {t t' : CombThread α} (hc : c.Shape) (hl : c.LocalOk i t)
    (h : c.localStep op e r atomical i t = some (c', t')) :
    c'.Shape ∧ c'.LocalOk i t' ∧ (∀ k u, k ≠ i → c.LocalOk k u → c'.LocalOk k u) ∧
      ∃ new : List α, c'.contributed = c.contributed ++ new ∧
        op (c'.held op e) (pendingOf e t') = op (op (c.held op e) (pendingOf e t)) (new.foldl op e) := by
  have hsame : ∀ {c' : AgentCombiner α}, c.SameShape c' → ∀ k u, k ≠ i → c.LocalOk k u → c'.LocalOk k u :=
    fun hs _ _ _ hu => hu.same hs
  have hmem : (c.elems i).combiner = true → i ∈ c.agents := (hc.combiner_iff i).1
  obtain ⟨pc, ops⟩ := t
  cases pc with
  | idle =>
    rcases ops with _ | ⟨_ | _ | _ | _, ops⟩ <;> simp only [localStep] at h
    · cases h
    case modify v =>
      split_ifs at h with h1 h2 h3
      · cases h
        simp only [Bool.not_eq_true', Option.isSome_iff_ne_none, ne_eq, not_not] at h1 h2
        refine ⟨hc.createAgent h1 e, localOk_idle _ _, fun k u hk hu => hu.frame ?_ ?_, [], by simp [createAgent], ?_⟩
        · simp [createAgent, Function.update_noteq hk]
        · simp [h2]
        · rw [held_createAgent op e he hc h1]; simp [pendingOf, he]
      · cases h
        replace h1 : (c.elems i).combiner = true := by simpa using h1
        exact ⟨hc, ⟨fun _ _ _ => h1, fun _ _ hp => (nomatch hp)⟩, fun _ _ _ hu => hu, [], by simp, by simp [pendingOf, he]⟩
      · cases h
        replace h1 : (c.elems i).combiner = true := by simpa using h1
        refine ⟨hc.same (sameShape_modified _ _ _), localOk_idle _ _, hsame (sameShape_modified _ _ _), [v], rfl, ?_⟩
        rw [held_modified op e he hc (hmem h1)]; simp [pendingOf, he, op_identity_left op e he]
    case commitAndClear =>
      split_ifs at h with h1 h2
      · cases h
        exact ⟨hc, localOk_idle _ _, fun _ _ _ hu => hu, [], by simp, by simp [pendingOf, he]⟩
      · cases h
        replace h1 : (c.elems i).combiner = true := by simpa using h1
        refine ⟨hc.same (sameShape_commitAndClear _ _ _), localOk_idle _ _,
          hsame (sameShape_commitAndClear _ _ _), [], by simp [commitAndClear], ?_⟩
        rw [held_commitAndClear op e he hc (hmem h1)]; simp [pendingOf, he]
    case commitAndErase =>
      split_ifs at h with h1 h2
      · cases h
        exact ⟨hc, localOk_idle _ _, fun _ _ _ hu => hu, [], by simp, by simp [pendingOf, he]⟩
      · cases h
        replace h1 : (c.elems i).combiner = true := by simpa using h1
        refine ⟨hc.commitAndErase op i, localOk_idle _ _, fun k u hk hu => hu.frame ?_ ?_, [],
          by simp [commitAndErase], ?_⟩
        · simp [commitAndErase, Function.update_noteq hk]
        · simp [commitAndErase, Option.not_isSome_iff_eq_none.1 h2]
        · rw [held_commitAndErase op e he (hmem h1)]; simp [pendingOf, he]
    case resetAllAgents =>
      split_ifs at h with h1
      cases h
      refine ⟨⟨hc.nodup, hc.combiner_iff⟩, ⟨fun _ _ hp => (nomatch hp), fun tmp rest hp => ?_⟩,
        fun k u hk hu => hu.frame id (by simp [Option.not_isSome_iff_eq_none.1 h1]), [], by simp, ?_⟩
      · cases hp; exact ⟨rfl, fun j hj => hj⟩
      · simp only [held, pendingOf, hr, he, List.foldl_nil]; ac_rfl
  | cas v old =>
    simp only [localStep] at h
    split_ifs at h with h1
    · cases h
      subst h1
      refine ⟨hc.same (sameShape_modified _ _ _), localOk_idle _ _, hsame (sameShape_modified _ _ _),
        [v], rfl, ?_⟩
      rw [held_modified op e he hc (hmem (hl.cas v _ rfl))]
      simp [pendingOf, he, op_identity_left op e he]
    · cases h
      exact ⟨hc, ⟨fun _ _ _ => hl.cas v old rfl, fun _ _ hp => (nomatch hp)⟩, fun _ _ _ hu => hu, [],
        by simp, by simp [pendingOf, he]⟩
  | resetting tmp rest =>
    obtain ⟨hlock, hrest⟩ := hl.resetting tmp rest rfl
    cases rest with
    | nil =>
      simp only [localStep] at h
      cases h
      refine ⟨⟨hc.nodup, hc.combiner_iff⟩, localOk_idle _ _, fun k u hk hu => hu.frame id fun hk' =>
        absurd (Option.some.inj (hlock.symm.trans hk')).symm hk, [], by simp, ?_⟩
      simp only [held, pendingOf, List.foldl_nil, he, foldl_append_op op e he, List.foldl_cons,
        op_identity_left op e he]
      ac_rfl
    | cons j rest =>
      simp only [localStep] at h
      cases h
      refine ⟨hc.same (sameShape_setValue _ _), ⟨fun _ _ hp => (nomatch hp), fun tmp' rest' hp => ?_⟩,
        hsame (sameShape_setValue _ _), [], by simp, ?_⟩
      · cases hp; exact ⟨hlock, fun k hk => hrest k (List.mem_cons_of_mem _ hk)⟩
      · simp only [pendingOf, List.foldl_nil, he]
        exact held_exchange op e he hc (hrest j (List.mem_cons_self _ _)) tmp

end Step

/-- `combine_agents()` is `_global_result` with the agents' elements. -/
theorem combineAgents_eq (op : α → α → α) (e : α) [Std.Associative op] (he : ∀ a, op a e = a) :
    c.combineAgents op = op c.globalResult (c.agentSum op e) := by
  rw [combineAgents, agentSum, ← foldl_op_eq op e he, List.foldl_map]

end AgentCombiner

/-! ## 6. Every run -/

namespace CombSystem

variable {α : Type} [DecidableEq α] (op : α → α → α) (e r : α)

/-- The invariant of every run: the combiner's shape, every thread in
order, and what the combiner and the resets in progress hold is the
fold of what `modify` contributed. -/
structure Inv (s : CombSystem α) : Prop where
  shape : s.comb.Shape
  threads : ∀ i t, s.threads[i]? = some t → s.comb.LocalOk i t
  held : s.held op e = s.comb.contributed.foldl op e

section Run

variable [Std.Associative op] [Std.Commutative op] (he : ∀ a, op a e = a) (hr : ∀ a, op a r = a)
  (atomical : Bool) {s s' : CombSystem α}
include he

omit [DecidableEq α] [Std.Associative op] [Std.Commutative op] in
/-- Threads outside any reset hold nothing. -/
theorem foldl_pendingOf_idle {l : List (CombThread α)} (h : ∀ t ∈ l, pendingOf e t = e) :
    (l.map (pendingOf e)).foldl op e = e := by
  induction l with
  | nil => rfl
  | cons t l ih =>
    rw [List.map_cons, List.foldl_cons, h t (List.mem_cons_self _ _), he]
    exact ih fun u hu => h u (List.mem_cons_of_mem _ hu)

include hr

theorem Inv.threadStep {i : Nat} (hs : s.Inv op e) (h : s.threadStep op e r atomical i = some s') :
    s'.Inv op e := by
  unfold CombSystem.threadStep at h
  cases hi : s.threads[i]? with
  | none => simp [hi] at h
  | some t =>
    simp only [hi, Option.map_eq_some'] at h
    obtain ⟨⟨c', t'⟩, hst, rfl⟩ := h
    obtain ⟨hshape, hloc, hframe, new, hcon, hheld⟩ :=
      AgentCombiner.localStep_spec op e r he hr atomical hs.shape (hs.threads i t hi) hst
    have hlen : i < s.threads.length := (List.getElem?_eq_some_iff.1 hi).1
    refine ⟨hshape, fun k u hk => ?_, ?_⟩
    · rw [List.getElem?_set] at hk
      by_cases hik : i = k
      · subst hik; simp only [if_pos hlen, if_true, Option.some.injEq] at hk; exact hk ▸ hloc
      · rw [if_neg hik] at hk; exact hframe k u (Ne.symm hik) (hs.threads k u hk)
    · have hold := hs.held
      simp only [CombSystem.held] at hold ⊢
      rw [foldl_map_getElem? op e he (pendingOf e) hi] at hold
      rw [foldl_map_set op e he (pendingOf e) t' hlen, hcon, foldl_append_op op e he, ← hold]
      generalize ((s.threads.eraseIdx i).map (pendingOf e)).foldl op e = T
      calc op (c'.held op e) (op T (pendingOf e t'))
          = op T (op (c'.held op e) (pendingOf e t')) := by ac_rfl
        _ = op T (op (op (s.comb.held op e) (pendingOf e t)) (new.foldl op e)) := by rw [hheld]
        _ = op (op (s.comb.held op e) (op T (pendingOf e t))) (new.foldl op e) := by ac_rfl

theorem Inv.step (hs : s.Inv op e) (i : Nat) : (s.step op e r atomical i).Inv op e := by
  unfold CombSystem.step
  cases h : s.threadStep op e r atomical i with
  | none => exact hs
  | some s' => exact hs.threadStep op e r he hr atomical h

theorem Inv.run (hs : s.Inv op e) (sched : List Nat) : (s.run op e r atomical sched).Inv op e := by
  induction sched generalizing s with
  | nil => exact hs
  | cons i sched ih => exact ih (hs.step op e r he hr atomical i)

omit [DecidableEq α] [Std.Associative op] [Std.Commutative op] in
theorem inv_init (progs : List (List (CombOp α))) : (init e r progs).Inv op e := by
  refine ⟨⟨List.nodup_nil, fun j => by simp [init]⟩, fun i t ht => ?_, ?_⟩
  · simp only [init, List.getElem?_map, Option.map_eq_some'] at ht
    obtain ⟨ops, -, rfl⟩ := ht
    exact AgentCombiner.localOk_idle i ops
  · rw [CombSystem.held, foldl_pendingOf_idle op e he fun t ht => ?_]
    · simp [init, AgentCombiner.held, AgentCombiner.agentSum, he, hr]
    · simp only [init, List.mem_map] at ht
      obtain ⟨ops, -, rfl⟩ := ht
      rfl

/-- For an `op` associative and commutative with `element_identity` and
`result_identity` neutral, and for any interleaving of the threads'
calls on either `ElementContainer`: once no thread is inside a call,
the values `reset_all_agents` returned, folded with `combine_agents()`,
are the fold of the values of the `modify` calls that returned. -/
theorem combiner_counts_each_modify_once (progs : List (List (CombOp α))) (sched : List Nat) :
    let s := (init e r progs).run op e r atomical sched
    s.quiescent = true →
      op (s.comb.returned.foldl op e) (s.comb.combineAgents op) = s.comb.contributed.foldl op e := by
  intro s hq
  have hinv := (inv_init op e r he hr progs).run op e r he hr atomical sched
  have hp : (s.threads.map (pendingOf e)).foldl op e = e := foldl_pendingOf_idle op e he fun t ht => by
    have := List.all_eq_true.1 hq t ht
    rcases t with ⟨_ | _ | _, _⟩ <;> first | rfl | cases this
  rw [← hinv.held, CombSystem.held, hp, he, AgentCombiner.combineAgents_eq op e he,
    AgentCombiner.held]
  ac_rfl

end Run

end CombSystem

/-- An adder whose second `modify` read 5, lost the race with a reset
that took the 5, failed its compare-exchange and added 1 to 0; the
thread then exits. -/
def retriedModify : List (List (CombOp Nat)) :=
  [[.resetAllAgents], [.modify 5, .modify 1, .commitAndErase]]

theorem combiner_counts_each_modify_once_retry :
    (∀ a : Nat, a + 0 = a) ∧
      ((CombSystem.init 0 0 retriedModify).run (· + ·) 0 0 true [1, 1, 1, 1, 0, 0, 0, 1, 1, 1]).quiescent ∧
      let s := (CombSystem.init 0 0 retriedModify).run (· + ·) 0 0 true [1, 1, 1, 1, 0, 0, 0, 1, 1, 1]
      s.quiescent = true →
        s.comb.returned.foldl (· + ·) 0 + s.comb.combineAgents (· + ·) = s.comb.contributed.foldl (· + ·) 0 :=
  ⟨Nat.add_zero, by decide, CombSystem.combiner_counts_each_modify_once (· + ·) 0 0 Nat.add_zero Nat.add_zero
    true retriedModify [1, 1, 1, 1, 0, 0, 0, 1, 1, 1]⟩

/-- With `result_identity = 1` and `+`, one `modify(2)` and one reset:
the reset returns `1 + 2` and `combine_agents()` then gives `1`, four
in all for the one contribution of 2. -/
theorem result_identity_counted_per_reset :
    let s := (CombSystem.init 0 1 [[.modify 2, .resetAllAgents]]).run (· + ·) 0 1 false [0, 0, 0, 0, 0]
    s.quiescent = true ∧ s.comb.contributed = [2] ∧ s.comb.returned = [3] ∧
      s.comb.combineAgents (· + ·) = 1 ∧
      s.comb.returned.foldl (· + ·) 0 + s.comb.combineAgents (· + ·) ≠ s.comb.contributed.foldl (· + ·) 0 := by
  decide

end Melon.Var
