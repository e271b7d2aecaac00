/-
Melon.Raft.BallotBoxTheorems — the pending queue of `BallotBox` stays
aligned with the log indices from `_pending_index`, and the committed index
only grows.

## How the proof goes

The deque of the code carries no log index: the ballot at position `j`
stands for index `_pending_index + j` only because `_pending_index` moves in
step with `pop_front`. To say which ballot was appended for which index,
`Ghost` runs the same code on ballots tagged with a ghost counter: `next`
is set by `reset_pending_index` and moves on with every appended ballot.
`run_untag` shows that the ghost run, with the tags erased, is the run of
the code.

`GhostInv` is the invariant: the committed index is non-negative and below
a set pending index, a non-empty queue has a pending index, the queue's
tags are `pending, pending + 1, ...` and `next` is one past the last. The
grant loop of `commit_at` keeps every tag and the queue's length, and the
last index it grants lies in the range it walks (`grantLoop_tags`,
`grantLoop_lci`); from there each call is arithmetic on the bounds. The
loop votes once at the position of each index it walks and leaves the
positions before it alone (`grantLoop_votes`, `grantLoop_frame`), so with
the tags the ballot it votes for, and the one it reports granted, is the
one appended for that index (`GhostInv.grantsRight`).
-/
import Melon.Raft.BallotBox
import Melon.Raft.LogIndex

namespace Melon.Raft

variable {β Peer Hint : Type}

/-! ## 1. Tagged ballots -/

/-- The library on tagged ballots: the vote goes to the ballot and the tag
stays. -/
def BallotLib.tagged (L : BallotLib β Peer Hint) : BallotLib (Int × β) Peer Hint where
  grant b p h := ((b.1, (L.grant b.2 p h).1), (L.grant b.2 p h).2)
  granted b := L.granted b.2
  posHint := L.posHint

section tagged

variable (L : BallotLib β Peer Hint)

@[simp] theorem BallotLib.tagged_grant (b : Int × β) (p : Peer) (h : Hint) :
    L.tagged.grant b p h = ((b.1, (L.grant b.2 p h).1), (L.grant b.2 p h).2) := rfl

@[simp] theorem BallotLib.tagged_granted (b : Int × β) : L.tagged.granted b = L.granted b.2 := rfl

@[simp] theorem BallotLib.tagged_posHint : L.tagged.posHint = L.posHint := rfl

end tagged

/-- Erase the tags. -/
def BallotBox.untag (s : BallotBox (Int × β)) : BallotBox β :=
  ⟨s.lastCommittedIndex, s.pendingIndex, s.pendingMetaQueue.map (·.2)⟩

/-- The box with its ghost counter: the log index the next appended ballot
is for. -/
structure Ghost (β : Type) where
  box : BallotBox (Int × β)
  next : Int

namespace Ghost

def init : Ghost β := ⟨.init, 0⟩

variable (L : BallotLib β Peer Hint)

/-- One call on the ghost box: an appended ballot is tagged with `next`. -/
def step (g : Ghost β) : BallotOp β Peer → Ghost β
  | .commitAt f l p => ⟨(g.box.commitAt L.tagged f l p).2, g.next⟩
  | .clearPendingTasks => ⟨g.box.clearPendingTasks, g.next⟩
  | .resetPendingIndex n => ⟨g.box.resetPendingIndex n, n⟩
  | .appendPendingTask bl =>
    ⟨(g.box.appendPendingTask (bl.map (g.next, ·))).2, if bl.isSome then g.next + 1 else g.next⟩
  | .setLastCommittedIndex i => ⟨(g.box.setLastCommittedIndex i).2, g.next⟩

def run (g : Ghost β) (ops : List (BallotOp β Peer)) : Ghost β := ops.foldl (step L) g

end Ghost

/-- A run of the code itself. -/
def BallotOp.run (L : BallotLib β Peer Hint) (s : BallotBox β) (ops : List (BallotOp β Peer)) :
    BallotBox β :=
  ops.foldl (BallotOp.step L) s

/-! ## 2. The ghost run is the code's run -/

section untag

variable (L : BallotLib β Peer Hint) (peer : Peer) (pi : Int)

theorem grantLoop_untag : ∀ (n : Nat) (li : Int) (h : Hint) (q : List (Int × β)) (lci : Int),
    ((BallotBox.grantLoop L.tagged peer pi n li h q lci).1.map (·.2),
      (BallotBox.grantLoop L.tagged peer pi n li h q lci).2) =
    BallotBox.grantLoop L peer pi n li h (q.map (·.2)) lci
  | 0, _, _, _, _ => rfl
  | n + 1, li, h, q, lci => by
    simp only [BallotBox.grantLoop, List.getElem?_map]
    cases q[(li - pi).toNat]? with
    | none => rfl
    | some b =>
      simp only [Option.map_some', BallotLib.tagged_grant, BallotLib.tagged_granted]
      rw [grantLoop_untag n, List.map_set]

theorem commitAt_untag (f l : Int) (s : BallotBox (Int × β)) :
    ((s.commitAt L.tagged f l peer).1, (s.commitAt L.tagged f l peer).2.untag) =
      s.untag.commitAt L f l peer := by
  have key := grantLoop_untag L peer s.pendingIndex
    (l + 1 - max s.pendingIndex f).toNat (max s.pendingIndex f) L.posHint s.pendingMetaQueue 0
  simp only [BallotBox.commitAt, BallotBox.untag, List.length_map, BallotLib.tagged_posHint]
  rw [← key]
  split_ifs <;> simp [List.map_drop]

theorem step_untag (g : Ghost β) (op : BallotOp β Peer) :
    (g.step L op).box.untag = BallotOp.step L g.box.untag op := by
  cases op with
  | commitAt f l p => exact congrArg Prod.snd (commitAt_untag L p f l g.box)
  | clearPendingTasks => rfl
  | resetPendingIndex n => rfl
  | appendPendingTask bl =>
    cases bl <;> simp [Ghost.step, BallotOp.step, BallotBox.appendPendingTask, BallotBox.untag]
  | setLastCommittedIndex i =>
    simp only [Ghost.step, BallotOp.step, BallotBox.setLastCommittedIndex, BallotBox.untag,
      List.isEmpty_eq_false_iff_exists_mem, List.mem_map]
    split_ifs <;> simp_all

theorem pre_untag {s : BallotBox (Int × β)} {op : BallotOp β Peer} :
    op.Pre s.untag ↔ op.Pre s := by
  rcases op with _ | _ | _ | _ | _ | _
  all_goals simp [BallotOp.Pre, BallotBox.untag]

end untag

/-! ## 3. The grant loop on tagged ballots -/

section loop

variable (L : BallotLib β Peer Hint) (peer : Peer) (pi : Int)

theorem map_fst_set_tag {q : List (Int × β)} {k : Nat} {b : Int × β} (hb : q[k]? = some b)
    (x : β) : (q.set k (b.1, x)).map (·.1) = q.map (·.1) := by
  apply List.ext_getElem?
  intro i
  simp only [List.getElem?_map, List.getElem?_set]
  split_ifs with h1 h2
  · simp_all
  · subst h1; rw [List.getElem?_eq_none (by omega)] at hb; cases hb
  · rfl

/-- The votes of the grant loop keep every tag. -/
theorem grantLoop_tags : ∀ (n : Nat) (li : Int) (h : Hint) (q : List (Int × β)) (lci : Int),
    (BallotBox.grantLoop L.tagged peer pi n li h q lci).1.map (·.1) = q.map (·.1)
  | 0, _, _, _, _ => rfl
  | n + 1, li, h, q, lci => by
    simp only [BallotBox.grantLoop]
    cases hb : q[(li - pi).toNat]? with
    | none => rfl
    | some b =>
      simp only [BallotLib.tagged_grant]
      rw [grantLoop_tags n, map_fst_set_tag hb]

/-- The index the grant loop reports is the one it started with, or one of
the `n` it walked. -/
theorem grantLoop_lci : ∀ (n : Nat) (li : Int) (h : Hint) (q : List (Int × β)) (lci : Int),
    (BallotBox.grantLoop L.tagged peer pi n li h q lci).2 = lci ∨
      (li ≤ (BallotBox.grantLoop L.tagged peer pi n li h q lci).2 ∧
        (BallotBox.grantLoop L.tagged peer pi n li h q lci).2 < li + n)
  | 0, _, _, _, _ => .inl rfl
  | n + 1, li, h, q, lci => by
    simp only [BallotBox.grantLoop]
    cases q[(li - pi).toNat]? with
    | none => exact .inl rfl
    | some b =>
      dsimp only
      rcases grantLoop_lci n (li + 1) _ _ (if L.tagged.granted _ then li else lci) with e | e
      · rw [e]; split_ifs
        · exact .inr ⟨Int.le_refl _, by omega⟩
        · exact .inl rfl
      · exact .inr ⟨by omega, by omega⟩

end loop

/-! ## 4. The votes of the grant loop -/

section votes

variable {γ : Type} (L : BallotLib γ Peer Hint) (peer : Peer) (pi : Int)

/-- The loop leaves the positions before the first index it walks as they
were. -/
theorem grantLoop_frame : ∀ (n : Nat) (li : Int) (h : Hint) (q : List γ) (lci : Int) (k : Nat),
    pi ≤ li → k < (li - pi).toNat → (BallotBox.grantLoop L peer pi n li h q lci).1[k]? = q[k]?
  | 0, _, _, _, _, _, _, _ => rfl
  | n + 1, li, h, q, lci, k, hl, hk => by
    simp only [BallotBox.grantLoop]
    cases q[(li - pi).toNat]? with
    | none => rfl
    | some b =>
      dsimp only
      rw [grantLoop_frame n (li + 1) _ _ _ k (by omega) (by omega), List.getElem?_set_ne (by omega)]

/-- At the position of each index it walks, the loop puts the ballot there
after one vote of `peer`. -/
theorem grantLoop_votes : ∀ (n : Nat) (li : Int) (h : Hint) (q : List γ) (lci i : Int),
    pi ≤ li → i < pi + q.length → li ≤ i → i < li + n →
    ∃ h', (BallotBox.grantLoop L peer pi n li h q lci).1[(i - pi).toNat]? =
      q[(i - pi).toNat]?.map fun b => (L.grant b peer h').1
  | 0, _, _, _, _, _, _, _, _, hi => absurd hi (by omega)
  | n + 1, li, h, q, lci, i, hp, hn, h1, h2 => by
    have hk : (li - pi).toNat < q.length := by omega
    simp only [BallotBox.grantLoop, List.getElem?_eq_getElem hk]
    by_cases hi : i = li
    · subst hi
      refine ⟨h, ?_⟩
      rw [grantLoop_frame L peer pi n (i + 1) _ _ _ _ (by omega) (by omega), List.getElem?_set_self hk,
        List.getElem?_eq_getElem hk]
      rfl
    · obtain ⟨h', e⟩ := grantLoop_votes n (li + 1) (L.grant q[(li - pi).toNat] peer h).2
        (q.set (li - pi).toNat (L.grant q[(li - pi).toNat] peer h).1)
        (if L.granted (L.grant q[(li - pi).toNat] peer h).1 then li else lci) i (by omega)
        (by rw [List.length_set]; omega) (by omega) (by omega)
      exact ⟨h', by rw [e, List.getElem?_set_ne (by omega)]⟩

/-- The index the loop reports, unless it is `lci`, is one whose ballot is
granted after the loop. -/
theorem grantLoop_granted : ∀ (n : Nat) (li : Int) (h : Hint) (q : List γ) (lci : Int), pi ≤ li →
    (BallotBox.grantLoop L peer pi n li h q lci).2 = lci ∨
      ∃ b, (BallotBox.grantLoop L peer pi n li h q lci).1[((BallotBox.grantLoop L peer pi n li h q lci).2 -
        pi).toNat]? = some b ∧ L.granted b = true
  | 0, _, _, _, _, _ => .inl rfl
  | n + 1, li, h, q, lci, hp => by
    simp only [BallotBox.grantLoop]
    cases hb : q[(li - pi).toNat]? with
    | none => exact .inl rfl
    | some b =>
      dsimp only
      rcases grantLoop_granted n (li + 1) (L.grant b peer h).2 (q.set (li - pi).toNat (L.grant b peer h).1)
        (if L.granted (L.grant b peer h).1 then li else lci) (by omega) with e | e
      · rw [e]
        split_ifs with hg
        · refine .inr ⟨_, ?_, hg⟩
          rw [grantLoop_frame L peer pi n (li + 1) _ _ _ _ (by omega) (by omega),
            List.getElem?_set_self (List.getElem?_eq_some_iff.1 hb).1]
        · exact .inl rfl
      · exact .inr e

end votes

/-! ## 5. The invariant -/

/-- The queue's tags are the log indices from `_pending_index`, and the
bounds are as the code expects them. -/
structure GhostInv (g : Ghost β) : Prop where
  committed_nonneg : 0 ≤ g.box.lastCommittedIndex
  pending_gt : g.box.pendingIndex ≠ 0 → g.box.lastCommittedIndex < g.box.pendingIndex
  pending_ne : g.box.pendingMetaQueue ≠ [] → g.box.pendingIndex ≠ 0
  tags_eq : g.box.pendingMetaQueue.map (·.1) = idsFrom g.box.pendingIndex g.box.pendingMetaQueue.length
  next_eq : g.box.pendingIndex ≠ 0 → g.next = g.box.pendingIndex + g.box.pendingMetaQueue.length

/-- Every log index `commit_at(first, last, _)` walks names, at its position
in the queue, a ballot tagged with that index. -/
def ReadsRight (s : BallotBox (Int × β)) (first last : Int) : Prop :=
  ∀ i, max s.pendingIndex first ≤ i → i ≤ last → last < s.pendingIndex + s.pendingMetaQueue.length →
    ∃ b, s.pendingMetaQueue[(i - s.pendingIndex).toNat]? = some b ∧ b.1 = i

theorem GhostInv.readsRight {g : Ghost β} (h : GhostInv g) (first last : Int) :
    ReadsRight g.box first last := by
  intro i h1 h2 h3
  have hk : (i - g.box.pendingIndex).toNat < g.box.pendingMetaQueue.length := by omega
  have := congrArg (·[(i - g.box.pendingIndex).toNat]?) h.tags_eq
  simp only [List.getElem?_map, getElem?_idsFrom, if_pos hk, List.getElem?_eq_getElem hk,
    Option.map_some', Option.some.injEq] at this
  exact ⟨_, List.getElem?_eq_getElem hk, by rw [this]; omega⟩

/-- The grant loop `commit_at(first, last, peer)` runs on the tagged box. -/
def commitLoop (L : BallotLib β Peer Hint) (peer : Peer) (s : BallotBox (Int × β)) (first last : Int) :
    List (Int × β) × Int :=
  BallotBox.grantLoop L.tagged peer s.pendingIndex (last + 1 - max s.pendingIndex first).toNat
    (max s.pendingIndex first) L.posHint s.pendingMetaQueue 0

/-- When its range check passes, `commit_at(first, last, peer)` votes, at
the position of each log index `i` it walks, for the ballot appended for
`i`; and the index it commits, unless it commits none, is one whose
ballot, appended for it, is granted after the votes. -/
def GrantsRight (L : BallotLib β Peer Hint) (peer : Peer) (s : BallotBox (Int × β)) (first last : Int) :
    Prop :=
  s.pendingIndex ≤ last → last < s.pendingIndex + s.pendingMetaQueue.length →
    (∀ i, max s.pendingIndex first ≤ i → i ≤ last → ∃ b h',
      s.pendingMetaQueue[(i - s.pendingIndex).toNat]? = some b ∧ b.1 = i ∧
      (commitLoop L peer s first last).1[(i - s.pendingIndex).toNat]? = some (i, (L.grant b.2 peer h').1)) ∧
    ((commitLoop L peer s first last).2 = 0 ∨
      ∃ b, (commitLoop L peer s first last).1[((commitLoop L peer s first last).2 -
          s.pendingIndex).toNat]? = some b ∧
        b.1 = (commitLoop L peer s first last).2 ∧ L.granted b.2 = true)

/-- In a queue tagged from `a`, the ballot at position `k` is tagged `a + k`. -/
theorem tag_eq_of_getElem {q : List (Int × β)} {a : Int} {k : Nat} {b : Int × β}
    (ht : q.map (·.1) = idsFrom a q.length) (hb : q[k]? = some b) : b.1 = a + k := by
  obtain ⟨hk, rfl⟩ := List.getElem?_eq_some_iff.1 hb
  have := congrArg (·[k]?) ht
  simp only [List.getElem?_map, getElem?_idsFrom, if_pos hk, List.getElem?_eq_getElem hk,
    Option.map_some', Option.some.injEq] at this
  exact this

theorem GhostInv.grantsRight (L : BallotLib β Peer Hint) {g : Ghost β} (h : GhostInv g) (p : Peer)
    (first last : Int) : GrantsRight L p g.box first last := by
  intro h1 h2
  unfold commitLoop
  generalize hn : (last + 1 - max g.box.pendingIndex first).toNat = n
  have hp : g.box.pendingIndex ≤ max g.box.pendingIndex first := Int.le_max_left _ _
  refine ⟨fun i hi1 hi2 => ?_, ?_⟩
  · obtain ⟨b, hb, hbt⟩ := h.readsRight first last i hi1 hi2 h2
    obtain ⟨h', e⟩ := grantLoop_votes L.tagged p g.box.pendingIndex n _ L.posHint g.box.pendingMetaQueue 0 i
      hp (by omega) hi1 (by omega)
    rw [hb, Option.map_some', BallotLib.tagged_grant, hbt] at e
    exact ⟨b, h', hb, hbt, e⟩
  · have ht := grantLoop_tags L p g.box.pendingIndex n (max g.box.pendingIndex first) L.posHint
      g.box.pendingMetaQueue 0
    have hlen := congrArg List.length ht
    simp only [List.length_map] at hlen
    rcases grantLoop_lci L p g.box.pendingIndex n (max g.box.pendingIndex first) L.posHint
        g.box.pendingMetaQueue 0 with e | ⟨hlo, -⟩
    · exact .inl e
    rcases grantLoop_granted L.tagged p g.box.pendingIndex n _ L.posHint g.box.pendingMetaQueue 0 hp with
      e | ⟨b, hb, hg⟩
    · exact .inl e
    · refine .inr ⟨b, hb, ?_, hg⟩
      have := tag_eq_of_getElem (by rw [ht, h.tags_eq, hlen]) hb
      omega

/-! ## 6. One call -/

section steps

variable (L : BallotLib β Peer Hint) {g : Ghost β}

/-- `commit_at` keeps the invariant, never lowers the committed index, and
when it commits, `_pending_index` is the next index. -/
theorem GhostInv.commitAt (h : GhostInv g) (f l : Int) (p : Peer) :
    GhostInv (g.step L (.commitAt f l p)) ∧
    g.box.lastCommittedIndex ≤ (g.step L (.commitAt f l p)).box.lastCommittedIndex ∧
    ((g.step L (.commitAt f l p)).box.lastCommittedIndex ≠ g.box.lastCommittedIndex →
      (g.step L (.commitAt f l p)).box.pendingIndex =
        (g.step L (.commitAt f l p)).box.lastCommittedIndex + 1) := by
  have ht := grantLoop_tags L p g.box.pendingIndex (l + 1 - max g.box.pendingIndex f).toNat
    (max g.box.pendingIndex f) L.posHint g.box.pendingMetaQueue 0
  have hl := grantLoop_lci L p g.box.pendingIndex (l + 1 - max g.box.pendingIndex f).toNat
    (max g.box.pendingIndex f) L.posHint g.box.pendingMetaQueue 0
  have hlen := congrArg List.length ht
  simp only [List.length_map] at hlen
  simp only [Ghost.step, BallotBox.commitAt, BallotLib.tagged_posHint]
  generalize BallotBox.grantLoop L.tagged p g.box.pendingIndex (l + 1 - max g.box.pendingIndex f).toNat
    (max g.box.pendingIndex f) L.posHint g.box.pendingMetaQueue 0 = r at ht hl hlen ⊢
  have hn := h.committed_nonneg
  have hgt := h.pending_gt
  have hnext := h.next_eq
  split_ifs with h0 h1 h2 hr
  · exact ⟨h, Int.le_refl _, fun e => absurd rfl e⟩
  · exact ⟨h, Int.le_refl _, fun e => absurd rfl e⟩
  · exact ⟨h, Int.le_refl _, fun e => absurd rfl e⟩
  · -- the grants commit nothing
    refine ⟨⟨hn, hgt, fun _ => h0, ?_, ?_⟩, Int.le_refl _, fun e => absurd rfl e⟩
    · rw [ht, h.tags_eq, hlen]
    · intro; rw [hnext h0, hlen]
  · -- the grants commit up to `r.2`
    have := hgt h0
    have hr' : max g.box.pendingIndex f ≤ r.2 ∧ r.2 ≤ l := by omega
    refine ⟨⟨by dsimp only; omega, fun _ => by dsimp only; omega, fun _ => by dsimp only; omega,
      ?_, fun _ => ?_⟩, by dsimp only; omega, fun _ => rfl⟩
    · dsimp only
      rw [List.map_drop, ht, h.tags_eq, idsFrom_drop, List.length_drop, hlen]
      congr 1
      omega
    · dsimp only
      rw [hnext h0, List.length_drop, hlen]
      omega

/-- Every call whose `MCHECK`s pass keeps the invariant and never lowers
the committed index. -/
theorem GhostInv.step (h : GhostInv g) {op : BallotOp β Peer} (hpre : op.Pre g.box) :
    GhostInv (g.step L op) ∧ g.box.lastCommittedIndex ≤ (g.step L op).box.lastCommittedIndex := by
  cases op with
  | commitAt f l p => exact ⟨(h.commitAt L f l p).1, (h.commitAt L f l p).2.1⟩
  | clearPendingTasks =>
    exact ⟨⟨h.committed_nonneg, fun e => absurd rfl e, fun e => absurd rfl e, rfl,
      fun e => absurd rfl e⟩, Int.le_refl _⟩
  | resetPendingIndex n =>
    obtain ⟨-, hq, hlt⟩ := hpre
    have hq : g.box.pendingMetaQueue = [] := List.isEmpty_iff.mp hq
    refine ⟨⟨h.committed_nonneg, fun _ => hlt, fun e => absurd hq e, ?_, fun _ => ?_⟩,
      Int.le_refl _⟩
    · simp only [Ghost.step, BallotBox.resetPendingIndex, hq]; rfl
    · simp [Ghost.step, BallotBox.resetPendingIndex, hq]
  | appendPendingTask bl =>
    cases bl with
    | none => exact ⟨h, Int.le_refl _⟩
    | some b =>
      have hp : 0 < g.box.pendingIndex := hpre
      refine ⟨⟨h.committed_nonneg, h.pending_gt, fun _ => Int.ne_of_gt hp, ?_, fun _ => ?_⟩,
        Int.le_refl _⟩
      · simp only [Ghost.step, BallotBox.appendPendingTask, Option.map_some', List.map_append,
          List.length_append, List.length_singleton, idsFrom_succ, h.tags_eq,
          h.next_eq (by omega)]
        rfl
      · simp only [Ghost.step, BallotBox.appendPendingTask, Option.map_some', Option.isSome_some,
          if_true, List.length_append, List.length_singleton, h.next_eq (by omega)]
        omega
  | setLastCommittedIndex i =>
    simp only [Ghost.step, BallotBox.setLastCommittedIndex]
    split_ifs with h1 h2 h3
    · exact ⟨h, Int.le_refl _⟩
    · exact ⟨h, Int.le_refl _⟩
    · have := h.committed_nonneg
      exact ⟨⟨by dsimp only; omega, fun e => by simp_all, h.pending_ne, h.tags_eq,
        fun e => by simp_all⟩, by dsimp only; omega⟩
    · exact ⟨h, Int.le_refl _⟩

end steps

/-! ## 7. Runs -/

/-- Every call of a run passes its `MCHECK`s. -/
def BallotOp.Guarded (L : BallotLib β Peer Hint) : BallotBox β → List (BallotOp β Peer) → Prop
  | _, [] => True
  | s, op :: ops => op.Pre s ∧ Guarded L (BallotOp.step L s op) ops

instance BallotOp.decPre {γ : Type} (s : BallotBox γ) :
    (op : BallotOp β Peer) → Decidable (op.Pre s)
  | .commitAt .. => isTrue trivial
  | .clearPendingTasks => isTrue trivial
  | .resetPendingIndex n =>
    inferInstanceAs
      (Decidable (s.pendingIndex = 0 ∧ s.pendingMetaQueue.isEmpty ∧ s.lastCommittedIndex < n))
  | .appendPendingTask (some _) => inferInstanceAs (Decidable (0 < s.pendingIndex))
  | .appendPendingTask none => isTrue trivial
  | .setLastCommittedIndex _ => isTrue trivial

instance BallotOp.decGuarded (L : BallotLib β Peer Hint) :
    (s : BallotBox β) → (ops : List (BallotOp β Peer)) → Decidable (BallotOp.Guarded L s ops)
  | _, [] => isTrue trivial
  | s, op :: ops =>
    have := BallotOp.decGuarded L (BallotOp.step L s op) ops
    inferInstanceAs (Decidable (op.Pre s ∧ BallotOp.Guarded L (BallotOp.step L s op) ops))

/-- What holds of one call `op` made from the ghost box `g`: the invariant
before it, a committed index that does not go down, and for `commit_at`
the reads, votes and commit of the right ballots. -/
structure StepOk (L : BallotLib β Peer Hint) (g : Ghost β) (op : BallotOp β Peer) : Prop where
  inv : GhostInv g
  committed_le : g.box.lastCommittedIndex ≤ (g.step L op).box.lastCommittedIndex
  reads_right : ∀ f l p, op = .commitAt f l p → ReadsRight g.box f l
  grants_right : ∀ f l p, op = .commitAt f l p → GrantsRight L p g.box f l
  pending_after_commit : ∀ f l p, op = .commitAt f l p →
    (g.step L op).box.lastCommittedIndex ≠ g.box.lastCommittedIndex →
    (g.step L op).box.pendingIndex = (g.step L op).box.lastCommittedIndex + 1

theorem GhostInv.stepOk (L : BallotLib β Peer Hint) {g : Ghost β} (h : GhostInv g)
    {op : BallotOp β Peer} (hpre : op.Pre g.box) : StepOk L g op :=
  ⟨h, (h.step L hpre).2, fun f l _ _ => h.readsRight f l, fun f l p _ => h.grantsRight L p f l,
    fun f l p e => by subst e; exact (h.commitAt L f l p).2.2⟩

/-- The invariant along every guarded run, and `StepOk` at every call. -/
theorem GhostInv.run (L : BallotLib β Peer Hint) : ∀ (ops : List (BallotOp β Peer)) {g : Ghost β},
    GhostInv g → BallotOp.Guarded L g.box.untag ops →
    GhostInv (g.run L ops) ∧ ∀ pre op post, ops = pre ++ op :: post → StepOk L (g.run L pre) op
  | [], _, h, _ => ⟨h, fun pre _ _ e => by simp at e⟩
  | op :: ops, g, h, ⟨hp, hg⟩ => by
    have hp := pre_untag.mp hp
    rw [← step_untag] at hg
    obtain ⟨hinv, hall⟩ := GhostInv.run L ops (h.step L hp).1 hg
    refine ⟨hinv, fun pre op' post e => ?_⟩
    cases pre with
    | nil =>
      obtain ⟨rfl, -⟩ := List.cons.inj e
      exact h.stepOk L hp
    | cons o pre =>
      rw [List.cons_append] at e
      obtain ⟨rfl, e'⟩ := List.cons.inj e
      exact hall pre op' post e'

end Melon.Raft
