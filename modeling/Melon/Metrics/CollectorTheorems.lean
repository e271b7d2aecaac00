/-
Melon.Metrics.CollectorTheorems — what the collector's two threads keep
over every interleaving of their steps and of the submitting threads.

* `Collector.inv_run` — `_ngrab = _ndrop + _ndump + ` the samples counted
  and not yet dumped, so `get_pending_count()` is exactly their number;
  that number stays below `FLAGS_variable_collector_max_pending_samples`
  (or is 0); and with a flag of 0 or less no sample is ever dumped: every
  sample the grab thread counts is destroyed.
* `Collector.conserved_run` — when each preprocessor only reorders its
  samples, every sample given to the reducer is, at any time, in exactly
  one place: still in the reducer, not yet counted, waiting for the dump
  thread, dropped, or dumped. No sample is lost or dumped twice.
* `updateSpeedLimit_sane`, `smoothRange_between` — `update_speed_limit`
  leaves a sampling range in `[1, COLLECTOR_SAMPLING_BASE]` once a round
  counted a sample, and the smoothing for rounds shorter than a second
  gives a range between the old one and the one computed.
* `Collector.sane_run` — over every interleaving, with the sampling
  threads' `is_collectable_before_first_time_grabbed` among the steps,
  every speed limit the grab thread has updated keeps its range in
  `[1, COLLECTOR_SAMPLING_BASE]`.
* `Collector.grabStep_updates_by_round` — over every interleaving, the
  end of a round updates each speed limit from exactly the samples of it
  counted in that round, dropped ones included: `ngrab_map` and
  `last_ngrab_map` count from the start of the thread, and their
  difference as a `size_t` is the round's count.

## How the proof goes

Every step moves samples between the lists (`pendingCount` counts those
waiting) and bumps at most one counter; `Inv` is kept by one lemma per
thread (`Inv.grabStep`, `Inv.dumpStep`), and `Conserved`, stated with
`List.count`, likewise. The only step that adds to the waiting samples is
the one that keeps a sample, and its guard is the bound. `prepare` is a
permutation because grouping by preprocessor is (`flatMap_filter_perm`).
For the speed limits, `step_limits_cases` says once what a step can do to
them (nothing, count a sample, end the round, or a sampling thread's
call); `GrabLimits.Sane` and `GrabLimits.Counts` have one lemma for each,
and the runs follow by induction over the schedule.
-/
import Melon.Metrics.Collector
import Mathlib.Data.List.Perm.Basic
import Mathlib.Tactic.Linarith

namespace Melon.Metrics

variable {α : Type}

/-! ## 1. Grouping by preprocessor -/

/-- Splitting a list by the value of `f`, over a duplicate-free list of
values that covers it, only reorders it. -/
theorem flatMap_filter_perm {β : Type} [DecidableEq β] (f : α → β) :
    ∀ (ks : List β) (l : List α), ks.Nodup → (∀ x ∈ l, f x ∈ ks) →
      (ks.flatMap fun k => l.filter (f · = k)).Perm l
  | [], l, _, hl => by
    obtain rfl : l = [] := List.eq_nil_iff_forall_not_mem.2 fun x hx => by simpa using hl x hx
    simp
  | k :: ks, l, hk, hl => by
    obtain ⟨hkn, hks⟩ := List.nodup_cons.1 hk
    have hrest : (ks.flatMap fun k' => l.filter (f · = k')) =
        ks.flatMap fun k' => (l.filter fun x => !decide (f x = k)).filter (f · = k') := by
      refine List.flatMap_congr fun k' hk' => ?_
      have hne : k' ≠ k := fun h => hkn (h ▸ hk')
      rw [List.filter_filter]
      congr 1
      funext x
      by_cases hx : f x = k' <;> simp [hx, hne]
    rw [List.flatMap_cons, hrest]
    refine ((List.perm_append_left_iff _).2 (flatMap_filter_perm f ks _ hks fun x hx => ?_)).trans
      (List.filter_append_perm _ l)
    obtain ⟨hxl, hxk⟩ := List.mem_filter.1 hx
    simpa using (List.mem_cons.1 (hl x hxl)).resolve_left (by simpa using hxk)

/-- When each preprocessor only reorders its samples, so does the
grouping of a round. -/
theorem prepare_perm {e : CollectorEnv α} (hp : ∀ k l, (e.process k l).Perm l) (l : List α) :
    (prepare e l).Perm l := by
  unfold prepare
  refine (List.Perm.flatMap_left _ fun k _ => ?_).trans
    (flatMap_filter_perm e.preprocessor _ l ((List.nodup_dedup _).perm (List.mergeSort_perm _ _).symm) ?_)
  · dsimp only
    split
    · rfl
    · exact hp _ _
  · intro x hx
    simpa [prepKeys] using List.mem_map_of_mem e.preprocessor hx

/-! ## 2. The counters -/

/-- The samples of this round `grab_thread` has not counted yet. -/
@[simp] def GrabPc.todo : GrabPc α → List α
  | .loop => []
  | .collect t => t
  | .done => []

namespace Collector

/-- The samples counted by `grab_thread` and not yet dumped: those in its
`root`, in `_dump_root` and in `dump_thread`'s `root`. -/
def pendingCount (c : Collector α) : Nat := c.root.length + c.dumpRoot.length + c.dumpList.length

variable {e : CollectorEnv α} {c : Collector α}

/-- The invariant of the counters. -/
structure Inv (e : CollectorEnv α) (c : Collector α) : Prop where
  counts : c.ngrab = c.ndrop + c.ndump + c.pendingCount
  drops : c.ndrop = c.dropped.length
  dumps : c.ndump = c.dumped.length
  bounded : (c.pendingCount : Int) < e.maxPendingSamples ∨ c.pendingCount = 0
  noDump : e.maxPendingSamples ≤ 0 → c.dumped = []

theorem inv_init (now : Int) (sls : Option Nat → CollectorSpeedLimit) : (init now sls : Collector α).Inv e :=
  ⟨rfl, rfl, rfl, .inr rfl, fun _ => rfl⟩

/-- A step that moves no counted sample and touches no counter keeps the
invariant. -/
theorem Inv.frame (h : c.Inv e) {c' : Collector α} (hn : c'.ngrab = c.ngrab) (hd : c'.ndrop = c.ndrop)
    (hu : c'.ndump = c.ndump) (hp : c'.pendingCount = c.pendingCount) (hdr : c'.dropped = c.dropped)
    (hdu : c'.dumped = c.dumped) : c'.Inv e :=
  ⟨by rw [hn, hd, hu, hp]; exact h.counts, hd ▸ hdr ▸ h.drops, hu ▸ hdu ▸ h.dumps, hp ▸ h.bounded,
    hdu ▸ h.noDump⟩

theorem Inv.grabStep (h : c.Inv e) (now : Int) : (c.grabStep e now).Inv e := by
  unfold Collector.grabStep
  split
  · split
    · exact h.frame rfl rfl rfl rfl rfl rfl
    split <;> exact h.frame rfl rfl rfl rfl rfl rfl
  · next p todo _ =>
    obtain ⟨h1, h2, h3, h4, h5⟩ := h
    split
    · -- dropped: the waiting samples stay as they were
      exact ⟨show c.ngrab + 1 = c.ndrop + 1 + c.ndump + c.pendingCount by omega, by simp [h2], h3, h4, h5⟩
    · -- kept: one more waiting sample, below the bound by the guard
      refine ⟨?_, h2, h3, .inl ?_, h5⟩ <;>
        simp only [pendingCount, List.length_append, List.length_singleton] at h1 h4 ⊢ <;> push_cast <;> omega
  · exact h.frame rfl rfl rfl (by simp [pendingCount, endRound]; omega) rfl rfl
  · exact h

theorem Inv.dumpStep (h : c.Inv e) : c.dumpStep.Inv e := by
  unfold Collector.dumpStep
  split
  · split
    · exact h.frame rfl rfl rfl rfl rfl rfl
    split
    · exact h
    · exact h.frame rfl rfl rfl (by simp [pendingCount]; omega) rfl rfl
  · split
    · next s rest hl =>
      obtain ⟨h1, h2, h3, h4, h5⟩ := h
      have hpos : c.pendingCount ≠ 0 := by simp [pendingCount, hl]
      refine ⟨?_, h2, ?_, ?_, fun hm => absurd (h4.resolve_right hpos) (by omega)⟩
      · simp [pendingCount, hl] at h1 ⊢; omega
      · simp [h3]
      · left; simp [pendingCount, hl] at h4 hpos ⊢; omega
    · exact h.frame rfl rfl rfl rfl rfl rfl
  · exact h

theorem Inv.step (h : c.Inv e) : ∀ st, (c.step e st).Inv e
  | .submit s t => by
    show (c.submit s t).Inv e
    unfold Collector.submit
    split
    · exact h.frame rfl rfl rfl rfl rfl rfl
    · exact h
  | .grab now => h.grabStep now
  | .dump => h.dumpStep
  | .destroy | .collectable _ _ => h.frame rfl rfl rfl rfl rfl rfl

theorem Inv.run (h : c.Inv e) (sched : List (CollectorStep α)) : (c.run e sched).Inv e := by
  induction sched generalizing c with
  | nil => exact h
  | cons st sched ih => exact ih (h.step st)

/-- Over every interleaving: `get_pending_count()` is the number of
samples waiting for the dump thread, that number stays below
`FLAGS_variable_collector_max_pending_samples` or is 0, and a flag of 0
or less lets no sample through to `dump_and_destroy`. -/
theorem inv_run (now : Int) (sls : Option Nat → CollectorSpeedLimit) (sched : List (CollectorStep α)) :
    ((init now sls).run e sched).getPendingCount = ((init now sls).run e sched).pendingCount ∧
      ((((init now sls).run e sched).pendingCount : Int) < e.maxPendingSamples ∨
        ((init now sls).run e sched).pendingCount = 0) ∧
      (e.maxPendingSamples ≤ 0 → ((init now sls).run e sched).dumped = []) := by
  have h := (inv_init now sls).run (e := e) sched
  refine ⟨?_, h.bounded, h.noDump⟩
  unfold getPendingCount
  have := h.counts
  omega

/-! ## 3. No sample lost or dumped twice -/

/-- Every sample given to the reducer is in exactly one place. -/
def Conserved (c : Collector α) : Prop :=
  c.accepted.Perm (c.reduced ++ c.grab.todo ++ c.root ++ c.dumpRoot ++ c.dumpList ++ c.dropped ++ c.dumped)

theorem conserved_init (now : Int) (sls : Option Nat → CollectorSpeedLimit) : (init now sls : Collector α).Conserved := by
  simp [Conserved, init]

section Counts

variable [DecidableEq α]

/-- `Conserved` by counts: each step is then linear arithmetic. -/
theorem conserved_iff {c : Collector α} :
    c.Conserved ↔ ∀ a, c.accepted.count a = c.reduced.count a + c.grab.todo.count a + c.root.count a +
      c.dumpRoot.count a + c.dumpList.count a + c.dropped.count a + c.dumped.count a := by
  simp [Conserved, List.perm_iff_count, List.count_append, Nat.add_assoc]

theorem Conserved.grabStep (hp : ∀ k l, (e.process k l).Perm l) (h : c.Conserved) (now : Int) :
    (c.grabStep e now).Conserved := by
  rw [conserved_iff] at h ⊢
  intro a
  have ha := h a
  unfold Collector.grabStep
  split
  · next hg =>
    rw [hg] at ha
    split
    · simpa using ha
    split
    · simpa [hg, endRound] using ha
    · -- the round's samples leave the reducer for the grouping
      have := (prepare_perm hp c.reduced).count_eq a
      simp at ha ⊢; omega
  · next hg =>
    rw [hg] at ha
    split <;> simp [List.count_cons] at ha ⊢ <;> omega
  · next hg =>
    rw [hg] at ha
    simp [endRound] at ha ⊢; omega
  · exact ha

theorem Conserved.dumpStep (h : c.Conserved) : c.dumpStep.Conserved := by
  rw [conserved_iff] at h ⊢
  intro a
  have ha := h a
  unfold Collector.dumpStep
  split
  · split
    · exact ha
    split
    · exact ha
    · simp only [List.count_append, List.count_nil] at ha ⊢; omega
  · split
    · next s rest hl =>
      simp only [hl, List.count_cons, List.count_append, List.count_nil] at ha ⊢; omega
    · exact ha
  · exact ha

theorem Conserved.step (hp : ∀ k l, (e.process k l).Perm l) (h : c.Conserved) :
    ∀ st, (c.step e st).Conserved
  | .submit s t => by
    show (c.submit s t).Conserved
    unfold Collector.submit
    split
    · rw [conserved_iff] at h ⊢
      intro a
      have ha := h a
      simp only [List.count_cons, List.count_append, List.count_nil] at ha ⊢; omega
    · exact h
  | .grab now => h.grabStep hp now
  | .dump => h.dumpStep
  | .destroy | .collectable _ _ => h

/-- Over every interleaving, when each preprocessor only reorders its
samples: the samples given to the reducer are exactly those still in the
reducer, not yet counted, waiting for the dump thread, dropped, and
dumped, each as often as it was given. -/
theorem conserved_run (hp : ∀ k l, (e.process k l).Perm l) (now : Int) (sls : Option Nat → CollectorSpeedLimit)
    (sched : List (CollectorStep α)) : ((init now sls).run e sched).Conserved := by
  suffices ∀ c : Collector α, c.Conserved → (c.run e sched).Conserved from this _ (conserved_init now sls)
  induction sched with
  | nil => exact fun c h => h
  | cons st sched ih => exact fun c h => ih _ (h.step hp st)

end Counts

end Collector

/-- Samples of two speed limits under two preprocessors that reverse their
groups, with room for ten pending samples. -/
def revEnv : CollectorEnv Nat := ⟨10, fun x => x % 2 + 1, fun _ l => l.reverse, fun x => some (x % 2), 100, 1000⟩

/-- Speed limits that no update has set. -/
def freshLimits : Option Nat → CollectorSpeedLimit := fun _ => ⟨1, false, 0, 0⟩

/-- Two submits, a round of the grab thread that keeps both, the start of
the next round, and the dump thread taking and dumping them. -/
def twoSamples : List (CollectorStep Nat) :=
  [.submit 1 0, .submit 2 0, .grab 10, .grab 20, .grab 30, .grab 40, .dump, .dump, .dump]

theorem conserved_run_twoSamples :
    (∀ k l, (revEnv.process k l).Perm l) ∧ ((Collector.init 0 freshLimits).run revEnv twoSamples).Conserved :=
  ⟨fun _ l => List.reverse_perm l, Collector.conserved_run (fun _ l => List.reverse_perm l) 0 freshLimits twoSamples⟩

/-! ## 4. Speed limits -/

theorem saneRange_mem {base : Nat} (hb : 0 < base) (n : Nat) : 1 ≤ saneRange base n ∧ saneRange base n ≤ base := by
  unfold saneRange
  split_ifs <;> omega

/-- A round that counted samples leaves a sampling range in
`[1, COLLECTOR_SAMPLING_BASE]`, marks the speed limit grabbed and moves
`*last_ngrab` to the count; a round that counted none changes nothing. -/
theorem updateSpeedLimit_sane {base : Nat} (hb : 0 < base) (expected : Int) (sl : CollectorSpeedLimit)
    (lastNgrab curNgrab : Nat) (intervalUs now : Int) :
    updateSpeedLimit base expected sl lastNgrab curNgrab intervalUs now = (sl, lastNgrab) ∨
      (1 ≤ (updateSpeedLimit base expected sl lastNgrab curNgrab intervalUs now).1.samplingRange ∧
        (updateSpeedLimit base expected sl lastNgrab curNgrab intervalUs now).1.samplingRange ≤ base ∧
        (updateSpeedLimit base expected sl lastNgrab curNgrab intervalUs now).1.everGrabbed = true ∧
        (updateSpeedLimit base expected sl lastNgrab curNgrab intervalUs now).2 = curNgrab) := by
  unfold updateSpeedLimit
  dsimp only
  split
  · exact .inl rfl
  · exact .inr ⟨(saneRange_mem hb _).1, (saneRange_mem hb _).2, rfl, rfl⟩

/-- What `update_speed_limit` makes of a speed limit depends on the two
counts only through their difference as a `size_t`. -/
theorem updateSpeedLimit_fst_congr {base : Nat} {expected : Int} {sl : CollectorSpeedLimit}
    {last cur last' cur' : Nat} {intervalUs now : Int}
    (h : sizeT ((cur : Int) - last) = sizeT ((cur' : Int) - last')) :
    (updateSpeedLimit base expected sl last cur intervalUs now).1 =
      (updateSpeedLimit base expected sl last' cur' intervalUs now).1 := by
  unfold updateSpeedLimit
  dsimp only
  rw [h]
  split <;> rfl

/-- A round whose count is 0 as a `size_t` changes nothing. -/
theorem updateSpeedLimit_of_sizeT_eq_zero {base : Nat} {expected : Int} {sl : CollectorSpeedLimit}
    {last cur : Nat} {intervalUs now : Int} (h : sizeT ((cur : Int) - last) = 0) :
    updateSpeedLimit base expected sl last cur intervalUs now = (sl, last) := by
  unfold updateSpeedLimit
  dsimp only
  rw [if_pos h]

/-- `is_collectable_before_first_time_grabbed` leaves the sampling range
and `ever_grabbed` as they were. -/
theorem isCollectableBeforeFirstTimeGrabbed_keeps (expected : Int) (sl : CollectorSpeedLimit) (now : Int) :
    (isCollectableBeforeFirstTimeGrabbed expected sl now).2.1.samplingRange = sl.samplingRange ∧
      (isCollectableBeforeFirstTimeGrabbed expected sl now).2.1.everGrabbed = sl.everGrabbed := by
  unfold isCollectableBeforeFirstTimeGrabbed
  dsimp only
  split_ifs <;> exact ⟨rfl, rfl⟩

/-- For a round shorter than a second, and ranges small enough that the
products fit in `size_t`, the smoothed range lies between the old range
and the one computed. -/
theorem smoothRange_between {newRange oldRange : Nat} {intervalUs : Int} (h0 : 0 ≤ intervalUs)
    (h1 : intervalUs ≤ 1000000) (hn : newRange < 2 ^ 44) (ho : oldRange < 2 ^ 44) :
    min newRange oldRange ≤ smoothRange newRange oldRange intervalUs ∧
      smoothRange newRange oldRange intervalUs ≤ max newRange oldRange := by
  unfold smoothRange sizeT
  have hi : (0 : Int) ≤ 1000000 - intervalUs := by omega
  have hlo : 0 ≤ (newRange : Int) * intervalUs + oldRange * (1000000 - intervalUs) :=
    add_nonneg (mul_nonneg (Int.ofNat_nonneg _) h0) (mul_nonneg (Int.ofNat_nonneg _) hi)
  have hmin : (min newRange oldRange : Int) * 1000000 ≤ newRange * intervalUs + oldRange * (1000000 - intervalUs) := by
    have := mul_le_mul_of_nonneg_right (min_le_left (newRange : Int) oldRange) h0
    have := mul_le_mul_of_nonneg_right (min_le_right (newRange : Int) oldRange) hi
    linarith
  have hmax : (newRange : Int) * intervalUs + oldRange * (1000000 - intervalUs) ≤ (max newRange oldRange : Int) * 1000000 := by
    have := mul_le_mul_of_nonneg_right (le_max_left (newRange : Int) oldRange) h0
    have := mul_le_mul_of_nonneg_right (le_max_right (newRange : Int) oldRange) hi
    linarith
  have hlt : (max newRange oldRange : Int) < 2 ^ 44 := max_lt (by exact_mod_cast hn) (by exact_mod_cast ho)
  rw [Int.emod_eq_of_lt hlo (by omega)]
  constructor
  · rw [Nat.le_div_iff_mul_le (by norm_num)]
    have : ((min newRange oldRange : Nat) : Int) = min (newRange : Int) oldRange := by push_cast; rfl
    omega
  · rw [Nat.div_le_iff_le_mul_add_pred (by norm_num)]
    have : ((max newRange oldRange : Nat) : Int) = max (newRange : Int) oldRange := by push_cast; rfl
    omega

/-! ## 5. The speed limits over a run -/

namespace GrabLimits

variable {g : GrabLimits} {base : Nat}

/-- A speed limit `update_speed_limit` has set has its sampling range in
`[1, COLLECTOR_SAMPLING_BASE]`. -/
def Sane (base : Nat) (g : GrabLimits) : Prop :=
  ∀ k, (g.speedLimits k).everGrabbed = true →
    1 ≤ (g.speedLimits k).samplingRange ∧ (g.speedLimits k).samplingRange ≤ base

theorem Sane.count (h : g.Sane base) (k : Option Nat) : (g.count k).Sane base := h

theorem Sane.update (hb : 0 < base) (h : g.Sane base) (expected now : Int) :
    (g.update base expected now).Sane base := by
  intro k
  simp only [GrabLimits.update]
  split
  · rcases updateSpeedLimit_sane hb expected (g.speedLimits k) (g.lastNgrabMap k) (g.ngrabMap k)
      (now - g.lastBeforeUpdateSl) now with h' | ⟨h1, h2, -⟩
    · rw [h']; exact h k
    · exact fun _ => ⟨h1, h2⟩
  · exact h k

theorem Sane.collectable (h : g.Sane base) (expected : Int) (k : Option Nat) (now : Int) :
    (g.collectable expected k now).Sane base := by
  intro k'
  simp only [GrabLimits.collectable]
  by_cases hk : k' = k
  · subst hk
    obtain ⟨hr, he⟩ := isCollectableBeforeFirstTimeGrabbed_keeps expected (g.speedLimits k') now
    rw [Function.update_same, hr, he]
    exact h k'
  · rw [Function.update_noteq hk]
    exact h k'

/-- `ngrab_map` holds, beyond `last_ngrab_map`, the `n k` samples of each
speed limit `k` counted since the last update, as `size_t`s; and nothing
for a speed limit it has no key for. -/
structure Counts (g : GrabLimits) (n : Option Nat → Nat) : Prop where
  counts : ∀ k, g.ngrabMap k % 2 ^ 64 = (g.lastNgrabMap k + n k) % 2 ^ 64
  fresh : ∀ k, k ∉ g.keys → g.ngrabMap k = 0 ∧ g.lastNgrabMap k = 0

theorem counts_init (now : Int) (sls : Option Nat → CollectorSpeedLimit) : (init now sls).Counts fun _ => 0 :=
  ⟨fun _ => rfl, fun _ _ => ⟨rfl, rfl⟩⟩

variable {n : Option Nat → Nat}

theorem Counts.count (h : g.Counts n) (k : Option Nat) :
    (g.count k).Counts (Function.update n k (n k + 1)) := by
  constructor
  · intro k'
    simp only [GrabLimits.count]
    by_cases hk : k' = k
    · subst hk
      simp only [Function.update_same]
      have := h.counts k'
      omega
    · simp only [Function.update_noteq hk]
      exact h.counts k'
  · intro k' hk'
    simp only [GrabLimits.count] at hk' ⊢
    have hne : k' ≠ k := fun he => hk' (by split_ifs with hm <;> simp_all)
    have hm : k' ∉ g.keys := fun hm => hk' (by split_ifs <;> simp [hm])
    rw [Function.update_noteq hne]
    exact h.fresh k' hm

/-- At an update each speed limit is updated as if its count had started
at 0 with this round: the round's own samples, and no others. -/
theorem Counts.update_speedLimits (h : g.Counts n) (expected now : Int) (k : Option Nat) :
    (g.update base expected now).speedLimits k =
      (updateSpeedLimit base expected (g.speedLimits k) 0 (n k) (now - g.lastBeforeUpdateSl) now).1 := by
  simp only [GrabLimits.update]
  have hc := h.counts k
  split
  · exact updateSpeedLimit_fst_congr (by unfold sizeT; omega)
  · next hk =>
    obtain ⟨h0, h1⟩ := h.fresh k hk
    rw [h0, h1] at hc
    rw [updateSpeedLimit_of_sizeT_eq_zero (by unfold sizeT; omega)]

/-- After an update, `last_ngrab_map` has caught up with `ngrab_map`. -/
theorem Counts.update (h : g.Counts n) (expected now : Int) :
    (g.update base expected now).Counts fun _ => 0 := by
  refine ⟨fun k => ?_, fun k (hk : k ∉ g.keys) => ⟨(h.fresh k hk).1, ?_⟩⟩
  swap
  · simp only [GrabLimits.update, if_neg hk]
    exact (h.fresh k hk).2
  simp only [GrabLimits.update, Nat.add_zero]
  split
  · have hc := h.counts k
    unfold updateSpeedLimit
    dsimp only
    split
    · next h0 => unfold sizeT at h0; omega
    · rfl
  · next hk => rw [(h.fresh k hk).1, (h.fresh k hk).2]

theorem Counts.collectable (h : g.Counts n) (expected : Int) (k : Option Nat) (now : Int) :
    (g.collectable expected k now).Counts n := ⟨h.counts, h.fresh⟩

end GrabLimits

namespace Collector

variable {e : CollectorEnv α} {c : Collector α}

theorem submit_limits_round (c : Collector α) (s : α) (t : Int) :
    (c.submit s t).limits = c.limits ∧ (c.submit s t).round = c.round := by
  unfold Collector.submit
  split <;> exact ⟨rfl, rfl⟩

theorem dumpStep_limits_round (c : Collector α) : c.dumpStep.limits = c.limits ∧ c.dumpStep.round = c.round := by
  unfold Collector.dumpStep
  split
  · split
    · exact ⟨rfl, rfl⟩
    split <;> exact ⟨rfl, rfl⟩
  · split <;> exact ⟨rfl, rfl⟩
  · exact ⟨rfl, rfl⟩

/-- What a step of `grab_thread` can do to the speed-limit bookkeeping and
the samples of the round: nothing, count one sample, or end the round. -/
theorem grabStep_limits_cases (c : Collector α) (now : Int) :
    ((c.grabStep e now).limits = c.limits ∧ (c.grabStep e now).round = c.round) ∨
      (∃ p, (c.grabStep e now).limits = c.limits.count (e.speedLimit p) ∧
        (c.grabStep e now).round = c.round ++ [p]) ∨
      ((c.grabStep e now).limits = c.limits.update e.samplingBase e.expectedPerSecond now ∧
        (c.grabStep e now).round = []) := by
  unfold Collector.grabStep
  split
  · split
    · exact .inl ⟨rfl, rfl⟩
    split
    · exact .inr (.inr ⟨rfl, rfl⟩)
    · exact .inl ⟨rfl, rfl⟩
  · split <;> exact .inr (.inl ⟨_, rfl, rfl⟩)
  · exact .inr (.inr ⟨rfl, rfl⟩)
  · exact .inl ⟨rfl, rfl⟩

/-- What a step can do to the speed-limit bookkeeping and the samples of
the round: nothing, count one sample, end the round, or let a sampling
thread touch one speed limit. -/
theorem step_limits_cases (c : Collector α) (st : CollectorStep α) :
    ((c.step e st).limits = c.limits ∧ (c.step e st).round = c.round) ∨
      (∃ p, (c.step e st).limits = c.limits.count (e.speedLimit p) ∧ (c.step e st).round = c.round ++ [p]) ∨
      (∃ now, (c.step e st).limits = c.limits.update e.samplingBase e.expectedPerSecond now ∧
        (c.step e st).round = []) ∨
      (∃ k now, (c.step e st).limits = c.limits.collectable e.expectedPerSecond k now ∧
        (c.step e st).round = c.round) := by
  cases st with
  | submit s t => exact .inl (submit_limits_round c s t)
  | grab now =>
    rcases grabStep_limits_cases (e := e) c now with h | h | h
    exacts [.inl h, .inr (.inl h), .inr (.inr (.inl ⟨now, h⟩))]
  | dump => exact .inl (dumpStep_limits_round c)
  | destroy => exact .inl ⟨rfl, rfl⟩
  | collectable k now => exact .inr (.inr (.inr ⟨k, now, rfl, rfl⟩))

/-- The samples of speed limit `k` counted this round. -/
def roundCount (e : CollectorEnv α) (c : Collector α) (k : Option Nat) : Nat := c.round.countP (e.speedLimit · = k)

theorem sane_step (hb : 0 < e.samplingBase) (h : c.limits.Sane e.samplingBase) (st : CollectorStep α) :
    (c.step e st).limits.Sane e.samplingBase := by
  rcases step_limits_cases (e := e) c st with ⟨hl, -⟩ | ⟨p, hl, -⟩ | ⟨now, hl, -⟩ | ⟨k, now, hl, -⟩ <;> rw [hl]
  · exact h
  · exact h.count _
  · exact h.update hb _ _
  · exact h.collectable _ _ _

theorem roundCount_congr {c' : Collector α} (h : c'.round = c.round) : roundCount e c' = roundCount e c := by
  funext k
  simp only [roundCount, h]

theorem roundCount_nil {c' : Collector α} (h : c'.round = []) : roundCount e c' = fun _ => 0 := by
  funext k
  simp [roundCount, h]

theorem roundCount_snoc {c' : Collector α} {p : α} (h : c'.round = c.round ++ [p]) :
    roundCount e c' = Function.update (roundCount e c) (e.speedLimit p) (roundCount e c (e.speedLimit p) + 1) := by
  funext k
  by_cases hk : k = e.speedLimit p
  · subst hk
    simp [roundCount, h]
  · simp [roundCount, h, Function.update_noteq hk, Ne.symm hk]

theorem counts_step (h : c.limits.Counts (roundCount e c)) (st : CollectorStep α) :
    (c.step e st).limits.Counts (roundCount e (c.step e st)) := by
  rcases step_limits_cases (e := e) c st with ⟨hl, hr⟩ | ⟨p, hl, hr⟩ | ⟨now, hl, hr⟩ | ⟨k, now, hl, hr⟩ <;>
    rw [hl]
  · rw [roundCount_congr hr]; exact h
  · rw [roundCount_snoc hr]; exact h.count _
  · rw [roundCount_nil hr]; exact h.update _ _
  · rw [roundCount_congr hr]; exact h.collectable _ _ _

theorem sane_of_run (hb : 0 < e.samplingBase) (h : c.limits.Sane e.samplingBase) (sched : List (CollectorStep α)) :
    (c.run e sched).limits.Sane e.samplingBase := by
  induction sched generalizing c with
  | nil => exact h
  | cons st sched ih => exact ih (sane_step hb h st)

theorem counts_of_run (h : c.limits.Counts (roundCount e c)) (sched : List (CollectorStep α)) :
    (c.run e sched).limits.Counts (roundCount e (c.run e sched)) := by
  induction sched generalizing c with
  | nil => exact h
  | cons st sched ih => exact ih (counts_step h st)

/-- Over every interleaving, from speed limits that are sane to begin
with (a speed limit no update has set is), every speed limit the grab
thread has updated keeps its sampling range in
`[1, COLLECTOR_SAMPLING_BASE]`, whatever the sampling threads do. -/
theorem sane_run (hb : 0 < e.samplingBase) (now : Int) {sls : Option Nat → CollectorSpeedLimit}
    (hs : (GrabLimits.init now sls).Sane e.samplingBase) (sched : List (CollectorStep α)) :
    ((init now sls).run e sched).limits.Sane e.samplingBase :=
  sane_of_run (c := init now sls) hb hs sched

/-- Over every interleaving, each round of `grab_thread` that ends updates
each speed limit as `update_speed_limit` would from a count of 0 and the
samples of that speed limit counted in the round, dropped ones included:
the running counts of `ngrab_map` and `last_ngrab_map` never hand a round
another round's samples. -/
theorem grabStep_updates_by_round (now : Int) (sls : Option Nat → CollectorSpeedLimit)
    (sched : List (CollectorStep α)) (t : Int) (k : Option Nat)
    (hend : ((init now sls).run e sched).grab = .collect [] ∨
      (((init now sls).run e sched).grab = .loop ∧ ((init now sls).run e sched).stop = false ∧
        ((init now sls).run e sched).reduced = [])) :
    (((init now sls).run e sched).grabStep e t).limits.speedLimits k =
      (updateSpeedLimit e.samplingBase e.expectedPerSecond (((init now sls).run e sched).limits.speedLimits k) 0
        (roundCount e ((init now sls).run e sched) k) (t - ((init now sls).run e sched).limits.lastBeforeUpdateSl)
        t).1 := by
  have h := counts_of_run (e := e) (c := init now sls) (GrabLimits.counts_init now sls) sched
  have hl : (((init now sls).run e sched).grabStep e t).limits =
      ((init now sls).run e sched).limits.update e.samplingBase e.expectedPerSecond t := by
    unfold Collector.grabStep
    rcases hend with hg | ⟨hg, hs, hr⟩
    · rw [hg]; rfl
    · simp [hg, hs, hr, endRound]
  rw [hl, h.update_speedLimits]

end Collector

/-- Two submits and a round of the grab thread that counts both. -/
def oneRound : List (CollectorStep Nat) := [.submit 1 0, .submit 2 0, .grab 10, .grab 20, .grab 30]

theorem grabStep_updates_by_round_oneRound :
    (((Collector.init 0 freshLimits).run revEnv oneRound).grab = .collect [] ∨
      (((Collector.init 0 freshLimits).run revEnv oneRound).grab = .loop ∧
        ((Collector.init 0 freshLimits).run revEnv oneRound).stop = false ∧
        ((Collector.init 0 freshLimits).run revEnv oneRound).reduced = [])) ∧
    (((Collector.init 0 freshLimits).run revEnv oneRound).grabStep revEnv 40).limits.speedLimits (some 1) =
      (updateSpeedLimit revEnv.samplingBase revEnv.expectedPerSecond
        (((Collector.init 0 freshLimits).run revEnv oneRound).limits.speedLimits (some 1)) 0
        (Collector.roundCount revEnv ((Collector.init 0 freshLimits).run revEnv oneRound) (some 1))
        (40 - ((Collector.init 0 freshLimits).run revEnv oneRound).limits.lastBeforeUpdateSl) 40).1 :=
  have hend : ((Collector.init 0 freshLimits).run revEnv oneRound).grab = .collect [] ∨
      (((Collector.init 0 freshLimits).run revEnv oneRound).grab = .loop ∧
        ((Collector.init 0 freshLimits).run revEnv oneRound).stop = false ∧
        ((Collector.init 0 freshLimits).run revEnv oneRound).reduced = []) :=
    .inl (by simp [oneRound, Collector.run, Collector.step, Collector.submit, Collector.grabStep, Collector.init,
      prepare, prepKeys, List.mergeSort, COLLECTOR_GRAB_INTERVAL_US, revEnv])
  ⟨hend, Collector.grabStep_updates_by_round 0 freshLimits oneRound 40 (some 1) hend⟩

end Melon.Metrics
