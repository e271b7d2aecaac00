/-
Melon.Raft.MemoryLogTheorems — when the deque of `MemoryLogStorage` holds
exactly the entries `first_log_index .. last_log_index`.

## How the proof goes

`Aligned` says that the deque's indices are `first, first + 1, ..., last`
(`idsFrom`). On such a deque the `dropWhile` of `truncate_prefix` is a
`drop` and the `reverse`/`dropWhile`/`reverse` of `truncate_suffix` is a
`take`, for every argument (`dropWhile_index_lt`, `popBack_index_gt`).
From there each call is a line of arithmetic on the bounds: every call
keeps the deque aligned except `truncate_prefix` below `first_log_index`
and `truncate_suffix` above `last_log_index`, which move a bound and pop
nothing, and the `append_entry` of `INT64_MIN` right after `INT64_MAX`,
which the wrapped `_last_log_index + 1` accepts (`aligned_step_iff`). The
last one is told apart by the excess of the deque over the span of the
bounds: no `append_entry` lowers it and the wrapping one raises it by
2^64. The first is reached from `init()` in two calls, after which
`get_entry` fails its `CHECK`.
-/
import Melon.Raft.MemoryLog
import Melon.Raft.LogIndex

namespace Melon.Raft

/-! ## 1. `int64_t` sums -/

theorem toInt64_range (v : Int) : INT64_MIN ≤ toInt64 v ∧ toInt64 v ≤ INT64_MAX := by
  unfold toInt64 INT64_MIN INT64_MAX
  omega

theorem toInt64_le_self {v : Int} (h : INT64_MIN ≤ v) : toInt64 v ≤ v := by
  unfold toInt64 INT64_MIN at *
  omega

/-- Below `INT64_MAX`, `_last_log_index + 1` is the plain sum ... -/
theorem toInt64_succ {v : Int} (h : INT64_MIN ≤ v) (h' : v < INT64_MAX) : toInt64 (v + 1) = v + 1 := by
  unfold toInt64 INT64_MIN INT64_MAX at *
  omega

/-- ... and at `INT64_MAX` it wraps to `INT64_MIN`. -/
theorem toInt64_max_succ : toInt64 (INT64_MAX + 1) = INT64_MIN := by decide

/-! ## 2. The pops of the two truncations -/

/-- The indices of the entries of a deque. -/
def indices (l : List LogEntry) : List Int := l.map (·.id.index)

@[simp] theorem indices_append (l₁ l₂ : List LogEntry) :
    indices (l₁ ++ l₂) = indices l₁ ++ indices l₂ := List.map_append ..

/-- `truncate_prefix`'s pops from a deque of consecutive indices from `a`
remove the first `k - a` entries. -/
theorem dropWhile_index_lt (k : Int) : ∀ {l : List LogEntry} {a : Int},
    indices l = idsFrom a l.length →
    l.dropWhile (fun e => decide (e.id.index < k)) = l.drop (k - a).toNat
  | [], _, _ => by simp
  | e :: l, a, h => by
    simp only [indices, List.map_cons, List.length_cons, idsFrom, List.cons.injEq] at h
    by_cases hk : a < k
    · rw [List.dropWhile_cons_of_pos (by simpa [h.1] using hk), dropWhile_index_lt k h.2,
        show (k - a).toNat = (k - (a + 1)).toNat + 1 by omega, List.drop_succ_cons]
    · rw [List.dropWhile_cons_of_neg (by simpa [h.1] using hk),
        show (k - a).toNat = 0 by omega, List.drop_zero]

/-- `truncate_suffix`'s pops from a deque of consecutive indices from `a`
keep the first `k + 1 - a` entries. -/
theorem popBack_index_gt (k : Int) (l : List LogEntry) : ∀ {a : Int},
    indices l = idsFrom a l.length →
    (l.reverse.dropWhile fun e => decide (e.id.index > k)).reverse = l.take (k + 1 - a).toNat := by
  induction l using List.reverseRecOn with
  | nil => simp
  | append_singleton l e ih =>
    intro a h
    rw [List.length_append, List.length_singleton, idsFrom_succ, indices_append] at h
    obtain ⟨hl, he⟩ := List.append_inj h (by simp [indices])
    simp only [indices, List.map_cons, List.map_nil, List.cons.injEq, and_true] at he
    rw [List.reverse_append, List.reverse_singleton, List.singleton_append]
    by_cases hk : e.id.index > k
    · rw [List.dropWhile_cons_of_pos (by simpa using hk), ih hl,
        List.take_append_of_le_length (by omega)]
    · rw [List.dropWhile_cons_of_neg (by simpa using hk), List.reverse_cons, List.reverse_reverse,
        List.take_of_length_le (by simp; omega)]

/-! ## 3. The invariant -/

/-- The deque holds the entries with indices `first_log_index`, ...,
`last_log_index`, in order. -/
structure Aligned (s : MemoryLogStorage) : Prop where
  bounds : s.firstLogIndex ≤ s.lastLogIndex + 1
  length_eq : (s.logEntryData.length : Int) = s.lastLogIndex + 1 - s.firstLogIndex
  indices_eq : indices s.logEntryData = idsFrom s.firstLogIndex s.logEntryData.length

theorem aligned_init : Aligned MemoryLogStorage.init := ⟨by decide, by decide, rfl⟩

/-- How many more entries the deque holds than the bounds span. -/
def excess (s : MemoryLogStorage) : Int := s.logEntryData.length - (s.lastLogIndex + 1 - s.firstLogIndex)

theorem Aligned.excess_eq {s : MemoryLogStorage} (h : Aligned s) : excess s = 0 := by
  have := h.length_eq
  unfold excess
  omega

/-- The bounds are `int64_t` values. -/
structure MemoryLogStorage.InInt64 (s : MemoryLogStorage) : Prop where
  first : INT64_MIN ≤ s.firstLogIndex ∧ s.firstLogIndex ≤ INT64_MAX
  last : INT64_MIN ≤ s.lastLogIndex ∧ s.lastLogIndex ≤ INT64_MAX

instance MemoryLogStorage.decInInt64 (s : MemoryLogStorage) : Decidable s.InInt64 :=
  decidable_of_iff (_ ∧ _) ⟨fun ⟨a, b⟩ => ⟨a, b⟩, fun ⟨a, b⟩ => ⟨a, b⟩⟩

theorem inInt64_init : MemoryLogStorage.init.InInt64 := by decide

/-- Under the invariant, `get_entry(i)` is the entry with index `i` for
every `i` between the bounds. -/
theorem Aligned.getEntry {s : MemoryLogStorage} (h : Aligned s) {i : Int}
    (h1 : s.firstLogIndex ≤ i) (h2 : i ≤ s.lastLogIndex) :
    ∃ e, s.getEntry i = .found e ∧ e.id.index = i ∧
      s.logEntryData[(i - s.firstLogIndex).toNat]? = some e := by
  have hi : (i - s.firstLogIndex).toNat < s.logEntryData.length := by have := h.length_eq; omega
  have hid := congrArg (·[(i - s.firstLogIndex).toNat]?) h.indices_eq
  simp only [indices, List.getElem?_map, List.getElem?_eq_getElem hi, getElem?_idsFrom, if_pos hi,
    Option.map_some', Option.some.injEq] at hid
  refine ⟨_, ?_, by rw [hid]; omega, List.getElem?_eq_getElem hi⟩
  rw [MemoryLogStorage.getEntry, if_neg (by omega), List.getElem?_eq_getElem hi]
  simp only [hid, show s.firstLogIndex + ((i - s.firstLogIndex).toNat : Int) = i by omega, if_true]

/-- Outside the bounds `get_entry` returns `NULL`, whatever the deque holds. -/
theorem getEntry_out {s : MemoryLogStorage} {i : Int}
    (h : i < s.firstLogIndex ∨ i > s.lastLogIndex) : s.getEntry i = .null := by
  rw [MemoryLogStorage.getEntry, if_pos h]

/-! ## 4. One call -/

section calls

variable {s : MemoryLogStorage} {e : LogEntry}

/-- The `append_entry` whose `_last_log_index + 1` wraps: index
`INT64_MIN` right after `INT64_MAX`. -/
def Wraps (s : MemoryLogStorage) (e : LogEntry) : Prop :=
  s.lastLogIndex = INT64_MAX ∧ e.id.index = INT64_MIN

instance decWraps (s : MemoryLogStorage) (e : LogEntry) : Decidable (Wraps s e) :=
  inferInstanceAs (Decidable (_ ∧ _))

/-- Every other accepted `append_entry` adds 1 to `_last_log_index`. -/
theorem toInt64_succ_of_not_wraps (hs : s.InInt64) (hw : ¬Wraps s e)
    (he : e.id.index = toInt64 (s.lastLogIndex + 1)) : toInt64 (s.lastLogIndex + 1) = s.lastLogIndex + 1 := by
  by_cases hm : s.lastLogIndex = INT64_MAX
  · exact absurd ⟨hm, by rw [he, hm, toInt64_max_succ]⟩ hw
  · exact toInt64_succ hs.last.1 (by have := hs.last.2; omega)

theorem Aligned.appendEntry (h : Aligned s) (hs : s.InInt64) (hw : ¬Wraps s e) :
    Aligned (s.appendEntry e).2 := by
  rw [MemoryLogStorage.appendEntry]
  split_ifs with he
  · exact h
  · rw [not_not] at he
    have hn := toInt64_succ_of_not_wraps hs hw he
    rw [hn] at he ⊢
    have hl := h.length_eq
    have hb := h.bounds
    refine ⟨by dsimp only; omega, by simp only [List.length_append, List.length_singleton]; omega, ?_⟩
    simp only [List.length_append, List.length_singleton, indices_append, h.indices_eq,
      idsFrom_succ, List.append_cancel_left_eq]
    simp only [indices, List.map_cons, List.map_nil, List.cons.injEq, and_true]
    omega

theorem MemoryLogStorage.InInt64.appendEntry (hs : s.InInt64) (e : LogEntry) :
    (s.appendEntry e).2.InInt64 := by
  rw [MemoryLogStorage.appendEntry]
  split_ifs
  · exact hs
  · exact ⟨hs.first, toInt64_range _⟩

theorem int64Min_le_appendEntry (hs : INT64_MIN ≤ s.lastLogIndex) (e : LogEntry) :
    INT64_MIN ≤ (s.appendEntry e).2.lastLogIndex := by
  rw [MemoryLogStorage.appendEntry]
  split_ifs
  · exact hs
  · exact (toInt64_range _).1

/-- No `append_entry` lowers the excess ... -/
theorem excess_appendEntry (hs : INT64_MIN ≤ s.lastLogIndex) (e : LogEntry) :
    excess s ≤ excess (s.appendEntry e).2 := by
  rw [MemoryLogStorage.appendEntry]
  split_ifs
  · exact Int.le_refl _
  · have := toInt64_le_self (v := s.lastLogIndex + 1) (by omega)
    simp only [excess, List.length_append, List.length_singleton]
    omega

/-- ... and the wrapping one raises it by 2^64. -/
theorem excess_appendEntry_wraps (hw : Wraps s e) : excess (s.appendEntry e).2 = excess s + 2 ^ 64 := by
  obtain ⟨hl, he⟩ := hw
  rw [MemoryLogStorage.appendEntry, hl, toInt64_max_succ, if_neg (not_not.2 he)]
  simp only [excess, List.length_append, List.length_singleton, hl, INT64_MIN, INT64_MAX]
  omega

/-- The wrapping `append_entry` is accepted and leaves the deque 2^64
entries longer than the bounds span. -/
theorem Aligned.appendEntry_wraps (h : Aligned s) (hw : Wraps s e) : ¬Aligned (s.appendEntry e).2 :=
    fun h' => by
  have := excess_appendEntry_wraps hw
  rw [h.excess_eq, h'.excess_eq] at this
  omega

/-- No `append_entry` of a batch is the wrapping one. -/
def AppendsKeep : MemoryLogStorage → List LogEntry → Prop
  | _, [] => True
  | s, e :: es => ¬Wraps s e ∧ AppendsKeep (s.appendEntry e).2 es

instance decAppendsKeep : (s : MemoryLogStorage) → (es : List LogEntry) → Decidable (AppendsKeep s es)
  | _, [] => isTrue trivial
  | s, e :: es =>
    have := decAppendsKeep (s.appendEntry e).2 es
    inferInstanceAs (Decidable (¬Wraps s e ∧ AppendsKeep (s.appendEntry e).2 es))

theorem Aligned.foldl_appendEntry {t : MemoryLogStorage} (h : Aligned t) (ht : t.InInt64) :
    ∀ {es : List LogEntry}, AppendsKeep t es → Aligned (es.foldl (fun s e => (s.appendEntry e).2) t)
  | [], _ => h
  | e :: _, ⟨hw, hk⟩ => (h.appendEntry ht hw).foldl_appendEntry (ht.appendEntry e) hk

theorem MemoryLogStorage.InInt64.foldl_appendEntry {t : MemoryLogStorage} (ht : t.InInt64) :
    ∀ es : List LogEntry, (es.foldl (fun s e => (s.appendEntry e).2) t).InInt64
  | [] => ht
  | e :: es => (ht.appendEntry e).foldl_appendEntry es

theorem excess_le_foldl {t : MemoryLogStorage} (ht : INT64_MIN ≤ t.lastLogIndex) :
    ∀ es : List LogEntry, excess t ≤ excess (es.foldl (fun s e => (s.appendEntry e).2) t)
  | [] => Int.le_refl _
  | e :: es => Int.le_trans (excess_appendEntry ht e) (excess_le_foldl (int64Min_le_appendEntry ht e) es)

/-- A batch with a wrapping `append_entry` ends at least 2^64 entries over. -/
theorem excess_foldl_of_wraps {t : MemoryLogStorage} (ht : INT64_MIN ≤ t.lastLogIndex) :
    ∀ {es : List LogEntry}, ¬AppendsKeep t es →
      excess t + 2 ^ 64 ≤ excess (es.foldl (fun s e => (s.appendEntry e).2) t)
  | [], hk => absurd trivial hk
  | e :: es, hk => by
    rw [List.foldl_cons]
    have hl := int64Min_le_appendEntry ht e
    by_cases hw : Wraps t e
    · rw [← excess_appendEntry_wraps hw]
      exact excess_le_foldl hl es
    · have h1 := excess_foldl_of_wraps hl fun hk' => hk ⟨hw, hk'⟩
      have h2 := excess_appendEntry ht e
      omega

theorem Aligned.appendEntries (h : Aligned s) (hs : s.InInt64) {es : List LogEntry} (hk : AppendsKeep s es) :
    Aligned (s.appendEntries es).2 := by
  rw [MemoryLogStorage.appendEntries]
  split_ifs
  · exact h
  · exact h.foldl_appendEntry hs hk

theorem Aligned.appendEntries_wraps (h : Aligned s) (hs : INT64_MIN ≤ s.lastLogIndex) {es : List LogEntry}
    (hk : ¬AppendsKeep s es) : ¬Aligned (s.appendEntries es).2 := fun h' => by
  rw [MemoryLogStorage.appendEntries] at h'
  split_ifs at h' with he
  · rw [List.isEmpty_iff.1 he] at hk
    exact hk trivial
  · have := excess_foldl_of_wraps hs hk
    rw [h.excess_eq, h'.excess_eq] at this
    omega

theorem MemoryLogStorage.InInt64.appendEntries (hs : s.InInt64) (es : List LogEntry) :
    (s.appendEntries es).2.InInt64 := by
  rw [MemoryLogStorage.appendEntries]
  split_ifs
  · exact hs
  · exact hs.foldl_appendEntry es

/-- `truncate_prefix` on an aligned deque drops the entries below the
argument, whatever the argument. -/
theorem Aligned.truncatePrefix_eq (h : Aligned s) (k : Int) :
    s.truncatePrefix k = ⟨k, if k > s.lastLogIndex then k - 1 else s.lastLogIndex,
      s.logEntryData.drop (k - s.firstLogIndex).toNat⟩ := by
  rw [MemoryLogStorage.truncatePrefix, dropWhile_index_lt k h.indices_eq]
  split_ifs <;> rfl

/-- `truncate_suffix` on an aligned deque keeps the entries up to the
argument, whatever the argument. -/
theorem Aligned.truncateSuffix_eq (h : Aligned s) (k : Int) :
    s.truncateSuffix k = ⟨if s.firstLogIndex > k then k + 1 else s.firstLogIndex, k,
      s.logEntryData.take (k + 1 - s.firstLogIndex).toNat⟩ := by
  rw [MemoryLogStorage.truncateSuffix, popBack_index_gt k _ h.indices_eq]
  split_ifs <;> rfl

theorem Aligned.truncatePrefix (h : Aligned s) {k : Int} (hk : s.firstLogIndex ≤ k) :
    Aligned (s.truncatePrefix k) := by
  have hl := h.length_eq
  have hb := h.bounds
  rw [h.truncatePrefix_eq]
  refine ⟨by dsimp only; split_ifs <;> omega, by simp only [List.length_drop]; split_ifs <;> omega, ?_⟩
  simp only [indices, List.map_drop, List.length_drop]
  rw [← indices, h.indices_eq, idsFrom_drop]
  congr 1
  omega

theorem Aligned.truncateSuffix (h : Aligned s) {k : Int} (hk : k ≤ s.lastLogIndex) :
    Aligned (s.truncateSuffix k) := by
  have hl := h.length_eq
  have hb := h.bounds
  rw [h.truncateSuffix_eq]
  refine ⟨by dsimp only; split_ifs <;> omega, by simp only [List.length_take]; split_ifs <;> omega, ?_⟩
  simp only [indices, List.map_take, List.length_take]
  rw [← indices, h.indices_eq, idsFrom_take]
  split_ifs
  · rw [show (k + 1 - s.firstLogIndex).toNat = 0 by omega, Nat.zero_min]; rfl
  · rfl

/-- `truncate_prefix` below `_first_log_index` pops nothing and moves the
bound: the deque no longer starts at `_first_log_index`. -/
theorem Aligned.truncatePrefix_below (h : Aligned s) {k : Int} (hk : k < s.firstLogIndex) :
    ¬Aligned (s.truncatePrefix k) := by
  have hl := h.length_eq
  have hb := h.bounds
  rw [h.truncatePrefix_eq]
  intro h'
  have := h'.length_eq
  simp only [List.length_drop] at this
  split_ifs at this <;> omega

/-- `truncate_suffix` above `_last_log_index` pops nothing and moves the
bound: the deque no longer ends at `_last_log_index`. -/
theorem Aligned.truncateSuffix_above (h : Aligned s) {k : Int} (hk : s.lastLogIndex < k) :
    ¬Aligned (s.truncateSuffix k) := by
  have hl := h.length_eq
  have hb := h.bounds
  rw [h.truncateSuffix_eq]
  intro h'
  have := h'.length_eq
  simp only [List.length_take] at this
  split_ifs at this <;> omega

/-- The truncations keep the bounds `int64_t` values for `int64_t`
arguments, aligned or not: `k - 1` is taken only above `_last_log_index`
and `k + 1` only below `_first_log_index`. -/
theorem MemoryLogStorage.InInt64.truncatePrefix (hs : s.InInt64) {k : Int}
    (hk : INT64_MIN ≤ k ∧ k ≤ INT64_MAX) : (s.truncatePrefix k).InInt64 := by
  have := hs.last
  unfold MemoryLogStorage.truncatePrefix
  dsimp only
  split_ifs
  · exact ⟨hk, by dsimp only at *; omega⟩
  · exact ⟨hk, hs.last⟩

theorem MemoryLogStorage.InInt64.truncateSuffix (hs : s.InInt64) {k : Int}
    (hk : INT64_MIN ≤ k ∧ k ≤ INT64_MAX) : (s.truncateSuffix k).InInt64 := by
  have := hs.first
  unfold MemoryLogStorage.truncateSuffix
  dsimp only
  split_ifs
  · exact ⟨by dsimp only at *; omega, hk⟩
  · exact ⟨hs.first, hk⟩

theorem Aligned.reset (h : Aligned s) (n : Int) : Aligned (s.reset n).2 := by
  rw [MemoryLogStorage.reset]
  split_ifs
  · exact h
  · exact ⟨by dsimp only; omega, by dsimp only; simp, rfl⟩

theorem MemoryLogStorage.InInt64.reset (hs : s.InInt64) {n : Int} (hn : n ≤ INT64_MAX) :
    (s.reset n).2.InInt64 := by
  rw [MemoryLogStorage.reset]
  split_ifs
  · exact hs
  · have : INT64_MIN ≤ 0 := by decide
    exact ⟨by dsimp only; omega, by dsimp only; omega⟩

end calls

/-! ## 5. Runs -/

/-- The arguments of a call that the code reads as `int64_t`. -/
def Op.InInt64 : Op → Prop
  | .truncatePrefix k | .truncateSuffix k | .reset k => INT64_MIN ≤ k ∧ k ≤ INT64_MAX
  | _ => True

instance Op.decInInt64 : (op : Op) → Decidable op.InInt64
  | .truncatePrefix k | .truncateSuffix k | .reset k =>
    inferInstanceAs (Decidable (INT64_MIN ≤ k ∧ k ≤ INT64_MAX))
  | .appendEntry _ | .appendEntries _ => isTrue trivial

theorem MemoryLogStorage.InInt64.step {s : MemoryLogStorage} (hs : s.InInt64) :
    ∀ {op : Op}, op.InInt64 → (step s op).InInt64
  | .appendEntry e, _ => hs.appendEntry e
  | .appendEntries es, _ => hs.appendEntries es
  | .truncatePrefix _, hk => hs.truncatePrefix hk
  | .truncateSuffix _, hk => hs.truncateSuffix hk
  | .reset _, hk => hs.reset hk.2

/-- The calls that keep the deque aligned: `truncate_prefix` not below
`_first_log_index`, `truncate_suffix` not above `_last_log_index`, and no
`append_entry` that wraps. -/
def Op.Keeps (s : MemoryLogStorage) : Op → Prop
  | .appendEntry e => ¬Wraps s e
  | .appendEntries es => AppendsKeep s es
  | .truncatePrefix k => s.firstLogIndex ≤ k
  | .truncateSuffix k => k ≤ s.lastLogIndex
  | .reset _ => True

instance Op.decKeeps (s : MemoryLogStorage) : (op : Op) → Decidable (op.Keeps s)
  | .appendEntry e => inferInstanceAs (Decidable (¬Wraps s e))
  | .appendEntries es => inferInstanceAs (Decidable (AppendsKeep s es))
  | .truncatePrefix k => inferInstanceAs (Decidable (s.firstLogIndex ≤ k))
  | .truncateSuffix k => inferInstanceAs (Decidable (k ≤ s.lastLogIndex))
  | .reset _ => isTrue trivial

/-- A call that keeps its guard keeps the storage aligned. -/
theorem Aligned.step {s : MemoryLogStorage} (h : Aligned s) (hs : s.InInt64) :
    ∀ {op : Op}, op.Keeps s → Aligned (step s op)
  | .appendEntry _, hw => h.appendEntry hs hw
  | .appendEntries _, hk => h.appendEntries hs hk
  | .truncatePrefix _, hk => h.truncatePrefix hk
  | .truncateSuffix _, hk => h.truncateSuffix hk
  | .reset n, _ => h.reset n

/-- Every call of a run has `int64_t` arguments and keeps its guard. -/
def Guarded : MemoryLogStorage → List Op → Prop
  | _, [] => True
  | s, op :: ops => op.InInt64 ∧ op.Keeps s ∧ Guarded (step s op) ops

instance decGuarded : (s : MemoryLogStorage) → (ops : List Op) → Decidable (Guarded s ops)
  | _, [] => isTrue trivial
  | s, op :: ops =>
    have := decGuarded (step s op) ops
    inferInstanceAs (Decidable (op.InInt64 ∧ op.Keeps s ∧ Guarded (step s op) ops))

theorem Aligned.run {s : MemoryLogStorage} (h : Aligned s) (hs : s.InInt64) :
    ∀ {ops : List Op}, Guarded s ops → Aligned (run s ops)
  | [], _ => h
  | _ :: _, ⟨hop, hk, hg⟩ => (h.step hs hk).run (hs.step hop) hg

/-- **Which calls keep the storage aligned.** On an aligned storage whose
bounds are `int64_t` values, a call leaves it aligned exactly when it is
not a `truncate_prefix` below `_first_log_index`, a `truncate_suffix`
above `_last_log_index`, or an `append_entry` (alone or in a batch) of
`INT64_MIN` right after `INT64_MAX`. -/
theorem aligned_step_iff {s : MemoryLogStorage} (h : Aligned s) (hs : s.InInt64) (op : Op) :
    Aligned (step s op) ↔ op.Keeps s := by
  refine ⟨fun h' => ?_, h.step hs⟩
  cases op with
  | appendEntry e => exact fun hw => h.appendEntry_wraps hw h'
  | appendEntries es => exact not_not.1 fun hk => h.appendEntries_wraps hs.last.1 hk h'
  | truncatePrefix k => exact Int.not_lt.mp fun hk => h.truncatePrefix_below hk h'
  | truncateSuffix k => exact Int.not_lt.mp fun hk => h.truncateSuffix_above hk h'
  | reset _ => trivial

/-- The storage after `reset(INT64_MAX)` and the `append_entry` of index
`INT64_MAX`. -/
def atInt64Max : MemoryLogStorage := run .init [.reset INT64_MAX, .appendEntry ⟨⟨INT64_MAX, 1⟩⟩]

/-- There the `append_entry` of index `INT64_MIN` returns 0 and breaks the
alignment. -/
theorem aligned_step_iff_atInt64Max :
    Aligned atInt64Max ∧ atInt64Max.InInt64 ∧ (atInt64Max.appendEntry ⟨⟨INT64_MIN, 1⟩⟩).1 = 0 ∧
      ¬Aligned (step atInt64Max (.appendEntry ⟨⟨INT64_MIN, 1⟩⟩)) :=
  have ha : Aligned atInt64Max := aligned_init.run inInt64_init (by decide)
  have hs : atInt64Max.InInt64 := by decide
  ⟨ha, hs, by decide, fun h' => (aligned_step_iff ha hs _).1 h' (by decide)⟩

/-- **Lookups after a guarded run.** After any run from `init()` whose
calls keep their guards, the deque holds the entries
`_first_log_index .. _last_log_index` in order, `get_entry(i)` and
`get_term(i)` return the entry with index `i` and its term between the
bounds, and `NULL` and 0 outside them. -/
theorem run_getEntry {ops : List Op} (hg : Guarded MemoryLogStorage.init ops) (i : Int) :
    Aligned (run .init ops) ∧
    ((run .init ops).firstLogIndex ≤ i → i ≤ (run .init ops).lastLogIndex →
      ∃ e, (run .init ops).getEntry i = .found e ∧ e.id.index = i ∧
        (run .init ops).getTerm i = .found e.id.term) ∧
    (i < (run .init ops).firstLogIndex ∨ i > (run .init ops).lastLogIndex →
      (run .init ops).getEntry i = .null ∧ (run .init ops).getTerm i = .null) := by
  have h := aligned_init.run inInt64_init hg
  refine ⟨h, fun h1 h2 => ?_, fun ho => ?_⟩
  · obtain ⟨e, he, hi, -⟩ := h.getEntry h1 h2
    exact ⟨e, he, hi, by rw [MemoryLogStorage.getTerm, he]; rfl⟩
  · exact ⟨getEntry_out ho, by rw [MemoryLogStorage.getTerm, getEntry_out ho]; rfl⟩

/-- Two guarded calls: `append_entry` of index 1, then `truncate_suffix(1)`. -/
theorem run_getEntry_appendTruncate :
    Guarded .init [.appendEntry ⟨⟨1, 1⟩⟩, .truncateSuffix 1] ∧
    Aligned (run .init [.appendEntry ⟨⟨1, 1⟩⟩, .truncateSuffix 1]) :=
  ⟨by decide, (run_getEntry (by decide) 1).1⟩

/-- `truncate_prefix(0)` right after the first `append_entry` leaves the
entry of index 1 at the front of a deque whose `_first_log_index` is 0, and
`get_entry(0)` fails its `CHECK`. -/
theorem getEntry_after_truncatePrefix_below :
    (run .init [.appendEntry ⟨⟨1, 1⟩⟩, .truncatePrefix 0]).getEntry 0 = .checkFailed := by
  decide

end Melon.Raft
