/-
Melon.Fiber.ListOfABAFreeIdTheorems — `add` never loses, overwrites or
duplicates a live identifier, and `apply` visits each live identifier once.

## How the proof goes

Everything is proved on the array view of `ListOfABAFreeIdLayout`, where
the cursor walks the array one slot at a time and `insertBlock` inserts
`BLOCK_SIZE` empty slots at the cursor.

* The scan (`scan_spec`) either stores the id in one slot that held
  `ID_INIT` or a dead id, or finds four live ids at four consecutive
  positions and leaves the slots untouched.
* The crowded path is the interesting one. After the insertion the cursor
  stands at the start of `BLOCK_SIZE ≥ 4` empty slots, and the saved
  pointers either point before it or have moved on with their block. The
  six stores of `scatter` are then two moves into empty slots, one swap with
  an empty slot and one store into an empty slot (`count_scatterSlots`), so
  every value keeps its number of occurrences and `id` gains one. Where the
  saved pointers fall relative to the cursor is pure arithmetic on four
  positions (`scatter_positions`); the delicate cases are a single block of
  four or five slots, where a saved pointer can name a slot the insertion
  emptied or the cursor is about to reach.
* `Inv` (no value twice, every value was added, every added live id is
  present) holds initially and after every `add`, and it is what `apply`
  reads.
-/
import Melon.Fiber.ListOfABAFreeIdLayout
import Mathlib.Data.List.Count
import Mathlib.Data.List.Chain

namespace Melon.Fiber

variable {Id : Type}

/-! ## 1. Stores and counts -/

theorem getD_set_self {A : List Id} {i : Nat} (h : i < A.length) (a d : Id) :
    (A.set i a).getD i d = a := by
  simp [List.getD_eq_getElem?_getD, List.getElem?_set, h]

theorem getD_set_ne {A : List Id} {i j : Nat} (hij : i ≠ j) (a d : Id) :
    (A.set i a).getD j d = A.getD j d := by
  simp [List.getD_eq_getElem?_getD, List.getElem?_set, hij]

variable [DecidableEq Id]

/-- One store changes the count of `v` by what it removes and what it adds. -/
theorem count_set_add {A : List Id} {i : Nat} (h : i < A.length) (a v d : Id) :
    (A.set i a).count v + (if A.getD i d = v then 1 else 0) =
      A.count v + (if a = v then 1 else 0) := by
  rw [List.count_set _ _ _ _ h, List.getD_eq_getElem _ _ h]
  simp only [beq_iff_eq]
  by_cases hv : A[i] = v
  · have : 0 < A.count v := List.count_pos_iff.mpr (hv ▸ List.getElem_mem h)
    rw [if_pos hv]
    omega
  · rw [if_neg hv]
    omega

/-- The stores of the crowded path on the array: `p` is the cursor and
`s1`, `s2`, `s3` are where `saved_pos[1]`, `saved_pos[2]`, `saved_pos[3]`
point after the insertion. -/
def scatterSlots (init : Id) (A : List Id) (p s1 s2 s3 : Nat) (id : Id) : List Id :=
  let A1 := A.set p (A.getD s2 init)
  let A2 := A1.set s2 (A1.getD s1 init)
  let A3 := A2.set s1 init
  let A4 := A3.set (p + 2) (A3.getD s3 init)
  let A5 := A4.set s3 init
  A5.set (p + 3) id

/-- The scatter keeps every count and adds one `id`, provided the slots
`[p, p + B)` start empty, the four positions are apart, and `saved_pos[2]`
names one of the two slots the cursor still has to fill only when
`saved_pos[1]` names an empty one. -/
theorem count_scatterSlots {init id v : Id} {A : List Id} {p s1 s2 s3 B : Nat} (hv : v ≠ init)
    (hB : 4 ≤ B) (hlen : p + B ≤ A.length)
    (hfree : ∀ j, p ≤ j → j < p + B → A.getD j init = init)
    (h1 : s1 < A.length) (h2 : s2 < A.length) (h3 : s3 < A.length)
    (hp1 : p ≠ s1) (hp2 : p ≠ s2) (hp3 : p ≠ s3) (h12 : s1 ≠ s2) (h13 : s1 ≠ s3)
    (h23 : s2 ≠ s3) (h2p : p + 2 ≠ s3)
    (hs2 : s2 = p + 2 ∨ s2 = p + 3 → p ≤ s1 ∧ s1 < p + B) :
    (scatterSlots init A p s1 s2 s3 id).count v = A.count v + if id = v then 1 else 0 := by
  simp only [scatterSlots]
  set A1 := A.set p (A.getD s2 init)
  set A2 := A1.set s2 (A1.getD s1 init)
  set A3 := A2.set s1 init
  set A4 := A3.set (p + 2) (A3.getD s3 init)
  set A5 := A4.set s3 init
  have l1 : A1.length = A.length := List.length_set ..
  have l2 : A2.length = A.length := by simp [A2, l1]
  have l3 : A3.length = A.length := by simp [A3, l2]
  have l4 : A4.length = A.length := by simp [A4, l3]
  have l5 : A5.length = A.length := by simp [A5, l4]
  -- the value each store overwrites
  have r1 : A1.getD s2 init = A.getD s2 init := getD_set_ne hp2 _ _
  have r2 : A2.getD s1 init = A1.getD s1 init := getD_set_ne (Ne.symm h12) _ _
  have r1' : A1.getD s1 init = A.getD s1 init := getD_set_ne hp1 _ _
  have r3 : A3.getD s3 init = A.getD s3 init := by
    rw [getD_set_ne h13, getD_set_ne h23, getD_set_ne hp3]
  have r4 : A4.getD s3 init = A3.getD s3 init := getD_set_ne h2p _ _
  have e3 : A3.getD (p + 2) init = init := by
    by_cases h : s1 = p + 2
    · rw [← h]; exact getD_set_self (by omega) _ _
    rw [getD_set_ne h]
    by_cases h' : s2 = p + 2
    · rw [← h', getD_set_self (by omega), r1']
      exact hfree _ (hs2 (.inl h')).1 (hs2 (.inl h')).2
    rw [getD_set_ne h', getD_set_ne (by omega)]
    exact hfree _ (by omega) (by omega)
  have e5 : A5.getD (p + 3) init = init := by
    by_cases h : s3 = p + 3
    · rw [← h]; exact getD_set_self (by omega) _ _
    rw [getD_set_ne h, getD_set_ne (by omega)]
    by_cases h1' : s1 = p + 3
    · rw [← h1']; exact getD_set_self (by omega) _ _
    rw [getD_set_ne h1']
    by_cases h' : s2 = p + 3
    · rw [← h', getD_set_self (by omega), r1']
      exact hfree _ (hs2 (.inr h')).1 (hs2 (.inr h')).2
    rw [getD_set_ne h', getD_set_ne (by omega)]
    exact hfree _ (by omega) (by omega)
  -- the six count equations
  have c1 : A1.count v = A.count v + if A.getD s2 init = v then 1 else 0 := by
    have := count_set_add (A := A) (i := p) (by omega) (A.getD s2 init) v init
    rwa [hfree p le_rfl (by omega), if_neg (Ne.symm hv), Nat.add_zero] at this
  have c2 : A2.count v + (if A.getD s2 init = v then 1 else 0) =
      A1.count v + if A.getD s1 init = v then 1 else 0 := by
    have := count_set_add (A := A1) (i := s2) (by omega) (A1.getD s1 init) v init
    rwa [show A1.set s2 (A1.getD s1 init) = A2 from rfl, r1, r1'] at this
  have c3 : A3.count v + (if A.getD s1 init = v then 1 else 0) = A2.count v := by
    have := count_set_add (A := A2) (i := s1) (by omega) init v init
    rwa [r2, r1', if_neg (Ne.symm hv), Nat.add_zero] at this
  have c4 : A4.count v = A3.count v + if A.getD s3 init = v then 1 else 0 := by
    have := count_set_add (A := A3) (i := p + 2) (by omega) (A3.getD s3 init) v init
    rwa [show A3.set (p + 2) (A3.getD s3 init) = A4 from rfl, e3, if_neg (Ne.symm hv),
      Nat.add_zero, r3] at this
  have c5 : A5.count v + (if A.getD s3 init = v then 1 else 0) = A4.count v := by
    have := count_set_add (A := A4) (i := s3) (by omega) init v init
    rwa [r4, r3, if_neg (Ne.symm hv), Nat.add_zero] at this
  have c6 := count_set_add (A := A5) (i := p + 3) (by omega) id v init
  rw [e5, if_neg (Ne.symm hv), Nat.add_zero] at c6
  omega

/-! ## 2. Where the saved positions fall

After the scan the cursor is at `p`, and `saved_pos[4 - t]` is `t` steps
behind it along an array of `N` slots (`behind`). The insertion moves a
position past the end `E` of the current block on by `B` (`moved`). -/

/-- `t` steps behind `p` on a ring of `N` slots. -/
def behind (N p t : Nat) : Nat := if t ≤ p then p - t else p + N - t

/-- Where the insertion of `B` slots in front of `E` sends position `q`. -/
def moved (E B q : Nat) : Nat := if q < E then q else q + B

theorem moved_behind_cases {N B E p t : Nat} (hE : p < E) :
    (t ≤ p ∧ moved E B (behind N p t) = p - t) ∨
    (p < t ∧ p + N - t < E ∧ moved E B (behind N p t) = p + N - t) ∨
    (p < t ∧ E ≤ p + N - t ∧ moved E B (behind N p t) = p + N - t + B) := by
  unfold moved behind
  by_cases h : t ≤ p
  · exact .inl ⟨h, by rw [if_pos h, if_pos (by omega)]⟩
  · rw [if_neg h]
    by_cases h' : p + N - t < E
    · exact .inr (.inl ⟨by omega, h', by rw [if_pos h']⟩)
    · exact .inr (.inr ⟨by omega, by omega, by rw [if_neg h']⟩)

theorem moved_behind_lt {N B E p t : Nat} (hE : p < E) (hEN : E ≤ N) (ht : t ≤ 3) :
    moved E B (behind N p t) < N + B := by
  rcases moved_behind_cases (N := N) (B := B) (t := t) hE with ⟨_, h⟩ | ⟨_, _, h⟩ | ⟨_, _, h⟩ <;>
    omega

theorem moved_behind_ne_cursor {N B E p t : Nat} (hE : p < E) (hN : 4 ≤ N) (hB : 4 ≤ B)
    (ht : 1 ≤ t) (ht' : t ≤ 3) : p ≠ moved E B (behind N p t) := by
  rcases moved_behind_cases (N := N) (B := B) (t := t) hE with ⟨_, h⟩ | ⟨_, _, h⟩ | ⟨_, _, h⟩ <;>
    omega

theorem moved_behind_one_ne {N B E p : Nat} (hE : p < E) (hN : 4 ≤ N) (hB : 4 ≤ B) :
    p + 2 ≠ moved E B (behind N p 1) := by
  rcases moved_behind_cases (N := N) (B := B) (t := 1) hE with ⟨_, h⟩ | ⟨_, _, h⟩ | ⟨_, _, h⟩ <;>
    omega

theorem moved_behind_inj {N B E p t t' : Nat} (hE : p < E) (hEN : E ≤ N) (hN : 4 ≤ N)
    (ht : t ≤ 3) (ht' : t' ≤ 3) (hne : t ≠ t') :
    moved E B (behind N p t) ≠ moved E B (behind N p t') := by
  rcases moved_behind_cases (N := N) (B := B) (t := t) hE with ⟨_, h⟩ | ⟨_, _, h⟩ | ⟨_, _, h⟩ <;>
  rcases moved_behind_cases (N := N) (B := B) (t := t') hE with
    ⟨_, h'⟩ | ⟨_, _, h'⟩ | ⟨_, _, h'⟩ <;>
    omega

/-- The single-block case: when `saved_pos[2]` names one of the slots the
cursor will fill, `saved_pos[1]` names a slot the insertion emptied. -/
theorem moved_behind_three_free {N B E p : Nat} (hE : p < E) (hEp : E ≤ p + B) (hN : 4 ≤ N)
    (hB : 4 ≤ B)
    (h : moved E B (behind N p 2) = p + 2 ∨ moved E B (behind N p 2) = p + 3) :
    p ≤ moved E B (behind N p 3) ∧ moved E B (behind N p 3) < p + B := by
  rcases moved_behind_cases (N := N) (B := B) (t := 3) hE with
    ⟨_, h3⟩ | ⟨_, _, h3⟩ | ⟨_, _, h3⟩ <;>
  rcases moved_behind_cases (N := N) (B := B) (t := 2) hE with
    ⟨_, h2⟩ | ⟨_, _, h2⟩ | ⟨_, _, h2⟩ <;>
    omega

/-- Walking `j ≤ n` steps from `x < n`. -/
theorem stepPos_iterate {n x : Nat} (hx : x < n) :
    ∀ {j : Nat}, j ≤ n → (stepPos n)^[j] x = if x + j < n then x + j else x + j - n
  | 0, _ => by simp [hx]
  | j + 1, hj => by
    rw [Function.iterate_succ_apply', stepPos_iterate hx (by omega), stepPos]
    split_ifs <;> omega

/-- Position `j` of the scan is `4 - j` steps behind where the scan ends. -/
theorem iterate_eq_behind {n x j : Nat} (hx : x < n) (hn : 4 ≤ n) (hj : j ≤ 4) :
    (stepPos n)^[j] x = behind n ((stepPos n)^[4] x) (4 - j) := by
  rw [stepPos_iterate hx (by omega), stepPos_iterate hx hn, behind]
  split_ifs <;> omega

/-! ## 3. The scan -/

variable (T : IdTraits Id)

/-- The positions the scan visits from `s`: the cursor and `k - 1` more. -/
def cursors : Nat → ListOfABAFreeId Id → List IdPtr
  | 0, _ => []
  | k + 1, s => s.cur :: cursors k (forwardIndex T s)

variable {T}

omit [DecidableEq Id] in
@[simp] theorem forwardIndex_iterate_blocks (s : ListOfABAFreeId Id) (k : Nat) :
    ((forwardIndex T)^[k] s).blocks = s.blocks := by
  induction k generalizing s with
  | zero => rfl
  | succ k ih => rw [Function.iterate_succ_apply, ih, forwardIndex_blocks]

omit [DecidableEq Id] in
@[simp] theorem forwardIndex_iterate_nblock (s : ListOfABAFreeId Id) (k : Nat) :
    ((forwardIndex T)^[k] s).nblock = s.nblock := by
  induction k generalizing s with
  | zero => rfl
  | succ k ih => rw [Function.iterate_succ_apply, ih, forwardIndex_nblock]

omit [DecidableEq Id] in
theorem Abs.forwardIndex_iterate {s : ListOfABAFreeId Id} {A : List Id} {c N : Nat}
    {bs : List (IdBlock Id)} (h : Abs T s A c N bs) (k : Nat) :
    Abs T ((Melon.Fiber.forwardIndex T)^[k] s) A ((stepPos N)^[k] c) N bs := by
  induction k with
  | zero => exact h
  | succ k ih =>
    rw [Function.iterate_succ_apply', Function.iterate_succ_apply']
    exact ih.forwardIndex

/-- The scan stores `id` in one free slot, or visits `k` live ids and
stores nothing. -/
theorem scan_spec (ex : Id → Bool) (id : Id) : ∀ (k : Nat) (s : ListOfABAFreeId Id)
    (saved : List IdPtr), WF T s →
    (∃ ptr s', scan T ex id k s saved = .stored s' ∧ Valid T s.blocks ptr ∧
      (readPtr T s.blocks ptr = T.ID_INIT ∨ ex (readPtr T s.blocks ptr) = false) ∧
      s'.blocks = writePtr s.blocks ptr id ∧ s'.nblock = s.nblock ∧ WF T s') ∨
    (scan T ex id k s saved = .crowded ((forwardIndex T)^[k] s) (saved ++ cursors T k s) ∧
      ∀ c ∈ cursors T k s, readPtr T s.blocks c ≠ T.ID_INIT ∧ ex (readPtr T s.blocks c) = true)
  | 0, s, saved, _ => .inr ⟨by simp [scan, cursors], by simp [cursors]⟩
  | k + 1, s, saved, h => by
    simp only [scan, forwardIndex_blocks]
    split
    · exact .inl ⟨s.cur, _, rfl, ⟨h.cur_mem, h.cur_lt⟩, by simpa using ‹_›, by simp, by simp,
        h.forwardIndex.write _ _⟩
    · rename_i hlive
      rcases scan_spec ex id k (forwardIndex T s) (saved ++ [s.cur]) h.forwardIndex with
        ⟨ptr, s', hs, hv, hfree, hb, hn, hw⟩ | ⟨hs, hall⟩
      · exact .inl ⟨ptr, s', hs, by simpa using hv, by simpa using hfree, by simpa using hb,
          by simpa using hn, hw⟩
      · refine .inr ⟨?_, ?_⟩
        · rw [hs, Function.iterate_succ_apply]
          simp [cursors]
        · simp only [cursors, List.mem_cons, forall_eq_or_imp]
          simp only [not_or, Bool.not_eq_false] at hlive
          exact ⟨hlive, by simpa using hall⟩

/-! ## 4. The crowded path -/

omit [DecidableEq Id] in
theorem cursors_getD (d : IdPtr) : ∀ {k j : Nat} (s : ListOfABAFreeId Id), j < k →
    (cursors T k s).getD j d = ((forwardIndex T)^[j] s).cur
  | _ + 1, 0, _, _ => rfl
  | k + 1, j + 1, s, h => by
    rw [cursors, List.getD_cons_succ, cursors_getD d (forwardIndex T s) (by omega),
      Function.iterate_succ_apply]

omit [DecidableEq Id] in
/-- The stores of `scatter` on the array, from a cursor with three more
slots ahead of it before the array wraps. -/
theorem Abs.scatter {s : ListOfABAFreeId Id} {A : List Id} {p N : Nat} {bs : List (IdBlock Id)}
    (h : Abs T s A p N bs) {sp : Nat → IdPtr} (h1 : Valid T bs (sp 1))
    (h2 : Valid T bs (sp 2)) (h3 : Valid T bs (sp 3)) (hp : p + 3 < N) (id : Id) :
    Abs T (Melon.Fiber.scatter T sp id s)
      (scatterSlots T.ID_INIT A p (flatPos T bs (sp 1)) (flatPos T bs (sp 2))
        (flatPos T bs (sp 3)) id) (stepPos N (p + 3)) N bs := by
  have e : ∀ x, x + 1 < N → stepPos N x = x + 1 := fun x hx => if_neg (by omega)
  have k2 := (((h.write_cur_read h2).write_read h2 h1).write h1 T.ID_INIT).forwardIndex.forwardIndex
  rw [e p (by omega), e (p + 1) (by omega)] at k2
  have k3 := ((k2.write_cur_read h3).write h3 T.ID_INIT).forwardIndex
  rw [e (p + 2) (by omega)] at k3
  exact (k3.write_cur id).forwardIndex

omit [DecidableEq Id] in
/-- A pointer into the chain keeps pointing into it after `insertBlock`,
and its array position is `moved` past the end of `_cur_block`. -/
theorem valid_insertBlock {s : ListOfABAFreeId Id} (h : WF T s) {q : IdPtr}
    (hq : Valid T s.blocks q) :
    Valid T (insertBlock T s).blocks q ∧ flatPos T (insertBlock T s).blocks q =
      moved ((posOf s.blocks s.curBlock + 1) * T.BLOCK_SIZE) T.BLOCK_SIZE
        (flatPos T s.blocks q) :=
  ⟨⟨mem_addrs_insertBlock h hq.1, hq.2⟩, flatPos_insertBlock h hq.1 hq.2⟩

omit [DecidableEq Id] in
/-- The cursor lies in `_cur_block`, which ends at `E`. -/
theorem cursorPos_lt_blockEnd {s : ListOfABAFreeId Id} (h : WF T s) :
    s.cursorPos T < (posOf s.blocks s.curBlock + 1) * T.BLOCK_SIZE ∧
    (posOf s.blocks s.curBlock + 1) * T.BLOCK_SIZE ≤ s.size T ∧
    (posOf s.blocks s.curBlock + 1) * T.BLOCK_SIZE ≤ s.cursorPos T + T.BLOCK_SIZE := by
  have hc := h.cur_lt
  have hle := Nat.mul_le_mul_right T.BLOCK_SIZE (posOf_lt h.cur_mem)
  simp only [ListOfABAFreeId.cursorPos, ListOfABAFreeId.size, flatPos, ListOfABAFreeId.cur,
    Nat.add_one_mul] at hle ⊢
  omega

theorem count_insert_init {A : List Id} {init v : Id} (hv : v ≠ init) (B p : Nat) :
    (A.take p ++ List.replicate B init ++ A.drop p).count v = A.count v := by
  have := congrArg (List.count v) (List.take_append_drop p A)
  rw [List.count_append] at this
  simp only [List.count_append, List.count_replicate, beq_iff_eq, if_neg (Ne.symm hv)]
  omega

omit [DecidableEq Id] in
theorem getD_insert_init {A : List Id} {init : Id} {B p j : Nat} (hp : p ≤ A.length)
    (hj : p ≤ j) (hj' : j < p + B) :
    (A.take p ++ List.replicate B init ++ A.drop p).getD j init = init := by
  have ht : (A.take p).length = p := List.length_take_of_le hp
  rw [List.append_assoc, List.getD_append_right _ _ _ _ (by omega),
    List.getD_append _ _ _ _ (by simp; omega), List.getD_eq_getElem?_getD]
  simp

omit [DecidableEq Id] in
theorem WF.four_le_size (hB : 4 ≤ T.BLOCK_SIZE) {s : ListOfABAFreeId Id} (h : WF T s) :
    4 ≤ s.size T := by
  have := Nat.mul_le_mul_right T.BLOCK_SIZE (posOf_lt (head_mem h.head))
  simp only [ListOfABAFreeId.size, Nat.add_one_mul] at this ⊢
  omega

/-- `insertBlock` and `scatter`, from a list whose cursor has the three
pointers `sp 1`, `sp 2`, `sp 3` three, two and one steps behind it: every
count is kept and `id` is stored once more. -/
theorem count_scatter_insertBlock (hB : 4 ≤ T.BLOCK_SIZE) {s : ListOfABAFreeId Id}
    (h : WF T s) {sp : Nat → IdPtr}
    (hsp : ∀ i, 1 ≤ i → i ≤ 3 → Valid T s.blocks (sp i) ∧
      flatPos T s.blocks (sp i) = behind (s.size T) (s.cursorPos T) (4 - i)) (id : Id) :
    WF T (scatter T sp id (insertBlock T s)) ∧ ∀ v, v ≠ T.ID_INIT →
      (slots (scatter T sp id (insertBlock T s)).blocks).count v =
        (slots s.blocks).count v + if id = v then 1 else 0 := by
  have hN := h.four_le_size hB
  have hlen : (slots s.blocks).length = s.size T := slots_length h.uniform
  have hc := h.cursorPos_lt
  obtain ⟨hpE, hEN, hEp⟩ := cursorPos_lt_blockEnd h
  -- the list after `insertBlock`: `BLOCK_SIZE` empty slots at the cursor
  have a5 : Abs T (insertBlock T s)
      ((slots s.blocks).take (s.cursorPos T) ++ List.replicate T.BLOCK_SIZE T.ID_INIT ++
        (slots s.blocks).drop (s.cursorPos T)) (s.cursorPos T) (s.size T + T.BLOCK_SIZE)
      (insertBlock T s).blocks :=
    ⟨h.insertBlock, slots_insertBlock h, cursorPos_insertBlock h, size_insertBlock h, rfl,
      fun _ => rfl⟩
  have hsp5 : ∀ i, 1 ≤ i → i ≤ 3 → Valid T (insertBlock T s).blocks (sp i) ∧
      flatPos T (insertBlock T s).blocks (sp i) =
        moved ((posOf s.blocks s.curBlock + 1) * T.BLOCK_SIZE) T.BLOCK_SIZE
          (behind (s.size T) (s.cursorPos T) (4 - i)) := fun i hi hi' => by
    obtain ⟨hv, hf⟩ := hsp i hi hi'
    rw [← hf]
    exact valid_insertBlock h hv
  obtain ⟨v1, f1⟩ := hsp5 1 le_rfl (by omega)
  obtain ⟨v2, f2⟩ := hsp5 2 (by omega) (by omega)
  obtain ⟨v3, f3⟩ := hsp5 3 (by omega) le_rfl
  have a6 := a5.scatter v1 v2 v3 (by omega) id
  refine ⟨a6.wf, fun v hv => ?_⟩
  have hlen5 : ((slots s.blocks).take (s.cursorPos T) ++
      List.replicate T.BLOCK_SIZE T.ID_INIT ++ (slots s.blocks).drop (s.cursorPos T)).length =
        s.size T + T.BLOCK_SIZE := by
    simp only [List.length_append, List.length_take, List.length_replicate, List.length_drop]
    omega
  rw [a6.slots_eq, f1, f2, f3, count_scatterSlots hv hB (by omega)
      (fun j hj hj' => getD_insert_init (by omega) hj hj')
      (by rw [hlen5]; exact moved_behind_lt hpE hEN (by omega))
      (by rw [hlen5]; exact moved_behind_lt hpE hEN (by omega))
      (by rw [hlen5]; exact moved_behind_lt hpE hEN (by omega))
      (moved_behind_ne_cursor hpE hN hB (by omega) (by omega))
      (moved_behind_ne_cursor hpE hN hB (by omega) (by omega))
      (moved_behind_ne_cursor hpE hN hB (by omega) (by omega))
      (moved_behind_inj hpE hEN hN (by omega) (by omega) (by omega))
      (moved_behind_inj hpE hEN hN (by omega) (by omega) (by omega))
      (moved_behind_inj hpE hEN hN (by omega) (by omega) (by omega))
      (moved_behind_one_ne hpE hN hB) (moved_behind_three_free hpE hEp hN hB),
    count_insert_init hv]

omit [DecidableEq Id] in
/-- The pointers the scan saved are one to four steps behind where it ends. -/
theorem cursors_behind (hB : 4 ≤ T.BLOCK_SIZE) {s : ListOfABAFreeId Id} (h : WF T s) (i : Nat)
    (hi : i < 4) :
    Valid T ((forwardIndex T)^[4] s).blocks ((cursors T 4 s).getD i ⟨0, 0⟩) ∧
    flatPos T ((forwardIndex T)^[4] s).blocks ((cursors T 4 s).getD i ⟨0, 0⟩) =
      behind (((forwardIndex T)^[4] s).size T) (((forwardIndex T)^[4] s).cursorPos T) (4 - i) := by
  have a4 := h.abs.forwardIndex_iterate 4
  have ai := h.abs.forwardIndex_iterate i
  rw [cursors_getD _ _ hi, forwardIndex_iterate_blocks, a4.cursor_eq, a4.size_eq,
    ← iterate_eq_behind h.cursorPos_lt (h.four_le_size hB) (by omega)]
  exact ⟨ai.cur_valid, ai.flatPos_cur⟩

/-! ## 5. One call of `add` -/

omit [DecidableEq Id] in
theorem readPtr_mem {s : ListOfABAFreeId Id} (h : WF T s) {p : IdPtr} (hp : Valid T s.blocks p) :
    readPtr T s.blocks p ∈ slots s.blocks := by
  have hlt : flatPos T s.blocks p < (slots s.blocks).length := by
    rw [slots_length h.uniform]; exact flat_lt hp.1 hp.2
  rw [h.abs.readPtr_eq hp, List.getD_eq_getElem _ _ hlt]
  exact List.getElem_mem hlt

/-- What one `add` does to the stored ids. On success one slot that held
`ID_INIT` or an id that no longer exists (`x`) holds `id` instead, as far as
counting goes; the crowded path counts as filling an `ID_INIT` slot. On
failure the return code is `EAGAIN` or `ENOMEM` and the slots are as before. -/
theorem add_spec (hB : 4 ≤ T.BLOCK_SIZE) {s : ListOfABAFreeId Id} (h : WF T s)
    (ex : Id → Bool) (allocOk : Bool) (id : Id) :
    WF T (add T ex allocOk id s).2 ∧
    ((add T ex allocOk id s).1 = 0 → ∃ x, (x = T.ID_INIT ∨ x ∈ slots s.blocks ∧ ex x = false) ∧
      ∀ v, v ≠ T.ID_INIT → (slots (add T ex allocOk id s).2.blocks).count v +
        (if x = v then 1 else 0) = (slots s.blocks).count v + if id = v then 1 else 0) ∧
    ((add T ex allocOk id s).1 ≠ 0 →
      ((add T ex allocOk id s).1 = EAGAIN ∨ (add T ex allocOk id s).1 = ENOMEM) ∧
      slots (add T ex allocOk id s).2.blocks = slots s.blocks) := by
  rcases scan_spec ex id 4 s [] h with ⟨ptr, s', hs, hv, hfree, hb, -, hw⟩ | ⟨hs, -⟩
  · -- the scan found a free slot
    simp only [add, hs]
    refine ⟨hw, fun _ => ⟨readPtr T s.blocks ptr, ?_, fun v _ => ?_⟩, fun h0 => absurd rfl h0⟩
    · exact hfree.imp_right fun e => ⟨readPtr_mem h hv, e⟩
    · have hlt : flatPos T s.blocks ptr < (slots s.blocks).length := by
        rw [slots_length h.uniform]; exact flat_lt hv.1 hv.2
      rw [hb, ← write_blocks, (h.abs.write hv id).slots_eq, h.abs.readPtr_eq hv]
      exact count_set_add hlt id v T.ID_INIT
  · -- the crowded path
    simp only [add, hs, List.nil_append]
    have h4 := (h.abs.forwardIndex_iterate 4).wf
    split_ifs with hfull halloc
    · exact ⟨h4, fun h0 => absurd h0 (by simp [EAGAIN]), fun _ => ⟨.inl rfl, by simp⟩⟩
    · exact ⟨h4, fun h0 => absurd h0 (by simp [ENOMEM]), fun _ => ⟨.inr rfl, by simp⟩⟩
    · obtain ⟨hw, hc⟩ := count_scatter_insertBlock hB h4
        (fun i _ hi => cursors_behind hB h i (by omega)) id
      refine ⟨hw, fun _ => ⟨T.ID_INIT, .inl rfl, fun v hv => ?_⟩, fun h0 => absurd rfl h0⟩
      rw [hc v hv, if_neg (Ne.symm hv), Nat.add_zero, forwardIndex_iterate_blocks]

/-! ## 6. Every run of `add`, and `apply` -/

/-- One call of `add`: the id, what `exists()` answers during the call, and
whether `new (std::nothrow) IdBlock` succeeds. -/
structure AddCall (Id : Type) where
  id : Id
  ex : Id → Bool
  allocOk : Bool

/-- `ex'` holds only where `ex` did: an invalid id stays invalid, as the
`IdTraits` contract asks of `exists()`. -/
def Permanent (ex ex' : Id → Bool) : Prop := ∀ x, ex' x = true → ex x = true

variable (T)

/-- The calls in order, from a list and the ids added so far; an id is
added when its `add` returns 0. -/
def runAdds : ListOfABAFreeId Id × List Id → List (AddCall Id) → ListOfABAFreeId Id × List Id
  | st, [] => st
  | st, c :: cs =>
    let r := add T c.ex c.allocOk c.id st.1
    runAdds (r.2, if r.1 = 0 then st.2 ++ [c.id] else st.2) cs

/-- The stored ids against the ids `added` so far and the current
`exists()`: no id twice, only added ids, and every added id that exists. -/
structure Inv (s : ListOfABAFreeId Id) (added : List Id) (ex : Id → Bool) : Prop where
  wf : WF T s
  count_le : ∀ v, v ≠ T.ID_INIT → (slots s.blocks).count v ≤ 1
  mem_added : ∀ v ∈ slots s.blocks, v ≠ T.ID_INIT → v ∈ added
  mem_slots : ∀ v ∈ added, ex v = true → v ∈ slots s.blocks
  init_not_mem : T.ID_INIT ∉ added

/-- The contract of one call `c` from `s` with result `r`: an id other than
`c.id` that exists is kept, none is duplicated or created, `c.id` is stored
once on success, and a failure is `EAGAIN` or `ENOMEM` and changes no slot. -/
structure AddOk (c : AddCall Id) (s : ListOfABAFreeId Id) (r : Nat × ListOfABAFreeId Id) :
    Prop where
  keep_live : ∀ v, v ≠ T.ID_INIT → v ≠ c.id → c.ex v = true →
    (slots r.2.blocks).count v = (slots s.blocks).count v
  no_new : ∀ v, v ≠ T.ID_INIT → v ≠ c.id → (slots r.2.blocks).count v ≤ (slots s.blocks).count v
  unique : ∀ v, v ≠ T.ID_INIT → (slots r.2.blocks).count v ≤ 1
  stored : r.1 = 0 → (slots r.2.blocks).count c.id = 1
  failed : r.1 ≠ 0 → (r.1 = EAGAIN ∨ r.1 = ENOMEM) ∧ slots r.2.blocks = slots s.blocks

variable {T}

theorem Inv.init (hB : 0 < T.BLOCK_SIZE) (ex : Id → Bool) :
    Inv T (ListOfABAFreeId.init T) [] ex :=
  ⟨WF.init hB, fun v hv => by simp [ListOfABAFreeId.init, List.count_replicate, Ne.symm hv],
    fun v hv hne => absurd (List.eq_of_mem_replicate (by simpa [ListOfABAFreeId.init] using hv)) hne,
    fun _ h => absurd h (List.not_mem_nil _), List.not_mem_nil _⟩

theorem Inv.weaken {s : ListOfABAFreeId Id} {added : List Id} {ex ex' : Id → Bool}
    (h : Inv T s added ex) (hp : Permanent ex ex') : Inv T s added ex' :=
  { h with mem_slots := fun v hv he => h.mem_slots v hv (hp v he) }

section step

variable {s : ListOfABAFreeId Id} {added : List Id} {ex : Id → Bool} {c : AddCall Id}
  {r : Nat × ListOfABAFreeId Id}

/-- A call that returned 0, from the count equation of `add_spec`. -/
theorem addOk_of_stored (h : Inv T s added ex) (hnew : c.id ∉ added) (hid : c.id ≠ T.ID_INIT)
    (h0 : r.1 = 0) {x : Id} (hx : x = T.ID_INIT ∨ x ∈ slots s.blocks ∧ c.ex x = false)
    (hc : ∀ v, v ≠ T.ID_INIT → (slots r.2.blocks).count v + (if x = v then 1 else 0) =
      (slots s.blocks).count v + if c.id = v then 1 else 0) :
    AddOk T c s r := by
  have hout : (slots s.blocks).count c.id = 0 :=
    List.count_eq_zero_of_not_mem fun hm => hnew (h.mem_added _ hm hid)
  have hxid : x ≠ c.id := by
    rintro rfl
    rcases hx with e | ⟨hm, -⟩
    · exact hid e
    · exact hnew (h.mem_added _ hm hid)
  have other : ∀ v, v ≠ T.ID_INIT → v ≠ c.id →
      (slots r.2.blocks).count v + (if x = v then 1 else 0) = (slots s.blocks).count v :=
    fun v hv hne => by rw [hc v hv, if_neg (Ne.symm hne), Nat.add_zero]
  refine ⟨fun v hv hne he => ?_, fun v hv hne => ?_, fun v hv => ?_, fun _ => ?_,
    fun h1 => absurd h0 h1⟩
  · have hxv : x ≠ v := by
      rintro rfl
      rcases hx with e | ⟨-, e⟩
      · exact hv e
      · rw [e] at he; exact Bool.false_ne_true he
    have := other v hv hne
    rwa [if_neg hxv, Nat.add_zero] at this
  · have := other v hv hne; omega
  · by_cases hne : v = c.id
    · have := hc v hv; subst hne; rw [if_neg hxid, if_pos rfl, hout] at this; omega
    · have := other v hv hne; have := h.count_le v hv; omega
  · have := hc c.id hid; rw [if_neg hxid, if_pos rfl, hout] at this; omega

/-- One call keeps the invariant and meets its contract. -/
theorem Inv.step (hB : 4 ≤ T.BLOCK_SIZE) (h : Inv T s added ex) (c : AddCall Id)
    (hp : Permanent ex c.ex) (hnew : c.id ∉ added) (hid : c.id ≠ T.ID_INIT) :
    AddOk T c s (add T c.ex c.allocOk c.id s) ∧
    Inv T (add T c.ex c.allocOk c.id s).2
      (if (add T c.ex c.allocOk c.id s).1 = 0 then added ++ [c.id] else added) c.ex := by
  obtain ⟨hw, hok, hfail⟩ := add_spec hB h.wf c.ex c.allocOk c.id
  generalize add T c.ex c.allocOk c.id s = r at hw hok hfail ⊢
  by_cases h0 : r.1 = 0
  · obtain ⟨x, hx, hc⟩ := hok h0
    have ok := addOk_of_stored h hnew hid h0 hx hc
    refine ⟨ok, ?_⟩
    rw [if_pos h0]
    refine ⟨hw, ok.unique, fun v hm hv => ?_, fun v hm he => ?_, ?_⟩
    · by_cases hne : v = c.id
      · exact List.mem_append_right _ (List.mem_singleton.mpr hne)
      · refine List.mem_append_left _ (h.mem_added v ?_ hv)
        have := ok.no_new v hv hne
        have := List.count_pos_iff.mpr hm
        exact List.count_pos_iff.mp (by omega)
    · rcases List.mem_append.mp hm with hm | hm
      · have hv : v ≠ T.ID_INIT := fun e => h.init_not_mem (e ▸ hm)
        have hne : v ≠ c.id := fun e => hnew (e ▸ hm)
        have := List.count_pos_iff.mpr (h.mem_slots v hm (hp v he))
        rw [← ok.keep_live v hv hne he] at this
        exact List.count_pos_iff.mp this
      · rw [List.mem_singleton.mp hm]
        exact List.count_pos_iff.mp (by rw [ok.stored h0]; omega)
    · simp only [List.mem_append, List.mem_singleton, not_or]
      exact ⟨h.init_not_mem, fun e => hid e.symm⟩
  · obtain ⟨hcode, hsl⟩ := hfail h0
    refine ⟨⟨fun v _ _ _ => by rw [hsl], fun v _ _ => by rw [hsl],
      fun v hv => hsl ▸ h.count_le v hv, fun e => absurd e h0, fun _ => ⟨hcode, hsl⟩⟩, ?_⟩
    rw [if_neg h0]
    exact ⟨hw, fun v hv => by rw [hsl]; exact h.count_le v hv,
      fun v hm => h.mem_added v (hsl ▸ hm), fun v hm he => by rw [hsl]; exact h.mem_slots v hm (hp v he),
      h.init_not_mem⟩

end step

/-- Every run of `add` calls keeps the invariant. -/
theorem Inv.runAdds (hB : 4 ≤ T.BLOCK_SIZE) : ∀ (calls : List (AddCall Id))
    {s : ListOfABAFreeId Id} {added : List Id} {ex exNow : Id → Bool},
    Inv T s added ex → (calls.map (·.id)).Nodup →
    (∀ c ∈ calls, c.id ∉ added ∧ c.id ≠ T.ID_INIT) →
    List.Chain Permanent ex (calls.map (·.ex) ++ [exNow]) →
    Inv T (runAdds T (s, added) calls).1 (runAdds T (s, added) calls).2 exNow
  | [], _, _, _, _, h, _, _, hp => h.weaken (List.chain_cons.mp hp).1
  | c :: cs, s, added, ex, exNow, h, hn, hc, hp => by
    rw [List.map_cons, List.cons_append, List.chain_cons] at hp
    obtain ⟨hc0, hci⟩ := hc c (List.mem_cons_self _ _)
    have hn' := List.nodup_cons.mp hn
    refine Inv.runAdds hB cs (h.step hB c hp.1 hc0 hci).2 hn'.2 (fun c' hc' => ⟨?_, ?_⟩) hp.2
    · have hne : c'.id ≠ c.id := fun e => hn'.1 (List.mem_map.mpr ⟨c', hc', e⟩)
      have := (hc c' (List.mem_cons_of_mem _ hc')).1
      split_ifs <;> simp_all
    · exact (hc c' (List.mem_cons_of_mem _ hc')).2

theorem mem_runAdds_added : ∀ (calls : List (AddCall Id)) (st : ListOfABAFreeId Id × List Id)
    {x : Id}, x ∈ (runAdds T st calls).2 → x ∈ st.2 ∨ x ∈ calls.map (·.id)
  | [], _, _, h => .inl h
  | c :: cs, st, x, h => by
    rcases mem_runAdds_added cs _ h with h | h
    · dsimp only at h
      split_ifs at h
      · rcases List.mem_append.mp h with h | h
        · exact .inl h
        · exact .inr (by simp [List.mem_singleton.mp h])
      · exact .inl h
    · exact .inr (List.mem_cons_of_mem _ h)

omit [DecidableEq Id] in
theorem foldl_ite_eq_filter {σ : Type} (P : Id → Prop) [DecidablePred P] (fn : σ → Id → σ) :
    ∀ (l : List Id) (acc : σ),
      l.foldl (fun acc x => if P x then fn acc x else acc) acc =
        (l.filter fun x => decide (P x)).foldl fn acc
  | [], _ => rfl
  | x :: l, acc => by
    by_cases hx : P x <;> simp [List.filter_cons, hx, foldl_ite_eq_filter P fn l]

/-- `apply` folds `fn` over the valid ids of the array view, in order. -/
theorem apply_eq_foldl {σ : Type} (ex : Id → Bool) (fn : σ → Id → σ) (s : ListOfABAFreeId Id)
    (acc : σ) : apply T ex fn s acc =
      ((slots s.blocks).filter fun x => decide (x ≠ T.ID_INIT ∧ ex x = true)).foldl fn acc := by
  unfold apply
  generalize s.blocks = bs
  induction bs generalizing acc with
  | nil => rfl
  | cons b bs ih =>
    rw [List.foldl_cons, ih, slots_cons, List.filter_append, List.foldl_append,
      foldl_ite_eq_filter]

/-- Under the invariant, the ids `apply` visits are the added ids that
exist, each once. -/
theorem Inv.count_visited {s : ListOfABAFreeId Id} {added : List Id} {ex : Id → Bool}
    (h : Inv T s added ex) (x : Id) :
    ((slots s.blocks).filter fun y => decide (y ≠ T.ID_INIT ∧ ex y = true)).count x =
      if x ∈ added ∧ ex x = true then 1 else 0 := by
  by_cases hx : x ≠ T.ID_INIT ∧ ex x = true
  · rw [List.count_filter (by simpa using hx)]
    by_cases ha : x ∈ added
    · rw [if_pos ⟨ha, hx.2⟩]
      have := List.count_pos_iff.mpr (h.mem_slots x ha hx.2)
      have := h.count_le x hx.1
      omega
    · rw [if_neg (fun e => ha e.1)]
      exact List.count_eq_zero_of_not_mem fun hm => ha (h.mem_added x hm hx.1)
  · rw [if_neg fun e => hx ⟨fun hi => h.init_not_mem (hi ▸ e.1), e.2⟩]
    exact List.count_eq_zero_of_not_mem fun hm => hx (by simpa using (List.mem_filter.mp hm).2)

/-- **`add` and `apply` over every run.** From a fresh list, along any
sequence of `add` calls with distinct ids other than `ID_INIT` and with an
`exists()` under which an invalid id stays invalid, every call meets its
contract (`AddOk`), and `apply` calls `fn` exactly once on each id whose
`add` returned 0 and that still exists, and on no other id. -/
theorem add_apply_exactly_once (hB : 4 ≤ T.BLOCK_SIZE) (calls : List (AddCall Id))
    (exNow : Id → Bool) (hids : (calls.map (·.id)).Nodup)
    (hinit : ∀ c ∈ calls, c.id ≠ T.ID_INIT)
    (hperm : List.Chain' Permanent (calls.map (·.ex) ++ [exNow])) :
    (∀ pre c post, calls = pre ++ c :: post →
      AddOk T c (runAdds T (ListOfABAFreeId.init T, []) pre).1
        (add T c.ex c.allocOk c.id (runAdds T (ListOfABAFreeId.init T, []) pre).1)) ∧
    ∃ L : List Id,
      (∀ {σ : Type} (fn : σ → Id → σ) (acc : σ),
        apply T exNow fn (runAdds T (ListOfABAFreeId.init T, []) calls).1 acc = L.foldl fn acc) ∧
      ∀ x, L.count x =
        if x ∈ (runAdds T (ListOfABAFreeId.init T, []) calls).2 ∧ exNow x = true then 1 else 0 := by
  have run : ∀ (l : List (AddCall Id)) (e : Id → Bool), (l.map (·.id)).Nodup →
      (∀ c ∈ l, c.id ≠ T.ID_INIT) → List.Chain' Permanent (l.map (·.ex) ++ [e]) →
      Inv T (runAdds T (ListOfABAFreeId.init T, []) l).1
        (runAdds T (ListOfABAFreeId.init T, []) l).2 e := fun l e hn hi hp =>
    Inv.runAdds hB l (Inv.init (by omega) fun _ => true) hn
      (fun c hc => ⟨List.not_mem_nil _, hi c hc⟩) (hp.cons' fun _ _ _ _ => rfl)
  refine ⟨fun pre c post hcalls => ?_, _, fun fn acc => apply_eq_foldl exNow fn _ acc,
    (run calls exNow hids hinit hperm).count_visited⟩
  subst hcalls
  have hn : (pre.map (·.id) ++ c.id :: post.map (·.id)).Nodup := by simpa using hids
  have hp : List.Chain' Permanent ((pre.map (·.ex) ++ [c.ex]) ++ (post.map (·.ex) ++ [exNow])) := by
    simpa using hperm
  have hc : c.id ∉ (runAdds T (ListOfABAFreeId.init T, []) pre).2 := fun hm =>
    (mem_runAdds_added pre _ hm).elim (List.not_mem_nil _)
      fun hm' => List.disjoint_of_nodup_append hn hm' (List.mem_cons_self _ _)
  exact ((run pre c.ex (List.Nodup.of_append_left hn)
    (fun c' hc' => hinit c' (List.mem_append_left _ hc')) hp.left_of_append).step hB c
      (fun _ e => e) hc (hinit c (by simp))).1

/-- The traits the comment of `list_of_abafree_id.h` documents, on `Nat`
ids with `0` as `ID_INIT`. -/
def documentedTraits : IdTraits Nat := ⟨63, 65536, 0⟩

/-- Two adds; the first id is invalid by the time of the second. -/
def twoAdds : List (AddCall Nat) := [⟨1, fun _ => true, true⟩, ⟨2, fun x => decide (x ≠ 1), true⟩]

theorem add_apply_exactly_once_twoAdds :
    (∀ pre c post, twoAdds = pre ++ c :: post →
      AddOk documentedTraits c (runAdds documentedTraits (ListOfABAFreeId.init documentedTraits, []) pre).1
        (add documentedTraits c.ex c.allocOk c.id
          (runAdds documentedTraits (ListOfABAFreeId.init documentedTraits, []) pre).1)) ∧
    ∃ L : List Nat,
      (∀ {σ : Type} (fn : σ → Nat → σ) (acc : σ),
        apply documentedTraits (fun x => decide (x ≠ 1)) fn
          (runAdds documentedTraits (ListOfABAFreeId.init documentedTraits, []) twoAdds).1 acc =
            L.foldl fn acc) ∧
      ∀ x, L.count x =
        if x ∈ (runAdds documentedTraits (ListOfABAFreeId.init documentedTraits, []) twoAdds).2 ∧
          decide (x ≠ 1) = true then 1 else 0 :=
  add_apply_exactly_once (T := documentedTraits) (by decide) twoAdds (fun x => decide (x ≠ 1))
    (by decide) (by decide) (by simp [twoAdds, Permanent])

end Melon.Fiber
