/-
Melon.Fiber.ListOfABAFreeIdLayout — the chain of blocks read as one array.

`slots bs` concatenates the blocks along the chain; a pointer `⟨a, i⟩`
names position `posOf bs a * BLOCK_SIZE + i` of it (`flatPos`). Under the
well-formedness invariant `WF` (every block has `BLOCK_SIZE` slots,
addresses are distinct and below `_nblock`, the head block comes first,
the cursor is a valid pointer) the member functions become array
operations:

* `readPtr` / `writePtr` are `getD` / `set` at `flatPos`;
* `forwardIndex` moves the cursor to the next array position, wrapping at
  the end (`cursorPos_forwardIndex`);
* `insertBlock` inserts `BLOCK_SIZE` empty slots at the cursor, and a
  pointer behind the current block moves `BLOCK_SIZE` positions on
  (`slots_insertBlock`, `flatPos_insertBlock`).

All of `add` is proved about this array view in
`ListOfABAFreeIdTheorems`.
-/
import Melon.Fiber.ListOfABAFreeId
import Mathlib.Data.List.Nodup
import Mathlib.Data.List.GetD

namespace Melon.Fiber

variable {Id : Type}

/-! ## 1. The array view -/

/-- All slots, block after block along the chain. -/
def slots (bs : List (IdBlock Id)) : List Id := bs.flatMap (·.ids)

/-- The addresses along the chain. -/
def addrs (bs : List (IdBlock Id)) : List Nat := bs.map (·.addr)

/-- The position along the chain of the block with address `a`. -/
def posOf : List (IdBlock Id) → Nat → Nat
  | [], _ => 0
  | b :: rest, a => if b.addr = a then 0 else posOf rest a + 1

@[simp] theorem slots_nil : slots ([] : List (IdBlock Id)) = [] := rfl
@[simp] theorem slots_cons (b : IdBlock Id) (bs : List (IdBlock Id)) :
    slots (b :: bs) = b.ids ++ slots bs := rfl
@[simp] theorem addrs_nil : addrs ([] : List (IdBlock Id)) = [] := rfl
@[simp] theorem addrs_cons (b : IdBlock Id) (bs : List (IdBlock Id)) :
    addrs (b :: bs) = b.addr :: addrs bs := rfl

theorem posOf_cons (b : IdBlock Id) (bs : List (IdBlock Id)) (a : Nat) :
    posOf (b :: bs) a = if b.addr = a then 0 else posOf bs a + 1 := rfl

/-- Every block holds `B` slots. -/
def Uniform (B : Nat) (bs : List (IdBlock Id)) : Prop := ∀ b ∈ bs, b.ids.length = B

theorem Uniform.cons_iff {B : Nat} {b : IdBlock Id} {bs : List (IdBlock Id)} :
    Uniform B (b :: bs) ↔ b.ids.length = B ∧ Uniform B bs := by
  simp [Uniform]

theorem slots_length {B : Nat} : ∀ {bs : List (IdBlock Id)}, Uniform B bs →
    (slots bs).length = bs.length * B
  | [], _ => by simp
  | b :: bs, h => by
    obtain ⟨hb, hbs⟩ := Uniform.cons_iff.mp h
    simp only [slots_cons, List.length_append, hb, slots_length hbs, List.length_cons,
      Nat.add_one_mul]
    omega

theorem posOf_lt {a : Nat} : ∀ {bs : List (IdBlock Id)}, a ∈ addrs bs → posOf bs a < bs.length
  | [], h => by simp at h
  | b :: bs, h => by
    rw [posOf_cons]
    split
    · simp
    · have : a ∈ addrs bs := by simp_all [eq_comm]
      simpa using posOf_lt this

/-- A valid slot of `bs` lies before the end of its array. -/
theorem flat_lt {B a i : Nat} {bs : List (IdBlock Id)} (ha : a ∈ addrs bs) (hi : i < B) :
    posOf bs a * B + i < bs.length * B := by
  have h := posOf_lt ha
  calc posOf bs a * B + i < posOf bs a * B + B := by omega
    _ = (posOf bs a + 1) * B := by rw [Nat.add_one_mul]
    _ ≤ bs.length * B := Nat.mul_le_mul_right _ h

/-! ## 2. Reading and writing through a pointer -/

variable (T : IdTraits Id)

theorem readPtr_cons (b : IdBlock Id) (bs : List (IdBlock Id)) (p : IdPtr) :
    readPtr T (b :: bs) p = if b.addr = p.addr then b.ids.getD p.idx T.ID_INIT
      else readPtr T bs p := by
  unfold readPtr
  by_cases h : b.addr = p.addr <;> simp [List.find?_cons, h]

/-- `*p` is the array slot at `flatPos`. -/
theorem readPtr_eq_getD {B i a : Nat} (hi : i < B) : ∀ {bs : List (IdBlock Id)},
    Uniform B bs → a ∈ addrs bs →
    readPtr T bs ⟨a, i⟩ = (slots bs).getD (posOf bs a * B + i) T.ID_INIT
  | [], _, h => by simp at h
  | b :: bs, hu, ha => by
    obtain ⟨hb, hbs⟩ := Uniform.cons_iff.mp hu
    rw [readPtr_cons, posOf_cons, slots_cons]
    by_cases h : b.addr = a
    · simp only [h, if_true, Nat.zero_mul, Nat.zero_add]
      rw [List.getD_append _ _ _ _ (by omega)]
    · have ha' : a ∈ addrs bs := by simp_all [eq_comm]
      simp only [h, if_false]
      rw [readPtr_eq_getD hi hbs ha', List.getD_append_right _ _ _ _ (by rw [Nat.add_one_mul]; omega)]
      congr 1
      rw [Nat.add_one_mul]; omega

theorem writePtr_cons (b : IdBlock Id) (bs : List (IdBlock Id)) (p : IdPtr) (v : Id) :
    writePtr (b :: bs) p v =
      (if b.addr = p.addr then { b with ids := b.ids.set p.idx v } else b) :: writePtr bs p v :=
  rfl

theorem writePtr_of_not_mem {p : IdPtr} (v : Id) : ∀ {bs : List (IdBlock Id)},
    p.addr ∉ addrs bs → writePtr bs p v = bs
  | [], _ => rfl
  | b :: bs, h => by
    simp only [addrs_cons, List.mem_cons, not_or] at h
    rw [writePtr_cons, if_neg (Ne.symm h.1), writePtr_of_not_mem v h.2]

@[simp] theorem addrs_writePtr (p : IdPtr) (v : Id) : ∀ bs : List (IdBlock Id),
    addrs (writePtr bs p v) = addrs bs
  | [] => rfl
  | b :: bs => by
    rw [writePtr_cons, addrs_cons, addrs_cons, addrs_writePtr p v bs]
    split <;> rfl

@[simp] theorem posOf_writePtr (p : IdPtr) (v : Id) (a : Nat) : ∀ bs : List (IdBlock Id),
    posOf (writePtr bs p v) a = posOf bs a
  | [] => rfl
  | b :: bs => by
    rw [writePtr_cons, posOf_cons, posOf_cons, posOf_writePtr p v a bs]
    split <;> rfl

@[simp] theorem length_writePtr (p : IdPtr) (v : Id) (bs : List (IdBlock Id)) :
    (writePtr bs p v).length = bs.length := by
  simp [writePtr]

theorem Uniform.writePtr {B : Nat} (p : IdPtr) (v : Id) : ∀ {bs : List (IdBlock Id)},
    Uniform B bs → Uniform B (Melon.Fiber.writePtr bs p v)
  | [], h => h
  | b :: bs, h => by
    obtain ⟨hb, hbs⟩ := Uniform.cons_iff.mp h
    rw [writePtr_cons, Uniform.cons_iff]
    refine ⟨?_, Uniform.writePtr p v hbs⟩
    split <;> simp [hb]

/-- `*p = v` is `set` at `flatPos`. -/
theorem slots_writePtr {B i a : Nat} (v : Id) (hi : i < B) : ∀ {bs : List (IdBlock Id)},
    Uniform B bs → (addrs bs).Nodup → a ∈ addrs bs →
    slots (writePtr bs ⟨a, i⟩ v) = (slots bs).set (posOf bs a * B + i) v
  | [], _, _, h => by simp at h
  | b :: bs, hu, hn, ha => by
    obtain ⟨hb, hbs⟩ := Uniform.cons_iff.mp hu
    simp only [addrs_cons, List.nodup_cons] at hn
    rw [writePtr_cons, posOf_cons, slots_cons, slots_cons]
    by_cases h : b.addr = a
    · subst h
      rw [writePtr_of_not_mem v hn.1]
      simp only [if_true, Nat.zero_mul, Nat.zero_add]
      rw [List.set_append_left _ _ (by omega)]
    · have ha' : a ∈ addrs bs := by simp_all [eq_comm]
      simp only [h, if_false]
      rw [slots_writePtr v hi hbs hn.2 ha', List.set_append_right _ _ (by rw [Nat.add_one_mul]; omega)]
      congr 2
      rw [Nat.add_one_mul]; omega

/-! ## 3. The cursor and `forward_index` -/

/-- What every reachable object satisfies: blocks of `BLOCK_SIZE` slots,
distinct addresses below `_nblock`, the head block first, a valid cursor. -/
structure WF (s : ListOfABAFreeId Id) : Prop where
  uniform : Uniform T.BLOCK_SIZE s.blocks
  nodup : (addrs s.blocks).Nodup
  addr_lt : ∀ a ∈ addrs s.blocks, a < s.nblock
  head : (addrs s.blocks).head? = some headAddr
  cur_mem : s.curBlock ∈ addrs s.blocks
  cur_lt : s.curIndex < T.BLOCK_SIZE

/-- Number of slots. -/
def ListOfABAFreeId.size (s : ListOfABAFreeId Id) : Nat := s.blocks.length * T.BLOCK_SIZE

/-- The array position of a pointer. -/
def flatPos (bs : List (IdBlock Id)) (p : IdPtr) : Nat := posOf bs p.addr * T.BLOCK_SIZE + p.idx

/-- The array position of the cursor. -/
def ListOfABAFreeId.cursorPos (s : ListOfABAFreeId Id) : Nat := flatPos T s.blocks s.cur

/-- One step along the array, wrapping at `n`. -/
def stepPos (n x : Nat) : Nat := if x + 1 = n then 0 else x + 1

@[simp] theorem forwardIndex_blocks (s : ListOfABAFreeId Id) :
    (forwardIndex T s).blocks = s.blocks := by
  unfold forwardIndex; split <;> rfl

@[simp] theorem forwardIndex_nblock (s : ListOfABAFreeId Id) :
    (forwardIndex T s).nblock = s.nblock := by
  unfold forwardIndex; split <;> rfl

@[simp] theorem write_blocks (s : ListOfABAFreeId Id) (p : IdPtr) (v : Id) :
    (s.write p v).blocks = writePtr s.blocks p v := rfl

@[simp] theorem write_cur (s : ListOfABAFreeId Id) (p : IdPtr) (v : Id) :
    (s.write p v).cur = s.cur := rfl

@[simp] theorem write_nblock (s : ListOfABAFreeId Id) (p : IdPtr) (v : Id) :
    (s.write p v).nblock = s.nblock := rfl

theorem posOf_getElem : ∀ {bs : List (IdBlock Id)} {i : Nat} (h : i < bs.length),
    (addrs bs).Nodup → posOf bs bs[i].addr = i
  | [], _, h, _ => by simp at h
  | b :: bs, 0, _, _ => by simp [posOf_cons]
  | b :: bs, i + 1, h, hn => by
    simp only [addrs_cons, List.nodup_cons] at hn
    have hi : i < bs.length := by simpa using h
    have hne : b.addr ≠ bs[i].addr := fun e =>
      hn.1 (e ▸ List.mem_map_of_mem _ (List.getElem_mem hi))
    simp [posOf_cons, hne, posOf_getElem hi hn.2]

theorem nextOf_eq {a : Nat} : ∀ {bs : List (IdBlock Id)}, a ∈ addrs bs →
    nextOf bs a = (bs[posOf bs a + 1]?).map (·.addr)
  | [], h => by simp at h
  | b :: bs, h => by
    unfold nextOf
    rw [posOf_cons]
    by_cases hb : b.addr = a
    · simp [hb, List.head?_eq_getElem?]
    · have : a ∈ addrs bs := by simp_all [eq_comm]
      simp [hb, nextOf_eq this]

theorem posOf_head {bs : List (IdBlock Id)} (h : (addrs bs).head? = some headAddr) :
    posOf bs headAddr = 0 := by
  cases bs with
  | nil => simp at h
  | cons b bs => simp_all [posOf_cons]

theorem head_mem {bs : List (IdBlock Id)} (h : (addrs bs).head? = some headAddr) :
    headAddr ∈ addrs bs := by
  cases bs with
  | nil => simp at h
  | cons b bs => simp_all

variable {T}

/-- The constructor builds a well-formed list. -/
theorem WF.init (hB : 0 < T.BLOCK_SIZE) : WF T (ListOfABAFreeId.init T) :=
  ⟨by simp [Uniform, ListOfABAFreeId.init], by simp [ListOfABAFreeId.init],
    by simp [ListOfABAFreeId.init, headAddr], rfl, by simp [ListOfABAFreeId.init], hB⟩

theorem WF.size_pos {s : ListOfABAFreeId Id} (h : WF T s) : 0 < s.size T := by
  have := posOf_lt h.cur_mem
  have := h.cur_lt
  exact Nat.mul_pos (by omega) (by omega)

theorem WF.cursorPos_lt {s : ListOfABAFreeId Id} (h : WF T s) : s.cursorPos T < s.size T :=
  flat_lt h.cur_mem h.cur_lt

theorem WF.forwardIndex {s : ListOfABAFreeId Id} (h : WF T s) : WF T (forwardIndex T s) := by
  have hc := h.cur_lt
  unfold Melon.Fiber.forwardIndex
  split
  · refine ⟨h.uniform, h.nodup, h.addr_lt, h.head, ?_, by dsimp only; omega⟩
    dsimp only
    rw [nextOf_eq h.cur_mem]
    cases hget : s.blocks[posOf s.blocks s.curBlock + 1]? with
    | none => exact head_mem h.head
    | some b =>
      simp only [Option.map_some', Option.getD_some]
      exact List.mem_map_of_mem _ (List.getElem?_mem hget)
  · exact ⟨h.uniform, h.nodup, h.addr_lt, h.head, h.cur_mem, by dsimp only; omega⟩

/-- `forward_index()` is one step along the array. -/
theorem cursorPos_forwardIndex {s : ListOfABAFreeId Id} (h : WF T s) :
    (forwardIndex T s).cursorPos T = stepPos (s.size T) (s.cursorPos T) := by
  have hk := posOf_lt h.cur_mem
  have hc := h.cur_lt
  have e1 := Nat.add_one_mul (posOf s.blocks s.curBlock) T.BLOCK_SIZE
  have hle : (posOf s.blocks s.curBlock + 1) * T.BLOCK_SIZE ≤ s.blocks.length * T.BLOCK_SIZE :=
    Nat.mul_le_mul_right _ hk
  simp only [ListOfABAFreeId.cursorPos, ListOfABAFreeId.size, flatPos, ListOfABAFreeId.cur,
    stepPos]
  unfold Melon.Fiber.forwardIndex
  split
  · dsimp only
    rw [nextOf_eq h.cur_mem]
    by_cases hk1 : posOf s.blocks s.curBlock + 1 < s.blocks.length
    · -- the next block along the chain
      have hle2 : (posOf s.blocks s.curBlock + 1 + 1) * T.BLOCK_SIZE ≤
          s.blocks.length * T.BLOCK_SIZE := Nat.mul_le_mul_right _ hk1
      rw [Nat.add_one_mul, e1] at hle2
      rw [List.getElem?_eq_getElem hk1]
      simp only [Option.map_some', Option.getD_some, posOf_getElem hk1 h.nodup]
      rw [if_neg (by omega), e1]
      omega
    · -- the last block wraps to the head
      have hn : s.blocks.length = posOf s.blocks s.curBlock + 1 := by omega
      rw [List.getElem?_eq_none (by omega)]
      simp only [Option.map_none', Option.getD_none, posOf_head h.head]
      rw [if_pos (by rw [hn, e1]; omega)]
      simp
  · dsimp only
    rw [if_neg (by omega)]
    omega

/-! ## 4. `insertBlock` inserts an empty block's worth of slots at the cursor -/

theorem addrs_append (l₁ l₂ : List (IdBlock Id)) : addrs (l₁ ++ l₂) = addrs l₁ ++ addrs l₂ :=
  List.map_append _ _ _

theorem slots_append (l₁ l₂ : List (IdBlock Id)) : slots (l₁ ++ l₂) = slots l₁ ++ slots l₂ :=
  List.flatMap_append _ _ _

theorem posOf_append_of_mem {a : Nat} (l₂ : List (IdBlock Id)) :
    ∀ {l₁ : List (IdBlock Id)}, a ∈ addrs l₁ → posOf (l₁ ++ l₂) a = posOf l₁ a
  | [], h => by simp at h
  | b :: l₁, h => by
    rw [List.cons_append, posOf_cons, posOf_cons]
    by_cases hb : b.addr = a
    · simp [hb]
    · have : a ∈ addrs l₁ := by simp_all [eq_comm]
      simp [hb, posOf_append_of_mem l₂ this]

theorem posOf_append_of_not_mem {a : Nat} (l₂ : List (IdBlock Id)) :
    ∀ {l₁ : List (IdBlock Id)}, a ∉ addrs l₁ → posOf (l₁ ++ l₂) a = l₁.length + posOf l₂ a
  | [], _ => by simp
  | b :: l₁, h => by
    simp only [addrs_cons, List.mem_cons, not_or] at h
    rw [List.cons_append, posOf_cons, if_neg (Ne.symm h.1), posOf_append_of_not_mem l₂ h.2]
    simp only [List.length_cons]
    omega

/-- The block list `insertBlock` builds, as the `flatMap` it is. -/
def spliceAt (c : Nat) (f : IdBlock Id → List (IdBlock Id)) (bs : List (IdBlock Id)) :
    List (IdBlock Id) :=
  bs.flatMap fun b => if b.addr = c then f b else [b]

theorem spliceAt_of_not_mem {c : Nat} (f : IdBlock Id → List (IdBlock Id)) :
    ∀ {bs : List (IdBlock Id)}, c ∉ addrs bs → spliceAt c f bs = bs
  | [], _ => rfl
  | b :: bs, h => by
    simp only [addrs_cons, List.mem_cons, not_or] at h
    have ih := spliceAt_of_not_mem f h.2
    simp only [spliceAt, List.flatMap_cons, if_neg (Ne.symm h.1)] at ih ⊢
    rw [ih]
    rfl

/-- With distinct addresses, the block at address `c` splits the chain, and
splicing replaces exactly that block. -/
theorem spliceAt_split {c : Nat} (f : IdBlock Id → List (IdBlock Id)) {bs : List (IdBlock Id)}
    (hn : (addrs bs).Nodup) (hc : c ∈ addrs bs) :
    ∃ pre b post, bs = pre ++ b :: post ∧ b.addr = c ∧ c ∉ addrs pre ∧ c ∉ addrs post ∧
      spliceAt c f bs = pre ++ f b ++ post := by
  obtain ⟨b, hb, rfl⟩ := List.mem_map.mp hc
  obtain ⟨pre, post, rfl⟩ := List.append_of_mem hb
  have hn' := hn
  rw [addrs_append, addrs_cons, List.nodup_append] at hn'
  have hpre : b.addr ∉ addrs pre := fun h => hn'.2.2 h (List.mem_cons_self _ _)
  have hpost : b.addr ∉ addrs post := (List.nodup_cons.mp hn'.2.1).1
  refine ⟨pre, b, post, rfl, rfl, hpre, hpost, ?_⟩
  simp only [spliceAt, List.flatMap_append, List.flatMap_cons, if_pos rfl] at *
  rw [show pre.flatMap _ = spliceAt b.addr f pre from rfl, spliceAt_of_not_mem f hpre,
    show post.flatMap _ = spliceAt b.addr f post from rfl, spliceAt_of_not_mem f hpost]
  simp

/-- The two blocks `insertBlock` puts where `_cur_block` was. -/
def splitBlock (B c fresh : Nat) (init : Id) (b : IdBlock Id) : List (IdBlock Id) :=
  [{ b with ids := b.ids.take c ++ List.replicate (B - c) init },
   ⟨fresh, List.replicate c init ++ b.ids.drop c⟩]

theorem insertBlock_blocks (s : ListOfABAFreeId Id) :
    (insertBlock T s).blocks =
      spliceAt s.curBlock (splitBlock T.BLOCK_SIZE s.curIndex s.nblock T.ID_INIT) s.blocks := rfl

@[simp] theorem insertBlock_cur (s : ListOfABAFreeId Id) : (insertBlock T s).cur = s.cur := rfl

@[simp] theorem insertBlock_curBlock (s : ListOfABAFreeId Id) :
    (insertBlock T s).curBlock = s.curBlock := rfl

@[simp] theorem insertBlock_curIndex (s : ListOfABAFreeId Id) :
    (insertBlock T s).curIndex = s.curIndex := rfl

@[simp] theorem insertBlock_nblock (s : ListOfABAFreeId Id) :
    (insertBlock T s).nblock = s.nblock + 1 := rfl

section insert

variable {s : ListOfABAFreeId Id} (h : WF T s)
include h

/-- The shape of the chain after `insertBlock`. -/
theorem insertBlock_shape : ∃ pre b post, s.blocks = pre ++ b :: post ∧ b.addr = s.curBlock ∧
    s.curBlock ∉ addrs pre ∧ s.curBlock ∉ addrs post ∧
    (insertBlock T s).blocks =
      pre ++ { b with ids := b.ids.take s.curIndex ++
          List.replicate (T.BLOCK_SIZE - s.curIndex) T.ID_INIT } ::
        ⟨s.nblock, List.replicate s.curIndex T.ID_INIT ++ b.ids.drop s.curIndex⟩ :: post := by
  obtain ⟨pre, b, post, hs, hb, hpre, hpost, hsp⟩ :=
    spliceAt_split (splitBlock T.BLOCK_SIZE s.curIndex s.nblock T.ID_INIT) h.nodup h.cur_mem
  refine ⟨pre, b, post, hs, hb, hpre, hpost, ?_⟩
  rw [insertBlock_blocks, hsp]
  simp [splitBlock]

/-- The slots after `insertBlock`: `BLOCK_SIZE` empty slots inserted at the cursor. -/
theorem slots_insertBlock :
    slots (insertBlock T s).blocks =
      (slots s.blocks).take (s.cursorPos T) ++ List.replicate T.BLOCK_SIZE T.ID_INIT ++
        (slots s.blocks).drop (s.cursorPos T) := by
  obtain ⟨pre, b, post, hs, hb, hpre, -, hins⟩ := insertBlock_shape h
  have hu := h.uniform
  rw [hs] at hu
  have hupre : Uniform T.BLOCK_SIZE pre := fun x hx => hu x (List.mem_append_left _ hx)
  have hb' : b.ids.length = T.BLOCK_SIZE := hu b (by simp)
  have hc := h.cur_lt
  have hpos : s.cursorPos T = (slots pre).length + s.curIndex := by
    simp only [ListOfABAFreeId.cursorPos, flatPos, ListOfABAFreeId.cur, hs, slots_length hupre]
    rw [posOf_append_of_not_mem _ hpre, posOf_cons, if_pos hb]
    simp
  rw [hins, hs, hpos]
  simp only [slots_append, slots_cons]
  rw [List.take_append, List.drop_append, List.take_append_of_le_length (by omega),
    List.drop_append_of_le_length (by omega)]
  have : List.replicate T.BLOCK_SIZE T.ID_INIT =
      List.replicate (T.BLOCK_SIZE - s.curIndex) T.ID_INIT ++ List.replicate s.curIndex T.ID_INIT := by
    rw [← List.replicate_add]; congr 1; omega
  rw [this]
  simp only [List.append_assoc]

/-- A pointer into `_cur_block` or a block before it keeps its array position;
one into a later block moves on by `BLOCK_SIZE`. -/
theorem flatPos_insertBlock {a i : Nat} (ha : a ∈ addrs s.blocks) (hi : i < T.BLOCK_SIZE) :
    flatPos T (insertBlock T s).blocks ⟨a, i⟩ =
      if flatPos T s.blocks ⟨a, i⟩ < (posOf s.blocks s.curBlock + 1) * T.BLOCK_SIZE
      then flatPos T s.blocks ⟨a, i⟩ else flatPos T s.blocks ⟨a, i⟩ + T.BLOCK_SIZE := by
  obtain ⟨pre, b, post, hs, hb, hpre, hpost, hins⟩ := insertBlock_shape h
  simp only [flatPos, hins, hs]
  rw [hs] at ha
  rw [posOf_append_of_not_mem _ hpre, posOf_cons, if_pos hb]
  simp only [Nat.add_zero]
  by_cases hap : a ∈ addrs pre
  · rw [posOf_append_of_mem _ hap, posOf_append_of_mem _ hap]
    have := posOf_lt hap
    have : (posOf pre a + 1) * T.BLOCK_SIZE ≤ pre.length * T.BLOCK_SIZE :=
      Nat.mul_le_mul_right _ this
    rw [Nat.add_one_mul] at this
    rw [if_pos (by rw [Nat.add_one_mul]; omega)]
  · rw [posOf_append_of_not_mem _ hap, posOf_append_of_not_mem _ hap]
    by_cases hab : b.addr = a
    · simp only [posOf_cons, hab, if_true, Nat.add_zero]
      rw [if_pos (by rw [Nat.add_one_mul]; omega)]
    · have hne : s.nblock ≠ a := by
        have := h.addr_lt a (by rw [hs]; exact ha); omega
      simp only [posOf_cons, hab, hne, if_false, Nat.add_mul, Nat.one_mul]
      rw [if_neg (by omega)]
      omega

theorem WF.insertBlock : WF T (insertBlock T s) := by
  obtain ⟨pre, b, post, hs, hb, hpre, hpost, hins⟩ := insertBlock_shape h
  have hu := h.uniform
  have hn := h.nodup
  have hlt := h.addr_lt
  have hhead := h.head
  have hc := h.cur_lt
  rw [hs] at hu hn hlt hhead
  have hb' : b.ids.length = T.BLOCK_SIZE := hu b (by simp)
  have hfresh : s.nblock ∉ addrs (pre ++ b :: post) := fun hm => by
    have := hlt _ hm; omega
  refine ⟨?_, ?_, ?_, ?_, ?_, ?_⟩
  · rw [hins]
    intro x hx
    simp only [List.mem_append, List.mem_cons] at hx
    rcases hx with hx | rfl | rfl | hx
    · exact hu x (by simp [hx])
    · simp [hb']; omega
    · simp [hb']; omega
    · exact hu x (by simp [hx])
  · rw [hins]
    simp only [addrs_append, addrs_cons] at hn hfresh ⊢
    rw [List.nodup_append] at hn ⊢
    simp only [List.mem_append, List.mem_cons, not_or] at hfresh
    refine ⟨hn.1, ?_, ?_⟩
    · simp only [List.nodup_cons, List.mem_cons, not_or] at hn ⊢
      exact ⟨⟨fun e => hfresh.2.1 e.symm, hn.2.1.1⟩, hfresh.2.2, hn.2.1.2⟩
    · intro x hx hy
      simp only [List.mem_cons] at hy
      rcases hy with rfl | rfl | hy
      · exact hn.2.2 hx (List.mem_cons_self _ _)
      · exact hfresh.1 hx
      · exact hn.2.2 hx (List.mem_cons_of_mem _ hy)
  · intro x hx
    rw [hins] at hx
    simp only [addrs_append, addrs_cons, List.mem_append, List.mem_cons] at hx
    simp only [insertBlock_nblock]
    rcases hx with hx | hx | hx | hx
    · have := hlt x (by simp [addrs_append, hx]); omega
    · have := hlt x (by simp [addrs_append, hx]); omega
    · omega
    · have := hlt x (by simp [addrs_append, hx]); omega
  · rw [hins]
    cases pre with
    | nil => simpa [hb] using hhead
    | cons p pre => simpa [addrs_append] using hhead
  · rw [hins]
    simp [addrs_append, hb]
  · exact hc

theorem mem_addrs_insertBlock {a : Nat} (ha : a ∈ addrs s.blocks) :
    a ∈ addrs (insertBlock T s).blocks := by
  obtain ⟨pre, b, post, hs, hb, -, -, hins⟩ := insertBlock_shape h
  rw [hs, addrs_append] at ha
  rw [hins, addrs_append]
  simp only [addrs_cons, List.mem_append, List.mem_cons] at ha ⊢
  tauto

theorem size_insertBlock : (insertBlock T s).size T = s.size T + T.BLOCK_SIZE := by
  obtain ⟨pre, b, post, hs, -, -, -, hins⟩ := insertBlock_shape h
  simp only [ListOfABAFreeId.size, hins, hs, List.length_append, List.length_cons]
  simp only [Nat.add_mul, Nat.one_mul]
  omega

theorem cursorPos_insertBlock : (insertBlock T s).cursorPos T = s.cursorPos T := by
  have := flatPos_insertBlock h h.cur_mem h.cur_lt
  simp only [ListOfABAFreeId.cursorPos, insertBlock_cur]
  rw [show s.cur = ⟨s.curBlock, s.curIndex⟩ from rfl, this, if_pos]
  simp only [flatPos, Nat.add_one_mul]
  have := h.cur_lt
  omega

end insert

/-! ## 5. The array abstraction

`Abs s A c N bs` says that `s` is the array `A` of `N` slots with the cursor
at `c`, and that its blocks sit at the addresses and positions of `bs`: the
stores and cursor steps of `add` keep `bs` and change `A` and `c` as array
operations. -/

variable (T)

/-- `p` points into one of the blocks of `bs`. -/
def Valid (bs : List (IdBlock Id)) (p : IdPtr) : Prop := p.addr ∈ addrs bs ∧ p.idx < T.BLOCK_SIZE

structure Abs (s : ListOfABAFreeId Id) (A : List Id) (c N : Nat) (bs : List (IdBlock Id)) :
    Prop where
  wf : WF T s
  slots_eq : slots s.blocks = A
  cursor_eq : s.cursorPos T = c
  size_eq : s.size T = N
  addrs_eq : addrs s.blocks = addrs bs
  posOf_eq : ∀ a, posOf s.blocks a = posOf bs a

variable {T}

theorem WF.write {s : ListOfABAFreeId Id} (h : WF T s) (p : IdPtr) (v : Id) :
    WF T (s.write p v) := by
  refine ⟨h.uniform.writePtr p v, ?_, ?_, ?_, ?_, h.cur_lt⟩ <;>
    simp only [write_blocks, addrs_writePtr, write_nblock, write_cur]
  · exact h.nodup
  · exact h.addr_lt
  · exact h.head
  · exact h.cur_mem

theorem WF.abs {s : ListOfABAFreeId Id} (h : WF T s) :
    Abs T s (slots s.blocks) (s.cursorPos T) (s.size T) s.blocks :=
  ⟨h, rfl, rfl, rfl, rfl, fun _ => rfl⟩

namespace Abs

variable {s : ListOfABAFreeId Id} {A : List Id} {c N : Nat} {bs : List (IdBlock Id)}

theorem flatPos_eq (h : Abs T s A c N bs) (p : IdPtr) : flatPos T s.blocks p = flatPos T bs p := by
  simp [flatPos, h.posOf_eq]

theorem valid_iff (h : Abs T s A c N bs) {p : IdPtr} : Valid T s.blocks p ↔ Valid T bs p := by
  simp [Valid, h.addrs_eq]

theorem cur_valid (h : Abs T s A c N bs) : Valid T bs s.cur :=
  h.valid_iff.mp ⟨h.wf.cur_mem, h.wf.cur_lt⟩

theorem flatPos_cur (h : Abs T s A c N bs) : flatPos T bs s.cur = c := by
  rw [← h.flatPos_eq]; exact h.cursor_eq

/-- `*p` reads the array. -/
theorem readPtr_eq (h : Abs T s A c N bs) {p : IdPtr} (hp : Valid T bs p) :
    readPtr T s.blocks p = A.getD (flatPos T bs p) T.ID_INIT := by
  rw [← h.valid_iff] at hp
  rw [← h.flatPos_eq, ← h.slots_eq]
  exact readPtr_eq_getD T hp.2 h.wf.uniform hp.1

/-- `*p = v` stores into the array. -/
theorem write (h : Abs T s A c N bs) {p : IdPtr} (hp : Valid T bs p) (v : Id) :
    Abs T (s.write p v) (A.set (flatPos T bs p) v) c N bs := by
  rw [← h.valid_iff] at hp
  refine ⟨h.wf.write p v, ?_, ?_, ?_, ?_, ?_⟩
  · rw [← h.flatPos_eq, ← h.slots_eq]
    exact slots_writePtr v hp.2 h.wf.uniform h.wf.nodup hp.1
  · rw [← h.cursor_eq]
    simp [ListOfABAFreeId.cursorPos, flatPos]
  · rw [← h.size_eq]
    simp [ListOfABAFreeId.size]
  · simp [h.addrs_eq]
  · simp [h.posOf_eq]

/-- `*p = *q`. -/
theorem write_read (h : Abs T s A c N bs) {p q : IdPtr} (hp : Valid T bs p) (hq : Valid T bs q) :
    Abs T (s.write p (readPtr T s.blocks q))
      (A.set (flatPos T bs p) (A.getD (flatPos T bs q) T.ID_INIT)) c N bs := by
  convert h.write hp (readPtr T s.blocks q) using 2
  rw [h.readPtr_eq hq]

/-- `*cursor = v`. -/
theorem write_cur (h : Abs T s A c N bs) (v : Id) : Abs T (s.write s.cur v) (A.set c v) c N bs := by
  have := h.write h.cur_valid v
  rwa [h.flatPos_cur] at this

/-- `*cursor = *q`. -/
theorem write_cur_read (h : Abs T s A c N bs) {q : IdPtr} (hq : Valid T bs q) :
    Abs T (s.write s.cur (readPtr T s.blocks q)) (A.set c (A.getD (flatPos T bs q) T.ID_INIT))
      c N bs := by
  convert h.write_cur (readPtr T s.blocks q) using 2
  rw [h.readPtr_eq hq]

/-- `forward_index()` steps the cursor along the array. -/
theorem forwardIndex (h : Abs T s A c N bs) :
    Abs T (Melon.Fiber.forwardIndex T s) A (stepPos N c) N bs := by
  refine ⟨h.wf.forwardIndex, ?_, ?_, ?_, ?_, ?_⟩
  · simpa using h.slots_eq
  · rw [cursorPos_forwardIndex h.wf, h.cursor_eq, h.size_eq]
  · simpa [ListOfABAFreeId.size] using h.size_eq
  · simpa using h.addrs_eq
  · simpa using h.posOf_eq

end Abs

end Melon.Fiber
