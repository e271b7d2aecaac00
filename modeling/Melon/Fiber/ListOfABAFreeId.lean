/-
Melon.Fiber.ListOfABAFreeId — the model of `fiber::ListOfABAFreeId`
(`src/melon/fiber/list_of_abafree_id.h`), the container that remembers
identifiers which other threads may invalidate at any time.

* `IdBlock` / `ListOfABAFreeId` — the blocks of `BLOCK_SIZE` slots, kept
  in the order the `next` pointers chain them (head block first). Every
  block carries its address, and an `Id*` is an `IdPtr`: an address and a
  slot index. A saved pointer therefore keeps naming the same memory when a
  block is inserted in front of it, exactly as the C++ pointer does.
* `forwardIndex`, `insertBlock`, `scan`, `scatter`, `add`, `apply` — the
  member functions, statement by statement.

`exists()` is the one part of `IdTraits` that changes over time (an id
becomes invalid when its owner destroys it), so it is an argument of each
call rather than a field of `IdTraits`. A failed `new (std::nothrow)` is
the argument `allocOk = false`.
-/
import Mathlib.Data.List.Basic

namespace Melon.Fiber

/-- The constants `IdTraits` MUST have (`list_of_abafree_id.h`, the
comment before the class). -/
structure IdTraits (Id : Type) where
  BLOCK_SIZE : Nat
  MAX_ENTRIES : Nat
  ID_INIT : Id

/-- One `IdBlock`, with the address a pointer to it would hold. -/
structure IdBlock (Id : Type) where
  addr : Nat
  ids : List Id

/-- An `Id*` into block `addr`, slot `idx`. -/
structure IdPtr where
  addr : Nat
  idx : Nat
  deriving DecidableEq, Repr

/-- The members of `ListOfABAFreeId`. `blocks` lists the chain from
`_head_block` along `next`; `curBlock` is the address `_cur_block` holds. -/
structure ListOfABAFreeId (Id : Type) where
  blocks : List (IdBlock Id)
  curBlock : Nat
  curIndex : Nat
  nblock : Nat

/-- `EAGAIN` and `ENOMEM` as Linux numbers them. -/
def EAGAIN : Nat := 11
def ENOMEM : Nat := 12

/-- The address of `_head_block`, which lives inside the object. -/
def headAddr : Nat := 0

variable {Id : Type} [DecidableEq Id] (T : IdTraits Id)

/-- The constructor: one head block of `ID_INIT`, cursor at its slot 0. -/
def ListOfABAFreeId.init : ListOfABAFreeId Id :=
  { blocks := [⟨headAddr, List.replicate T.BLOCK_SIZE T.ID_INIT⟩]
    curBlock := headAddr, curIndex := 0, nblock := 1 }

/-- `*p`: the slot a pointer names. -/
def readPtr (bs : List (IdBlock Id)) (p : IdPtr) : Id :=
  match bs.find? (fun b => b.addr = p.addr) with
  | some b => b.ids.getD p.idx T.ID_INIT
  | none => T.ID_INIT

/-- `*p = v`. -/
def writePtr (bs : List (IdBlock Id)) (p : IdPtr) (v : Id) : List (IdBlock Id) :=
  bs.map fun b => if b.addr = p.addr then { b with ids := b.ids.set p.idx v } else b

/-- `b->next`, as the address of the block that follows `b` in the chain. -/
def nextOf : List (IdBlock Id) → Nat → Option Nat
  | [], _ => none
  | b :: rest, a => if b.addr = a then (rest.head?).map (·.addr) else nextOf rest a

/-- `forward_index()`: step the cursor, wrapping to the next block, and from
the last block back to `_head_block`. -/
def forwardIndex (s : ListOfABAFreeId Id) : ListOfABAFreeId Id :=
  if s.curIndex + 1 ≥ T.BLOCK_SIZE then
    { s with curIndex := 0, curBlock := (nextOf s.blocks s.curBlock).getD headAddr }
  else { s with curIndex := s.curIndex + 1 }

/-- The cursor `_cur_block->ids + _cur_index` as a pointer. -/
def ListOfABAFreeId.cur (s : ListOfABAFreeId Id) : IdPtr := ⟨s.curBlock, s.curIndex⟩

/-- The first half of the crowded path of `add`: `++_nblock`, the new block
takes the slots `[_cur_index, BLOCK_SIZE)` of `_cur_block` (which become
`ID_INIT`) and is linked right after it. Its address is `_nblock`, fresh
because every block allocated so far has a smaller one. -/
def insertBlock (s : ListOfABAFreeId Id) : ListOfABAFreeId Id :=
  let c := s.curIndex
  { s with
    nblock := s.nblock + 1
    blocks := s.blocks.flatMap fun b =>
      if b.addr = s.curBlock then
        [{ b with ids := b.ids.take c ++ List.replicate (T.BLOCK_SIZE - c) T.ID_INIT },
         ⟨s.nblock, List.replicate c T.ID_INIT ++ b.ids.drop c⟩]
      else [b] }

/-- `*p = v` on the whole object. -/
def ListOfABAFreeId.write (s : ListOfABAFreeId Id) (p : IdPtr) (v : Id) :
    ListOfABAFreeId Id :=
  { s with blocks := writePtr s.blocks p v }

/-- How the scanning loop of `add` ends: the id was stored, or all four
positions held live ids (`saved_pos`). -/
inductive ScanResult (Id : Type)
  | stored (s : ListOfABAFreeId Id)
  | crowded (s : ListOfABAFreeId Id) (saved : List IdPtr)

/-- The first loop of `add`: at most `k` more positions, each taken if it
holds `ID_INIT` or an id that no longer `exists()`. -/
def scan (ex : Id → Bool) (id : Id) :
    Nat → ListOfABAFreeId Id → List IdPtr → ScanResult Id
  | 0, s, saved => .crowded s saved
  | k + 1, s, saved =>
    let pos := s.cur
    let s := forwardIndex T s
    let v := readPtr T s.blocks pos
    if v = T.ID_INIT ∨ ex v = false then .stored (s.write pos id)
    else scan ex id k s (saved ++ [pos])

/-- The second half of the crowded path: move the conflicting ids apart and
store `id`, with `sp` the four saved positions. -/
def scatter (sp : Nat → IdPtr) (id : Id) (s : ListOfABAFreeId Id) :
    ListOfABAFreeId Id :=
  let s := s.write s.cur (readPtr T s.blocks (sp 2))
  let s := s.write (sp 2) (readPtr T s.blocks (sp 1))
  let s := s.write (sp 1) T.ID_INIT
  let s := forwardIndex T (forwardIndex T s)
  let s := s.write s.cur (readPtr T s.blocks (sp 3))
  let s := s.write (sp 3) T.ID_INIT
  let s := forwardIndex T s
  let s := s.write s.cur id
  forwardIndex T s

/-- `add(id)`: the return code and the new object. -/
def add (ex : Id → Bool) (allocOk : Bool) (id : Id) (s : ListOfABAFreeId Id) :
    Nat × ListOfABAFreeId Id :=
  match scan T ex id 4 s [] with
  | .stored s => (0, s)
  | .crowded s saved =>
    if s.nblock * T.BLOCK_SIZE > T.MAX_ENTRIES then (EAGAIN, s)
    else if allocOk = false then (ENOMEM, s)
    else (0, scatter T (fun i => saved.getD i ⟨0, 0⟩) id (insertBlock T s))

/-- `apply(fn)`, with the callback as a step function on a result of type
`σ`: every block along the chain, every slot, the valid ones. -/
def apply {σ : Type} (ex : Id → Bool) (fn : σ → Id → σ) (s : ListOfABAFreeId Id)
    (acc : σ) : σ :=
  s.blocks.foldl (fun acc b =>
    b.ids.foldl (fun acc x => if x ≠ T.ID_INIT ∧ ex x = true then fn acc x else acc) acc) acc

end Melon.Fiber
