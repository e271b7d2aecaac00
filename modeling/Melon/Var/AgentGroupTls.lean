/-
Melon.Var.AgentGroupTls — the thread-local agents of `AgentGroup<Agent>`
(`src/melon/var/detail/agent_group.h`): `get_tls_agent` and
`get_or_create_tls_agent`, which find the agent of an id in the blocks of
the calling thread.

* `ELEMENTS_PER_BLOCK` — the agents in one `ThreadBlock`, from
  `sizeof(Agent)`.
* `AgentAddr` — the address of an agent: the address of its `ThreadBlock`
  and its offset there, `tb->at(offset)`.
* `TlsBlocks` — `_s_tls_blocks` of one thread (`none` while null, else the
  vector, each entry `none` for NULL or the address of a block), and the
  address the next `new ThreadBlock` returns: an allocation that succeeds
  gives an address no block of the thread has.
* `TlsAlloc` — whether the `new (std::nothrow)` of the vector and of the
  block succeed in one call.
* `getTlsAgent`, `getOrCreateTlsAgent`, `TlsBlocks.run` — the two calls,
  and calls of `get_or_create_tls_agent` one after another in one thread,
  with what each returned.

`_s_tls_blocks` is `__thread`, so the calls of one thread are one
sequence. `CHECK(false)` and `LOG(FATAL)` are followed by `return NULL`,
as in the code. What an agent holds is left out: the blocks are
constructed whole, and only addresses are followed here.
`_destroy_tls_blocks` runs when the thread exits, after its last call.
-/
import Mathlib.Data.List.Basic

namespace Melon.Var

/-- `RAW_BLOCK_SIZE`. -/
def RAW_BLOCK_SIZE : Nat := 4096

/-- `ELEMENTS_PER_BLOCK = (RAW_BLOCK_SIZE + sizeof(Agent) - 1) / sizeof(Agent)`. -/
def ELEMENTS_PER_BLOCK (sizeofAgent : Nat) : Nat := (RAW_BLOCK_SIZE + sizeofAgent - 1) / sizeofAgent

/-- The address of an agent: its `ThreadBlock` and its offset there. -/
structure AgentAddr where
  block : Nat
  offset : Nat
  deriving DecidableEq, Repr

/-- `_s_tls_blocks` of one thread, and the address the next
`new ThreadBlock` returns. -/
structure TlsBlocks where
  blocks : Option (List (Option Nat))
  nextBlock : Nat
  deriving DecidableEq, Repr

/-- Whether the `new (std::nothrow)` of the vector and of the block
succeed. -/
structure TlsAlloc where
  vector : Bool
  block : Bool
  deriving DecidableEq, Repr

namespace TlsBlocks

/-- A thread that has not called `get_or_create_tls_agent` yet. -/
def init : TlsBlocks := ⟨none, 0⟩

variable (sizeofAgent : Nat) (t : TlsBlocks)

/-- The agent at `offset` of the block at entry `blockId`, if there is
one. -/
def agentAt (v : List (Option Nat)) (blockId offset : Nat) : Option AgentAddr :=
  (v[blockId]?).join.map fun tb => ⟨tb, offset⟩

/-- `get_tls_agent(id)`. -/
def getTlsAgent (id : Int) : Option AgentAddr :=
  if id < 0 then none
  else
    let blockId := id.toNat / ELEMENTS_PER_BLOCK sizeofAgent
    t.blocks.bind fun v => agentAt v blockId (id.toNat - blockId * ELEMENTS_PER_BLOCK sizeofAgent)

/-- `_s_tls_blocks->resize(std::max(block_id + 1, 32ul))` when `block_id`
is past the end. -/
def grow (v : List (Option Nat)) (blockId : Nat) : List (Option Nat) :=
  if blockId < v.length then v else v ++ List.replicate (max (blockId + 1) 32 - v.length) none

/-- `get_or_create_tls_agent(id)`: the agent, and `_s_tls_blocks` after. -/
def getOrCreateTlsAgent (id : Int) (alloc : TlsAlloc) : Option AgentAddr × TlsBlocks :=
  if id < 0 then (none, t)
  else
    match t.blocks.orElse fun _ => if alloc.vector then some [] else none with
    | none => (none, t)
    | some v =>
      let blockId := id.toNat / ELEMENTS_PER_BLOCK sizeofAgent
      let offset := id.toNat - blockId * ELEMENTS_PER_BLOCK sizeofAgent
      let v := grow v blockId
      match (v[blockId]?).join with
      | some tb => (some ⟨tb, offset⟩, { t with blocks := some v })
      | none =>
        if alloc.block then
          (some ⟨t.nextBlock, offset⟩, ⟨some (v.set blockId (some t.nextBlock)), t.nextBlock + 1⟩)
        else (none, { t with blocks := some v })

/-- Calls of `get_or_create_tls_agent` one after another: `_s_tls_blocks`
after them, and each id with what its call returned. -/
def run : TlsBlocks → List (Int × TlsAlloc) → TlsBlocks × List (Int × Option AgentAddr)
  | t, [] => (t, [])
  | t, (id, alloc) :: calls =>
    let r := t.getOrCreateTlsAgent sizeofAgent id alloc
    let rest := run r.2 calls
    (rest.1, (id, r.1) :: rest.2)

end TlsBlocks

end Melon.Var
