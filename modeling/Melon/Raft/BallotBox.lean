/-
Melon.Raft.BallotBox — the model of `raft::BallotBox`
(`src/melon/raft/ballot_box.cc`): the leader's queue of ballots for the log
entries not yet committed, starting at `_pending_index`.

* `BallotLib` — what the box uses of `Ballot` (`ballot.h` is not among the
  sources): `grant` with its `PosHint`, and `granted`. They are parameters,
  so every result holds for every ballot implementation.
* `BallotBox` — `_last_committed_index`, `_pending_index` and
  `_pending_meta_queue`.
* `commitAt` (with its grant loop `grantLoop`), `clearPendingTasks`,
  `resetPendingIndex`, `appendPendingTask`, `setLastCommittedIndex` — the
  member functions, statement by statement.

The mutex makes each call atomic, so a run is a sequence of calls. The
`MCHECK`s are not modelled as statements: they are the preconditions
`BallotOp.Pre` of the runs the results speak about. The waiter and the closure
queue only receive calls and are left out, and so is the configuration a
ballot is built from: `appendPendingTask` takes what `Ballot::init` gave.
Indices are `Int` (they are `int64_t`, far from overflow for log indices).
-/
import Mathlib.Data.List.Basic

namespace Melon.Raft

/-- The operations of `Ballot` the box calls. -/
structure BallotLib (β Peer Hint : Type) where
  /-- `bl.grant(peer, hint)`: the ballot after the vote, and the new hint. -/
  grant : β → Peer → Hint → β × Hint
  /-- `bl.granted()`: a quorum has voted. -/
  granted : β → Bool
  /-- A default-constructed `Ballot::PosHint`. -/
  posHint : Hint

/-- The members of `BallotBox` that its functions read and write. -/
structure BallotBox (β : Type) where
  lastCommittedIndex : Int
  pendingIndex : Int
  pendingMetaQueue : List β

/-- `EINVAL` and `ERANGE` as Linux numbers them. -/
def BallotBox.EINVAL : Nat := 22
def BallotBox.ERANGE : Nat := 34

namespace BallotBox

variable {β Peer Hint : Type} (L : BallotLib β Peer Hint)

/-- The constructor: nothing committed, no pending index, no ballots. -/
def init : BallotBox β := ⟨0, 0, []⟩

/-- The grant loop of `commit_at` over the `n` log indices from `logIndex`:
the queue after the votes, and the last of these indices whose ballot is
granted (`lci` if none is). A position past the queue's end stops the loop;
the range check of `commit_at` keeps it from being reached. -/
def grantLoop (peer : Peer) (pendingIndex : Int) :
    Nat → Int → Hint → List β → Int → List β × Int
  | 0, _, _, q, lci => (q, lci)
  | n + 1, logIndex, hint, q, lci =>
    match q[(logIndex - pendingIndex).toNat]? with
    | none => (q, lci)
    | some bl =>
      let r := L.grant bl peer hint
      grantLoop peer pendingIndex n (logIndex + 1) r.2 (q.set (logIndex - pendingIndex).toNat r.1)
        (if L.granted r.1 then logIndex else lci)

/-- `commit_at(first_log_index, last_log_index, peer)`. -/
def commitAt (firstLogIndex lastLogIndex : Int) (peer : Peer) (s : BallotBox β) :
    Nat × BallotBox β :=
  if s.pendingIndex = 0 then (EINVAL, s)
  else if lastLogIndex < s.pendingIndex then (0, s)
  else if lastLogIndex ≥ s.pendingIndex + s.pendingMetaQueue.length then (ERANGE, s)
  else
    let startAt := max s.pendingIndex firstLogIndex
    let r := grantLoop L peer s.pendingIndex (lastLogIndex + 1 - startAt).toNat startAt L.posHint
      s.pendingMetaQueue 0
    if r.2 = 0 then (0, { s with pendingMetaQueue := r.1 })
    else (0, ⟨r.2, r.2 + 1, r.1.drop (r.2 + 1 - s.pendingIndex).toNat⟩)

/-- `clear_pending_tasks()`. -/
def clearPendingTasks (s : BallotBox β) : BallotBox β :=
  { s with pendingMetaQueue := [], pendingIndex := 0 }

/-- `reset_pending_index(new_pending_index)`, past its `MCHECK`s. -/
def resetPendingIndex (newPendingIndex : Int) (s : BallotBox β) : BallotBox β :=
  { s with pendingIndex := newPendingIndex }

/-- `append_pending_task(conf, old_conf, closure)` with `bl` the ballot
`Ballot::init` built (`none` when it failed and the call returns -1). -/
def appendPendingTask (bl : Option β) (s : BallotBox β) : Int × BallotBox β :=
  match bl with
  | none => (-1, s)
  | some b => (0, { s with pendingMetaQueue := s.pendingMetaQueue ++ [b] })

/-- `set_last_committed_index(last_committed_index)`. -/
def setLastCommittedIndex (lastCommittedIndex : Int) (s : BallotBox β) : Int × BallotBox β :=
  if s.pendingIndex ≠ 0 ∨ s.pendingMetaQueue.isEmpty = false then (-1, s)
  else if lastCommittedIndex < s.lastCommittedIndex then (EINVAL, s)
  else if lastCommittedIndex > s.lastCommittedIndex then
    (0, { s with lastCommittedIndex := lastCommittedIndex })
  else (0, s)

end BallotBox

/-- The calls that change a `BallotBox`. -/
inductive BallotOp (β Peer : Type)
  | commitAt (firstLogIndex lastLogIndex : Int) (peer : Peer)
  | clearPendingTasks
  | resetPendingIndex (newPendingIndex : Int)
  | appendPendingTask (bl : Option β)
  | setLastCommittedIndex (lastCommittedIndex : Int)

namespace BallotOp

variable {β Peer Hint : Type}

/-- The `MCHECK`s a call must pass: `reset_pending_index` only on an empty
box with nothing pending and past the committed index, and
`append_pending_task` only once a pending index is set. -/
def Pre {γ : Type} (s : BallotBox γ) : BallotOp β Peer → Prop
  | .resetPendingIndex n =>
    s.pendingIndex = 0 ∧ s.pendingMetaQueue.isEmpty ∧ s.lastCommittedIndex < n
  | .appendPendingTask (some _) => 0 < s.pendingIndex
  | _ => True

/-- One call. -/
def step (L : BallotLib β Peer Hint) (s : BallotBox β) : BallotOp β Peer → BallotBox β
  | .commitAt f l p => (s.commitAt L f l p).2
  | .clearPendingTasks => s.clearPendingTasks
  | .resetPendingIndex n => s.resetPendingIndex n
  | .appendPendingTask bl => (s.appendPendingTask bl).2
  | .setLastCommittedIndex i => (s.setLastCommittedIndex i).2

end BallotOp

end Melon.Raft
