/-
Melon.Raft.MemoryLog — the model of `raft::MemoryLogStorage`
(`src/unnamed/part_005`), the log storage that keeps the entries in a
`std::deque` between the bounds `_first_log_index` and `_last_log_index`.

* `LogEntry` — an entry, with the one field the storage reads: its `LogId`.
* `MemoryLogStorage` — the two bounds and the deque.
* `getEntry`, `getTerm`, `appendEntry`, `appendEntries`, `truncatePrefix`,
  `truncateSuffix`, `reset` — the member functions, statement by statement.
  A `CHECK` that fails aborts the process; a lookup says so with
  `Lookup.checkFailed`, and a deque read past its end with
  `Lookup.outOfRange`.
* `Op`, `step`, `run` — a sequence of calls from `init()`.

The mutex makes every call atomic, so a run is a sequence of calls. The
bounds are `int64_t`. `append_entry`'s `_last_log_index + 1` and its
`fetch_add(1)` wrap at `INT64_MAX` (`toInt64`). Every other sum stays in
range by itself: `truncate_prefix` subtracts 1 from an argument above
`_last_log_index`, `truncate_suffix` adds 1 to one below
`_first_log_index`, `reset` subtracts 1 from a positive one, and
`get_entry`'s `index - _first_log_index` indexes the deque as a `size_t`,
which between the bounds is the exact difference. Reference counts
(`AddRef`, `Release`) do not change what the storage holds and are left
out.
-/
import Mathlib.Data.List.Basic
import Mathlib.Algebra.Group.Int

namespace Melon.Raft

/-- The fields of `LogId`. -/
structure LogId where
  index : Int
  term : Int
  deriving DecidableEq, Repr

/-- A `LogEntry`, with the one field `MemoryLogStorage` reads. -/
structure LogEntry where
  id : LogId
  deriving DecidableEq, Repr

/-- The members of `MemoryLogStorage`. -/
structure MemoryLogStorage where
  firstLogIndex : Int
  lastLogIndex : Int
  logEntryData : List LogEntry
  deriving DecidableEq, Repr

/-- The range of `int64_t`. -/
def INT64_MIN : Int := -2 ^ 63
def INT64_MAX : Int := 2 ^ 63 - 1

/-- An `int64_t` sum as gcc computes it and as `fetch_add` does on an
`std::atomic<int64_t>`: modulo 2^64, into `[INT64_MIN, INT64_MAX]`. -/
def toInt64 (v : Int) : Int := (v + 2 ^ 63) % 2 ^ 64 - 2 ^ 63

/-- `ERANGE` and `EINVAL` as Linux numbers them. -/
def ERANGE : Nat := 34
def EINVAL : Nat := 22

/-- A fresh storage after `init()`: `_first_log_index` is 1, `_last_log_index`
is 0 and the deque is empty. -/
def MemoryLogStorage.init : MemoryLogStorage := ⟨1, 0, []⟩

/-- What a lookup does: return `NULL` (or 0), return a value, fail the `CHECK`
on the entry's index, or read past the end of the deque. -/
inductive Lookup (α : Type)
  | null
  | found (a : α)
  | checkFailed
  | outOfRange
  deriving DecidableEq, Repr

def Lookup.map {α β : Type} (f : α → β) : Lookup α → Lookup β
  | .null => .null
  | .found a => .found (f a)
  | .checkFailed => .checkFailed
  | .outOfRange => .outOfRange

namespace MemoryLogStorage

variable (s : MemoryLogStorage)

/-- `get_entry(index)`: `NULL` outside the bounds, else the deque's element
`index - _first_log_index`, whose index is `CHECK`ed. -/
def getEntry (index : Int) : Lookup LogEntry :=
  if index < s.firstLogIndex ∨ index > s.lastLogIndex then .null
  else match s.logEntryData[(index - s.firstLogIndex).toNat]? with
    | none => .outOfRange
    | some e => if e.id.index = index then .found e else .checkFailed

/-- `get_term(index)`: the same lookup, returning the term (and 0 for
`NULL`). -/
def getTerm (index : Int) : Lookup Int := (s.getEntry index).map (·.id.term)

/-- `append_entry(e)`: only the index `_last_log_index + 1` is accepted
(any other fails `CHECK(false)` and returns `ERANGE`); the sum and the
`fetch_add` wrap at `INT64_MAX`. -/
def appendEntry (e : LogEntry) : Nat × MemoryLogStorage :=
  if e.id.index ≠ toInt64 (s.lastLogIndex + 1) then (ERANGE, s)
  else (0, { s with logEntryData := s.logEntryData ++ [e], lastLogIndex := toInt64 (s.lastLogIndex + 1) })

/-- `append_entries(entries)`: `append_entry` on each, results ignored. -/
def appendEntries (es : List LogEntry) : Nat × MemoryLogStorage :=
  if es.isEmpty then (0, s) else (es.length, es.foldl (fun s e => (s.appendEntry e).2) s)

/-- `truncate_prefix(first_index_kept)`: pop the front entries below
`first_index_kept`, store it as `_first_log_index`, and pull
`_last_log_index` up to `first_index_kept - 1` if it is now below. -/
def truncatePrefix (firstIndexKept : Int) : MemoryLogStorage :=
  let s := { s with
    logEntryData := s.logEntryData.dropWhile fun e => decide (e.id.index < firstIndexKept)
    firstLogIndex := firstIndexKept }
  if s.firstLogIndex > s.lastLogIndex then { s with lastLogIndex := firstIndexKept - 1 } else s

/-- `truncate_suffix(last_index_kept)`: pop the back entries above
`last_index_kept`, store it as `_last_log_index`, and push
`_first_log_index` down to `last_index_kept + 1` if it is now above. -/
def truncateSuffix (lastIndexKept : Int) : MemoryLogStorage :=
  let s := { s with
    logEntryData :=
      (s.logEntryData.reverse.dropWhile fun e => decide (e.id.index > lastIndexKept)).reverse
    lastLogIndex := lastIndexKept }
  if s.firstLogIndex > s.lastLogIndex then { s with firstLogIndex := lastIndexKept + 1 } else s

/-- `reset(next_log_index)`: `EINVAL` for a non-positive index, else an empty
deque between `next_log_index` and `next_log_index - 1`. -/
def reset (nextLogIndex : Int) : Nat × MemoryLogStorage :=
  if nextLogIndex ≤ 0 then (EINVAL, s) else (0, ⟨nextLogIndex, nextLogIndex - 1, []⟩)

end MemoryLogStorage

/-- The calls that change the storage. -/
inductive Op
  | appendEntry (e : LogEntry)
  | appendEntries (es : List LogEntry)
  | truncatePrefix (firstIndexKept : Int)
  | truncateSuffix (lastIndexKept : Int)
  | reset (nextLogIndex : Int)

/-- One call. -/
def step (s : MemoryLogStorage) : Op → MemoryLogStorage
  | .appendEntry e => (s.appendEntry e).2
  | .appendEntries es => (s.appendEntries es).2
  | .truncatePrefix k => s.truncatePrefix k
  | .truncateSuffix k => s.truncateSuffix k
  | .reset n => (s.reset n).2

/-- A sequence of calls. -/
def run (s : MemoryLogStorage) (ops : List Op) : MemoryLogStorage := ops.foldl step s

end Melon.Raft
