/-
Melon.Rpc.HttpMessage — the model of the progressive body of `HttpMessage`
(`src/melon/rpc/http/http_message.cc`): the parser thread calling `OnBody`
and `OnMessageComplete`, another thread calling `SetBodyReader`, and the
destructor, sharing `_body`, `_body_reader` and `_stage` under
`_body_mutex`.

* `HttpMessage` — the shared members, each thread's program counter with
  the locals it carries, what is left of each thread's calls, and the log
  of the calls the readers receive, in the order they are made.
* `parserStep`, `setterStep`, `destroy` — one atomic step: a critical
  section under the mutex, or one call of a reader's method outside it.
  A call to `OnEndOfMessage` right after a critical section touches only
  the reader, so it is made in the same step.
* `step`, `run` — a schedule picks the thread that moves, and what a
  user's `OnReadOnePart` returns. A choice of a thread that cannot move
  changes nothing.

`_body` is an `IOBuf`; its blocks are the chunks appended, and the
`backing_block`s a flush walks are those blocks (an `IOBuf` never holds an
empty block). `http_message.h` is not among the sources: `_stage <=
HTTP_ON_BODY` is `complete = false`, `HTTP_ON_MESSAGE_COMPLETE` being the
one stage after `HTTP_ON_BODY`. The verbose-log builder only logs, and is
left out.
-/
import Mathlib.Data.List.Basic
import Mathlib.Algebra.Order.Ring.Nat

namespace Melon.Rpc

/-- A `ProgressiveReader`: the `i`-th one a user passes to `SetBodyReader`,
or the shared `FailAllRead`. -/
inductive Reader
  | user (i : Nat)
  | failAll
  deriving DecidableEq, Repr

/-- The `mutil::Status` an `OnEndOfMessage` carries. -/
inductive Status
  | ok
  | eperm
  | econnreset
  /-- The status a failed `OnReadOnePart` returned. -/
  | error (code : Int)
  deriving DecidableEq, Repr

/-- A call a reader receives: `OnReadOnePart(data)` with what it returned
(`none` for OK), or `OnEndOfMessage(st)`. -/
inductive Event (α : Type)
  | part (r : Reader) (data : List α) (res : Option Int)
  | eom (r : Reader) (st : Status)
  deriving DecidableEq, Repr

/-- What `r->OnReadOnePart` returns: a user's reader what the schedule
says, `FailAllRead` always `Status(-1, ...)`. -/
def Reader.onReadOnePart (res : Option Int) : Reader → Option Int
  | .user _ => res
  | .failAll => some (-1)

/-- The constructor's `read_body_progressively` and
`FLAGS_socket_max_unwritten_bytes`. -/
structure Settings where
  readBodyProgressively : Bool
  socketMaxUnwrittenBytes : Int

/-- Where the parser thread is. -/
inductive ParserPc (α : Type)
  /-- Between two calls. -/
  | next
  /-- `OnBody(c)` at the lock, at its first try or after a sleep. -/
  | onBody (c : List α)
  /-- `OnBody`'s `UnlockAndFlushToBodyReader` and then the direct
  `OnReadOnePart(c)`: the parts still to hand to `r`, `c` last. -/
  | flush (r : Reader) (parts : List (List α))
  /-- `OnMessageComplete`'s `UnlockAndFlushToBodyReader`. -/
  | completeFlush (r : Reader) (parts : List (List α))
  /-- `OnMessageComplete` after its flush, at the lock again. -/
  | completeEnd
  /-- Every call returned 0. -/
  | done
  /-- A call returned -1: the parser stops. -/
  | failed
  /-- A method was called through a null `_body_reader`. -/
  | crashed
  deriving DecidableEq, Repr

/-- Where the thread calling `SetBodyReader` is. -/
inductive SetterPc (α : Type)
  /-- Between two calls. -/
  | next
  /-- The top of the `do`-`while` loop, with the local `r` and `ntry`. -/
  | loop (r : Reader) (ntry : Nat)
  /-- Handing the blocks of `body_seen` to `r` outside the lock. -/
  | deliver (r : Reader) (ntry : Nat) (parts : List (List α))
  deriving DecidableEq, Repr

/-- The parser is between two calls or has stopped. -/
def ParserPc.idle {α : Type} : ParserPc α → Bool
  | .next | .done | .failed => true
  | _ => false

/-- The setter is between two calls. -/
def SetterPc.idle {α : Type} : SetterPc α → Bool
  | .next => true
  | _ => false

/-- The members both threads share, the two threads, and the log. -/
structure HttpMessage (α : Type) where
  body : List (List α)
  bodyReader : Option Reader
  /-- `_stage == HTTP_ON_MESSAGE_COMPLETE`. -/
  complete : Bool
  parser : ParserPc α
  /-- The chunks the parser has still to pass to `OnBody`. -/
  chunks : List (List α)
  /-- Whether `OnMessageComplete` follows them. -/
  completes : Bool
  setter : SetterPc α
  /-- The readers still to be passed to `SetBodyReader`, in order. -/
  readers : List Nat
  destroyed : Bool
  log : List (Event α)
  deriving DecidableEq, Repr

/-- A choice of the schedule: which thread moves, and what a user's
`OnReadOnePart` returns if that step calls it. -/
inductive Choice
  | parser (res : Option Int)
  | setter (res : Option Int)
  | destroy
  deriving DecidableEq, Repr

namespace HttpMessage

variable {α : Type} (cfg : Settings)

/-- The constructor, with the parser's calls and the readers to come. -/
def init (chunks : List (List α)) (completes : Bool) (readers : List Nat) : HttpMessage α :=
  ⟨[], none, false, .next, chunks, completes, .next, readers, false, []⟩

/-- `_body.append(at, length)`. -/
def append (body : List (List α)) (c : List α) : List (List α) :=
  if c.isEmpty then body else body ++ [c]

/-- `_body.size()`. -/
def bodySize (body : List (List α)) : Nat := (body.map List.length).sum

/-- A failed `OnReadOnePart` in a flush or in `OnBody`: `_body_reader =
nullptr` under the lock, then `r->OnEndOfMessage(st)`, and `return -1`. -/
def failRead (s : HttpMessage α) (r : Reader) (p : List α) (e : Int) : HttpMessage α :=
  { s with bodyReader := none, parser := .failed,
           log := s.log ++ [.part r p (some e), .eom r (.error e)] }

/-- One step of the parser thread. -/
def parserStep (s : HttpMessage α) (res : Option Int) : Option (HttpMessage α) :=
  match s.parser with
  | .next =>
    match s.chunks with
    | c :: cs =>
      if cfg.readBodyProgressively then some { s with parser := .onBody c, chunks := cs }
      else some { s with body := append s.body c, chunks := cs }
    | [] =>
      if s.completes then
        if cfg.readBodyProgressively then
          match s.bodyReader with
          | none => some { s with complete := true, parser := .done }
          | some r => some { s with complete := true, body := [], parser := .completeFlush r s.body }
        else some { s with complete := true, parser := .done }
      else none
  | .onBody c =>
    match s.bodyReader with
    | none =>
      if (bodySize s.body : Int) ≤ cfg.socketMaxUnwrittenBytes then
        some { s with body := append s.body c, parser := .next }
      else some s
    | some r => some { s with body := [], parser := .flush r (s.body ++ [c]) }
  | .flush r (p :: ps) =>
    match r.onReadOnePart res with
    | none => some { s with parser := if ps.isEmpty then .next else .flush r ps,
                            log := s.log ++ [.part r p none] }
    | some e => some (s.failRead r p e)
  | .flush _ [] => some { s with parser := .next }
  | .completeFlush r (p :: ps) =>
    match r.onReadOnePart res with
    | none => some { s with parser := if ps.isEmpty then .completeEnd else .completeFlush r ps,
                            log := s.log ++ [.part r p none] }
    | some e => some (s.failRead r p e)
  | .completeFlush _ [] => some { s with parser := .completeEnd }
  | .completeEnd =>
    match s.bodyReader with
    | some r => some { s with bodyReader := none, parser := .done, log := s.log ++ [.eom r .ok] }
    | none => some { s with parser := .crashed }
  | .done | .failed | .crashed => none

/-- One step of the thread calling `SetBodyReader`. -/
def setterStep (s : HttpMessage α) (res : Option Int) : Option (HttpMessage α) :=
  match s.setter with
  | .next =>
    match s.readers with
    | i :: is =>
      if cfg.readBodyProgressively then some { s with setter := .loop (.user i) 0, readers := is }
      else some { s with readers := is, log := s.log ++ [.eom (.user i) .eperm] }
    | [] => none
  | .loop r ntry =>
    match s.bodyReader with
    | some _ => some { s with setter := .next, log := s.log ++ [.eom r .eperm] }
    | none =>
      if s.body.isEmpty then
        if s.complete then some { s with setter := .next, log := s.log ++ [.eom r .ok] }
        else some { s with bodyReader := some r, setter := .next }
      else if !s.complete && 3 ≤ ntry + 1 then some { s with bodyReader := some r, setter := .next }
      else some { s with body := [], setter := .deliver r (if s.complete then ntry else ntry + 1) s.body }
  | .deliver r ntry [] => some { s with setter := .loop r ntry }
  | .deliver r ntry (p :: ps) =>
    match r.onReadOnePart res with
    | none => some { s with setter := .deliver r ntry ps, log := s.log ++ [.part r p none] }
    | some e => some { s with setter := .loop .failAll 3,
                              log := s.log ++ [.part r p (some e), .eom r (.error e)] }

/-- `~HttpMessage()`, once neither thread is inside a call. -/
def destroy (s : HttpMessage α) : Option (HttpMessage α) :=
  if s.parser.idle && s.setter.idle then
    some { s with destroyed := true, bodyReader := none,
                  log := s.log ++ (s.bodyReader.map fun r => Event.eom r .econnreset).toList }
  else none

/-- One step of the schedule; nothing moves once the message is gone. -/
def step (s : HttpMessage α) : Choice → Option (HttpMessage α)
  | .parser res => if s.destroyed then none else s.parserStep cfg res
  | .setter res => if s.destroyed then none else s.setterStep cfg res
  | .destroy => if s.destroyed then none else s.destroy

/-- A schedule, from `s`. -/
def run (s : HttpMessage α) (sched : List Choice) : HttpMessage α :=
  sched.foldl (fun s ch => (s.step cfg ch).getD s) s

end HttpMessage

end Melon.Rpc
