/-
Melon.Naming.SnsNamingClient — the model of
`SnsNamingClient::register_peer` (`src/melon/naming/consul_naming_service.cc`):
the `_registered` flag, the check of the peer, `do_register` and the start
of the renewal fiber.

* `SnsPeer`, `isValid` — the six fields `is_valid` reads, each to be set
  and not empty.
* `SnsClient` — `_registered`, `_params`, `_current_discovery_server`,
  and whether `_th` is a started `periodic_renew` fiber.
* `RegisterReply`, `SnsClient.doRegister` — `do_register()` against what
  the discovery server does.
* `SnsClient.registerPeer` — one whole call; `SnsClient.registerPeers`, a
  sequence of them.
* `SnsThread`, `SnsSystem.step`, `SnsSystem.run` — calls from several
  threads, interleaved at `_registered`.

The proto types are not among the sources: a peer is the six optional
strings `is_valid` reads, `melon::Errno` is `OK`, `AlreadyExists` or
another code, and `cntl.remote_side()` is a value of a type `Srv`. The
logs are left out, as are the renewal loop and the destructor, which run
after the calls modelled here.

`_registered.load(relaxed) || _registered.exchange(true, release)` is one
step (`claim`): the load answers `true` only when the flag is set, the
flag is never reset, and the exchange would then answer `true` as well.
After it, only the thread whose exchange answered `false` touches the
client, so the rest of the call is one step too.
-/
import Mathlib.Data.List.Basic

namespace Melon.Naming

/-- The fields of a `melon::SnsPeer` that `is_valid` reads; `none` when
`has_x()` is false. -/
structure SnsPeer where
  appName : Option (List Char)
  zone : Option (List Char)
  servletName : Option (List Char)
  env : Option (List Char)
  color : Option (List Char)
  address : Option (List Char)
  deriving DecidableEq, Repr

/-- `peer.has_x() && !peer.x().empty()`. -/
def present : Option (List Char) → Bool
  | some s => !s.isEmpty
  | none => false

/-- `is_valid(peer)`. -/
def isValid (p : SnsPeer) : Bool :=
  present p.appName && present p.zone && present p.servletName && present p.env && present p.color &&
    present p.address

/-- `melon::Errno`, as `do_register` reads it. -/
inductive SnsErrno
  | OK
  | AlreadyExists
  | other (code : Int)
  deriving DecidableEq, Repr

/-- What `do_register` meets: no channel (`make_sns_channel` fails), a
failed RPC, or the server's `errcode` with `cntl.remote_side()`. -/
inductive RegisterReply (Srv : Type)
  | noChannel
  | failed
  | answered (errcode : SnsErrno) (remoteSide : Srv)
  deriving DecidableEq, Repr

/-- What one call of `register_peer` is given and meets: its argument,
the discovery server's reply, and whether `fiber_start_background`
succeeds. -/
structure RegisterCall (Srv : Type) where
  peer : SnsPeer
  reply : RegisterReply Srv
  fiberStarts : Bool
  deriving DecidableEq, Repr

/-- The members of `SnsNamingClient` that `register_peer` reads and
writes. -/
structure SnsClient (Srv : Type) where
  registered : Bool
  params : Option SnsPeer
  currentDiscoveryServer : Option Srv
  /-- `_th` is a started `periodic_renew` fiber. -/
  renewing : Bool
  deriving DecidableEq, Repr

namespace SnsClient

variable {Srv : Type}

/-- `SnsNamingClient()`: `_th(INVALID_FIBER), _registered(false)`. -/
def init : SnsClient Srv := ⟨false, none, none, false⟩

/-- `do_register()`. -/
def doRegister (c : SnsClient Srv) : RegisterReply Srv → Int × SnsClient Srv
  | .noChannel => (-1, c)
  | .failed => (-1, c)
  | .answered e remote =>
    if e ≠ .OK ∧ e ≠ .AlreadyExists then (-1, c) else (0, { c with currentDiscoveryServer := some remote })

/-- The load and the exchange of `_registered`: whether the call returns
0 at once, and the client after. -/
def claim (c : SnsClient Srv) : Bool × SnsClient Srv :=
  if c.registered then (true, c) else (false, { c with registered := true })

/-- `register_peer` after the flag: the check, `_params = params`,
`do_register()` and the renewal fiber. -/
def registerRest (c : SnsClient Srv) (call : RegisterCall Srv) : Int × SnsClient Srv :=
  if !isValid call.peer then (-1, c)
  else
    let r := { c with params := some call.peer }.doRegister call.reply
    if r.1 ≠ 0 then (-1, r.2)
    else if !call.fiberStarts then (-1, r.2)
    else (0, { r.2 with renewing := true })

/-- `register_peer(params)`, with no other call in between. -/
def registerPeer (c : SnsClient Srv) (call : RegisterCall Srv) : Int × SnsClient Srv :=
  if c.claim.1 then (0, c.claim.2) else c.claim.2.registerRest call

/-- Calls one after another: what each returns, and the client after. -/
def registerPeers (c : SnsClient Srv) : List (RegisterCall Srv) → List Int × SnsClient Srv
  | [] => ([], c)
  | call :: calls =>
    let r := (c.registerPeer call).2.registerPeers calls
    ((c.registerPeer call).1 :: r.1, r.2)

end SnsClient

/-- Where a thread's call of `register_peer` is. -/
inductive CallPc
  | ready
  /-- Its exchange answered `false`: it checks and registers. -/
  | claimed
  /-- It returned 0 at the flag. -/
  | returnedAtFlag
  /-- It returned `ret` after checking and registering. -/
  | returned (ret : Int)
  deriving DecidableEq, Repr

/-- A thread in a call of `register_peer`. -/
structure SnsThread (Srv : Type) where
  call : RegisterCall Srv
  pc : CallPc
  deriving DecidableEq, Repr

/-- One client and the threads calling `register_peer` on it. -/
structure SnsSystem (Srv : Type) where
  client : SnsClient Srv
  threads : List (SnsThread Srv)
  deriving DecidableEq, Repr

namespace SnsSystem

variable {Srv : Type}

/-- Thread `i` takes its next step. -/
def step (s : SnsSystem Srv) (i : Nat) : SnsSystem Srv :=
  match s.threads[i]? with
  | some t =>
    match t.pc with
    | .ready =>
      if s.client.claim.1 then ⟨s.client.claim.2, s.threads.set i { t with pc := .returnedAtFlag }⟩
      else ⟨s.client.claim.2, s.threads.set i { t with pc := .claimed }⟩
    | .claimed =>
      ⟨(s.client.registerRest t.call).2,
        s.threads.set i { t with pc := .returned (s.client.registerRest t.call).1 }⟩
    | _ => s
  | none => s

/-- The threads take steps in the order of `sched`. -/
def run (s : SnsSystem Srv) (sched : List Nat) : SnsSystem Srv := sched.foldl step s

end SnsSystem

end Melon.Naming
