/-
Melon.Base.EndPoint — the model of `end_point` variables and the extended
`end_point`s they embed, in one thread (`src/unnamed/part_004`).

* `EndPoint` — `ip` (its `s_addr`) and `port`; it embeds the
  `ExtendedEndPoint` whose id is `ip` when `port` is
  `EXTENDED_ENDPOINT_PORT`.
* `SockAddr` — the `_socklen` bytes of `_u` that `Hash` and `Equals`
  compare; `EpState` — the resources, `GlobalEndPointSet::_set`, and the
  variables.
* `decRef`, `incRef`, `dedup`, `embedTo`, `reset`, `setEndpoint`,
  `create`, `createPort`, `createSockaddr` — the members of
  `ExtendedEndPoint` and `end_point`.
* `str2endpoint`, `str2endpointPort`, `hostname2endpoint`,
  `hostname2endpointPort`, `sockaddr2endpoint`, `endpoint2str` — the API.
* `ip2hostname`, `toHostname`, `endpoint2hostname` — the name of an
  `end_point`, from `getnameinfo` (`NameEnv`); `ByteOrder.net16` is a
  port stored in network byte order, read on a host of either order.
* `EndPointOp.step`, `run` — one call on a variable, and a sequence.

A function returns `none` where the code stops at a `MELON_CHECK`, or
where the caller names a variable that does not exist. `get_resource`
hands out the id `fresh` that the call names, when it is free.
`address_resource` is taken to find every id. What the code calls that is
not among the sources comes in `Env`: `melon::trim_all`, `inet_pton` and
`inet_ntop` for `AF_INET6`, and `gethostbyname_r`. A `sockaddr_in6` is
passed with `size == sizeof(sockaddr_in6)`.
-/
import Melon.Base.ExtendedEndPoint
import Melon.Base.Libc

namespace Melon.Base

/-- `EXTENDED_ENDPOINT_PORT`. -/
def EXTENDED_ENDPOINT_PORT : Int := 123456789

/-- `IP_ANY`, that is `INADDR_ANY`. -/
def IP_ANY : UInt32 := 0

/-- `INET6_ADDRSTRLEN` and `sizeof(sockaddr_un::sun_path)`. -/
def INET6_ADDRSTRLEN : Nat := 46
def UDS_PATH_SIZE : Nat := 108

/-- An `end_point`. -/
structure EndPoint where
  ip : UInt32
  port : Int
  deriving DecidableEq, Repr

/-- `ExtendedEndPoint::is_extended`. -/
def EndPoint.isExtended (e : EndPoint) : Bool := e.port == EXTENDED_ENDPOINT_PORT

/-- The `_socklen` bytes of an `ExtendedEndPoint`'s `_u`. -/
inductive SockAddr (In6 : Type)
  /-- `sockaddr_in6`: address, port, `sin6_flowinfo`, `sin6_scope_id`. -/
  | in6 (addr : In6) (port flowinfo scopeId : Nat)
  /-- `sockaddr_un`: the bytes of `sun_path` within `_socklen`. -/
  | un (path : List Char)
  deriving DecidableEq, Repr

/-- The `sockaddr_storage` and `size` given to `sockaddr2endpoint`. -/
inductive SockAddrStorage (In6 : Type)
  | inet (ip : UInt32) (port : UInt16)
  | in6 (addr : In6) (port : UInt16) (flowinfo scopeId : Nat)
  /-- `AF_UNIX`: the `size - offsetof(sockaddr_un, sun_path)` bytes of
  `sun_path` that `memcpy` copies. -/
  | un (path : List Char)
  | other
  deriving DecidableEq, Repr

/-- The resources, `GlobalEndPointSet::_set` and the pool's calls, as in
the model with threads (`threads` stays empty), and the `end_point`
variables, `none` once destroyed. -/
structure EpState (In6 : Type) extends EpSystem (SockAddr In6) where
  vars : List (Option EndPoint)

/-- What the code calls that is not among the sources. -/
structure Env (In6 : Type) where
  trimAll : List Char → List Char
  pton6 : List Char → Option In6
  ntop6 : In6 → List Char
  /-- `gethostbyname_r`'s first address. -/
  gethostbyname : List Char → Option UInt32

/-- `getnameinfo(..., NI_NAMEREQD)` of an IPv4 and of an IPv6 address:
the name, or `none` when there is none. A name that does not fit in
`host_len` fails too (`EAI_OVERFLOW`). -/
structure NameEnv (In6 : Type) where
  getnameinfo4 : UInt32 → Option (List Char)
  getnameinfo6 : In6 → Option (List Char)

/-- The byte order of the host. -/
inductive ByteOrder
  | little
  | big
  deriving DecidableEq, Repr

/-- A port stored in network byte order (`htons`), read as a host
`uint16_t`. -/
def ByteOrder.net16 : ByteOrder → Nat → Nat
  | .big, p => p
  | .little, p => p % 256 * 256 + p / 256

/-- `snprintf(buf, n, ...)` of `text`: at most `n - 1` characters. -/
def snprintfText (n : Nat) (text : List Char) : List Char := text.take (n - 1)

namespace EpState

variable {In6 : Type} [DecidableEq In6] (s : EpState In6)

/-- No variable, and every resource in the pool. -/
def empty : EpState In6 := { EpSystem.init [] with vars := [] }

/-- The resources, the set and the log changed by `f`. -/
def sys (f : EpSystem (SockAddr In6) → EpSystem (SockAddr In6)) : EpState In6 :=
  { s with toEpSystem := f s.toEpSystem }

/-- Variable `v`, if it exists. -/
def var (v : Nat) : Option EndPoint := s.vars[v]?.join

def setVar (v : Nat) (e : EndPoint) : EpState In6 := { s with vars := s.vars.set v (some e) }

/-- `dec_ref` on resource `x`. -/
def decRef (x : Nat) : Option (EpState In6) :=
  let old := (s.slots x).refCount
  let s₁ := s.sys (·.setSlot x { s.slots x with refCount := old - 1 })
  if old < 1 then none
  else if old = 1 then
    some (s₁.sys fun t => (t.erase x).returnResource x { t.slots x with addr := none, live := false })
  else some s₁

/-- `inc_ref` on resource `x`. -/
def incRef (x : Nat) : Option (EpState In6) :=
  if (s.slots x).refCount < 1 then none
  else some (s.sys (·.setSlot x { s.slots x with refCount := (s.slots x).refCount + 1 }))

/-- `end_point::reset()` of variable `v`, which is `e`. -/
def resetVar (v : Nat) (e : EndPoint) : Option (EpState In6) :=
  if e.isExtended then (s.decRef e.ip.toNat).map (·.setVar v ⟨IP_ANY, 0⟩)
  else some (s.setVar v ⟨IP_ANY, 0⟩)

/-- `set_endpoint(ep, ip, port)` on variable `v`. -/
def setEndpoint (v : Nat) (e : EndPoint) : Option (EpState In6) :=
  if e.isExtended then (s.setVar v e).incRef e.ip.toNat else some (s.setVar v e)

/-- `new_extended_endpoint`, `_u` filled in: `get_resource` hands out
`fresh`. -/
def newExtendedEndpoint (fresh : Nat) (a : SockAddr In6) : Option (EpState In6) :=
  let r := s.slots fresh
  if r.live then none
  else if r.refCount ≠ 0 ∨ r.addr ≠ none then none
  else some (s.sys (·.getResource fresh ⟨1, some a, true⟩))

/-- `dedup(p)`: `GlobalEndPointSet::insert`, and `p` back to the pool
when another entry is found; the entry to embed, and the state. -/
def dedup (p : Nat) : Nat × EpState In6 :=
  let r := s.toEpSystem.insert p
  if r.1 = p then (p, s.sys fun _ => r.2)
  else (r.1, s.sys fun _ => r.2.returnResource p ⟨0, none, false⟩)

/-- `embed_to(ep)` of resource `x` into variable `v`. -/
def embedTo (x v : Nat) : Option (EpState In6) :=
  if 2 ^ 32 ≤ x then none
  else match s.var v with
    | none => none
    | some e => (s.resetVar v e).map (·.setVar v ⟨UInt32.ofNat x, EXTENDED_ENDPOINT_PORT⟩)

/-- A new `ExtendedEndPoint` for `a`, `dedup`ed and embedded into `v`. -/
def newEmbed (a : SockAddr In6) (v fresh : Nat) : Option (Option Nat × EpState In6) :=
  (s.newExtendedEndpoint fresh a).bind fun s₁ =>
    let d := s₁.dedup fresh
    (d.2.embedTo d.1 v).map fun s₂ => (some d.1, s₂)

variable (env : Env In6)

/-- `ExtendedEndPoint::create(sp, port, ep)`: the resource embedded, if
any, and the state. -/
def createPort (sp : List Char) (port : Int) (v fresh : Nat) : Option (Option Nat × EpState In6) :=
  let sp := env.trimAll sp
  if sp = [] then some (none, s)
  else if sp.head? = some '[' ∧ 0 ≤ port ∧ port ≤ 65535 then
    if sp.getLast? ≠ some ']' ∨ sp.length = 2 ∨ INET6_ADDRSTRLEN ≤ sp.length - 2 then some (none, s)
    else match env.pton6 ((sp.drop 1).take (sp.length - 2)) with
      | none => some (none, s)
      | some a => s.newEmbed (.in6 a port.toNat 0 0) v fresh
  else if "unix:".toList.isPrefixOf sp then
    let path := sp.drop 5
    if path = [] ∨ UDS_PATH_SIZE ≤ path.length then some (none, s)
    else s.newEmbed (.un (path ++ ['\x00'])) v fresh
  else some (none, s)

/-- `ExtendedEndPoint::create(sp, ep)`. -/
def create (sp : List Char) (v fresh : Nat) : Option (Option Nat × EpState In6) :=
  let sp := env.trimAll sp
  match sp with
  | [] => some (none, s)
  | '[' :: _ =>
    match sp.findIdx? (· == ']') with
    | none => some (none, s)
    | some c =>
      let portSp := sp.drop (c + 1)
      if c = 1 ∨ sp.length ≤ c + 1 then some (none, s)
      else if portSp.length < 2 ∨ portSp.head? ≠ some ':' then some (none, s)
      else
        let buf := portSp.drop 1
        if 5 < buf.length then some (none, s)
        else if (strtol buf).2 ≠ buf.length then some (none, s)
        else s.createPort env (sp.take (c + 1)) (toCInt (strtol buf).1) v fresh
  | _ => if "unix:".toList.isPrefixOf sp then s.createPort env sp EXTENDED_ENDPOINT_PORT v fresh
    else some (none, s)

/-- `ExtendedEndPoint::create(ss, size, ep)`. -/
def createSockaddr (ss : SockAddrStorage In6) (v fresh : Nat) : Option (Option Nat × EpState In6) :=
  match ss with
  | .in6 a port flow scope => s.newEmbed (.in6 a port.toNat flow scope) v fresh
  | .un path => s.newEmbed (.un path) v fresh
  | _ => some (none, s)

/-- `str2ip(ip_str, &ip)`. -/
def str2ip (str : List Char) : Option UInt32 := inetPton4 (str.dropWhile isspace)

/-- `hostname2ip(hostname, &ip)`. -/
def hostname2ip (str : List Char) : Option UInt32 := env.gethostbyname (str.dropWhile isspace)

/-- What `str2endpoint(str, point)` does after `str2ip` wrote `ip` into
variable `v`, which was `e`: the port, read by `strtol` from `rest`. -/
def str2endpointPort (e : EndPoint) (ip : UInt32) (rest : List Char) (v : Nat) : Int × EpState In6 :=
  let p := strtol rest
  let s₁ := s.setVar v { e with ip := ip, port := toCInt p.1 }
  if p.2 = 0 then (-1, s₁)
  else if p.2 < rest.length ∧ (rest.drop (p.2 + 1)).dropWhile isspace ≠ [] then (-1, s₁)
  else if toCInt p.1 < 0 ∨ 65535 < toCInt p.1 then (-1, s₁)
  else (0, s₁)

/-- `str2endpoint(str, point)` on variable `v`: the return code, and the
state. -/
def str2endpoint (str : List Char) (v fresh : Nat) : Option (Int × EpState In6) :=
  match s.var v with
  | none => none
  | some e =>
    (s.create env str v fresh).bind fun r =>
      if r.1.isSome then some (0, r.2)
      else
        let pre := str.takeWhile (· != ':')
        if 64 ≤ pre.length ∨ pre.length = str.length then some (-1, s)
        else match str2ip pre with
          | none => some (-1, s)
          | some ip => some (s.str2endpointPort e ip (str.drop (pre.length + 1)) v)

/-- `str2endpoint(ip_str, port, point)` on variable `v`. -/
def str2endpointWithPort (str : List Char) (port : Int) (v fresh : Nat) : Option (Int × EpState In6) :=
  match s.var v with
  | none => none
  | some e =>
    (s.createPort env str port v fresh).bind fun r =>
      if r.1.isSome then some (0, r.2)
      else
        match str2ip str with
        | none => some (-1, s)
        | some ip =>
          if port < 0 ∨ 65535 < port then some (-1, s.setVar v { e with ip := ip })
          else some (0, s.setVar v ⟨ip, port⟩)

/-- `hostname2endpoint(str, point)` on variable `v`. -/
def hostname2endpoint (str : List Char) (v : Nat) : Option (Int × EpState In6) :=
  match s.var v with
  | none => none
  | some e =>
    let pre := str.takeWhile (· != ':')
    if 63 ≤ pre.length then some (-1, s)
    else match hostname2ip env pre with
      | none => some (-1, s)
      | some ip =>
        let rest := str.drop (if pre.length < str.length then pre.length + 1 else pre.length)
        let p := strtol rest
        let s₁ := s.setVar v { e with ip := ip, port := toCInt p.1 }
        if p.2 = 0 then some (-1, s₁)
        else if (rest.drop p.2).dropWhile isspace ≠ [] then some (-1, s₁)
        else if toCInt p.1 < 0 ∨ 65535 < toCInt p.1 then some (-1, s₁)
        else some (0, s₁)

/-- `hostname2endpoint(name_str, port, point)` on variable `v`. -/
def hostname2endpointWithPort (str : List Char) (port : Int) (v : Nat) : Option (Int × EpState In6) :=
  match s.var v with
  | none => none
  | some e =>
    match hostname2ip env str with
    | none => some (-1, s)
    | some ip =>
      if port < 0 ∨ 65535 < port then some (-1, s.setVar v { e with ip := ip })
      else some (0, s.setVar v ⟨ip, port⟩)

/-- `operator=` of `end_point`: `reset()`, then `set_endpoint` from the
right-hand side, read after the reset. -/
def assign (v w : Nat) : Option (EpState In6) :=
  match s.var v with
  | none => none
  | some e =>
    (s.resetVar v e).bind fun s₁ =>
      match s₁.var w with
      | none => none
      | some r => s₁.setEndpoint v r

/-- `sockaddr2endpoint(ss, size, point)` on variable `v`: an `AF_INET`
address is assigned from a temporary `end_point(sockaddr_in)`. -/
def sockaddr2endpoint (ss : SockAddrStorage In6) (v fresh : Nat) : Option (Int × EpState In6) :=
  match s.var v with
  | none => none
  | some e =>
    match ss with
    | .inet ip port =>
      (s.resetVar v e).bind fun s₁ => (s₁.setEndpoint v ⟨ip, port.toNat⟩).map fun s₂ => (0, s₂)
    | _ => (s.createSockaddr ss v fresh).map fun r => (if r.1.isSome then 0 else -1, r.2)

/-- `ExtendedEndPoint::to(end_point_str*)`. -/
def slotTo (r : Slot (SockAddr In6)) : Option (List Char) :=
  match r.addr with
  | some (.un path) => some ("unix:".toList ++ path.takeWhile (· != '\x00'))
  | some (.in6 a port _ _) => some ('[' :: env.ntop6 a ++ "]:".toList ++ decimalInt port)
  | none => none

/-- `endpoint2str(point)`. -/
def endpoint2str (e : EndPoint) : Option (List Char) :=
  if e.isExtended then slotTo env (s.slots e.ip.toNat)
  else some (inetNtop4 e.ip ++ ':' :: decimalInt e.port)

variable (nenv : NameEnv In6) (order : ByteOrder)

/-- `ip2hostname(ip, host, host_len)`: the name, with `.baidu.com`
removed from its end. -/
def ip2hostname (ip : UInt32) (hostLen : Nat) : Option (List Char) :=
  if hostLen = 0 then none
  else match nenv.getnameinfo4 ip with
    | none => none
    | some name =>
      if hostLen ≤ name.length then none
      else if ".baidu.com".toList.isSuffixOf name then some (name.take (name.length - 10)) else some name

/-- `ExtendedEndPoint::to_hostname(host, host_len)`: `none` at the
`MELON_CHECK`, `some none` when it returns -1, and otherwise the text in
`host`. The IPv6 port is `"%d"` of `_u.in6.sin6_port` as it is stored. -/
def toHostname (r : Slot (SockAddr In6)) (hostLen : Nat) : Option (Option (List Char)) :=
  match r.addr with
  | some (.un path) => some (some (snprintfText hostLen ("unix:".toList ++ path.takeWhile (· != '\x00'))))
  | some (.in6 a port _ _) =>
    match nenv.getnameinfo6 a with
    | none => some none
    | some name =>
      if hostLen ≤ name.length then some none
      else if name.length + 1 < hostLen then
        some (some (name ++ snprintfText (hostLen - name.length) (':' :: decimalInt (order.net16 port))))
      else some (some name)
  | none => none

/-- `endpoint2hostname(point, host, host_len)`, as `toHostname`. -/
def endpoint2hostname (e : EndPoint) (hostLen : Nat) : Option (Option (List Char)) :=
  if e.isExtended then toHostname nenv order (s.slots e.ip.toNat) hostLen
  else match ip2hostname nenv e.ip hostLen with
    | none => some none
    | some name =>
      if name.length + 1 < hostLen then
        some (some (name ++ snprintfText (hostLen - name.length) (':' :: decimalInt e.port)))
      else some (some name)

end EpState

/-- One call of the API on the variables. -/
inductive EndPointOp (In6 : Type)
  /-- `end_point v;` -/
  | declare
  /-- `end_point v(w);` -/
  | copy (w : Nat)
  /-- `v = w;` -/
  | assign (v w : Nat)
  | reset (v : Nat)
  /-- The end of variable `v`'s scope: `~end_point()`. -/
  | destroy (v : Nat)
  | str2endpoint (str : List Char) (v fresh : Nat)
  | str2endpointWithPort (str : List Char) (port : Int) (v fresh : Nat)
  | hostname2endpoint (str : List Char) (v : Nat)
  | hostname2endpointWithPort (str : List Char) (port : Int) (v : Nat)
  | sockaddr2endpoint (ss : SockAddrStorage In6) (v fresh : Nat)
  deriving DecidableEq, Repr

namespace EndPointOp

variable {In6 : Type} [DecidableEq In6] (env : Env In6)

/-- One call; `none` where the code stops at a check, or the call is not
one the program can make. -/
def step (s : EpState In6) : EndPointOp In6 → Option (EpState In6)
  | .declare => some { s with vars := s.vars ++ [some ⟨IP_ANY, 0⟩] }
  | .copy w =>
    match s.var w with
    | none => none
    | some e => (({ s with vars := s.vars ++ [none] } : EpState In6).setEndpoint s.vars.length e)
  | .assign v w => s.assign v w
  | .reset v => (s.var v).bind fun e => s.resetVar v e
  | .destroy v =>
    (s.var v).bind fun e => (s.resetVar v e).map fun s₁ => { s₁ with vars := s₁.vars.set v none }
  | .str2endpoint str v fresh => (s.str2endpoint env str v fresh).map Prod.snd
  | .str2endpointWithPort str port v fresh => (s.str2endpointWithPort env str port v fresh).map Prod.snd
  | .hostname2endpoint str v => (s.hostname2endpoint env str v).map Prod.snd
  | .hostname2endpointWithPort str port v => (s.hostname2endpointWithPort env str port v).map Prod.snd
  | .sockaddr2endpoint ss v fresh => (s.sockaddr2endpoint ss v fresh).map Prod.snd

/-- A sequence of calls; one that cannot be made changes nothing. -/
def run (s : EpState In6) (ops : List (EndPointOp In6)) : EpState In6 :=
  ops.foldl (fun s op => (step env s op).getD s) s

end EndPointOp

end Melon.Base
