/-
Melon.Naming.SnsNamingParams — the registry of SNS services
(`SnsNamingParams` and `SnsRequestBuilder`, `src/melon/naming/sns_naming_service.h`
and `consul_naming_service.cc`) and `SnsNamingService::GetServers`, which
asks the discovery server for the servlets of a registered service.

* `SnsRequest` — the fields of a `melon::SnsRequest` the calls read
  (`app_name`, optional; `zones`, `env`, `color`, repeated). The proto
  types are not among the sources.
* `SnsStatus`, `checkServiceName` — `turbo::Status` as these calls build
  it, and `check_service_name`.
* `BuilderCall`, `SnsRequest.build` — the calls of `SnsRequestBuilder` on
  the request its `request` points to.
* `SnsNamingParams` — `_services`, the address each name maps to, with
  the requests at those addresses: a request is held by `shared_ptr`, so
  the registry and the builder that made it share it.
* `registerService`, `updateService`, `getService` — the three calls;
  `ParamsCall`, `SnsNamingParams.run` — calls from any threads, one after
  another as `_mutex` orders them, together with `SnsRequestBuilder()` and
  its calls.
* `SnsNamingEnv`, `servletNode`, `snsGetServers` —
  `SnsNamingService::GetServers`: the RPC is given by what the discovery
  server answers, and the nodes are those it appends to `servers`.

A call on an address where no request was made (a null or dangling
`shared_ptr`) has no defined result: `none`. The logs are left out.
-/
import Melon.Naming.SnsNamingClient
import Melon.Naming.ListNamingService
import Melon.Builtin.FlagsService

namespace Melon.Naming

open Melon.Base
open Melon.Builtin (cStr)

/-- The fields of a `melon::SnsRequest` the calls read; `appName` is `none`
when `has_app_name()` is false. -/
structure SnsRequest where
  appName : Option (List Char)
  zones : List (List Char)
  env : List (List Char)
  color : List (List Char)
  deriving DecidableEq, Repr

/-- `turbo::Status`, as these calls build it. -/
inductive SnsStatus
  | ok
  | invalidArgument (message : List Char)
  deriving DecidableEq, Repr

/-- `check_service_name(req)`. -/
def checkServiceName (req : SnsRequest) : SnsStatus :=
  if req.appName.isNone then .invalidArgument "app_name is empty".toList
  else if req.zones.isEmpty then .invalidArgument "zones is empty".toList
  else if req.env.isEmpty then .invalidArgument "envs is empty".toList
  else if req.color.isEmpty then .invalidArgument "colors is empty".toList
  else .ok

/-- The calls of `SnsRequestBuilder`. -/
inductive BuilderCall
  | setAppName (appName : List Char)
  | addZone (zone : List Char)
  | addEnv (env : List Char)
  | addColor (color : List Char)
  deriving DecidableEq, Repr

namespace SnsRequest

/-- `std::make_shared<melon::SnsRequest>()`. -/
def empty : SnsRequest := ⟨none, [], [], []⟩

/-- A call of `SnsRequestBuilder` on the request. -/
def build (r : SnsRequest) : BuilderCall → SnsRequest
  | .setAppName a => { r with appName := some a }
  | .addZone z => { r with zones := r.zones ++ [z] }
  | .addEnv e => { r with env := r.env ++ [e] }
  | .addColor c => { r with color := r.color ++ [c] }

end SnsRequest

/-- `SnsNamingParams`: the requests, by address, and `_services`, the
address each name maps to. -/
structure SnsNamingParams where
  requests : List SnsRequest
  services : List Char → Option Nat

namespace SnsNamingParams

/-- The registry `get_instance()` starts with. -/
def init : SnsNamingParams := ⟨[], fun _ => none⟩

variable (p : SnsNamingParams) (name : List Char) (ptr : Nat)

/-- `_services[service_name] = req`. -/
def store : SnsNamingParams := { p with services := fun n => if n = name then some ptr else p.services n }

/-- `register_service(service_name, req)` with `req` at address `ptr`. -/
def registerService : Option (SnsStatus × SnsNamingParams) :=
  if name.isEmpty then some (.invalidArgument "service_name is empty".toList, p)
  else p.requests[ptr]?.map fun req =>
    match checkServiceName req with
    | .invalidArgument m => (.invalidArgument m, p)
    | .ok => if (p.services name).isSome then (.invalidArgument "service already exists".toList, p) else (.ok, p.store name ptr)

/-- `update_service(service_name, req)` with `req` at address `ptr`. -/
def updateService : Option (SnsStatus × SnsNamingParams) :=
  if name.isEmpty then some (.invalidArgument "service_name is empty".toList, p)
  else p.requests[ptr]?.map fun req =>
    match checkServiceName req with
    | .invalidArgument m => (.invalidArgument m, p)
    | .ok => (.ok, p.store name ptr)

/-- `get_service(service_name)`: the request, `none` for `nullptr`. -/
def getService : Option SnsRequest := (p.services name).bind fun a => p.requests[a]?

/-- `SnsRequestBuilder()`: a new request, at the next address. -/
def newRequest : SnsNamingParams := { p with requests := p.requests ++ [SnsRequest.empty] }

/-- A builder call on the request at `ptr`. -/
def build (c : BuilderCall) : Option SnsNamingParams :=
  p.requests[ptr]?.map fun req => { p with requests := p.requests.set ptr (req.build c) }

end SnsNamingParams

/-- A call on the registry or on a builder. -/
inductive ParamsCall
  | newRequest
  | build (ptr : Nat) (c : BuilderCall)
  | registerService (name : List Char) (ptr : Nat)
  | updateService (name : List Char) (ptr : Nat)
  deriving DecidableEq, Repr

namespace SnsNamingParams

/-- One call: the registry after it. -/
def call (p : SnsNamingParams) : ParamsCall → Option SnsNamingParams
  | .newRequest => some p.newRequest
  | .build ptr c => p.build ptr c
  | .registerService name ptr => (p.registerService name ptr).map (·.2)
  | .updateService name ptr => (p.updateService name ptr).map (·.2)

/-- Calls one after another. -/
def run (p : SnsNamingParams) (calls : List ParamsCall) : Option SnsNamingParams := calls.foldlM call p

end SnsNamingParams

/-- What `SnsNamingService::GetServers` meets that is not among the sources. -/
structure SnsNamingEnv where
  /-- `make_sns_channel` and `stub.naming(&cntl, req, &response)`: `none`
  when the channel cannot be made or the RPC fails, else `errcode` and
  `servlets`. -/
  naming : SnsRequest → Option (SnsErrno × List SnsPeer)
  /-- `str2endpoint(address, &node.addr) == 0`, with what it writes. -/
  str2endpoint : List Char → Option EndPoint

variable (env : SnsNamingEnv)

/-- The node of one servlet, `none` where the loop `continue`s. -/
def servletNode (peer : SnsPeer) : Option ServerNode :=
  if !isValid peer then none
  else (env.str2endpoint (cStr (peer.address.getD []))).map fun ep =>
    ⟨ep, peer.appName.getD [] ++ '.' :: peer.zone.getD [] ++ '.' :: peer.env.getD [] ++ '.' :: peer.color.getD []⟩

/-- `SnsNamingService::GetServers(service_name, servers)`: the return code
and the nodes appended to `servers`; `none` is a null `service_name`. -/
def snsGetServers (p : SnsNamingParams) : Option (List Char) → Int × List ServerNode
  | none => (-1, [])
  | some name =>
    if name.isEmpty then (-1, [])
    else
      match p.getService name with
      | none => (-1, [])
      | some req =>
        match env.naming req with
        | some (.OK, servlets) => (0, servlets.filterMap (servletNode env))
        | _ => (-1, [])

end Melon.Naming
