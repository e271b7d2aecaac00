/-
Melon.Naming.ConsulNamingService — the model of `ConsulNamingService`
(`src/melon/naming/consul_naming_service.cc`): `GetServers`, one blocking
query to consul, and `RunNamingService`, the loop that hands its answers
to `ResetServers`.

* `JsonValue`, `findMember` — the rapidjson `Value` that `GetServers`
  walks. rapidjson is not among the sources: a number is an integer or
  a double as `Parse` read it, `FindMember` is the first member with the
  name, and `FindMember` on a value that is not an object (an
  assertion in rapidjson) gives the call no defined result.
* `serviceNode` — one entry of the array: its node, `none` where the
  loop `continue`s; `collect` — the loop, with `presence` and `servers`.
* `ConsulFlags` — the flags `GetServers` and `RunNamingService` read,
  with their defaults.
* `ConsulEnv` — what the calls meet that is not among the sources:
  `Parse`, `str2endpoint(ip, port, &point)` on a fresh `end_point`, and
  `FileNamingService::GetServers`.
* `ConsulNamingService` — the members `_consul_connected`,
  `_consul_url`, `_consul_index` and `_backup_file_loaded`; the header
  is not among the sources, and `init` takes the values the `.cc` reads
  on a new service (false, empty, empty, false).
* `ConsulReply`, `degradeToOtherServiceIfNeeded`, `getServers` — one
  call of `GetServers` against what the channel and consul do.
* `ConsulRound`, `ConsulRun`, `runRound`, `runNamingService` — the
  rounds of `RunNamingService`, each given what `GetServers` meets,
  whether the fiber is stopped after it, and what `fiber_usleep` does.

`GetServers` is called by `RunNamingService` with `servers` cleared, which
is the `servers` it starts from here. The logs are left out.
-/
import Melon.Naming.ListNamingService
import Melon.Builtin.FlagsService
import Mathlib.Algebra.Group.Int

namespace Melon.Naming

open Melon.Base
open Melon.Builtin (cStr)

/-- A rapidjson `Value`. -/
inductive JsonValue
  | null
  | bool (b : Bool)
  /-- A number `Parse` read as an integer. -/
  | int (i : Int)
  /-- A number `Parse` read as a double. -/
  | real
  | string (s : List Char)
  | array (xs : List JsonValue)
  | object (members : List (List Char × JsonValue))
  deriving Repr

/-- `FindMember(name)` on an object's members: the value of the first
member called `name`. -/
def findMember (ms : List (List Char × JsonValue)) (name : List Char) : Option JsonValue :=
  (ms.find? (·.1 == name)).map (·.2)

/-- The flags the two calls read, with their defaults. -/
structure ConsulFlags where
  serviceDiscoveryUrl : List Char := "/v1/health/service/".toList
  urlParameter : List Char := "?stale&passing".toList
  blockingQueryWaitSecs : Int := 60
  enableDegradeToFileNamingService : Bool := false
  fileNamingServiceDir : List Char := []
  retryIntervalMs : Int := 500
  deriving DecidableEq, Repr

/-- What the calls meet that is not among the sources. -/
structure ConsulEnv where
  flags : ConsulFlags
  /-- `Document::Parse(text)`: a text that is not JSON leaves a value that
  is not an array. -/
  parse : List Char → JsonValue
  /-- `str2endpoint(ip, port, &point) == 0`, with the `point` it writes. -/
  str2endpoint : List Char → Int → Option EndPoint
  /-- `FileNamingService::GetServers(file, servers)`: its return code and
  `servers`. -/
  fileGetServers : List Char → Int × List ServerNode

variable (env : ConsulEnv)

/-- One entry `services[i]` of consul's answer: `some none` where the loop
`continue`s, `none` where it calls `FindMember` on a value that is not an
object. -/
def serviceNode : JsonValue → Option (Option ServerNode)
  | .object entry =>
    match findMember entry "Service".toList with
    | none => some none
    | some (.object service) =>
      match findMember service "Address".toList, findMember service "Port".toList with
      | some (.string address), some (.int port) =>
        if 0 ≤ port ∧ port < 2 ^ 32 then
          (env.str2endpoint (cStr address) (toCInt port)).elim (some none) fun ep =>
            match findMember service "Tags".toList with
            | none => some (some ⟨ep, []⟩)
            | some (.array []) => some (some ⟨ep, []⟩)
            | some (.array (.string tag :: _)) => some (some ⟨ep, cStr tag⟩)
            | some _ => some none
        else some none
      | _, _ => some none
    | some _ => none
  | _ => none

/-- The loop over `services`: `presence`, newest first, and `servers`. -/
def collect (services : List JsonValue) : Option (List ServerNode × List ServerNode) :=
  services.foldlM (fun ps v => (serviceNode env v).map fun o => o.elim ps (keepNew ps)) ([], [])

/-- The members of a `ConsulNamingService` the calls read and write. -/
structure ConsulNamingService where
  consulConnected : Bool
  consulUrl : List Char
  consulIndex : List Char
  backupFileLoaded : Bool
  deriving DecidableEq, Repr

namespace ConsulNamingService

/-- A new service. -/
def init : ConsulNamingService := ⟨false, [], [], false⟩

/-- What one `GetServers` meets: whether `_channel.Init` succeeds (read
only while not connected), and `none` when `cntl.Failed()`, else the
`X-Consul-Index` header and the attachment. -/
structure ConsulReply where
  channelInit : Bool
  response : Option (Option (List Char) × List Char)
  deriving DecidableEq, Repr

/-- What one `GetServers` returns and leaves: the return code, `servers`,
the members after, the URI of the HTTP call if it made one, and the
backup file if it read one. -/
structure ConsulCall where
  rc : Int
  servers : List ServerNode
  service : ConsulNamingService
  uri : Option (List Char)
  backupFile : Option (List Char)
  deriving DecidableEq, Repr

variable (s : ConsulNamingService) (name : List Char)

/-- `DegradeToOtherServiceIfNeeded(service_name, servers)`, after a call
that made the HTTP call to `uri`, if any. -/
def degradeToOtherServiceIfNeeded (uri : Option (List Char)) : ConsulCall :=
  if env.flags.enableDegradeToFileNamingService && !s.backupFileLoaded then
    let file := env.flags.fileNamingServiceDir ++ name
    let r := env.fileGetServers file
    ⟨r.1, r.2, { s with backupFileLoaded := true }, uri, some file⟩
  else ⟨-1, [], s, uri, none⟩

/-- The URI of the blocking query: `_consul_url`, then
`"&index=%s&wait=%ds"` once an index is known. -/
def queryUri : List Char :=
  if s.consulIndex.isEmpty then s.consulUrl
  else s.consulUrl ++ "&index=".toList ++ cStr s.consulIndex ++ "&wait=".toList ++
    decimalInt env.flags.blockingQueryWaitSecs ++ "s".toList

/-- The members once `GetServers` is past the channel: connected, and
`_consul_url` built if it was empty. -/
def connect : ConsulNamingService :=
  { s with
    consulConnected := true
    consulUrl := if s.consulUrl.isEmpty then
      env.flags.serviceDiscoveryUrl ++ name ++ env.flags.urlParameter else s.consulUrl }

/-- The answer consul gave to the query: the `X-Consul-Index` header
`index` and the attachment `body`. -/
def answer (index body : List Char) : Option ConsulCall :=
  let uri := some (queryUri env (s.connect env name))
  if index = (s.connect env name).consulIndex then some ⟨-1, [], s.connect env name, uri, none⟩
  else
    match env.parse (cStr body) with
    | .array services =>
      (collect env services).map fun ps =>
        let s' := { s.connect env name with consulIndex := index }
        if ps.2.isEmpty && !services.isEmpty then ⟨-1, ps.2, s', uri, none⟩ else ⟨0, ps.2, s', uri, none⟩
    | _ => some ⟨-1, [], s.connect env name, uri, none⟩

/-- `GetServers(service_name, servers)`. -/
def getServers (r : ConsulReply) : Option ConsulCall :=
  if !s.consulConnected && !r.channelInit then some (s.degradeToOtherServiceIfNeeded env name none)
  else
    match r.response with
    | none => some ((s.connect env name).degradeToOtherServiceIfNeeded env name
        (some (queryUri env (s.connect env name))))
    | some (none, _) => some ⟨-1, [], s.connect env name, some (queryUri env (s.connect env name)), none⟩
    | some (some index, body) => s.answer env name index body

end ConsulNamingService

open ConsulNamingService

/-- What `fiber_usleep` returns: 0, or `-1` with `errno` `ESTOP`, or `-1`
with another `errno`. -/
inductive SleepResult
  | slept
  | stopped
  | failed
  deriving DecidableEq, Repr

/-- What one round of `RunNamingService` meets: what its `GetServers`
meets, `fiber_stopped(fiber_self())` after it, and what `fiber_usleep`
does if the round sleeps. -/
structure ConsulRound where
  reply : ConsulReply
  stopped : Bool
  sleep : SleepResult
  deriving DecidableEq, Repr

/-- `RunNamingService` between rounds: the service, `ever_reset`, the
lists handed to `ResetServers` in order, the backup files read in order,
and the return code once it has returned. -/
structure ConsulRun where
  service : ConsulNamingService
  everReset : Bool
  resets : List (List ServerNode)
  backupFiles : List (List Char)
  ret : Option Int
  deriving DecidableEq, Repr

/-- A `RunNamingService` that has not yet made a round. -/
def ConsulRun.init : ConsulRun := ⟨ConsulNamingService.init, false, [], [], none⟩

/-- `if (!ever_reset) { ever_reset = true; ResetServers(servers); }` with
`servers` cleared. -/
def ensureReset (st : ConsulRun) : ConsulRun :=
  if st.everReset then st else { st with everReset := true, resets := st.resets ++ [[]] }

/-- `fiber_usleep` after a failed round: the loop goes on, or returns. -/
def afterSleep (st : ConsulRun) : SleepResult → ConsulRun
  | .slept => st
  | .stopped => { st with ret := some 0 }
  | .failed => { st with ret := some (-1) }

/-- The rest of a round, after `GetServers` returned `c`. -/
def afterGetServers (st : ConsulRun) (rd : ConsulRound) (c : ConsulCall) : ConsulRun :=
  let st := { st with service := c.service, backupFiles := st.backupFiles ++ c.backupFile.toList }
  if rd.stopped then { st with ret := some 0 }
  else if c.rc = 0 then { st with everReset := true, resets := st.resets ++ [c.servers] }
  else afterSleep (ensureReset st) rd.sleep

/-- One round of `for (;;)`, none once the loop has returned; `none` when
its `GetServers` has no defined result. -/
def runRound (name : List Char) (st : ConsulRun) (rd : ConsulRound) : Option ConsulRun :=
  if st.ret.isSome then some st
  else (st.service.getServers env name rd.reply).map (afterGetServers st rd)

/-- `RunNamingService(service_name, actions)` over the given rounds. -/
def runNamingService (name : List Char) (rounds : List ConsulRound) : Option ConsulRun :=
  rounds.foldlM (runRound env name) ConsulRun.init

end Melon.Naming
