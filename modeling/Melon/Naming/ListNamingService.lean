/-
Melon.Naming.ListNamingService — the server nodes a naming service hands
to `ResetServers`, and `ParseServerList`
(`src/melon/naming/list_naming_service.cc`), which the `list://` and
`dlist://` naming services run.

* `ServerNode` — an `end_point` and a tag. `naming_service.h` is not
  among the sources: `std::set<ServerNode>` is taken to hold two nodes
  apart exactly when their addresses or their tags differ.
* `keepNew` — `if (presence.insert(node).second) servers->push_back(node)`,
  on the set `presence`, newest first, and the vector `servers`.
* `ListEnv` — what `ParseServerList` calls that is not among the sources
  (`StringSplitter`, `SplitIntoServerAndTag`), and the two address
  parsers of `end_point` (`Melon.Base.EndPoint` models them with the
  resources of extended `end_point`s): here, whether each succeeds on a
  fresh `end_point`, and what it writes there.
* `lineNode`, `parseServerList` — one field of `service_name`, and the
  whole call; `listRunNamingService` — `ListNamingService::RunNamingService`.

The logs are left out.
-/
import Melon.Base.EndPoint

namespace Melon.Naming

open Melon.Base

/-- A `ServerNode`: `addr` and `tag`. -/
structure ServerNode where
  addr : EndPoint
  tag : List Char
  deriving DecidableEq, Repr

/-- `if (presence.insert(node).second) servers->push_back(node);` on
`presence`, newest first, and `servers`. -/
def keepNew (ps : List ServerNode × List ServerNode) (n : ServerNode) : List ServerNode × List ServerNode :=
  if n ∈ ps.1 then ps else (n :: ps.1, ps.2 ++ [n])

/-- What `ParseServerList` calls that is not among the sources. -/
structure ListEnv where
  /-- `StringSplitter(service_name, ',')`: the fields, in order. -/
  split : List Char → List (List Char)
  /-- `SplitIntoServerAndTag(line, &addr, &tag)`: the address and the
  tag, `none` when it returns false. -/
  splitIntoServerAndTag : List Char → Option (List Char × List Char)
  /-- `str2endpoint(addr, &point) == 0`, with the `point` it writes. -/
  str2endpoint : List Char → Option EndPoint
  /-- `hostname2endpoint(addr, &point) == 0`, with the `point` it writes. -/
  hostname2endpoint : List Char → Option EndPoint

variable (env : ListEnv)

/-- The node of one field `line`, `none` where the loop `continue`s:
`SplitIntoServerAndTag` fails, or neither parser takes the address. -/
def lineNode (line : List Char) : Option ServerNode :=
  (env.splitIntoServerAndTag line).bind fun st =>
    ((env.str2endpoint st.1).orElse fun _ => env.hostname2endpoint st.1).map fun p => ⟨p, st.2⟩

/-- `ParseServerList(service_name, servers)`: the return code and
`servers`; `none` is a null `service_name`. -/
def parseServerList : Option (List Char) → Int × List ServerNode
  | none => (-1, [])
  | some name => (0, ((env.split name).foldl (fun ps line => (lineNode env line).elim ps (keepNew ps)) ([], [])).2)

/-- `ListNamingService::RunNamingService`: the one list it hands to
`ResetServers`. -/
def listRunNamingService (name : Option (List Char)) : List ServerNode :=
  if (parseServerList env name).1 ≠ 0 then [] else (parseServerList env name).2

end Melon.Naming
