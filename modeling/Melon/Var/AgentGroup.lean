/-
Melon.Var.AgentGroup — the ids `AgentGroup<Agent>` hands out to the
combiners of one `Agent` type (`src/melon/var/detail/agent_group.h`).

* `AgentGroup` — the static state the two calls share: `_s_agent_kinds`
  and the deque `*_s_free_ids`, front to back.
* `createNewAgent` — `create_new_agent()`: the id at the back of the free
  list, popped, or else `_s_agent_kinds++`.
* `destroyAgent` — `destroy_agent(id)`: `-1` and `EINVAL` for an id out of
  `[0, _s_agent_kinds)`, otherwise the id pushed at the back of the free
  list.
* `AgentCall`, `AgentBook.run` — calls in sequence, with the ids handed
  out and not given back since (`live`), which the code does not keep.

Both calls hold `_s_mutex` throughout, so calls from several threads are
one sequence of whole calls. `AgentId` is an `int`; `_s_agent_kinds++`
is counted in `Int`, which is the code's arithmetic while fewer than
`INT_MAX` fresh ids were made. The thread-local blocks
(`get_or_create_tls_agent`) do not bear on the ids and are left out.
-/
import Mathlib.Data.List.Basic
import Mathlib.Algebra.Group.Int

namespace Melon.Var

/-- `INT_MAX` for a 32-bit `int`. -/
def INT_MAX : Int := 2 ^ 31 - 1

/-- The `errno` `destroy_agent` sets. -/
inductive AgentErrno
  | EINVAL
  deriving DecidableEq, Repr

/-- `_s_agent_kinds` and `*_s_free_ids`, front to back. -/
structure AgentGroup where
  agentKinds : Int
  freeIds : List Int
  deriving DecidableEq, Repr

namespace AgentGroup

/-- The statics before the first call: `_s_agent_kinds = 0`, and
`_s_free_ids` null, which `_get_free_ids()` makes an empty deque. -/
def init : AgentGroup := ⟨0, []⟩

/-- `create_new_agent()`: the id it returns, and the statics after. -/
def createNewAgent (g : AgentGroup) : Int × AgentGroup :=
  match g.freeIds.getLast? with
  | some id => (id, { g with freeIds := g.freeIds.dropLast })
  | none => (g.agentKinds, { g with agentKinds := g.agentKinds + 1 })

/-- `destroy_agent(id)`: what it returns, the `errno` it sets, and the
statics after. -/
def destroyAgent (g : AgentGroup) (id : Int) : Int × Option AgentErrno × AgentGroup :=
  if id < 0 ∨ id ≥ g.agentKinds then (-1, some .EINVAL, g)
  else (0, none, { g with freeIds := g.freeIds ++ [id] })

end AgentGroup

/-- A call on the group. -/
inductive AgentCall
  | create
  | destroy (id : Int)
  deriving DecidableEq, Repr

/-- The statics, with the ids `create_new_agent` returned and no
`destroy_agent` has given back since. -/
structure AgentBook where
  group : AgentGroup
  live : List Int
  deriving DecidableEq, Repr

namespace AgentBook

/-- Before the first call: no id handed out. -/
def init : AgentBook := ⟨AgentGroup.init, []⟩

/-- One call. -/
def call (b : AgentBook) : AgentCall → AgentBook
  | .create => ⟨b.group.createNewAgent.2, b.group.createNewAgent.1 :: b.live⟩
  | .destroy id => ⟨(b.group.destroyAgent id).2.2, b.live.erase id⟩

/-- Calls in sequence. -/
def run (b : AgentBook) (cs : List AgentCall) : AgentBook := cs.foldl call b

/-- Every `destroy_agent` is given an id live at that point, as
`~AgentCombiner` gives back the id its constructor took, once. -/
def Legal : AgentBook → List AgentCall → Prop
  | _, [] => True
  | b, .create :: cs => Legal (b.call .create) cs
  | b, .destroy id :: cs => id ∈ b.live ∧ Legal (b.call (.destroy id)) cs

instance decLegal : ∀ (b : AgentBook) (cs : List AgentCall), Decidable (b.Legal cs)
  | _, [] => isTrue trivial
  | b, .create :: cs => decLegal (b.call .create) cs
  | b, .destroy id :: cs =>
    have := decLegal (b.call (.destroy id)) cs
    inferInstanceAs (Decidable (id ∈ b.live ∧ _))

end AgentBook

end Melon.Var
