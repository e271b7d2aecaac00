/-
Melon.Naming.SnsNamingParamsTheorems — what the SNS registry holds over
every sequence of calls, and what `SnsNamingService::GetServers` does
with it.

* `get_service_passes_check` — whatever calls were made, with builders
  that go on changing the requests they share with the registry,
  `get_service` returns only requests that pass `check_service_name`, and
  only for non-empty names.
* `snsGetServers_unregistered` — `GetServers` for a name no
  `register_service` or `update_service` call named returns `-1` and
  appends nothing, whatever the discovery server would answer: it makes
  no RPC.

## How the proof goes

`checkServiceName_eq_ok` says what `check_service_name` accepts, so a
builder call, which only sets `app_name` or adds to a list, keeps a
request accepted (`checkServiceName_build`). The invariant `Inv` (every
name maps to an accepted request, and no name is empty) is kept by each
kind of call (`Inv.call`) and so by a run (`foldlM_inv`). A call that
fails changes nothing (`registerService_fail`, `updateService_fail`), and
a call that names another service leaves a name's entry alone
(`call_services_of_ne`).
-/
import Melon.Naming.SnsNamingParams
import Melon.Naming.ListNamingServiceTheorems

namespace Melon.Naming

/-! ## 1. `check_service_name` and the builder -/

theorem checkServiceName_eq_ok (r : SnsRequest) :
    checkServiceName r = .ok ↔ r.appName.isSome ∧ r.zones ≠ [] ∧ r.env ≠ [] ∧ r.color ≠ [] := by
  unfold checkServiceName
  cases h : r.appName <;> simp [List.isEmpty_iff, h]
  split_ifs <;> simp_all

theorem checkServiceName_build {r : SnsRequest} (h : checkServiceName r = .ok) (c : BuilderCall) :
    checkServiceName (r.build c) = .ok := by
  rw [checkServiceName_eq_ok] at h ⊢
  cases c <;> simp_all [SnsRequest.build]

namespace SnsNamingParams

variable {p p' : SnsNamingParams} {name : List Char} {ptr : Nat} {st : SnsStatus}

/-! ## 2. One call -/

theorem registerService_fail (h : p.registerService name ptr = some (st, p')) (hs : st ≠ .ok) : p' = p := by
  unfold registerService at h
  split at h
  · cases h; rfl
  obtain ⟨req, -, h⟩ := Option.map_eq_some'.1 h
  split at h
  · cases h; rfl
  · split at h <;> cases h
    · rfl
    · exact absurd rfl hs

theorem updateService_fail (h : p.updateService name ptr = some (st, p')) (hs : st ≠ .ok) : p' = p := by
  unfold updateService at h
  split at h
  · cases h; rfl
  obtain ⟨req, -, h⟩ := Option.map_eq_some'.1 h
  split at h <;> cases h
  · rfl
  · exact absurd rfl hs

/-- What `registerService` and `updateService` leave: the registry, or the
name stored with an address that holds an accepted request. -/
theorem registerService_cases (h : p.registerService name ptr = some (st, p')) :
    p' = p ∨ (name ≠ [] ∧ (∃ req, p.requests[ptr]? = some req ∧ checkServiceName req = .ok) ∧ p' = p.store name ptr) := by
  unfold registerService at h
  split at h
  · cases h; exact .inl rfl
  next hn =>
  obtain ⟨req, hr, h⟩ := Option.map_eq_some'.1 h
  split at h
  · cases h; exact .inl rfl
  next hc =>
  split at h <;> cases h
  · exact .inl rfl
  · exact .inr ⟨by simpa [List.isEmpty_iff] using hn, ⟨req, hr, hc⟩, rfl⟩

theorem updateService_cases (h : p.updateService name ptr = some (st, p')) :
    p' = p ∨ (name ≠ [] ∧ (∃ req, p.requests[ptr]? = some req ∧ checkServiceName req = .ok) ∧ p' = p.store name ptr) := by
  unfold updateService at h
  split at h
  · cases h; exact .inl rfl
  next hn =>
  obtain ⟨req, hr, h⟩ := Option.map_eq_some'.1 h
  split at h <;> cases h
  · exact .inl rfl
  · exact .inr ⟨by simpa [List.isEmpty_iff] using hn, ⟨req, hr, ‹_›⟩, rfl⟩

/-- A call that does not register or update `name` leaves its entry. -/
theorem call_services_of_ne {c : ParamsCall} (hc : ∀ a, c ≠ .registerService name a ∧ c ≠ .updateService name a)
    (h : p.call c = some p') : p'.services name = p.services name := by
  cases c with
  | newRequest => cases h; rfl
  | build a b => obtain ⟨_, -, rfl⟩ := Option.map_eq_some'.1 h; rfl
  | registerService n a =>
    obtain ⟨r, hr, rfl⟩ := Option.map_eq_some'.1 h
    have hn : name ≠ n := fun e => (hc a).1 (e ▸ rfl)
    rcases registerService_cases hr with h' | ⟨-, -, h'⟩ <;> simp [h', store, hn]
  | updateService n a =>
    obtain ⟨r, hr, rfl⟩ := Option.map_eq_some'.1 h
    have hn : name ≠ n := fun e => (hc a).2 (e ▸ rfl)
    rcases updateService_cases hr with h' | ⟨-, -, h'⟩ <;> simp [h', store, hn]

/-! ## 3. The registry over a run -/

/-- Every name maps to an address that holds a request `check_service_name`
accepts, and no name is empty. -/
def Inv (p : SnsNamingParams) : Prop :=
  ∀ n a, p.services n = some a → n ≠ [] ∧ ∃ req, p.requests[a]? = some req ∧ checkServiceName req = .ok

theorem inv_init : init.Inv := fun _ _ h => by cases h

theorem Inv.store (h : p.Inv) (hn : name ≠ []) (hr : ∃ req, p.requests[ptr]? = some req ∧ checkServiceName req = .ok) :
    (p.store name ptr).Inv := by
  intro n a ha
  simp only [SnsNamingParams.store] at ha
  split at ha
  · cases ha; subst n; exact ⟨hn, hr⟩
  · exact h n a ha

theorem Inv.newRequest (h : p.Inv) : p.newRequest.Inv := fun n a ha => by
  obtain ⟨hn, req, hr, hc⟩ := h n a ha
  exact ⟨hn, req, by simp [SnsNamingParams.newRequest, List.getElem?_append_left (List.getElem?_eq_some.1 hr).1, hr], hc⟩

theorem Inv.build (h : p.Inv) {c : BuilderCall} (hb : p.build ptr c = some p') : p'.Inv := by
  obtain ⟨req, hreq, rfl⟩ := Option.map_eq_some'.1 hb
  intro n a ha
  obtain ⟨hn, r, hr, hc⟩ := h n a ha
  refine ⟨hn, ?_⟩
  by_cases he : ptr = a
  · subst he
    rw [hr] at hreq; cases hreq
    exact ⟨_, by simp [List.getElem?_set, (List.getElem?_eq_some.1 hr).1], checkServiceName_build hc c⟩
  · exact ⟨r, by rw [List.getElem?_set_ne he]; exact hr, hc⟩

theorem Inv.call (h : p.Inv) {c : ParamsCall} (hc : p.call c = some p') : p'.Inv := by
  cases c with
  | newRequest => cases hc; exact h.newRequest
  | build a b => exact h.build hc
  | registerService n a =>
    obtain ⟨r, hr, rfl⟩ := Option.map_eq_some'.1 hc
    rcases registerService_cases hr with h' | ⟨hn, hreq, h'⟩
    · rw [h']; exact h
    · rw [h']; exact h.store hn hreq
  | updateService n a =>
    obtain ⟨r, hr, rfl⟩ := Option.map_eq_some'.1 hc
    rcases updateService_cases hr with h' | ⟨hn, hreq, h'⟩
    · rw [h']; exact h
    · rw [h']; exact h.store hn hreq

theorem get_service_passes_check {calls : List ParamsCall} {p : SnsNamingParams} (h : init.run calls = some p)
    {name : List Char} {req : SnsRequest} (hg : p.getService name = some req) :
    name ≠ [] ∧ checkServiceName req = .ok := by
  have hi : p.Inv := foldlM_inv (fun _ _ _ _ hb hc => hb.call hc) inv_init h
  obtain ⟨a, ha, hr⟩ := Option.bind_eq_some.1 hg
  obtain ⟨hn, r, hr', hc⟩ := hi name a ha
  rw [hr] at hr'
  cases hr'
  exact ⟨hn, hc⟩

end SnsNamingParams

open SnsNamingParams

/-! ## 4. `SnsNamingService::GetServers` -/

theorem snsGetServers_unregistered {calls : List ParamsCall} {p : SnsNamingParams} (h : init.run calls = some p)
    {name : List Char} (hn : ∀ a, .registerService name a ∉ calls ∧ .updateService name a ∉ calls)
    (env : SnsNamingEnv) : snsGetServers env p (some name) = (-1, []) := by
  have hs : p.services name = none :=
    foldlM_inv (P := fun p : SnsNamingParams => p.services name = none)
      (fun c _ _ hc hp hcall => (call_services_of_ne
        (fun a => ⟨fun e => (hn a).1 (e ▸ hc), fun e => (hn a).2 (e ▸ hc)⟩) hcall).trans hp) rfl h
  simp [snsGetServers, getService, hs]

/-! ## 5. Runs on fixed inputs -/

/-- A request built with every field `check_service_name` wants, registered
as `svc`, and a zone added by its builder after that. -/
def builtAndRegistered : List ParamsCall :=
  [.newRequest, .build 0 (.setAppName "app".toList), .build 0 (.addZone "z1".toList), .build 0 (.addEnv "e".toList),
    .build 0 (.addColor "c".toList), .registerService "svc".toList 0, .build 0 (.addZone "z2".toList)]

/-- The registry after `builtAndRegistered`. -/
def builtParams : SnsNamingParams :=
  ⟨[⟨some "app".toList, ["z1".toList, "z2".toList], ["e".toList], ["c".toList]⟩],
    fun n => if n = "svc".toList then some 0 else none⟩

theorem get_service_passes_check_built :
    init.run builtAndRegistered = some builtParams ∧
      builtParams.getService "svc".toList = some ⟨some "app".toList, ["z1".toList, "z2".toList], ["e".toList], ["c".toList]⟩ ∧
      ("svc".toList ≠ [] ∧ checkServiceName ⟨some "app".toList, ["z1".toList, "z2".toList], ["e".toList], ["c".toList]⟩ = .ok) :=
  ⟨rfl, rfl, @get_service_passes_check builtAndRegistered builtParams rfl "svc".toList _ rfl⟩

theorem snsGetServers_unregistered_built :
    init.run builtAndRegistered = some builtParams ∧
      (∀ a, ParamsCall.registerService "web".toList a ∉ builtAndRegistered ∧
        ParamsCall.updateService "web".toList a ∉ builtAndRegistered) ∧
      snsGetServers ⟨fun _ => some (.OK, []), fun _ => none⟩ builtParams (some "web".toList) = (-1, []) :=
  ⟨rfl, fun a => by simp [builtAndRegistered],
    @snsGetServers_unregistered builtAndRegistered builtParams rfl "web".toList (fun a => by simp [builtAndRegistered]) _⟩

end Melon.Naming
