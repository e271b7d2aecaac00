/-
Melon.Base.EndPointTheorems — the reference counts of extended
`end_point`s under the calls of one thread: which calls keep them exact,
and the call that does not.

`Inv` says that `_ref_count` is the number of variables embedding a
resource (`embedders`), that a resource is in use exactly while one does,
and that `GlobalEndPointSet` holds the resources in use, one per address.

## How the proof goes

Between `dedup` and `embed_to` a resource has one reference that no
variable carries yet, so the counting part of `Inv` is stated with
pending references, `Refs s pend`. One spec lemma per member function
says what it does to `Refs` and `SetInv`: `resetVar_spec` (`dec_ref`
and, at 1, `erase` and `return_resource`), `setEndpoint_spec`
(`inc_ref`), `newEmbed_spec` (`new_extended_endpoint`, `dedup`,
`embed_to`). Every call that goes through them keeps `Inv`.

The IPv4 paths of `str2endpoint` and `hostname2endpoint` do not: they
write `ip` and `port` into the variable with no `reset()`, which is right
only while the variable embeds nothing and gets no
`EXTENDED_ENDPOINT_PORT`. `step_keeps_inv` says that this write is the
only step that can break `Inv`; `str2endpoint_leaks_extended` runs it.
-/
import Melon.Base.EndPoint
import Melon.Base.ExtendedEndPointTheorems

namespace Melon.Base

namespace EpState

variable {In6 : Type}

/-! ## 1. Variables that embed a resource -/

/-- Variable `o` embeds resource `x`. -/
def embeds (x : Nat) (o : Option EndPoint) : Bool := o.any fun e => e.isExtended && e.ip.toNat == x

/-- The number of variables that embed resource `x`. -/
def embedders (s : EpState In6) (x : Nat) : Nat := s.vars.countP (embeds x)

section Frame

variable (s : EpState In6)

@[simp] theorem sys_vars (f : EpSystem (SockAddr In6) → EpSystem (SockAddr In6)) :
    (s.sys f).vars = s.vars := rfl
@[simp] theorem sys_toEpSystem (f : EpSystem (SockAddr In6) → EpSystem (SockAddr In6)) :
    (s.sys f).toEpSystem = f s.toEpSystem := rfl
@[simp] theorem setVar_vars (v : Nat) (e : EndPoint) : (s.setVar v e).vars = s.vars.set v (some e) := rfl
@[simp] theorem setVar_toEpSystem (v : Nat) (e : EndPoint) :
    (s.setVar v e).toEpSystem = s.toEpSystem := rfl
@[simp] theorem embedders_sys (f : EpSystem (SockAddr In6) → EpSystem (SockAddr In6)) (x : Nat) :
    (s.sys f).embedders x = s.embedders x := rfl

end Frame

@[simp] theorem embeds_none (x : Nat) : embeds x none = false := rfl

theorem embeds_some (x : Nat) (e : EndPoint) : embeds x (some e) = (e.isExtended && e.ip.toNat == x) := rfl

@[simp] theorem embeds_any (x : Nat) : embeds x (some ⟨IP_ANY, 0⟩) = false := rfl

theorem embeds_of_not_extended {e : EndPoint} (he : e.isExtended = false) (x : Nat) :
    embeds x (some e) = false := by
  simp [embeds_some, he]

variable {s : EpState In6} {v : Nat} {e : EndPoint}

theorem lt_of_var (h : s.var v = some e) : v < s.vars.length ∧ s.vars[v]? = some (some e) := by
  unfold var at h
  cases hv : s.vars[v]? with
  | none => simp [hv] at h
  | some o =>
    simp only [hv] at h
    cases h
    exact ⟨(List.getElem?_eq_some_iff.mp hv).1, rfl⟩

theorem var_setVar (h : s.var v = some e) (e' : EndPoint) (w : Nat) :
    (s.setVar v e').var w = if w = v then some e' else s.var w := by
  have hv := (lt_of_var h).1
  unfold var
  split_ifs with hw
  · subst hw; simp [List.getElem?_set_self hv]
  · simp [List.getElem?_set_ne (Ne.symm hw)]

/-- Overwriting variable `v`, which was `e`, with `e'`. -/
theorem embedders_setVar (h : s.var v = some e) (e' : EndPoint) (x : Nat) :
    (s.setVar v e').embedders x + (if embeds x (some e) then 1 else 0) =
      s.embedders x + (if embeds x (some e') then 1 else 0) := by
  obtain ⟨hv, he⟩ := lt_of_var h
  have hle := List.boole_getElem_le_countP (embeds x) s.vars v hv
  have hget : s.vars[v] = some e := by simpa [hv] using he
  simp only [embedders, setVar_vars, List.countP_set _ _ _ _ hv, hget] at hle ⊢
  omega

/-- A variable that embeds `x` counts. -/
theorem embedders_pos (h : s.var v = some e) (he : e.isExtended = true) :
    0 < s.embedders e.ip.toNat := by
  have := embedders_setVar h ⟨IP_ANY, 0⟩ e.ip.toNat
  rw [embeds_any, embeds_some, he] at this
  simp at this
  omega

/-! ## 2. The invariant -/

/-- `_ref_count` counts the variables that embed a resource and `pend`
references no variable carries yet; a resource is in use exactly while it
has a reference. -/
structure Refs (s : EpState In6) (pend : Nat → Nat) : Prop where
  ref_eq : ∀ x, (s.slots x).refCount = s.embedders x + pend x
  live_iff : ∀ x, (s.slots x).live = true ↔ 0 < s.embedders x + pend x

/-- `GlobalEndPointSet` holds the resources in use, one per address, and
a resource back in the pool is `AF_UNSPEC`. -/
structure SetInv (s : EpState In6) : Prop where
  mem_iff : ∀ x, x ∈ s.set ↔ (s.slots x).live = true
  nodup : s.set.Nodup
  addr_inj : ∀ x ∈ s.set, ∀ y ∈ s.set, (s.slots x).addr = (s.slots y).addr → x = y
  live_addr : ∀ x, (s.slots x).live = true → (s.slots x).addr ≠ none
  dead_addr : ∀ x, (s.slots x).live = false → (s.slots x).addr = none

/-- What holds between two calls. -/
structure Inv (s : EpState In6) : Prop where
  refs : Refs s fun _ => 0
  set : SetInv s

theorem inv_empty : Inv (empty : EpState In6) where
  refs := ⟨fun _ => by simp [empty, EpSystem.init, embedders], fun _ => by simp [empty, EpSystem.init, embedders]⟩
  set := ⟨fun _ => by simp [empty, EpSystem.init], List.nodup_nil, by simp [empty, EpSystem.init],
    by simp [empty, EpSystem.init], fun _ _ => rfl⟩

/-- `SetInv` reads only the resources and the set. -/
theorem SetInv.setVar (hs : SetInv s) (e' : EndPoint) : SetInv (s.setVar v e') :=
  ⟨hs.mem_iff, hs.nodup, hs.addr_inj, hs.live_addr, hs.dead_addr⟩

/-- `SetInv` survives a change of counts. -/
theorem SetInv.of_slots {t : EpState In6} (hs : SetInv s) (hset : t.set = s.set)
    (hlive : ∀ y, (t.slots y).live = (s.slots y).live) (haddr : ∀ y, (t.slots y).addr = (s.slots y).addr) :
    SetInv t := by
  refine ⟨fun y => ?_, hset ▸ hs.nodup, fun y hy z hz => ?_, fun y => ?_, fun y => ?_⟩
  · rw [hset, hlive]; exact hs.mem_iff y
  · rw [hset] at hy hz; rw [haddr, haddr]; exact hs.addr_inj y hy z hz
  · rw [hlive, haddr]; exact hs.live_addr y
  · rw [hlive, haddr]; exact hs.dead_addr y

/-- Overwriting a variable that embeds nothing with one that embeds
nothing changes no count. -/
theorem Refs.setVar_plain {pend : Nat → Nat} (hr : Refs s pend) (hv : s.var v = some e)
    (he : e.isExtended = false) {e' : EndPoint} (he' : e'.isExtended = false) :
    Refs (s.setVar v e') pend := by
  have hemb (y : Nat) : (s.setVar v e').embedders y = s.embedders y := by
    have := embedders_setVar hv e' y
    rw [embeds_of_not_extended he, embeds_of_not_extended he'] at this
    simpa using this
  exact ⟨fun y => by rw [hemb]; exact hr.ref_eq y, fun y => by rw [hemb]; exact hr.live_iff y⟩

/-- `set_endpoint(ep, ip, port)` into a variable that embeds nothing:
`inc_ref` when the new value embeds a resource in use. -/
theorem setEndpoint_spec {pend : Nat → Nat} (hr : Refs s pend) (hs : SetInv s) (hv : s.var v = some e)
    (he : e.isExtended = false) (e' : EndPoint)
    (hlive : e'.isExtended = true → (s.slots e'.ip.toNat).live = true) :
    ∃ s', s.setEndpoint v e' = some s' ∧ Refs s' pend ∧ SetInv s' ∧ s'.vars = s.vars.set v (some e') := by
  cases hx : e'.isExtended
  · exact ⟨s.setVar v e', by simp [setEndpoint, hx], hr.setVar_plain hv he hx, hs.setVar _, rfl⟩
  generalize hxd : e'.ip.toNat = x
  have hemb (y : Nat) : (s.setVar v e').embedders y = s.embedders y + (if x = y then 1 else 0) := by
    have := embedders_setVar hv e' y
    rw [embeds_of_not_extended he, embeds_some, hx, hxd] at this
    simpa using this
  have hpos : 0 < s.embedders x + pend x := (hr.live_iff x).1 (hxd ▸ hlive hx)
  have href := hr.ref_eq x
  obtain ⟨s', hres, hsl, hset, hvars⟩ : ∃ s', s.setEndpoint v e' = some s' ∧
      (∀ y, s'.slots y = if y = x then { s.slots x with refCount := (s.slots x).refCount + 1 }
        else s.slots y) ∧ s'.set = s.set ∧ s'.vars = s.vars.set v (some e') :=
    ⟨_, by rw [setEndpoint, if_pos hx, incRef, hxd, if_neg (by simp only [setVar_toEpSystem]; omega)],
      fun y => by simp [Function.update_apply], by rfl, by rfl⟩
  have hE (y : Nat) : s'.embedders y = s.embedders y + (if x = y then 1 else 0) := by
    rw [← hemb y]; simp only [embedders, hvars, setVar_vars]
  have hlive' (y : Nat) : (s'.slots y).live = (s.slots y).live := by
    rw [hsl]; split_ifs with hy <;> simp [hy]
  have haddr (y : Nat) : (s'.slots y).addr = (s.slots y).addr := by
    rw [hsl]; split_ifs with hy <;> simp [hy]
  refine ⟨s', hres, ⟨fun y => ?_, fun y => ?_⟩, hs.of_slots hset hlive' haddr, hvars⟩
  · rw [hsl, hE]
    by_cases hy : y = x
    · subst hy; rw [if_pos rfl, if_pos rfl]; show (s.slots y).refCount + 1 = _; omega
    · rw [if_neg hy, if_neg (Ne.symm hy), hr.ref_eq y]; simp
  · rw [hlive', hE, hr.live_iff y]
    by_cases hy : y = x
    · subst hy; rw [if_pos rfl]; omega
    · rw [if_neg (Ne.symm hy)]; simp

/-- An embedded id fits in `ip`. -/
theorem lt_of_embedders_pos {x : Nat} (h : 0 < s.embedders x) : x < 2 ^ 32 := by
  obtain ⟨o, -, ho⟩ := List.countP_pos_iff.mp h
  cases o with
  | none => cases ho
  | some e' =>
    simp only [embeds_some, Bool.and_eq_true, beq_iff_eq] at ho
    exact ho.2 ▸ e'.ip.toBitVec.isLt

/-- The end of `embed_to`: the pending reference to `x` goes into a
variable that embeds nothing. -/
theorem Refs.embedVar {x : Nat} (hr : Refs s fun y => if y = x then 1 else 0) (hv : s.var v = some e)
    (he : e.isExtended = false) (hx : x < 2 ^ 32) :
    Refs (s.setVar v ⟨UInt32.ofNat x, EXTENDED_ENDPOINT_PORT⟩) fun _ => 0 := by
  have hemb (y : Nat) : (s.setVar v ⟨UInt32.ofNat x, EXTENDED_ENDPOINT_PORT⟩).embedders y =
      s.embedders y + (if y = x then 1 else 0) := by
    have := embedders_setVar hv ⟨UInt32.ofNat x, EXTENDED_ENDPOINT_PORT⟩ y
    rw [embeds_of_not_extended he, embeds_some,
      UInt32.toNat_ofNat_of_lt (show x < UInt32.size from hx)] at this
    by_cases hy : y = x <;> simp [hy, EndPoint.isExtended, Ne.symm] at this ⊢ <;> omega
  exact ⟨fun y => by rw [hemb]; simpa using hr.ref_eq y, fun y => by rw [hemb]; simpa using hr.live_iff y⟩

/-- `erase(x)` takes `x` out of the set when no other entry has its
address. -/
theorem erase_set_of_inj [DecidableEq In6] {t : EpSystem (SockAddr In6)} {x : Nat}
    (hinj : ∀ y ∈ t.set, (t.slots y).addr = (t.slots x).addr → y = x) :
    (t.erase x).set = t.set.erase x := by
  cases hf : t.find x with
  | none =>
    have hx : x ∉ t.set := fun hx => EpSystem.find_none hf x hx rfl
    simp only [EpSystem.erase, hf, List.erase_of_not_mem hx]
  | some y =>
    obtain ⟨hy, hya⟩ := EpSystem.find_some hf
    obtain rfl := hinj y hy hya
    simp only [EpSystem.erase, hf, if_true]

/-- A resource in the pool is the one the constructor makes. -/
theorem Inv.slot_of_dead (h : Inv s) {x : Nat} (hx : (s.slots x).live = false) :
    s.slots x = ⟨0, none, false⟩ := by
  have h1 := h.refs.ref_eq x
  have h2 := h.refs.live_iff x
  have h3 := h.set.dead_addr x hx
  rw [hx] at h2
  cases hsl : s.slots x
  simp only [hsl] at h1 h2 h3 hx
  simp only [Bool.false_eq_true, false_iff, not_lt, Nat.add_zero, Nat.le_zero] at h2
  simp [h1, h2, h3, hx]

/-- `end_point v;` appends a variable that embeds nothing. -/
theorem Inv.declare (h : Inv s) : Inv { s with vars := s.vars ++ [some ⟨IP_ANY, 0⟩] } := by
  have hE (x : Nat) : ({ s with vars := s.vars ++ [some ⟨IP_ANY, 0⟩] } : EpState In6).embedders x =
      s.embedders x := by
    simp [embedders, List.countP_append]
  exact ⟨⟨fun x => by rw [hE]; exact h.refs.ref_eq x, fun x => by rw [hE]; exact h.refs.live_iff x⟩,
    ⟨h.set.mem_iff, h.set.nodup, h.set.addr_inj, h.set.live_addr, h.set.dead_addr⟩⟩

/-- A write into a variable keeps `Inv` unless the old or the new value
embeds an id. -/
theorem Inv.write (h : Inv s) (hv : s.var v = some e) (e' : EndPoint) :
    Inv (s.setVar v e') ∨ (e.isExtended = true ∨ e'.isExtended = true) := by
  cases he : e.isExtended
  · cases he' : e'.isExtended
    · exact .inl ⟨h.refs.setVar_plain hv he he', h.set.setVar e'⟩
    · exact .inr (.inr rfl)
  · exact .inr (.inl rfl)

theorem str2endpointPort_snd (e : EndPoint) (ip : UInt32) (rest : List Char) :
    (s.str2endpointPort e ip rest v).2 = s.setVar v { e with ip := ip, port := toCInt (strtol rest).1 } := by
  unfold str2endpointPort; dsimp only; split_ifs <;> rfl

variable [DecidableEq In6]

/-- `end_point::reset()` of a variable that embeds `x`: `dec_ref`, and at
1 `erase` and `return_resource`. -/
theorem resetVar_spec {pend : Nat → Nat} (hr : Refs s pend) (hs : SetInv s) (hv : s.var v = some e) :
    ∃ s', s.resetVar v e = some s' ∧ Refs s' pend ∧ SetInv s' ∧
      s'.vars = s.vars.set v (some ⟨IP_ANY, 0⟩) ∧
      ∀ y, (s'.slots y).live = true → (s'.slots y).addr = (s.slots y).addr := by
  cases hx : e.isExtended
  · exact ⟨s.setVar v ⟨IP_ANY, 0⟩, by simp [resetVar, hx], hr.setVar_plain hv hx rfl, hs.setVar _, rfl,
      fun _ _ => rfl⟩
  generalize hxd : e.ip.toNat = x
  have hemb (y : Nat) : (s.setVar v ⟨IP_ANY, 0⟩).embedders y + (if x = y then 1 else 0) = s.embedders y := by
    have := embedders_setVar hv ⟨IP_ANY, 0⟩ y
    rw [embeds_any, embeds_some, hx, hxd] at this
    simpa using this
  have hpos : 0 < s.embedders x := hxd ▸ embedders_pos hv hx
  have hxs : x ∈ s.set := (hs.mem_iff x).2 ((hr.live_iff x).2 (by omega))
  have href := hr.ref_eq x
  by_cases h1 : (s.slots x).refCount = 1
  · -- the last reference: `erase` and `return_resource`
    have hp : pend x = 0 ∧ s.embedders x = 1 := by omega
    obtain ⟨s', hres, hsl, hset, hvars⟩ : ∃ s', s.resetVar v e = some s' ∧
        (∀ y, s'.slots y = if y = x then ⟨0, none, false⟩ else s.slots y) ∧
        s'.set = s.set.erase x ∧ s'.vars = s.vars.set v (some ⟨IP_ANY, 0⟩) := by
      refine ⟨_, by rw [resetVar, if_pos hx, decRef, hxd, if_neg (by omega), if_pos h1]; rfl,
        fun y => ?_, ?_, rfl⟩
      · by_cases hy : y = x
        · subst hy; simp [h1]
        · simp [hy]
      · simp only [setVar_toEpSystem, sys_toEpSystem, EpSystem.returnResource_set]
        exact erase_set_of_inj fun y hy hya => hs.addr_inj y hy x hxs (by simpa using hya)
    have hE (y : Nat) : s'.embedders y + (if x = y then 1 else 0) = s.embedders y := by
      rw [← hemb y]; simp only [embedders, hvars, setVar_vars]
    refine ⟨s', hres, ⟨fun y => ?_, fun y => ?_⟩, ⟨fun y => ?_, ?_, ?_, ?_, ?_⟩, hvars, fun y hy => ?_⟩
    · have h := hE y
      rw [hsl]
      by_cases hy : y = x
      · subst hy; rw [if_pos rfl] at h ⊢; simp only [Int.natCast_add]; omega
      · rw [if_neg hy, hr.ref_eq y]; rw [if_neg (Ne.symm hy)] at h; omega
    · have h := hE y
      rw [hsl]
      by_cases hy : y = x
      · subst hy; rw [if_pos rfl] at h ⊢; simp only [Bool.false_eq_true, false_iff]; omega
      · rw [if_neg hy, hr.live_iff y]; rw [if_neg (Ne.symm hy)] at h; omega
    · rw [hset, hsl]
      split_ifs with hy
      · subst hy; simp [hs.nodup.not_mem_erase]
      · rw [List.mem_erase_of_ne hy]; exact hs.mem_iff y
    · rw [hset]; exact hs.nodup.erase x
    · intro y hy z hz hyz
      rw [hset] at hy hz
      rw [hsl, hsl, if_neg (List.Nodup.mem_erase_iff hs.nodup |>.mp hy).1,
        if_neg (List.Nodup.mem_erase_iff hs.nodup |>.mp hz).1] at hyz
      exact hs.addr_inj y (List.mem_of_mem_erase hy) z (List.mem_of_mem_erase hz) hyz
    · intro y hy
      rw [hsl] at hy ⊢
      split_ifs at hy ⊢
      exact hs.live_addr y hy
    · intro y hy
      rw [hsl] at hy ⊢
      split_ifs at hy ⊢ with hyx
      · rfl
      · exact hs.dead_addr y hy
    · rw [hsl] at hy ⊢
      split_ifs at hy ⊢
      rfl
  · obtain ⟨s', hres, hsl, hset, hvars⟩ : ∃ s', s.resetVar v e = some s' ∧
        (∀ y, s'.slots y = if y = x then { s.slots x with refCount := (s.slots x).refCount - 1 }
          else s.slots y) ∧ s'.set = s.set ∧ s'.vars = s.vars.set v (some ⟨IP_ANY, 0⟩) :=
      ⟨_, by rw [resetVar, if_pos hx, decRef, hxd, if_neg (by omega), if_neg h1]; rfl,
        fun y => by simp [Function.update_apply], by rfl, by rfl⟩
    have hE (y : Nat) : s'.embedders y + (if x = y then 1 else 0) = s.embedders y := by
      rw [← hemb y]; simp only [embedders, hvars, setVar_vars]
    have hlive (y : Nat) : (s'.slots y).live = (s.slots y).live := by
      rw [hsl]; split_ifs with hy <;> simp [hy]
    have haddr (y : Nat) : (s'.slots y).addr = (s.slots y).addr := by
      rw [hsl]; split_ifs with hy <;> simp [hy]
    refine ⟨s', hres, ⟨fun y => ?_, fun y => ?_⟩, hs.of_slots hset hlive haddr, hvars, fun y _ => haddr y⟩
    · have h := hE y
      rw [hsl]
      by_cases hy : y = x
      · subst hy; rw [if_pos rfl] at h ⊢; show (s.slots y).refCount - 1 = _; omega
      · rw [if_neg hy, hr.ref_eq y]; rw [if_neg (Ne.symm hy)] at h; omega
    · have h := hE y
      rw [hlive, hr.live_iff y]
      by_cases hy : y = x
      · subst hy; rw [if_pos rfl] at h; omega
      · rw [if_neg (Ne.symm hy)] at h; omega



/-- `embed_to(ep)` of an entry `x` with one pending reference: `reset()`,
then the variable embeds `x`. -/
theorem embedTo_spec {x : Nat} (hr : Refs s fun y => if y = x then 1 else 0) (hs : SetInv s)
    (hv : s.var v = some e) (hx : x < 2 ^ 32) :
    ∃ s', s.embedTo x v = some s' ∧ Refs s' (fun _ => 0) ∧ SetInv s' ∧
      s'.vars = s.vars.set v (some ⟨UInt32.ofNat x, EXTENDED_ENDPOINT_PORT⟩) ∧
      (s'.slots x).addr = (s.slots x).addr := by
  obtain ⟨s₁, h₁, hr₁, hs₁, hv₁, ha₁⟩ := resetVar_spec hr hs hv
  have hlt := (lt_of_var hv).1
  have hv₁' : s₁.var v = some ⟨IP_ANY, 0⟩ := by
    unfold var; rw [hv₁, List.getElem?_set_self hlt]; rfl
  refine ⟨s₁.setVar v ⟨UInt32.ofNat x, EXTENDED_ENDPOINT_PORT⟩, ?_, hr₁.embedVar hv₁' rfl hx, hs₁.setVar _,
    by simp [hv₁], ha₁ x ((hr₁.live_iff x).2 (by simp))⟩
  have : ¬ 2 ^ 32 ≤ x := by omega
  simp only [embedTo, this, if_false, hv, h₁, Option.map_some']

/-- `new_extended_endpoint` for address `a`, then `dedup`: the entry to
embed, with one reference no variable carries yet. -/
theorem dedup_spec (h : Inv s) {fresh : Nat} (hf : (s.slots fresh).live = false) (a : SockAddr In6) :
    ∃ s₁, s.newExtendedEndpoint fresh a = some s₁ ∧
      Refs (s₁.dedup fresh).2 (fun y => if y = (s₁.dedup fresh).1 then 1 else 0) ∧
      SetInv (s₁.dedup fresh).2 ∧ (s₁.dedup fresh).2.vars = s.vars ∧
      ((s₁.dedup fresh).2.slots (s₁.dedup fresh).1).addr = some a ∧
      ((s₁.dedup fresh).1 = fresh ∨ (s₁.dedup fresh).1 < 2 ^ 32) := by
  have hf0 := h.slot_of_dead hf
  have hfs : fresh ∉ s.set := fun hm => by rw [(h.set.mem_iff fresh).1 hm] at hf; cases hf
  refine ⟨s.sys (·.getResource fresh ⟨1, some a, true⟩), by simp [newExtendedEndpoint, hf0], ?_⟩
  generalize ht : s.sys (·.getResource fresh ⟨1, some a, true⟩) = t
  have htsl (y : Nat) : t.slots y = if y = fresh then ⟨1, some a, true⟩ else s.slots y := by
    rw [← ht]; simp [Function.update_apply]
  have htset : t.set = s.set := by rw [← ht]; rfl
  have htemb (y : Nat) : t.embedders y = s.embedders y := by rw [← ht]; rfl
  have hemb0 : s.embedders fresh = 0 := by
    have := h.refs.ref_eq fresh; rw [hf0] at this; simp at this; omega
  cases hfind : t.toEpSystem.find fresh with
  | none =>
    -- a new entry
    obtain ⟨hd1, hdsl, hdset, hdvars⟩ : (t.dedup fresh).1 = fresh ∧ (t.dedup fresh).2.slots = t.slots ∧
        (t.dedup fresh).2.set = s.set ++ [fresh] ∧ (t.dedup fresh).2.vars = s.vars := by
      simp only [dedup, EpSystem.insert_of_find_none hfind, if_true]
      exact ⟨trivial, rfl, by simp [htset], by rw [← ht]; rfl⟩
    have hE (y : Nat) : (t.dedup fresh).2.embedders y = s.embedders y := by
      simp only [embedders, hdvars]
    rw [hd1]
    refine ⟨⟨fun y => ?_, fun y => ?_⟩, ⟨fun y => ?_, ?_, fun y hy z hz => ?_, fun y => ?_, fun y => ?_⟩,
      hdvars, by rw [hdsl, htsl, if_pos rfl], .inl rfl⟩
    · rw [hdsl, htsl, hE]
      by_cases hy : y = fresh
      · subst hy; simp [hemb0]
      · simp [hy, h.refs.ref_eq y]
    · rw [hdsl, htsl, hE]
      by_cases hy : y = fresh
      · subst hy; simp
      · simp [hy, h.refs.live_iff y]
    · rw [hdset, hdsl, htsl]
      by_cases hy : y = fresh
      · subst hy; simp
      · simp [hy, h.set.mem_iff y]
    · rw [hdset]
      exact List.nodup_append.mpr ⟨h.set.nodup, List.nodup_singleton _,
        fun y hy hy' => hfs (List.mem_singleton.mp hy' ▸ hy)⟩
    · rw [hdset] at hy hz
      rw [hdsl]
      have hne {w : Nat} (hw : w ∈ s.set) : t.slots w = s.slots w := by
        rw [htsl, if_neg fun (e : w = fresh) => hfs (e ▸ hw)]
      rcases List.mem_append.mp hy with hy | hy <;> rcases List.mem_append.mp hz with hz | hz
      · rw [hne hy, hne hz]; exact h.set.addr_inj y hy z hz
      · rw [List.mem_singleton.mp hz]
        exact fun e => absurd e (EpSystem.find_none hfind y (htset ▸ hy))
      · rw [List.mem_singleton.mp hy]
        exact fun e => absurd e.symm (EpSystem.find_none hfind z (htset ▸ hz))
      · rw [List.mem_singleton.mp hy, List.mem_singleton.mp hz]; exact fun _ => rfl
    · rw [hdsl, htsl]
      by_cases hy : y = fresh
      · subst hy; simp
      · simp only [hy, if_false]; exact h.set.live_addr y
    · rw [hdsl, htsl]
      by_cases hy : y = fresh
      · subst hy; simp
      · simp only [hy, if_false]; exact h.set.dead_addr y
  | some e =>
    -- an entry for `a` in use: its `fetch_add` stands, `fresh` goes back
    obtain ⟨he, hea⟩ := EpSystem.find_some hfind
    have hes : e ∈ s.set := htset ▸ he
    have hef : e ≠ fresh := fun h => hfs (h ▸ hes)
    have hte : t.slots e = s.slots e := by rw [htsl, if_neg hef]
    have hpos := (h.refs.live_iff e).1 ((h.set.mem_iff e).1 hes)
    have href := h.refs.ref_eq e
    have hne : (t.slots e).refCount ≠ 0 := by rw [hte]; simp at hpos; omega
    obtain ⟨hd1, hdsl, hdset, hdvars⟩ : (t.dedup fresh).1 = e ∧
        (∀ y, (t.dedup fresh).2.slots y =
          if y = e then { s.slots e with refCount := (s.slots e).refCount + 1 } else s.slots y) ∧
        (t.dedup fresh).2.set = s.set ∧ (t.dedup fresh).2.vars = s.vars := by
      simp only [dedup, EpSystem.insert_of_live_entry hfind hne, if_neg hef]
      refine ⟨trivial, fun y => ?_, by simp [htset], by rw [← ht]; rfl⟩
      by_cases hy : y = fresh
      · subst hy; simp [hef.symm, hf0]
      · by_cases hye : y = e
        · subst hye; simp [hy, hte]
        · simp [hy, hye, htsl]
    have hE (y : Nat) : (t.dedup fresh).2.embedders y = s.embedders y := by
      simp only [embedders, hdvars]
    have hlive (y : Nat) : ((t.dedup fresh).2.slots y).live = (s.slots y).live := by
      rw [hdsl]; split_ifs with hy <;> simp [hy]
    have haddr (y : Nat) : ((t.dedup fresh).2.slots y).addr = (s.slots y).addr := by
      rw [hdsl]; split_ifs with hy <;> simp [hy]
    rw [hd1]
    refine ⟨⟨fun y => ?_, fun y => ?_⟩, h.set.of_slots hdset hlive haddr, hdvars, ?_,
      .inr (lt_of_embedders_pos (show 0 < s.embedders e by simpa using hpos))⟩
    · rw [hdsl, hE]
      by_cases hy : y = e
      · subst hy; simp [href]
      · simp [hy, h.refs.ref_eq y]
    · rw [hlive, hE, h.refs.live_iff y]
      by_cases hy : y = e
      · subst hy; simp; omega
      · simp [hy]
    · rw [haddr, ← hte, hea, htsl, if_pos rfl]

/-- `create` once the address is known: `new_extended_endpoint`,
`dedup`, `embed_to`. When it succeeds, `v` embeds the entry for `a`, and
`Inv` holds again. -/
theorem newEmbed_spec (h : Inv s) (hv : s.var v = some e) {fresh : Nat} {a : SockAddr In6}
    {r : Option Nat} {s' : EpState In6} (hres : s.newEmbed a v fresh = some (r, s')) :
    ∃ x, r = some x ∧ Inv s' ∧ s'.vars = s.vars.set v (some ⟨UInt32.ofNat x, EXTENDED_ENDPOINT_PORT⟩) ∧
      (s'.slots x).addr = some a := by
  have hf : (s.slots fresh).live = false := by
    by_contra hl
    simp [newEmbed, newExtendedEndpoint, hl] at hres
  obtain ⟨s₁, h₁, hr, hs, hvars, ha, -⟩ := dedup_spec h hf a
  have hv' : (s₁.dedup fresh).2.var v = some e := by unfold var; rw [hvars]; exact hv
  by_cases hx : (s₁.dedup fresh).1 < 2 ^ 32
  · obtain ⟨s₂, h₂, hr₂, hs₂, hvars₂, ha₂⟩ := embedTo_spec hr hs hv' hx
    have : s.newEmbed a v fresh = some (some (s₁.dedup fresh).1, s₂) := by simp [newEmbed, h₁, h₂]
    rw [this] at hres
    cases hres
    exact ⟨_, rfl, ⟨hr₂, hs₂⟩, by rw [hvars₂, hvars], by rw [ha₂, ha]⟩
  · have : (s₁.dedup fresh).2.embedTo (s₁.dedup fresh).1 v = none := by
      unfold embedTo; rw [if_pos (Nat.le_of_not_lt hx)]
    simp [newEmbed, h₁, this] at hres

/-- `create` succeeds once `get_resource` hands out a free id that fits
in `ip`. -/
theorem newEmbed_isSome (h : Inv s) (hv : s.var v = some e) {fresh : Nat} (hf : (s.slots fresh).live = false)
    (hf32 : fresh < 2 ^ 32) (a : SockAddr In6) : ∃ r s', s.newEmbed a v fresh = some (r, s') := by
  obtain ⟨s₁, h₁, hr, hs, hvars, -, hx⟩ := dedup_spec h hf a
  have hv' : (s₁.dedup fresh).2.var v = some e := by unfold var; rw [hvars]; exact hv
  obtain ⟨s₂, h₂, -⟩ := embedTo_spec hr hs hv' (hx.elim (fun e => by rw [e]; exact hf32) id)
  exact ⟨some (s₁.dedup fresh).1, s₂, by simp [newEmbed, h₁, h₂]⟩

variable (env : Env In6)

/-- Both branches of an `if` do nothing or create, so the `if` does. -/
theorem ite_created {c : Prop} [Decidable c] {x y : Option (Option Nat × EpState In6)} {fresh : Nat}
    (hx : x = some (none, s) ∨ ∃ a, x = s.newEmbed a v fresh)
    (hy : y = some (none, s) ∨ ∃ a, y = s.newEmbed a v fresh) :
    (if c then x else y) = some (none, s) ∨ ∃ a, (if c then x else y) = s.newEmbed a v fresh := by
  split <;> assumption

/-- `create(sp, port, ep)` returns null having done nothing, or creates
an `ExtendedEndPoint` for some address. -/
theorem createPort_cases (sp : List Char) (port : Int) (fresh : Nat) :
    s.createPort env sp port v fresh = some (none, s) ∨
      ∃ a, s.createPort env sp port v fresh = s.newEmbed a v fresh := by
  unfold createPort
  dsimp only
  refine ite_created (.inl rfl) (ite_created (ite_created (.inl rfl) ?_)
    (ite_created (ite_created (.inl rfl) (.inr ⟨_, rfl⟩)) (.inl rfl)))
  split
  · exact .inl rfl
  · exact .inr ⟨_, rfl⟩

theorem create_cases (sp : List Char) (fresh : Nat) :
    s.create env sp v fresh = some (none, s) ∨ ∃ a, s.create env sp v fresh = s.newEmbed a v fresh := by
  unfold create
  dsimp only
  generalize env.trimAll sp = t
  split
  · exact .inl rfl
  · split
    · exact .inl rfl
    · exact ite_created (.inl rfl) (ite_created (.inl rfl) (ite_created (.inl rfl)
        (ite_created (.inl rfl) (createPort_cases env _ _ _))))
  · exact ite_created (createPort_cases env _ _ _) (.inl rfl)

theorem createSockaddr_cases (ss : SockAddrStorage In6) (fresh : Nat) :
    s.createSockaddr ss v fresh = some (none, s) ∨
      ∃ a, s.createSockaddr ss v fresh = s.newEmbed a v fresh := by
  unfold createSockaddr
  split
  · exact .inr ⟨_, rfl⟩
  · exact .inr ⟨_, rfl⟩
  · exact .inl rfl

/-- What a `create` that names an existing variable leaves. -/
theorem create_result (h : Inv s) (hv : s.var v = some e) {c : Option (Option Nat × EpState In6)}
    (hc : c = some (none, s) ∨ ∃ a, c = s.newEmbed a v fresh) {r : Option Nat} {s' : EpState In6}
    (hres : c = some (r, s')) : (r = none ∧ s' = s) ∨ (r.isSome ∧ Inv s') := by
  rcases hc with hc | ⟨a, hc⟩
  · rw [hc] at hres; cases hres; exact .inl ⟨rfl, rfl⟩
  · rw [hc] at hres
    obtain ⟨x, rfl, hi, -⟩ := newEmbed_spec h hv hres
    exact .inr ⟨rfl, hi⟩

/-! ## 4. Calls -/

/-- The end of a variable's scope: `reset()`, and the variable is gone. -/
theorem Inv.destroy (h : Inv s) (hv : s.var v = some e) {s₁ : EpState In6}
    (h₁ : s.resetVar v e = some s₁) : Inv { s₁ with vars := s₁.vars.set v none } := by
  obtain ⟨s₂, h₂, hr, hs, hvars, -⟩ := resetVar_spec h.refs h.set hv
  rw [h₁] at h₂; cases h₂
  have hlt : v < s₁.vars.length := by rw [hvars, List.length_set]; exact (lt_of_var hv).1
  have hE (x : Nat) : ({ s₁ with vars := s₁.vars.set v none } : EpState In6).embedders x =
      s₁.embedders x := by
    simp only [embedders, List.countP_set _ _ _ _ hlt]
    simp [hvars, List.getElem_set_self]
  exact ⟨⟨fun x => by rw [hE]; exact hr.ref_eq x, fun x => by rw [hE]; exact hr.live_iff x⟩,
    ⟨hs.mem_iff, hs.nodup, hs.addr_inj, hs.live_addr, hs.dead_addr⟩⟩

/-- After `reset()` of `v`, `set_endpoint` from a variable read then. -/
theorem Inv.resetThenSet (h : Inv s) (hv : s.var v = some e) {s₁ : EpState In6}
    (h₁ : s.resetVar v e = some s₁) {r : EndPoint}
    (hlive : r.isExtended = true → 0 < s₁.embedders r.ip.toNat) {s₂ : EpState In6}
    (h₂ : s₁.setEndpoint v r = some s₂) : Inv s₂ := by
  obtain ⟨s₃, h₃, hr, hs, hvars, -⟩ := resetVar_spec h.refs h.set hv
  rw [h₁] at h₃; cases h₃
  have hv₁ : s₁.var v = some ⟨IP_ANY, 0⟩ := by
    unfold var; rw [hvars, List.getElem?_set_self (lt_of_var hv).1]; rfl
  obtain ⟨s₄, h₄, hr₄, hs₄, -⟩ := setEndpoint_spec hr hs hv₁ rfl r
    fun hx => (hr.live_iff _).2 (by simpa using hlive hx)
  rw [h₂] at h₄; cases h₄
  exact ⟨hr₄, hs₄⟩

/-- A text call: `create` first, and on null the IPv4 path `k`, which
changes nothing or writes variable `v`. -/
theorem Inv.afterCreate (h : Inv s) (hv : s.var v = some e) {fresh : Nat}
    {c : Option (Option Nat × EpState In6)} (hc : c = some (none, s) ∨ ∃ a, c = s.newEmbed a v fresh)
    {k : Option (Int × EpState In6)}
    (hk : ∀ rc s', k = some (rc, s') → s' = s ∨ ∃ e', s' = s.setVar v e') {rc : Int} {s' : EpState In6}
    (hres : (c.bind fun r => if r.1.isSome then some (0, r.2) else k) = some (rc, s')) :
    Inv s' ∨ ∃ e', s' = s.setVar v e' ∧ (e.isExtended = true ∨ e'.isExtended = true) := by
  cases hcv : c with
  | none => rw [hcv] at hres; cases hres
  | some r =>
    obtain ⟨r, s₁⟩ := r
    rw [hcv, Option.some_bind] at hres
    rcases create_result h hv hc hcv with ⟨h1, rfl⟩ | ⟨h1, hi⟩
    · rw [h1] at hres
      rcases hk rc s' hres with rfl | ⟨e', rfl⟩
      · exact .inl h
      · exact (h.write hv e').imp id fun he => ⟨e', rfl, he⟩
    · rw [if_pos h1] at hres
      cases hres
      exact .inl hi

omit [DecidableEq In6] in
/-- Copy construction keeps `Inv`. -/
theorem Inv.copy (h : Inv s) {w : Nat} (hw : s.var w = some e) {s' : EpState In6}
    (hs : ({ s with vars := s.vars ++ [none] } : EpState In6).setEndpoint s.vars.length e = some s') :
    Inv s' := by
  have hset (o : Option EndPoint) : ({ s with vars := s.vars ++ [o] } : EpState In6).setVar s.vars.length e =
      { s with vars := s.vars ++ [some e] } := by
    simp [setVar, List.set_append_right]
  have hd := h.declare
  have hdv : ({ s with vars := s.vars ++ [some ⟨IP_ANY, 0⟩] } : EpState In6).var s.vars.length =
      some ⟨IP_ANY, 0⟩ := by
    simp [var]
  have hE (x : Nat) : ({ s with vars := s.vars ++ [some ⟨IP_ANY, 0⟩] } : EpState In6).embedders x =
      s.embedders x := by
    simp [embedders, List.countP_append]
  obtain ⟨s₂, h₂, hr, hs₂, -⟩ := setEndpoint_spec hd.refs hd.set hdv rfl e
    fun hx => (hd.refs.live_iff _).2 (by rw [hE]; simpa using embedders_pos hw hx)
  rw [setEndpoint, hset, ← hset (some ⟨IP_ANY, 0⟩), ← setEndpoint, h₂] at hs
  cases hs
  exact ⟨hr, hs₂⟩

/-- `v = w` keeps `Inv`. -/
theorem Inv.assign (h : Inv s) {w : Nat} {s' : EpState In6} (hs : s.assign v w = some s') : Inv s' := by
  unfold EpState.assign at hs
  cases hv : s.var v with
  | none => rw [hv] at hs; cases hs
  | some e =>
    simp only [hv] at hs
    cases h₁ : s.resetVar v e with
    | none => rw [h₁] at hs; cases hs
    | some s₁ =>
      rw [h₁, Option.some_bind] at hs
      cases hw : s₁.var w with
      | none => rw [hw] at hs; cases hs
      | some r =>
        simp only [hw] at hs
        exact h.resetThenSet hv h₁ (fun hx => embedders_pos hw hx) hs

/-- `sockaddr2endpoint` keeps `Inv`. -/
theorem Inv.sockaddr2endpoint (h : Inv s) {ss : SockAddrStorage In6} {fresh : Nat} {rc : Int}
    {s' : EpState In6} (hs : s.sockaddr2endpoint ss v fresh = some (rc, s')) : Inv s' := by
  unfold EpState.sockaddr2endpoint at hs
  cases hv : s.var v with
  | none => rw [hv] at hs; cases hs
  | some e =>
    simp only [hv] at hs
    cases ss with
    | inet ip port =>
      have hport : (⟨ip, port.toNat⟩ : EndPoint).isExtended = false := by
        have : port.toNat < 65536 := port.toBitVec.isLt
        simp [EndPoint.isExtended, EXTENDED_ENDPOINT_PORT]; omega
      cases h₁ : s.resetVar v e with
      | none => simp [h₁] at hs
      | some s₁ =>
        cases h₂ : s₁.setEndpoint v ⟨ip, port.toNat⟩ with
        | none => simp [h₁, h₂] at hs
        | some s₂ =>
          simp only [h₁, h₂, Option.some_bind, Option.map_some', Option.some.injEq, Prod.mk.injEq] at hs
          rw [← hs.2]
          exact h.resetThenSet hv h₁ (fun hx => by rw [hport] at hx; cases hx) h₂
    | in6 a port flow scope | un path | other =>
      obtain ⟨r, hr, hrs⟩ := Option.map_eq_some'.mp hs
      obtain rfl : r.2 = s' := congrArg Prod.snd hrs
      rcases create_result h hv (createSockaddr_cases _ _) hr with ⟨-, h₂⟩ | ⟨-, hi⟩
      · exact h₂ ▸ h
      · exact hi

/-- What a text call leaves: `Inv`, or a write into variable `v` that
involves an extended value. -/
def Clobbered (s s' : EpState In6) (v : Nat) : Prop :=
  ∃ e e', s.var v = some e ∧ s' = s.setVar v e' ∧ (e.isExtended = true ∨ e'.isExtended = true)

theorem Inv.str2endpoint (h : Inv s) {str : List Char} {fresh : Nat} {rc : Int} {s' : EpState In6}
    (hs : s.str2endpoint env str v fresh = some (rc, s')) : Inv s' ∨ Clobbered s s' v := by
  unfold EpState.str2endpoint at hs
  cases hv : s.var v with
  | none => simp [hv] at hs
  | some e =>
    simp only [hv] at hs
    refine (h.afterCreate hv (create_cases env str fresh) ?_ hs).imp id
      fun ⟨e', h1, h2⟩ => ⟨e, e', hv, h1, h2⟩
    intro rc s' hk
    split_ifs at hk
    · cases hk; exact .inl rfl
    · cases hip : str2ip (str.takeWhile (· != ':')) with
      | none => simp only [hip, Option.some.injEq, Prod.mk.injEq] at hk; exact .inl hk.2.symm
      | some ip =>
        simp only [hip, Option.some.injEq] at hk
        have := congrArg Prod.snd hk
        rw [str2endpointPort_snd] at this
        exact .inr ⟨_, this.symm⟩

theorem Inv.str2endpointWithPort (h : Inv s) {str : List Char} {port : Int} {fresh : Nat} {rc : Int}
    {s' : EpState In6} (hs : s.str2endpointWithPort env str port v fresh = some (rc, s')) :
    Inv s' ∨ Clobbered s s' v := by
  unfold EpState.str2endpointWithPort at hs
  cases hv : s.var v with
  | none => simp [hv] at hs
  | some e =>
    simp only [hv] at hs
    refine (h.afterCreate hv (createPort_cases env str port fresh) ?_ hs).imp id
      fun ⟨e', h1, h2⟩ => ⟨e, e', hv, h1, h2⟩
    intro rc s' hk
    split at hk
    · cases hk; exact .inl rfl
    · split_ifs at hk <;> cases hk <;> exact .inr ⟨_, rfl⟩

omit [DecidableEq In6] in
theorem Inv.hostname2endpoint (h : Inv s) {str : List Char} {rc : Int} {s' : EpState In6}
    (hs : s.hostname2endpoint env str v = some (rc, s')) : Inv s' ∨ Clobbered s s' v := by
  unfold EpState.hostname2endpoint at hs
  cases hv : s.var v with
  | none => simp [hv] at hs
  | some e =>
    simp only [hv] at hs
    generalize hostname2ip env (str.takeWhile (· != ':')) = oip at hs
    generalize str.drop _ = rest at hs
    generalize strtol rest = p at hs
    have hk : s' = s ∨ ∃ e', s' = s.setVar v e' := by
      split_ifs at hs <;> cases oip <;> cases hs
      all_goals first | exact .inl rfl | exact .inr ⟨_, rfl⟩
    rcases hk with rfl | ⟨e', rfl⟩
    · exact .inl h
    · exact (h.write hv e').imp id fun h2 => ⟨e, e', hv, rfl, h2⟩

omit [DecidableEq In6] in
theorem Inv.hostname2endpointWithPort (h : Inv s) {str : List Char} {port : Int} {rc : Int}
    {s' : EpState In6} (hs : s.hostname2endpointWithPort env str port v = some (rc, s')) :
    Inv s' ∨ Clobbered s s' v := by
  unfold EpState.hostname2endpointWithPort at hs
  cases hv : s.var v with
  | none => simp [hv] at hs
  | some e =>
    simp only [hv] at hs
    have hk : s' = s ∨ ∃ e', s' = s.setVar v e' := by
      split at hs
      · cases hs; exact .inl rfl
      · split_ifs at hs <;> cases hs <;> exact .inr ⟨_, rfl⟩
    rcases hk with rfl | ⟨e', rfl⟩
    · exact .inl h
    · exact (h.write hv e').imp id fun h2 => ⟨e, e', hv, rfl, h2⟩

/-! ## 6. Assignment -/

/-- `a = b` for two variables: `a` holds what `b` held, `b` is unchanged,
and `Inv` holds again. `b`'s resource has a reference of its own, so
`a`'s `reset()` cannot free it. -/
theorem assign_of_ne (h : Inv s) {w : Nat} (hvw : v ≠ w) (hv : s.var v = some e) {e' : EndPoint}
    (hw : s.var w = some e') :
    ∃ s', s.assign v w = some s' ∧ s'.var v = some e' ∧ s'.var w = some e' ∧ Inv s' := by
  obtain ⟨s₁, h₁, hr₁, hs₁, hv₁, -⟩ := resetVar_spec h.refs h.set hv
  have hlt := (lt_of_var hv).1
  have hv₁' : s₁.var v = some ⟨IP_ANY, 0⟩ := by unfold var; rw [hv₁, List.getElem?_set_self hlt]; rfl
  have hw₁ : s₁.var w = some e' := by unfold var; rw [hv₁, List.getElem?_set_ne hvw]; exact hw
  obtain ⟨s', hs', hr', hss', hv'⟩ := setEndpoint_spec hr₁ hs₁ hv₁' rfl e'
    fun hx => (hr₁.live_iff _).2 (by simpa using embedders_pos hw₁ hx)
  have has : s.assign v w = some s' := by simp only [assign, hv, h₁, Option.some_bind, hw₁, hs']
  refine ⟨s', has, ?_, ?_, h.assign has⟩
  · unfold var; rw [hv', List.getElem?_set_self (by rw [hv₁, List.length_set]; exact hlt)]; rfl
  · unfold var; rw [hv', List.getElem?_set_ne hvw, hw₁.symm]; rfl

/-- `a = a`: `reset()` runs before `rhs` is read, so `a` ends as
`0.0.0.0:0`, whatever it held. -/
theorem assign_self_resets (h : Inv s) (hv : s.var v = some e) :
    ∃ s', s.assign v v = some s' ∧ s'.var v = some ⟨IP_ANY, 0⟩ ∧ Inv s' := by
  obtain ⟨s₁, h₁, hr₁, hs₁, hv₁, -⟩ := resetVar_spec h.refs h.set hv
  have hlt := (lt_of_var hv).1
  have hv₁' : s₁.var v = some ⟨IP_ANY, 0⟩ := by unfold var; rw [hv₁, List.getElem?_set_self hlt]; rfl
  obtain ⟨s', hs', -, -, hv'⟩ := setEndpoint_spec hr₁ hs₁ hv₁' rfl ⟨IP_ANY, 0⟩ fun hx => nomatch hx
  have has : s.assign v v = some s' := by simp only [assign, hv, h₁, Option.some_bind, hv₁', hs']
  refine ⟨s', has, ?_, h.assign has⟩
  unfold var; rw [hv', List.getElem?_set_self (by rw [hv₁, List.length_set]; exact hlt)]; rfl

end EpState

namespace EndPointOp

variable {In6 : Type} [DecidableEq In6] (env : Env In6)

/-- The variable a call writes through its IPv4 path, if it has one. -/
def ipv4Target : EndPointOp In6 → Option Nat
  | .str2endpoint _ v _ | .str2endpointWithPort _ _ v _ | .hostname2endpoint _ v
  | .hostname2endpointWithPort _ _ v => some v
  | _ => none

/-- Every call keeps `Inv`, except an IPv4 path of `str2endpoint` or
`hostname2endpoint` writing over an extended value or writing one. -/
theorem step_keeps_inv {s s' : EpState In6} (h : s.Inv) {op : EndPointOp In6}
    (hs : step env s op = some s') :
    s'.Inv ∨ ∃ v, op.ipv4Target = some v ∧ s.Clobbered s' v := by
  cases op with
  | declare => cases hs; exact .inl h.declare
  | copy w =>
    simp only [step] at hs
    cases hw : s.var w with
    | none => simp [hw] at hs
    | some e => simp only [hw] at hs; exact .inl (h.copy hw hs)
  | assign v w => exact .inl (h.assign hs)
  | reset v =>
    simp only [step] at hs
    cases hv : s.var v with
    | none => simp [hv] at hs
    | some e =>
      simp only [hv, Option.some_bind] at hs
      obtain ⟨s₁, h₁, hr, hs₁, -⟩ := EpState.resetVar_spec h.refs h.set hv
      rw [h₁] at hs; cases hs; exact .inl ⟨hr, hs₁⟩
  | destroy v =>
    simp only [step] at hs
    cases hv : s.var v with
    | none => simp [hv] at hs
    | some e =>
      simp only [hv, Option.some_bind] at hs
      obtain ⟨s₁, h₁, rfl⟩ := Option.map_eq_some'.mp hs
      exact .inl (h.destroy hv h₁)
  | str2endpoint str v fresh =>
    obtain ⟨⟨rc, s₁⟩, h₁, rfl⟩ := Option.map_eq_some'.mp hs
    exact (h.str2endpoint env h₁).imp id fun hc => ⟨v, rfl, hc⟩
  | str2endpointWithPort str port v fresh =>
    obtain ⟨⟨rc, s₁⟩, h₁, rfl⟩ := Option.map_eq_some'.mp hs
    exact (h.str2endpointWithPort env h₁).imp id fun hc => ⟨v, rfl, hc⟩
  | hostname2endpoint str v =>
    obtain ⟨⟨rc, s₁⟩, h₁, rfl⟩ := Option.map_eq_some'.mp hs
    exact (h.hostname2endpoint env h₁).imp id fun hc => ⟨v, rfl, hc⟩
  | hostname2endpointWithPort str port v =>
    obtain ⟨⟨rc, s₁⟩, h₁, rfl⟩ := Option.map_eq_some'.mp hs
    exact (h.hostname2endpointWithPort env h₁).imp id fun hc => ⟨v, rfl, hc⟩
  | sockaddr2endpoint ss v fresh =>
    obtain ⟨⟨rc, s₁⟩, h₁, rfl⟩ := Option.map_eq_some'.mp hs
    exact .inl (h.sockaddr2endpoint h₁)

/-- Over every sequence of calls, `Inv` holds at the end unless one call
was an IPv4 path of `str2endpoint` or `hostname2endpoint` writing over
an extended value or writing one. -/
theorem run_keeps_inv {s : EpState In6} (h : s.Inv) (ops : List (EndPointOp In6)) :
    (run env s ops).Inv ∨ ∃ (i : Nat) (hi : i < ops.length) (v : Nat) (s' : EpState In6),
      step env (run env s (ops.take i)) ops[i] = some s' ∧ ops[i].ipv4Target = some v ∧
      (run env s (ops.take i)).Clobbered s' v := by
  induction ops generalizing s with
  | nil => exact .inl h
  | cons op ops ih =>
    /- A clobber in the tail is one in the whole run, one index on. -/
    have shift (t : EpState In6) (ht : (step env s op).getD s = t) (h' : t.Inv) :
        (run env s (op :: ops)).Inv ∨ ∃ (i : Nat) (hi : i < (op :: ops).length) (v : Nat) (s' : EpState In6),
          step env (run env s ((op :: ops).take i)) (op :: ops)[i] = some s' ∧
          (op :: ops)[i].ipv4Target = some v ∧ (run env s ((op :: ops).take i)).Clobbered s' v := by
      have hrun (l : List (EndPointOp In6)) : run env s (op :: l) = run env t l := by
        rw [← ht]; rfl
      rcases ih h' with hi | ⟨i, hi, v, s', h1, h2, h3⟩
      · exact .inl (by rw [hrun]; exact hi)
      · refine .inr ⟨i + 1, by simp [hi], v, s', ?_, h2, ?_⟩
        · simpa [hrun] using h1
        · simpa [hrun] using h3
    cases hs : step env s op with
    | none => exact shift s (by rw [hs]; rfl) h
    | some s₁ =>
      rcases step_keeps_inv env h hs with h₁ | ⟨v, hv, hc⟩
      · exact shift s₁ (by rw [hs]; rfl) h₁
      · exact .inr ⟨0, by simp, v, s₁, by simpa using hs, hv, by simpa using hc⟩

/-! ## 5. The IPv4 path over an extended `end_point` -/

/-- `end_point p; str2endpoint("unix:/a", &p); str2endpoint("1.2.3.4:80", &p);`,
the pool handing out id 0, then id 1. -/
def leakOps : List (EndPointOp In6) :=
  [.declare, .str2endpoint "unix:/a".toList 0 0, .str2endpoint "1.2.3.4:80".toList 0 1]

/-- After those calls `p` is `1.2.3.4:80`, and the resource of `unix:/a`
is in use with `_ref_count` 1 while no variable embeds it: nothing will
`dec_ref` it. It holds whatever `trim_all` is, as long as it leaves the
two strings, which have no white space, as they are. -/
theorem str2endpoint_leaks_extended (h1 : env.trimAll "unix:/a".toList = "unix:/a".toList)
    (h2 : env.trimAll "1.2.3.4:80".toList = "1.2.3.4:80".toList) :
    ((run env EpState.empty leakOps).slots 0).live = true ∧
      ((run env EpState.empty leakOps).slots 0).refCount = 1 ∧
      (run env EpState.empty leakOps).embedders 0 = 0 ∧
      (run env EpState.empty leakOps).var 0 = some ⟨UInt32.ofNat 0x04030201, 80⟩ := by
  simp only [run, leakOps, List.foldl, step, EpState.str2endpoint, EpState.create, EpState.createPort, h1, h2]
  exact ⟨rfl, rfl, rfl, rfl⟩

end EndPointOp

/-- The environment that leaves every string as it is, parses no IPv6
address and resolves no name. -/
def plainEnv : Env Unit := ⟨id, fun _ => none, fun _ => [], fun _ => none⟩

theorem str2endpoint_leaks_extended_plain :
    plainEnv.trimAll "unix:/a".toList = "unix:/a".toList ∧
      plainEnv.trimAll "1.2.3.4:80".toList = "1.2.3.4:80".toList ∧
      ((EndPointOp.run plainEnv EpState.empty EndPointOp.leakOps).slots 0).live = true ∧
      ((EndPointOp.run plainEnv EpState.empty EndPointOp.leakOps).slots 0).refCount = 1 ∧
      (EndPointOp.run plainEnv EpState.empty EndPointOp.leakOps).embedders 0 = 0 ∧
      (EndPointOp.run plainEnv EpState.empty EndPointOp.leakOps).var 0 =
        some ⟨UInt32.ofNat 0x04030201, 80⟩ :=
  ⟨rfl, rfl, EndPointOp.str2endpoint_leaks_extended plainEnv rfl rfl⟩

/-- One variable, `1.2.3.4:80`. -/
def oneVar : EpState Unit :=
  (EndPointOp.run plainEnv EpState.empty [.declare]).setVar 0 ⟨UInt32.ofNat 0x04030201, 80⟩

theorem assign_self_resets_oneVar :
    ∃ s', oneVar.assign 0 0 = some s' ∧ s'.var 0 = some ⟨IP_ANY, 0⟩ ∧ s'.Inv :=
  EpState.assign_self_resets
    ((EpState.inv_empty.declare.write (v := 0) (e := ⟨IP_ANY, 0⟩) rfl _).resolve_right (by decide))
    (show oneVar.var 0 = some ⟨UInt32.ofNat 0x04030201, 80⟩ from rfl)

/-- Two variables, `0.0.0.0:0` and `1.2.3.4:80`. -/
def twoPlain : EpState Unit :=
  (EndPointOp.run plainEnv EpState.empty [.declare, .declare]).setVar 1 ⟨UInt32.ofNat 0x04030201, 80⟩

/-- An extended IPv6 `end_point` and a copy of it: resource 0 embedded
twice. -/
def sharedExt : EpState Unit :=
  EndPointOp.run plainEnv EpState.empty [.declare, .sockaddr2endpoint (.in6 () 8080 0 0) 0 0, .copy 0]

theorem inv_sharedExt : sharedExt.Inv :=
  (EpState.inv_empty.declare.sockaddr2endpoint (show (EndPointOp.run plainEnv EpState.empty [.declare]).sockaddr2endpoint
    (.in6 () 8080 0 0) 0 0 = some (0, EndPointOp.run plainEnv EpState.empty
      [.declare, .sockaddr2endpoint (.in6 () 8080 0 0) 0 0]) from rfl)).copy
    (show (EndPointOp.run plainEnv EpState.empty [.declare, .sockaddr2endpoint (.in6 () 8080 0 0) 0 0]).var 0 =
      some ⟨0, EXTENDED_ENDPOINT_PORT⟩ from rfl) (show _ = some sharedExt from rfl)

/-- `a = b` from a plain `end_point`, and between two variables that embed
the same resource, whose reference `b` keeps through `a`'s `reset()`. -/
theorem assign_of_ne_plain_shared :
    (∃ s', twoPlain.assign 0 1 = some s' ∧ s'.var 0 = some ⟨UInt32.ofNat 0x04030201, 80⟩ ∧
      s'.var 1 = some ⟨UInt32.ofNat 0x04030201, 80⟩ ∧ s'.Inv) ∧
    (∃ s', sharedExt.assign 0 1 = some s' ∧ s'.var 0 = some ⟨0, EXTENDED_ENDPOINT_PORT⟩ ∧
      s'.var 1 = some ⟨0, EXTENDED_ENDPOINT_PORT⟩ ∧ s'.Inv) :=
  ⟨EpState.assign_of_ne
    ((EpState.inv_empty.declare.declare.write (v := 1) (e := ⟨IP_ANY, 0⟩) rfl _).resolve_right (by decide))
    (by decide) (show twoPlain.var 0 = some ⟨IP_ANY, 0⟩ from rfl) rfl,
   EpState.assign_of_ne inv_sharedExt (by decide) (show sharedExt.var 0 = some ⟨0, EXTENDED_ENDPOINT_PORT⟩ from rfl)
    rfl⟩

theorem run_keeps_inv_leakOps : (EpState.empty : EpState Unit).Inv ∧
    ((EndPointOp.run plainEnv EpState.empty EndPointOp.leakOps).Inv ∨
      ∃ (i : Nat) (hi : i < (EndPointOp.leakOps : List (EndPointOp Unit)).length) (v : Nat) (s' : EpState Unit),
        EndPointOp.step plainEnv (EndPointOp.run plainEnv EpState.empty (EndPointOp.leakOps.take i))
          EndPointOp.leakOps[i] = some s' ∧ EndPointOp.leakOps[i].ipv4Target = some v ∧
        (EndPointOp.run plainEnv EpState.empty (EndPointOp.leakOps.take i)).Clobbered s' v) :=
  ⟨EpState.inv_empty, EndPointOp.run_keeps_inv plainEnv EpState.inv_empty EndPointOp.leakOps⟩

end Melon.Base
