/-
Melon.Base.EndPointTextTheorems — `endpoint2str` and `str2endpoint`
(`src/unnamed/part_004`) as a printer and a parser of one text format.

* `Env.Lawful` — what the round trip takes of the calls that are not
  among the sources: `trim_all` leaves alone a string with no white space
  at its ends, and `inet_ntop(AF_INET6)` prints 1 to 45 characters, no
  `]` among them, that `inet_pton` reads back.
* `SockAddr.Printable` — the addresses of extended `end_point`s that the
  text can carry: an IPv6 address with `sin6_flowinfo` and
  `sin6_scope_id` 0, and a unix path of 1 to 107 bytes, no NUL in it and
  no white space at its end.
* `str2endpoint_endpoint2str` — for those, and for every IPv4
  `end_point` with a port in [0, 65535], `str2endpoint` reads back what
  `endpoint2str` printed: the same `ip` and `port`, so for an extended
  `end_point` the same resource, which `dedup` finds.
* `unnamed_unix_not_reparsed` — an unnamed unix socket prints as
  `"unix:"`, which `str2endpoint` rejects.
* `str2endpoint_skips_char_after_port`, `str2endpoint_port_mod_two_pow_32`
  — the port is read by `strtol` and checked after a cast to `int`: one
  character after the digits is passed over, and a port above `2^32` is
  read modulo `2^32`.
* `failed_parse_overwrites_point` — the four parsers write `point`
  before they check the port, so a port above 65535 leaves `point`
  changed although they return `-1`.
* `endpoint2hostname_suffix`, `hostname_port_byte_swapped` — the `:port`
  that `endpoint2hostname` adds to a resolved name is the one that ends
  the text of `endpoint2str` for IPv4, and for IPv6 on a big-endian host;
  for IPv6 it is `sin6_port` as the host reads it, byte-swapped on a
  little-endian host.

## How the proof goes

Each of the three printed forms is read by its own branch of `create`:
`create_of_digit` (the IPv4 text, which `create` passes over),
`create_in6` (`[addr]:port`, cut at the first `]`) and `create_un`. Both
extended branches end in `new_extended_endpoint` for the address the
resource already holds, and `newEmbed_of_entry` says that `dedup` then
hands back that resource: `GlobalEndPointSet` holds one entry per
address.
-/
import Melon.Base.EndPointTheorems
import Melon.Base.LibcTheorems

namespace Melon.Base

/-! ## 1. What the round trip takes of the environment -/

/-- `trim_all` leaves a string alone whose ends are not white space;
`inet_ntop(AF_INET6)` prints a non-empty text that fits in
`INET6_ADDRSTRLEN - 1` characters, has no `]`, and that `inet_pton`
reads back. -/
structure Env.Lawful {In6 : Type} (env : Env In6) : Prop where
  trimAll_self : ∀ cs : List Char, (∀ c ∈ cs.head?, isspace c = false) →
    (∀ c ∈ cs.getLast?, isspace c = false) → env.trimAll cs = cs
  ntop6_ne_nil : ∀ a, env.ntop6 a ≠ []
  ntop6_length : ∀ a, (env.ntop6 a).length < INET6_ADDRSTRLEN
  ntop6_bracket : ∀ a, ']' ∉ env.ntop6 a
  pton6_ntop6 : ∀ a, env.pton6 (env.ntop6 a) = some a

/-- An address that `ExtendedEndPoint::to` prints and `create` reads back
as itself. -/
def SockAddr.Printable {In6 : Type} : SockAddr In6 → Prop
  | .in6 _ port flowinfo scopeId => port < 65536 ∧ flowinfo = 0 ∧ scopeId = 0
  | .un path => ∃ p, path = p ++ ['\x00'] ∧ p ≠ [] ∧ p.length < UDS_PATH_SIZE ∧ '\x00' ∉ p ∧
      ∀ c ∈ p.getLast?, isspace c = false

/-! ## 2. The printed port -/

theorem decimalInt_ne_nil (n : Int) : decimalInt n ≠ [] := by
  unfold decimalInt; split <;> simp [toDigits_ne_nil]

theorem decimalInt_digits {n : Int} (h : 0 ≤ n) : ∀ c ∈ decimalInt n, c.isDigit = true := by
  rw [decimalInt_of_nonneg h]; exact isDigit_of_mem_toDigits _

theorem decimalInt_length_le {n : Int} (h0 : 0 ≤ n) (h1 : n < 100000) : (decimalInt n).length ≤ 5 := by
  rw [decimalInt_of_nonneg h0]; exact toDigits_length_le _ 4 (by omega)

/-- A text that ends in a printed non-negative number ends in a digit. -/
theorem getLast_decimalInt {n : Int} (h : 0 ≤ n) (xs : List Char) :
    ∀ c ∈ (xs ++ decimalInt n).getLast?, isspace c = false := by
  rw [List.getLast?_append_of_ne_nil _ (decimalInt_ne_nil n)]
  exact fun c hc => isspace_of_isDigit (decimalInt_digits h c (List.mem_of_getLast?_eq_some hc))

/-- `strtol` reads a printed port back, and the port fits in five
characters. -/
theorem strtol_port {n : Int} (h0 : 0 ≤ n) (h1 : n ≤ 65535) :
    strtol (decimalInt n) = (n, (decimalInt n).length) ∧ (decimalInt n).length ≤ 5 :=
  ⟨strtol_decimalInt h0 (by rw [LONG_MAX]; omega), decimalInt_length_le h0 (by omega)⟩

theorem findIdx?_append_of_false {p : Char → Bool} {xs : List Char} (h : ∀ x ∈ xs, p x = false)
    (ys : List Char) : (xs ++ ys).findIdx? p = (ys.findIdx? p).map (· + xs.length) := by
  induction xs with
  | nil => simp
  | cons x xs ih =>
    rw [List.cons_append, List.findIdx?_cons, if_neg (by simp [h x (List.mem_cons_self _ _)]),
      List.findIdx?_succ, ih fun y hy => h y (List.mem_cons_of_mem _ hy), Option.map_map]
    rfl

/-! ## 3. `create` on the three printed forms -/

namespace EpState

variable {In6 : Type} [DecidableEq In6] (s : EpState In6) (env : Env In6) {v fresh : Nat}

theorem unix_toList : "unix:".toList = ['u', 'n', 'i', 'x', ':'] := rfl

/-- A text that starts with a digit is not an extended address. -/
theorem create_of_digit {sp : List Char} {c : Char} {cs : List Char} (hsp : env.trimAll sp = c :: cs)
    (hc : c.isDigit = true) : s.create env sp v fresh = some (none, s) := by
  have h1 : c ≠ '[' := by rintro rfl; simp at hc
  have h2 : 'u' ≠ c := by rintro rfl; simp at hc
  unfold create
  rw [hsp]
  dsimp only
  split
  · simp at *
  · simp_all
  · simp [List.isPrefixOf, unix_toList, h2]

/-- `[addr]:port` as `to` prints it: cut at the first `]`, whose port
`strtol` reads, and whose address `inet_pton` reads. -/
theorem create_in6 (hlib : env.Lawful) (a : In6) {port : Nat} (hp : port < 65536) :
    s.create env ('[' :: env.ntop6 a ++ "]:".toList ++ decimalInt port) v fresh =
      s.newEmbed (.in6 a port 0 0) v fresh := by
  obtain ⟨hst, hd5⟩ := strtol_port (Int.ofNat_nonneg port) (by omega)
  have hdl : 0 < (decimalInt port).length := List.length_pos.2 (decimalInt_ne_nil _)
  have hne := hlib.ntop6_ne_nil a
  have hn : 0 < (env.ntop6 a).length := List.length_pos.2 hne
  have hnl : (env.ntop6 a).length < 46 := hlib.ntop6_length a
  set n := env.ntop6 a
  set d := decimalInt port
  have hidx : List.findIdx? (· == ']') ('[' :: n ++ ']' :: ':' :: d) = some (n.length + 1) := by
    rw [findIdx?_append_of_false (p := (· == ']')) ?_]
    · simp [List.findIdx?_cons]
    · intro x hx
      rcases List.mem_cons.1 hx with rfl | hx
      · rfl
      · exact beq_eq_false_iff_ne.2 fun e => hlib.ntop6_bracket a (e ▸ hx)
  have htrim : env.trimAll ('[' :: n ++ ']' :: ':' :: d) = '[' :: n ++ ']' :: ':' :: d :=
    hlib.trimAll_self _ (by simp; decide) (by
      rw [show '[' :: n ++ ']' :: ':' :: d = ('[' :: n ++ [']', ':']) ++ d by simp]
      exact getLast_decimalInt (Int.ofNat_nonneg port) _)
  have hdrop : List.drop (n.length + 1 + 1) ('[' :: n ++ ']' :: ':' :: d) = ':' :: d := by
    rw [List.cons_append, List.drop_succ_cons, List.drop_append_eq_append_drop]; simp
  have htake : List.take (n.length + 1 + 1) ('[' :: n ++ ']' :: ':' :: d) = '[' :: n ++ [']'] := by
    rw [List.cons_append, List.take_succ_cons, List.take_append_eq_append_take]; simp
  have hlast : ('[' :: n ++ [']']).getLast? = some ']' := by
    rw [List.getLast?_append_of_ne_nil _ (List.cons_ne_nil _ _)]; rfl
  have htrim' : env.trimAll ('[' :: n ++ [']']) = '[' :: n ++ [']'] :=
    hlib.trimAll_self _ (by simp; decide) (by rw [hlast]; simp; decide)
  have hmid : ((('[' :: n ++ [']']).drop 1).take (('[' :: n ++ [']']).length - 2)) = n := by
    simp
  rw [List.append_assoc]
  show s.create env ('[' :: n ++ ']' :: ':' :: d) v fresh = _
  unfold create
  rw [htrim]
  dsimp only
  rw [hidx]
  dsimp only
  rw [if_neg (by simp [hne]), hdrop, if_neg (by simp; omega)]
  simp only [List.drop_one, List.tail_cons]
  rw [if_neg (by omega), hst, if_neg (by simp), htake]
  unfold createPort
  rw [htrim', toCInt_of_range (by omega) (by omega), if_neg (by simp)]
  rw [if_pos ⟨by simp, by omega, by omega⟩, if_neg (by rw [hlast]; simp [hne, INET6_ADDRSTRLEN]; omega), hmid,
    hlib.pton6_ntop6]
  rfl

/-- `unix:path`: `create` hands the whole text to the `unix:` branch of
`create(sp, port, ep)`, which takes the path after the prefix. -/
theorem create_un (hlib : env.Lawful) {p : List Char} (hp : p ≠ []) (hlen : p.length < UDS_PATH_SIZE)
    (hsp : ∀ c ∈ p.getLast?, isspace c = false) :
    s.create env ("unix:".toList ++ p) v fresh = s.newEmbed (.un (p ++ ['\x00'])) v fresh := by
  have hu : "unix:".toList ++ p = 'u' :: 'n' :: 'i' :: 'x' :: ':' :: p := rfl
  have htrim : env.trimAll ("unix:".toList ++ p) = "unix:".toList ++ p :=
    hlib.trimAll_self _ (by simp [unix_toList]; decide) (by rwa [List.getLast?_append_of_ne_nil _ hp])
  have hpre : "unix:".toList.isPrefixOf ("unix:".toList ++ p) = true :=
    List.isPrefixOf_iff_prefix.2 (List.prefix_append _ _)
  rw [hu] at htrim hpre ⊢
  unfold create
  rw [htrim]
  dsimp only
  split
  next h => simp at h
  next h => simp at h
  rw [if_pos hpre]
  unfold createPort
  rw [htrim, if_neg (by simp), if_neg (by simp), if_pos hpre]
  simp only [List.drop_succ_cons, List.drop_zero]
  rw [if_neg (by simp [hp]; omega)]

/-! ## 4. `dedup` finds the entry in use -/

variable {e : EndPoint}

/-- With an entry `x` for `a` in use, `dedup` of a new resource for `a`
hands back `x`: `GlobalEndPointSet` holds one entry per address. -/
theorem dedup_of_entry {s : EpState In6} (h : Inv s) {fresh x : Nat} (hf : (s.slots fresh).live = false)
    {a : SockAddr In6} (hx : (s.slots x).live = true) (ha : (s.slots x).addr = some a) {s₁ : EpState In6}
    (h₁ : s.newExtendedEndpoint fresh a = some s₁) : (s₁.dedup fresh).1 = x := by
  have hxs : x ∈ s.set := (h.set.mem_iff x).2 hx
  have hxf : x ≠ fresh := by rintro rfl; rw [hx] at hf; cases hf
  have hfs : fresh ∉ s.set := fun hm => by rw [(h.set.mem_iff fresh).1 hm] at hf; cases hf
  obtain rfl : s.sys (·.getResource fresh ⟨1, some a, true⟩) = s₁ := by
    simpa [newExtendedEndpoint, h.slot_of_dead hf] using h₁
  have htsl (y : Nat) : (s.sys (·.getResource fresh ⟨1, some a, true⟩)).slots y =
      if y = fresh then ⟨1, some a, true⟩ else s.slots y := by
    simp [sys, Function.update_apply]
  cases hfind : (s.sys (·.getResource fresh ⟨1, some a, true⟩)).toEpSystem.find fresh with
  | none =>
    exact absurd (by rw [htsl, htsl, if_neg hxf, if_pos rfl, ha]) (EpSystem.find_none hfind x hxs)
  | some y =>
    obtain ⟨hy, hya⟩ := EpSystem.find_some hfind
    have hyf : y ≠ fresh := fun e => hfs (e ▸ hy)
    obtain rfl : y = x := h.set.addr_inj y hy x hxs (by
      rw [htsl, htsl, if_neg hyf, if_pos rfl] at hya; rw [hya, ha])
    have hne : ((s.sys (·.getResource fresh ⟨1, some a, true⟩)).slots y).refCount ≠ 0 := by
      have := (h.refs.live_iff y).1 hx
      rw [htsl, if_neg hyf, h.refs.ref_eq y]; simpa using Nat.pos_iff_ne_zero.1 this
    simp only [dedup, EpSystem.insert_of_live_entry hfind hne, if_neg hyf]

/-- `new_extended_endpoint`, `dedup` and `embed_to` for the address of an
entry `x` in use: the variable embeds `x`. -/
theorem newEmbed_of_entry {s : EpState In6} (h : Inv s) (hv : s.var v = some e) {x : Nat}
    (hf : (s.slots fresh).live = false) {a : SockAddr In6} (hx : (s.slots x).live = true)
    (ha : (s.slots x).addr = some a) :
    ∃ s', s.newEmbed a v fresh = some (some x, s') ∧
      s'.var v = some ⟨UInt32.ofNat x, EXTENDED_ENDPOINT_PORT⟩ := by
  obtain ⟨s₁, h₁, hr, hs, hvars, -, -⟩ := dedup_spec h hf a
  have hd := dedup_of_entry h hf hx ha h₁
  have hx32 : x < 2 ^ 32 := lt_of_embedders_pos (by simpa using (h.refs.live_iff x).1 hx)
  have hv' : (s₁.dedup fresh).2.var v = some e := by unfold var; rw [hvars]; exact hv
  rw [hd] at hr
  obtain ⟨s₂, h₂, -, -, hvars₂, -⟩ := embedTo_spec hr hs hv' hx32
  refine ⟨s₂, by simp only [newEmbed, h₁, Option.some_bind, hd, h₂, Option.map_some'], ?_⟩
  unfold var; rw [hvars₂, hvars, List.getElem?_set_self (lt_of_var hv).1]; rfl

/-! ## 5. The round trip -/

/-- `create` embedded a resource: `str2endpoint` returns 0. -/
theorem str2endpoint_of_embed {str : List Char} {p : EndPoint} (hv : s.var v = some p) {x : Nat}
    {s' : EpState In6} (hc : s.create env str v fresh = some (some x, s')) :
    s.str2endpoint env str v fresh = some (0, s') := by
  simp [str2endpoint, hv, hc]

/-- A printed IPv4 address, `:`, and `rest`: `create` passes the text
over, `str2ip` reads the address before the `:`, and what follows is
the port's. -/
theorem str2endpoint_ipv4_rest (hlib : env.Lawful) {p : EndPoint} (hv : s.var v = some p) (ip : UInt32)
    {rest : List Char} (hr : ∀ c ∈ rest.getLast?, isspace c = false) :
    s.str2endpoint env (inetNtop4 ip ++ ':' :: rest) v fresh = some (s.str2endpointPort p ip rest v) := by
  obtain ⟨hchars, hlen, c, cs, hcs, hc⟩ := inetNtop4_chars ip
  have hlast : ∀ d ∈ (inetNtop4 ip ++ ':' :: rest).getLast?, isspace d = false := by
    rw [List.getLast?_append_of_ne_nil _ (List.cons_ne_nil _ _), List.getLast?_cons]
    intro d hd
    rw [Option.mem_def, Option.some.injEq] at hd
    subst hd
    cases hl : rest.getLast? with
    | none => decide
    | some d' => exact hr d' hl
  have htrim : env.trimAll (inetNtop4 ip ++ ':' :: rest) = c :: (cs ++ ':' :: rest) := by
    rw [hlib.trimAll_self _ (by rw [hcs]; simpa using isspace_of_isDigit hc) hlast, hcs, List.cons_append]
  have hpre : (inetNtop4 ip ++ ':' :: rest).takeWhile (· != ':') = inetNtop4 ip := by
    rw [List.takeWhile_append_of_pos, List.takeWhile_cons, if_neg (by decide), List.append_nil]
    intro a ha
    rcases hchars a ha with h | rfl
    · simp only [bne_iff_ne, ne_eq]; rintro rfl; simp at h
    · decide
  have hdrop : (inetNtop4 ip ++ ':' :: rest).drop ((inetNtop4 ip).length + 1) = rest := by
    rw [← List.singleton_append, ← List.append_assoc, List.drop_left' (by simp)]
  have hip : str2ip (inetNtop4 ip) = some ip := by
    rw [str2ip, hcs, List.dropWhile_cons, if_neg (by simp [isspace_of_isDigit hc]), ← hcs,
      inetPton4_inetNtop4]
  simp only [str2endpoint, hv, create_of_digit s env htrim hc, Option.some_bind, Option.isSome_none,
    Bool.false_eq_true, if_false, hpre, hip]
  rw [if_neg (by simp; omega), hdrop]

/-- The IPv4 text `endpoint2str` prints. -/
theorem str2endpoint_ipv4 (hlib : env.Lawful) {p : EndPoint} (hv : s.var v = some p) (ip : UInt32)
    {port : Int} (h0 : 0 ≤ port) (h1 : port ≤ 65535) :
    s.str2endpoint env (inetNtop4 ip ++ ':' :: decimalInt port) v fresh =
      some (0, s.setVar v ⟨ip, port⟩) := by
  obtain ⟨hst, -⟩ := strtol_port h0 h1
  have hd := List.length_pos.2 (decimalInt_ne_nil port)
  rw [str2endpoint_ipv4_rest s env hlib hv ip (by simpa using getLast_decimalInt h0 [])]
  simp only [str2endpointPort, hst, toCInt_of_range (by omega : -2 ^ 31 ≤ port) (by omega)]
  rw [if_neg (by omega), if_neg (by simp), if_neg (by omega)]

/-! ## 6. What `str2endpoint` takes after the port -/

/-- After the port `str2endpoint` steps over one character (`++end`)
before it looks for white space: any character that is neither a digit
nor white space may follow the port, and the call returns 0. -/
theorem str2endpoint_skips_char_after_port (hlib : env.Lawful) {p : EndPoint} (hv : s.var v = some p)
    (ip : UInt32) {port : Int} (h0 : 0 ≤ port) (h1 : port ≤ 65535) {c : Char} (hcd : c.isDigit = false)
    (hcs : isspace c = false) :
    s.str2endpoint env (inetNtop4 ip ++ ':' :: (decimalInt port ++ [c])) v fresh =
      some (0, s.setVar v ⟨ip, port⟩) := by
  have hst := strtol_decimalInt_append h0 (by rw [LONG_MAX]; omega) [c] (by simpa using hcd)
  rw [str2endpoint_ipv4_rest s env hlib hv ip (by simpa using hcs)]
  simp only [str2endpointPort, hst, toCInt_of_range (by omega : -2 ^ 31 ≤ port) (by omega)]
  rw [if_neg (by simpa using decimalInt_ne_nil port), if_neg (by simp), if_neg (by omega)]

/-- `point->port = strtol(...)` stores a `long` into an `int`: a numeral
`port + k * 2^32` that `strtol` reads whole is taken as `port`. -/
theorem str2endpoint_port_mod_two_pow_32 (hlib : env.Lawful) {p : EndPoint} (hv : s.var v = some p)
    (ip : UInt32) {port : Int} (h0 : 0 ≤ port) (h1 : port ≤ 65535) {k : Int} (hk : 0 ≤ k)
    (hl : port + k * 2 ^ 32 ≤ LONG_MAX) :
    s.str2endpoint env (inetNtop4 ip ++ ':' :: decimalInt (port + k * 2 ^ 32)) v fresh =
      some (0, s.setVar v ⟨ip, port⟩) := by
  have hn : 0 ≤ port + k * 2 ^ 32 := by omega
  have hst := strtol_decimalInt hn hl
  have hc : toCInt (port + k * 2 ^ 32) = port := by unfold toCInt; omega
  rw [str2endpoint_ipv4_rest s env hlib hv ip (by simpa using getLast_decimalInt hn [])]
  simp only [str2endpointPort, hst, hc]
  rw [if_neg (by simpa using decimalInt_ne_nil _), if_neg (by simp), if_neg (by omega)]

/-! ## 7. A failed call has written the variable -/

/-- `create(sp, port, ep)` passes over a text that starts with a
digit. -/
theorem createPort_of_digit {sp : List Char} {c : Char} {cs : List Char} (hsp : env.trimAll sp = c :: cs)
    (hc : c.isDigit = true) (port : Int) : s.createPort env sp port v fresh = some (none, s) := by
  have h2 : 'u' ≠ c := by rintro rfl; simp at hc
  unfold createPort
  rw [hsp, if_neg (List.cons_ne_nil _ _), if_neg (by rintro ⟨h, -⟩; cases h; simp at hc)]
  simp [List.isPrefixOf, unix_toList, h2]

/-- A port out of range is found after the address, and for the text
forms the port, were written into the variable: each of the four calls
returns -1 with the variable overwritten, whatever it held. -/
theorem failed_parse_overwrites_point (hlib : env.Lawful) {p : EndPoint} (hv : s.var v = some p)
    (ip : UInt32) {port : Int} (hbad : 65535 < port) (hint : port < 2 ^ 31) {name : List Char}
    (hname : hostname2ip env name = some ip) (hn : ':' ∉ name) (hnl : name.length < 63) :
    s.str2endpoint env (inetNtop4 ip ++ ':' :: decimalInt port) v fresh = some (-1, s.setVar v ⟨ip, port⟩) ∧
      s.str2endpointWithPort env (inetNtop4 ip) port v fresh = some (-1, s.setVar v { p with ip := ip }) ∧
      s.hostname2endpoint env (name ++ ':' :: decimalInt port) v = some (-1, s.setVar v ⟨ip, port⟩) ∧
      s.hostname2endpointWithPort env name port v = some (-1, s.setVar v { p with ip := ip }) := by
  have h0 : 0 ≤ port := by omega
  have hst := strtol_decimalInt h0 (by rw [LONG_MAX]; omega)
  have hc : toCInt port = port := toCInt_of_range (by omega) hint
  have hd := List.length_pos.2 (decimalInt_ne_nil port)
  obtain ⟨-, -, c, cs, hcs, hcd⟩ := inetNtop4_chars ip
  have hip : str2ip (inetNtop4 ip) = some ip := by
    rw [str2ip, hcs, List.dropWhile_cons, if_neg (by simp [isspace_of_isDigit hcd]), ← hcs,
      inetPton4_inetNtop4]
  have htrim : env.trimAll (inetNtop4 ip) = c :: cs := by
    rw [hlib.trimAll_self _ (by rw [hcs]; simpa using isspace_of_isDigit hcd), hcs]
    intro d hd'
    obtain ⟨hchars, -⟩ := inetNtop4_chars ip
    rcases hchars d (List.mem_of_getLast?_eq_some hd') with h | rfl
    · exact isspace_of_isDigit h
    · decide
  have hpre : (name ++ ':' :: decimalInt port).takeWhile (· != ':') = name := by
    rw [List.takeWhile_append_of_pos fun a ha => by simp only [bne_iff_ne, ne_eq]; rintro rfl; exact hn ha,
      List.takeWhile_cons, if_neg (by decide), List.append_nil]
  refine ⟨?_, ?_, ?_, ?_⟩
  · rw [str2endpoint_ipv4_rest s env hlib hv ip (by simpa using getLast_decimalInt h0 [])]
    simp only [str2endpointPort, hst, hc]
    rw [if_neg (by omega), if_neg (by simp), if_pos (.inr hbad)]
  · simp only [str2endpointWithPort, hv, createPort_of_digit s env htrim hcd, Option.some_bind,
      Option.isSome_none, Bool.false_eq_true, if_false, hip]
    rw [if_pos (.inr hbad)]
  · have hrest : (name ++ ':' :: decimalInt port).drop
        (if name.length < (name ++ ':' :: decimalInt port).length then name.length + 1 else name.length) =
        decimalInt port := by
      rw [if_pos (by simp), ← List.singleton_append, ← List.append_assoc, List.drop_left' (by simp)]
    simp only [hostname2endpoint, hv, hpre, hname, hrest, hst, hc]
    rw [if_neg (by omega), if_neg (by omega), if_neg (by simp), if_pos (.inr hbad)]
  · simp only [hostname2endpointWithPort, hv, hname]
    rw [if_pos (.inr hbad)]

/-- `str2endpoint` reads back what `endpoint2str` prints, for every
`end_point` a variable holds that the text can carry: an IPv4 one with
its port in [0, 65535], or an extended one whose address is printable.
For an extended one it finds the same resource. -/
theorem str2endpoint_endpoint2str (hlib : env.Lawful) (h : s.Inv) {w : Nat} {p : EndPoint}
    (hv : s.var v = some e) (hw : s.var w = some p) (hf : (s.slots fresh).live = false)
    (he : (0 ≤ e.port ∧ e.port ≤ 65535) ∨
      (e.isExtended = true ∧ ∃ a, (s.slots e.ip.toNat).addr = some a ∧ a.Printable)) :
    ∃ str s', s.endpoint2str env e = some str ∧ s.str2endpoint env str w fresh = some (0, s') ∧
      s'.var w = some e := by
  rcases he with ⟨h0, h1⟩ | ⟨hext, a, ha, hpa⟩
  case inl =>
    have hne : e.isExtended = false := by simp [EndPoint.isExtended, EXTENDED_ENDPOINT_PORT]; omega
    exact ⟨_, _, by simp [endpoint2str, hne], str2endpoint_ipv4 s env hlib hw e.ip h0 h1,
      by rw [var_setVar hw, if_pos rfl]⟩
  case inr =>
    have hx : (s.slots e.ip.toNat).live = true :=
      (h.refs.live_iff _).2 (by simpa using embedders_pos hv hext)
    have hee : (⟨UInt32.ofNat e.ip.toNat, EXTENDED_ENDPOINT_PORT⟩ : EndPoint) = e := by
      have hp : e.port = EXTENDED_ENDPOINT_PORT := by simpa [EndPoint.isExtended] using hext
      have hip : UInt32.ofNat e.ip.toNat = e.ip :=
        UInt32.toNat.inj ((BitVec.toNat_ofNat _ _).trans (Nat.mod_eq_of_lt e.ip.toNat_lt_size))
      rw [hip, ← hp]
    obtain ⟨s', hs', hvw⟩ := newEmbed_of_entry h hw hf hx ha
    have hto : s.endpoint2str env e = slotTo env (s.slots e.ip.toNat) := by
      simp only [endpoint2str, hext, if_true]
    cases a with
    | in6 a port flowinfo scopeId =>
      obtain ⟨hp, rfl, rfl⟩ := hpa
      have hc : s.create env ('[' :: env.ntop6 a ++ "]:".toList ++ decimalInt port) w fresh =
          some (some e.ip.toNat, s') := by
        rw [create_in6 s env hlib a hp]; exact hs'
      exact ⟨_, s', by simp only [hto, slotTo, ha], str2endpoint_of_embed s env hw hc, by rw [hvw, hee]⟩
    | un path =>
      obtain ⟨q, rfl, hq, hql, hq0, hqs⟩ := hpa
      have hq' : (q ++ ['\x00']).takeWhile (· != '\x00') = q := by
        rw [List.takeWhile_append_of_pos fun c hc => by simp only [bne_iff_ne, ne_eq]; rintro rfl; exact hq0 hc]
        simp
      have hc : s.create env ("unix:".toList ++ q) w fresh = some (some e.ip.toNat, s') := by
        rw [create_un s env hlib hq hql hqs]; exact hs'
      exact ⟨_, s', by simp only [hto, slotTo, ha, hq'], str2endpoint_of_embed s env hw hc,
        by rw [hvw, hee]⟩

/-! ## 8. The port `endpoint2hostname` appends -/

theorem decimalInt_inj {m n : Int} (hm : 0 ≤ m) (hn : 0 ≤ n) (h : decimalInt m = decimalInt n) : m = n := by
  rw [decimalInt_of_nonneg hm, decimalInt_of_nonneg hn] at h
  have := congrArg digitsValue h
  rw [digitsValue_toDigits, digitsValue_toDigits] at this
  omega

/-- `snprintf` of `:port` into room for it. -/
theorem snprintfText_port {n : Nat} {port : Int} (h0 : 0 ≤ port) (h1 : port ≤ 65535) (hn : 6 < n) :
    snprintfText n (':' :: decimalInt port) = ':' :: decimalInt port := by
  have := decimalInt_length_le h0 (by omega)
  exact List.take_of_length_le (by simp; omega)

variable (nenv : NameEnv In6)

omit [DecidableEq In6] in
/-- With room for it, the text `endpoint2hostname` appends after the name
is `:` and the port it reads: `point.port` for an IPv4 `end_point`, and
`sin6_port` as stored, read in the host's byte order, for an IPv6 one. -/
theorem endpoint2hostname_eq (order : ByteOrder) {e : EndPoint} {name : List Char} {hostLen : Nat}
    (hroom : name.length + 6 < hostLen) {P : Int} (h0 : 0 ≤ P) (h1 : P ≤ 65535)
    (hcase : (e.isExtended = false ∧ P = e.port ∧ ip2hostname nenv e.ip hostLen = some name) ∨
      (e.isExtended = true ∧ ∃ a port flow scope, (s.slots e.ip.toNat).addr = some (.in6 a port flow scope) ∧
        P = order.net16 port ∧ nenv.getnameinfo6 a = some name)) :
    s.endpoint2hostname nenv order e hostLen = some (some (name ++ ':' :: decimalInt P)) := by
  rcases hcase with ⟨hext, rfl, hname⟩ | ⟨hext, a, port, flow, scope, ha, rfl, hname⟩
  · simp only [endpoint2hostname, hext, Bool.false_eq_true, if_false, hname]
    rw [if_pos (by omega), snprintfText_port h0 h1 (by omega)]
  · simp only [endpoint2hostname, hext, if_true, toHostname, ha, hname]
    rw [if_neg (by omega), if_pos (by omega), snprintfText_port h0 h1 (by omega)]

omit [DecidableEq In6] in
/-- On a little-endian host `to_hostname` prints `sin6_port` with its two
bytes swapped: for every IPv6 port whose two bytes differ,
`endpoint2hostname` appends another port than the one `endpoint2str`
prints. -/
theorem hostname_port_byte_swapped {e : EndPoint} (hext : e.isExtended = true) {a : In6}
    {port flow scope : Nat} (ha : (s.slots e.ip.toNat).addr = some (.in6 a port flow scope))
    (hp : port < 65536) (hne : port % 256 ≠ port / 256) {name : List Char}
    (hname : nenv.getnameinfo6 a = some name) {hostLen : Nat} (hroom : name.length + 6 < hostLen) :
    ∃ host str, s.endpoint2hostname nenv .little e hostLen = some (some host) ∧
      s.endpoint2str env e = some str ∧ str = '[' :: env.ntop6 a ++ "]:".toList ++ decimalInt port ∧
      host.drop name.length ≠ ':' :: decimalInt port := by
  have hsw : ByteOrder.little.net16 port ≠ port := by simp only [ByteOrder.net16]; omega
  refine ⟨_, _, endpoint2hostname_eq s nenv .little hroom (by omega) (by simp only [ByteOrder.net16]; omega)
    (.inr ⟨hext, a, port, flow, scope, ha, rfl, hname⟩), by simp only [endpoint2str, hext, if_true, slotTo, ha], rfl, ?_⟩
  rw [List.drop_left]
  intro h
  exact hsw (by exact_mod_cast decimalInt_inj (by omega) (by omega) (List.cons.inj h).2)

end EpState

/-- An environment that keeps the laws: `trim_all` as the identity, one
IPv6 address, printed as `::`, and one host, `localhost`, at
127.0.0.1. -/
def lawfulEnv : Env Unit :=
  ⟨id, fun cs => if cs = "::".toList then some () else none, fun _ => "::".toList,
    fun cs => if cs = "localhost".toList then some (UInt32.ofNat 0x0100007f) else none⟩

theorem lawfulEnv_lawful : lawfulEnv.Lawful where
  trimAll_self _ _ _ := rfl
  ntop6_ne_nil _ := show "::".toList ≠ [] by decide
  ntop6_length _ := show "::".toList.length < 46 by decide
  ntop6_bracket _ := show ']' ∉ "::".toList by decide
  pton6_ntop6 _ := by simp [lawfulEnv]

/-- Two variables, both `0.0.0.0:0`. -/
def twoVars : EpState Unit := EndPointOp.run lawfulEnv EpState.empty [.declare, .declare]

/-- `1.2.3.4:80`. -/
def v4Point : EndPoint := ⟨UInt32.ofNat 0x04030201, 80⟩

/-- Two variables, the first holding `1.2.3.4:80`. -/
def v4TwoVars : EpState Unit := twoVars.setVar 0 v4Point

theorem inv_v4TwoVars : v4TwoVars.Inv :=
  (EpState.inv_empty.declare.declare.write (v := 0) rfl v4Point).resolve_right (by decide)

/-- An extended IPv6 `end_point` on port 8080 from a `sockaddr_in6`,
and a second variable. -/
def in6TwoVars : EpState Unit :=
  EndPointOp.run lawfulEnv EpState.empty [.declare, .sockaddr2endpoint (.in6 () 8080 0 0) 0 0, .declare]

theorem inv_in6TwoVars : in6TwoVars.Inv :=
  (EpState.inv_empty.declare.sockaddr2endpoint (show (EndPointOp.run lawfulEnv EpState.empty [.declare]).sockaddr2endpoint
    (.in6 () 8080 0 0) 0 0 = some (0, EndPointOp.run lawfulEnv EpState.empty
      [.declare, .sockaddr2endpoint (.in6 () 8080 0 0) 0 0]) from rfl)).declare

/-- `1.2.3.4:80` read back into the second variable, and the IPv6
`end_point` read back into the second variable, through the free
resource 1, which `dedup` gives up for resource 0. -/
theorem str2endpoint_endpoint2str_v4_v6 :
    (∃ str s', v4TwoVars.endpoint2str lawfulEnv v4Point = some str ∧
      v4TwoVars.str2endpoint lawfulEnv str 1 0 = some (0, s') ∧ s'.var 1 = some v4Point) ∧
    (∃ str s', in6TwoVars.endpoint2str lawfulEnv ⟨0, EXTENDED_ENDPOINT_PORT⟩ = some str ∧
      in6TwoVars.str2endpoint lawfulEnv str 1 1 = some (0, s') ∧ s'.var 1 = some ⟨0, EXTENDED_ENDPOINT_PORT⟩) :=
  ⟨EpState.str2endpoint_endpoint2str v4TwoVars lawfulEnv lawfulEnv_lawful inv_v4TwoVars
    (show v4TwoVars.var 0 = some v4Point from rfl) (show v4TwoVars.var 1 = some ⟨IP_ANY, 0⟩ from rfl) rfl
    (.inl ⟨by decide, by decide⟩),
   EpState.str2endpoint_endpoint2str in6TwoVars lawfulEnv lawfulEnv_lawful inv_in6TwoVars
    (show in6TwoVars.var 0 = some ⟨0, EXTENDED_ENDPOINT_PORT⟩ from rfl)
    (show in6TwoVars.var 1 = some ⟨IP_ANY, 0⟩ from rfl) rfl
    (.inr ⟨rfl, .in6 () 8080 0 0, rfl, by decide, rfl, rfl⟩)⟩

theorem str2endpoint_skips_char_after_port_x :
    twoVars.str2endpoint lawfulEnv (inetNtop4 (UInt32.ofNat 0x04030201) ++ ':' :: (decimalInt 80 ++ ['x'])) 0 0 =
      some (0, twoVars.setVar 0 ⟨UInt32.ofNat 0x04030201, 80⟩) :=
  EpState.str2endpoint_skips_char_after_port twoVars lawfulEnv lawfulEnv_lawful
    (show twoVars.var 0 = some ⟨IP_ANY, 0⟩ from rfl) _ (by decide) (by decide) (by decide) (by decide)

theorem str2endpoint_port_mod_two_pow_32_at80 :
    twoVars.str2endpoint lawfulEnv (inetNtop4 (UInt32.ofNat 0x04030201) ++ ':' :: decimalInt (80 + 1 * 2 ^ 32))
      0 0 = some (0, twoVars.setVar 0 ⟨UInt32.ofNat 0x04030201, 80⟩) :=
  EpState.str2endpoint_port_mod_two_pow_32 twoVars lawfulEnv lawfulEnv_lawful
    (show twoVars.var 0 = some ⟨IP_ANY, 0⟩ from rfl) _ (by decide) (by decide) (by decide) (by decide)

theorem failed_parse_overwrites_point_localhost :
    twoVars.str2endpoint lawfulEnv (inetNtop4 (UInt32.ofNat 0x0100007f) ++ ':' :: decimalInt 70000) 0 0 =
        some (-1, twoVars.setVar 0 ⟨UInt32.ofNat 0x0100007f, 70000⟩) ∧
      twoVars.str2endpointWithPort lawfulEnv (inetNtop4 (UInt32.ofNat 0x0100007f)) 70000 0 0 =
        some (-1, twoVars.setVar 0 ⟨UInt32.ofNat 0x0100007f, 0⟩) ∧
      twoVars.hostname2endpoint lawfulEnv ("localhost".toList ++ ':' :: decimalInt 70000) 0 =
        some (-1, twoVars.setVar 0 ⟨UInt32.ofNat 0x0100007f, 70000⟩) ∧
      twoVars.hostname2endpointWithPort lawfulEnv "localhost".toList 70000 0 =
        some (-1, twoVars.setVar 0 ⟨UInt32.ofNat 0x0100007f, 0⟩) :=
  EpState.failed_parse_overwrites_point twoVars lawfulEnv lawfulEnv_lawful
    (show twoVars.var 0 = some ⟨IP_ANY, 0⟩ from rfl) _ (by decide) (by decide) (by decide) (by decide)
    (by decide)

/-- Names for every address. -/
def namedEnv : NameEnv Unit := ⟨fun _ => some "v4host".toList, fun _ => some "v6host".toList⟩

/-- An IPv6 `end_point` on port 8080, from a `sockaddr_in6`. -/
def in6Var : EpState Unit :=
  EndPointOp.run lawfulEnv EpState.empty [.declare, .sockaddr2endpoint (.in6 () 8080 0 0) 0 0]

theorem hostname_port_byte_swapped_8080 :
    ∃ host str, in6Var.endpoint2hostname namedEnv .little ⟨0, EXTENDED_ENDPOINT_PORT⟩ 64 = some (some host) ∧
      in6Var.endpoint2str lawfulEnv ⟨0, EXTENDED_ENDPOINT_PORT⟩ = some str ∧
      str = '[' :: lawfulEnv.ntop6 () ++ "]:".toList ++ decimalInt 8080 ∧
      host.drop "v6host".toList.length ≠ ':' :: decimalInt 8080 :=
  EpState.hostname_port_byte_swapped in6Var lawfulEnv namedEnv (by decide)
    (show (in6Var.slots (0 : UInt32).toNat).addr = some (.in6 () 8080 0 0) by decide) (by decide) (by decide)
    rfl (by decide)

/-- An unbound unix socket, as `getsockname` reports it: `size ==
offsetof(sockaddr_un, sun_path)`, no byte of `sun_path`; then a second
variable. -/
def unnamedUnix : EpState Unit :=
  EndPointOp.run lawfulEnv EpState.empty [.declare, .sockaddr2endpoint (.un []) 0 0, .declare]

/-- It prints as `unix:`, which `str2endpoint` does not take. -/
theorem unnamed_unix_not_reparsed :
    unnamedUnix.var 0 = some ⟨0, EXTENDED_ENDPOINT_PORT⟩ ∧
      unnamedUnix.endpoint2str lawfulEnv ⟨0, EXTENDED_ENDPOINT_PORT⟩ = some "unix:".toList ∧
      (unnamedUnix.str2endpoint lawfulEnv "unix:".toList 1 1).map Prod.fst = some (-1) := by
  decide

end Melon.Base
