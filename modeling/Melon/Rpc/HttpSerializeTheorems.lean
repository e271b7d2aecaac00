/-
Melon.Rpc.HttpSerializeTheorems — the framing of the messages
`MakeRawHttpRequest` and `MakeRawHttpResponse` write.

* `mem_removeHeader`, `not_matches_removeHeader` — `RemoveHeader(key)`
  erases one field, whose name matches `key`; on a map (`Keyed`) under an
  equivalence (`NameEquiv`) no field matching `key` is left.
* `transfer_encoding_beside_length` — a `Transfer-Encoding` field the user
  set is written as it is, next to the `Content-Length` the serializer
  generates: in every request but a GET one, and in every response with
  content to a request other than HEAD whose status is neither 1xx nor
  204.
* `request_framing`, `response_framing` — what the serializers do get
  right, for a map whose names are compared without case: one
  `Content-Length` line, the first, giving the length of the body that
  ends the message (`LengthFramed`), or no such line and no body
  (`Bodiless`).

## How the proof goes

The user's fields reach the message through one or two `RemoveHeader`
calls, and each one erases a field matching its key and no other
(`mem_removeHeader`). On a map, that field was the only one matching the
key, so none is left (`not_matches_removeHeader`), and no line the code
generates besides `Content-Length` has a name that matches it
(`countP_line_of_ne`): counting the matching lines piece by piece gives
the framing.
-/
import Melon.Rpc.HttpSerialize

namespace Melon.Rpc

/-- Names compared as `CaseIgnoredFlatMap` compares them, letter case
ignored: the serialize test sets `accePT` and gets no `Accept` line. -/
def caseEq (a b : List Char) : Bool := a.map Char.toLower == b.map Char.toLower

/-- The laws of a comparison of names: it is an equivalence. -/
structure NameEquiv (eqKey : List Char → List Char → Bool) : Prop where
  symm : ∀ a b, eqKey a b = eqKey b a
  trans : ∀ a b c, eqKey a b = true → eqKey b c = true → eqKey a c = true

theorem caseEq_nameEquiv : NameEquiv caseEq where
  symm a b := by simp only [caseEq, Bool.beq_comm]
  trans a b c := by simp only [caseEq, beq_iff_eq]; exact Eq.trans

@[simp] theorem caseEq_self (a : List Char) : caseEq a a = true := by simp [caseEq]

/-! ## 1. `RemoveHeader` -/

namespace HeaderStore

variable {eqKey : List Char → List Char → Bool} {h : HeaderStore} {key : List Char}

/-- The fields of a map: no two names it takes for the same. -/
def Keyed (eqKey : List Char → List Char → Bool) (h : HeaderStore) : Prop :=
  h.fields.Pairwise fun a b => eqKey a.1 b.1 = false

theorem removeHeader_sublist : (h.removeHeader eqKey key).fields.Sublist h.fields := by
  unfold removeHeader
  split
  · exact List.eraseIdx_sublist _ _
  · exact List.Sublist.refl _

/-- `RemoveHeader` keeps a map a map. -/
theorem Keyed.removeHeader (hu : h.Keyed caseEq) (k : List Char) : (h.removeHeader caseEq k).Keyed caseEq :=
  hu.sublist removeHeader_sublist

/-- `RemoveHeader(key)` erases a field whose name matches `key`, and no
other. -/
theorem mem_removeHeader {f : List Char × List Char} (hf : f ∈ h.fields) (hk : eqKey f.1 key = false) :
    f ∈ (h.removeHeader eqKey key).fields := by
  unfold removeHeader
  split
  · next i hi =>
    obtain ⟨hi, hp, -⟩ := List.findIdx?_eq_some_iff_getElem.1 hi
    obtain ⟨j, hj, rfl⟩ := List.mem_iff_getElem.1 hf
    refine List.mem_eraseIdx_iff_getElem.2 ⟨j, hj, ?_, rfl⟩
    rintro rfl
    simp_all
  · exact hf

/-- On a map, the field `RemoveHeader(key)` erases was the only one
matching `key`. -/
theorem not_matches_removeHeader (hl : NameEquiv eqKey) (hu : h.Keyed eqKey) :
    ∀ f ∈ (h.removeHeader eqKey key).fields, eqKey f.1 key = false := by
  intro f hf
  unfold removeHeader at hf
  split at hf
  · next i hi =>
    obtain ⟨hi, hp, -⟩ := List.findIdx?_eq_some_iff_getElem.1 hi
    obtain ⟨j, hj, hji, rfl⟩ := List.mem_eraseIdx_iff_getElem.1 hf
    rw [← Bool.not_eq_true]
    intro hm
    have hij : eqKey h.fields[i].1 h.fields[j].1 = true := hl.trans _ _ _ hp (hl.symm _ _ ▸ hm)
    rcases Nat.lt_or_gt_of_ne hji with hlt | hlt
    · have := List.pairwise_iff_getElem.1 hu j i hj hi hlt
      rw [hl.symm] at this
      simp_all
    · have := List.pairwise_iff_getElem.1 hu i j hi hj hlt
      simp_all
  · next hn => exact List.findIdx?_eq_none_iff.1 hn f hf

/-- What is left of a map after `RemoveHeader(key)`, or any part of it,
has no field matching `key`. -/
theorem countP_removeHeader (hu : h.Keyed caseEq) {fs : HeaderStore}
    (hs : fs.fields.Sublist (h.removeHeader caseEq key).fields) :
    fs.fields.countP (fun l => caseEq l.1 key) = 0 :=
  List.countP_eq_zero.2 fun f hf => by
    rw [not_matches_removeHeader caseEq_nameEquiv hu f (hs.subset hf)]
    exact Bool.false_ne_true

/-- `GetHeader(key)` is null only when no field matches `key`. -/
theorem getHeader_eq_none {eqKey : List Char → List Char → Bool} (hn : h.getHeader eqKey key = none) :
    ∀ f ∈ h.fields, eqKey f.1 key = false := by
  unfold getHeader find at hn
  exact List.findIdx?_eq_none_iff.1 (Option.map_eq_none'.1 hn)

/-- The store the non-HEAD branch of `MakeRawHttpResponse` writes has
no field matching `key` left. -/
theorem countP_removeHeader_if_present (hu : h.Keyed caseEq) :
    (if h.getHeader caseEq key ≠ none then h.removeHeader caseEq key else h).fields.countP
      (fun l => caseEq l.1 key) = 0 := by
  split
  · exact countP_removeHeader hu (List.Sublist.refl _)
  · next hn =>
    refine List.countP_eq_zero.2 fun f hf => ?_
    rw [getHeader_eq_none (not_not.1 hn) f hf]
    exact Bool.false_ne_true

end HeaderStore

/-! ## 2. The user's fields -/

section

variable (env : HttpEnv)

/-- A status of 200 or more other than 204 is not `is_invalid_content`. -/
theorem content_valid {s : Int} (hs : HTTP_STATUS_OK ≤ s) (hs' : s ≠ HTTP_STATUS_NO_CONTENT) :
    ¬(s < HTTP_STATUS_OK ∨ s = HTTP_STATUS_NO_CONTENT) :=
  not_or.2 ⟨Int.not_lt.2 hs, hs'⟩

/-- A field the user set is written in the request, unless its name is
`Content-Length` or `Expect`. -/
theorem mem_request_lines {h : HttpHeader} {f : List Char × List Char} (hf : f ∈ h.fields.fields)
    (hcl : env.eqKey f.1 "Content-Length".toList = false) (hex : env.eqKey f.1 "Expect".toList = false)
    (remote : List Char) (remotePort : Nat) (content : Option (List Char)) :
    f ∈ (makeRawHttpRequest env h remote remotePort content).1.lines := by
  have hf' := HeaderStore.mem_removeHeader hf hcl
  simp only [makeRawHttpRequest, List.mem_append]
  refine Or.inl (Or.inl (Or.inl (Or.inr ?_)))
  split
  · exact HeaderStore.mem_removeHeader hf' hex
  · exact hf'

/-- A field the user set is written in a response with content to a
request other than HEAD whose status is neither 1xx nor 204, unless its
name is `Content-Length`. -/
theorem mem_response_lines {h : HttpHeader} {f : List Char × List Char} (hf : f ∈ h.fields.fields)
    (hcl : env.eqKey f.1 "Content-Length".toList = false) (hs : HTTP_STATUS_OK ≤ h.statusCode)
    (hs' : h.statusCode ≠ HTTP_STATUS_NO_CONTENT) (hm : h.method ≠ .HEAD) (c : List Char) :
    f ∈ (makeRawHttpResponse env h (some c)).1.lines := by
  simp only [makeRawHttpResponse, content_valid hs hs', hm, if_false, List.mem_append]
  refine Or.inr ?_
  split
  · exact HeaderStore.mem_removeHeader hf hcl
  · exact hf

/-- A `Transfer-Encoding` the user set is written as it is next to the
`Content-Length` line the serializer generates: in a request of every
method but GET, and in a response with content to a request other than
HEAD whose status is neither 1xx nor 204. -/
theorem transfer_encoding_beside_length {h : HttpHeader} {v : List Char}
    (hte : ("Transfer-Encoding".toList, v) ∈ h.fields.fields)
    (hcl : env.eqKey "Transfer-Encoding".toList "Content-Length".toList = false)
    (hex : env.eqKey "Transfer-Encoding".toList "Expect".toList = false)
    (remote : List Char) (remotePort : Nat) (content : Option (List Char)) (c : List Char) :
    (h.method ≠ .GET →
      ("Content-Length".toList, decimalNat ((content.map List.length).getD 0)) ∈
          (makeRawHttpRequest env h remote remotePort content).1.lines ∧
        ("Transfer-Encoding".toList, v) ∈ (makeRawHttpRequest env h remote remotePort content).1.lines) ∧
    (HTTP_STATUS_OK ≤ h.statusCode → h.statusCode ≠ HTTP_STATUS_NO_CONTENT → h.method ≠ .HEAD →
      ("Content-Length".toList, decimalNat c.length) ∈ (makeRawHttpResponse env h (some c)).1.lines ∧
        ("Transfer-Encoding".toList, v) ∈ (makeRawHttpResponse env h (some c)).1.lines) := by
  refine ⟨fun hm => ⟨?_, mem_request_lines env hte hcl hex remote remotePort content⟩,
    fun hs hs' hm => ⟨?_, mem_response_lines env hte hcl hs hs' hm c⟩⟩
  · simp [makeRawHttpRequest, hm]
  · simp [makeRawHttpResponse, content_valid hs hs', hm]

/-! ## 3. Framing by `Content-Length` -/

/-- A message framed by its `Content-Length`: the first line gives the
length of its body, which is `body`, and no other line has a name that
matches `Content-Length`. -/
def RawHttp.LengthFramed (m : RawHttp) (body : List Char) : Prop :=
  m.lines.head? = some ("Content-Length".toList, decimalNat m.body.length) ∧ m.body = body ∧
    m.lines.countP (fun l => caseEq l.1 "Content-Length".toList) = 1

/-- A message with no body and no line whose name matches `Content-Length`. -/
def RawHttp.Bodiless (m : RawHttp) : Prop :=
  m.body = [] ∧ m.lines.countP (fun l => caseEq l.1 "Content-Length".toList) = 0

/-- A line the code may generate, whose name does not match `key`. -/
theorem countP_line_of_ne {p : Prop} [Decidable p] {n key v : List Char} (hn : caseEq n key = false) :
    (if p then [(n, v)] else []).countP (fun l => caseEq l.1 key) = 0 := by
  split <;> simp [hn]

/-- A request of any method but GET is framed by the `Content-Length`
line the code generates, with the content as its body; a GET request has
no body and no `Content-Length` line, even one the user set. -/
theorem request_framing (hk : env.eqKey = caseEq) {h : HttpHeader} (hu : h.fields.Keyed caseEq)
    (remote : List Char) (remotePort : Nat) (content : Option (List Char)) :
    (h.method ≠ .GET → (makeRawHttpRequest env h remote remotePort content).1.LengthFramed (content.getD [])) ∧
    (h.method = .GET → (makeRawHttpRequest env h remote remotePort content).1.Bodiless) := by
  have hfs : ∀ (c : Prop) [Decidable c],
      (if c then (h.fields.removeHeader caseEq "Content-Length".toList).removeHeader caseEq "Expect".toList
        else h.fields.removeHeader caseEq "Content-Length".toList).fields.countP
      (fun l => caseEq l.1 "Content-Length".toList) = 0 := fun c _ =>
    HeaderStore.countP_removeHeader hu (by split; exacts [HeaderStore.removeHeader_sublist, List.Sublist.refl _])
  simp only [makeRawHttpRequest, hk, RawHttp.LengthFramed, RawHttp.Bodiless, List.countP_append, hfs,
    countP_line_of_ne (show caseEq "Host".toList "Content-Length".toList = false by decide),
    countP_line_of_ne (show caseEq "Content-Type".toList "Content-Length".toList = false by decide),
    countP_line_of_ne (show caseEq "Accept".toList "Content-Length".toList = false by decide),
    countP_line_of_ne (show caseEq "User-Agent".toList "Content-Length".toList = false by decide),
    countP_line_of_ne (show caseEq "Authorization".toList "Content-Length".toList = false by decide)]
  refine ⟨fun hm => ?_, fun hm => ?_⟩
  · have hl : (content.map List.length).getD 0 = (content.getD []).length := by cases content <;> rfl
    simp [hm, hl, List.append_assoc]
  · simp [hm]

/-- A 1xx or 204 response has no body and no `Content-Length` or
`Transfer-Encoding` line; a response to HEAD has no body; any other
response with content is framed by the `Content-Length` line the code
generates, with the content as its body. -/
theorem response_framing (hk : env.eqKey = caseEq) {h : HttpHeader} (hu : h.fields.Keyed caseEq)
    (content : Option (List Char)) (c : List Char) :
    (h.statusCode < HTTP_STATUS_OK ∨ h.statusCode = HTTP_STATUS_NO_CONTENT →
      (makeRawHttpResponse env h content).1.Bodiless ∧
        (makeRawHttpResponse env h content).1.lines.countP (fun l => caseEq l.1 "Transfer-Encoding".toList) = 0) ∧
    (h.method = .HEAD → (makeRawHttpResponse env h content).1.body = []) ∧
    (HTTP_STATUS_OK ≤ h.statusCode → h.statusCode ≠ HTTP_STATUS_NO_CONTENT → h.method ≠ .HEAD →
      (makeRawHttpResponse env h (some c)).1.LengthFramed c) := by
  refine ⟨fun hv => ?_, fun hm => by simp [makeRawHttpResponse, hm], fun hs hs' hm => ?_⟩
  · have hte := (hu.removeHeader "Transfer-Encoding".toList)
    simp only [makeRawHttpResponse, hk, hv, if_true, RawHttp.Bodiless, List.countP_append,
      countP_line_of_ne (show caseEq "Content-Type".toList "Content-Length".toList = false by decide),
      countP_line_of_ne (show caseEq "Content-Type".toList "Transfer-Encoding".toList = false by decide),
      HeaderStore.countP_removeHeader hte (List.Sublist.refl _),
      HeaderStore.countP_removeHeader hu HeaderStore.removeHeader_sublist]
    simp
  · simp only [makeRawHttpResponse, hk, content_valid hs hs', hm, if_false, RawHttp.LengthFramed, List.countP_append,
      countP_line_of_ne (show caseEq "Content-Type".toList "Content-Length".toList = false by decide),
      HeaderStore.countP_removeHeader_if_present hu]
    simp [List.append_assoc]

end

/-- The failing input: a POST of `abc` with `Transfer-Encoding: chunked`
set, answered with 200, on a map that ignores case. -/
def chunkedPost : HttpHeader :=
  ⟨⟨[("Transfer-Encoding".toList, "chunked".toList)]⟩, [], .POST, 200, "OK".toList, 1, 1,
    ⟨"a.com".toList, -1, []⟩⟩

/-- The environment of the failing input. -/
def caseIgnoredEnv : HttpEnv := ⟨caseEq, fun _ => "POST".toList, fun _ => "/".toList, id⟩

theorem transfer_encoding_beside_length_chunkedPost :
    (chunkedPost.method ≠ .GET →
      ("Content-Length".toList, decimalNat (((some "abc".toList).map List.length).getD 0)) ∈
          (makeRawHttpRequest caseIgnoredEnv chunkedPost [] 0 (some "abc".toList)).1.lines ∧
        ("Transfer-Encoding".toList, "chunked".toList) ∈
          (makeRawHttpRequest caseIgnoredEnv chunkedPost [] 0 (some "abc".toList)).1.lines) ∧
    (HTTP_STATUS_OK ≤ chunkedPost.statusCode → chunkedPost.statusCode ≠ HTTP_STATUS_NO_CONTENT →
      chunkedPost.method ≠ .HEAD →
      ("Content-Length".toList, decimalNat "abc".toList.length) ∈
          (makeRawHttpResponse caseIgnoredEnv chunkedPost (some "abc".toList)).1.lines ∧
        ("Transfer-Encoding".toList, "chunked".toList) ∈
          (makeRawHttpResponse caseIgnoredEnv chunkedPost (some "abc".toList)).1.lines) :=
  transfer_encoding_beside_length caseIgnoredEnv (List.mem_singleton_self _) (by decide) (by decide) [] 0
    (some "abc".toList) "abc".toList

theorem request_framing_chunkedPost :
    (chunkedPost.method ≠ .GET →
      (makeRawHttpRequest caseIgnoredEnv chunkedPost [] 0 (some "abc".toList)).1.LengthFramed "abc".toList) ∧
    (chunkedPost.method = .GET →
      (makeRawHttpRequest caseIgnoredEnv chunkedPost [] 0 (some "abc".toList)).1.Bodiless) :=
  request_framing caseIgnoredEnv rfl (show chunkedPost.fields.Keyed caseEq from List.pairwise_singleton _ _)
    [] 0 (some "abc".toList)

theorem response_framing_chunkedPost :
    (chunkedPost.statusCode < HTTP_STATUS_OK ∨ chunkedPost.statusCode = HTTP_STATUS_NO_CONTENT →
      (makeRawHttpResponse caseIgnoredEnv chunkedPost none).1.Bodiless ∧
        (makeRawHttpResponse caseIgnoredEnv chunkedPost none).1.lines.countP
          (fun l => caseEq l.1 "Transfer-Encoding".toList) = 0) ∧
    (chunkedPost.method = .HEAD → (makeRawHttpResponse caseIgnoredEnv chunkedPost none).1.body = []) ∧
    (HTTP_STATUS_OK ≤ chunkedPost.statusCode → chunkedPost.statusCode ≠ HTTP_STATUS_NO_CONTENT →
      chunkedPost.method ≠ .HEAD →
      (makeRawHttpResponse caseIgnoredEnv chunkedPost (some "abc".toList)).1.LengthFramed "abc".toList) :=
  response_framing caseIgnoredEnv rfl (show chunkedPost.fields.Keyed caseEq from List.pairwise_singleton _ _)
    none "abc".toList

end Melon.Rpc
