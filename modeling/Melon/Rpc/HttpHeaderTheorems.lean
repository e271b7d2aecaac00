/-
Melon.Rpc.HttpHeaderTheorems — how `http_parser` cuts the names and the
values of header fields into chunks does not change the header that
`on_header_field` and `on_header_value` build.

* `HeaderStore.addField` — a whole field `name: value` added: a new
  field, or the value appended to the field of that name, after a `,`
  when that field's value is not empty.
* `header_chunking_invariant` — for any fields with non-empty names, cut
  into chunks in any way (at least one chunk per name and per value),
  the header is the one built from whole names and values, and it is the
  fields added one after another with `addField`.

## How the proof goes

A name's chunks, from a stage other than `HTTP_ON_HEADER_FIELD`, leave
`_cur_header` the whole name (`run_fields`). The first chunk of a value
points `_cur_value` at the field and adds the `,`; the others append to
it (`run_values_of_value`), so a field's calls add it whole
(`run_group`), and end in `HTTP_ON_HEADER_VALUE`, where the next name's
chunks start afresh. Induction over the fields gives the fold.
-/
import Melon.Rpc.HttpHeader

namespace Melon.Rpc

/-! ## 1. Adding a whole field -/

theorem modify_of_forall {α : Type} {f : α → α} (hf : ∀ a, f a = a) :
    ∀ (n : Nat) (l : List α), l.modify f n = l := by
  intro n l
  induction l generalizing n with
  | nil => simp
  | cons a l ih => cases n <;> simp [ih, hf]

theorem modify_modify_same {α : Type} (f g : α → α) :
    ∀ (n : Nat) (l : List α), (l.modify f n).modify g n = l.modify (g ∘ f) n := by
  intro n l
  induction l generalizing n with
  | nil => simp
  | cons a l ih => cases n <;> simp [ih]

namespace HeaderStore

variable (eqKey : List Char → List Char → Bool) (h : HeaderStore)

/-- A field `name: value` added whole: a new field, or the value appended
to the field of that name after a `,`, when that one is not empty. -/
def addField (name value : List Char) : HeaderStore :=
  let r := h.getOrAdd eqKey name
  r.1.modifyValue r.2 fun v => (if v.isEmpty then v else v ++ [',']) ++ value

theorem modifyValue_modifyValue (i : Nat) (f g : List Char → List Char) :
    (h.modifyValue i f).modifyValue i g = h.modifyValue i (g ∘ f) := by
  simp only [modifyValue, modify_modify_same]
  rfl

end HeaderStore

/-! ## 2. The calls for one field -/

namespace HeaderParser

variable (eqKey : List Char → List Char → Bool)

theorem run_append (m : HeaderParser) (es es' : List HeaderEvent) :
    m.run eqKey (es ++ es') = (m.run eqKey es).bind (·.run eqKey es') := by
  induction es generalizing m with
  | nil => rfl
  | cons e es ih =>
    simp only [List.cons_append, run]
    split
    · exact ih _
    · rfl

/-- Further chunks of a name append to `_cur_header`. -/
theorem run_fields_of_field {m : HeaderParser} (hs : m.stage = .onHeaderField) (cs : List (List Char)) :
    m.run eqKey (cs.map .field) = some { m with curHeader := m.curHeader ++ cs.flatten } := by
  induction cs generalizing m with
  | nil => simp [run]
  | cons c cs ih =>
    simp only [List.map_cons, run, step, onHeaderField, hs, ne_eq, not_true_eq_false, if_false, if_true]
    rw [ih rfl]
    simp [List.append_assoc]

/-- The chunks of a name, from another stage: `_cur_header` is the
name. -/
theorem run_fields {m : HeaderParser} (hs : m.stage ≠ .onHeaderField) {cs : List (List Char)} (hc : cs ≠ []) :
    m.run eqKey (cs.map .field) = some { m with stage := .onHeaderField, curHeader := cs.flatten } := by
  obtain ⟨c, cs, rfl⟩ := List.exists_cons_of_ne_nil hc
  simp only [List.map_cons, run, step, onHeaderField, hs, ne_eq, not_false_eq_true, if_true]
  rw [run_fields_of_field eqKey rfl]
  simp

/-- Further chunks of a value append to `*_cur_value`. -/
theorem run_values_of_value {i : Nat} (cs : List (List Char)) (cur : List Char) (h : HeaderStore) :
    (⟨.onHeaderValue, cur, some i, h⟩ : HeaderParser).run eqKey (cs.map .value) =
      some ⟨.onHeaderValue, cur, some i, h.modifyValue i (· ++ cs.flatten)⟩ := by
  induction cs generalizing h with
  | nil => simp [run, HeaderStore.modifyValue, modify_of_forall]
  | cons c cs ih =>
    simp only [List.map_cons, run, step, onHeaderValue, ne_eq, not_true_eq_false, false_and, if_false,
      if_true]
    rw [ih, HeaderStore.modifyValue_modifyValue]
    simp only [List.flatten_cons, Function.comp_def, List.append_assoc]

/-- The calls for one field, from a stage other than
`HTTP_ON_HEADER_FIELD`, add it whole. -/
theorem run_group {m : HeaderParser} (hs : m.stage ≠ .onHeaderField) {nc vc : List (List Char)} (hn : nc ≠ [])
    (hname : nc.flatten ≠ []) (hv : vc ≠ []) :
    m.run eqKey (nc.map .field ++ vc.map .value) =
      some ⟨.onHeaderValue, nc.flatten, some (m.header.getOrAdd eqKey nc.flatten).2,
        m.header.addField eqKey nc.flatten vc.flatten⟩ := by
  obtain ⟨c, cs, rfl⟩ := List.exists_cons_of_ne_nil hv
  have hname' : (List.flatten nc).isEmpty = false := by simpa using hname
  rw [run_append, run_fields eqKey hs hn, Option.some_bind]
  simp only [List.map_cons, run, step, onHeaderValue, ne_eq, reduceCtorEq, not_false_eq_true, true_and,
    hname', Bool.false_eq_true, if_false, if_true]
  rw [run_values_of_value, HeaderStore.modifyValue_modifyValue,
    HeaderStore.modifyValue_modifyValue]
  simp only [HeaderStore.addField, List.flatten_cons, Function.comp_def, List.append_assoc]

/-! ## 3. All the fields -/

/-- The calls for fields cut into chunks: each name's chunks, then each
value's. -/
def events (cuts : List (List (List Char) × List (List Char))) : List HeaderEvent :=
  cuts.flatMap fun c => c.1.map .field ++ c.2.map .value

theorem run_events_fold {m : HeaderParser} (hs : m.stage ≠ .onHeaderField)
    (cuts : List (List (List Char) × List (List Char)))
    (hcuts : ∀ c ∈ cuts, c.1 ≠ [] ∧ c.1.flatten ≠ [] ∧ c.2 ≠ []) :
    (m.run eqKey (events cuts)).map (·.header) =
      some ((cuts.map fun c => (c.1.flatten, c.2.flatten)).foldl (fun h f => h.addField eqKey f.1 f.2)
        m.header) := by
  induction cuts generalizing m with
  | nil => rfl
  | cons c cuts ih =>
    obtain ⟨hn, hname, hv⟩ := hcuts c (List.mem_cons_self _ _)
    simp only [events, List.flatMap_cons] at ih ⊢
    rw [run_append, run_group eqKey hs hn hname hv, Option.some_bind,
      ih (by simp) fun c' hc' => hcuts c' (List.mem_cons_of_mem _ hc')]
    rfl

/-- However `http_parser` cuts the fields' names and values into chunks,
`on_header_field` and `on_header_value` build the header that whole
names and values build: the fields added in order, a repeated name's
values joined by `,`. -/
theorem header_chunking_invariant {m : HeaderParser} (hm : m.stage = .other)
    (cuts : List (List (List Char) × List (List Char)))
    (hcuts : ∀ c ∈ cuts, c.1 ≠ [] ∧ c.1.flatten ≠ [] ∧ c.2 ≠ []) :
    (m.run eqKey (events cuts)).map (·.header) =
        (m.run eqKey (events (cuts.map fun c => ([c.1.flatten], [c.2.flatten])))).map (·.header) ∧
      (m.run eqKey (events cuts)).map (·.header) =
        some ((cuts.map fun c => (c.1.flatten, c.2.flatten)).foldl (fun h f => h.addField eqKey f.1 f.2)
          m.header) := by
  have hs : m.stage ≠ .onHeaderField := by rw [hm]; decide
  refine ⟨?_, run_events_fold eqKey hs cuts hcuts⟩
  rw [run_events_fold eqKey hs cuts hcuts, run_events_fold eqKey hs _ fun c hc => by
    obtain ⟨c', hc', rfl⟩ := List.mem_map.1 hc
    exact ⟨List.cons_ne_nil _ _, by simpa using (hcuts c' hc').2.1, List.cons_ne_nil _ _⟩]
  simp [Function.comp_def]

end HeaderParser

/-- `Host` in two chunks with a value in three, one of them empty, then
`X`, then `Host` again. -/
def hostCuts : List (List (List Char) × List (List Char)) :=
  [(["Ho".toList, "st".toList], ["a".toList, [], "b".toList]), (["X".toList], ["1".toList]),
    (["Host".toList], ["c".toList])]

theorem header_chunking_invariant_host :
    (HeaderParser.run (· == ·) ⟨.other, [], none, ⟨[]⟩⟩ (HeaderParser.events hostCuts)).map (·.header) =
        (HeaderParser.run (· == ·) ⟨.other, [], none, ⟨[]⟩⟩
          (HeaderParser.events (hostCuts.map fun c => ([c.1.flatten], [c.2.flatten])))).map (·.header) ∧
      (HeaderParser.run (· == ·) ⟨.other, [], none, ⟨[]⟩⟩ (HeaderParser.events hostCuts)).map (·.header) =
        some ((hostCuts.map fun c => (c.1.flatten, c.2.flatten)).foldl
          (fun h f => h.addField (· == ·) f.1 f.2) ⟨[]⟩) :=
  HeaderParser.header_chunking_invariant (· == ·) rfl hostCuts (by decide)

end Melon.Rpc
