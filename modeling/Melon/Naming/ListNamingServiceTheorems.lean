/-
Melon.Naming.ListNamingServiceTheorems — what the server-list loops of
the naming services return.

* `parseServerList_eq_eraseDups` — `ParseServerList` returns, in order,
  the first occurrence of each node its fields give (`List.eraseDups` of
  the nodes, which is the standard library's "first occurrences"): no
  node twice, none left out, none added, none moved before another that
  came first.

## How the proof goes

The loop body `if (presence.insert(node).second) servers->push_back(node)`
is `keepNew`; while `presence` holds the nodes of `servers`,
newest first, folding `keepNew` is `List.eraseDups.loop`
(`foldl_keepNew`), and a field that gives no node leaves both alone
(`foldl_elim_eq_filterMap`). `mem_eraseDups` and `nodup_eraseDups` say
what `List.eraseDups` keeps, for the callers.
-/
import Melon.Naming.ListNamingService
import Mathlib.Data.List.Nodup

namespace Melon.Naming

/-! ## 1. The loop body -/

/-- Folding `keepNew` from a `presence` that holds the nodes of
`servers`, newest first, is the loop of `List.eraseDups`. -/
theorem foldl_keepNew (l bs : List ServerNode) :
    (l.foldl keepNew (bs, bs.reverse)).2 = List.eraseDups.loop l bs := by
  induction l generalizing bs with
  | nil => rfl
  | cons a l ih =>
    by_cases h : a ∈ bs
    · simp only [List.foldl_cons, keepNew, h, if_true, List.eraseDups.loop, List.elem_eq_mem, decide_True, ih]
    · have hr : bs.reverse ++ [a] = (a :: bs).reverse := (List.reverse_cons a bs).symm
      simp only [List.foldl_cons, keepNew, h, if_false, hr, List.eraseDups.loop, List.elem_eq_mem,
        decide_False, ih]

/-- A fold whose step skips the elements `f` gives nothing for is the
fold over what `f` gives. -/
theorem foldl_elim_eq_filterMap {α β γ : Type} (f : α → Option β) (g : γ → β → γ) (l : List α) (init : γ) :
    l.foldl (fun acc x => (f x).elim acc (g acc)) init = (l.filterMap f).foldl g init := by
  induction l generalizing init with
  | nil => rfl
  | cons a l ih => cases h : f a <;> simp [List.filterMap_cons, h, ih]

/-! ## 2. What `List.eraseDups` keeps -/

theorem mem_eraseDups_loop {a : ServerNode} (l bs : List ServerNode) :
    a ∈ List.eraseDups.loop l bs ↔ a ∈ l ∨ a ∈ bs := by
  induction l generalizing bs with
  | nil => simp [List.eraseDups.loop]
  | cons b l ih =>
    by_cases h : b ∈ bs
    · simp only [List.eraseDups.loop, List.elem_eq_mem, h, decide_True, ih, List.mem_cons]
      constructor
      · tauto
      · rintro ((rfl | h') | h') <;> tauto
    · simp only [List.eraseDups.loop, List.elem_eq_mem, h, decide_False, ih, List.mem_cons]
      tauto

theorem nodup_eraseDups_loop (l : List ServerNode) {bs : List ServerNode} (hb : bs.Nodup) :
    (List.eraseDups.loop l bs).Nodup := by
  induction l generalizing bs with
  | nil => exact List.nodup_reverse.2 hb
  | cons b l ih =>
    by_cases h : b ∈ bs
    · simpa only [List.eraseDups.loop, List.elem_eq_mem, h, decide_True] using ih hb
    · simpa only [List.eraseDups.loop, List.elem_eq_mem, h, decide_False] using ih (List.nodup_cons.2 ⟨h, hb⟩)

theorem mem_eraseDups {a : ServerNode} {l : List ServerNode} : a ∈ l.eraseDups ↔ a ∈ l := by
  simp [List.eraseDups, mem_eraseDups_loop]

theorem nodup_eraseDups (l : List ServerNode) : l.eraseDups.Nodup :=
  nodup_eraseDups_loop l List.nodup_nil

theorem eraseDups_eq_nil {l : List ServerNode} : l.eraseDups = [] ↔ l = [] := by
  simp only [List.eq_nil_iff_forall_not_mem, mem_eraseDups]

/-- The loop of `ParseServerList` and `GetServers` from empty `presence`
and `servers`. -/
theorem foldl_keepNew_nil (l : List ServerNode) : (l.foldl keepNew ([], [])).2 = l.eraseDups :=
  foldl_keepNew l []

/-- A property kept by every step of a fold in `Option` holds at its end;
the naming services run their calls so. -/
theorem foldlM_inv {α β : Type} {P : β → Prop} {f : β → α → Option β} :
    ∀ {l : List α} {b b' : β}, (∀ x b₁ b₂, x ∈ l → P b₁ → f b₁ x = some b₂ → P b₂) → P b →
      l.foldlM f b = some b' → P b'
  | [], _, _, _, hb, h => by cases h; exact hb
  | a :: _, b, _, hf, hb, h => by
    obtain ⟨b₁, h₁, h₂⟩ := Option.bind_eq_some.1 h
    exact foldlM_inv (fun x _ _ hx => hf x _ _ (List.mem_cons_of_mem a hx)) (hf a b b₁ (List.mem_cons_self _ _) hb h₁) h₂

/-! ## 3. `ParseServerList` -/

variable (env : ListEnv)

theorem parseServerList_eq_eraseDups (name : List Char) :
    parseServerList env (some name) = (0, ((env.split name).filterMap (lineNode env)).eraseDups) := by
  rw [parseServerList, foldl_elim_eq_filterMap, foldl_keepNew_nil]

end Melon.Naming
