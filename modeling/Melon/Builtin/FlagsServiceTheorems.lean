/-
Melon.Builtin.FlagsServiceTheorems — what a flag's value can do to the
markup of the `/flags` page.

* `skeleton` — the tags of a page, in order, with the text between them
  erased; `scan` is the scanner that reads them, one character at a time.
* `htmlReplace_eq` — `HtmlReplace` replaces each of `<`, `>`, `&` and
  keeps the rest, so no `<` is left (`lt_not_mem_htmlReplace`);
  `htmlReplace_escapes` says the same with the escapes of the spec, `esc`.
* `listing_skeleton_same` — the table of flags has the same skeleton for
  every two registries that differ only in the current values.
* `flag_value_injects_markup` — the other two pages that print a value do
  not escape it: `set_value_page` prints the current value, and the
  confirmation of `?setvalue=VALUE` prints `VALUE`, as they are.

## How the proof goes

A text with no `<`, read from outside a tag, changes nothing
(`scan_inert`), and after any text that ends in `>` the scanner is
outside a tag (`scan_cur_of_getLast`). Each row of the table is a head
that ends in `>`, the text that reads the current value, and a tail that
does not read it (`printFlag_html`); so two rows that differ in the value
scan alike (`SameScan`), and so do the two tables, row by row.
-/
import Melon.Builtin.FlagsService

namespace Melon.Builtin

/-! ## 1. `HtmlReplace` replaces each special character -/

theorem replacement_of_not_special {c : Char} (h : isSpecial c = false) : replacement c = [c] := by
  unfold replacement
  split <;> simp_all [isSpecial]

theorem flatMap_replacement_of_forall {t : List Char} (h : ∀ c ∈ t, isSpecial c = false) :
    t.flatMap replacement = t := by
  induction t with
  | nil => rfl
  | cons c t ih =>
    rw [List.flatMap_cons, replacement_of_not_special (h c (List.mem_cons_self _ _)),
      ih fun d hd => h d (List.mem_cons_of_mem _ hd), List.singleton_append]

theorem replacement_ne_nil (c : Char) : replacement c ≠ [] := by
  unfold replacement; split <;> simp

/-- `rest` cut before its first special character `c`, replaced. -/
theorem flatMap_replacement_split {rest rest' : List Char} {c : Char}
    (hd : rest.dropWhile (fun c => !isSpecial c) = c :: rest') :
    rest.flatMap replacement =
      rest.takeWhile (fun c => !isSpecial c) ++ replacement c ++ rest'.flatMap replacement := by
  conv_lhs => rw [← List.takeWhile_append_dropWhile (fun c => !isSpecial c) rest, hd]
  rw [List.flatMap_append, List.flatMap_cons, List.append_assoc,
    flatMap_replacement_of_forall fun d hd' => by simpa using List.mem_takeWhile_imp hd']

/-- Once `b` holds a replacement, the loop appends the rest, replaced. -/
theorem htmlReplaceLoop_of_ne_nil (s : List Char) {b rest : List Char} (hb : b ≠ []) :
    htmlReplaceLoop s b rest = b ++ rest.flatMap replacement := by
  induction b, rest using htmlReplaceLoop.induct s with
  | case1 b rest _ hbe => exact absurd (List.isEmpty_iff.1 hbe) hb
  | case2 b rest hd hbe =>
    rw [htmlReplaceLoop, hd]
    simp only [hbe, if_false, Bool.false_eq_true]
    rw [flatMap_replacement_of_forall fun c hc => by simpa using List.dropWhile_eq_nil_iff.1 hd c hc]
  | case3 b rest c rest' hd ih =>
    rw [htmlReplaceLoop, hd]
    simp only
    rw [ih (by simp [replacement_ne_nil]), flatMap_replacement_split hd]
    simp only [List.append_assoc]

/-- `HtmlReplace(s)` is `s` with each special character replaced. -/
theorem htmlReplace_eq (s : List Char) : htmlReplace s = s.flatMap replacement := by
  unfold htmlReplace
  rw [htmlReplaceLoop]
  split
  next hd =>
    simp only [List.isEmpty_nil, if_true]
    rw [flatMap_replacement_of_forall fun c hc => by simpa using List.dropWhile_eq_nil_iff.1 hd c hc]
  next c rest' hd =>
    rw [htmlReplaceLoop_of_ne_nil s (by simp [replacement_ne_nil]), flatMap_replacement_split hd]
    simp only [List.nil_append]

/-- Modelled from the spec: the escape of one character, `&lt;`, `&gt;`
and `&amp;` for `<`, `>` and `&`, the character itself otherwise. -/
def esc (c : Char) : List Char :=
  if c = '<' then "&lt;".toList
  else if c = '>' then "&gt;".toList
  else if c = '&' then "&amp;".toList
  else [c]

theorem replacement_eq_esc : replacement = esc := by
  funext c
  unfold replacement esc
  split <;> simp_all

/-- For every string, `HtmlReplace` returns the escapes of its characters,
one after another; its `find_first_of` loop ends on every input, each
round taking what is left of the string past a special character. -/
theorem htmlReplace_escapes (s : List Char) : htmlReplace s = (s.map esc).flatten := by
  rw [htmlReplace_eq, replacement_eq_esc, List.flatMap_def]

theorem lt_not_mem_replacement (c : Char) : '<' ∉ replacement c := by
  by_cases h : isSpecial c = true
  · simp only [isSpecial, Bool.or_eq_true, beq_iff_eq] at h
    rcases h with (rfl | rfl) | rfl <;> decide
  · rw [replacement_of_not_special (by simpa using h), List.mem_singleton]
    rintro rfl
    exact h rfl

theorem lt_not_mem_htmlReplace (s : List Char) : '<' ∉ htmlReplace s := by
  rw [htmlReplace_eq]
  intro h
  obtain ⟨d, -, hd⟩ := List.mem_flatMap.1 h
  exact lt_not_mem_replacement d hd

example : htmlReplace "a<b>&c".toList = "a&lt;b&gt;&amp;c".toList := by
  rw [htmlReplace_eq]; decide

/-! ## 2. The skeleton of a page -/

/-- The tag scanner: the tags read so far, and the tag being read, if
any, last character first. -/
structure TagScan where
  tags : List (List Char)
  cur : Option (List Char)
  deriving DecidableEq, Repr

/-- One character: `<` opens a tag, `>` closes the open one. -/
def scanChar (st : TagScan) (c : Char) : TagScan :=
  match st.cur with
  | none => if c = '<' then ⟨st.tags, some []⟩ else st
  | some acc => if c = '>' then ⟨st.tags ++ [acc.reverse], none⟩ else ⟨st.tags, some (c :: acc)⟩

def scan (s : List Char) (st : TagScan) : TagScan := s.foldl scanChar st

/-- The markup skeleton of a page: its tags, in order, the text between
them erased. -/
def skeleton (s : List Char) : List (List Char) := (scan s ⟨[], none⟩).tags

example : skeleton "<p>a<b>c</b></p>".toList = ["p".toList, "b".toList, "/b".toList, "/p".toList] := by
  decide

theorem scan_append (a b : List Char) (st : TagScan) : scan (a ++ b) st = scan b (scan a st) :=
  List.foldl_append _ _ _ _

/-- A text with no `<`, read outside a tag, leaves the scanner as it
was. -/
theorem scan_inert {t : List Char} (ht : '<' ∉ t) {st : TagScan} (hst : st.cur = none) : scan t st = st := by
  induction t with
  | nil => rfl
  | cons c t ih =>
    have hc : c ≠ '<' := fun h => ht (h ▸ List.mem_cons_self _ _)
    have hs : scanChar st c = st := by simp [scanChar, hst, hc]
    rw [scan, List.foldl_cons, hs]
    exact ih fun h => ht (List.mem_cons_of_mem _ h)

/-- After a `>`, the scanner is outside a tag. -/
theorem scan_cur_of_getLast {a : List Char} (h : a.getLast? = some '>') (st : TagScan) :
    (scan a st).cur = none := by
  obtain ⟨ys, rfl⟩ := List.getLast?_eq_some_iff.1 h
  rw [scan_append]
  generalize scan ys st = t
  simp only [scan, List.foldl_cons, List.foldl_nil, scanChar]
  split <;> simp_all

/-- Two texts that leave the scanner alike from every state. -/
def SameScan (a b : List Char) : Prop := ∀ st, scan a st = scan b st

theorem SameScan.refl (a : List Char) : SameScan a a := fun _ => rfl

theorem SameScan.append {a b c d : List Char} (h₁ : SameScan a b) (h₂ : SameScan c d) :
    SameScan (a ++ c) (b ++ d) := fun st => by rw [scan_append, scan_append, h₁, h₂]

theorem SameScan.skeleton_eq {a b : List Char} (h : SameScan a b) : skeleton a = skeleton b :=
  congrArg TagScan.tags (h _)

/-- Text with no `<` after a text that ends in `>` does not matter. -/
theorem sameScan_inert {A T T' : List Char} (hA : A.getLast? = some '>') (hT : '<' ∉ T) (hT' : '<' ∉ T') :
    SameScan (A ++ T) (A ++ T') := fun st => by
  rw [scan_append, scan_append, scan_inert hT (scan_cur_of_getLast hA st),
    scan_inert hT' (scan_cur_of_getLast hA st)]

theorem sameScan_flatMap {β : Type} {R : β → β → Prop} {g g' : β → List Char} :
    ∀ {l l' : List β}, List.Forall₂ R l l' → (∀ a b, R a b → SameScan (g a) (g' b)) →
      SameScan (l.flatMap g) (l'.flatMap g')
  | _, _, .nil, _ => SameScan.refl _
  | _, _, .cons hab hl, hg => (hg _ _ hab).append (sameScan_flatMap hl hg)

/-! ## 3. The table of flags -/

/-- Two flags that differ in the current value at most. -/
def SameExceptValue (f f' : FlagInfo) : Prop := f' = { f with currentValue := f'.currentValue }

/-- The head of an HTML row, up to the value. -/
def rowHead (f : FlagInfo) : List Char :=
  "<tr><td>".toList ++ f.name ++
  (if f.hasValidatorFn then " (<a href='/flags/".toList ++ f.name ++ "?setvalue&withform'>R</a>)".toList
  else []) ++ "</td><td>".toList ++ (if !f.isDefault then "<span style='color:#FF0000'>".toList else [])

/-- The text of an HTML row that reads the current value. -/
def valueText (f : FlagInfo) : List Char :=
  (if !f.currentValue.isEmpty then htmlReplace f.currentValue else "&nbsp;".toList) ++
  (if !f.isDefault && f.defaultValue != f.currentValue then
    " (default:".toList ++ htmlReplace f.defaultValue ++ [')'] else [])

/-- The rest of an HTML row. -/
def rowTail (f : FlagInfo) : List Char :=
  (if !f.isDefault then "</span>".toList else []) ++ "</td><td>".toList ++ f.description ++
  "</td><td>".toList ++ f.filename ++ "</td></tr>".toList

theorem printFlag_html (f : FlagInfo) : printFlag f true = rowHead f ++ valueText f ++ rowTail f := by
  unfold printFlag rowHead valueText rowTail
  cases f.isDefault <;> simp

theorem rowHead_getLast (f : FlagInfo) : (rowHead f).getLast? = some '>' := by
  unfold rowHead
  cases f.isDefault
  · show (_ ++ "<span style='color:#FF0000'>".toList).getLast? = _
    rw [List.getLast?_append_of_ne_nil _ (by decide)]; decide
  · show (_ ++ "</td><td>".toList ++ []).getLast? = _
    rw [List.append_nil, List.getLast?_append_of_ne_nil _ (by decide)]; decide

theorem lt_not_mem_valueText (f : FlagInfo) : '<' ∉ valueText f := by
  unfold valueText
  simp only [List.mem_append, not_or]
  refine ⟨?_, ?_⟩ <;> split <;> simp [lt_not_mem_htmlReplace]

/-- A row does not depend, for the scanner, on the current value. -/
theorem printFlag_sameScan {f f' : FlagInfo} (h : SameExceptValue f f') :
    SameScan (printFlag f true) (printFlag f' true) := by
  have hh : rowHead f' = rowHead f := by rw [h]; rfl
  have ht : rowTail f' = rowTail f := by rw [h]; rfl
  rw [printFlag_html, printFlag_html, hh, ht]
  exact (sameScan_inert (rowHead_getLast f) (lt_not_mem_valueText f) (lt_not_mem_valueText f')).append
    (SameScan.refl _)

theorem getCommandLineFlagInfo_rel {flags flags' : List FlagInfo} (h : List.Forall₂ SameExceptValue flags flags')
    (name : List Char) :
    Option.Rel SameExceptValue (getCommandLineFlagInfo flags name) (getCommandLineFlagInfo flags' name) := by
  induction h with
  | nil => exact .none
  | @cons f f' l l' hf _ ih =>
    have hn : f'.name = f.name := by rw [hf]
    unfold getCommandLineFlagInfo at ih ⊢
    rw [List.find?_cons, List.find?_cons, hn]
    split
    · exact .some hf
    · exact ih

theorem tableRows_sameScan (env : FlagsEnv) {flags flags' : List FlagInfo}
    (h : List.Forall₂ SameExceptValue flags flags') (constraint : List Char) :
    SameScan (tableRows env flags constraint true) (tableRows env flags' constraint true) := by
  unfold tableRows
  dsimp only
  generalize (if constraint.isEmpty = true then [] else env.split constraint) = fields
  split
  · refine sameScan_flatMap (List.forall₂_same.2 fun _ _ => rfl) fun n _ hn => ?_
    subst hn
    have hr := getCommandLineFlagInfo_rel h (cStr n)
    revert hr
    generalize getCommandLineFlagInfo flags (cStr n) = o
    generalize getCommandLineFlagInfo flags' (cStr n) = o'
    rintro (hf | _)
    · exact (printFlag_sameScan hf).append (SameScan.refl _)
    · exact SameScan.refl _
  · refine sameScan_flatMap h fun f f' hf => ?_
    have hn : f'.name = f.name := by rw [hf]
    rw [hn]
    split
    · exact SameScan.refl _
    · exact (printFlag_sameScan hf).append (SameScan.refl _)

/-- The table of flags as HTML: for every two registries that differ only
in the current values of their flags, the pages have the same tags. -/
theorem listing_skeleton_same (env : FlagsEnv) {flags flags' : List FlagInfo}
    (h : List.Forall₂ SameExceptValue flags flags') (req : FlagsRequest) (hv : req.setvalue = none)
    (hh : req.useHtml = true) :
    ∃ b b', (defaultMethod env flags req).body = .attachment b ∧
      (defaultMethod env flags' req).body = .attachment b' ∧ skeleton b = skeleton b' := by
  simp only [defaultMethod, hv, hh]
  exact ⟨_, _, rfl, rfl,
    ((SameScan.refl _).append (tableRows_sameScan env h _)).append (SameScan.refl _) |>.skeleton_eq⟩

/-! ## 4. The pages that do not escape -/

/-- A reloadable string flag `f` whose current value is `v`. -/
def stringFlag (v : List Char) : FlagInfo :=
  ⟨"f".toList, "string".toList, [], v, [], [], true, false⟩

/-- Surroundings that print nothing, and a `SetCommandLineOption` that
takes every value. -/
def acceptingEnv : FlagsEnv :=
  ⟨false, fun _ v => "f set to ".toList ++ v, [], [], [], fun c => [c], fun _ _ => false⟩

/-- `/flags/f?setvalue=v`, and `/flags/f?setvalue&withform`, as HTML. -/
def setRequest (v : List Char) (withform : Bool) : FlagsRequest := ⟨some v, withform, "f".toList, true⟩

theorem listing_skeleton_same_values :
    ∃ b b', (defaultMethod acceptingEnv [stringFlag "x".toList] ⟨none, false, [], true⟩).body = .attachment b ∧
      (defaultMethod acceptingEnv [stringFlag "<b>".toList] ⟨none, false, [], true⟩).body = .attachment b' ∧
      skeleton b = skeleton b' :=
  listing_skeleton_same acceptingEnv
    (.cons (show SameExceptValue (stringFlag "x".toList) (stringFlag "<b>".toList) from rfl) .nil) _ rfl rfl

set_option maxRecDepth 4000 in
/-- The current value `<b>` adds a tag to the form of `set_value_page`,
and the value `<b>` adds one to the confirmation of `?setvalue`. -/
theorem flag_value_injects_markup :
    (∃ b b', (defaultMethod acceptingEnv [stringFlag "x".toList] (setRequest [] true)).body = .attachment b ∧
      (defaultMethod acceptingEnv [stringFlag "<b>".toList] (setRequest [] true)).body = .attachment b' ∧
      skeleton b ≠ skeleton b') ∧
    (∃ b b', (defaultMethod acceptingEnv [stringFlag "x".toList] (setRequest "x".toList false)).body =
        .attachment b ∧
      (defaultMethod acceptingEnv [stringFlag "x".toList] (setRequest "<b>".toList false)).body =
        .attachment b' ∧
      skeleton b ≠ skeleton b') :=
  ⟨⟨_, _, rfl, rfl, by decide⟩, ⟨_, _, rfl, rfl, by decide⟩⟩

end Melon.Builtin
