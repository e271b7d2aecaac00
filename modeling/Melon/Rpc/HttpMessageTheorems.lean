/-
Melon.Rpc.HttpMessageTheorems — what the readers of a progressive
`HttpMessage` receive, over every schedule of the two threads.

## How the proof goes

`Inv` holds at the constructor (`inv_init`), is kept by every step of either
thread and by the destructor when no user's `OnReadOnePart` fails
(`Inv.parserStep`, `Inv.setterStep`, `Inv.destroy`), and so holds after
every such schedule (`Inv.run`). Its first field is conservation: the data
handed to readers, then the setter's `body_seen`, then `_body`, then what
the parser holds (the chunk `OnBody` waits to append, or the parts of its
flush), then the chunks to come, is the parser's input in order. The
exclusion fields make that order hold: while the setter holds `body_seen`
no reader is set, so the parser hands nothing on; while the parser
flushes, its reader is `_body_reader` and `_body` is empty. `Phase` follows
the first reader from before its `SetBodyReader` to its one
`OnEndOfMessage`: only it is ever set, and once it is ended no part is
handed on (`first_reader_receives_body`).

A second `SetBodyReader` is refused with `EPERM` only while the first
reader is still set: once `OnMessageComplete` has ended the first, the
second finds `_body_reader == nullptr` and an empty `_body` at
`HTTP_ON_MESSAGE_COMPLETE`, and is ended with OK
(`second_reader_after_complete`).
-/
import Melon.Rpc.HttpMessage

namespace Melon.Rpc

/-! ## 1. What the readers are handed, and what is in flight -/

/-- The data a log hands to readers, in order. -/
def handed {α : Type} : List (Event α) → List α
  | [] => []
  | .part _ d _ :: l => d ++ handed l
  | .eom _ _ :: l => handed l

/-- The statuses of the `OnEndOfMessage` calls reader `r` received. -/
def eoms {α : Type} (r : Reader) : List (Event α) → List Status
  | [] => []
  | .part _ _ _ :: l => eoms r l
  | .eom r' st :: l => if r' = r then st :: eoms r l else eoms r l

/-- An `OnReadOnePart` call. -/
def Event.isPart {α : Type} : Event α → Bool
  | .part _ _ _ => true
  | .eom _ _ => false

section Views

variable {α : Type}

@[simp] theorem handed_nil : handed ([] : List (Event α)) = [] := rfl

@[simp] theorem handed_append (l l' : List (Event α)) : handed (l ++ l') = handed l ++ handed l' := by
  induction l with
  | nil => rfl
  | cons e l ih => cases e <;> simp [handed, ih]

@[simp] theorem handed_part (r : Reader) (d : List α) (res : Option Int) :
    handed [Event.part r d res] = d := by simp [handed]

@[simp] theorem handed_eom (r : Reader) (st : Status) : handed [(Event.eom r st : Event α)] = [] := rfl

@[simp] theorem eoms_nil (r : Reader) : eoms r ([] : List (Event α)) = [] := rfl

@[simp] theorem eoms_append (r : Reader) (l l' : List (Event α)) :
    eoms r (l ++ l') = eoms r l ++ eoms r l' := by
  induction l with
  | nil => rfl
  | cons e l ih =>
    cases e with
    | part => exact ih
    | eom r' st => by_cases h : r' = r <;> simp [eoms, h, ih]

@[simp] theorem eoms_part (r r' : Reader) (d : List α) (res : Option Int) :
    eoms r [Event.part r' d res] = [] := rfl

@[simp] theorem eoms_eom (r r' : Reader) (st : Status) :
    eoms r [(Event.eom r' st : Event α)] = if r' = r then [st] else [] := by
  simp only [eoms]

end Views

/-- What the setter holds in `body_seen`. -/
def SetterPc.held {α : Type} : SetterPc α → List α
  | .deliver _ _ ps => ps.flatten
  | _ => []

/-- The reader the setter's call is for. -/
def SetterPc.reader {α : Type} : SetterPc α → Option Reader
  | .next => none
  | .loop r _ | .deliver r _ _ => some r

/-- What the parser holds: the chunk `OnBody` waits to append, or the
parts of a flush. -/
def ParserPc.held {α : Type} : ParserPc α → List α
  | .onBody c => c
  | .flush _ ps | .completeFlush _ ps => ps.flatten
  | _ => []

/-- The parser is inside a flush, or past the flush of `OnMessageComplete`. -/
def ParserPc.flushing {α : Type} : ParserPc α → Bool
  | .flush _ _ | .completeFlush _ _ | .completeEnd => true
  | _ => false

/-- The parser is inside `OnMessageComplete`, past its first lock. -/
def ParserPc.completing {α : Type} : ParserPc α → Bool
  | .completeFlush _ _ | .completeEnd => true
  | _ => false

/-- The reader a flush hands its parts to. -/
def ParserPc.reader {α : Type} : ParserPc α → Option Reader
  | .flush r _ | .completeFlush r _ => some r
  | _ => none

/-- What a choice says a user's `OnReadOnePart` returns. -/
def Choice.res : Choice → Option Int
  | .parser res | .setter res => res
  | .destroy => none

namespace HttpMessage

variable {α : Type}

/-- Everything not yet handed to a reader, in the order it will be. -/
def inFlight (s : HttpMessage α) : List α :=
  s.setter.held ++ s.body.flatten ++ s.parser.held ++ s.chunks.flatten

/-! ## 2. The first reader's life -/

/-- Where the first reader `user i₀` is, for a setter whose calls after it
are `rest`. -/
inductive Phase (i₀ : Nat) (rest : List Nat) (s : HttpMessage α) : Prop
  /-- `SetBodyReader(r)` has not been called. -/
  | before (hr : s.readers = i₀ :: rest) (hs : s.setter = .next) (hb : s.bodyReader = none)
      (hl : s.log = [])
  /-- `SetBodyReader(r)` is running. -/
  | calling (hr : s.readers = rest) (hs : s.setter.reader = some (.user i₀))
      (hb : s.bodyReader = none) (he : eoms (.user i₀) s.log = [])
  /-- `r` is `_body_reader`. -/
  | attached (hr : s.readers <:+ rest) (hs : ∀ r n ps, s.setter ≠ .deliver r n ps)
      (hs' : s.setter.reader ≠ some (.user i₀)) (hb : s.bodyReader = some (.user i₀))
      (he : eoms (.user i₀) s.log = []) (hc : s.complete = true → s.parser.completing = true)
      (hd : s.destroyed = false)
  /-- `r` has received its `OnEndOfMessage`, and no part comes after it. -/
  | ended (hr : s.readers <:+ rest) (hs : ∀ r n ps, s.setter ≠ .deliver r n ps)
      (hs' : s.setter.reader ≠ some (.user i₀)) (hb : s.bodyReader = none)
      (he : eoms (.user i₀) s.log = [if s.complete then .ok else .econnreset])
      (ht : ∃ l st l', s.log = l ++ .eom (.user i₀) st :: l' ∧ ∀ e ∈ l', e.isPart = false)
      (hq : (s.complete = true ∧ s.body = [] ∧ s.parser = .done) ∨
        (s.destroyed = true ∧ s.complete = false))

/-- What every state of a run with no failed read keeps, for the input
`input` and a first reader `user i₀`. -/
structure Inv (i₀ : Nat) (rest : List Nat) (input : List α) (s : HttpMessage α) : Prop where
  /-- No byte is lost, duplicated or reordered. -/
  conserve : handed s.log ++ s.inFlight = input
  /-- Every part went to the first reader, and was read. -/
  parts : ∀ r d res, Event.part r d res ∈ s.log → r = .user i₀ ∧ res = none
  /-- A flush hands its parts to the first reader. -/
  parser_reader : ∀ r, s.parser.reader = some r → r = .user i₀
  /-- While the parser flushes, its reader is set and `_body` is empty. -/
  flushing : s.parser.flushing = true → s.bodyReader = some (.user i₀) ∧ s.body = []
  /-- While the setter holds `body_seen`, no reader is set. -/
  delivering : ∀ r n ps, s.setter = .deliver r n ps → s.bodyReader = none
  /-- `OnMessageComplete` ends the calls of the parser. -/
  completing : s.parser.completing = true → s.complete = true
  complete_chunks : s.complete = true → s.chunks = [] ∧ (s.parser = .done ∨ s.parser.completing = true)
  done_complete : s.parser = .done → s.complete = true
  /-- The destructor runs between calls, and nothing runs after it. -/
  destroyed_idle : s.destroyed = true → s.setter = .next ∧ s.parser.idle = true
  phase : Phase i₀ rest s

/-! ## 3. Every step keeps the invariant -/

section Steps

variable {cfg : Settings} {i₀ : Nat} {rest : List Nat} {input : List α} {s s' : HttpMessage α}

theorem inv_init (chunks : List (List α)) (completes : Bool) :
    Inv i₀ rest chunks.flatten (init chunks completes (i₀ :: rest)) where
  conserve := by simp [init, inFlight, SetterPc.held, ParserPc.held]
  parts := by simp [init]
  parser_reader := by simp [init, ParserPc.reader]
  flushing := by simp [init, ParserPc.flushing]
  delivering := by simp [init]
  completing := by simp [init, ParserPc.completing]
  complete_chunks := by simp [init]
  done_complete := by simp [init]
  destroyed_idle := by simp [init]
  phase := .before rfl rfl rfl rfl

/-- A parser step that leaves the setter's side and the log alone keeps
the phase. -/
theorem Phase.parser_frame (h : Phase i₀ rest s) (hd : s.destroyed = false)
    (hpd : s.parser ≠ .done) (hr : s'.readers = s.readers) (hs : s'.setter = s.setter)
    (hb : s'.bodyReader = s.bodyReader) (hl : s'.log = s.log) (hd' : s'.destroyed = s.destroyed)
    (hc : s.bodyReader = some (.user i₀) → s'.complete = true → s'.parser.completing = true) :
    Phase i₀ rest s' := by
  cases h with
  | before h1 h2 h3 h4 => exact .before (hr ▸ h1) (hs ▸ h2) (hb ▸ h3) (hl ▸ h4)
  | calling h1 h2 h3 h4 => exact .calling (hr ▸ h1) (hs ▸ h2) (hb ▸ h3) (hl ▸ h4)
  | attached h1 h2 h3 h4 h5 _ h7 =>
    exact .attached (hr ▸ h1) (hs ▸ h2) (hs ▸ h3) (hb ▸ h4) (hl ▸ h5) (hc h4) (hd' ▸ h7)
  | ended _ _ _ _ _ _ hq =>
    rw [hd] at hq
    exact absurd (hq.resolve_right fun h => Bool.false_ne_true h.1).2.2 hpd

/-- A flush step that hands a part to the attached first reader keeps the
phase. -/
theorem Phase.parser_part (h : Phase i₀ rest s) (hb : s.bodyReader = some (.user i₀))
    (hr : s'.readers = s.readers) (hs : s'.setter = s.setter) (hb' : s'.bodyReader = s.bodyReader)
    (hd' : s'.destroyed = s.destroyed) {d : List α}
    (hl : s'.log = s.log ++ [.part (.user i₀) d none])
    (hc : s'.complete = true → s'.parser.completing = true) : Phase i₀ rest s' := by
  cases h with
  | attached h1 h2 h3 h4 h5 _ h7 =>
    exact .attached (hr ▸ h1) (hs ▸ h2) (hs ▸ h3) (hb' ▸ h4) (by simp [hl, h5]) hc (hd' ▸ h7)
  | before _ _ h3 | calling _ _ h3 | ended _ _ _ h3 => rw [h3] at hb; cases hb

/-- Only the first reader is ever set. -/
theorem Phase.bodyReader (h : Phase i₀ rest s) {r : Reader} (hb : s.bodyReader = some r) :
    r = .user i₀ := by
  cases h with
  | attached _ _ _ h4 => rw [h4] at hb; exact (Option.some.inj hb).symm
  | before _ _ h3 | calling _ _ h3 | ended _ _ _ h3 => rw [h3] at hb; cases hb

@[simp] theorem flatten_append_block (b : List (List α)) (c : List α) :
    (append b c).flatten = b.flatten ++ c := by
  unfold append
  split_ifs with hc
  · simp [List.isEmpty_iff.mp hc]
  · simp

/-- `s.complete` is still false while `OnBody` runs or the parser waits for
its next call with chunks to come. -/
theorem Inv.complete_false (h : Inv i₀ rest input s)
    (hpc : s.parser.completing = false) (hpd : s.parser ≠ .done) : s.complete = false := by
  cases hc : s.complete
  · rfl
  · rcases (h.complete_chunks hc).2 with e | e
    · exact absurd e hpd
    · rw [hpc] at e; cases e

/-- While a reader is set, the setter holds no `body_seen`. -/
theorem Inv.not_delivering (h : Inv i₀ rest input s) {r : Reader} (hb : s.bodyReader = some r) :
    s.setter.held = [] := by
  cases hs : s.setter with
  | deliver r' n ps => rw [h.delivering r' n ps hs] at hb; cases hb
  | _ => rfl

/-- One step of the parser thread keeps the invariant. -/
theorem Inv.parserStep (h : Inv i₀ rest input s) (hp : cfg.readBodyProgressively = true)
    (hd : s.destroyed = false) {res : Option Int} (hres : res = none)
    (e : s.parserStep cfg res = some s') : Inv i₀ rest input s' := by
  have hc := h.conserve
  cases hpc : s.parser with
  | next =>
    have hcf := h.complete_false (by simp [hpc, ParserPc.completing]) (by simp [hpc])
    simp only [HttpMessage.parserStep, hpc] at e
    cases hch : s.chunks with
    | cons c cs =>
      simp only [hch, hp, if_true, Option.some.injEq] at e
      subst e
      refine ⟨?_, h.parts, by simp [ParserPc.reader], by simp [ParserPc.flushing], h.delivering,
        by simp [ParserPc.completing], by simp [hcf], by simp [hcf], by simp [hd],
        h.phase.parser_frame hd (by simp [hpc]) rfl rfl rfl rfl rfl (by simp [hcf])⟩
      rw [← hc]
      simp [inFlight, hpc, hch, ParserPc.held]
    | nil =>
      simp only [hch, hp, if_true] at e
      split_ifs at e
      cases hb : s.bodyReader with
      | none =>
        simp only [hb, Option.some.injEq] at e
        subst e
        refine ⟨?_, h.parts, by simp [ParserPc.reader], by simp [ParserPc.flushing],
          fun _ _ _ _ => rfl, by simp [ParserPc.completing], by simp, by simp, by simp [hd],
          h.phase.parser_frame hd (by simp [hpc]) rfl rfl hb.symm rfl rfl (by simp [hb])⟩
        rw [← hc]
        simp [inFlight, hpc, hch, ParserPc.held]
      | some r =>
        simp only [hb, Option.some.injEq] at e
        subst e
        have hr := h.phase.bodyReader hb
        refine ⟨?_, h.parts, by simp [ParserPc.reader, hr], by simp [hb, hr],
          fun r n ps hs => absurd (h.delivering r n ps hs) (by simp [hb]),
          by simp, by simp [ParserPc.completing], by simp, by simp [hd],
          h.phase.parser_frame hd (by simp [hpc]) rfl rfl hb.symm rfl rfl (by simp [ParserPc.completing])⟩
        rw [← hc]
        simp [inFlight, hpc, hch, ParserPc.held]
  | onBody c =>
    have hcf := h.complete_false (by simp [hpc, ParserPc.completing]) (by simp [hpc])
    simp only [HttpMessage.parserStep, hpc] at e
    cases hb : s.bodyReader with
    | none =>
      simp only [hb] at e
      split_ifs at e
      · simp only [Option.some.injEq] at e
        subst e
        refine ⟨?_, h.parts, by simp [ParserPc.reader], by simp [ParserPc.flushing],
          fun _ _ _ _ => rfl, by simp [ParserPc.completing], by simp [hcf], by simp [hcf], by simp [hd],
          h.phase.parser_frame hd (by simp [hpc]) rfl rfl hb.symm rfl rfl (by simp [hb])⟩
        rw [← hc]
        simp [inFlight, hpc, ParserPc.held]
      · simp only [Option.some.injEq] at e
        exact e ▸ h
    | some r =>
      simp only [hb, Option.some.injEq] at e
      subst e
      have hr := h.phase.bodyReader hb
      refine ⟨?_, h.parts, by simp [ParserPc.reader, hr], by simp [hb, hr],
        fun r n ps hs => absurd (h.delivering r n ps hs) (by simp [hb]),
        by simp [ParserPc.completing], by simp [hcf], by simp [hcf], by simp [hd],
        h.phase.parser_frame hd (by simp [hpc]) rfl rfl hb.symm rfl rfl (by simp [hcf])⟩
      rw [← hc]
      simp [inFlight, hpc, ParserPc.held]
  | flush r ps =>
    have hcf := h.complete_false (by simp [hpc, ParserPc.completing]) (by simp [hpc])
    have hr := h.parser_reader r (by simp [hpc, ParserPc.reader])
    obtain ⟨hb, hbody⟩ := h.flushing (by simp [hpc, ParserPc.flushing])
    cases ps with
    | nil =>
      simp only [HttpMessage.parserStep, hpc, Option.some.injEq] at e
      subst e
      refine ⟨?_, h.parts, by simp [ParserPc.reader], by simp [ParserPc.flushing], h.delivering,
        by simp [ParserPc.completing], by simp [hcf], by simp [hcf], by simp [hd],
        h.phase.parser_frame hd (by simp [hpc]) rfl rfl rfl rfl rfl (by simp [hcf])⟩
      rw [← hc]
      simp [inFlight, hpc, ParserPc.held]
    | cons p ps =>
      simp only [HttpMessage.parserStep, hpc, hr, Reader.onReadOnePart, hres, Option.some.injEq] at e
      subst e
      refine ⟨?_, ?_, ?_, fun _ => ⟨hb, hbody⟩, h.delivering, ?_, by simp [hcf], ?_, by simp [hd],
        h.phase.parser_part hb rfl rfl rfl rfl rfl ?_⟩
      · rw [← hc]
        cases ps <;> simp [inFlight, hpc, ParserPc.held, hbody, h.not_delivering hb]
      · intro r' d res' hm
        rcases List.mem_append.mp hm with hm | hm
        · exact h.parts r' d res' hm
        · simp only [List.mem_singleton, Event.part.injEq] at hm
          exact ⟨hm.1, hm.2.2⟩
      · cases ps <;> simp [ParserPc.reader, hr]
      · cases ps <;> simp [ParserPc.completing]
      · cases ps <;> simp
      · simp [hcf]
  | completeFlush r ps =>
    have hct := h.completing (by simp [hpc, ParserPc.completing])
    have hr := h.parser_reader r (by simp [hpc, ParserPc.reader])
    obtain ⟨hb, hbody⟩ := h.flushing (by simp [hpc, ParserPc.flushing])
    have hch := (h.complete_chunks hct).1
    cases ps with
    | nil =>
      simp only [HttpMessage.parserStep, hpc, Option.some.injEq] at e
      subst e
      refine ⟨?_, h.parts, by simp [ParserPc.reader], fun _ => ⟨hb, hbody⟩, h.delivering,
        fun _ => hct, fun _ => ⟨hch, by simp [ParserPc.completing]⟩, by simp, by simp [hd],
        h.phase.parser_frame hd (by simp [hpc]) rfl rfl rfl rfl rfl (by simp [ParserPc.completing])⟩
      rw [← hc]
      simp [inFlight, hpc, ParserPc.held]
    | cons p ps =>
      simp only [HttpMessage.parserStep, hpc, hr, Reader.onReadOnePart, hres, Option.some.injEq] at e
      subst e
      refine ⟨?_, ?_, ?_, fun _ => ⟨hb, hbody⟩, h.delivering, fun _ => hct, fun _ => ⟨hch, ?_⟩, ?_,
        by simp [hd], h.phase.parser_part hb rfl rfl rfl rfl rfl fun _ => ?_⟩
      · rw [← hc]
        cases ps <;> simp [inFlight, hpc, ParserPc.held, hbody, h.not_delivering hb]
      · intro r' d res' hm
        rcases List.mem_append.mp hm with hm | hm
        · exact h.parts r' d res' hm
        · simp only [List.mem_singleton, Event.part.injEq] at hm
          exact ⟨hm.1, hm.2.2⟩
      · cases ps <;> simp [ParserPc.reader, hr]
      · cases ps <;> simp [ParserPc.completing]
      · cases ps <;> simp
      · cases ps <;> simp [ParserPc.completing]
  | completeEnd =>
    have hct := h.completing (by simp [hpc, ParserPc.completing])
    obtain ⟨hb, hbody⟩ := h.flushing (by simp [hpc, ParserPc.flushing])
    simp only [HttpMessage.parserStep, hpc, hb, Option.some.injEq] at e
    subst e
    refine ⟨?_, ?_, by simp [ParserPc.reader], by simp [ParserPc.flushing], by simp,
      by simp [ParserPc.completing], fun _ => ⟨(h.complete_chunks hct).1, by simp⟩, fun _ => hct,
      by simp [hd], ?_⟩
    · rw [← hc]
      simp [inFlight, hpc, ParserPc.held]
    · intro r' d res' hm
      rcases List.mem_append.mp hm with hm | hm
      · exact h.parts r' d res' hm
      · simp at hm
    · cases h.phase with
      | attached h1 h2 h3 _ h5 _ _ =>
        exact .ended h1 h2 h3 rfl (by simp [h5, hct]) ⟨s.log, .ok, [], rfl, by simp⟩
          (.inl ⟨hct, hbody, rfl⟩)
      | before _ _ h3 | calling _ _ h3 | ended _ _ _ h3 => rw [h3] at hb; cases hb
  | done | failed | crashed => simp [HttpMessage.parserStep, hpc] at e

theorem ParserPc.flushing_of_completing {p : ParserPc α} (h : p.completing = true) :
    p.flushing = true := by
  cases p <;> simp_all [ParserPc.completing, ParserPc.flushing]

/-- The setter holds `body_seen` only inside the first reader's call. -/
theorem Phase.deliver (h : Phase i₀ rest s) {r : Reader} {n : Nat} {ps : List (List α)}
    (hsc : s.setter = .deliver r n ps) :
    r = .user i₀ ∧ s.readers = rest ∧ s.bodyReader = none ∧ eoms (.user i₀) s.log = [] := by
  cases h with
  | before _ h2 => rw [hsc] at h2; cases h2
  | calling h1 h2 h3 h4 =>
    rw [hsc] at h2
    exact ⟨Option.some.inj h2, h1, h3, h4⟩
  | attached _ h2 | ended _ h2 => exact absurd hsc (h2 r n ps)

/-- `_body_reader = r` in `SetBodyReader`: before `OnMessageComplete`,
only the first reader's call gets there. -/
theorem Inv.install (h : Inv i₀ rest input s) {r : Reader} {n : Nat}
    (hsc : s.setter = .loop r n) (hb : s.bodyReader = none) (hcf : s.complete = false)
    (hd : s.destroyed = false) :
    Inv i₀ rest input { s with bodyReader := some r, setter := .next } := by
  have hnf : s.parser.flushing = false := by
    cases hf : s.parser.flushing
    · rfl
    · have := (h.flushing hf).1; rw [hb] at this; cases this
  refine ⟨?_, h.parts, h.parser_reader, by simp [hnf], by simp, h.completing, h.complete_chunks,
    h.done_complete, by simp [hd], ?_⟩
  · rw [← h.conserve]
    simp [inFlight, hsc, SetterPc.held]
  · cases h.phase with
    | calling h1 h2 _ h4 =>
      rw [hsc] at h2
      cases h2
      exact .attached (h1 ▸ List.suffix_refl _) (by simp) (by simp [SetterPc.reader]) rfl h4
        (by simp [hcf]) hd
    | ended _ _ _ _ _ _ h7 =>
      rcases h7 with ⟨h7, _⟩ | ⟨h7, _⟩
      · rw [hcf] at h7; cases h7
      · rw [hd] at h7; cases h7
    | before _ h2 => rw [hsc] at h2; cases h2
    | attached _ _ _ h4 => rw [h4] at hb; cases hb

/-- `body_seen = _body.movable()` in `SetBodyReader`: only the first
reader's call finds a non-empty `_body` and no reader set. -/
theorem Inv.take (h : Inv i₀ rest input s) {r : Reader} {n : Nat}
    (hsc : s.setter = .loop r n) (hb : s.bodyReader = none) (hbe : ¬s.body.isEmpty = true)
    (hd : s.destroyed = false) (n' : Nat) :
    Inv i₀ rest input { s with body := [], bodyReader := none, setter := .deliver r n' s.body } := by
  have hnf : s.parser.flushing = false := by
    cases hf : s.parser.flushing
    · rfl
    · have := (h.flushing hf).1; rw [hb] at this; cases this
  refine ⟨?_, h.parts, h.parser_reader, by simp [hnf], by simp, h.completing,
    h.complete_chunks, h.done_complete, by simp [hd], ?_⟩
  · rw [← h.conserve]
    simp [inFlight, hsc, SetterPc.held]
  · cases h.phase with
    | calling h1 h2 _ h4 => exact .calling h1 (by rw [← h2, hsc]; rfl) rfl h4
    | ended _ _ _ _ _ _ h7 =>
      rcases h7 with ⟨_, h7, _⟩ | ⟨h7, _⟩
      · exact absurd (List.isEmpty_iff.mpr h7) hbe
      · rw [hd] at h7; cases h7
    | before _ h2 => rw [hsc] at h2; cases h2
    | attached _ _ _ h4 => rw [h4] at hb; cases hb

/-- One step of the thread calling `SetBodyReader` keeps the invariant. -/
theorem Inv.setterStep (h : Inv i₀ rest input s) (hp : cfg.readBodyProgressively = true)
    (hi : i₀ ∉ rest) (hd : s.destroyed = false) {res : Option Int} (hres : res = none)
    (e : s.setterStep cfg res = some s') : Inv i₀ rest input s' := by
  have hc := h.conserve
  cases hsc : s.setter with
  | next =>
    simp only [HttpMessage.setterStep, hsc] at e
    cases hrd : s.readers with
    | nil => simp [hrd] at e
    | cons i is =>
      simp only [hrd, hp, if_true, Option.some.injEq] at e
      subst e
      refine ⟨?_, h.parts, h.parser_reader, h.flushing, by simp, h.completing, h.complete_chunks,
        h.done_complete, by simp [hd], ?_⟩
      · rw [← hc]
        simp [inFlight, hsc, SetterPc.held]
      · have hne (h1 : s.readers <:+ rest) : i ≠ i₀ := fun e =>
          hi (e ▸ (hrd ▸ h1).subset (List.mem_cons_self i is))
        have hsuf (h1 : s.readers <:+ rest) : is <:+ rest :=
          (List.suffix_cons i is).trans (hrd ▸ h1)
        cases h.phase with
        | before h1 _ h3 h4 =>
          rw [hrd] at h1
          obtain ⟨rfl, rfl⟩ := List.cons.inj h1
          exact .calling rfl rfl h3 (by simp [h4])
        | calling _ h2 => rw [hsc] at h2; cases h2
        | attached h1 _ _ h4 h5 h6 h7 =>
          exact .attached (hsuf h1) (by simp) (by simp [SetterPc.reader, hne h1]) h4 h5 h6 h7
        | ended h1 _ _ h4 h5 h6 h7 =>
          exact .ended (hsuf h1) (by simp) (by simp [SetterPc.reader, hne h1]) h4 h5 h6 h7
  | loop r n =>
    cases hb : s.bodyReader with
    | some r' =>
      simp only [HttpMessage.setterStep, hsc, hb, Option.some.injEq] at e
      subst e
      have hr' := h.phase.bodyReader hb
      refine ⟨?_, ?_, h.parser_reader, fun hf => by simpa [hb] using h.flushing hf, by simp,
        h.completing, h.complete_chunks, h.done_complete, by simp [hd], ?_⟩
      · rw [← hc]
        simp [inFlight, hsc, SetterPc.held]
      · intro r₁ d res' hm
        rcases List.mem_append.mp hm with hm | hm
        · exact h.parts r₁ d res' hm
        · simp at hm
      · cases h.phase with
        | attached h1 _ h3 _ h5 h6 h7 =>
          have hrne : r ≠ .user i₀ := fun e => h3 (by rw [hsc, e]; rfl)
          exact .attached h1 (by simp) (by simp [SetterPc.reader]) (by rw [hr'])
            (by simp [h5, hrne]) h6 h7
        | before _ _ h3 | calling _ _ h3 | ended _ _ _ h3 => rw [h3] at hb; cases hb
    | none =>
      simp only [HttpMessage.setterStep, hsc, hb] at e
      have hnf : s.parser.flushing = false := by
        cases hf : s.parser.flushing
        · rfl
        · have := (h.flushing hf).1; rw [hb] at this; cases this
      split_ifs at e with hbe hcpl hmax <;> simp only [Option.some.injEq] at e <;> subst e
      · -- `OnEndOfMessage(OK)`: the body is complete and consumed
        have hdone : s.parser = .done :=
          ((h.complete_chunks hcpl).2.resolve_right fun hx => by
            rw [ParserPc.flushing_of_completing hx] at hnf; cases hnf)
        refine ⟨?_, ?_, h.parser_reader, by simp [hnf], by simp, h.completing, h.complete_chunks,
          h.done_complete, by simp [hd], ?_⟩
        · rw [← hc]
          simp [inFlight, hsc, SetterPc.held]
        · intro r₁ d res' hm
          rcases List.mem_append.mp hm with hm | hm
          · exact h.parts r₁ d res' hm
          · simp at hm
        · cases h.phase with
          | calling h1 h2 _ h4 =>
            rw [hsc] at h2
            cases h2
            exact .ended (h1 ▸ List.suffix_refl _) (by simp) (by simp [SetterPc.reader]) rfl
              (by simp [h4, hcpl]) ⟨s.log, .ok, [], rfl, by simp⟩
              (.inl ⟨hcpl, List.isEmpty_iff.mp hbe, hdone⟩)
          | ended h1 _ h3 _ h5 h6 h7 =>
            have hrne : r ≠ .user i₀ := fun e => h3 (by rw [hsc, e]; rfl)
            obtain ⟨l, st, l', hl, hl'⟩ := h6
            refine .ended h1 (by simp) (by simp [SetterPc.reader]) rfl (by simp [h5, hrne])
              ⟨l, st, l' ++ [.eom r .ok], by simp [hl], ?_⟩ h7
            intro e he
            rcases List.mem_append.mp he with he | he
            · exact hl' e he
            · simp only [List.mem_singleton] at he; rw [he]; rfl
          | before _ h2 => rw [hsc] at h2; cases h2
          | attached _ _ _ h4 => rw [h4] at hb; cases hb
      · exact h.install hsc hb (by simpa using hcpl) hd
      · exact h.install hsc hb (by simp at hmax; exact hmax.1) hd
      all_goals exact h.take hsc hb hbe hd _
  | deliver r n ps =>
    obtain ⟨hr, h1, hb, h4⟩ := h.phase.deliver hsc
    cases ps with
    | nil =>
      simp only [HttpMessage.setterStep, hsc, Option.some.injEq] at e
      subst e
      refine ⟨?_, h.parts, h.parser_reader, h.flushing, by simp, h.completing, h.complete_chunks,
        h.done_complete, by simp [hd], .calling h1 (by simp [SetterPc.reader, hr]) hb h4⟩
      rw [← hc]
      simp [inFlight, hsc, SetterPc.held]
    | cons p ps =>
      simp only [HttpMessage.setterStep, hsc, hr, Reader.onReadOnePart, hres, Option.some.injEq] at e
      subst e
      refine ⟨?_, ?_, h.parser_reader, h.flushing, fun _ _ _ _ => hb, h.completing,
        h.complete_chunks, h.done_complete, by simp [hd],
        .calling h1 (by simp [SetterPc.reader]) hb (by simp [h4])⟩
      · rw [← hc]
        simp [inFlight, hsc, SetterPc.held]
      · intro r₁ d res' hm
        rcases List.mem_append.mp hm with hm | hm
        · exact h.parts r₁ d res' hm
        · simp only [List.mem_singleton, Event.part.injEq] at hm
          exact ⟨hm.1, hm.2.2⟩

/-- The destructor keeps the invariant: it ends an attached first reader
with `ECONNRESET`. -/
theorem Inv.destroy (h : Inv i₀ rest input s) (e : s.destroy = some s') : Inv i₀ rest input s' := by
  unfold HttpMessage.destroy at e
  split_ifs at e with hidle
  simp only [Option.some.injEq] at e
  subst e
  simp only [Bool.and_eq_true] at hidle
  obtain ⟨hpi, hsi⟩ := hidle
  have hsn : s.setter = .next := by cases hs : s.setter <;> simp_all [SetterPc.idle]
  have hnc : s.parser.completing = false := by
    cases hp : s.parser <;> simp_all [ParserPc.idle, ParserPc.completing]
  have hnf : s.parser.flushing = false := by
    cases hp : s.parser <;> simp_all [ParserPc.idle, ParserPc.flushing]
  refine ⟨?_, ?_, h.parser_reader, by simp [hnf], by simp, h.completing, h.complete_chunks,
    h.done_complete, by simp [hsn, hpi], ?_⟩
  · rw [← h.conserve]
    cases s.bodyReader <;> simp [inFlight]
  · intro r d res hm
    rcases List.mem_append.mp hm with hm | hm
    · exact h.parts r d res hm
    · cases hb : s.bodyReader <;> simp [hb] at hm
  · cases h.phase with
    | before h1 h2 h3 h4 => exact .before h1 h2 rfl (by simp [h3, h4])
    | calling _ h2 => rw [hsn] at h2; cases h2
    | attached h1 h2 h3 h4 h5 h6 =>
      have hcf : s.complete = false := by
        cases hx : s.complete
        · rfl
        · have := h6 hx; rw [hnc] at this; cases this
      exact .ended h1 h2 h3 rfl (by simp [h4, h5, hcf]) ⟨s.log, .econnreset, [], by simp [h4], by simp⟩
        (.inr ⟨rfl, hcf⟩)
    | ended h1 h2 h3 h4 h5 h6 h7 =>
      exact .ended h1 h2 h3 rfl (by simpa [h4] using h5) (by simpa [h4] using h6)
        (h7.imp id fun x => ⟨rfl, x.2⟩)

/-- One choice of the schedule keeps the invariant. -/
theorem Inv.step (h : Inv i₀ rest input s) (hp : cfg.readBodyProgressively = true)
    (hi : i₀ ∉ rest) (ch : Choice) (hres : ch.res = none) :
    Inv i₀ rest input ((s.step cfg ch).getD s) := by
  cases hd : s.destroyed
  · cases ch with
    | parser res =>
      cases e : s.parserStep cfg res with
      | none => simpa [HttpMessage.step, hd, e] using h
      | some s' => simpa [HttpMessage.step, hd, e] using h.parserStep hp hd hres e
    | setter res =>
      cases e : s.setterStep cfg res with
      | none => simpa [HttpMessage.step, hd, e] using h
      | some s' => simpa [HttpMessage.step, hd, e] using h.setterStep hp hi hd hres e
    | destroy =>
      cases e : s.destroy with
      | none => simpa [HttpMessage.step, hd, e] using h
      | some s' => simpa [HttpMessage.step, hd, e] using h.destroy e
  · cases ch <;> simpa [HttpMessage.step, hd] using h

/-- Every schedule with no failed read keeps the invariant. -/
theorem Inv.run (hp : cfg.readBodyProgressively = true) (hi : i₀ ∉ rest) :
    ∀ (sched : List Choice) {s : HttpMessage α}, (∀ ch ∈ sched, ch.res = none) →
      Inv i₀ rest input s → Inv i₀ rest input (s.run cfg sched)
  | [], _, _, h => h
  | ch :: sched, _, hok, h =>
    Inv.run hp hi sched (fun c hc => hok c (List.mem_cons_of_mem _ hc))
      (h.step hp hi ch (hok ch (List.mem_cons_self _ _)))

end Steps

/-! ## 4. What the first reader receives -/

/-- A progressive message, with a limit the runs below never reach. -/
def progressive : Settings := ⟨true, 1024⟩

/-- The first reader is set, receives `a`, and `OnMessageComplete` ends it;
then the second reader is passed to `SetBodyReader`. -/
def completeThenSecond : List Choice :=
  [.setter none, .setter none, .parser none, .parser none, .parser none, .parser none,
   .parser none, .parser none, .setter none, .setter none]

/-- For every schedule of the parser thread, the thread calling
`SetBodyReader` with the readers `i₀ :: rest` in turn, and the
destructor, in which every `OnReadOnePart` succeeds: every part goes to the
first reader; what it receives is a prefix of the chunks, in order; it gets
at most one `OnEndOfMessage`, and no part after it; once
`OnMessageComplete` has returned and the setter's calls are done it has
received every chunk and an OK; and a message destroyed before
`OnMessageComplete` ends it with `ECONNRESET`. -/
theorem first_reader_receives_body {cfg : Settings} {i₀ : Nat} {rest : List Nat}
    (hp : cfg.readBodyProgressively = true) (hi : i₀ ∉ rest)
    (chunks : List (List α)) (completes : Bool) (sched : List Choice)
    (hok : ∀ ch ∈ sched, ch.res = none) :
    let s := (init chunks completes (i₀ :: rest)).run cfg sched
    (∀ r d res, Event.part r d res ∈ s.log → r = .user i₀ ∧ res = none) ∧
    handed s.log <+: chunks.flatten ∧
    (eoms (.user i₀) s.log).length ≤ 1 ∧
    (eoms (.user i₀) s.log ≠ [] → ∃ l st l', s.log = l ++ .eom (.user i₀) st :: l' ∧
      ∀ e ∈ l', e.isPart = false) ∧
    (s.parser = .done → s.setter = .next → s.readers = [] →
      handed s.log = chunks.flatten ∧ eoms (.user i₀) s.log = [.ok]) ∧
    (s.destroyed = true → s.complete = false → s.readers = [] →
      eoms (.user i₀) s.log = [.econnreset]) := by
  intro s
  have h : Inv i₀ rest chunks.flatten s := Inv.run hp hi sched hok (inv_init chunks completes)
  refine ⟨h.parts, ⟨_, h.conserve⟩, ?_, ?_, fun hdone hsn hrd => ?_, fun hdes hcf hrd => ?_⟩
  · cases h.phase with
    | before _ _ _ h4 => simp [h4]
    | calling _ _ _ h4 | attached _ _ _ _ h4 => simp [h4]
    | ended _ _ _ _ h5 => simp [h5]
  · intro hne
    cases h.phase with
    | ended _ _ _ _ _ h6 => exact h6
    | before _ _ _ h4 => simp [h4] at hne
    | calling _ _ _ h4 | attached _ _ _ _ h4 => exact absurd h4 hne
  · have hct := h.done_complete hdone
    cases h.phase with
    | ended _ _ _ _ h5 _ h7 =>
      rcases h7 with ⟨_, hbody, _⟩ | ⟨_, h7⟩
      · refine ⟨?_, by simp [h5, hct]⟩
        have hc := h.conserve
        simpa [inFlight, hsn, hbody, hdone, (h.complete_chunks hct).1, SetterPc.held,
          ParserPc.held] using hc
      · rw [hct] at h7; cases h7
    | before h1 => rw [hrd] at h1; cases h1
    | calling _ h2 => rw [hsn] at h2; cases h2
    | attached _ _ _ _ _ h6 => have := h6 hct; rw [hdone] at this; cases this
  · cases h.phase with
    | ended _ _ _ _ h5 => simp [h5, hcf]
    | before h1 => rw [hrd] at h1; cases h1
    | calling _ h2 => rw [(h.destroyed_idle hdes).1] at h2; cases h2
    | attached _ _ _ _ _ _ h7 => rw [hdes] at h7; cases h7

theorem first_reader_receives_body_completeThenSecond :
    let s := (init [['a']] true [1, 2] : HttpMessage Char).run progressive completeThenSecond
    (∀ r d res, Event.part r d res ∈ s.log → r = .user 1 ∧ res = none) ∧
    handed s.log <+: [['a']].flatten ∧
    (eoms (.user 1) s.log).length ≤ 1 ∧
    (eoms (.user 1) s.log ≠ [] → ∃ l st l', s.log = l ++ .eom (.user 1) st :: l' ∧
      ∀ e ∈ l', e.isPart = false) ∧
    (s.parser = .done → s.setter = .next → s.readers = [] →
      handed s.log = [['a']].flatten ∧ eoms (.user 1) s.log = [.ok]) ∧
    (s.destroyed = true → s.complete = false → s.readers = [] →
      eoms (.user 1) s.log = [.econnreset]) :=
  first_reader_receives_body rfl (by decide) [['a']] true completeThenSecond (by decide)

/-! ## 5. A second reader -/

/-- The second `SetBodyReader`, made after `OnMessageComplete` has ended
the first reader, ends its reader with OK instead of `EPERM`. -/
theorem second_reader_after_complete :
    ((init [['a']] true [1, 2] : HttpMessage Char).run progressive completeThenSecond).log =
      [.part (.user 1) ['a'] none, .eom (.user 1) .ok, .eom (.user 2) .ok] := by
  decide

end HttpMessage

end Melon.Rpc
