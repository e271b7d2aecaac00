/-
Melon.Rpc.HttpHeader — the header fields of an `HttpMessage` and the two
`http_parser` callbacks that fill them (`src/melon/rpc/http/http_message.cc`,
`on_header_field` and `on_header_value`).

* `HeaderStore` — `HttpHeader`'s fields, in the order they were added.
  `HttpHeader` is not among the sources: `GetOrAddHeader(key)` is taken
  to find the field whose name `eqKey` matches `key`, or to add an empty
  one at the end; `eqKey` is how its map compares names.
* `ParserStage` — `_stage` as the callbacks read it:
  `HTTP_ON_HEADER_FIELD`, `HTTP_ON_HEADER_VALUE`, or another stage.
* `HeaderParser` — `_stage`, `_cur_header`, `_cur_value` (the index of
  the field it points to, `none` while null) and the header.
* `onHeaderField`, `onHeaderValue` — the callbacks, with the code they
  return.
* `HeaderEvent`, `HeaderParser.run` — the calls `http_parser` makes, in
  order; it stops at the first that does not return 0.

The verbose log (`FLAGS_http_verbose`) only logs, and is left out.
-/
import Mathlib.Data.List.Basic

namespace Melon.Rpc

/-- `HttpHeader`'s fields, name and value, in the order they were added. -/
structure HeaderStore where
  fields : List (List Char × List Char)
  deriving DecidableEq, Repr

namespace HeaderStore

variable (eqKey : List Char → List Char → Bool) (h : HeaderStore)

/-- The index of the field named `key`. -/
def find (key : List Char) : Option Nat := h.fields.findIdx? fun f => eqKey f.1 key

/-- `GetOrAddHeader(key)`: the header, and the index of the field the
returned reference is to. -/
def getOrAdd (key : List Char) : HeaderStore × Nat :=
  match h.find eqKey key with
  | some i => (h, i)
  | none => (⟨h.fields ++ [(key, [])]⟩, h.fields.length)

/-- Field `i`'s value changed by `f`, through a reference to it. -/
def modifyValue (i : Nat) (f : List Char → List Char) : HeaderStore :=
  ⟨h.fields.modify (fun p => (p.1, f p.2)) i⟩

end HeaderStore

/-- `_stage`, as the header callbacks read it. -/
inductive ParserStage
  | onHeaderField
  | onHeaderValue
  /-- Any stage other than the two above. -/
  | other
  deriving DecidableEq, Repr

/-- What the header callbacks read and write of an `HttpMessage`. -/
structure HeaderParser where
  stage : ParserStage
  /-- `_cur_header`. -/
  curHeader : List Char
  /-- `_cur_value`: the index of the field it points to. -/
  curValue : Option Nat
  header : HeaderStore
  deriving DecidableEq, Repr

namespace HeaderParser

variable (eqKey : List Char → List Char → Bool)

/-- `on_header_field(parser, at, length)` with the `length` bytes at
`at`. -/
def onHeaderField (m : HeaderParser) (chunk : List Char) : Int × HeaderParser :=
  let m := if m.stage ≠ .onHeaderField then { m with stage := .onHeaderField, curHeader := [] } else m
  (0, { m with curHeader := m.curHeader ++ chunk })

/-- `on_header_value(parser, at, length)`: on the first call for a field,
`_cur_value = &GetOrAddHeader(_cur_header)`, and `,` after what that
field held; then the bytes appended to `*_cur_value`. -/
def onHeaderValue (m : HeaderParser) (chunk : List Char) : Int × HeaderParser :=
  if m.stage ≠ .onHeaderValue ∧ m.curHeader.isEmpty then
    -- "Header name is empty"
    (-1, { m with stage := .onHeaderValue })
  else
    let m := if m.stage ≠ .onHeaderValue then
        let r := m.header.getOrAdd eqKey m.curHeader
        { m with
          stage := .onHeaderValue
          curValue := some r.2
          header := r.1.modifyValue r.2 fun v => if v.isEmpty then v else v ++ [','] }
      else m
    match m.curValue with
    | some i => (0, { m with header := m.header.modifyValue i (· ++ chunk) })
    | none => (0, m)

end HeaderParser

/-- A call `http_parser` makes with bytes of a header. -/
inductive HeaderEvent
  | field (chunk : List Char)
  | value (chunk : List Char)
  deriving DecidableEq, Repr

namespace HeaderParser

variable (eqKey : List Char → List Char → Bool)

/-- One call. -/
def step (m : HeaderParser) : HeaderEvent → Int × HeaderParser
  | .field chunk => m.onHeaderField chunk
  | .value chunk => m.onHeaderValue eqKey chunk

/-- Calls in order, until one returns other than 0: `none` then, as
`http_parser` stops with an error. -/
def run : HeaderParser → List HeaderEvent → Option HeaderParser
  | m, [] => some m
  | m, e :: es => if (m.step eqKey e).1 = 0 then (m.step eqKey e).2.run es else none

end HeaderParser

end Melon.Rpc
