/-
Melon.Rpc.HttpSerialize — the model of `MakeRawHttpRequest` and
`MakeRawHttpResponse` (`src/melon/rpc/http/http_message.cc`), which write
an `HttpHeader` and a content as an HTTP/1.x message.

* `HttpHeader` — what the two functions read of an `HttpHeader`: its
  fields (`HeaderStore`), `content_type()`, the method, the status, the
  version and the URI.
* `RawHttp` — the message as the lines the code writes: the start line,
  the `name: value` lines in order, and the body; `RawHttp.render` is its
  bytes, lines ended by CRLF.
* `HeaderStore.getHeader`, `HeaderStore.removeHeader` — `GetHeader` and
  `RemoveHeader` on the map, whose names `eqKey` compares.
* `makeRawHttpRequest`, `makeRawHttpResponse` — the message, and the
  header as the function leaves it.

`HttpHeader`, `URI`, `HttpMethod2Str`, `turbo::base64_encode` and the
printing of a `mutil::EndPoint` are not among the sources: they come in
`HttpEnv`, with `eqKey`. The map's iteration order is the order of
`HeaderStore.fields`. A null `content` is `none`.
-/
import Melon.Rpc.HttpHeader
import Melon.Base.Libc

namespace Melon.Rpc

open Melon.Base (decimalInt)

/-- `HttpMethod`: the methods the serializers compare with, and the
others. -/
inductive HttpMethod
  | GET
  | HEAD
  | POST
  | PUT
  | DELETE
  /-- Any other method. -/
  | other (n : Nat)
  deriving DecidableEq, Repr

/-- What the serializers read of a `URI`. -/
structure Uri where
  host : List Char
  port : Int
  userInfo : List Char
  deriving DecidableEq, Repr

/-- What the serializers read of an `HttpHeader`. -/
structure HttpHeader where
  fields : HeaderStore
  contentType : List Char
  method : HttpMethod
  statusCode : Int
  reasonPhrase : List Char
  majorVersion : Int
  minorVersion : Int
  uri : Uri
  deriving DecidableEq, Repr

/-- What the serializers call that is not among the sources. -/
structure HttpEnv where
  /-- How the header map compares names. -/
  eqKey : List Char → List Char → Bool
  /-- `HttpMethod2Str`. -/
  methodStr : HttpMethod → List Char
  /-- `URI::PrintWithoutHost`. -/
  printWithoutHost : Uri → List Char
  /-- `turbo::base64_encode`. -/
  base64 : List Char → List Char

/-- Modelled from the spec: `HTTP_STATUS_OK` and `HTTP_STATUS_NO_CONTENT`
of `http_status_code.h`, which is not among the sources, are 200 and
204. -/
def HTTP_STATUS_OK : Int := 200
def HTTP_STATUS_NO_CONTENT : Int := 204

/-- A message as its lines and its body. -/
structure RawHttp where
  startLine : List Char
  /-- The `name: value` lines, in order. -/
  lines : List (List Char × List Char)
  body : List Char
  deriving DecidableEq, Repr

/-- `MELON_CRLF`. -/
def CRLF : List Char := ['\r', '\n']

/-- The bytes of a message. -/
def RawHttp.render (m : RawHttp) : List Char :=
  m.startLine ++ CRLF ++ m.lines.flatMap (fun l => l.1 ++ ':' :: ' ' :: l.2 ++ CRLF) ++ CRLF ++ m.body

namespace HeaderStore

variable (eqKey : List Char → List Char → Bool) (h : HeaderStore)

/-- `GetHeader(key)`. -/
def getHeader (key : List Char) : Option (List Char) := (h.find eqKey key).map fun i => (h.fields.getD i ([], [])).2

/-- `RemoveHeader(key)`. -/
def removeHeader (key : List Char) : HeaderStore :=
  match h.find eqKey key with
  | some i => ⟨h.fields.eraseIdx i⟩
  | none => h

end HeaderStore

/-- `"%d"` of a length. -/
def decimalNat (n : Nat) : List Char := Nat.toDigits 10 n

variable (env : HttpEnv)

/-- `MakeRawHttpRequest(request, h, remote_side, content)`, with
`remote_side` printed as `remote` and its port `remotePort`. -/
def makeRawHttpRequest (h : HttpHeader) (remote : List Char) (remotePort : Nat)
    (content : Option (List Char)) : RawHttp × HttpHeader :=
  let start := env.methodStr h.method ++ ' ' :: env.printWithoutHost h.uri ++ " HTTP/".toList ++
    decimalInt h.majorVersion ++ '.' :: decimalInt h.minorVersion
  -- Never use "Content-Length" set by user.
  let fs := h.fields.removeHeader env.eqKey "Content-Length".toList
  let contentLength := if h.method ≠ .GET then
      [("Content-Length".toList, decimalNat ((content.map List.length).getD 0))] else []
  -- `Expect: 100-continue' is not supported, remove it.
  let fs := if fs.getHeader env.eqKey "Expect".toList = some "100-continue".toList then
      fs.removeHeader env.eqKey "Expect".toList else fs
  let host := if fs.getHeader env.eqKey "host".toList = none then
      [("Host".toList,
        if !h.uri.host.isEmpty then
          h.uri.host ++ (if h.uri.port ≥ 0 then ':' :: decimalInt h.uri.port else [])
        else if remotePort ≠ 0 then remote else [])]
    else []
  let contentType := if !h.contentType.isEmpty then [("Content-Type".toList, h.contentType)] else []
  let accept := if fs.getHeader env.eqKey "Accept".toList = none then [("Accept".toList, "*/*".toList)] else []
  let userAgent := if fs.getHeader env.eqKey "User-Agent".toList = none then
      [("User-Agent".toList, "melon/1.0 curl/7.0".toList)] else []
  let authorization := if !h.uri.userInfo.isEmpty && fs.getHeader env.eqKey "Authorization".toList = none then
      [("Authorization".toList, "Basic ".toList ++ env.base64 h.uri.userInfo)] else []
  let body := if h.method ≠ .GET then content.getD [] else []
  (⟨start, contentLength ++ host ++ contentType ++ fs.fields ++ accept ++ userAgent ++ authorization, body⟩,
    { h with fields := fs })

/-- `MakeRawHttpResponse(response, h, content)`. -/
def makeRawHttpResponse (h : HttpHeader) (content : Option (List Char)) : RawHttp × HttpHeader :=
  let start := "HTTP/".toList ++ decimalInt h.majorVersion ++ '.' :: decimalInt h.minorVersion ++
    ' ' :: decimalInt h.statusCode ++ ' ' :: h.reasonPhrase
  let isInvalidContent := h.statusCode < HTTP_STATUS_OK ∨ h.statusCode = HTTP_STATUS_NO_CONTENT
  let isHeadReq := h.method = .HEAD
  let r : HeaderStore × List (List Char × List Char) :=
    if isInvalidContent then
      ((h.fields.removeHeader env.eqKey "Transfer-Encoding".toList).removeHeader env.eqKey
        "Content-Length".toList, [])
    else match content with
      | some c =>
        if isHeadReq then
          -- Prioritize "Content-Length" set by user.
          (h.fields, if h.fields.getHeader env.eqKey "Content-Length".toList = none then
            [("Content-Length".toList, decimalNat c.length)] else [])
        else
          ((if h.fields.getHeader env.eqKey "Content-Length".toList ≠ none then
              h.fields.removeHeader env.eqKey "Content-Length".toList else h.fields),
            [("Content-Length".toList, decimalNat c.length)])
      | none => (h.fields, [])
  let contentType := if !h.contentType.isEmpty then [("Content-Type".toList, h.contentType)] else []
  let body := if !isInvalidContent ∧ !isHeadReq then content.getD [] else []
  (⟨start, r.2 ++ contentType ++ r.1.fields, body⟩, { h with fields := r.1 })

end Melon.Rpc
