/-
Melon.Builtin.FlagsService — the model of the `/flags` page
(`src/unnamed/part_007`): `HtmlReplace`, `PrintFlag`,
`FlagsService::set_value_page` and `FlagsService::default_method`.

* `FlagInfo` — the fields of `google::CommandLineFlagInfo` the page reads.
* `htmlReplace` — the `find_first_of("<>&")` loop of `HtmlReplace`.
* `printFlag` — one row of the table, as HTML or as text.
* `FlagsRequest`, `FlagsResponse` — what `default_method` reads of the
  request and writes into the controller.
* `setValuePage`, `defaultMethod` — the two handlers.

A C++ string is the `List Char` of its characters; `c_str()` stops at
the first NUL (`cStr`). gflags is not among the sources: the registry is
the list `GetAllFlags` returns, `GetCommandLineFlagInfo` finds the flag
of that name in it, and `SetCommandLineOption` is a parameter, as are
`gridtable_style()`, `TabsHead()`, what `PrintTabsBody` writes,
`StringMultiSplitter` over `",;"` and `MatchAnyWildcard` (`FlagsEnv`).
`std::set<std::string>` is a sorted list without duplicates.
-/
import Mathlib.Data.List.Sort
import Mathlib.Data.List.Lex
import Mathlib.Data.Char

namespace Melon.Builtin

/-- The fields of `google::CommandLineFlagInfo` that the page reads. -/
structure FlagInfo where
  name : List Char
  type : List Char
  description : List Char
  currentValue : List Char
  defaultValue : List Char
  filename : List Char
  hasValidatorFn : Bool
  isDefault : Bool
  deriving DecidableEq, Repr

/-- The error codes `SetFailed` is given. -/
inductive Errno
  | ENOMETHOD
  | EPERM
  deriving DecidableEq, Repr

/-- `c_str()` of a `std::string`: a C string ends at its first NUL. -/
def cStr (s : List Char) : List Char := s.takeWhile (· != '\x00')

/-! ## 1. `HtmlReplace` -/

/-- The characters of `find_first_of("<>&")`. -/
def isSpecial (c : Char) : Bool := c == '<' || c == '>' || c == '&'

/-- The `switch (s[new_pos])` of `HtmlReplace`. -/
def replacement : Char → List Char
  | '<' => "&lt;".toList
  | '>' => "&gt;".toList
  | '&' => "&amp;".toList
  | c => [c]

/-- The loop of `HtmlReplace(s)`, with `b` built so far and `rest` the
characters of `s` from `last_pos` on: `find_first_of` cuts `rest` before
its first special character. -/
def htmlReplaceLoop (s b rest : List Char) : List Char :=
  match _hd : rest.dropWhile (fun c => !isSpecial c) with
  | [] => if b.isEmpty then s else b ++ rest
  | c :: rest' => htmlReplaceLoop s (b ++ rest.takeWhile (fun c => !isSpecial c) ++ replacement c) rest'
termination_by rest.length
decreasing_by
  have := (List.dropWhile_suffix (l := rest) (fun c => !isSpecial c)).length_le
  rw [_hd, List.length_cons] at this
  omega

/-- `HtmlReplace(s)`. -/
def htmlReplace (s : List Char) : List Char := htmlReplaceLoop s [] s

/-! ## 2. `PrintFlag` -/

/-- `PrintFlag(os, flag, use_html)`: what it writes to `os`. -/
def printFlag (flag : FlagInfo) (useHtml : Bool) : List Char :=
  (if useHtml then "<tr><td>".toList else []) ++ flag.name ++
  (if flag.hasValidatorFn then
    if useHtml then " (<a href='/flags/".toList ++ flag.name ++ "?setvalue&withform'>R</a>)".toList
    else " (R)".toList
  else []) ++
  (if useHtml then "</td><td>".toList else " | ".toList) ++
  (if !flag.isDefault && useHtml then "<span style='color:#FF0000'>".toList else []) ++
  (if !flag.currentValue.isEmpty then (if useHtml then htmlReplace flag.currentValue else flag.currentValue)
  else if useHtml then "&nbsp;".toList else " ".toList) ++
  (if !flag.isDefault then
    (if flag.defaultValue != flag.currentValue then
      " (default:".toList ++ (if useHtml then htmlReplace flag.defaultValue else flag.defaultValue) ++ [')']
    else []) ++
    (if useHtml then "</span>".toList else [])
  else []) ++
  (if useHtml then "</td><td>".toList else " | ".toList) ++ flag.description ++
  (if useHtml then "</td><td>".toList else " | ".toList) ++ flag.filename ++
  (if useHtml then "</td></tr>".toList else [])

/-! ## 3. The handlers -/

/-- What `default_method` reads of the HTTP request. -/
structure FlagsRequest where
  /-- `uri().GetQuery(SETVALUE_STR)`. -/
  setvalue : Option (List Char)
  /-- `uri().GetQuery("withform") != NULL`. -/
  withform : Bool
  /-- `unresolved_path()`. -/
  unresolvedPath : List Char
  /-- `UseHTML(http_request())`. -/
  useHtml : Bool
  deriving DecidableEq, Repr

/-- What the page calls that is not among the sources. -/
structure FlagsEnv where
  /-- `FLAGS_immutable_flags`. -/
  immutableFlags : Bool
  /-- `SetCommandLineOption(name, value)`: empty when it fails. -/
  setCommandLineOption : List Char → List Char → List Char
  gridtableStyle : List Char
  tabsHead : List Char
  /-- What `server()->PrintTabsBody(os, "flags")` writes. -/
  tabsBody : List Char
  /-- The fields of `StringMultiSplitter(constraint, ",;")`. -/
  split : List Char → List (List Char)
  matchAnyWildcard : List Char → List (List Char) → Bool

/-- The response: `SetFailed(code, text)`, or the attachment. -/
inductive FlagsBody
  | failed (code : Errno) (text : List Char)
  | attachment (text : List Char)
  deriving DecidableEq, Repr

/-- What `default_method` writes into the controller. -/
structure FlagsResponse where
  contentType : List Char
  body : FlagsBody
  /-- `set_response_compress_type(COMPRESS_TYPE_GZIP)` was called. -/
  gzip : Bool
  deriving DecidableEq, Repr

/-- `GetCommandLineFlagInfo(name, &info)`. -/
def getCommandLineFlagInfo (flags : List FlagInfo) (name : List Char) : Option FlagInfo :=
  flags.find? (·.name == name)

/-- `FlagsService::set_value_page` for the flag named `name`. -/
def setValuePage (flags : List FlagInfo) (name : List Char) : FlagsBody :=
  match getCommandLineFlagInfo flags (cStr name) with
  | none => .failed .ENOMETHOD "No such gflag".toList
  | some info =>
    let isString := info.type == "string".toList
    .attachment ("<!DOCTYPE html><html><body><form action='' method='get'> Set `".toList ++ name ++
      "' from ".toList ++ (if isString then ['"'] else []) ++ info.currentValue ++
      (if isString then ['"'] else []) ++
      " to <input name='setvalue' value=''>  <button>go</button></form></body></html>".toList)

/-- `name.find_first_of("$*") != npos`. -/
def isWildcard (name : List Char) : Bool := name.any fun c => c == '$' || c == '*'

/-- `exact.insert(name)` on a `std::set<std::string>`. -/
def setInsert (exact : List (List Char)) (name : List Char) : List (List Char) :=
  if name ∈ exact then exact else exact.orderedInsert (· ≤ ·) name

/-- The header of the table. -/
def tableHead (env : FlagsEnv) (useHtml : Bool) : List Char :=
  if useHtml then
    "<!DOCTYPE html><html><head>\n".toList ++ env.gridtableStyle ++
      "<script language=\"javascript\" type=\"text/javascript\" src=\"/js/jquery_min\"></script>\n".toList ++
      env.tabsHead ++ "</head><body>".toList ++ env.tabsBody ++
      ("<table class=\"gridtable\" border=\"1\"><tr><th>Name</th><th>Value</th>" ++
        "<th>Description</th><th>Defined At</th></tr>\n").toList
  else ("Name | Value | Description | Defined At\n" ++
    "---------------------------------------\n").toList

/-- The rows: the flags named exactly when no wildcard is given,
otherwise every flag that passes the filter. -/
def tableRows (env : FlagsEnv) (flags : List FlagInfo) (constraint : List Char) (useHtml : Bool) :
    List Char :=
  let fields := if constraint.isEmpty then [] else env.split constraint
  let wildcards := fields.filter isWildcard
  let exact := (fields.filter fun n => !isWildcard n).foldl setInsert []
  if !constraint.isEmpty && wildcards.isEmpty then
    exact.flatMap fun n =>
      match getCommandLineFlagInfo flags (cStr n) with
      | some info => printFlag info useHtml ++ ['\n']
      | none => []
  else
    flags.flatMap fun f =>
      if !constraint.isEmpty && !exact.contains f.name && !env.matchAnyWildcard f.name wildcards then []
      else printFlag f useHtml ++ ['\n']

/-- The `?setvalue=VALUE` branch of `default_method`. -/
def setValue (env : FlagsEnv) (flags : List FlagInfo) (req : FlagsRequest) (valueStr : List Char) :
    FlagsBody :=
  let constraint := req.unresolvedPath
  if constraint.isEmpty then .failed .ENOMETHOD "Require gflag name".toList
  else if req.useHtml && req.withform then setValuePage flags constraint
  else match getCommandLineFlagInfo flags (cStr constraint) with
    | none => .failed .ENOMETHOD "No such gflag".toList
    | some info =>
      if !info.hasValidatorFn then .failed .EPERM "A reloadable gflag must have validator".toList
      else if env.immutableFlags then
        .failed .EPERM ("Cannot modify `".toList ++ cStr constraint ++ "' because -immutable_flags is on".toList)
      else if (env.setCommandLineOption (cStr constraint) (cStr valueStr)).isEmpty then
        .failed .EPERM ("Fail to set `".toList ++ cStr constraint ++ "' to ".toList ++
          (if valueStr.isEmpty then "empty string".toList else cStr valueStr))
      else .attachment ("Set `".toList ++ constraint ++ "' to ".toList ++ valueStr ++
        (if req.useHtml then "<br><a href='/flags'>[back to flags]</a>".toList else []))

/-- `FlagsService::default_method`. -/
def defaultMethod (env : FlagsEnv) (flags : List FlagInfo) (req : FlagsRequest) : FlagsResponse :=
  let contentType := if req.useHtml then "text/html".toList else "text/plain".toList
  match req.setvalue with
  | some valueStr => ⟨contentType, setValue env flags req valueStr, false⟩
  | none =>
    ⟨contentType, .attachment (tableHead env req.useHtml ++ tableRows env flags req.unresolvedPath req.useHtml ++
      (if req.useHtml then "</table></body></html>\n".toList else [])), true⟩

end Melon.Builtin
