/-
Melon.Base.Libc — the C library calls that the `end_point` text functions
of `src/unnamed/part_004` make, as glibc defines them.

* `isspace` — the C locale's six white-space characters.
* `strtol` — base 10: leading white space, a sign, digits; the value is
  clamped to `long`, and `end` is left at the start when no digit is read.
* `inetPton4` — glibc's `inet_pton4`: four decimal octets, none above 255
  and none with a leading zero, separated by single dots.
* `inetNtop4`, `decimalInt` — `"%u.%u.%u.%u"` of the four bytes of an
  `in_addr`, and `"%d"` of an `int`.

A C string is the `List Char` of its characters before the terminating
NUL. An `in_addr` is its `s_addr`; its bytes in memory order are those of
a little-endian host. `toCInt` is gcc's conversion of a `long` to an
`int`: the low 32 bits.
-/
import Mathlib.Data.List.Basic
import Mathlib.Algebra.Group.Int

namespace Melon.Base

/-- `isspace` in the C locale. -/
def isspace (c : Char) : Bool :=
  c == ' ' || c == '\t' || c == '\n' || c == '\x0b' || c == '\x0c' || c == '\r'

/-- The value of a string of decimal digits. -/
def digitsValue (ds : List Char) : Nat :=
  ds.foldl (fun v c => 10 * v + (c.toNat - '0'.toNat)) 0

/-- `LONG_MIN` and `LONG_MAX` of a 64-bit `long`. -/
def LONG_MIN : Int := -2 ^ 63
def LONG_MAX : Int := 2 ^ 63 - 1

/-- `strtol(s, &end, 10)`: the value, and how many characters `end` is
past `s`. -/
def strtol (s : List Char) : Int × Nat :=
  let ws := (s.takeWhile isspace).length
  let r := s.drop ws
  let sgn := if r.head? = some '-' ∨ r.head? = some '+' then 1 else 0
  let ds := (r.drop sgn).takeWhile Char.isDigit
  let v : Int := if r.head? = some '-' then -(digitsValue ds : Int) else digitsValue ds
  if ds = [] then (0, 0) else (max LONG_MIN (min LONG_MAX v), ws + sgn + ds.length)

/-- A `long` stored into an `int`. -/
def toCInt (v : Int) : Int := (v + 2 ^ 31) % 2 ^ 32 - 2 ^ 31

/-- The loop of glibc's `inet_pton4`, with `saw_digit`, `octets`, the
octet `*tp` being read, and the octets before it, last first. -/
def inetPton4Loop : List Char → Bool → Nat → Nat → List Nat → Option (List Nat)
  | [], _, octets, tp, prev => if octets < 4 then none else some (prev.reverse ++ [tp])
  | ch :: src, sawDigit, octets, tp, prev =>
    if ch.isDigit then
      let new := tp * 10 + (ch.toNat - '0'.toNat)
      if sawDigit && tp == 0 then none
      else if new > 255 then none
      else if !sawDigit then
        if octets + 1 > 4 then none else inetPton4Loop src true (octets + 1) new prev
      else inetPton4Loop src true octets new prev
    else if ch == '.' && sawDigit then
      if octets == 4 then none else inetPton4Loop src false octets 0 (tp :: prev)
    else none

/-- The `s_addr` whose bytes in memory are `b`. -/
def ofOctets (b : List Nat) : UInt32 :=
  UInt32.ofNat (b.foldr (fun o v => o + 256 * v) 0)

/-- The four bytes of an `s_addr`, in memory order. -/
def octets (ip : UInt32) : List Nat :=
  [ip.toNat % 256, ip.toNat / 256 % 256, ip.toNat / 65536 % 256, ip.toNat / 16777216]

/-- `inet_pton(AF_INET, src, &ip) == 1`, with what it writes. -/
def inetPton4 (src : List Char) : Option UInt32 :=
  (inetPton4Loop src false 0 0 []).map ofOctets

/-- `"%d"` of an `int`. -/
def decimalInt (v : Int) : List Char :=
  if v < 0 then '-' :: Nat.toDigits 10 v.natAbs else Nat.toDigits 10 v.toNat

/-- `inet_ntop(AF_INET, &ip, ...)`: `"%u.%u.%u.%u"` of the bytes. -/
def inetNtop4 (ip : UInt32) : List Char :=
  match octets ip with
  | [a, b, c, d] => Nat.toDigits 10 a ++ '.' :: Nat.toDigits 10 b ++ '.' :: Nat.toDigits 10 c ++
      '.' :: Nat.toDigits 10 d
  | _ => []

end Melon.Base
