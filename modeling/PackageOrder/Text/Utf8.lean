/-
PackageOrder.Text.Utf8 — code points as bytes, and the sequences of byte intervals
that the code points of an interval are written in.

`byteSequences` cuts an interval where the length of code points changes, around
the surrogates, and then so that each piece has every combination of its bytes.
-/
import PackageOrder.Text.Interval

namespace PackageOrder.Text

/-- The bytes of a code point. -/
def codeBytes (code : Nat) : List Nat :=
  if code < 0x80 then [code]
  else if code < 0x800 then [0xC0 + code / 64, 0x80 + code % 64]
  else if code < 0x10000 then
    [0xE0 + code / 4096, 0x80 + code / 64 % 64, 0x80 + code % 64]
  else
    [0xF0 + code / 262144, 0x80 + code / 4096 % 64, 0x80 + code / 64 % 64, 0x80 + code % 64]

theorem length_codeBytes_pos (code : Nat) : 0 < (codeBytes code).length := by
  unfold codeBytes
  repeat' split
  all_goals simp

/-- An interval of bytes for each byte of a code point. -/
abbrev ByteSequence := List (Nat × Nat)

/-- An interval cut at the multiples of each size, smaller sizes first, unless it
lies between two of them. -/
def alignedPieces : List Nat → Nat → Nat → Intervals
  | [], first, last => [(first, last)]
  | size :: sizes, first, last =>
    if first / size = last / size then [(first, last)]
    else
      let start := (first + size - 1) / size * size
      let stop := (last + 1) / size * size
      let head := if first < start then [(first, start - 1)] else []
      let tail := if stop ≤ last then [(stop, last)] else []
      if start / size = last / size then head ++ [(start, last)]
      else head ++ alignedPieces sizes start (stop - 1) ++ tail

/-- The code points that are written in the same number of bytes, with the sizes at
which their last bytes start anew. -/
def lengthClasses : List (Nat × Nat × List Nat) :=
  [(0, 0x7F, []), (0x80, 0x7FF, [64]), (0x800, 0xD7FF, [64, 4096]), (0xE000, 0xFFFF, [64, 4096]),
   (0x10000, lastCode, [64, 4096, 262144])]

/-- The byte sequences of an interval of code points, surrogates left out. -/
def byteSequences (first last : Nat) : List ByteSequence :=
  lengthClasses.flatMap fun (least, most, sizes) =>
    let first := max first least
    let last := min last most
    if first ≤ last then
      (alignedPieces sizes first last).map fun (a, b) => (codeBytes a).zip (codeBytes b)
    else []

end PackageOrder.Text
