/-
PackageOrder.Digest — the 64-bit XXH3 digest (seed zero) of a byte string.

Inputs of up to 16 bytes, up to 128, up to 240 and longer ones are mixed in
four different ways; the long way folds stripes of 64 bytes into eight lanes.
All arithmetic wraps at 64 bits.
-/

namespace PackageOrder.Digest

/-- The bytes that keep inputs from cancelling out. -/
def secret : ByteArray := ⟨#[
  0xb8, 0xfe, 0x6c, 0x39, 0x23, 0xa4, 0x4b, 0xbe, 0x7c, 0x01, 0x81, 0x2c, 0xf7, 0x21, 0xad, 0x1c,
  0xde, 0xd4, 0x6d, 0xe9, 0x83, 0x90, 0x97, 0xdb, 0x72, 0x40, 0xa4, 0xa4, 0xb7, 0xb3, 0x67, 0x1f,
  0xcb, 0x79, 0xe6, 0x4e, 0xcc, 0xc0, 0xe5, 0x78, 0x82, 0x5a, 0xd0, 0x7d, 0xcc, 0xff, 0x72, 0x21,
  0xb8, 0x08, 0x46, 0x74, 0xf7, 0x43, 0x24, 0x8e, 0xe0, 0x35, 0x90, 0xe6, 0x81, 0x3a, 0x26, 0x4c,
  0x3c, 0x28, 0x52, 0xbb, 0x91, 0xc3, 0x00, 0xcb, 0x88, 0xd0, 0x65, 0x8b, 0x1b, 0x53, 0x2e, 0xa3,
  0x71, 0x64, 0x48, 0x97, 0xa2, 0x0d, 0xf9, 0x4e, 0x38, 0x19, 0xef, 0x46, 0xa9, 0xde, 0xac, 0xd8,
  0xa8, 0xfa, 0x76, 0x3f, 0xe3, 0x9c, 0x34, 0x3f, 0xf9, 0xdc, 0xbb, 0xc7, 0xc7, 0x0b, 0x4f, 0x1d,
  0x8a, 0x51, 0xe0, 0x4b, 0xcd, 0xb4, 0x59, 0x31, 0xc8, 0x9f, 0x7e, 0xc9, 0xd9, 0x78, 0x73, 0x64,
  0xea, 0xc5, 0xac, 0x83, 0x34, 0xd3, 0xeb, 0xc3, 0xc5, 0x81, 0xa0, 0xff, 0xfa, 0x13, 0x63, 0xeb,
  0x17, 0x0d, 0xdd, 0x51, 0xb7, 0xf0, 0xda, 0x49, 0xd3, 0x16, 0x55, 0x26, 0x29, 0xd4, 0x68, 0x9e,
  0x2b, 0x16, 0xbe, 0x58, 0x7d, 0x47, 0xa1, 0xfc, 0x8f, 0xf8, 0xb8, 0xd1, 0x7a, 0xd0, 0x31, 0xce,
  0x45, 0xcb, 0x3a, 0x8f, 0x95, 0x16, 0x04, 0x28, 0xaf, 0xd7, 0xfb, 0xca, 0xbb, 0x4b, 0x40, 0x7e]⟩

/-! ## Multipliers -/

def prime32A : UInt64 := 0x9E3779B1
def prime32B : UInt64 := 0x85EBCA77
def prime32C : UInt64 := 0xC2B2AE3D
def prime64A : UInt64 := 0x9E3779B185EBCA87
def prime64B : UInt64 := 0xC2B2AE3D27D4EB4F
def prime64C : UInt64 := 0x165667B19E3779F9
def prime64D : UInt64 := 0x85EBCA77C2B2AE63
def prime64E : UInt64 := 0x27D4EB2F165667C5
def primeMixA : UInt64 := 0x165667919E3779F9
def primeMixB : UInt64 := 0x9FB21C651E98DF25

/-! ## Words -/

/-- The byte at an index. -/
def byteAt (data : ByteArray) (i : Nat) : UInt64 :=
  if h : i < data.size then data[i].toUInt64 else 0

/-- The number that `count` bytes from an index on write, the lowest first. -/
def wordAt (data : ByteArray) (count i : Nat) : UInt64 :=
  (List.range count).foldr (fun k acc => (acc <<< 8) ||| byteAt data (i + k)) 0

/-- Eight bytes as a word. -/
def word64 (data : ByteArray) (i : Nat) : UInt64 := wordAt data 8 i

/-- Four bytes as a word. -/
def word32 (data : ByteArray) (i : Nat) : UInt64 := wordAt data 4 i

/-- Turn a word left. -/
def rotateLeft (x : UInt64) (k : UInt64) : UInt64 :=
  (x <<< k) ||| (x >>> (64 - k))

/-- The bytes of a word in opposite order. -/
def swapBytes (x : UInt64) : UInt64 :=
  (List.range 8).foldl (fun acc k => (acc <<< 8) ||| ((x >>> (8 * k).toUInt64) &&& 0xFF)) 0

/-- The two halves of the 128-bit product, combined. -/
def foldProduct (x y : UInt64) : UInt64 :=
  let product := x.toNat * y.toNat
  (product % Nat.pow 2 64).toUInt64 ^^^ (product / Nat.pow 2 64).toUInt64

/-! ## Mixing -/

/-- The last mixing of the shortest inputs. -/
def avalancheShort (h : UInt64) : UInt64 :=
  let h := (h ^^^ (h >>> 33)) * prime64B
  let h := (h ^^^ (h >>> 29)) * prime64C
  h ^^^ (h >>> 32)

/-- The last mixing of all others. -/
def avalanche (h : UInt64) : UInt64 :=
  let h := (h ^^^ (h >>> 37)) * primeMixA
  h ^^^ (h >>> 32)

/-- Sixteen bytes of input against sixteen bytes of the secret. -/
def mix16 (data : ByteArray) (i s : Nat) : UInt64 :=
  foldProduct (word64 data i ^^^ word64 secret s) (word64 data (i + 8) ^^^ word64 secret (s + 8))

/-! ## By length -/

/-- One to three bytes. -/
def digest3 (data : ByteArray) (len : Nat) : UInt64 :=
  let combined := (byteAt data 0 <<< 16) ||| (byteAt data (len / 2) <<< 24)
    ||| byteAt data (len - 1) ||| (len.toUInt64 <<< 8)
  avalancheShort (combined ^^^ (word32 secret 0 ^^^ word32 secret 4))

/-- Four to eight bytes. -/
def digest8 (data : ByteArray) (len : Nat) : UInt64 :=
  let input := word32 data (len - 4) + (word32 data 0 <<< 32)
  let h := input ^^^ (word64 secret 8 ^^^ word64 secret 16)
  let h := (h ^^^ rotateLeft h 49 ^^^ rotateLeft h 24) * primeMixB
  let h := (h ^^^ ((h >>> 35) + len.toUInt64)) * primeMixB
  h ^^^ (h >>> 28)

/-- Nine to sixteen bytes. -/
def digest16 (data : ByteArray) (len : Nat) : UInt64 :=
  let low := word64 data 0 ^^^ (word64 secret 24 ^^^ word64 secret 32)
  let high := word64 data (len - 8) ^^^ (word64 secret 40 ^^^ word64 secret 48)
  avalanche (len.toUInt64 + swapBytes low + high + foldProduct low high)

/-- 17 to 128 bytes: pairs of sixteen bytes from both ends. -/
def digest128 (data : ByteArray) (len : Nat) : UInt64 :=
  let pairs := (len - 1) / 32 + 1
  avalanche <| (List.range pairs).foldl (fun acc k =>
    acc + mix16 data (16 * k) (32 * k) + mix16 data (len - 16 * (k + 1)) (32 * k + 16))
    (len.toUInt64 * prime64A)

/-- 129 to 240 bytes: sixteen at a time. -/
def digest240 (data : ByteArray) (len : Nat) : UInt64 :=
  let first := (List.range 8).foldl (fun acc k => acc + mix16 data (16 * k) (16 * k))
    (len.toUInt64 * prime64A)
  let rest := (List.range (len / 16 - 8)).foldl
    (fun acc k => acc + mix16 data (16 * (k + 8)) (16 * k + 3)) (avalanche first)
  avalanche (rest + mix16 data (len - 16) 119)

/-- The eight lanes of the long way. -/
abbrev Lanes := List UInt64

/-- The lanes before any input. -/
def firstLanes : Lanes :=
  [prime32C, prime64A, prime64B, prime64C, prime64D, prime32B, prime64E, prime32A]

/-- Fold a stripe of 64 bytes into the lanes. Each word also goes into the
neighbour of its lane. -/
def addStripe (data : ByteArray) (i s : Nat) (lanes : Lanes) : Lanes :=
  lanes.mapIdx fun k (lane : UInt64) =>
    let key : UInt64 := word64 data (i + 8 * k) ^^^ word64 secret (s + 8 * k)
    let beside := if k % 2 = 0 then k + 1 else k - 1
    lane + word64 data (i + 8 * beside) + (key &&& (0xFFFFFFFF : UInt64)) * (key >>> 32)

/-- Stir the lanes at the end of a block. -/
def scramble (lanes : Lanes) : Lanes :=
  lanes.mapIdx fun k (lane : UInt64) =>
    ((lane ^^^ (lane >>> 47)) ^^^ word64 secret (128 + 8 * k)) * prime32A

/-- `count` stripes from an index on. -/
def addStripes (data : ByteArray) (i count : Nat) (lanes : Lanes) : Lanes :=
  (List.range count).foldl (fun lanes n => addStripe data (i + 64 * n) (8 * n) lanes) lanes

/-- The lanes in pairs against the secret. -/
def mergeLanes (start : UInt64) (lanes : Lanes) : UInt64 :=
  let lane (k : Nat) : UInt64 := lanes.getD k 0
  avalanche <| (List.range 4).foldl (fun acc k =>
    acc + foldProduct (lane (2 * k) ^^^ word64 secret (11 + 16 * k))
      (lane (2 * k + 1) ^^^ word64 secret (11 + 16 * k + 8))) start

/-- More than 240 bytes: blocks of sixteen stripes, then the last stripes. -/
def digestLong (data : ByteArray) (len : Nat) : UInt64 :=
  let blocks := (len - 1) / 1024
  let lanes := (List.range blocks).foldl
    (fun lanes b => scramble (addStripes data (1024 * b) 16 lanes)) firstLanes
  let lanes := addStripes data (1024 * blocks) ((len - 1 - 1024 * blocks) / 64) lanes
  let lanes := addStripe data (len - 64) 121 lanes
  mergeLanes (len.toUInt64 * prime64A) lanes

/-- The digest of a byte string. -/
def digest (data : ByteArray) : UInt64 :=
  let len := data.size
  if len = 0 then avalancheShort (word64 secret 56 ^^^ word64 secret 64)
  else if len ≤ 3 then digest3 data len
  else if len ≤ 8 then digest8 data len
  else if len ≤ 16 then digest16 data len
  else if len ≤ 128 then digest128 data len
  else if len ≤ 240 then digest240 data len
  else digestLong data len

/-- A word as sixteen hexadecimal digits. -/
def hexText (x : UInt64) : String :=
  let digits := Nat.toDigits 16 x.toNat
  .ofList (List.replicate (16 - digits.length) '0' ++ digits)

/-- The digest of a byte string as text. -/
def ofBytes (data : ByteArray) : String :=
  hexText (digest data)

end PackageOrder.Digest
