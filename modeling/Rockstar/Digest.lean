/-!
# A 64-bit digest

The `xxh64` digest of a byte string under a seed. Compiled code names the routines it calls by the
digest of their names, see `Rockstar.Routine`.
-/

namespace Rockstar.Digest

/-- The multipliers of the digest. -/
def prime1 : UInt64 := 0x9E3779B185EBCA87
@[inherit_doc prime1] def prime2 : UInt64 := 0xC2B2AE3D27D4EB4F
@[inherit_doc prime1] def prime3 : UInt64 := 0x165667B19E3779F9
@[inherit_doc prime1] def prime4 : UInt64 := 0x85EBCA77C2B2AE63
@[inherit_doc prime1] def prime5 : UInt64 := 0x27D4EB2F165667C5

/-- The word with its bits turned left by `k` places. -/
def rotateLeft (x k : UInt64) : UInt64 := (x <<< k) ||| (x >>> (64 - k))

/-- The number with the given bytes, the least significant first. -/
def littleEndian (bytes : List UInt8) : UInt64 :=
  bytes.foldr (fun b n => n * 256 + b.toUInt64) 0

/-- Mixes eight bytes of input into one lane. -/
def mixLane (lane input : UInt64) : UInt64 := rotateLeft (lane + input * prime2) 31 * prime1

/-- Mixes a finished lane into the digest. -/
def mergeLane (h lane : UInt64) : UInt64 := (h ^^^ mixLane 0 lane) * prime1 + prime4

/-- The four lanes that take turns over the input. -/
structure Lanes where
  a : UInt64
  b : UInt64
  c : UInt64
  d : UInt64

/-- The lanes before any input. -/
def Lanes.start (seed : UInt64) : Lanes :=
  ⟨seed + prime1 + prime2, seed + prime2, seed, seed - prime1⟩

/-- Mixes 32 bytes, eight for each lane. -/
def Lanes.mix (l : Lanes) (bytes : List UInt8) : Lanes :=
  let word (i : Nat) := littleEndian ((bytes.drop (8 * i)).take 8)
  ⟨mixLane l.a (word 0), mixLane l.b (word 1), mixLane l.c (word 2), mixLane l.d (word 3)⟩

/-- One number from the four lanes. -/
def Lanes.join (l : Lanes) : UInt64 :=
  let h := rotateLeft l.a 1 + rotateLeft l.b 7 + rotateLeft l.c 12 + rotateLeft l.d 18
  mergeLane (mergeLane (mergeLane (mergeLane h l.a) l.b) l.c) l.d

/-- Mixes every full stripe of 32 bytes and returns the bytes that are left. -/
def stripes (l : Lanes) (bytes : List UInt8) : Lanes × List UInt8 :=
  if 32 ≤ bytes.length then stripes (l.mix (bytes.take 32)) (bytes.drop 32) else (l, bytes)
termination_by bytes.length
decreasing_by simp only [List.length_drop]; omega

/-- Mixes the bytes after the last stripe: by eights, then a four, then single bytes. -/
def tail (h : UInt64) : List UInt8 → UInt64
  | b0 :: b1 :: b2 :: b3 :: b4 :: b5 :: b6 :: b7 :: rest =>
    let lane := mixLane 0 (littleEndian [b0, b1, b2, b3, b4, b5, b6, b7])
    tail (rotateLeft (h ^^^ lane) 27 * prime1 + prime4) rest
  | b0 :: b1 :: b2 :: b3 :: rest =>
    let half := littleEndian [b0, b1, b2, b3] * prime1
    tail (rotateLeft (h ^^^ half) 23 * prime2 + prime3) rest
  | b :: rest => tail (rotateLeft (h ^^^ (b.toUInt64 * prime5)) 11 * prime1) rest
  | [] => h

/-- Spreads every bit over the whole word. -/
def avalanche (h : UInt64) : UInt64 :=
  let h := (h ^^^ (h >>> 33)) * prime2
  let h := (h ^^^ (h >>> 29)) * prime3
  h ^^^ (h >>> 32)

/-- The digest of a byte string. -/
def ofBytes (seed : UInt64) (bytes : List UInt8) : UInt64 :=
  let size := UInt64.ofNat bytes.length
  if 32 ≤ bytes.length then
    let (lanes, rest) := stripes (Lanes.start seed) bytes
    avalanche (tail (lanes.join + size) rest)
  else avalanche (tail (seed + prime5 + size) bytes)

/-- The digest of a text's UTF-8 bytes. -/
def ofString (seed : UInt64) (s : String) : UInt64 := ofBytes seed s.toUTF8.toList

end Rockstar.Digest
