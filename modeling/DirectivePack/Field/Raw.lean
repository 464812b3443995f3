import DirectivePack.Front

/-!
Byte strings in fields: padded to a width, or with a terminator.

Three styles share the writing of a field and differ in the padding byte and in what reading takes
off again.
-/

namespace DirectivePack

/-- How a byte string is padded, and what reading takes off. -/
inductive RawStyle where
  /-- Padded with NUL, read as it stands. -/
  | nullPadded
  /-- Padded with spaces, read without the spaces and NULs at its end. -/
  | spacePadded
  /-- Padded with NUL, read up to the first NUL. -/
  | nullTerminated
deriving DecidableEq, Repr

namespace RawStyle

/-- The byte that fills a field behind a short value. -/
def padByte : RawStyle → UInt8
  | .spacePadded => 0x20
  | .nullPadded | .nullTerminated => 0x00

/-- A field of `width` bytes: the value cut off or padded. -/
def putField (style : RawStyle) (width : Nat) (bs : Bytes) : Bytes :=
  bs.take width ++ List.replicate (width - bs.length) style.padByte

/-- The whole value, ended by a NUL in the terminated style. -/
def putAll : RawStyle → Bytes → Bytes
  | .nullTerminated, bs => bs ++ [0x00]
  | _, bs => bs

/-- Without the spaces and NULs at the end. -/
def stripTrailing (bs : Bytes) : Bytes :=
  (bs.reverse.dropWhile fun b => b == 0x20 || b == 0x00).reverse

/-- The value that the bytes of a field stand for. -/
def trim : RawStyle → Bytes → Bytes
  | .nullPadded, bs => bs
  | .spacePadded, bs => stripTrailing bs
  | .nullTerminated, bs => bs.takeWhile (· != 0x00)

/-- The value in a field of `width` bytes, or in what is there, and the bytes behind it. -/
def getField (style : RawStyle) (width : Nat) (bs : Bytes) : Bytes × Bytes :=
  (style.trim (bs.take width), bs.drop width)

/-- The value in all the bytes; in the terminated style, up to the first NUL, and the bytes behind
that NUL. -/
def getAll : RawStyle → Bytes → Bytes × Bytes
  | .nullTerminated, bs => (bs.takeWhile (· != 0x00), (bs.dropWhile (· != 0x00)).drop 1)
  | style, bs => (style.trim bs, [])

end RawStyle

end DirectivePack
