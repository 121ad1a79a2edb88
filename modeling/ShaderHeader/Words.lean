/-!
# Words of a shader module

A module is a stream of 32-bit words, stored with the least significant byte
first.  `Words.ofBytes` groups bytes into words and counts the bytes left over;
`Words.toBytes` writes words back.
-/

namespace ShaderHeader

/-- The words of a module, and how many trailing bytes formed no whole word. -/
structure Words where
  list : List UInt32
  dropped : Nat
deriving DecidableEq, Repr

namespace Words

/-- The word whose bytes, least significant first, are the four given ones. -/
def word (b₀ b₁ b₂ b₃ : UInt8) : UInt32 :=
  b₀.toUInt32 ||| b₁.toUInt32 <<< 8 ||| b₂.toUInt32 <<< 16 ||| b₃.toUInt32 <<< 24

/-- Groups bytes into words of four.  One to three bytes at the end are counted
and otherwise ignored. -/
def ofBytes : List UInt8 → Words
  | b₀ :: b₁ :: b₂ :: b₃ :: rest =>
    let tail := ofBytes rest
    { tail with list := word b₀ b₁ b₂ b₃ :: tail.list }
  | rest => { list := [], dropped := rest.length }

/-- The four bytes of a word, least significant first. -/
def bytesOf (word : UInt32) : List UInt8 :=
  [word.toUInt8, (word >>> 8).toUInt8, (word >>> 16).toUInt8, (word >>> 24).toUInt8]

/-- The bytes of a list of words. -/
def encode (words : List UInt32) : List UInt8 :=
  words.flatMap bytesOf

/-- The bytes of the words; the dropped ones are gone. -/
def toBytes (words : Words) : List UInt8 :=
  encode words.list

/-- How many words there are. -/
def size (words : Words) : Nat :=
  words.list.length

/-- How many bytes the words take. -/
def byteSize (words : Words) : Nat :=
  4 * words.size

/-- Whether there are no words at all. -/
def isEmpty (words : Words) : Bool :=
  words.list.isEmpty

end Words

end ShaderHeader
