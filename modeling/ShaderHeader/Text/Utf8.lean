/-!
# UTF-8

Text as bytes and bytes as text.  `Utf8.scan` reads any byte string: it yields a
character for each well-formed sequence and `none` for each maximal ill-formed
one, that is for each longest stretch that begins a well-formed sequence but
does not complete it, or for a single byte that begins none.  Strict and lossy
decoding are two views of that one scan.
-/

namespace ShaderHeader

namespace Utf8

/-- The bytes of a text. -/
def encode (text : String) : List UInt8 :=
  text.toList.flatMap String.utf8EncodeChar

/-- How far a scan has got: between characters, or inside a sequence that still
lacks `missing + 1` bytes, the next of which has to lie between `low` and
`high`.  The bits read so far are in `value`. -/
inductive State where
  | between
  | inside (missing : Nat) (low high : UInt8) (value : Nat)
deriving DecidableEq

/-- Starts a sequence at a byte.  The bounds on the second byte leave out
overlong forms, surrogates and values beyond the last code point. -/
def start (byte : UInt8) : List (Option Char) × State :=
  if byte < 0x80 then ([some (Char.ofNat byte.toNat)], .between)
  else if byte < 0xC2 then ([none], .between)
  else if byte < 0xE0 then ([], .inside 0 0x80 0xBF (byte.toNat - 0xC0))
  else if byte = 0xE0 then ([], .inside 1 0xA0 0xBF 0)
  else if byte = 0xED then ([], .inside 1 0x80 0x9F 13)
  else if byte < 0xF0 then ([], .inside 1 0x80 0xBF (byte.toNat - 0xE0))
  else if byte = 0xF0 then ([], .inside 2 0x90 0xBF 0)
  else if byte < 0xF4 then ([], .inside 2 0x80 0xBF (byte.toNat - 0xF0))
  else if byte = 0xF4 then ([], .inside 2 0x80 0x8F 4)
  else ([none], .between)

/-- Takes one byte.  A byte that does not continue the open sequence closes it
as ill-formed and is itself read as a start. -/
def step (state : State) (byte : UInt8) : List (Option Char) × State :=
  match state with
  | .between => start byte
  | .inside missing low high value =>
    if low ≤ byte ∧ byte ≤ high then
      let value := value * 64 + (byte.toNat - 0x80)
      match missing with
      | 0 => ([some (Char.ofNat value)], .between)
      | missing + 1 => ([], .inside missing 0x80 0xBF value)
    else
      let (read, next) := start byte
      (none :: read, next)

/-- Reads bytes from a given state; a sequence left open at the end is ill-formed. -/
def scanFrom : State → List UInt8 → List (Option Char)
  | .between, [] => []
  | .inside .., [] => [none]
  | state, byte :: bytes =>
    let (read, next) := step state byte
    read ++ scanFrom next bytes

/-- The characters of a byte string, with `none` for each maximal ill-formed part. -/
def scan (bytes : List UInt8) : List (Option Char) :=
  scanFrom .between bytes

/-- The text of a byte string, if all of it is well-formed. -/
def decode? (bytes : List UInt8) : Option String :=
  ((scan bytes).mapM id).map String.ofList

/-- The text of a byte string, with U+FFFD for each maximal ill-formed part. -/
def decodeLossy (bytes : List UInt8) : String :=
  String.ofList ((scan bytes).map (·.getD '\uFFFD'))

end Utf8

end ShaderHeader
