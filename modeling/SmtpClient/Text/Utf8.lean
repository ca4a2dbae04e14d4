import SmtpClient.Text.Bytes

namespace SmtpClient.Utf8

/-- Where a decoder stands: between characters, or with `owed + 1` bytes to come, the next of them
from `low` to `high`. -/
inductive State where
  | start
  | within (owed low high bits : Nat)
  deriving DecidableEq, Repr

/-- What the first byte of a character completes, and the state after it. -/
def first (b : Nat) : List (Option Char) × State :=
  if b ≤ 0x7F then ([some (Char.ofNat b)], .start)
  else if 0xC2 ≤ b ∧ b ≤ 0xDF then ([], .within 0 0x80 0xBF (b - 0xC0))
  else if b = 0xE0 then ([], .within 1 0xA0 0xBF 0)
  else if b = 0xED then ([], .within 1 0x80 0x9F 13)
  else if 0xE1 ≤ b ∧ b ≤ 0xEF then ([], .within 1 0x80 0xBF (b - 0xE0))
  else if b = 0xF0 then ([], .within 2 0x90 0xBF 0)
  else if 0xF1 ≤ b ∧ b ≤ 0xF3 then ([], .within 2 0x80 0xBF (b - 0xF0))
  else if b = 0xF4 then ([], .within 2 0x80 0x8F 4)
  else ([none], .start)

/-- A byte that cannot continue the character ends a malformed piece and is read again as a first
byte. -/
def step : State → Nat → List (Option Char) × State
  | .start, b => first b
  | .within owed low high bits, b =>
    if low ≤ b ∧ b ≤ high then
      match owed with
      | 0 => ([some (Char.ofNat (bits * 64 + (b - 0x80)))], .start)
      | owed + 1 => ([], .within owed 0x80 0xBF (bits * 64 + (b - 0x80)))
    else (none :: (first b).1, (first b).2)

/-- The characters of a byte string, with `none` for every malformed piece. -/
def characters : State → Bytes → List (Option Char)
  | .start, [] => []
  | .within .., [] => [none]
  | state, b :: rest => (step state b.toNat).1 ++ characters (step state b.toNat).2 rest

def encode (text : String) : Bytes := text.toList.flatMap String.utf8EncodeChar

/-- The text whose encoding the bytes are, if there is one. -/
def decode? (bs : Bytes) : Option String :=
  ((characters .start bs).mapM id).map String.ofList

/-- The text of the bytes, with U+FFFD for every malformed piece. -/
def decodeLossy (bs : Bytes) : String :=
  String.ofList ((characters .start bs).map (·.getD '\uFFFD'))

end SmtpClient.Utf8
