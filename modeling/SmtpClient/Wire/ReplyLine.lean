import SmtpClient.Text.Utf8
import SmtpClient.Error

namespace SmtpClient

/-- The list without its last element, where that is `x`. -/
def dropLastIf {α : Type} [DecidableEq α] (x : α) (xs : List α) : List α :=
  if xs.getLast? = some x then xs.dropLast else xs

namespace Bytes

/-- A line without its end: one LF, then one CR before it. -/
def chomp (line : Bytes) : Bytes := dropLastIf cr (dropLastIf lf line)

/-- The value of a run of digits that fits in sixteen bits. -/
def word? (bs : Bytes) : Option UInt16 :=
  match digits? bs with
  | some n => if n < limit16 then some (.ofNat n) else none
  | none => none

end Bytes

/-- Three numbers with dots between them, up to the first space, and what follows that space. -/
def EnhancedStatus.split? (bs : Bytes) : Option (EnhancedStatus × Bytes) :=
  match fields Bytes.dot (bs.takeWhile (· ≠ Bytes.space)) with
  | [a, b, c] => do
    let category ← Bytes.word? a
    let subject ← Bytes.word? b
    let detail ← Bytes.word? c
    some (⟨category, subject, detail⟩, (bs.dropWhile (· ≠ Bytes.space)).tail)
  | _ => none

namespace Reply

def ofText (code : Code) (continues : Bool) (bs : Bytes) : Reply :=
  match EnhancedStatus.split? bs with
  | some (status, text) => ⟨code, some status, Utf8.decodeLossy text, continues⟩
  | none => ⟨code, none, Utf8.decodeLossy bs, continues⟩

def ofLine? : Bytes → Option Reply
  | a :: b :: c :: rest =>
    match Bytes.word? [a, b, c] with
    | none => none
    | some code =>
      match rest with
      | [] => some (ofText code false [])
      | 45 :: text => some (ofText code true text)
      | 32 :: text => some (ofText code false text)
      | _ => none
  | _ => none

def parse (line : Bytes) : Except Error Reply :=
  match ofLine? line.chomp with
  | some reply => .ok reply
  | none => .error (.malformedReply (Utf8.decodeLossy line.chomp))

end Reply

end SmtpClient
