import SmtpClient.Error
import SmtpClient.Text.Bytes

namespace SmtpClient

/-- How long a line may be before its end is seen. -/
def lineLimit : Nat := 65536

/-- What is still to be read: the rest of the piece that is being read, and the pieces after it. -/
structure Inbox where
  rest : Bytes
  pieces : List Bytes
  deriving DecidableEq

namespace Inbox

def through (piece : Bytes) : Bytes :=
  piece.takeWhile (· ≠ Bytes.lf) ++ (piece.dropWhile (· ≠ Bytes.lf)).take 1

/-- Reads from pieces none of which is empty, counting the bytes that this read adds. -/
def readPieces (count : Nat) (buffer : Bytes) : List Bytes → Except Error Nat × Bytes × Inbox
  | [] => (.ok count, buffer, ⟨[], []⟩)
  | piece :: later =>
    if Bytes.lf ∈ piece then
      (.ok (count + (through piece).length), buffer ++ through piece,
        ⟨piece.drop (through piece).length, later⟩)
    else if lineLimit < (buffer ++ piece).length then
      (.error (.malformedReply s!"reply line exceeds {lineLimit} bytes"), buffer ++ piece,
        ⟨[], later⟩)
    else readPieces (count + piece.length) (buffer ++ piece) later

/-- Reads through the next LF into the buffer. The count is zero only at the end of the stream. -/
def readLine (inbox : Inbox) (buffer : Bytes) : Except Error Nat × Bytes × Inbox :=
  readPieces 0 buffer (if inbox.rest = [] then inbox.pieces else inbox.rest :: inbox.pieces)

end Inbox

end SmtpClient
