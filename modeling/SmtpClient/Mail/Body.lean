import SmtpClient.Text.Bytes

/-!
Message data on the connection. A line that begins with a dot gets one more, so that the lone dot
after the message is the only one, and a receiver takes the added dots away again.
-/
namespace SmtpClient.Body

def stuffLine : Bytes → Bytes
  | 46 :: rest => 46 :: 46 :: rest
  | line => line

def unstuffLine : Bytes → Bytes
  | 46 :: rest => rest
  | line => line

/-- Doubles the dot at the start of every line. -/
def stuff (message : Bytes) : Bytes := message.lines.flatMap stuffLine

/-- Drops one dot at the start of every line. -/
def unstuff (body : Bytes) : Bytes := body.lines.flatMap unstuffLine

/-- What ends a body: a lone dot on a line, after the end of a line that is still open. -/
def ending (body : Bytes) : Bytes :=
  if Bytes.crlf <:+ body then Bytes.dot :: Bytes.crlf
  else Bytes.crlf ++ Bytes.dot :: Bytes.crlf

/-- A message as it is sent after the server has asked for it. -/
def encode (message : Bytes) : Bytes := stuff message ++ ending (stuff message)

/-- Reads lines up to the lone dot: the message they carry, and the lines after it. -/
def receiveLines : List Bytes → Option (Bytes × List Bytes)
  | [] => none
  | line :: later =>
    if line = [46, 13, 10] ∨ line = [46, 10] then some ([], later)
    else (receiveLines later).map fun r => (unstuffLine line ++ r.1, r.2)

/-- The message at the head of a stream, and the stream after its end. -/
def receive (stream : Bytes) : Option (Bytes × Bytes) :=
  (receiveLines stream.lines).map fun r => (r.1, r.2.flatten)

end SmtpClient.Body
