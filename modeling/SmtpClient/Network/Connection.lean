import SmtpClient.Network.LineReader
import SmtpClient.Network.ServerName
import SmtpClient.Session.Run

/-!
Outer layer. A connection to a server that sends all it has to say and listens to the end, as a
script that a session is run with. Bytes arrive in pieces of up to eight kilobytes. The handshake
stands for the encryption of a connection up to the first byte that it meets: these servers do not
speak the encrypted protocol. Nothing is proved of this module; what is proved of sessions holds
with every script.
-/
namespace SmtpClient

namespace Connection

def pieceSize : Nat := 8192

def piecesOf (stream : Bytes) : List Bytes :=
  if stream.length ≤ pieceSize then if stream = [] then [] else [stream]
  else stream.take pieceSize :: piecesOf (stream.drop pieceSize)
  termination_by stream.length
  decreasing_by
    rw [List.length_drop]
    simp only [pieceSize] at *
    omega

def unreachable : Error := .network "Network is unreachable (os error 101)"

/-- How a handshake ends that meets these bytes. The first byte of a record tells its type. -/
def handshake : Bytes → Error
  | [] => .network "tls handshake eof"
  | b :: _ =>
    if 20 ≤ b ∧ b ≤ 24 then .network "tls handshake eof"
    else .tls (.corrupt "InvalidContentType")

/-- How an upgrade ends, given what is left of the piece that is being read and what comes after
it: nothing may have arrived before the handshake. -/
def upgradeError (host : String) (rest later : Bytes) : Error :=
  if rest ≠ [] then .malformedReply "unexpected data before TLS handshake"
  else if !ServerName.isValid host.toList then .invalidState s!"Invalid hostname: {host}"
  else handshake later

inductive Request where
  /-- Reads a line, into an empty buffer unless it keeps what is there. -/
  | read (keep : Bool)
  | write (data : Bytes)
  | shutdown
  | isEncrypted
  | upgrade (host : String)
  deriving DecidableEq

inductive Response where
  | line (count : Nat) (buffer : Bytes)
  | done
  | encrypted (yes : Bool)
  | failed (error : Error)
  deriving DecidableEq

/-- A plain connection: what is still to be read, the buffer of the reader, and what was sent. -/
structure State where
  inbox : Inbox
  buffer : Bytes
  sent : Bytes

/-- Makes requests in turn. An upgrade takes the connection, so none is made after it. -/
def serve (s : State) : List Request → List Response × State
  | [] => ([], s)
  | .read keep :: later =>
    let (result, buffer, inbox) := s.inbox.readLine (if keep then s.buffer else [])
    let response := match result with
      | .ok count => Response.line count buffer
      | .error error => .failed error
    let (responses, last) := serve { s with inbox := inbox, buffer := buffer } later
    (response :: responses, last)
  | .write data :: later =>
    let (responses, last) := serve { s with sent := s.sent ++ data } later
    (.done :: responses, last)
  | .shutdown :: later =>
    let (responses, last) := serve s later
    (.done :: responses, last)
  | .isEncrypted :: later =>
    let (responses, last) := serve s later
    (.encrypted false :: responses, last)
  | .upgrade host :: _ =>
    ([.failed (upgradeError host s.inbox.rest s.inbox.pieces.flatten)], s)

def opened (first second : Bytes) : State :=
  ⟨⟨[], piecesOf first ++ piecesOf second⟩, [], []⟩

def pending : List Step → Nat
  | [] => 0
  | .raw bytes :: later => bytes.length + pending later
  | _ :: later => pending later

def script (settings : Settings) (stream : Bytes) : Script where
  delays := []
  connect := if settings.usesImplicitTls then .fail (handshake stream) else .ok
  steps := stream.lines.map fun line =>
    if lineLimit < line.length then
      .fail (.malformedReply s!"reply line exceeds {lineLimit} bytes")
    else .raw line
  upgrade := fun steps =>
    let left := stream.drop (stream.length - pending steps)
    let rest := left.take ((pieceSize - (stream.length - left.length) % pieceSize) % pieceSize)
    .fail (upgradeError settings.host rest (left.drop rest.length))
  shutdown := .ok

def refused : Script := ⟨[], .fail unreachable, [], fun _ => .ok, .ok⟩

def written (trace : List Entry) : Bytes :=
  trace.flatMap fun entry => match entry with
    | .write data => data
    | _ => []

end Connection

end SmtpClient
