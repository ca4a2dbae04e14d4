import SmtpClient.Dialogue.Decision
import SmtpClient.Server.Capabilities
import SmtpClient.Settings.Basic
import SmtpClient.Wire.Pipeline

namespace SmtpClient

inductive Phase where
  | disconnected
  /-- Connected, with the server's greeting to come. -/
  | connecting
  /-- One command at a time is in flight. -/
  | ready
  /-- A whole transaction is in flight. -/
  | pipelining
  | closed
  deriving DecidableEq, Repr

def Phase.name : Phase → String
  | disconnected => "Disconnected"
  | connecting => "Connecting"
  | ready => "Ready"
  | pipelining => "Pipelining"
  | closed => "Closed"

def Phase.isOpen : Phase → Bool
  | ready | pipelining => true
  | _ => false

inductive Event where
  | passwordRequested (user host : String)
  | total (steps : Nat)
  | progress (steps : Nat)
  /-- The server is ready for the encryption handshake. -/
  | encryptionDue
  | succeeded
  | failed (error : Error)
  deriving DecidableEq, Repr

structure Dialogue where
  settings : Settings
  phase : Phase
  capabilities : Capabilities
  pipeline : Pipeline
  /-- What is to be written, in order. -/
  outbound : List Transmit
  envelope : Option Envelope
  /-- How many recipients have been named to the server. -/
  recipientsSent : Nat
  /-- The texts of the reply of which the last line is still to come. -/
  replyTexts : List String
  password : Option String
  passwordRequested : Bool
  /-- Nothing happens until the password is known. -/
  parked : Bool
  passwordSent : Bool
  authenticated : Bool
  encrypted : Bool
  greetingDue : Bool
  /-- The recipients and the payload command went out with the sender. -/
  batched : Bool
  succeeded : Bool
  deriving DecidableEq

namespace Dialogue

def start (settings : Settings) : Dialogue where
  settings := settings
  phase := .disconnected
  capabilities := .empty
  pipeline := .empty
  outbound := []
  envelope := none
  recipientsSent := 0
  replyTexts := []
  password := none
  passwordRequested := false
  parked := false
  passwordSent := false
  authenticated := false
  encrypted := settings.usesImplicitTls
  greetingDue := false
  batched := false
  succeeded := false

/-- What the next reply answers, if a reply is expected at all. -/
def awaited (d : Dialogue) : Option Awaited :=
  if d.greetingDue then some .greeting else d.pipeline.awaiting.map fun f => .answer f.verb

def isFinished (d : Dialogue) : Bool := d.phase = .closed

def describe (d : Dialogue) : String :=
  let awaited := match d.awaited with
    | none => "None"
    | some .greeting => "Some(Init)"
    | some (.answer .helo) => "Some(Helo)"
    | some (.answer .ehlo) => "Some(Ehlo)"
    | some (.answer .startTls) => "Some(StartTls)"
    | some (.answer .auth) => "Some(Auth)"
    | some (.answer .mail) => "Some(Mail)"
    | some (.answer .rcpt) => "Some(Rcpt)"
    | some (.answer .data) => "Some(Data)"
    | some (.answer .burl) => "Some(Burl)"
    | some (.answer .quit) => "Some(Quit)"
  let caps := d.capabilities
  let limit := caps.sizeLimit.elim "None" fun n => s!"Some({n})"
  "Protocol \x7b state: " ++ d.phase.name ++
    ", last_command: " ++ awaited ++
    ", capabilities: Capabilities \x7b hostname: " ++ Quoted.encode caps.hostname ++
    ", extensions: Extensions(" ++ toString caps.extensions.bits.toNat ++
    "), auth_mechanisms: AuthMechanisms(" ++ toString caps.mechanisms.bits.toNat ++
    "), size_limit: " ++ limit ++
    ", lines: " ++ toString caps.lines ++
    ", complete: " ++ toString caps.complete ++
    " \x7d, queued: " ++ toString d.pipeline.waiting.length ++
    ", in_flight: " ++ toString d.pipeline.inFlight.length ++
    ", outbound_count: " ++ toString d.outbound.length ++
    ", tls_active: " ++ toString d.encrypted ++
    ", has_credential: " ++ toString d.password.isSome ++ ", .. \x7d"

end Dialogue

end SmtpClient
