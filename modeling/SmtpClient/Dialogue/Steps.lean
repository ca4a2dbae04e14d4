import SmtpClient.Dialogue.Basic
import SmtpClient.Mail.Body
import SmtpClient.Text.Base64

namespace SmtpClient

abbrev Outcome := Dialogue × List Event

/-- The text of a password answer, before base64: no other identity to act for, the user, and the
password, each after a NUL. -/
def plainMessage (user password : String) : Bytes :=
  0 :: Utf8.encode user ++ 0 :: Utf8.encode password

def passwordResponse (user password : String) : Command :=
  .response (String.ofList (Base64.encode (plainMessage user password)))

def Payload.command : Payload → Command
  | .message _ => .data
  | .reference target => .burl target.url

namespace Dialogue

def put (d : Dialogue) (data : Bytes) : Dialogue :=
  { d with outbound := d.outbound ++ [.raw data] }

def flush (d : Dialogue) : Dialogue :=
  { d with
    pipeline := d.pipeline.drain.2
    outbound := d.outbound ++ d.pipeline.drain.1.toList }

def send (d : Dialogue) (c : Command) : Dialogue :=
  flush { d with pipeline := d.pipeline.enqueue c }

def close (d : Dialogue) : Dialogue :=
  { d with pipeline := d.pipeline.clear, phase := .closed }

/-- Ends the submission. The server is told so only where it may be, and not while it may still
take what follows for the message. -/
def fail (d : Dialogue) (error : Error) (mayQuit : Bool) : Outcome :=
  let isOpen := d.phase.isOpen || d.phase = .connecting
  let quits := mayQuit && isOpen && !d.pipeline.isInFlight .data
  let ended := close { d with parked := false }
  (if quits then ended.put Command.quit.render else ended, [.failed error])

/-- Greets the server. What it announced before no longer counts. -/
def greet (d : Dialogue) : Dialogue :=
  send { d with capabilities := .empty } (.ehlo d.settings.clientName)

def requestPassword (d : Dialogue) : Outcome :=
  ({ d with passwordRequested := true }, [.passwordRequested d.settings.user d.settings.host])

def startAuth (d : Dialogue) : Dialogue :=
  send { d with passwordSent := false } (.auth .plain)

/-- Answers the challenge for the password. There must be only one. -/
def sendPassword (d : Dialogue) : Outcome :=
  if d.passwordSent then
    d.fail (.authenticationFailed 334 "server requested further authentication data") true
  else match d.password with
    | none => d.fail (.invalidState "no credential for AUTH") true
    | some password =>
      ({ d.put (passwordResponse d.settings.user password).render with passwordSent := true }, [])

/-- The size that the sender command declares, or why the payload cannot be sent. -/
def declaredSize (caps : Capabilities) : Payload → Except Error (Option Nat)
  | .message data =>
    match caps.sizeLimit with
    | some limit =>
      if limit < data.length then .error (.messageTooLarge data.length limit)
      else .ok (if caps.supports .size then some data.length else none)
    | none => .ok (if caps.supports .size then some data.length else none)
  | .reference _ => if caps.supports .burl then .ok none else .error (.notSupported "BURL")

/-- The commands of a transaction, from the sender to the payload. -/
def transaction (e : Envelope) (size : Option Nat) : List Command :=
  .mail e.sender size :: e.recipients.map .rcpt ++ [e.payload.command]

def sendBatch (d : Dialogue) (e : Envelope) (size : Option Nat) : Dialogue :=
  let full := (transaction e size).foldl Pipeline.enqueue d.pipeline
  { d with
    batched := true
    recipientsSent := e.recipients.length
    pipeline := full.drainAll.2
    outbound := d.outbound ++ full.drainAll.1.toList
    phase := .pipelining }

def beginTransaction (d : Dialogue) : Outcome :=
  match d.envelope with
  | none => d.fail (.invalidState "no envelope to submit") true
  | some e =>
    match declaredSize d.capabilities e.payload with
    | .error error => d.fail error true
    | .ok size =>
      if d.capabilities.supports .pipelining then (d.sendBatch e size, [])
      else (d.send (.mail e.sender size), [])

/-- After the greeting comes encryption, then authentication, then the transaction. -/
def negotiate (d : Dialogue) : Outcome :=
  if d.settings.usesStartTls && !d.encrypted then
    if d.capabilities.supports .startTls then (d.send .startTls, [])
    else d.fail (.notSupported "STARTTLS") true
  else if d.settings.requireAuth && !d.authenticated then
    if !d.capabilities.supportsPlain then d.fail (.notSupported "AUTH PLAIN") true
    else if d.password.isNone then
      if d.passwordRequested then ({ d with parked := true }, [])
      else requestPassword { d with parked := true }
    else (d.startAuth, [])
  else d.beginTransaction

def sendNextRecipient (d : Dialogue) : Dialogue :=
  match d.envelope with
  | none => d
  | some e =>
    match e.recipients[d.recipientsSent]? with
    | some recipient =>
      send { d with recipientsSent := d.recipientsSent + 1 } (.rcpt recipient)
    | none => d.send e.payload.command

def sendBody (d : Dialogue) : Outcome :=
  match d.envelope.map Envelope.payload with
  | some (.message data) => (d.put (Body.encode data), [.progress data.length])
  | _ => d.fail (.invalidState "DATA without message data") true

def succeed (d : Dialogue) : Outcome :=
  let events := match d.envelope.map Envelope.payload with
    | some (.reference _) => [.progress 1, .succeeded]
    | _ => [.succeeded]
  (send { d with succeeded := true } .quit, events)

def advance (d : Dialogue) : Move → Outcome
  | .greet => (greet { d with phase := .ready }, [])
  | .negotiate => d.negotiate
  | .encrypt => (d, [.encryptionDue])
  | .sendPassword => d.sendPassword
  | .beginTransaction => beginTransaction { d with authenticated := true }
  | .firstRecipient | .nextRecipient => (if d.batched then d else d.sendNextRecipient, [])
  | .sendBody => d.sendBody
  | .quit => d.succeed
  | .close => (d.close, [])

end Dialogue

end SmtpClient
