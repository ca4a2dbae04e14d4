import SmtpClient.Dialogue.Steps
import SmtpClient.Wire.ReplyLine

namespace SmtpClient

namespace Dialogue

/-- Takes a line of a reply that goes on. -/
def holdLine (d : Dialogue) (reply : Reply) (decision : Decision) : Dialogue :=
  if decision = .announce then { d with capabilities := d.capabilities.addReply reply }
  else { d with replyTexts := d.replyTexts ++ [reply.text] }

/-- Counts a complete reply: an intermediate one leaves its command in flight. -/
def settle (d : Dialogue) (awaited : Awaited) (code : Code) : Dialogue :=
  if awaited = .greeting then { d with greetingDue := false }
  else if code.isIntermediate then d
  else
    let rest := d.pipeline.acknowledge.2
    { d with
      pipeline := rest
      phase := if d.phase = .pipelining && rest.inFlight.isEmpty then .ready else d.phase }

/-- Acts on the last line of a reply, whose lines together have the text `text`. -/
def act (d : Dialogue) (awaited : Awaited) (reply : Reply) (text : String) : Decision → Outcome
  | .announce => negotiate { d with capabilities := d.capabilities.addReply reply }
  | .retry =>
    (send { d with capabilities := .empty } (.helo d.settings.clientName), [])
  | .advance move => d.advance move
  | .fail refusal =>
    if awaited = .answer .quit && d.succeeded then (d.close, [])
    else d.fail (refusal.error awaited reply text) (reply.code != 421)

def takeReply (d : Dialogue) (reply : Reply) : Outcome :=
  match d.awaited with
  | none => d.fail (.unexpectedReply "none" reply.code reply.text) true
  | some awaited =>
    let decision := Decision.of awaited reply.code
    if reply.continues then (d.holdLine reply decision, [])
    else
      let text := "\n".intercalate (d.replyTexts ++ [reply.text])
      (settle { d with replyTexts := [] } awaited reply.code).act awaited reply text decision

def takeLine (d : Dialogue) (line : Bytes) : Outcome :=
  if d.isFinished then (d, [])
  else match Reply.parse line with
    | .ok reply => d.takeReply reply
    | .error error => d.fail error true

/-- Begins the submission. A dialogue takes only one, and only before it is connected. -/
def submit (d : Dialogue) (e : Envelope) : Except Error Outcome :=
  if d.envelope.isSome || d.phase != .disconnected then
    .error (.invalidState "a submission was already started on this connection")
  else
    let submitted := { d with envelope := some e }
    let events := [.total e.payload.total, .progress 0]
    if d.settings.requireAuth && d.password.isNone then
      .ok (submitted.requestPassword.1, events ++ submitted.requestPassword.2)
    else .ok (submitted, events)

def connect (d : Dialogue) : Dialogue :=
  if d.phase = .disconnected then { d with phase := .connecting, greetingDue := true } else d

/-- Takes the password, and goes on if it was waited for. -/
def givePassword (d : Dialogue) (password : String) : Dialogue :=
  if d.parked && !d.isFinished then
    startAuth { d with password := some password, parked := false }
  else { d with password := some password }

/-- The connection is encrypted, and the server is greeted again. -/
def encrypt (d : Dialogue) : Dialogue :=
  if d.isFinished then d else greet { d with encrypted := true }

def cancel (d : Dialogue) : Outcome :=
  if d.isFinished then (d, []) else d.fail .cancelled false

/-- The connection is gone, which no longer matters once the message has been taken. -/
def disconnect (d : Dialogue) (error : Error) : Outcome :=
  if d.isFinished then (d, [])
  else if d.succeeded then ({ d with phase := .closed }, [])
  else d.fail error false

def poll (d : Dialogue) : Option Transmit × Dialogue :=
  (d.outbound.head?, { d with outbound := d.outbound.tail })

end Dialogue

inductive Call where
  | submit (e : Envelope)
  | connected
  | line (line : Bytes)
  | password (text : String)
  | encrypted
  | cancel
  | lost (error : Error)
  | poll
  deriving DecidableEq

structure Answer where
  events : List Event
  transmit : Option Transmit
  refusal : Option Error
  deriving DecidableEq

namespace Answer

def silent : Answer := ⟨[], none, none⟩
def ofEvents (events : List Event) : Answer := ⟨events, none, none⟩

end Answer

namespace Dialogue

def perform (d : Dialogue) : Call → Dialogue × Answer
  | .submit e =>
    match d.submit e with
    | .ok (next, events) => (next, .ofEvents events)
    | .error error => (d, ⟨[], none, some error⟩)
  | .connected => (d.connect, .silent)
  | .line line => ((d.takeLine line).1, .ofEvents (d.takeLine line).2)
  | .password text => (d.givePassword text, .silent)
  | .encrypted => (d.encrypt, .silent)
  | .cancel => (d.cancel.1, .ofEvents d.cancel.2)
  | .lost error => ((d.disconnect error).1, .ofEvents (d.disconnect error).2)
  | .poll => (d.poll.2, ⟨[], d.poll.1, none⟩)

def run (d : Dialogue) : List Call → Dialogue × List Answer
  | [] => (d, [])
  | call :: later =>
    let (next, answer) := d.perform call
    let (last, answers) := next.run later
    (last, answer :: answers)

end Dialogue

end SmtpClient
