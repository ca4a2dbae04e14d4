import SmtpClient.Error
import SmtpClient.Wire.Command

/-!
What a reply means. A code says something only about the command that it answers, so the decision
is taken from the pair of the two. A pair that is not listed fails the submission.
-/
namespace SmtpClient

inductive Awaited where
  | greeting
  | answer (verb : Verb)
  deriving DecidableEq, Repr

def Awaited.name : Awaited → String
  | greeting => "greeting"
  | answer verb => verb.name

inductive Move where
  | greet
  | negotiate
  | encrypt
  | sendPassword
  | beginTransaction
  | firstRecipient
  | nextRecipient
  | sendBody
  | quit
  | close
  deriving DecidableEq, Repr

inductive Refusal where
  | serviceUnavailable
  | tlsUnavailable
  | authRejected
  | senderRejected
  | recipientRejected
  | messageRejected
  | unexpected
  deriving DecidableEq, Repr

inductive Decision where
  | advance (move : Move)
  /-- The line announces a capability. -/
  | announce
  /-- The greeting is tried again in its older form. -/
  | retry
  | fail (refusal : Refusal)
  deriving DecidableEq, Repr

namespace Decision

def onGreeting (code : Code) : Decision :=
  if code = 220 then advance .greet
  else if code = 554 then fail .serviceUnavailable
  else fail .unexpected

def onVerb (code : Code) : Verb → Decision
  | .ehlo =>
    if code = 250 then announce
    else if code = 550 ∨ code = 502 then retry
    else fail .unexpected
  | .helo => if code = 250 then advance .negotiate else fail .unexpected
  | .startTls =>
    if code = 220 then advance .encrypt
    else if code = 454 ∨ code = 501 then fail .tlsUnavailable
    else fail .unexpected
  | .auth =>
    if code = 334 then advance .sendPassword
    else if code = 235 then advance .beginTransaction
    else if code ∈ [454, 500, 534, 535, 538] then fail .authRejected
    else fail .unexpected
  | .mail =>
    if code = 250 then advance .firstRecipient
    else if code ∈ [451, 452, 455, 503, 550, 552, 553, 555] then fail .senderRejected
    else fail .unexpected
  | .rcpt =>
    if code = 250 ∨ code = 251 then advance .nextRecipient
    else if code ∈ [450, 451, 452, 455, 503, 550, 551, 552, 553, 555] then
      fail .recipientRejected
    else fail .unexpected
  | .data =>
    if code = 354 then advance .sendBody
    else if code = 250 then advance .quit
    else if code ∈ [450, 451, 452, 503, 550, 552, 554] then fail .messageRejected
    else fail .unexpected
  | .burl =>
    if code = 250 then advance .quit
    else if code ∈ [450, 451, 452, 503, 550, 552, 554] then fail .messageRejected
    else fail .unexpected
  | .quit => if code = 220 ∨ code = 221 then advance .close else fail .unexpected

/-- The code 421 announces that the server closes the connection, whatever it answers. -/
def of (awaited : Awaited) (code : Code) : Decision :=
  if code = 421 then fail .serviceUnavailable
  else match awaited with
    | .greeting => onGreeting code
    | .answer verb => onVerb code verb

end Decision

/-- The error that a refusal is reported as. The text may have been gathered from several lines. -/
def Refusal.error (refusal : Refusal) (awaited : Awaited) (reply : Reply) (text : String) : Error :=
  match refusal with
  | serviceUnavailable => .serviceUnavailable reply.code text
  | tlsUnavailable => .notSupported s!"STARTTLS ({reply.code.toNat}: {text})"
  | authRejected => .authenticationFailed reply.code text
  | senderRejected => .rejected .sender reply.code reply.status text
  | recipientRejected => .rejected .recipient reply.code reply.status text
  | messageRejected => .rejected .message reply.code reply.status text
  | unexpected => .unexpectedReply awaited.name reply.code text

end SmtpClient
