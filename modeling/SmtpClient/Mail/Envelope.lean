import SmtpClient.Mail.Address
import SmtpClient.Text.Bytes

namespace SmtpClient

/-- A URL that stands in a command as one word. -/
def isReference (cs : List Char) : Bool := !cs.isEmpty && !cs.any isBlank

structure Reference where
  url : String
  sound : isReference url.toList = true
  deriving DecidableEq

inductive Payload where
  | message (data : Bytes)
  | reference (target : Reference)
  deriving DecidableEq

/-- How much progress there is to make: the bytes of a message, one step for a reference. -/
def Payload.total : Payload → Nat
  | .message data => data.length
  | .reference _ => 1

structure Envelope where
  sender : Address
  recipients : List Address
  payload : Payload
  some_recipient : recipients ≠ []
  deriving DecidableEq

namespace Envelope

def make (sender : Address) (recipients : List Address) (payload : Payload) :
    Except Error Envelope :=
  if h : recipients = [] then .error (.invalidState "Envelope has no recipients")
  else .ok ⟨sender, recipients, payload, h⟩

def ofMessage (sender : Address) (recipients : List Address) (data : Bytes) :
    Except Error Envelope :=
  make sender recipients (.message data)

/-- A bad URL is reported before a missing recipient. -/
def ofReference (sender : Address) (recipients : List Address) (url : String) :
    Except Error Envelope :=
  if h : isReference url.toList = true then
    make sender recipients (.reference ⟨url, h⟩)
  else .error (.invalidState s!"Invalid BURL reference: {Quoted.encode url}")

end Envelope

end SmtpClient
