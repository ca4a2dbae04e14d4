import SmtpClient.Wire.Reply

namespace SmtpClient

inductive Stage where
  | sender
  | recipient
  | message
  deriving DecidableEq, Repr

def Stage.name : Stage → String
  | .sender => "sender"
  | .recipient => "recipient"
  | .message => "message"

inductive TlsFault where
  | unexpected (text : String)
  | corrupt (what : String)
  deriving DecidableEq, Repr

def TlsFault.message : TlsFault → String
  | .unexpected text => s!"unexpected error: {text}"
  | .corrupt what => s!"received corrupt message of type {what}"

inductive Error where
  | network (text : String)
  | tls (fault : TlsFault)
  | timeout (operation : String)
  | connectionClosed
  | cancelled
  | malformedReply (text : String)
  | serviceUnavailable (code : Code) (text : String)
  | authenticationFailed (code : Code) (text : String)
  | rejected (stage : Stage) (code : Code) (status : Option EnhancedStatus) (text : String)
  | unexpectedReply (command : String) (code : Code) (text : String)
  | invalidAddress (reason : String)
  | messageTooLarge (size limit : Nat)
  | notSupported (feature : String)
  | invalidState (reason : String)
  deriving DecidableEq, Repr

namespace Error

def message : Error → String
  | network text => s!"I/O error: {text}"
  | tls fault => s!"TLS error: {fault.message}"
  | timeout operation => s!"Operation timed out: {operation}"
  | connectionClosed => "Connection closed by server"
  | cancelled => "Submission cancelled"
  | malformedReply text => s!"Malformed reply: {text}"
  | serviceUnavailable code text => s!"Service unavailable ({code.toNat}): {text}"
  | authenticationFailed code text => s!"Authentication failed ({code.toNat}): {text}"
  | rejected stage code _ text => s!"Server rejected {stage.name} ({code.toNat}): {text}"
  | unexpectedReply command code text => s!"Unexpected reply {code.toNat} to {command}: {text}"
  | invalidAddress reason => s!"Invalid email address: {reason}"
  | messageTooLarge size limit =>
    s!"Message of {size} bytes exceeds server limit of {limit} bytes"
  | notSupported feature => s!"Server does not support {feature}"
  | invalidState reason => s!"Invalid state for operation: {reason}"

/-- The message of the error underneath, which only the two transport errors have. -/
def cause? : Error → Option String
  | network text => some text
  | tls fault => some fault.message
  | _ => none

def code? : Error → Option Code
  | serviceUnavailable code _ | authenticationFailed code _ | rejected _ code _ _
  | unexpectedReply _ code _ => some code
  | _ => none

def isPermanent (e : Error) : Bool := e.code?.any Code.isPermanent
def isTransient (e : Error) : Bool := e.code?.any Code.isTransient

def isAuthentication : Error → Bool
  | authenticationFailed _ _ => true
  | _ => false

end Error

end SmtpClient
