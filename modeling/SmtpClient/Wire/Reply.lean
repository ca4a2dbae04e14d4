namespace SmtpClient

/-- A reply code. The first digit tells its class. -/
abbrev Code := UInt16

namespace Code

def isSuccess (code : Code) : Bool := 200 ≤ code && code < 300
def isIntermediate (code : Code) : Bool := 300 ≤ code && code < 400
def isTransient (code : Code) : Bool := 400 ≤ code && code < 500
def isPermanent (code : Code) : Bool := 500 ≤ code && code < 600

end Code

/-- An enhanced status, written as three numbers with dots between them. -/
structure EnhancedStatus where
  category : UInt16
  subject : UInt16
  detail : UInt16
  deriving DecidableEq, Repr

def EnhancedStatus.render (s : EnhancedStatus) : String :=
  s!"{s.category.toNat}.{s.subject.toNat}.{s.detail.toNat}"

/-- One line of a reply. -/
structure Reply where
  code : Code
  status : Option EnhancedStatus
  text : String
  continues : Bool
  deriving DecidableEq, Repr

/-- The line without its end: a hyphen after the code announces another line. -/
def Reply.render (r : Reply) : String :=
  toString r.code.toNat ++ (if r.continues then "-" else " ") ++
    (r.status.elim "" fun s => s.render ++ " ") ++ r.text

end SmtpClient
