import SmtpClient.Error
import SmtpClient.Text.Fields
import SmtpClient.Text.Quoted

namespace SmtpClient

inductive AddressFault where
  | empty
  | forbidden
  | noAt
  | manyAts
  | emptyPart
  deriving DecidableEq, Repr

namespace AddressFault

/-- Characters that would break out of an address in a command. -/
def isForbidden (c : Char) : Bool := c = '<' || c = '>' || isBlank c

/-- The first fault of a text, in the order of the constructors. -/
def find? (cs : List Char) : Option AddressFault :=
  if cs = [] then some empty
  else if cs.any isForbidden then some forbidden
  else match fields '@' cs with
    | [name, domain] => if name = [] ∨ domain = [] then some emptyPart else none
    | [_] | [] => some noAt
    | _ => some manyAts

def message (text : String) : AddressFault → String
  | empty => "Address cannot be empty"
  | forbidden => s!"Address contains forbidden characters: {Quoted.encode text}"
  | noAt => "Address must contain @"
  | manyAts => "Address must have exactly one @"
  | emptyPart => "Local and domain parts cannot be empty"

end AddressFault

structure Address where
  text : String
  sound : AddressFault.find? text.toList = none
  deriving DecidableEq

namespace Address

def parse (text : String) : Except Error Address :=
  match h : AddressFault.find? text.toList with
  | none => .ok ⟨text, h⟩
  | some fault => .error (.invalidAddress (fault.message text))

/-- The address as commands carry it. -/
def path (a : Address) : String := s!"<{a.text}>"

end Address

end SmtpClient
