import SmtpClient.Server.Extension
import SmtpClient.Text.Fields
import SmtpClient.Text.Bytes
import SmtpClient.Wire.Reply

namespace SmtpClient

/-- The number that digits write, one plus sign before them allowed, if it is below `2 ^ 64`. -/
def readSize? (cs : List Char) : Option Nat :=
  let digits := if cs.head? = some '+' then cs.tail else cs
  if digits = [] ∨ digits.any (!·.isDigit) then none
  else
    let n := digits.foldl (fun n c => n * 10 + (c.toNat - 48)) 0
    if n < Bytes.limit64 then some n else none

structure Capabilities where
  /-- The name that the server gave in its first line. -/
  hostname : String
  extensions : ExtensionSet
  mechanisms : MechanismSet
  /-- The largest message that the server takes, none if it names no limit. -/
  sizeLimit : Option Nat
  /-- How many lines have been read. -/
  lines : Nat
  complete : Bool
  deriving DecidableEq, Repr

namespace Capabilities

def empty : Capabilities := ⟨"", .empty, .empty, none, 0, false⟩

/-- A line's keyword, and its parameters after the first space or equals sign. -/
def cutLine (text : String) : List Char × List Char :=
  let isCut := fun c => c = ' ' || c = '='
  let cs := trim text.toList
  (cs.takeWhile (!isCut ·), (cs.dropWhile (!isCut ·)).tail)

/-- Reads the parameters of an extension that has some: a limit of zero is no limit. -/
def withParameters (caps : Capabilities) (parameters : List Char) : Extension → Capabilities
  | .auth =>
    { caps with
      mechanisms := ((fields ' ' parameters).filterMap Mechanism.ofKeyword?).foldl
        (fun s m => m.addTo s) caps.mechanisms }
  | .size => { caps with sizeLimit := (readSize? (trim parameters)).filter (0 < ·) }
  | _ => caps

def addLine (caps : Capabilities) (text : String) : Capabilities :=
  match Extension.ofKeyword? (cutLine text).1 with
  | none => caps
  | some e =>
    withParameters { caps with extensions := e.addTo caps.extensions } (cutLine text).2 e

/-- Adds one line of the reply: the first also gives the name, the last completes the set. -/
def addReply (caps : Capabilities) (reply : Reply) : Capabilities :=
  let named :=
    if caps.lines = 0 then { caps with hostname := String.ofList (firstWord reply.text.toList) }
    else caps
  let added := named.addLine reply.text
  { added with lines := added.lines + 1, complete := added.complete || !reply.continues }

def supports (caps : Capabilities) (e : Extension) : Bool := e.isIn caps.extensions

def supportsPlain (caps : Capabilities) : Bool :=
  caps.supports .auth && Mechanism.plain.isIn caps.mechanisms

end Capabilities

end SmtpClient
