import SmtpClient.Wire.Command

/-!
Commands on their way: first waiting to be sent, then sent and waiting for their replies. Replies
carry no mark of the command they answer, so the oldest command in flight is the one that the next
reply answers.
-/
namespace SmtpClient

/-- The number of a command, which says when it was issued. A counter of sixty-four bits gives the
same numbers: they are given out one by one, and it would not come round before 2^64 commands. -/
abbrev Tag := Nat

/-- Bytes to be written at once: one command, a batch of commands, or data that is no command. Every
command in them has a tag. -/
structure Transmit where
  data : Bytes
  tags : List Tag
  deriving DecidableEq, Repr

namespace Transmit

def raw (data : Bytes) : Transmit := ⟨data, []⟩

def tagged (tag : Tag) (data : Bytes) : Transmit := ⟨data, [tag]⟩

def append (t u : Transmit) : Transmit := ⟨t.data ++ u.data, t.tags ++ u.tags⟩

instance : Append Transmit := ⟨append⟩

/-- Adds a transmit to a batch, or begins one with it. -/
def joinTo (t : Transmit) : Option Transmit → Transmit
  | none => t
  | some batch => batch ++ t

end Transmit

structure InFlight where
  tag : Tag
  verb : Verb
  deriving DecidableEq, Repr

structure Pipeline where
  /-- How many tags have been given out. The first is one. -/
  issued : Nat
  waiting : List (Tag × Command)
  inFlight : List InFlight
  deriving DecidableEq

namespace Pipeline

def empty : Pipeline := ⟨0, [], []⟩

def enqueue (p : Pipeline) (c : Command) : Pipeline :=
  { p with issued := p.issued + 1, waiting := p.waiting ++ [(p.issued + 1, c)] }

def transmitOf (q : Tag × Command) : Transmit := .tagged q.1 q.2.render

def sent (q : Tag × Command) : InFlight := ⟨q.1, q.2.verb⟩

def drain (p : Pipeline) : Option Transmit × Pipeline :=
  match p.waiting with
  | [] => (none, p)
  | q :: later =>
    (some (transmitOf q), { p with waiting := later, inFlight := p.inFlight ++ [sent q] })

/-- Sends commands in turn, each of them the one that has waited longest, into one batch. -/
def sendInto (batch : Option Transmit) (p : Pipeline) :
    List (Tag × Command) → Option Transmit × Pipeline
  | [] => (batch, p)
  | q :: later =>
    sendInto (some ((transmitOf q).joinTo batch))
      { p with waiting := later, inFlight := p.inFlight ++ [sent q] } later

/-- Sends all commands that wait, in one batch. -/
def drainAll (p : Pipeline) : Option Transmit × Pipeline := sendInto none p p.waiting

def awaiting (p : Pipeline) : Option InFlight := p.inFlight.head?

def acknowledge (p : Pipeline) : Option InFlight × Pipeline :=
  (p.awaiting, { p with inFlight := p.inFlight.tail })

def isInFlight (p : Pipeline) (verb : Verb) : Bool := p.inFlight.any (·.verb = verb)

def isIdle (p : Pipeline) : Bool := p.waiting.isEmpty && p.inFlight.isEmpty

/-- Forgets all commands, but not how many tags were given out. -/
def clear (p : Pipeline) : Pipeline := { p with waiting := [], inFlight := [] }

end Pipeline

end SmtpClient
