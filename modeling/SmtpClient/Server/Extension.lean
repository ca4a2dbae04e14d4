import SmtpClient.Text.Fields

namespace SmtpClient

/-- A text in capitals, as far as its letters are ASCII. -/
def capitals (cs : List Char) : List Char := cs.map Char.toUpper

inductive Extension where
  | startTls
  | size
  | pipelining
  | eightBitMime
  | dsn
  | auth
  | enhancedStatusCodes
  | burl
  deriving DecidableEq, Repr

namespace Extension

def all : List Extension :=
  [startTls, size, pipelining, eightBitMime, dsn, auth, enhancedStatusCodes, burl]

def keyword : Extension → String
  | startTls => "STARTTLS"
  | size => "SIZE"
  | pipelining => "PIPELINING"
  | eightBitMime => "8BITMIME"
  | dsn => "DSN"
  | auth => "AUTH"
  | enhancedStatusCodes => "ENHANCEDSTATUSCODES"
  | burl => "BURL"

def bit : Extension → Nat
  | startTls => 0
  | size => 1
  | pipelining => 2
  | eightBitMime => 3
  | dsn => 4
  | auth => 5
  | enhancedStatusCodes => 6
  | burl => 7

def ofKeyword? (cs : List Char) : Option Extension :=
  all.find? fun e => e.keyword.toList = capitals cs

end Extension

inductive Mechanism where
  | plain
  | login
  deriving DecidableEq, Repr

namespace Mechanism

def all : List Mechanism := [plain, login]

def keyword : Mechanism → String
  | plain => "PLAIN"
  | login => "LOGIN"

def bit : Mechanism → Nat
  | plain => 0
  | login => 1

def ofKeyword? (cs : List Char) : Option Mechanism :=
  all.find? fun m => m.keyword.toList = capitals cs

end Mechanism

/-- A set of numbers below `n`, one bit for each. -/
structure BitSet (n : Nat) where
  bits : BitVec n
  deriving DecidableEq, Repr

namespace BitSet

def empty {n : Nat} : BitSet n := ⟨0#n⟩

def insert {n : Nat} (s : BitSet n) (i : Nat) : BitSet n := ⟨s.bits ||| BitVec.twoPow n i⟩

def contains {n : Nat} (s : BitSet n) (i : Nat) : Bool := s.bits.getLsbD i

theorem contains_empty {n : Nat} (i : Nat) : (empty : BitSet n).contains i = false := by
  simp [empty, contains]

theorem contains_insert {n : Nat} (s : BitSet n) (i j : Nat) :
    (s.insert i).contains j = (s.contains j || (decide (i < n) && decide (i = j))) := by
  simp [insert, contains, BitVec.getLsbD_twoPow]

end BitSet

abbrev ExtensionSet := BitSet 8
abbrev MechanismSet := BitSet 2

namespace Extension

def addTo (e : Extension) (s : ExtensionSet) : ExtensionSet := s.insert e.bit
def isIn (e : Extension) (s : ExtensionSet) : Bool := s.contains e.bit

def members (s : ExtensionSet) : List Extension := all.filter (·.isIn s)

def setOf (es : List Extension) : ExtensionSet := es.foldl (fun s e => e.addTo s) .empty

end Extension

namespace Mechanism

def addTo (m : Mechanism) (s : MechanismSet) : MechanismSet := s.insert m.bit
def isIn (m : Mechanism) (s : MechanismSet) : Bool := s.contains m.bit

def members (s : MechanismSet) : List Mechanism := all.filter (·.isIn s)

def setOf (ms : List Mechanism) : MechanismSet := ms.foldl (fun s m => m.addTo s) .empty

end Mechanism

end SmtpClient
