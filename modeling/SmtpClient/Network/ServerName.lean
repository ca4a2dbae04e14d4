import SmtpClient.Text.Fields

/-!
Outer layer. Names under which a server can prove who it is: domain names and addresses of the two
kinds. They stand for the check that the encryption of a connection makes, and nothing is proved of
them.
-/
namespace SmtpClient.ServerName

def isLabelChar (c : Char) : Bool := c.isAlphanum || c = '-' || c = '_'

/-- A part of a domain name: up to 63 letters, digits, hyphens and underscores, no hyphen at its
ends. -/
def isLabel (cs : List Char) : Bool :=
  cs ≠ [] && cs.length ≤ 63 && cs.all isLabelChar && cs.head? ≠ some '-' && cs.getLast? ≠ some '-'

/-- Labels with dots between them, the last one not a number. One more dot may follow. -/
def isDomain (name : List Char) : Bool :=
  let labels := fields '.' name
  let labels := if labels.getLast? = some [] then labels.dropLast else labels
  name.length ≤ 253 && labels ≠ [] && labels.all isLabel &&
    labels.getLast?.any fun label => !label.all Char.isDigit

/-- A number up to 255 without needless zeros. -/
def isOctet (cs : List Char) : Bool :=
  cs ≠ [] && cs.length ≤ 3 && cs.all Char.isDigit && (cs.length = 1 || cs.head? ≠ some '0') &&
    cs.foldl (fun n c => n * 10 + (c.toNat - 48)) 0 ≤ 255

def isIPv4 (name : List Char) : Bool :=
  let octets := fields '.' name
  octets.length = 4 && octets.all isOctet

def isHexGroup (cs : List Char) : Bool :=
  cs ≠ [] && cs.length ≤ 4 &&
    cs.all fun c => c.isDigit || ('a' ≤ c && c ≤ 'f') || ('A' ≤ c && c ≤ 'F')

/-- How many groups of sixteen bits the parts stand for, none if one of them is bad. The last part
may be an address of the older kind. -/
def countGroups? : List (List Char) → Option Nat
  | [] => some 0
  | [last] => if isHexGroup last then some 1 else if isIPv4 last then some 2 else none
  | part :: later => if isHexGroup part then (countGroups? later).map (· + 1) else none

/-- The groups before and after the first pair of colons, or all groups if there is none. -/
def splitGap (name : List Char) : List Char × Option (List Char) :=
  match name with
  | [] => ([], none)
  | ':' :: ':' :: rest => ([], some rest)
  | c :: rest => (c :: (splitGap rest).1, (splitGap rest).2)

def groupsOf (cs : List Char) : List (List Char) := if cs = [] then [] else fields ':' cs

def isIPv6 (name : List Char) : Bool :=
  match splitGap name with
  | (whole, none) => countGroups? (groupsOf whole) = some 8
  | (head, some tail) =>
    (groupsOf head).all isHexGroup &&
      match countGroups? (groupsOf tail) with
      | some n => (groupsOf head).length + n ≤ 7
      | none => false

def isValid (name : List Char) : Bool := isDomain name || isIPv4 name || isIPv6 name

end SmtpClient.ServerName
