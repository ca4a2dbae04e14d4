import SmtpClient.Text.Fields

namespace SmtpClient

abbrev Bytes := List UInt8

namespace Bytes

abbrev lf : UInt8 := 10
abbrev cr : UInt8 := 13
abbrev space : UInt8 := 32
abbrev dot : UInt8 := 46

/-- The end of every line that the client writes. -/
def crlf : Bytes := [cr, lf]

/-- The lines of a stream, each with the LF that ends it. -/
def lines (stream : Bytes) : List Bytes := linesOf lf stream

theorem flatten_lines (stream : Bytes) : stream.lines.flatten = stream :=
  flatten_linesOf lf stream

def isDigit (b : UInt8) : Bool := 48 ≤ b && b ≤ 57

abbrev limit16 : Nat := 65536

/-- One more than the largest number of sixty-four bits. -/
abbrev limit64 : Nat := 18446744073709551616

/-- The value of a run of ASCII digits, none for anything else. -/
def digits? (bs : Bytes) : Option Nat :=
  if bs.isEmpty || !bs.all isDigit then none
  else some (bs.foldl (fun n b => n * 10 + (b.toNat - 48)) 0)

end Bytes

end SmtpClient
