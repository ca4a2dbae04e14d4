import SmtpClient.Text.Bytes
import SmtpClient.Text.Quoted

namespace SmtpClient

structure Duration where
  nanos : Nat
  deriving DecidableEq, Repr

namespace Duration

def ofSeconds (n : Nat) : Duration := ⟨n * 1000000000⟩
def ofMillis (n : Nat) : Duration := ⟨n * 1000000⟩

def seconds (d : Duration) : Nat := d.nanos / 1000000000

theorem seconds_ofSeconds (n : Nat) : (ofSeconds n).seconds = n := Nat.mul_div_cancel n (by decide)

theorem seconds_ofMillis_le (n : Nat) : (ofMillis n).seconds ≤ n := by
  simp only [seconds, ofMillis]
  omega

/-- A number of units and a rest below one unit of `size`, which is a power of ten, with as many
decimals as the rest needs. -/
def describeIn (size : Nat) (unit : String) (nanos : Nat) : String :=
  let width := (Nat.toDigits 10 size).length - 1
  let decimals := (Nat.toDigits 10 (size + nanos % size)).drop 1
  let kept := ((decimals.take width).reverse.dropWhile (· = '0')).reverse
  toString (nanos / size) ++ (if kept = [] then "" else "." ++ String.ofList kept) ++ unit

/-- The length in the largest unit that it reaches. -/
def describe (d : Duration) : String :=
  if 1000000000 ≤ d.nanos then describeIn 1000000000 "s" d.nanos
  else if 1000000 ≤ d.nanos then describeIn 1000000 "ms" d.nanos
  else if 1000 ≤ d.nanos then describeIn 1000 "µs" d.nanos
  else describeIn 1 "ns" d.nanos

end Duration

/-- A length of time as settings hold it: its seconds have sixty-four bits. -/
structure Timeout extends Duration where
  fits : toDuration.seconds < Bytes.limit64
  deriving DecidableEq

namespace Timeout

instance : Coe Timeout Duration := ⟨toDuration⟩

/-- A number of seconds, of which sixty-four bits are taken. -/
def ofSeconds (n : Nat) : Timeout where
  toDuration := .ofSeconds (n % Bytes.limit64)
  fits := by
    rw [Duration.seconds_ofSeconds]
    exact Nat.mod_lt n (by decide)

/-- A number of thousandths, of which sixty-four bits are taken. -/
def ofMillis (n : Nat) : Timeout where
  toDuration := .ofMillis (n % Bytes.limit64)
  fits := Nat.lt_of_le_of_lt (Duration.seconds_ofMillis_le _) (Nat.mod_lt n (by decide))

end Timeout

inductive Security where
  | none
  | startTls
  | implicit
  deriving DecidableEq, Repr

namespace Security

def defaultPort : Security → UInt16
  | none => 25
  | startTls => 587
  | implicit => 465

def name : Security → String
  | none => "none"
  | startTls => "start_tls"
  | implicit => "implicit"

def all : List Security := [none, startTls, implicit]

def describe : Security → String
  | none => "None"
  | startTls => "StartTls"
  | implicit => "Implicit"

end Security

structure Settings where
  host : String
  port : UInt16
  security : Security
  requireAuth : Bool
  user : String
  clientName : String
  connectTimeout : Timeout
  exchangeTimeout : Timeout
  deriving DecidableEq

namespace Settings

/-- STARTTLS on its own port, without authentication. -/
def ofHost (host : String) : Settings where
  host := host
  port := Security.startTls.defaultPort
  security := .startTls
  requireAuth := false
  user := ""
  clientName := "localhost"
  connectTimeout := .ofSeconds 30
  exchangeTimeout := .ofSeconds 60

/-- What stands in place of a setting that is not given. -/
def default : Settings := ofHost "localhost"

def usesImplicitTls (s : Settings) : Bool := s.security = .implicit
def usesStartTls (s : Settings) : Bool := s.security = .startTls

def describe (s : Settings) : String :=
  "SubmissionConfig \x7b host: " ++ Quoted.encode s.host ++
    ", port: " ++ toString s.port.toNat ++
    ", security: " ++ s.security.describe ++
    ", require_auth: " ++ toString s.requireAuth ++
    ", user: " ++ Quoted.encode s.user ++
    ", client_hostname: " ++ Quoted.encode s.clientName ++
    ", connect_timeout: " ++ s.connectTimeout.describe ++
    ", io_timeout: " ++ s.exchangeTimeout.describe ++ " \x7d"

end Settings

end SmtpClient
