import SmtpClient.Mail.Envelope
import SmtpClient.Server.Extension
import SmtpClient.Text.Utf8

namespace SmtpClient

/-- The verb that decides how the reply to a command is read. -/
inductive Verb where
  | helo
  | ehlo
  | startTls
  | auth
  | mail
  | rcpt
  | data
  | burl
  | quit
  deriving DecidableEq, Repr

def Verb.name : Verb → String
  | helo => "HELO"
  | ehlo => "EHLO"
  | startTls => "STARTTLS"
  | auth => "AUTH"
  | mail => "MAIL"
  | rcpt => "RCPT"
  | data => "DATA"
  | burl => "BURL"
  | quit => "QUIT"

inductive Command where
  | helo (client : String)
  | ehlo (client : String)
  | startTls
  | auth (mechanism : Mechanism)
  /-- The answer to a challenge, already in base64. It belongs to the AUTH before it. -/
  | response (encoded : String)
  | mail (sender : Address) (size : Option Nat)
  | rcpt (recipient : Address)
  | data
  | burl (url : String)
  | quit
  deriving DecidableEq

namespace Command

def verb : Command → Verb
  | helo _ => .helo
  | ehlo _ => .ehlo
  | startTls => .startTls
  | auth _ | response _ => .auth
  | mail _ _ => .mail
  | rcpt _ => .rcpt
  | data => .data
  | burl _ => .burl
  | quit => .quit

def words : Command → List String
  | helo client => ["HELO", client]
  | ehlo client => ["EHLO", client]
  | startTls => ["STARTTLS"]
  | auth mechanism => ["AUTH", mechanism.keyword]
  | response encoded => [encoded]
  | mail sender size =>
    ["MAIL", "FROM:" ++ sender.path] ++ (size.map fun n => "SIZE=" ++ toString n).toList
  | rcpt recipient => ["RCPT", "TO:" ++ recipient.path]
  | data => ["DATA"]
  | burl url => ["BURL", url, "LAST"]
  | quit => ["QUIT"]

def render (c : Command) : Bytes :=
  [Bytes.space].intercalate (c.words.map Utf8.encode) ++ Bytes.crlf

/-- The command as a log may show it, without the password. -/
def redacted : Command → String
  | response _ => "<credentials>"
  | c => " ".intercalate c.words

end Command

end SmtpClient
