import SmtpClient.Settings.Basic

namespace SmtpClient

structure Draft where
  host : String
  port : Option UInt16
  security : Security
  user : Option String
  clientName : Option String
  connectTimeout : Timeout
  exchangeTimeout : Timeout
  deriving DecidableEq

namespace Draft

def ofHost (host : String) : Draft :=
  ⟨host, none, .startTls, none, none, .ofSeconds 30, .ofSeconds 60⟩

/-- A choice that a draft records. A later choice of the same kind replaces an earlier one. -/
inductive Choice where
  | port (n : UInt16)
  | security (s : Security)
  | user (name : String)
  | clientName (name : String)
  | connectTimeout (t : Timeout)
  | exchangeTimeout (t : Timeout)
  deriving DecidableEq

def choose (d : Draft) : Choice → Draft
  | .port n => { d with port := some n }
  | .security s => { d with security := s }
  | .user name => { d with user := some name }
  | .clientName name => { d with clientName := some name }
  | .connectTimeout t => { d with connectTimeout := t }
  | .exchangeTimeout t => { d with exchangeTimeout := t }

def finish (d : Draft) : Settings where
  host := d.host
  port := d.port.getD d.security.defaultPort
  security := d.security
  requireAuth := d.user.isSome
  user := d.user.getD ""
  clientName := d.clientName.getD "localhost"
  connectTimeout := d.connectTimeout
  exchangeTimeout := d.exchangeTimeout

end Draft

end SmtpClient
