import SmtpClient.Json.Value
import SmtpClient.Settings.Basic

/-!
Saved settings. They are written as a JSON object with one member for each setting, timeouts in
whole seconds. They are read from such an object, in which members may be missing, stand in any
order or be unknown, or from a list of the values in the order of the fields.
-/
namespace SmtpClient

inductive Field where
  | host
  | port
  | security
  | requireAuth
  | user
  | clientName
  | connectTimeout
  | exchangeTimeout
  deriving DecidableEq, Repr

namespace Field

def all : List Field :=
  [host, port, security, requireAuth, user, clientName, connectTimeout, exchangeTimeout]

def name : Field → String
  | host => "host"
  | port => "port"
  | security => "security"
  | requireAuth => "require_auth"
  | user => "user"
  | clientName => "client_hostname"
  | connectTimeout => "connect_timeout"
  | exchangeTimeout => "io_timeout"

def ofName? (name : String) : Option Field := all.find? (·.name = name)

end Field

namespace Settings

def save (s : Settings) : Bytes :=
  Utf8.encode (Json.object [
    (Field.host.name, Json.quote s.host),
    (Field.port.name, toString s.port.toNat),
    (Field.security.name, Json.quote s.security.name),
    (Field.requireAuth.name, toString s.requireAuth),
    (Field.user.name, Json.quote s.user),
    (Field.clientName.name, Json.quote s.clientName),
    (Field.connectTimeout.name, toString s.connectTimeout.seconds),
    (Field.exchangeTimeout.name, toString s.exchangeTimeout.seconds)])

end Settings

def Settings.readField (s : Settings) (field : Field) : Json.Scan Settings := fun input =>
  match field with
  | .host => (Json.text input).map fun r => ({ s with host := r.1 }, r.2)
  | .port =>
    (Json.naturalBelow Bytes.limit16 input).map fun r => ({ s with port := .ofNat r.1 }, r.2)
  | .security =>
    (Json.alternative (fun name => Security.all.find? (·.name = name)) input).map
      fun r => ({ s with security := r.1 }, r.2)
  | .requireAuth => (Json.boolean input).map fun r => ({ s with requireAuth := r.1 }, r.2)
  | .user => (Json.text input).map fun r => ({ s with user := r.1 }, r.2)
  | .clientName => (Json.text input).map fun r => ({ s with clientName := r.1 }, r.2)
  | .connectTimeout =>
    (Json.naturalBelow Bytes.limit64 input).map
      fun r => ({ s with connectTimeout := .ofSeconds r.1 }, r.2)
  | .exchangeTimeout =>
    (Json.naturalBelow Bytes.limit64 input).map
      fun r => ({ s with exchangeTimeout := .ofSeconds r.1 }, r.2)

namespace Saved

open Json

theorem length_readField_le (s : Settings) (field : Field) (input : Bytes) :
    ∀ r, s.readField field input = .ok r → r.2.length ≤ input.length := by
  intro r h
  cases field <;> obtain ⟨x, hx, rfl⟩ := map_eq_ok h
  · exact length_text_le _ x hx
  · exact length_naturalBelow_le _ _ x hx
  · exact length_alternative_le _ _ x hx
  · exact length_boolean_le _ x hx
  · exact length_text_le _ x hx
  · exact length_text_le _ x hx
  · exact length_naturalBelow_le _ _ x hx
  · exact length_naturalBelow_le _ _ x hx

structure Progress where
  settings : Settings
  met : List Field

/-- The member under a name, from its colon on. A field may be met only once. -/
def member (p : Progress) (name : String) : Scan Progress := fun input =>
  match Field.ofName? name with
  | none => ((colon input).bind skipValue).map (p, ·)
  | some field =>
    if field ∈ p.met then .error .mismatched
    else ((colon input).bind (p.settings.readField field)).map
      fun r => (⟨r.1, field :: p.met⟩, r.2)

theorem length_member_le (p : Progress) (name : String) (input : Bytes) :
    ∀ r, member p name input = .ok r → r.2.length ≤ input.length := by
  intro r h
  unfold member at h
  repeat' split at h
  · obtain ⟨x, hx, rfl⟩ := map_eq_ok h
    obtain ⟨y, hy, hs⟩ := bind_eq_ok hx
    exact Nat.le_trans (length_skipFrom_le hs) (Nat.le_of_lt (length_colon_lt hy))
  · cases h
  · obtain ⟨x, hx, rfl⟩ := map_eq_ok h
    obtain ⟨y, hy, hs⟩ := bind_eq_ok hx
    exact Nat.le_trans (length_readField_le _ _ _ x hs) (Nat.le_of_lt (length_colon_lt hy))

inductive Next where
  | done (rest : Bytes)
  | name (rest : Bytes)

/-- The bytes after the opening quote of the next name, or after the closing brace. -/
def next (isFirst : Bool) (input : Bytes) : Except Fault Next :=
  match skipSpaces input with
  | [] => .error .truncated
  | b :: rest =>
    if b = 125 then .ok (.done rest)
    else if isFirst then if b = 34 then .ok (.name rest) else .error .malformed
    else if b = 44 then
      match skipSpaces rest with
      | [] => .error .truncated
      | 34 :: rest => .ok (.name rest)
      | _ => .error .malformed
    else .error .malformed

theorem length_next_lt {isFirst : Bool} {input rest : Bytes}
    (h : next isFirst input = .ok (.name rest)) : rest.length < input.length := by
  have hs := length_skipSpaces_le input
  unfold next at h
  split at h
  · cases h
  · next b r hi =>
    rw [hi, List.length_cons] at hs
    have hr := length_skipSpaces_le r
    repeat' split at h
    · cases h
    · cases h; exact hs
    · cases h
    · cases h
    · next hn =>
      cases h
      rw [hn, List.length_cons] at hr
      omega
    · cases h
    · cases h

-- The equations `hn`, `hs` and `hm` show that the input shrinks; the values do not depend on them.
set_option linter.unusedVariables false in
/-- The members of an object up to its closing brace. -/
def members (p : Progress) (isFirst : Bool) (input : Bytes) : Except Fault (Progress × Bytes) :=
  match hn : next isFirst input with
  | .error fault => .error fault
  | .ok (.done rest) => .ok (p, rest)
  | .ok (.name rest) =>
    match hs : string rest with
    | .error fault => .error fault
    | .ok (name, rest) =>
      match hm : member p name rest with
      | .error fault => .error fault
      | .ok (p, rest) => members p false rest
  termination_by input.length
  decreasing_by
    have h1 := length_next_lt hn
    have h2 := length_string_lt hs
    have h3 := length_member_le _ _ _ _ hm
    simp only at h3
    omega

/-- The values of a list up to its closing bracket. Fields at the end may be missing. -/
def elements (settings : Settings) (isFirst : Bool) : List Field → Scan Settings
  | [], input =>
    match skipSpaces input with
    | [] => .error .truncated
    | 93 :: rest => .ok (settings, rest)
    | _ => .error .malformed
  | field :: later, input =>
    match skipSpaces input with
    | [] => .error .truncated
    | b :: rest =>
      if b = 93 then .ok (settings, rest)
      else if isFirst then
        (settings.readField field (b :: rest)).bind fun r => elements r.1 false later r.2
      else if b = 44 then
        match skipSpaces rest with
        | [] => .error .truncated
        | 93 :: _ => .error .malformed
        | value => (settings.readField field value).bind fun r => elements r.1 false later r.2
      else .error .malformed

def value : Scan Settings := fun input =>
  match skipSpaces input with
  | [] => .error .truncated
  | b :: rest =>
    if b = 91 then elements .default true Field.all rest
    else if b = 123 then (members ⟨.default, []⟩ true rest).map fun r => (r.1.settings, r.2)
    else .error (wrongKind b rest)

end Saved

/-- Reads saved settings. Nothing but spaces may follow them. -/
def Settings.load (text : Bytes) : Except Json.Fault Settings :=
  match Saved.value text with
  | .error fault => .error fault
  | .ok (settings, rest) =>
    if Json.skipSpaces rest = [] then .ok settings else .error .malformed

end SmtpClient
