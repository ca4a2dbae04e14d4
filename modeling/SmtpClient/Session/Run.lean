import SmtpClient.Session.Script

/-!
A whole submission over a scripted transport. The connection is made, what the dialogue puts out is
written, lines are read for it until it is closed, and the connection is shut down. The trace keeps
every operation of the transport, every call on the dialogue and every event that the caller sees.
-/
namespace SmtpClient

inductive Entry where
  | connect (host : String) (port : UInt16) (encrypted : Bool)
  | writeAttempt (data : Bytes)
  | write (data : Bytes)
  | upgrade (host : String)
  | shutdown (encrypted : Bool)
  | call (c : Call)
  | event (e : Event)
  deriving DecidableEq

structure Session where
  dialogue : Dialogue
  /-- What is left of the script. -/
  steps : List Step
  /-- The bytes of the line that is being read. -/
  buffer : Bytes
  encrypted : Bool
  now : Moment
  trace : List (Moment × Entry)
  /-- The dialogue waits for the encryption handshake. -/
  upgradeDue : Bool
  error : Option Error

namespace Session

def log (s : Session) (e : Entry) : Session := { s with trace := s.trace ++ [(s.now, e)] }

/-- Passes an event on to the caller, who does not see when encryption is due. -/
def report (s : Session) : Event → Session
  | .encryptionDue => { s with upgradeDue := true }
  | .failed error => { s.log (.event (.failed error)) with error := some error }
  | e => s.log (.event e)

def call (s : Session) (c : Call) : Session :=
  let answered := s.dialogue.perform c
  answered.2.events.foldl report { s.log (.call c) with dialogue := answered.1 }

/-- Writes data at once, unless the script says next how a write ends. -/
def write (s : Session) (data : Bytes) : Except Error Unit × Session :=
  match s.steps with
  | .write ending :: later =>
    let tried := { s with steps := later }.log (.writeAttempt data)
    let (result, now) := ending.within s.dialogue.settings.exchangeTimeout "write" s.now
    let ended := { tried with now := now }
    match result with
    | .ok () => (.ok (), ended.log (.write data))
    | .error error => (.error error, ended)
  | _ => (.ok (), s.log (.write data))

/-- Writes what the dialogue has put out, in order. A write that fails is the last. -/
def writeAll (s : Session) : List Transmit → Session
  | [] => s
  | t :: later =>
    match (s.call .poll).write t.data with
    | (.ok (), written) => written.writeAll later
    | (.error error, ended) => ended.call (.lost error)

def writeOut (s : Session) : Session := s.writeAll s.dialogue.outbound

/-- Reads for the dialogue, without a limit while it waits for the password. -/
def read (s : Session) : Read :=
  let deadline :=
    if s.dialogue.parked then none
    else some (s.now + s.dialogue.settings.exchangeTimeout.nanos)
  readLine deadline s.now s.buffer 0 s.steps

def afterRead (s : Session) : Session :=
  { s with steps := s.read.steps, buffer := s.read.buffer, now := s.read.now }

inductive Exit where
  | closed
  /-- The handshake failed and took the connection with it. -/
  | lost
  /-- A read without a limit never ends. -/
  | never
  deriving DecidableEq

/-- Does the encryption handshake, if it is due, and greets again. -/
def encrypt (s : Session) (upgrade : List Step → Ending) : Except Session Session :=
  if s.upgradeDue then
    let host := s.dialogue.settings.host
    let tried := { s with upgradeDue := false }.log (.upgrade host)
    let (result, now) :=
      (upgrade s.steps).within s.dialogue.settings.exchangeTimeout "TLS handshake" s.now
    let ended := { tried with now := now }
    match result with
    | .ok () => .ok ({ ended with encrypted := true }.call .encrypted).writeOut
    | .error error => .error (ended.call (.lost error))
  else .ok s

theorem report_steps (s : Session) (e : Event) : (s.report e).steps = s.steps := by
  cases e <;> rfl

theorem call_steps (s : Session) (c : Call) : (s.call c).steps = s.steps := by
  have h (es : List Event) (t : Session) : (es.foldl report t).steps = t.steps := by
    induction es generalizing t with
    | nil => rfl
    | cons e es ih => rw [List.foldl_cons, ih, report_steps]
  simp only [call, h, log]

theorem write_steps_length_le (s : Session) (data : Bytes) :
    (s.write data).2.steps.length ≤ s.steps.length := by
  unfold write
  split
  · next h =>
    simp only [h, List.length_cons, log]
    split <;> exact Nat.le_succ _
  · exact Nat.le_refl _

theorem writeAll_steps_length_le (s : Session) (ts : List Transmit) :
    (s.writeAll ts).steps.length ≤ s.steps.length := by
  induction ts generalizing s with
  | nil => exact Nat.le_refl _
  | cons t ts ih =>
    have hw := write_steps_length_le (s.call .poll) t.data
    rw [call_steps] at hw
    unfold writeAll
    split
    · next h =>
      rw [h] at hw
      exact Nat.le_trans (ih _) hw
    · next h =>
      rw [h] at hw
      rw [call_steps]
      exact hw

theorem encrypt_steps_length_le (s t : Session) (upgrade : List Step → Ending)
    (h : s.encrypt upgrade = .ok t) : t.steps.length ≤ s.steps.length := by
  unfold encrypt at h
  split at h
  · simp only at h
    split at h
    · cases h
      refine Nat.le_trans (writeAll_steps_length_le _ _) ?_
      rw [call_steps]
      exact Nat.le_refl _
    · cases h
  · cases h
    exact Nat.le_refl _

theorem read_steps_length_lt (s : Session) (h : s.read.ended ≠ .count 0) :
    s.read.steps.length < s.steps.length := readLine_steps_length_lt _ _ _ _ h

-- The equations `h` and `hr` show that the script shrinks; the values do not depend on them.
set_option linter.unusedVariables false in
/-- Writes and reads in turn until the dialogue is closed. -/
def exchange (upgrade : List Step → Ending) (s : Session) : Exit × Session :=
  if s.writeOut.dialogue.isFinished then (.closed, s.writeOut)
  else match h : s.writeOut.encrypt upgrade with
    | .error ended => (.lost, ended)
    | .ok ready =>
      if ready.dialogue.isFinished then (.closed, ready)
      else match hr : ready.read.ended with
        | .never => (.never, ready.afterRead)
        | .fail error => (.closed, ready.afterRead.call (.lost error))
        | .control c => exchange upgrade (ready.afterRead.call c.call)
        | .count n =>
          if n = 0 then (.closed, ready.afterRead.call (.lost .connectionClosed))
          else exchange upgrade
            ({ ready.afterRead with buffer := [] }.call (.line ready.read.buffer))
  termination_by s.steps.length
  decreasing_by
    -- Neither a call nor a write lengthens the script, and a read that goes on shortens it.
    all_goals
      rw [call_steps]
      refine Nat.lt_of_lt_of_le (read_steps_length_lt ready ?_)
        (Nat.le_trans (encrypt_steps_length_le _ _ _ h) (writeAll_steps_length_le _ _))
      rw [hr]
      simp_all

/-- Makes the connection. Controls that arrive meanwhile are applied, and the first fault ends
it. -/
def connectWith (s : Session) (deadline : Moment) (ending : Ending) :
    List Delay → Option (Except Error Unit) × Session
  | .wait length :: later =>
    if s.now + length.nanos ≤ deadline then
      { s with now := s.now + length.nanos }.connectWith deadline ending later
    else (some (.error (.timeout "connect")), { s with now := deadline })
  | .control c :: later =>
    if deadline ≤ s.now then (some (.error (.timeout "connect")), s)
    else
      let told := s.call c.call
      if told.dialogue.isFinished then (none, told)
      else told.connectWith deadline ending later
  | [] =>
    let (result, now) := ending.within ⟨deadline - s.now⟩ "connect" s.now
    (some result, { s with now := now })

/-- Closes the connection. How that ends no longer matters. -/
def shutdown (s : Session) (ending : Ending) : Session :=
  let tried := s.log (.shutdown s.encrypted)
  { tried with
    now := (ending.within s.dialogue.settings.exchangeTimeout "shutdown" s.now).2 }

def verdict (s : Session) : Except Error Unit :=
  match s.error with
  | some error => .error error
  | none => if s.dialogue.succeeded then .ok () else .error .connectionClosed

/-- What the caller gets back, unless the submission never returns, and the session at its end. -/
abbrev Result := Option (Except Error Unit) × Session

def converse (s : Session) (script : Script) : Result :=
  match exchange script.upgrade (s.call .connected) with
  | (.never, ended) => (none, ended)
  | (.lost, ended) => (some ended.verdict, ended)
  | (.closed, ended) =>
    let last := ended.shutdown script.shutdown
    (some last.verdict, last)

def drive (s : Session) (script : Script) : Result :=
  let settings := s.dialogue.settings
  let tried := s.log (.connect settings.host settings.port settings.usesImplicitTls)
  match tried.connectWith (s.now + settings.connectTimeout.nanos) script.connect script.delays with
  | (none, ended) => (some ended.verdict, ended)
  | (some (.error error), ended) =>
    let last := ended.call (.lost error)
    (some last.verdict, last)
  | (some (.ok ()), connected) =>
    converse { connected with encrypted := settings.usesImplicitTls } script

def start (settings : Settings) (password : Option String) (script : Script) : Session :=
  let fresh : Session := ⟨.start settings, script.steps, [], false, 0, [], false, none⟩
  match password with
  | some text => fresh.call (.password text)
  | none => fresh

/-- Submits an envelope. What is wrong with it is reported before any connection is made. -/
def run (settings : Settings) (password : Option String) (envelope : Except Error Envelope)
    (script : Script) : Result :=
  let s := start settings password script
  match envelope with
  | .error error => (some (.error error), s.log (.event (.failed error)))
  | .ok e =>
    match s.dialogue.submit e with
    | .error error => (some (.error error), s.log (.event (.failed error)))
    | .ok _ => drive (s.call (.submit e)) script

def describe (settings : Settings) (password : Option String) : String :=
  "Submission \x7b config: " ++ settings.describe ++
    ", has_credential: " ++ toString password.isSome ++ ", .. \x7d"

/-- What an observer who leaves at a moment has seen of a session: whether it has returned by then,
when it did or the observer left, and the entries up to then. -/
def seenUntil (limit : Moment) : Result → Option (Except Error Unit) × Moment × List Entry
  | (some verdict, s) =>
    if s.now ≤ limit then (some verdict, s.now, s.trace.map (·.2))
    else (none, limit, (s.trace.filter (·.1 ≤ limit)).map (·.2))
  | (none, s) => (none, limit, (s.trace.filter (·.1 ≤ limit)).map (·.2))

end Session

end SmtpClient
