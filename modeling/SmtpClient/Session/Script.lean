import SmtpClient.Dialogue.Calls

/-!
A scripted transport. The script says what the server sends and when, how each operation of the
connection ends, and when the caller gives the password or cancels. Time passes only where the
script or a timeout lets it pass.
-/
namespace SmtpClient

/-- A moment, in nanoseconds since the submission began. -/
abbrev Moment := Nat

inductive Ending where
  | ok
  | stall
  | wait (length : Duration)
  | fail (error : Error)
  deriving DecidableEq

inductive Control where
  | password (text : String)
  | cancel
  deriving DecidableEq

def Control.call : Control → Call
  | password text => .password text
  | cancel => .cancel

inductive Delay where
  | wait (length : Duration)
  | control (c : Control)
  deriving DecidableEq

/-- What happens while the client reads. `line` and `raw` end the read, `part` does not. -/
inductive Step where
  | line (bytes : Bytes)
  | raw (bytes : Bytes)
  | part (bytes : Bytes)
  | wait (length : Duration)
  | fail (error : Error)
  | stall
  | control (c : Control)
  /-- How the next write ends. A read passes over it. -/
  | write (ending : Ending)
  deriving DecidableEq

structure Script where
  delays : List Delay
  connect : Ending
  steps : List Step
  /-- How the encryption handshake ends, given what the server has still to send. -/
  upgrade : List Step → Ending
  shutdown : Ending

/-- An operation with a limit: whether it succeeds, and when it is over. At the limit itself an
operation that is ready still succeeds. -/
def Ending.within (ending : Ending) (limit : Duration) (operation : String) (now : Moment) :
    Except Error Unit × Moment :=
  match ending with
  | .ok => (.ok (), now)
  | .fail error => (.error error, now)
  | .stall => (.error (.timeout operation), now + limit.nanos)
  | .wait length =>
    if length.nanos ≤ limit.nanos then (.ok (), now + length.nanos)
    else (.error (.timeout operation), now + limit.nanos)

inductive ReadEnd where
  | count (n : Nat)
  | fail (error : Error)
  | control (c : Control)
  | never
  deriving DecidableEq

/-- A read that is over: how it ended and when, what is left of the script, and what stands in the
buffer, which keeps the bytes of an interrupted read. -/
structure Read where
  ended : ReadEnd
  now : Moment
  steps : List Step
  buffer : Bytes

/-- Reads a line into the buffer, counting the bytes that this read adds. -/
def readLine (deadline : Option Moment) (now : Moment) (buffer : Bytes) (count : Nat) :
    List Step → Read
  | [] => ⟨.count count, now, [], buffer⟩
  | .line bytes :: later =>
    ⟨.count (count + bytes.length + 2), now, later, buffer ++ bytes ++ Bytes.crlf⟩
  | .raw bytes :: later => ⟨.count (count + bytes.length), now, later, buffer ++ bytes⟩
  | .part bytes :: later => readLine deadline now (buffer ++ bytes) (count + bytes.length) later
  | .wait length :: later =>
    match deadline with
    | some end_ =>
      if end_ < now + length.nanos then ⟨.fail (.timeout "read"), end_, later, buffer⟩
      else readLine deadline (now + length.nanos) buffer count later
    | none => readLine deadline (now + length.nanos) buffer count later
  | .fail error :: later => ⟨.fail error, now, later, buffer⟩
  | .stall :: later =>
    match deadline with
    | some end_ => ⟨.fail (.timeout "read"), end_, later, buffer⟩
    | none => ⟨.never, now, later, buffer⟩
  | .control c :: later =>
    if deadline.any (· ≤ now) then ⟨.fail (.timeout "read"), now, later, buffer⟩
    else ⟨.control c, now, later, buffer⟩
  | .write _ :: later => readLine deadline now buffer count later

theorem readLine_steps_length_le (deadline : Option Moment) (now : Moment) (buffer : Bytes)
    (count : Nat) (steps : List Step) :
    (readLine deadline now buffer count steps).steps.length ≤ steps.length := by
  fun_induction readLine deadline now buffer count steps <;> simp_all <;> omega

/-- A read that adds bytes or is interrupted uses up a part of the script. -/
theorem readLine_steps_length_lt (deadline : Option Moment) (now : Moment) (buffer : Bytes)
    (steps : List Step) (h : (readLine deadline now buffer 0 steps).ended ≠ .count 0) :
    (readLine deadline now buffer 0 steps).steps.length < steps.length := by
  cases steps with
  | nil => simp [readLine] at h
  | cons step later =>
    have hle := fun now buffer count => readLine_steps_length_le deadline now buffer count later
    cases step <;> simp only [readLine, List.length_cons]
    case part => exact Nat.lt_succ_of_le (hle _ _ _)
    case write => exact Nat.lt_succ_of_le (hle _ _ _)
    case wait =>
      split
      · split
        · exact Nat.lt_succ_self _
        · exact Nat.lt_succ_of_le (hle _ _ _)
      · exact Nat.lt_succ_of_le (hle _ _ _)
    case stall => split <;> exact Nat.lt_succ_self _
    case control => split <;> exact Nat.lt_succ_self _
    all_goals exact Nat.lt_succ_self _

end SmtpClient
