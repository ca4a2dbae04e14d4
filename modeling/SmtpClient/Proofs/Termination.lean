import Mathlib.Data.List.Chain
import SmtpClient.Proofs.Discipline

/-!
The end of a submission. Every round of an exchange uses up a part of the script, so there are no
more rounds than the script has steps. What the driver comes to that never completes ends in its
timeout, with one exception: the read that has no limit, because the dialogue is parked and only the
password can let it go on.
-/
namespace SmtpClient

def Step.isPassing : Step → Bool
  | part _ | wait _ | write _ => true
  | _ => false

/-- A script in which a read comes to nothing that could end it. -/
def Starves (steps : List Step) : Prop :=
  ∃ passed later, steps = passed ++ .stall :: later ∧ ∀ step ∈ passed, step.isPassing = true

theorem starves_stall (later : List Step) : Starves (.stall :: later) :=
  ⟨[], later, rfl, by simp⟩

theorem starves_cons {step : Step} (hstep : step ≠ .stall) (later : List Step) :
    Starves (step :: later) ↔ step.isPassing = true ∧ Starves later := by
  constructor
  · rintro ⟨passed, rest, heq, hpassed⟩
    cases passed with
    | nil => exact absurd (List.cons.inj heq).1 hstep
    | cons first passed =>
      obtain ⟨rfl, rfl⟩ := List.cons.inj heq
      rw [List.forall_mem_cons] at hpassed
      exact ⟨hpassed.1, passed, rest, rfl, hpassed.2⟩
  · rintro ⟨hpassing, passed, rest, rfl, hpassed⟩
    refine ⟨step :: passed, rest, rfl, ?_⟩
    rw [List.forall_mem_cons]
    exact ⟨hpassing, hpassed⟩

/-- A read never ends exactly if it has no limit and nothing else ends it. -/
theorem readLine_never_iff (deadline : Option Moment) (now : Moment) (buffer : Bytes) (count : Nat)
    (steps : List Step) :
    (readLine deadline now buffer count steps).ended = .never ↔
      deadline = none ∧ Starves steps := by
  have hpasses {step : Step} (hstep : step ≠ .stall) (hpassing : step.isPassing = true)
      (later : List Step) : Starves (step :: later) ↔ Starves later := by
    rw [starves_cons hstep, hpassing]
    exact and_iff_right rfl
  have hends {e : ReadEnd} (hended : e ≠ .never) {step : Step} (hstep : step ≠ .stall)
      (hpassing : step.isPassing = false) (later : List Step) :
      e = .never ↔ deadline = none ∧ Starves (step :: later) := by
    rw [starves_cons hstep, hpassing]
    simp [hended]
  induction steps generalizing now buffer count with
  | nil =>
    refine iff_of_false (by simp [readLine]) ?_
    rintro ⟨-, passed, later, heq, -⟩
    simp at heq
  | cons step later ih =>
    cases step with
    | line bytes => exact hends (by simp [readLine]) (by simp) rfl later
    | raw bytes => exact hends (by simp [readLine]) (by simp) rfl later
    | fail error => exact hends (by simp [readLine]) (by simp) rfl later
    | part bytes =>
      rw [hpasses (by simp) rfl]
      exact ih now (buffer ++ bytes) (count + bytes.length)
    | write ending =>
      rw [hpasses (by simp) rfl]
      exact ih now buffer count
    | wait length =>
      rw [hpasses (by simp) rfl]
      cases deadline with
      | none => exact ih (now + length.nanos) buffer count
      | some end_ =>
        simp only [readLine]
        split
        · simp
        · exact ih (now + length.nanos) buffer count
    | stall =>
      have hstarves := starves_stall later
      cases deadline with
      | none => simp [readLine, hstarves]
      | some end_ => simp [readLine]
    | control c =>
      refine Iff.trans ?_ (hends (e := .control c) (by simp) (by simp) rfl later)
      rw [readLine]
      split <;> simp

/-- A read with a limit that nothing else ends is over when the limit is reached. -/
theorem readLine_of_starves {end_ : Moment} {steps : List Step} (h : Starves steps) (now : Moment)
    (buffer : Bytes) (count : Nat) :
    (readLine (some end_) now buffer count steps).ended = .fail (.timeout "read") ∧
      (readLine (some end_) now buffer count steps).now = end_ := by
  obtain ⟨passed, later, rfl, hpassed⟩ := h
  -- on what the read passes over, at the end of which it comes to the stall
  induction passed generalizing now buffer count with
  | nil => exact ⟨rfl, rfl⟩
  | cons step passed ih =>
    rw [List.forall_mem_cons] at hpassed
    have hrest (now : Moment) (buffer : Bytes) (count : Nat) := ih now buffer count hpassed.2
    cases step with
    | part bytes => exact hrest now (buffer ++ bytes) (count + bytes.length)
    | write ending => exact hrest now buffer count
    | wait length =>
      simp only [List.cons_append, readLine]
      split
      · exact ⟨rfl, rfl⟩
      · exact hrest (now + length.nanos) buffer count
    | _ => cases hpassed.1

def Call.isPoll : Call → Bool
  | poll => true
  | _ => false

namespace Session

variable {upgrade : List Step → Ending}

/-- A read never ends exactly if it has no limit, as the dialogue is parked, and the script lets it
starve. -/
theorem read_never_iff (s : Session) :
    s.read.ended = .never ↔ s.dialogue.parked = true ∧ Starves s.steps := by
  rw [read, readLine_never_iff]
  cases s.dialogue.parked <;> simp

/-- A read that starves ends at its limit. -/
theorem read_of_starves {s : Session} (hparked : s.dialogue.parked = false)
    (h : Starves s.steps) :
    s.read.ended = .fail (.timeout "read") ∧
      s.read.now = s.now + s.dialogue.settings.exchangeTimeout.nanos := by
  rw [read, hparked]
  exact readLine_of_starves h s.now s.buffer 0

/-- A round uses up a part of the script. -/
theorem Round.steps_length_lt {s t : Session} (h : Round upgrade s t) :
    t.steps.length < s.steps.length := by
  have hread {ready : Session} (hready : Ready upgrade s ready) (hended : ready.read.ended ≠ .count 0) :
      ready.read.steps.length < s.steps.length := by
    calc
      ready.read.steps.length < ready.steps.length := ready.read_steps_length_lt hended
      _ ≤ s.writeOut.steps.length := encrypt_steps_length_le _ _ _ hready.encrypt_eq
      _ ≤ s.steps.length := writeAll_steps_length_le _ _
  cases h with
  | told ready c hready hended =>
    rw [call_steps]
    exact hread hready (by simp [hended])
  | heard ready n hready hended hn =>
    rw [call_steps]
    exact hread hready (by simp [hended, hn])

/-- There are no more rounds than the script has steps. -/
theorem length_le_of_rounds {s : Session} {later : List Session}
    (h : (s :: later).IsChain (Round upgrade)) : later.length ≤ s.steps.length := by
  induction later generalizing s with
  | nil => exact Nat.zero_le _
  | cons t later ih =>
    obtain ⟨hround, hrest⟩ := List.isChain_cons_cons.mp h
    have hlt := hround.steps_length_lt
    have hle := ih hrest
    rw [List.length_cons]
    omega

/-- An exchange ends as it does from any of its rounds on. -/
theorem Round.exchange_eq {s t : Session} (h : Round upgrade s t) :
    exchange upgrade s = exchange upgrade t := by
  cases h with
  | told ready c hready hended => rw [hready.exchange_eq, proceed, hended]
  | heard ready n hready hended hn => rw [hready.exchange_eq, proceed, hended]; exact if_neg hn

/-- An exchange goes on from every round as it would have from there. -/
theorem exchange_eq_of_rounds {s t : Session} (h : Rounds upgrade s t) :
    exchange upgrade s = exchange upgrade t := by
  induction h with
  | refl => rfl
  | tail _ hlast ih => rw [ih, hlast.exchange_eq]

/-- A call is noted at its moment, and what stands in the trace is left there. -/
theorem trace_call (s : Session) (c : Call) :
    s.trace ++ [(s.now, .call c)] <+: (s.call c).trace := by
  have hreport (es : List Event) (t : Session) : t.trace <+: (es.foldl report t).trace := by
    induction es generalizing t with
    | nil => exact List.prefix_rfl
    | cons e later ih =>
      have hone : t.trace <+: (t.report e).trace := by
        cases e with
        | encryptionDue => exact List.prefix_rfl
        | _ => exact List.prefix_append _ _
      exact hone.trans (ih (t.report e))
  exact hreport (s.dialogue.eventsOf c)
    { s.log (.call c) with dialogue := (s.dialogue.perform c).1 }

theorem call_now (s : Session) (c : Call) : (s.call c).now = s.now := by
  have hreport (es : List Event) (t : Session) : (es.foldl report t).now = t.now := by
    induction es generalizing t with
    | nil => rfl
    | cons e later ih =>
      have hone : (t.report e).now = t.now := by cases e <;> rfl
      rw [List.foldl_cons, ih, hone]
  exact hreport (s.dialogue.eventsOf c)
    { s.log (.call c) with dialogue := (s.dialogue.perform c).1 }

theorem mem_trace_call (s : Session) (c : Call) {now : Moment} (h : s.now = now) :
    (now, .call c) ∈ (s.call c).trace := by
  rw [← h]
  exact (s.trace_call c).subset (by simp)

theorem Attends.settings_eq {settings : Settings} {s : Session} (h : s.Attends settings) :
    s.dialogue.settings = settings := by
  rw [h.dialogue_eq, Dialogue.settings_after]

inductive Written (s : Session) : Session → Prop
  | none : Written s s
  | next {u v : Session} (h : Written s u) (t : Transmit) (later : List Transmit)
    (hout : u.dialogue.outbound = t :: later) (hw : (u.call .poll).write t.data = (.ok (), v)) :
    Written s v

theorem Written.operations {s u : Session} (h : Written s u) : Operations upgrade s u := by
  induction h with
  | none => exact .refl
  | @next u v _ t later hout hw ih =>
    have hwrite : Operation upgrade u ((u.call .poll).write t.data).2 := .write t later hout
    rw [hw] at hwrite
    exact ih.tail hwrite

/-- What is left is written as if it were all. -/
theorem Written.writeOut_eq {s u : Session} (h : Written s u) : s.writeOut = u.writeOut := by
  induction h with
  | none => rfl
  | @next u v _ t later hout hw ih =>
    have hleft : v.dialogue.outbound = later := by
      have hdialogue := ((u.call .poll).write_cases t.data).1
      rw [hw, call_dialogue] at hdialogue
      rw [hdialogue]
      exact congrArg List.tail hout
    rw [ih, writeOut, hout, writeAll, hw, writeOut, hleft]

/-- A write that fails is the last, and takes the dialogue with it. -/
theorem writeOut_of_error {u ended : Session} {t : Transmit} {later : List Transmit}
    {error : Error} (hout : u.dialogue.outbound = t :: later)
    (hw : (u.call .poll).write t.data = (.error error, ended)) :
    u.writeOut = ended.call (.lost error) := by
  rw [writeOut, hout, writeAll, hw]

inductive Flushes (upgrade : List Step → Ending) (s : Session) : Session → Prop
  | first : Flushes upgrade s s
  | secured (now : Moment) (hopen : s.writeOut.dialogue.isFinished = false)
    (hdue : s.writeOut.upgradeDue = true) (h : s.writeOut.handshake upgrade = (.ok (), now)) :
    Flushes upgrade s
      (call { s.writeOut.upgrading with now := now, encrypted := true } .encrypted)

theorem Flushes.operations {s w : Session} (h : Flushes upgrade s w) :
    Operations upgrade s w := by
  cases h with
  | first => exact .refl
  | secured now hopen hdue hok => exact s.operations_writeOut.tail (.secured now hdue hok)

/-- Where a dialogue is closed in the writing, the exchange is over. -/
theorem Flushes.exchange_eq {s w : Session} (h : Flushes upgrade s w)
    (hfinished : w.writeOut.dialogue.isFinished = true) :
    exchange upgrade s = (.closed, w.writeOut) := by
  cases h with
  | first => exact (Ends.finished hfinished).exchange_eq
  | secured now hopen hdue hok =>
    refine (Ends.secured _ hopen ?_ hfinished).exchange_eq
    rw [encrypt_of_due hdue, hok]

inductive Wait where
  | connect
  | write
  | handshake
  | read
  | shutdown
  deriving DecidableEq

namespace Wait

def name : Wait → String
  | connect => "connect"
  | write => "write"
  | handshake => "TLS handshake"
  | read => "read"
  | shutdown => "shutdown"

def limit (settings : Settings) : Wait → Duration
  | connect => settings.connectTimeout
  | _ => settings.exchangeTimeout

end Wait

section Submission

variable (settings : Settings) (password : Option String) (envelope : Except Error Envelope)
  (script : Script)

def dialling (e : Envelope) : Session :=
  ((start settings password script).call (.submit e)).log settings.connection

inductive Blocks : Wait → Session → Prop
  | connect (e : Envelope) (he : envelope = .ok e) (h : script.connect = .stall) :
    Blocks .connect (dialling settings password script e)
  | write (s w u : Session) (hs : Reached settings password envelope script s)
    (hw : Flushes script.upgrade s w) (hu : Written w u) (hout : u.dialogue.outbound ≠ [])
    (later : List Step) (h : u.steps = .write .stall :: later) : Blocks .write u
  | handshake (s : Session) (hs : Reached settings password envelope script s)
    (hopen : s.writeOut.dialogue.isFinished = false) (hdue : s.writeOut.upgradeDue = true)
    (h : script.upgrade s.writeOut.steps = .stall) : Blocks .handshake s.writeOut
  | read (s ready : Session) (hs : Reached settings password envelope script s)
    (hr : Ready script.upgrade s ready) (h : Starves ready.steps) : Blocks .read ready
  | shutdown (first ended : Session)
    (ho : opened settings password envelope script = some first)
    (he : exchange script.upgrade (first.call .connected) = (.closed, ended))
    (h : script.shutdown = .stall) : Blocks .shutdown ended

/-- A submission that returns after a timeout: at the limit the dialogue is told that its connection
is lost, unless a cancellation has come while the connection was made. Where only the connection is
left to be shut down, the driver goes without that. -/
def TimesOut (wait : Wait) (s : Session) (r : Result) : Prop :=
  let limit := s.now + (wait.limit settings).nanos
  r.1.isSome = true ∧
    match wait with
    | .connect => (limit, .call (.lost (.timeout wait.name))) ∈ r.2.trace ∨
        ∃ now < limit, (now, .call .cancel) ∈ r.2.trace
    | .shutdown => r.1 = some s.verdict ∧ r.2.now = limit
    | _ => (limit, .call (.lost (.timeout wait.name))) ∈ r.2.trace

variable {settings password envelope script}

/-- At the beginning of each round the session has passed on all that its dialogue has reported. -/
theorem attends_of_reached {s : Session} (h : Reached settings password envelope script s) :
    s.Attends settings := (steady_of_reached h).attends

def concluded (script : Script) : Exit × Session → Result
  | (.never, ended) => (none, ended)
  | (.lost, ended) => (some ended.verdict, ended)
  | (.closed, ended) =>
    (some (ended.shutdown script.shutdown).verdict, ended.shutdown script.shutdown)

/-- A submission ends as the exchange does from any of its rounds on. -/
theorem run_of_reached {s : Session} (h : Reached settings password envelope script s) :
    run settings password envelope script = concluded script (exchange script.upgrade s) := by
  obtain ⟨first, hopened, hrounds⟩ := h
  rw [run_of_opened hopened, ← exchange_eq_of_rounds hrounds]
  rfl

theorem run_of_closed {s ended : Session} (h : Reached settings password envelope script s)
    (hexchange : exchange script.upgrade s = (.closed, ended)) :
    run settings password envelope script =
      (some (ended.shutdown script.shutdown).verdict, ended.shutdown script.shutdown) := by
  rw [run_of_reached h, hexchange]
  rfl

/-- Of the controls only a cancellation closes a dialogue. -/
theorem eq_cancel_of_closes {s : Session} (hopen : s.dialogue.isFinished = false) {c : Control}
    (h : (s.call c.call).dialogue.isFinished = true) : c = .cancel := by
  cases c with
  | cancel => rfl
  | password text =>
    have hphase : (s.dialogue.perform (.password text)).1.phase = s.dialogue.phase := by
      simp only [Dialogue.perform, Dialogue.givePassword]
      split <;> rfl
    rw [call_dialogue, Control.call, Dialogue.isFinished, hphase] at h
    rw [Dialogue.isFinished, h] at hopen
    cases hopen

/-- Connecting that never completes is over at the limit, or it was cancelled before. -/
theorem connectWith_stall {s : Session} (hopen : s.dialogue.isFinished = false)
    (deadline : Moment) (delays : List Delay) (h : s.now ≤ deadline) :
    ((s.connectWith deadline .stall delays).1 = none ∧ ∃ now < deadline,
        (now, .call .cancel) ∈ (s.connectWith deadline .stall delays).2.trace) ∨
      ((s.connectWith deadline .stall delays).1 = some (.error (.timeout "connect")) ∧
        (s.connectWith deadline .stall delays).2.now = deadline) := by
  induction delays generalizing s with
  | nil => exact Or.inr ⟨rfl, Nat.add_sub_of_le h⟩
  | cons delay later ih =>
    cases delay with
    | wait length =>
      rw [connectWith]
      split
      · next hle => exact ih hopen hle
      · exact Or.inr ⟨rfl, rfl⟩
    | control c =>
      rw [connectWith]
      split
      · next hle => exact Or.inr ⟨rfl, Nat.le_antisymm h hle⟩
      · next hbefore =>
        dsimp only
        split
        · next hclosed =>
          obtain rfl := eq_cancel_of_closes hopen hclosed
          exact Or.inl ⟨rfl, s.now, Nat.lt_of_not_le hbefore, s.mem_trace_call .cancel rfl⟩
        · next hopen' => exact ih (by simpa using hopen') ((s.call_now c.call).symm ▸ h)

theorem isFinished_dialling (settings : Settings) (password : Option String) (script : Script)
    (e : Envelope) : (dialling settings password script e).dialogue.isFinished = false := by
  have hstart : (start settings password script).dialogue.phase = .disconnected := by
    cases password with
    | none => rfl
    | some text =>
      rw [start, call_dialogue]
      rfl
  have hphase : (dialling settings password script e).dialogue.phase = .disconnected := by
    have hsubmit := (start settings password script).dialogue.perform_submit e
    rw [← call_dialogue] at hsubmit
    rcases hsubmit with ⟨heq, -⟩ | ⟨-, -, requested, asked, heq, -⟩
    all_goals
      change ((start settings password script).call (.submit e)).dialogue.phase = _
      rw [heq]
      exact hstart
  simp [Dialogue.isFinished, hphase]

theorem timesOut_connect (e : Envelope) (h : script.connect = .stall) :
    TimesOut settings .connect (dialling settings password script e)
      (run settings password (.ok e) script) := by
  have hstall := connectWith_stall (isFinished_dialling settings password script e)
    ((dialling settings password script e).now + settings.connectTimeout.nanos) script.delays
    (Nat.le_add_right _ _)
  have hconnecting : connecting settings password script e =
      (dialling settings password script e).connectWith
        ((dialling settings password script e).now + settings.connectTimeout.nanos) .stall
        script.delays := by
    rw [connecting, h]
    rfl
  rw [← hconnecting] at hstall
  rw [run_ok]
  generalize connecting settings password script e = r at hstall ⊢
  obtain ⟨result, ended⟩ := r
  rcases hstall with ⟨rfl, hcancelled⟩ | ⟨rfl, hnow⟩
  · exact ⟨rfl, Or.inr hcancelled⟩
  · exact ⟨rfl, Or.inl (mem_trace_call _ _ hnow)⟩

theorem write_of_stall {s : Session} {later : List Step} (h : s.steps = .write .stall :: later)
    (data : Bytes) :
    s.write data = (.error (.timeout "write"),
      { Session.log { s with steps := later } (.writeAttempt data) with
        now := s.now + s.dialogue.settings.exchangeTimeout.nanos }) := by
  simp only [write, h]
  rfl

/-- A write that stalls ends at its limit, and the dialogue is told so. -/
theorem timesOut_write {s w u : Session} (hs : Reached settings password envelope script s)
    (hw : Flushes script.upgrade s w) (hu : Written w u) (hout : u.dialogue.outbound ≠ [])
    {later : List Step} (h : u.steps = .write .stall :: later) :
    TimesOut settings .write u (run settings password envelope script) := by
  obtain ⟨t, rest, ht⟩ := List.exists_cons_of_ne_nil hout
  have hattends : (u.call .poll).Attends settings :=
    ((attends_of_reached hs).operations (hw.operations.trans hu.operations)).tell (by simp)
  have hpolled : (u.call .poll).steps = .write .stall :: later := by rw [call_steps, h]
  have hwritten := (hu.writeOut_eq).trans (writeOut_of_error ht (write_of_stall hpolled t.data))
  have hfinished : w.writeOut.dialogue.isFinished = true := by
    rw [hwritten]
    exact isFinished_lost _ _
  rw [run_of_closed hs (hw.exchange_eq hfinished), hwritten]
  refine ⟨rfl, List.mem_append_left _ ?_⟩
  have hnow : (u.call .poll).now + (u.call .poll).dialogue.settings.exchangeTimeout.nanos =
      u.now + settings.exchangeTimeout.nanos := by
    rw [call_now, hattends.settings_eq]
  exact mem_trace_call _ _ hnow

theorem timesOut_handshake {s : Session} (hs : Reached settings password envelope script s)
    (hopen : s.writeOut.dialogue.isFinished = false) (hdue : s.writeOut.upgradeDue = true)
    (h : script.upgrade s.writeOut.steps = .stall) :
    TimesOut settings .handshake s.writeOut (run settings password envelope script) := by
  have hwritten : Operations script.upgrade s s.writeOut := s.operations_writeOut
  have hsettings : s.writeOut.dialogue.settings = settings :=
    ((attends_of_reached hs).operations hwritten).settings_eq
  have hhandshake : s.writeOut.handshake script.upgrade =
      (.error (.timeout "TLS handshake"),
        s.writeOut.now + settings.exchangeTimeout.nanos) := by
    rw [handshake, h, hsettings]
    rfl
  have hlost : s.writeOut.encrypt script.upgrade =
      .error (call { s.writeOut.upgrading with
        now := s.writeOut.now + settings.exchangeTimeout.nanos }
          (.lost (.timeout "TLS handshake"))) := by
    rw [encrypt_of_due hdue, hhandshake]
  have hrun := run_of_reached hs
  rw [(Ends.unsecured _ hopen hlost).exchange_eq] at hrun
  rw [hrun]
  exact ⟨rfl, mem_trace_call _ _ rfl⟩

/-- A read with a limit that comes to nothing ends at it, and the dialogue is told so. -/
theorem timesOut_read {s ready : Session} (hs : Reached settings password envelope script s)
    (hr : Ready script.upgrade s ready) (h : Starves ready.steps)
    (hparked : ready.dialogue.parked = false) :
    TimesOut settings .read ready (run settings password envelope script) := by
  have hready : Operations script.upgrade s ready :=
    s.operations_writeOut.trans (operations_encrypt (Or.inl hr.encrypt_eq))
  have hsettings : ready.dialogue.settings = settings :=
    ((attends_of_reached hs).operations hready).settings_eq
  obtain ⟨hended, hnow⟩ := read_of_starves hparked h
  rw [run_of_closed hs (Ends.broken ready _ hr hended).exchange_eq]
  refine ⟨rfl, List.mem_append_left _ ?_⟩
  have hmoment : ready.afterRead.now = ready.now + settings.exchangeTimeout.nanos := by
    rw [← hsettings]
    exact hnow
  exact mem_trace_call _ _ hmoment

/-- A shutdown that stalls ends at its limit, and what is returned stays as it was. -/
theorem timesOut_shutdown {first ended : Session}
    (ho : opened settings password envelope script = some first)
    (he : exchange script.upgrade (first.call .connected) = (.closed, ended))
    (h : script.shutdown = .stall) :
    TimesOut settings .shutdown ended (run settings password envelope script) := by
  have hattends : ended.Attends settings := by
    have hexchange : Operations script.upgrade (first.call .connected)
        (exchange script.upgrade (first.call .connected)).2 := operations_exchange _
    rw [he] at hexchange
    exact (attends_of_reached ⟨first, ho, .refl⟩).operations hexchange
  rw [run_of_opened ho, converse, he]
  refine ⟨rfl, rfl, ?_⟩
  rw [← hattends.settings_eq, h]
  rfl

/-- Waiting for what never completes is over at the limit, unless a read has none. -/
theorem Blocks.timesOut {wait : Wait} {s : Session}
    (h : Blocks settings password envelope script wait s)
    (hlimit : wait = .read → s.dialogue.parked = false) :
    TimesOut settings wait s (run settings password envelope script) := by
  cases h with
  | connect e he h =>
    subst he
    exact timesOut_connect e h
  | write s w u hs hw hu hout later h => exact timesOut_write hs hw hu hout h
  | handshake s hs hopen hdue h => exact timesOut_handshake hs hopen hdue h
  | read s ready hs hr h => exact timesOut_read hs hr h (hlimit rfl)
  | shutdown first ended ho he h => exact timesOut_shutdown ho he h

/-- Without a connection there is nothing to wait for. -/
theorem run_ne_none_of_unopened (h : opened settings password envelope script = none) :
    (run settings password envelope script).1 ≠ none := by
  cases envelope with
  | error error => simp [run]
  | ok e =>
    unfold opened at h
    dsimp only at h
    rw [run_ok]
    split
    · simp
    · simp
    · next connected heq =>
      rw [heq] at h
      cases h

/-- An exchange is a number of rounds and one end. -/
theorem converse_rounds (script : Script) (first : Session) :
    ∃ last, Rounds script.upgrade (first.call .connected) last ∧
      Ends script.upgrade last (exchange script.upgrade (first.call .connected)) :=
  exchange_rounds _

/-- A submission that does not return is in a read that never ends. -/
theorem run_eq_none_iff : (run settings password envelope script).1 = none ↔
    ∃ s, Blocks settings password envelope script .read s ∧ s.dialogue.parked = true := by
  constructor
  · intro hrun
    cases hopened : opened settings password envelope script with
    | none => exact absurd hrun (run_ne_none_of_unopened hopened)
    | some first =>
      obtain ⟨last, hrounds, hends⟩ := converse_rounds script first
      have hreached : Reached settings password envelope script last := ⟨first, hopened, hrounds⟩
      rw [run_of_opened hopened, converse] at hrun
      generalize exchange script.upgrade (first.call .connected) = r at hends hrun
      cases hends with
      | stalled ready hr hnever =>
        obtain ⟨hparked, hstarves⟩ := ready.read_never_iff.mp hnever
        exact ⟨ready, .read last ready hreached hr hstarves, hparked⟩
      | _ => cases hrun
  · rintro ⟨ready, hblocks, hparked⟩
    cases hblocks with
    | read s ready hs hr h =>
      have hnever : ready.read.ended = .never := ready.read_never_iff.mpr ⟨hparked, h⟩
      rw [run_of_reached hs, (Ends.stalled ready hr hnever).exchange_eq]
      rfl

/-- While the connection is made there are no more controls than delays. -/
theorem controls_le (s : Session) (deadline : Moment) (ending : Ending) (delays : List Delay) :
    (callsOf (s.connectWith deadline ending delays).2.entries).length ≤
      (callsOf s.entries).length + delays.length := by
  have hcall (s : Session) (c : Control) : (callsOf (s.call c.call).entries).length =
      (callsOf s.entries).length + 1 := by rw [callsOf_call, List.length_append]; rfl
  fun_induction connectWith s deadline ending delays with
  | case1 s length later _ ih => exact Nat.le_trans ih (Nat.le_succ _)
  | case2 s length later => exact Nat.le_add_right _ _
  | case3 s c later => exact Nat.le_add_right _ _
  | case4 s c later _ told =>
    have hone : (callsOf told.entries).length = (callsOf s.entries).length + 1 := hcall s c
    simp only [List.length_cons]
    omega
  | case5 s c later _ told _ ih =>
    have hone : (callsOf told.entries).length = (callsOf s.entries).length + 1 := hcall s c
    simp only [List.length_cons]
    omega
  | case6 s => exact Nat.le_add_right _ _

theorem callsOf_write (s : Session) (data : Bytes) :
    callsOf (s.write data).2.entries = callsOf s.entries := by
  rcases (s.write_cases data).2.2 with h | h | h <;> simp [h, callsOf, Entry.call?]

/-- Each round of the writing takes one of the transmits that wait. -/
theorem polls_le (s : Session) (waiting : List Transmit) :
    (callsOf (s.writeAll waiting).entries).countP Call.isPoll ≤
      (callsOf s.entries).countP Call.isPoll + waiting.length := by
  have hcall (s : Session) (c : Call) : (callsOf (s.call c).entries).countP Call.isPoll =
      (callsOf s.entries).countP Call.isPoll + [c].countP Call.isPoll := by
    rw [callsOf_call, List.countP_append]
  induction waiting generalizing s with
  | nil => exact Nat.le_refl _
  | cons t later ih =>
    have hone : (callsOf ((s.call .poll).write t.data).2.entries).countP Call.isPoll =
        (callsOf s.entries).countP Call.isPoll + 1 := by
      rw [callsOf_write, hcall]
      rfl
    rw [writeAll, List.length_cons]
    generalize (s.call .poll).write t.data = r at hone ⊢
    obtain ⟨_ | _, next⟩ := r
    · next error =>
      have hlost : (callsOf (next.call (.lost error)).entries).countP Call.isPoll =
          (callsOf next.entries).countP Call.isPoll := hcall next (.lost error)
      dsimp only at hone ⊢
      omega
    · have hrest := ih next
      dsimp only at hone ⊢
      omega

end Submission

structure Terminates (settings : Settings) (password : Option String)
    (envelope : Except Error Envelope) (script : Script) : Prop where
  /-- The loop that connects goes round once for each control. -/
  connecting : ∀ e, (callsOf (connecting settings password script e).2.entries).length ≤
    (callsOf (dialling settings password script e).entries).length + script.delays.length
  /-- The loop that writes goes round no more often than there are transmits that wait. -/
  writing : ∀ s : Session, (callsOf s.writeOut.entries).countP Call.isPoll ≤
    (callsOf s.entries).countP Call.isPoll + s.dialogue.outbound.length
  /-- The loop that exchanges lines goes round no more often than the script has steps. -/
  rounds : ∀ first, opened settings password envelope script = some first → ∃ later last,
    (first.call .connected :: later).IsChain (Round script.upgrade) ∧
      (first.call .connected :: later).getLast? = some last ∧
      Ends script.upgrade last (exchange script.upgrade (first.call .connected)) ∧
      later.length ≤ script.steps.length
  /-- It does not return exactly if it is in a read that never ends while the dialogue is parked. -/
  hangs_iff : (run settings password envelope script).1 = none ↔
    ∃ s, Blocks settings password envelope script .read s ∧ s.dialogue.parked = true
  timesOut : ∀ wait s, Blocks settings password envelope script wait s →
    (wait = .read → s.dialogue.parked = false) →
      TimesOut settings wait s (run settings password envelope script)

/-- Every submission ends in one of these ways, whatever the script. -/
theorem terminates_run (settings : Settings) (password : Option String)
    (envelope : Except Error Envelope) (script : Script) :
    Terminates settings password envelope script := by
  refine ⟨?_, ?_, ?_, run_eq_none_iff, fun wait s => Blocks.timesOut⟩
  · intro e
    exact controls_le (dialling settings password script e) _ _ _
  · intro s
    exact s.polls_le s.dialogue.outbound
  · intro first hopened
    obtain ⟨last, hrounds, hends⟩ := converse_rounds script first
    obtain ⟨later, hchain, hlast⟩ := List.exists_isChain_cons_of_relationReflTransGen hrounds
    refine ⟨later, last, hchain, ?_, hends, ?_⟩
    · rw [List.getLast?_eq_some_getLast (List.cons_ne_nil _ _), hlast]
    · have hlength := length_le_of_rounds hchain
      rwa [call_steps, steps_of_opened hopened] at hlength

/-- With nothing to wait for but the password a submission never returns; with a reply to wait for it
does, at the limit. -/
example :
    (run { Settings.plain with requireAuth := true } none (.ok .greeting)
      (.atOnce stalledSteps)).1 = none ∧
    (run .plain none (.ok .greeting) (.atOnce stalledSteps)).1 =
      some (.error (.timeout "read")) := by
  decide +kernel

end Session

end SmtpClient
