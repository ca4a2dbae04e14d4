import SmtpClient.Proofs.Discipline
import SmtpClient.Proofs.Indifference

/-!
Reads that a control interrupts. The bytes of an interrupted read stay in the buffer and the next
read goes on behind them, so an exchange with controls on which the dialogue does not act goes the
way of one without them. It leaves that way in one place: a read tells the end of the stream by the
bytes that it has added itself, and gives up those that an interrupted read has left.
-/
namespace SmtpClient

def Step.isSegment : Step → Bool
  | line _ => true
  | raw _ => true
  | part _ => true
  | _ => false

/-- A segment, or a password that makes no difference: authentication is not asked for, or it is the
password that is known. -/
def Step.isIdle (settings : Settings) (known : Option String) : Step → Bool
  | control (.password text) => !settings.requireAuth || known == some text
  | step => step.isSegment

def Interjects (settings : Settings) (known : Option String) (steps : List Step) : Prop :=
  ∀ step ∈ steps, step.isIdle settings known = true

/-- Where authentication is not asked for, every password is idle. -/
theorem interjects_of_free {settings : Settings} {known : Option String} {steps : List Step}
    (hfree : settings.requireAuth = false)
    (h : ∀ step ∈ steps, step.isIdle settings none = true) : Interjects settings known steps := by
  intro step hmem
  have hidle := h step hmem
  cases step with
  | control c =>
    cases c with
    | password text => simp [Step.isIdle, hfree]
    | cancel => cases hidle
  | _ => exact hidle

inductive ReadsOn (settings : Settings) (known : Option String) (deadline : Option Moment)
    (now : Moment) (count : Nat) (buffer : Bytes) (r r' : Read) : Prop
  | interrupted (text : String) (hidle : settings.requireAuth = false ∨ known = some text)
    (hended : r.ended = .control (.password text))
    (hlater : r' = readLine deadline now r.buffer r.buffer.length
      (r.steps.filter Step.isSegment))
  | ended (n : Nat) (hended : r.ended = .count n)
    (hcount : n + buffer.length = count + r.buffer.length)
    (hlater : r' = ⟨.count r.buffer.length, now, r.steps.filter Step.isSegment, r.buffer⟩)

/-- A read whose buffer holds what an interrupted one has left ends where the other does. -/
theorem readsOn_readLine {settings : Settings} {known : Option String} {deadline : Option Moment}
    {now : Moment} (hdeadline : deadline.any (· ≤ now) = false) {steps : List Step}
    (h : Interjects settings known steps) (buffer : Bytes) (count : Nat) :
    (readLine deadline now buffer count steps).now = now ∧
      Interjects settings known (readLine deadline now buffer count steps).steps ∧
      ReadsOn settings known deadline now count buffer (readLine deadline now buffer count steps)
        (readLine deadline now buffer buffer.length (steps.filter Step.isSegment)) := by
  -- on the script: the counts differ by what stood in the buffer before, the buffers do not differ
  induction steps generalizing buffer count with
  | nil => exact ⟨rfl, h, .ended count rfl rfl rfl⟩
  | cons step later ih =>
    have hstep := h step (List.mem_cons_self ..)
    have hlater : Interjects settings known later := fun e he => h e (List.mem_cons_of_mem _ he)
    cases step with
    | line bytes =>
      rw [List.filter_cons_of_pos rfl]
      refine ⟨rfl, hlater, .ended _ rfl ?_ ?_⟩
      · simp only [readLine, List.length_append, Bytes.crlf, List.length_cons, List.length_nil]
        omega
      · simp only [readLine, List.length_append, Bytes.crlf, List.length_cons, List.length_nil]
    | raw bytes =>
      rw [List.filter_cons_of_pos rfl]
      refine ⟨rfl, hlater, .ended _ rfl ?_ ?_⟩
      · simp only [readLine, List.length_append]
        omega
      · simp only [readLine, List.length_append]
    | part bytes =>
      obtain ⟨hnow, hrest, hreads⟩ := ih hlater (buffer ++ bytes) (count + bytes.length)
      rw [List.filter_cons_of_pos rfl, readLine, readLine]
      refine ⟨hnow, hrest, ?_⟩
      rw [List.length_append] at hreads
      cases hreads with
      | interrupted text hidle hended hbeside => exact .interrupted text hidle hended hbeside
      | ended n hended hcount hbeside =>
        rw [List.length_append] at hcount
        exact .ended n hended (by omega) hbeside
    | control c =>
      cases c with
      | cancel => cases hstep
      | password text =>
        have hidle : settings.requireAuth = false ∨ known = some text := by
          simpa [Step.isIdle] using hstep
        have hcontrol : readLine deadline now buffer count (.control (.password text) :: later) =
            ⟨.control (.password text), now, later, buffer⟩ := by
          rw [readLine, hdeadline]
          rfl
        rw [hcontrol]
        exact ⟨rfl, hlater, .interrupted text hidle rfl rfl⟩
    | _ => cases hstep

def Entry.isPassword : Entry → Bool
  | call (.password _) => true
  | _ => false

namespace Session

def course (s : Session) : List (Moment × Entry) := s.trace.filter fun e => !e.2.isPassword

structure Alongside (known : Option String) (b s : Session) : Prop where
  matched : b.dialogue.Matched known s.dialogue
  course_eq : s.course = b.course
  now_eq : s.now = b.now
  encrypted_eq : s.encrypted = b.encrypted
  upgradeDue_eq : s.upgradeDue = b.upgradeDue
  error_eq : s.error = b.error

variable {settings : Settings} {known : Option String} {b s : Session}

theorem course_log (s : Session) {e : Entry} (h : e.isPassword = false) :
    (s.log e).course = s.course ++ [(s.now, e)] := by
  simp [course, log, h]

theorem Alongside.log (h : Alongside known b s) {e : Entry} (he : e.isPassword = false) :
    Alongside known (b.log e) (s.log e) := by
  refine ⟨h.matched, ?_, h.now_eq, h.encrypted_eq, h.upgradeDue_eq, h.error_eq⟩
  rw [course_log b he, course_log s he, h.course_eq, h.now_eq]

theorem Alongside.report (h : Alongside known b s) (e : Event) :
    Alongside known (b.report e) (s.report e) := by
  have hlog : Alongside known (b.log (.event e)) (s.log (.event e)) := h.log rfl
  cases e with
  | encryptionDue =>
    exact ⟨h.matched, h.course_eq, h.now_eq, h.encrypted_eq, rfl, h.error_eq⟩
  | failed error =>
    exact ⟨h.matched, hlog.course_eq, h.now_eq, h.encrypted_eq, h.upgradeDue_eq, rfl⟩
  | _ => exact hlog

/-- Both sessions tell their callers the same, event by event. -/
theorem Alongside.reports (h : Alongside known b s) (es : List Event) :
    Alongside known (es.foldl Session.report b) (es.foldl Session.report s) := by
  induction es generalizing b s with
  | nil => exact h
  | cons e later ih => exact ih (h.report e)

/-- What both dialogues are told. -/
theorem Alongside.call (h : Alongside known b s) {c : Call} (hc : c.password? = none) :
    Alongside known (b.call c) (s.call c) := by
  obtain ⟨hnext, hevents⟩ := h.matched.perform hc
  have hpassword : (Entry.call c).isPassword = false := by
    cases c with
    | password text => cases hc
    | _ => rfl
  have hlog := h.log hpassword
  have htold : Alongside known { b.log (.call c) with dialogue := (b.dialogue.perform c).1 }
      { s.log (.call c) with dialogue := (s.dialogue.perform c).1 } :=
    ⟨hnext, hlog.course_eq, h.now_eq, h.encrypted_eq, h.upgradeDue_eq, h.error_eq⟩
  have hreports : s.call c = (b.dialogue.eventsOf c).foldl Session.report
      { s.log (.call c) with dialogue := (s.dialogue.perform c).1 } := by
    rw [← hevents]
    rfl
  rw [hreports]
  exact htold.reports _

/-- Sessions that have come to the same time, each by its part of the script. -/
theorem Alongside.wait (h : Alongside known b s) {now now' : Moment} (hnow : now' = now)
    (steps steps' : List Step) (buffer buffer' : Bytes) :
    Alongside known { b with now := now, steps := steps, buffer := buffer }
      { s with now := now', steps := steps', buffer := buffer' } :=
  ⟨h.matched, h.course_eq, hnow, h.encrypted_eq, h.upgradeDue_eq, h.error_eq⟩

/-- A password that one of the dialogues is given, and does not use. -/
theorem Alongside.password (h : Alongside known b s) (hopen : b.dialogue.isFinished = false)
    {text : String} (hidle : b.dialogue.settings.requireAuth = false ∨ known = some text) :
    Alongside known b (s.call (.password text)) := by
  have hmatched := (h.matched.givePassword hopen hidle).1
  have hcourse : (s.log (.call (.password text))).course = s.course := by
    simp [course, Session.log, Entry.isPassword]
  exact ⟨hmatched, hcourse.trans h.course_eq, h.now_eq, h.encrypted_eq, h.upgradeDue_eq, h.error_eq⟩

structure Level (settings : Settings) (known : Option String) (b s : Session) : Prop
    extends Alongside known b s where
  settings_eq : b.dialogue.settings = settings
  steps_eq : b.steps = s.steps.filter Step.isSegment
  interjects : Interjects settings known s.steps
  emptied : b.buffer = [] ∧ s.buffer = []

theorem Level.log (h : Level settings known b s) {e : Entry} (he : e.isPassword = false) :
    Level settings known (b.log e) (s.log e) :=
  ⟨h.toAlongside.log he, h.settings_eq, h.steps_eq, h.interjects, h.emptied⟩

theorem Level.call (h : Level settings known b s) {c : Call} (hc : c.password? = none) :
    Level settings known (b.call c) (s.call c) := by
  refine ⟨h.toAlongside.call hc, ?_, ?_, ?_, ?_⟩
  · rw [call_dialogue, Dialogue.settings_perform]
    exact h.settings_eq
  · rw [call_steps, call_steps]
    exact h.steps_eq
  · rw [call_steps]
    exact h.interjects
  · rw [call_buffer, call_buffer]
    exact h.emptied

/-- Where the script does not say how a write ends, it succeeds. -/
theorem write_of_unscripted (h : ∀ ending, .write ending ∉ s.steps) (data : Bytes) :
    s.write data = (.ok (), s.log (.write data)) := by
  unfold write
  split
  · next ending later heq =>
    refine absurd ?_ (h ending)
    rw [heq]
    exact List.mem_cons_self ..
  · rfl

/-- Over a connection that takes everything, both sessions write in the same way. -/
theorem Level.write (h : Level settings known b s) (data : Bytes) :
    b.write data = (.ok (), b.log (.write data)) ∧
      s.write data = (.ok (), s.log (.write data)) := by
  constructor
  · apply write_of_unscripted
    intro ending hmem
    rw [h.steps_eq, List.mem_filter] at hmem
    cases hmem.2
  · apply write_of_unscripted
    intro ending hmem
    cases h.interjects _ hmem

/-- All that waits is written in both sessions. -/
theorem Level.writeAll (h : Level settings known b s) {ts : List Transmit}
    (hts : b.dialogue.outbound = ts) :
    Level settings known (b.writeAll ts) (s.writeAll ts) ∧
      (b.writeAll ts).dialogue.outbound = [] ∧ (b.writeAll ts).upgradeDue = b.upgradeDue := by
  induction ts generalizing b s with
  | nil => exact ⟨h, hts, rfl⟩
  | cons t later ih =>
    have hpolled := h.call (c := .poll) rfl
    obtain ⟨hb, hs⟩ := hpolled.write t.data
    have hout : ((b.call .poll).log (.write t.data)).dialogue.outbound = later :=
      congrArg List.tail hts
    unfold Session.writeAll
    rw [hb, hs]
    exact ih (hpolled.log rfl) hout

/-- Two sessions that are level write out the same and are level again. -/
theorem Level.writeOut (h : Level settings known b s) :
    Level settings known b.writeOut s.writeOut ∧
      b.writeOut.dialogue.outbound = [] ∧ b.writeOut.upgradeDue = b.upgradeDue := by
  rw [Session.writeOut, Session.writeOut, h.matched.outbound_eq]
  exact h.writeAll rfl

def overSegments (upgrade : List Step → Ending) (steps : List Step) : Ending :=
  upgrade (steps.filter Step.isSegment)

variable {upgrade : List Step → Ending}

theorem Level.handshake_eq (h : Level settings known b s) :
    s.handshake (overSegments upgrade) = b.handshake upgrade := by
  rw [handshake, handshake, overSegments, ← h.steps_eq, h.now_eq, h.matched.settings_eq]

theorem Level.upgrading (h : Level settings known b s) (now : Moment) {encrypted encrypted' : Bool}
    (hsame : encrypted' = encrypted) :
    Level settings known { b.upgrading with now := now, encrypted := encrypted }
      { s.upgrading with now := now, encrypted := encrypted' } := by
  have hlog : Level settings known (b.log (.upgrade b.dialogue.settings.host))
      (s.log (.upgrade b.dialogue.settings.host)) := h.log rfl
  have hhost : (s.log (.upgrade b.dialogue.settings.host)) =
      s.log (.upgrade s.dialogue.settings.host) := by rw [h.matched.settings_eq]
  rw [hhost] at hlog
  exact ⟨⟨h.matched, hlog.course_eq, rfl, hsame, rfl, h.error_eq⟩, h.settings_eq, h.steps_eq,
    h.interjects, h.emptied⟩

inductive Secures (settings : Settings) (known : Option String) :
    Except Session Session → Except Session Session → Prop
  | ok (b s : Session) (h : Level settings known b s) (hout : b.dialogue.outbound = [])
    (hdue : b.upgradeDue = false) : Secures settings known (.ok b) (.ok s)
  | error (b s : Session) (h : Level settings known b s) :
    Secures settings known (.error b) (.error s)

/-- The handshake ends alike in both sessions, since it does not depend on the controls. -/
theorem Level.encrypt (h : Level settings known b s) (hout : b.dialogue.outbound = []) :
    Secures settings known (b.encrypt upgrade) (s.encrypt (overSegments upgrade)) := by
  cases hdue : b.upgradeDue with
  | false =>
    rw [Session.encrypt, Session.encrypt, h.upgradeDue_eq, hdue]
    exact .ok b s h hout hdue
  | true =>
    have hdue' : s.upgradeDue = true := h.upgradeDue_eq.trans hdue
    rw [encrypt_of_due hdue, encrypt_of_due hdue', h.handshake_eq]
    cases (b.handshake upgrade).1 with
    | error error =>
      exact .error _ _ ((h.upgrading _ h.encrypted_eq).call (c := .lost error) rfl)
    | ok _ =>
      have hsecured : Level settings known _ _ :=
        (h.upgrading (b.handshake upgrade).2 (rfl : true = true)).call (c := .encrypted) rfl
      obtain ⟨hlevel, hwritten, hundue⟩ := hsecured.writeOut
      refine .ok _ _ hlevel hwritten (hundue.trans ?_)
      rw [call_upgradeDue _ rfl]
      rfl

/-- Two sessions that have written all come to the handshake together. -/
theorem Level.secures (h : Level settings known b s) (upgrade : List Step → Ending)
    (hopen : s.writeOut.dialogue.isFinished = false) :
    b.writeOut.dialogue.isFinished = false ∧
      Secures settings known (b.writeOut.encrypt upgrade)
        (s.writeOut.encrypt (overSegments upgrade)) := by
  obtain ⟨hlevel, hwritten, -⟩ := h.writeOut
  rw [hlevel.matched.isFinished_eq] at hopen
  exact ⟨hopen, hlevel.encrypt hwritten⟩

def deadline (s : Session) : Option Moment :=
  if s.dialogue.parked then none else some (s.now + s.dialogue.settings.exchangeTimeout.nanos)

theorem read_eq (s : Session) : s.read = readLine s.deadline s.now s.buffer 0 s.steps := rfl

/-- A session that begins to read has its whole time before it. -/
theorem deadline_later (s : Session) (h : 0 < s.dialogue.settings.exchangeTimeout.nanos) :
    s.deadline.any (· ≤ s.now) = false := by
  unfold deadline
  split
  · rfl
  · rw [Option.any_some, decide_eq_false_iff_not]
    exact Nat.not_le.mpr (Nat.lt_add_of_pos_right h)

theorem Alongside.deadline_eq (h : Alongside known b s) : s.deadline = b.deadline := by
  rw [deadline, deadline, h.matched.parked_eq, h.matched.settings_eq, h.now_eq]

structure Calm (s : Session) : Prop where
  written : s.dialogue.outbound = []
  undue : s.upgradeDue = false
  unfinished : s.dialogue.isFinished = false

theorem Calm.writeOut_eq (h : s.Calm) : s.writeOut = s := by
  rw [writeOut, h.written]
  rfl

theorem Calm.ready (h : s.Calm) : Ready upgrade s s := by
  refine ⟨?_, ?_, h.unfinished⟩
  · rw [h.writeOut_eq]
    exact h.unfinished
  · rw [h.writeOut_eq, encrypt, h.undue]
    rfl

/-- Two sessions at their reads, of which one goes on where it was interrupted. What is left of the
script brings both to the same line. -/
structure Reading (settings : Settings) (known : Option String) (b s : Session) : Prop
    extends Alongside known b s where
  settings_eq : b.dialogue.settings = settings
  interjects : Interjects settings known s.steps
  calm : b.Calm
  read_eq : b.read =
    readLine b.deadline b.now s.buffer s.buffer.length (s.steps.filter Step.isSegment)

theorem Reading.calm_interrupted (h : Reading settings known b s) : s.Calm := by
  refine ⟨?_, ?_, ?_⟩
  · rw [h.matched.outbound_eq]
    exact h.calm.written
  · rw [h.upgradeDue_eq]
    exact h.calm.undue
  · rw [h.matched.isFinished_eq]
    exact h.calm.unfinished

/-- Two sessions that are level come to their reads together. -/
theorem Level.reading (h : Level settings known b s) (hcalm : b.Calm) :
    Reading settings known b s := by
  refine ⟨h.toAlongside, h.settings_eq, h.interjects, hcalm, ?_⟩
  rw [read_eq, h.emptied.1, h.emptied.2, h.steps_eq]
  rfl

inductive Tracks (settings : Settings) (known : Option String) (b s : Session) : Prop
  | level (h : Level settings known b s)
  | reading (h : Reading settings known b s)

/-- Where one session comes to a read, the other does. -/
theorem Tracks.ready (h : Tracks settings known b s) {ready : Session}
    (hready : Ready (overSegments upgrade) s ready) :
    ∃ base, Ready upgrade b base ∧ Reading settings known base ready := by
  cases h with
  | level h =>
    obtain ⟨hopen, hsecures⟩ := h.secures upgrade hready.unfinished
    rw [hready.encrypt_eq] at hsecures
    generalize hbase : b.writeOut.encrypt upgrade = secured at hsecures
    cases hsecures with
    | ok base _ hnext hout hdue =>
      have hopen' : base.dialogue.isFinished = false := by
        rw [← hnext.matched.isFinished_eq]
        exact hready.isFinished_eq
      exact ⟨base, ⟨hopen, hbase, hopen'⟩, hnext.reading ⟨hout, hdue, hopen'⟩⟩
  | reading h =>
    have hsame : ready = s := by
      have hok := hready.encrypt_eq
      rw [h.calm_interrupted.ready.encrypt_eq] at hok
      exact (Except.ok.inj hok).symm
    subst hsame
    exact ⟨b, h.calm.ready, h⟩

/-- How the reads of two sessions end. -/
theorem Reading.reads (h : Reading settings known b s)
    (htimeout : 0 < settings.exchangeTimeout.nanos) :
    s.read.now = b.now ∧ Interjects settings known s.read.steps ∧
      ReadsOn settings known b.deadline b.now 0 s.buffer s.read b.read := by
  have hlater : b.deadline.any (· ≤ b.now) = false :=
    b.deadline_later (by rw [h.settings_eq]; exact htimeout)
  rw [h.read_eq, s.read_eq, h.deadline_eq, h.now_eq]
  exact readsOn_readLine hlater h.interjects s.buffer 0

/-- With nothing but segments and controls to come, no read lasts for ever or fails. -/
theorem Reading.reads_on (h : Reading settings known b s)
    (htimeout : 0 < settings.exchangeTimeout.nanos) :
    s.read.ended ≠ .never ∧ ∀ error, s.read.ended ≠ .fail error := by
  cases (h.reads htimeout).2.2 with
  | interrupted text _ hended | ended n hended =>
    rw [hended]
    exact ⟨by simp, by simp⟩

/-- A round of the interrupted session is a round of the other, or leaves that where it is. -/
theorem Tracks.round (h : Tracks settings known b s) (htimeout : 0 < settings.exchangeTimeout.nanos)
    {t : Session} (hround : Round (overSegments upgrade) s t) :
    ∃ b', Tracks settings known b' t ∧ exchange upgrade b' = exchange upgrade b := by
  cases hround with
  | told ready c hready hread =>
    obtain ⟨base, hbase, hreading⟩ := h.ready hready
    obtain ⟨hnow, hinterjects, hreads⟩ := hreading.reads htimeout
    cases hreads with
    | ended n hended =>
      rw [hended] at hread
      cases hread
    | interrupted text hidle hended hlater =>
      rw [hended] at hread
      cases hread
      have hafter : Alongside known base ready.afterRead :=
        hreading.toAlongside.wait hnow base.steps _ base.buffer _
      have htold : Alongside known base (ready.afterRead.call (.password text)) :=
        hafter.password hreading.calm.unfinished (by rwa [hreading.settings_eq])
      have hagain : exchange upgrade base = exchange upgrade b :=
        hreading.calm.ready.exchange_eq.trans hbase.exchange_eq.symm
      refine ⟨base, .reading ⟨htold, hreading.settings_eq, ?_, hreading.calm, ?_⟩, hagain⟩
      · rw [Control.call, call_steps]
        exact hinterjects
      · rw [Control.call, call_steps, call_buffer]
        exact hlater
  | heard ready n hready hread hn =>
    obtain ⟨base, hbase, hreading⟩ := h.ready hready
    obtain ⟨hnow, hinterjects, hreads⟩ := hreading.reads htimeout
    cases hreads with
    | interrupted text _ hended =>
      rw [hended] at hread
      cases hread
    | ended m hended hcount hlater =>
      rw [hended] at hread
      obtain rfl := ReadEnd.count.inj hread
      have hsame : base.read.buffer = ready.read.buffer := by rw [hlater]
      have hlong : ready.read.buffer.length ≠ 0 := by omega
      have hhearing : Level settings known base.hearing ready.hearing := by
        have hnow' : ready.read.now = base.read.now := hnow.trans (congrArg Read.now hlater).symm
        exact ⟨hreading.toAlongside.wait hnow' _ _ _ _, hreading.settings_eq,
          congrArg Read.steps hlater, hinterjects, rfl, rfl⟩
      refine ⟨base.hearing.call (.line ready.read.buffer), .level (hhearing.call rfl), ?_⟩
      rw [hbase.exchange_eq, proceed, hsame, hlater]
      exact (if_neg hlong).symm

end Session

def Call.line? : Call → Option Bytes
  | .line bytes => some bytes
  | _ => none

def heard (entries : List Entry) : List Bytes := (callsOf entries).filterMap Call.line?

theorem heard_append (before later : List Entry) :
    heard (before ++ later) = heard before ++ heard later := by
  rw [heard, callsOf_append, List.filterMap_append]
  rfl

namespace Session

variable {settings : Settings} {known : Option String} {upgrade : List Step → Ending}
  {b s : Session}

/-- A call hands over one line at most. -/
theorem heard_call (s : Session) (c : Call) :
    heard (s.call c).entries = heard s.entries ++ c.line?.toList := by
  rw [heard, callsOf_call, List.filterMap_append]
  cases c <;> rfl

/-- What is picked from a trace, and from no password in it, is picked from its course. -/
theorem filterMap_entries {α : Type} (s : Session) {f : Entry → Option α}
    (hf : ∀ e, e.isPassword = true → f e = none) :
    s.entries.filterMap f = s.course.filterMap fun e => f e.2 := by
  rw [entries, course, List.filterMap_map, List.filterMap_filter]
  apply List.filterMap_congr
  rintro ⟨at_, e⟩ -
  cases hpassword : e.isPassword with
  | true => simp [hf e hpassword]
  | false => rfl

theorem Alongside.filterMap_eq {α : Type} (h : Alongside known b s) {f : Entry → Option α}
    (hf : ∀ e, e.isPassword = true → f e = none) :
    s.entries.filterMap f = b.entries.filterMap f := by
  rw [filterMap_entries s hf, filterMap_entries b hf, h.course_eq]

/-- The passwords that came between bring no lines, so both dialogues were handed the same. -/
theorem Alongside.heard_eq (h : Alongside known b s) : heard s.entries = heard b.entries := by
  have hpicked := h.filterMap_eq (f := fun e => e.call?.bind Call.line?) fun e he => by
    cases e with
    | call c => cases c <;> first | rfl | cases he
    | _ => cases he
  rwa [← List.filterMap_filterMap, ← List.filterMap_filterMap] at hpicked

/-- How an exchange ends beside one that was not interrupted: in the same way, or with a line that
only the other has handed to its dialogue. -/
inductive Concludes (known : Option String) (r r' : Exit × Session) : Prop
  | alike (hexit : r'.1 = r.1) (h : Alongside known r.2 r'.2) (hread : r'.2.buffer = [])
  | cut (hleft : r'.2.buffer ≠ []) (more : List Bytes)
    (hheard : heard r.2.entries = heard r'.2.entries ++ r'.2.buffer :: more)

/-- The end of the stream, in a read that has added nothing. -/
theorem Reading.hungUp (h : Reading settings known b s)
    (htimeout : 0 < settings.exchangeTimeout.nanos) (hread : s.read.ended = .count 0) :
    Concludes known (proceed upgrade b)
      (.closed, s.afterRead.call (.lost .connectionClosed)) := by
  obtain ⟨hnow, -, hreads⟩ := h.reads htimeout
  cases hreads with
  | interrupted text _ hended =>
    rw [hended] at hread
    cases hread
  | ended n hended hcount hlater =>
    have hafter : Alongside known b.afterRead s.afterRead :=
      h.toAlongside.wait (hnow.trans (congrArg Read.now hlater).symm) _ _ _ _
    have hleft : (s.afterRead.call (.lost .connectionClosed)).buffer = s.read.buffer :=
      s.afterRead.call_buffer _
    have hbase : b.read.ended = .count s.read.buffer.length := by rw [hlater]
    have hsame : b.read.buffer = s.read.buffer := by rw [hlater]
    rw [proceed, hbase]
    cases hbuffer : s.read.buffer with
    | nil =>
      exact .alike rfl (hafter.call (c := .lost .connectionClosed) rfl) (hleft.trans hbuffer)
    | cons byte bytes =>
      have hlong : (byte :: bytes).length ≠ 0 := by simp
      rw [← hbuffer] at hlong ⊢
      dsimp only
      rw [if_neg hlong, hsame]
      have hops : Operations upgrade (b.hearing.call (.line s.read.buffer))
          (exchange upgrade (b.hearing.call (.line s.read.buffer))).2 := operations_exchange _
      obtain ⟨more, hmore⟩ := entries_prefix hops
      refine .cut ?_ (heard more) ?_
      · rw [hleft, hbuffer]
        simp
      · have hearlier : heard s.afterRead.entries = heard b.hearing.entries :=
          h.toAlongside.heard_eq
        rw [← hmore, heard_append, heard_call, heard_call, hleft, hearlier]
        simp [Call.line?]

/-- The last round of an interrupted exchange, beside the exchange that was not interrupted. -/
theorem Tracks.ends (h : Tracks settings known b s) (htimeout : 0 < settings.exchangeTimeout.nanos)
    {r : Exit × Session} (hends : Ends (overSegments upgrade) s r) :
    Concludes known (exchange upgrade b) r := by
  cases hends with
  | finished hfinished =>
    cases h with
    | reading h =>
      rw [h.calm_interrupted.writeOut_eq, h.calm_interrupted.unfinished] at hfinished
      cases hfinished
    | level h =>
      obtain ⟨hlevel, -⟩ := h.writeOut
      have hfinished' : b.writeOut.dialogue.isFinished = true := by
        rw [← hlevel.matched.isFinished_eq]
        exact hfinished
      rw [(Ends.finished hfinished').exchange_eq]
      exact .alike rfl hlevel.toAlongside hlevel.emptied.2
  | unsecured ended hopen hfailed =>
    cases h with
    | reading h =>
      rw [h.calm_interrupted.ready.encrypt_eq] at hfailed
      cases hfailed
    | level h =>
      obtain ⟨hopen', hsecures⟩ := h.secures upgrade hopen
      rw [hfailed] at hsecures
      generalize hbase : b.writeOut.encrypt upgrade = secured at hsecures
      cases hsecures with
      | error base _ hlast =>
        rw [(Ends.unsecured base hopen' hbase).exchange_eq]
        exact .alike rfl hlast.toAlongside hlast.emptied.2
  | secured ready hopen hok hfinished =>
    cases h with
    | reading h =>
      have hsame := hok
      rw [h.calm_interrupted.ready.encrypt_eq] at hsame
      rw [← Except.ok.inj hsame, h.calm_interrupted.unfinished] at hfinished
      cases hfinished
    | level h =>
      obtain ⟨hopen', hsecures⟩ := h.secures upgrade hopen
      rw [hok] at hsecures
      generalize hbase : b.writeOut.encrypt upgrade = secured at hsecures
      cases hsecures with
      | ok base _ hlast =>
        rw [hlast.matched.isFinished_eq] at hfinished
        rw [(Ends.secured base hopen' hbase hfinished).exchange_eq]
        exact .alike rfl hlast.toAlongside hlast.emptied.2
  | stalled ready hready hread =>
    obtain ⟨base, hbase, hreading⟩ := h.ready hready
    exact absurd hread (hreading.reads_on htimeout).1
  | broken ready error hready hread =>
    obtain ⟨base, hbase, hreading⟩ := h.ready hready
    exact absurd hread ((hreading.reads_on htimeout).2 error)
  | hungUp ready hready hread =>
    obtain ⟨base, hbase, hreading⟩ := h.ready hready
    rw [hbase.exchange_eq]
    exact hreading.hungUp htimeout hread

/-- An interrupted exchange and the one that was not interrupted end together, or with the line that
the interrupted one has lost. -/
theorem Level.concludes (h : Level settings known b s)
    (htimeout : 0 < settings.exchangeTimeout.nanos) :
    Concludes known (exchange upgrade b) (exchange (overSegments upgrade) s) := by
  obtain ⟨last, hrounds, hends⟩ : ∃ last, Rounds (overSegments upgrade) s last ∧
      Ends (overSegments upgrade) last (exchange (overSegments upgrade) s) := exchange_rounds s
  have htracks : ∃ b', Tracks settings known b' last ∧
      exchange upgrade b' = exchange upgrade b := by
    clear hends
    -- on the rounds of the interrupted exchange, the last of which is matched or one too many
    induction hrounds with
    | refl => exact ⟨b, .level h, rfl⟩
    | tail _ hlast ih =>
      obtain ⟨b', hbefore, hsame⟩ := ih
      obtain ⟨b'', hnext, hsame'⟩ := hbefore.round htimeout hlast
      exact ⟨b'', hnext, hsame'.trans hsame⟩
  obtain ⟨b', hlast, hsame⟩ := htracks
  rw [← hsame]
  exact hlast.ends htimeout hends

end Session

end SmtpClient
