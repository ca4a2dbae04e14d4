import SmtpClient.Proofs.Interruption

namespace SmtpClient

namespace Session

variable {known : Option String} {b s : Session}

theorem Alongside.verdict_eq (h : Alongside known b s) : s.verdict = b.verdict := by
  rw [verdict, verdict, h.error_eq, h.matched.succeeded_eq]

/-- Both sessions shut the connection down in the same way. -/
theorem Alongside.shutdown (h : Alongside known b s) (ending : Ending) :
    Alongside known (b.shutdown ending) (s.shutdown ending) := by
  have hlog : Alongside known (b.log (.shutdown b.encrypted)) (s.log (.shutdown b.encrypted)) :=
    h.log rfl
  have hcourse : (s.shutdown ending).course = (b.shutdown ending).course := by
    have hsame : (s.shutdown ending).course = (s.log (.shutdown b.encrypted)).course := by
      rw [← h.encrypted_eq]
      rfl
    exact hsame.trans hlog.course_eq
  refine ⟨h.matched, hcourse, ?_, h.encrypted_eq, h.upgradeDue_eq, h.error_eq⟩
  simp only [Session.shutdown, h.now_eq, h.matched.settings_eq]

/-- The end of a submission takes nothing from the buffer and hands nothing to the dialogue. -/
theorem converse_left (s : Session) (script : Script) :
    (s.converse script).2.buffer = (exchange script.upgrade (s.call .connected)).2.buffer ∧
      heard (s.converse script).2.entries =
        heard (exchange script.upgrade (s.call .connected)).2.entries := by
  unfold converse
  split
  · next ended heq =>
    rw [heq]
    exact ⟨rfl, rfl⟩
  · next ended heq =>
    rw [heq]
    exact ⟨rfl, rfl⟩
  · next ended heq =>
    rw [heq]
    refine ⟨rfl, ?_⟩
    have hcalls : callsOf (ended.shutdown script.shutdown).entries = callsOf ended.entries :=
      ended.callsOf_log (e := .shutdown ended.encrypted) rfl
    rw [heard, hcalls]
    rfl

/-- Two submissions of which the caller and the server see the same, and whose dialogues are handed
the same lines. -/
structure Unnoticed (r r' : Result) : Prop where
  returned : r'.1 = r.1
  heard_eq : heard r'.2.entries = heard r.2.entries
  seen_eq : seenOf r'.2.entries = seenOf r.2.entries
  written_eq : r'.2.entries.filterMap Entry.written? = r.2.entries.filterMap Entry.written?

/-- Sessions that go alongside each other to their end are the same to the caller and to the server.
-/
theorem Alongside.unnoticed {r r' : Result} (h : Alongside known r.2 r'.2)
    (hreturned : r'.1 = r.1) : Unnoticed r r' := by
  refine ⟨hreturned, h.heard_eq, h.filterMap_eq fun e he => ?_, h.filterMap_eq fun e he => ?_⟩
  · cases e with
    | event e => cases he
    | _ => rfl
  · cases e with
    | write data | writeAttempt data => cases he
    | _ => rfl

/-- What two exchanges that end together are followed by. -/
theorem Alongside.converse {script script' : Script}
    (hshutdown : script'.shutdown = script.shutdown)
    (hexit : (exchange script'.upgrade (s.call .connected)).1 =
      (exchange script.upgrade (b.call .connected)).1)
    (h : Alongside known (exchange script.upgrade (b.call .connected)).2
      (exchange script'.upgrade (s.call .connected)).2) :
    Alongside known (b.converse script).2 (s.converse script').2 ∧
      (s.converse script').1 = (b.converse script).1 := by
  unfold Session.converse
  generalize exchange script.upgrade (b.call .connected) = r at hexit h ⊢
  generalize exchange script'.upgrade (s.call .connected) = r' at hexit h ⊢
  obtain ⟨exit, ended⟩ := r
  obtain ⟨exit', ended'⟩ := r'
  cases hexit
  cases exit with
  | never => exact ⟨h, rfl⟩
  | lost => exact ⟨h, congrArg some h.verdict_eq⟩
  | closed =>
    have hshut := h.shutdown script.shutdown
    rw [← hshutdown] at hshut ⊢
    exact ⟨hshut, congrArg some hshut.verdict_eq⟩

/-- A session that goes unnoticed is one that has lost nothing. -/
theorem Concludes.converse {script script' : Script}
    (hshutdown : script'.shutdown = script.shutdown)
    (h : Concludes known (exchange script.upgrade (b.call .connected))
      (exchange script'.upgrade (s.call .connected))) :
    Unnoticed (b.converse script) (s.converse script') ↔ (s.converse script').2.buffer = [] := by
  obtain ⟨hleft, hheard'⟩ := s.converse_left script'
  obtain ⟨-, hheard⟩ := b.converse_left script
  rw [hleft]
  cases h with
  | alike hexit h hread =>
    obtain ⟨hlast, hreturned⟩ := h.converse hshutdown hexit
    exact iff_of_true (hlast.unnoticed hreturned) hread
  | cut hlost more hmore =>
    refine iff_of_false (fun hsame => ?_) hlost
    have hlines := hsame.heard_eq
    rw [hheard, hheard', hmore] at hlines
    simp at hlines

def given (s : Session) (steps : List Step) : Session := { s with steps := steps }

theorem reports_given (s : Session) (steps : List Step) (es : List Event) :
    es.foldl report (s.given steps) = (es.foldl report s).given steps := by
  induction es generalizing s with
  | nil => rfl
  | cons e later ih =>
    have hreport : (s.given steps).report e = (s.report e).given steps := by cases e <;> rfl
    rw [List.foldl_cons, List.foldl_cons, hreport, ih]

theorem call_given (s : Session) (steps : List Step) (c : Call) :
    (s.given steps).call c = (s.call c).given steps :=
  reports_given { s.log (.call c) with dialogue := (s.dialogue.perform c).1 } steps _

/-- A connection is made without a look at the script. -/
theorem connectWith_given (s : Session) (steps : List Step) (deadline : Moment) (ending : Ending)
    (delays : List Delay) :
    (s.given steps).connectWith deadline ending delays =
      ((s.connectWith deadline ending delays).1,
        (s.connectWith deadline ending delays).2.given steps) := by
  fun_induction connectWith s deadline ending delays with
  | case1 s length later h ih =>
    have hnow : (s.given steps).now + length.nanos ≤ deadline := h
    rw [connectWith, if_pos hnow]
    exact ih
  | case2 s length later h =>
    have hnow : ¬(s.given steps).now + length.nanos ≤ deadline := h
    rw [connectWith, if_neg hnow]
    rfl
  | case3 s c later h =>
    have hnow : deadline ≤ (s.given steps).now := h
    rw [connectWith, if_pos hnow]
  | case4 s c later h told hfinished =>
    have hnow : ¬deadline ≤ (s.given steps).now := h
    have hended : ((s.call c.call).given steps).dialogue.isFinished = true := hfinished
    rw [connectWith, if_neg hnow, call_given]
    exact if_pos hended
  | case5 s c later h told hopen ih =>
    have hnow : ¬deadline ≤ (s.given steps).now := h
    have hgoes : ¬((s.call c.call).given steps).dialogue.isFinished = true := hopen
    rw [connectWith, if_neg hnow, call_given]
    exact (if_neg hgoes).trans ih
  | case6 s result now hwithin =>
    have hend : ending.within ⟨deadline - (s.given steps).now⟩ "connect" (s.given steps).now =
        (result, now) := hwithin
    rw [connectWith, hend]
    rfl

end Session

def Script.interrupted (script : Script) (steps : List Step) : Script :=
  { script with steps := steps, upgrade := Session.overSegments script.upgrade }

namespace Session

section Submission

variable (settings : Settings) (password : Option String) (envelope : Except Error Envelope)
  (script : Script) (steps : List Step)

theorem start_interrupted : start settings password (script.interrupted steps) =
    (start settings password script).given steps := by
  cases password with
  | none => rfl
  | some text => exact call_given (start settings none script) steps (.password text)

theorem connecting_interrupted (e : Envelope) :
    connecting settings password (script.interrupted steps) e =
      ((connecting settings password script e).1,
        (connecting settings password script e).2.given steps) := by
  unfold connecting
  rw [start_interrupted, call_given]
  exact connectWith_given (((start settings password script).call (.submit e)).log
    settings.connection) steps _ _ _

/-- Both submissions begin with the same connection. -/
theorem opened_interrupted : opened settings password envelope (script.interrupted steps) =
    (opened settings password envelope script).map (·.given steps) := by
  cases envelope with
  | error error => rfl
  | ok e =>
    unfold opened
    dsimp only
    rw [connecting_interrupted]
    obtain ⟨result, s⟩ := connecting settings password script e
    cases result with
    | none => rfl
    | some result => cases result <;> rfl

variable {settings password envelope script steps}

/-- A submission that gets no connection does not come to its script. -/
theorem run_of_unopened (steps : List Step)
    (h : opened settings password envelope script = none) :
    run settings password envelope (script.interrupted steps) =
        ((run settings password envelope script).1,
          (run settings password envelope script).2.given steps) ∧
      (run settings password envelope script).2.buffer = [] := by
  cases envelope with
  | error error =>
    refine ⟨?_, (fresh_start settings password script).unread⟩
    simp only [run, start_interrupted]
    rfl
  | ok e =>
    have hfresh := fresh_connecting settings password script e
    rw [run_ok, run_ok, connecting_interrupted]
    unfold opened at h
    dsimp only at h
    generalize connecting settings password script e = r at h hfresh ⊢
    obtain ⟨result, s⟩ := r
    cases result with
    | none => exact ⟨rfl, hfresh.unread⟩
    | some result =>
      cases result with
      | error error =>
        refine ⟨?_, (hfresh.call (c := .lost error) rfl).unread⟩
        dsimp only
        rw [call_given]
        rfl
      | ok _ => cases h

/-- A password that the dialogue does not act on goes unnoticed wherever it comes between what the
server sends, unless the stream ends in a line that it has interrupted. -/
theorem unnoticed_iff (settings : Settings) (password : Option String)
    (envelope : Except Error Envelope) (script : Script) (steps : List Step)
    (htimeout : 0 < settings.exchangeTimeout.nanos)
    (hsteps : script.steps = steps.filter Step.isSegment)
    (hidle : ∀ first, opened settings password envelope script = some first →
      Interjects settings first.dialogue.password steps) :
    Unnoticed (run settings password envelope script)
        (run settings password envelope (script.interrupted steps)) ↔
      (run settings password envelope (script.interrupted steps)).2.buffer = [] := by
  cases hopened : opened settings password envelope script with
  | none =>
    obtain ⟨hrun, hread⟩ := run_of_unopened steps hopened
    rw [hrun]
    exact iff_of_true ⟨rfl, rfl, rfl, rfl⟩ hread
  | some first =>
    have hopened' : opened settings password envelope (script.interrupted steps) =
        some (first.given steps) := by
      rw [opened_interrupted, hopened]
      rfl
    obtain ⟨hfresh, -⟩ := fresh_of_opened hopened
    have hmatched := Dialogue.matched_after settings (callsOf first.entries)
    rw [← hfresh.attends.dialogue_eq] at hmatched
    have hlevel : Level settings first.dialogue.password first (first.given steps) := by
      refine ⟨⟨hmatched, rfl, rfl, rfl, rfl, rfl⟩, ?_, ?_, hidle first hopened, hfresh.unread,
        hfresh.unread⟩
      · rw [hfresh.attends.dialogue_eq, Dialogue.settings_after]
      · rw [steps_of_opened hopened, hsteps]
        rfl
    rw [run_of_opened hopened, run_of_opened hopened']
    have hconcludes : Concludes first.dialogue.password
        (exchange script.upgrade (first.call .connected))
        (exchange (script.interrupted steps).upgrade ((first.given steps).call .connected)) :=
      (hlevel.call rfl).concludes htimeout
    exact hconcludes.converse rfl

end Submission

def interruptedSteps : List Step :=
  [.control (.password "early"), .line (Utf8.encode "220 mx ESMTP"), .part (Utf8.encode "25"),
    .control (.password "secret"), .line (Utf8.encode "0 mx"), .line (Utf8.encode "250 ok"),
    .line (Utf8.encode "250 ok"), .line (Utf8.encode "354 go"), .part (Utf8.encode "250"),
    .control (.password "late"), .line (Utf8.encode " queued"), .line (Utf8.encode "221 bye")]

def cutSteps : List Step :=
  [.line (Utf8.encode "220 mx ESMTP"), .part (Utf8.encode "250 m"), .control (.password "secret")]

/-- Passwords between the replies and within them go unnoticed where the server takes the message.
-/
theorem unnoticed_interruptedSteps :
    (∀ first, opened .plain none (.ok .greeting)
        (.atOnce (interruptedSteps.filter Step.isSegment)) = some first →
      Interjects .plain first.dialogue.password interruptedSteps) ∧
    (opened .plain none (.ok .greeting)
      (.atOnce (interruptedSteps.filter Step.isSegment))).isSome = true ∧
    Unnoticed
      (run .plain none (.ok .greeting) (.atOnce (interruptedSteps.filter Step.isSegment)))
      (run .plain none (.ok .greeting)
        (Script.interrupted (.atOnce (interruptedSteps.filter Step.isSegment))
          interruptedSteps)) := by
  have hidle : ∀ first, opened .plain none (.ok .greeting)
      (.atOnce (interruptedSteps.filter Step.isSegment)) = some first →
      Interjects .plain first.dialogue.password interruptedSteps :=
    fun first _ => interjects_of_free rfl (by decide)
  have htimeout : 0 < Settings.plain.exchangeTimeout.nanos := by decide
  exact ⟨hidle, by decide +kernel,
    (unnoticed_iff .plain none (.ok .greeting) _ interruptedSteps htimeout rfl hidle).mpr
      (by decide +kernel)⟩

/-- The same reply is handed to the dialogue only where it was not interrupted. -/
theorem noticed_cutSteps :
    (∀ known, Interjects .plain known cutSteps) ∧
    ¬Unnoticed (run .plain none (.ok .greeting) (.atOnce (cutSteps.filter Step.isSegment)))
      (run .plain none (.ok .greeting)
        (Script.interrupted (.atOnce (cutSteps.filter Step.isSegment)) cutSteps)) := by
  refine ⟨fun known => interjects_of_free rfl (by decide), fun hsame => ?_⟩
  have hlines := hsame.heard_eq
  revert hlines
  decide +kernel

end Session

end SmtpClient
