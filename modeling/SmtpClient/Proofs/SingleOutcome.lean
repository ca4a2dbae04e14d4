import SmtpClient.Proofs.MessageBody
import SmtpClient.Proofs.Standing

namespace SmtpClient

def Event.isOutcome : Event → Bool
  | succeeded | failed _ => true
  | _ => false

def Call.breaksOff : Call → Bool
  | cancel => true
  | line bytes => !(Reply.parse bytes).isOk
  | _ => false

namespace Dialogue

inductive Settles (r : Outcome) : Prop
  | goesOn (hopen : r.1.phase ≠ .closed) (hs : r.1.succeeded = false)
    (he : ∀ e ∈ r.2, e.isOutcome = false)
  | succeeds (before : List Event) (hopen : r.1.phase ≠ .closed) (hs : r.1.succeeded = true)
    (he : r.2 = before ++ [.succeeded]) (hb : ∀ e ∈ before, e.isOutcome = false)
  | fails (error : Error) (hclosed : r.1.phase = .closed) (hs : r.1.succeeded = false)
    (he : r.2 = [.failed error])

/-- A failure of an undecided dialogue is its only outcome. -/
theorem settles_fail {d : Dialogue} (hs : d.succeeded = false) (error : Error) (mayQuit : Bool) :
    Settles (d.fail error mayQuit) := by
  rw [fail_eq]
  exact .fails error rfl hs rfl

theorem Beginning.settles {d : Dialogue} {r : Outcome} (h : d.Beginning r)
    (hopen : d.phase ≠ .closed) (hs : d.succeeded = false) : Settles r := by
  cases h with
  | failed error => exact settles_fail hs error true
  | batch e size => exact .goesOn (by simp [sendBatch]) hs (by simp)
  | sender e size => exact .goesOn hopen hs (by simp)

/-- What is arranged after the greetings fails and says so, or it reports no outcome. -/
theorem Negotiation.settles {d : Dialogue} {r : Outcome} (h : d.Negotiation r)
    (hopen : d.phase ≠ .closed) (hs : d.succeeded = false) : Settles r := by
  cases h with
  | failed error => exact settles_fail hs error true
  | startTls => exact .goesOn hopen hs (by simp)
  | park => exact .goesOn hopen hs (by simp)
  | ask => exact .goesOn hopen hs (by simp [requestPassword, Event.isOutcome])
  | auth => exact .goesOn hopen hs (by simp)
  | begun => exact d.beginTransaction_beginning.settles hopen hs

theorem settles_sendPassword {d : Dialogue} (hopen : d.phase ≠ .closed)
    (hs : d.succeeded = false) : Settles d.sendPassword := by
  unfold sendPassword
  split
  · exact settles_fail hs _ _
  · split
    · exact settles_fail hs _ _
    · exact .goesOn hopen hs (by simp)

theorem settles_sendBody {d : Dialogue} (hopen : d.phase ≠ .closed)
    (hs : d.succeeded = false) : Settles d.sendBody := by
  unfold sendBody
  split
  · exact .goesOn hopen hs (by simp [Event.isOutcome])
  · exact settles_fail hs _ _

/-- A success is an outcome, and the only one of its step. -/
theorem settles_succeed {d : Dialogue} (hopen : d.phase ≠ .closed) : Settles d.succeed := by
  cases hp : d.envelope.map Envelope.payload with
  | none => exact .succeeds [] hopen rfl (by simp [succeed, hp]) (by simp)
  | some p =>
    cases p with
    | message data => exact .succeeds [] hopen rfl (by simp [succeed, hp]) (by simp)
    | reference target =>
      exact .succeeds [.progress 1] hopen rfl (by simp [succeed, hp]) (by simp [Event.isOutcome])

theorem sendNextRecipient_phase (d : Dialogue) : d.sendNextRecipient.phase = d.phase := by
  unfold sendNextRecipient
  split
  · rfl
  · split <;> rfl

theorem sendNextRecipient_succeeded (d : Dialogue) :
    d.sendNextRecipient.succeeded = d.succeeded := by
  unfold sendNextRecipient
  split
  · rfl
  · split <;> rfl

theorem settle_open {d : Dialogue} (hopen : d.phase ≠ .closed) (awaited : Awaited) (code : Code) :
    (settle d awaited code).phase ≠ .closed := by
  unfold settle
  split
  · exact hopen
  · split
    · exact hopen
    · dsimp only
      split
      · simp
      · exact hopen

/-- Only the reply to QUIT can close a dialogue without a word. -/
theorem settles_reactTo {d : Dialogue} (hopen : d.phase ≠ .closed) (hs : d.succeeded = false)
    {awaited : Awaited} (hquit : awaited ≠ .answer .quit) (reply : Reply) (text : String)
    {decision : Decision} (hl : Decision.Listed reply.code awaited decision) :
    Settles (d.reactTo awaited reply text decision) := by
  unfold reactTo
  have hopen' : (settle { d with replyTexts := [] } awaited reply.code).phase ≠ .closed :=
    settle_open (d := { d with replyTexts := [] }) hopen awaited reply.code
  have hs' := (settle_succeeded { d with replyTexts := [] } awaited reply.code).trans hs
  generalize settle { d with replyTexts := [] } awaited reply.code = s at hopen' hs'
  have hnext : Settles (if s.batched then s else s.sendNextRecipient, []) := by
    refine .goesOn ?_ ?_ (by simp)
    · dsimp only
      split
      · exact hopen'
      · rwa [sendNextRecipient_phase]
    · dsimp only
      split
      · exact hs'
      · rwa [sendNextRecipient_succeeded]
  cases hl with
  | greet => exact .goesOn (by simp [act, advance, greet, send, flush]) hs' (by simp [act, advance])
  | announce => exact (negotiate_negotiation _).settles hopen' hs'
  | retry => exact .goesOn hopen' hs' (by simp [act])
  | negotiate => exact (negotiate_negotiation _).settles hopen' hs'
  | encrypt => exact .goesOn hopen' hs' (by simp [act, advance, Event.isOutcome])
  | sendPassword => exact settles_sendPassword hopen' hs'
  | beginTransaction => exact (beginTransaction_beginning _).settles hopen' hs'
  | firstRecipient => exact hnext
  | nextRecipient => exact hnext
  | sendBody => exact settles_sendBody hopen' hs'
  | quitAfterData => exact settles_succeed hopen'
  | quitAfterBurl => exact settles_succeed hopen'
  | close => exact absurd rfl hquit
  | fail _ refusal =>
    simp only [act, hquit, decide_false, Bool.false_and, Bool.false_eq_true, if_false]
    exact settles_fail hs' _ _

/-- Before the success no QUIT is awaited. -/
theorem Standing.awaited_ne_quit {d : Dialogue} {due : Nat} (h : d.Standing due)
    (hs : d.succeeded = false) (hopen : d.phase ≠ .closed) :
    d.awaited ≠ some (.answer .quit) := by
  cases h with
  | idle hd => simp [hd.awaited_eq_none]
  | greeting hd => simp [hd.awaited_eq_greeting]
  | opening verb hv hd =>
    rw [hd.awaited_eq_answer (by simp)]
    rintro ⟨⟩
    cases hv
  | parked hd => simp [hd.awaited_eq_none]
  | handshake hd => simp [hd.awaited_eq_none]
  | sending e c rest he hs' hl hf =>
    intro hq
    have hkind := hl.verb
    rw [hf.awaited_eq, Option.some.injEq, Awaited.answer.injEq] at hq
    simp [hq] at hkind
  | leaving hd hs' => simp [hs'] at hs
  | closed _ hclosed => exact absurd hclosed hopen

/-- A line settles an undecided dialogue with one outcome, or leaves it undecided. -/
theorem settles_takeLine {d : Dialogue} {due : Nat} (h : d.Standing due)
    (hopen : d.phase ≠ .closed) (hs : d.succeeded = false) (line : Bytes) :
    Settles (d.takeLine line) := by
  have hread := d.takeLine_reading line
  generalize d.takeLine line = r at hread ⊢
  cases hread with
  | closed hclosed => simp [isFinished, hopen] at hclosed
  | malformed error => exact settles_fail hs _ _
  | unasked reply => exact settles_fail hs _ _
  | held reply awaited =>
    unfold holdLine
    split <;> exact .goesOn hopen hs (by simp)
  | completed reply awaited _ _ hw _ =>
    have hquit : awaited ≠ .answer .quit := by
      rintro rfl
      exact h.awaited_ne_quit hs hopen hw
    exact settles_reactTo hopen hs hquit reply _ (Decision.listed_of awaited reply.code)

/-- The same of any call. -/
theorem settles_perform {d : Dialogue} {due : Nat} (h : d.Standing due)
    (hopen : d.phase ≠ .closed) (hs : d.succeeded = false) (call : Call) :
    Settles ((d.perform call).1, d.eventsOf call) := by
  have hunfinished : ¬d.isFinished = true := by simpa [isFinished] using hopen
  cases call with
  | submit e =>
    rcases d.perform_submit e with ⟨heq, hev⟩ | ⟨-, -, requested, asked, heq, hev, hasked⟩
    · rw [eventsOf, heq, hev]
      exact .goesOn hopen hs (by simp)
    · rw [eventsOf, heq, hev]
      refine .goesOn hopen hs ?_
      rcases hasked with rfl | rfl <;> simp [Event.isOutcome]
  | connected =>
    simp only [perform, connect, eventsOf]
    split
    · exact .goesOn (by simp) hs (by simp [Answer.silent])
    · exact .goesOn hopen hs (by simp [Answer.silent])
  | line line => exact settles_takeLine h hopen hs line
  | password text =>
    refine .goesOn ?_ ?_ (by simp [eventsOf, perform, Answer.silent])
    · simp only [perform, givePassword]
      split <;> exact hopen
    · simp only [perform, givePassword]
      split <;> exact hs
  | encrypted =>
    simp only [perform, encrypt, if_neg hunfinished, eventsOf]
    exact .goesOn hopen hs (by simp [Answer.silent])
  | cancel =>
    change Settles d.cancel
    rw [cancel, if_neg hunfinished]
    exact settles_fail hs _ _
  | lost error =>
    change Settles (d.disconnect error)
    rw [disconnect, if_neg hunfinished, if_neg (by simp [hs])]
    exact settles_fail hs _ _
  | poll => exact .goesOn hopen hs (by simp [eventsOf, perform])

/-- Once a dialogue is closed no call has an effect. -/
theorem perform_of_closed {d : Dialogue} (h : d.phase = .closed) (call : Call) :
    (d.perform call).1.phase = .closed ∧ (d.perform call).1.succeeded = d.succeeded ∧
      d.eventsOf call = [] ∧ d.outputOf call = [] := by
  have hfinished : d.isFinished = true := by simpa [isFinished] using h
  cases call with
  | submit e =>
    rcases d.perform_submit e with ⟨heq, hev⟩ | ⟨-, hidle, -⟩
    · rw [outputOf, eventsOf, heq, hev]
      exact ⟨h, rfl, rfl, by simp⟩
    · rw [h] at hidle
      cases hidle
  | connected =>
    have hsame : d.connect = d := if_neg (by simp [h])
    exact ⟨by simpa [perform, hsame] using h, by simp [perform, hsame], rfl,
      by simp [outputOf, perform, hsame]⟩
  | line line =>
    have hsame : d.takeLine line = (d, []) := if_pos hfinished
    simp [outputOf, eventsOf, perform, hsame, h, Answer.ofEvents]
  | password text =>
    have hstored := givePassword_of_unparked (fun _ => h) text
    simp [outputOf, eventsOf, perform, hstored, h, Answer.silent]
  | encrypted =>
    have hsame : d.encrypt = d := if_pos hfinished
    simp [outputOf, eventsOf, perform, hsame, h, Answer.silent]
  | cancel =>
    have hsame : d.cancel = (d, []) := if_pos hfinished
    simp [outputOf, eventsOf, perform, hsame, h, Answer.ofEvents]
  | lost error =>
    have hsame : d.disconnect error = (d, []) := if_pos hfinished
    simp [outputOf, eventsOf, perform, hsame, h, Answer.ofEvents]
  | poll => exact ⟨h, rfl, rfl, d.outputOf_poll⟩

/-- Between the success and the end of the connection only a break is reported. -/
theorem perform_of_succeeded {d : Dialogue} {due : Nat} (h : d.Standing due)
    (hopen : d.phase ≠ .closed) (hs : d.succeeded = true) (call : Call)
    (hdue : call = .encrypted → 0 < due) :
    (call.breaksOff = true → (d.perform call).1.phase = .closed ∧
      ∃ error, d.eventsOf call = [.failed error]) ∧
    (call.breaksOff = false → d.eventsOf call = [] ∧ d.outputOf call = []) := by
  have hunfinished : d.isFinished = false := by simpa [isFinished] using hopen
  obtain ⟨rfl, hd⟩ := h.of_succeeded hs hunfinished
  cases call with
  | submit e =>
    refine ⟨by simp [Call.breaksOff], fun _ => ?_⟩
    rcases d.perform_submit e with ⟨heq, hev⟩ | ⟨-, hidle, -⟩
    · rw [outputOf, eventsOf, heq, hev]
      exact ⟨rfl, by simp⟩
    · rw [hd.phase_eq] at hidle
      cases hidle
  | connected =>
    have hsame : d.connect = d := if_neg (by simp [hd.phase_eq])
    exact ⟨by simp [Call.breaksOff], fun _ => ⟨rfl, by simp [outputOf, perform, hsame]⟩⟩
  | line line =>
    simp only [outputOf, eventsOf, perform, Answer.ofEvents, Call.breaksOff]
    have hread := d.takeLine_reading line
    generalize d.takeLine line = r at hread ⊢
    cases hread with
    | closed hclosed => simp [hunfinished] at hclosed
    | malformed error _ hparse => simp [hparse, Except.isOk, Except.toBool]
    | unasked reply _ _ hw => simp [hd.awaited_eq_answer (by simp)] at hw
    | held reply awaited _ hparse =>
      refine ⟨by simp [hparse, Except.isOk, Except.toBool], fun _ => ?_⟩
      unfold holdLine
      split <;> simp
    | completed reply awaited _ hparse hw =>
      refine ⟨by simp [hparse, Except.isOk, Except.toBool], fun _ => ?_⟩
      rw [hd.awaited_eq_answer (by simp)] at hw
      obtain rfl := Option.some.inj hw
      rw [reactTo_leaving hs reply _ (Decision.listed_of _ _)]
      exact ⟨rfl, by simp [close]⟩
  | password text =>
    have hstored := givePassword_of_unparked (d := d) (by simp [hd.parked_eq]) text
    exact ⟨by simp [Call.breaksOff], fun _ => ⟨rfl, by simp [outputOf, perform, hstored]⟩⟩
  | encrypted => exact absurd (hdue rfl) (Nat.lt_irrefl 0)
  | cancel =>
    refine ⟨fun _ => ?_, by simp [Call.breaksOff]⟩
    have hcancel : d.cancel = d.fail .cancelled false := if_neg (by simp [hunfinished])
    simp [eventsOf, perform, hcancel, Answer.ofEvents]
  | lost error =>
    have hclose : d.disconnect error = ({ d with phase := .closed }, []) := by
      simp [disconnect, hunfinished, hs]
    exact ⟨by simp [Call.breaksOff], fun _ => by simp [outputOf, eventsOf, perform, hclose,
      Answer.ofEvents]⟩
  | poll => exact ⟨by simp [Call.breaksOff], fun _ => ⟨rfl, d.outputOf_poll⟩⟩

inductive Reported (d : Dialogue) (events : List Event) : Prop
  | nothing (hopen : d.phase ≠ .closed) (hs : d.succeeded = false)
    (he : ∀ e ∈ events, e.isOutcome = false)
  | success (before : List Event) (hopen : d.phase ≠ .closed) (hs : d.succeeded = true)
    (he : events = before ++ [.succeeded]) (hb : ∀ e ∈ before, e.isOutcome = false)
  | outcome (before : List Event) (last : Event) (hclosed : d.phase = .closed)
    (hl : last.isOutcome = true) (he : events = before ++ [last])
    (hb : ∀ e ∈ before, e.isOutcome = false)

def ReportedTwice (d : Dialogue) (events : List Event) : Prop :=
  d.phase = .closed ∧ d.succeeded = true ∧
    ∃ before error, events = before ++ [.succeeded, .failed error]

def FailsLate (settings : Settings) (calls : List Call) : Prop :=
  Occurs calls fun before call => call.breaksOff = true ∧
    ((start settings).after before).succeeded = true ∧
    ((start settings).after before).isFinished = false

instance (settings : Settings) (calls : List Call) : Decidable (FailsLate settings calls) :=
  inferInstanceAs (Decidable (Occurs calls _))

theorem failsLate_snoc_iff (settings : Settings) (calls : List Call) (call : Call) :
    FailsLate settings (calls ++ [call]) ↔ FailsLate settings calls ∨
      (call.breaksOff = true ∧ ((start settings).after calls).succeeded = true ∧
        ((start settings).after calls).isFinished = false) :=
  occurs_snoc_iff calls call _

/-- One call further there is still one outcome at most, unless a success is broken off. -/
theorem Reported.snoc {d : Dialogue} {events : List Event} {due : Nat} (hr : Reported d events)
    (h : d.Standing due) (call : Call) (hdue : call = .encrypted → 0 < due)
    (hkept : d.succeeded = true → d.phase ≠ .closed → call.breaksOff = false) :
    Reported (d.perform call).1 (events ++ d.eventsOf call) := by
  cases hr with
  | nothing hopen hs he =>
    cases settles_perform h hopen hs call with
    | goesOn hopen' hs' he' =>
      refine .nothing hopen' hs' fun e hmem => ?_
      rcases List.mem_append.mp hmem with hmem | hmem
      · exact he e hmem
      · exact he' e hmem
    | succeeds before hopen' hs' he' hb =>
      dsimp only at he'
      rw [he', ← List.append_assoc]
      refine .success (events ++ before) hopen' hs' rfl fun e hmem => ?_
      rcases List.mem_append.mp hmem with hmem | hmem
      · exact he e hmem
      · exact hb e hmem
    | fails error hclosed hs' he' =>
      dsimp only at he'
      rw [he']
      exact .outcome events (.failed error) hclosed rfl rfl he
  | success before hopen hs he hb =>
    obtain ⟨-, hquiet⟩ := perform_of_succeeded h hopen hs call hdue
    rw [(hquiet (hkept hs hopen)).1, List.append_nil]
    by_cases hclosed : (d.perform call).1.phase = .closed
    · exact .outcome before .succeeded hclosed rfl he hb
    · exact .success before hclosed (d.succeeded_perform call hs) he hb
  | outcome before last hclosed hl he hb =>
    obtain ⟨hclosed', -, hnone, -⟩ := perform_of_closed hclosed call
    rw [hnone, List.append_nil]
    exact .outcome before last hclosed' hl he hb

/-- A success that is broken off is reported together with a failure. -/
theorem ReportedTwice.of_success {d : Dialogue} {events : List Event} {due : Nat}
    (hr : Reported d events) (h : d.Standing due) (hs : d.succeeded = true)
    (hopen : d.phase ≠ .closed) (call : Call) (hdue : call = .encrypted → 0 < due)
    (hbreak : call.breaksOff = true) :
    ReportedTwice (d.perform call).1 (events ++ d.eventsOf call) := by
  cases hr with
  | nothing _ hs' => simp [hs] at hs'
  | success before _ _ he =>
    obtain ⟨hclosed, error, hev⟩ := (perform_of_succeeded h hopen hs call hdue).1 hbreak
    exact ⟨hclosed, d.succeeded_perform call hs, before, error, by simp [he, hev]⟩
  | outcome _ _ hclosed => exact absurd hclosed hopen

/-- A run reports two outcomes if it is broken off after a success, and else at most one. -/
theorem reported_run {settings : Settings} {calls : List Call}
    (h : EncryptsWhenDue settings calls) :
    (FailsLate settings calls ∧
      ReportedTwice ((start settings).after calls) ((start settings).events calls)) ∨
    (¬FailsLate settings calls ∧
      Reported ((start settings).after calls) ((start settings).events calls)) := by
  -- by induction over the run, together with the place where the dialogue stands
  refine h.induction ?_ ?_
  · exact Or.inr ⟨not_occurs_nil _, .nothing (by simp [start]) rfl (by simp)⟩
  · intro calls call due hstanding hdue ih
    rw [after_snoc, events_snoc, failsLate_snoc_iff, isFinished_eq_false_iff]
    rcases ih with ⟨hlate, hclosed, hs, before, error, he⟩ | ⟨hlate, hr⟩
    · obtain ⟨hclosed', hs', hnone, -⟩ := perform_of_closed hclosed call
      refine Or.inl ⟨Or.inl hlate, hclosed', hs'.trans hs, before, error, ?_⟩
      rw [hnone, List.append_nil, he]
    · -- the call is the first that breaks off after a success, or none has done so yet
      by_cases hbreak : call.breaksOff = true ∧ ((start settings).after calls).succeeded = true ∧
          ((start settings).after calls).phase ≠ .closed
      · obtain ⟨hb, hs, hopen⟩ := hbreak
        exact Or.inl ⟨Or.inr ⟨hb, hs, hopen⟩, .of_success hr hstanding hs hopen call hdue hb⟩
      · refine Or.inr ⟨by simp only [not_or]; exact ⟨hlate, hbreak⟩, ?_⟩
        refine hr.snoc hstanding call hdue fun hs hopen => ?_
        exact Bool.eq_false_iff.mpr fun hb => hbreak ⟨hb, hs, hopen⟩

/-- An outcome is the last event. -/
theorem Reported.eq_nil_of_outcome {d : Dialogue} {events : List Event} (h : Reported d events)
    {before later : List Event} {e : Event} (heq : events = before ++ e :: later)
    (he : e.isOutcome = true) : later = [] := by
  have hlast {front : List Event} {last : Event} (hfront : ∀ e ∈ front, e.isOutcome = false)
      (hev : events = front ++ [last]) : later = [] := by
    rcases List.eq_nil_or_concat later with rfl | ⟨later', e', rfl⟩
    · rfl
    · have hsplit : front ++ [last] = (before ++ e :: later') ++ [e'] := by
        rw [← hev, heq]
        simp
      obtain ⟨rfl, -⟩ := List.append_inj' hsplit rfl
      simp [hfront e (by simp)] at he
  cases h with
  | nothing _ _ hnone => simp [hnone e (by simp [heq])] at he
  | success front _ _ hev hb => exact hlast hb hev
  | outcome front last _ _ hev hb => exact hlast hb hev

theorem Reported.not_failed {d : Dialogue} {events : List Event} (h : Reported d events)
    (hmem : .succeeded ∈ events) {error : Error} : .failed error ∉ events := by
  intro hfailed
  obtain ⟨before, later, heq⟩ := List.append_of_mem hfailed
  have hlater : later = [] := h.eq_nil_of_outcome heq rfl
  subst hlater
  rw [heq] at hmem
  rcases List.mem_append.mp hmem with hbefore | hlast
  · obtain ⟨front, back, rfl⟩ := List.append_of_mem hbefore
    have hsplit : events = front ++ .succeeded :: (back ++ [.failed error]) := by simpa using heq
    have hback := h.eq_nil_of_outcome hsplit rfl
    simp at hback
  · cases List.mem_singleton.mp hlast

/-- After a success that is not broken off nothing more is put out. -/
theorem putOut_after_success {settings : Settings} {calls : List Call}
    (h : EncryptsWhenDue settings calls) (hlate : ¬FailsLate settings calls)
    {before later : List Call} (heq : calls = before ++ later)
    (hmem : .succeeded ∈ (start settings).events before) :
    (start settings).putOut calls = (start settings).putOut before := by
  subst heq
  induction later using List.reverseRecOn with
  | nil => rw [List.append_nil]
  | append_singleton later call ih =>
    rw [← List.append_assoc] at h hlate ⊢
    rw [failsLate_snoc_iff, not_or] at hlate
    have hstanding := h.of_append.standing.2
    have hs : ((start settings).after (before ++ later)).succeeded = true :=
      succeeded_of_mem_events (by simp [hmem])
    rw [putOut_snoc, ih h.of_append hlate.1, List.append_right_eq_self]
    by_cases hclosed : ((start settings).after (before ++ later)).phase = .closed
    · exact (perform_of_closed hclosed call).2.2.2
    · obtain ⟨-, hquiet⟩ := perform_of_succeeded hstanding hclosed hs call
        fun hcall => Nat.sub_pos_of_lt (h.due_of_snoc hcall)
      refine (hquiet (Bool.eq_false_iff.mpr fun hb => hlate.2 ⟨hb, hs, ?_⟩)).2
      exact (isFinished_eq_false_iff _).mpr hclosed

/-- What callers may rely on: a success and a failure are never both reported, an outcome is the
last event, after a success nothing more is put out, and a run that has finished has reported an
outcome. -/
structure SingleOutcome (settings : Settings) (calls : List Call) : Prop where
  exclusive : .succeeded ∈ (start settings).events calls →
    ∀ error, .failed error ∉ (start settings).events calls
  last : ∀ before e later, (start settings).events calls = before ++ e :: later →
    e.isOutcome = true → later = []
  quiet : ∀ before later, calls = before ++ later →
    .succeeded ∈ (start settings).events before →
    (start settings).putOut calls = (start settings).putOut before
  reported : ((start settings).after calls).isFinished = true →
    ∃ e ∈ (start settings).events calls, e.isOutcome = true

/-- A run reports one outcome exactly if it is not broken off after a success. -/
theorem singleOutcome_iff (settings : Settings) (calls : List Call)
    (h : EncryptsWhenDue settings calls) :
    SingleOutcome settings calls ↔ ¬FailsLate settings calls := by
  constructor
  · intro hsingle hlate
    rcases reported_run h with ⟨-, -, -, before, error, he⟩ | ⟨hnot, -⟩
    · have hnil := hsingle.last before .succeeded [.failed error] he rfl
      cases hnil
    · exact hnot hlate
  · intro hlate
    rcases reported_run h with ⟨hlate', -⟩ | ⟨-, hr⟩
    · exact absurd hlate' hlate
    · refine ⟨fun hsucceeded _ => hr.not_failed hsucceeded,
        fun before e later heq he => hr.eq_nil_of_outcome heq he,
        fun before later heq hmem => putOut_after_success h hlate heq hmem, fun hfinished => ?_⟩
      have hclosed : ((start settings).after calls).phase = .closed := by
        simpa [isFinished] using hfinished
      cases hr with
      | nothing hopen => exact absurd hclosed hopen
      | success _ hopen => exact absurd hclosed hopen
      | outcome before last _ hl he => exact ⟨last, by simp [he], hl⟩

/-- A server that takes the message and then says goodbye leaves one outcome. -/
theorem singleOutcome_of_farewell :
    EncryptsWhenDue .plain (conversation .greeting (repliesToBody ++ ["221 bye"])) ∧
      SingleOutcome .plain (conversation .greeting (repliesToBody ++ ["221 bye"])) := by
  have hplain : EncryptsWhenDue .plain (conversation .greeting (repliesToBody ++ ["221 bye"])) :=
    .of_notMem _ (by decide +kernel)
  exact ⟨hplain, (singleOutcome_iff _ _ hplain).mpr (by decide +kernel)⟩

/-- A line that is no reply, in answer to the QUIT after a success. -/
theorem not_singleOutcome_of_garbage :
    EncryptsWhenDue .plain (conversation .greeting (repliesToBody ++ ["garbage"])) ∧
      ¬SingleOutcome .plain (conversation .greeting (repliesToBody ++ ["garbage"])) := by
  refine ⟨.of_notMem _ (by decide +kernel), fun hsingle => ?_⟩
  exact hsingle.exclusive (by decide +kernel) (.malformedReply "garbage") (by decide +kernel)

end Dialogue

end SmtpClient
