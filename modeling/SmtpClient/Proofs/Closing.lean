import SmtpClient.Proofs.Ledger

namespace SmtpClient

def Event.isFailure : Event → Bool
  | failed _ => true
  | _ => false

def Call.isLost : Call → Bool
  | lost _ => true
  | _ => false

namespace Dialogue

inductive Leaves (d : Dialogue) (r : Outcome) : Prop
  | isOpen (hopen : r.1.phase ≠ .closed) (he : ∀ e ∈ r.2, e.isFailure = false)
  | closed (hclosed : r.1.phase = .closed) (hp : r.1.pipeline = d.pipeline.clear)
    (hg : r.1.greetingDue = d.greetingDue) (he : r.2 = [] ∨ ∃ error, r.2 = [.failed error])

/-- A failure closes the dialogue, empties it and reports itself alone. -/
theorem leaves_fail (d : Dialogue) (error : Error) (mayQuit : Bool) :
    d.Leaves (d.fail error mayQuit) := by
  rw [fail_eq]
  exact .closed rfl rfl rfl (Or.inr ⟨error, rfl⟩)

/-- A failure after some marks have changed. -/
theorem Leaves.congr {d s : Dialogue} {r : Outcome} (h : s.Leaves r)
    (hp : s.pipeline.clear = d.pipeline.clear) (hg : s.greetingDue = d.greetingDue) :
    d.Leaves r := by
  cases h with
  | isOpen hopen he => exact .isOpen hopen he
  | closed hclosed hp' hg' he => exact .closed hclosed (hp'.trans hp) (hg'.trans hg) he

theorem Beginning.leaves {d : Dialogue} {r : Outcome} (h : d.Beginning r)
    (hopen : d.phase ≠ .closed) : d.Leaves r := by
  cases h with
  | failed error => exact d.leaves_fail error true
  | batch e size => exact .isOpen (by simp [sendBatch]) (by simp)
  | sender e size => exact .isOpen hopen (by simp)

theorem Negotiation.leaves {d : Dialogue} {r : Outcome} (h : d.Negotiation r)
    (hopen : d.phase ≠ .closed) : d.Leaves r := by
  cases h with
  | failed error => exact d.leaves_fail error true
  | startTls => exact .isOpen hopen (by simp)
  | park => exact .isOpen hopen (by simp)
  | ask => exact .isOpen hopen (by simp [requestPassword, Event.isFailure])
  | auth => exact .isOpen hopen (by simp)
  | begun => exact d.beginTransaction_beginning.leaves hopen

theorem leaves_sendPassword {d : Dialogue} (hopen : d.phase ≠ .closed) :
    d.Leaves d.sendPassword := by
  unfold sendPassword
  split
  · exact d.leaves_fail _ _
  · split
    · exact d.leaves_fail _ _
    · exact .isOpen hopen (by simp)

theorem leaves_sendBody {d : Dialogue} (hopen : d.phase ≠ .closed) : d.Leaves d.sendBody := by
  unfold sendBody
  split
  · exact .isOpen hopen (by simp [Event.isFailure])
  · exact d.leaves_fail _ _

theorem leaves_succeed {d : Dialogue} (hopen : d.phase ≠ .closed) : d.Leaves d.succeed := by
  refine .isOpen hopen fun e he => ?_
  unfold succeed at he
  dsimp only at he
  split at he
  all_goals
    simp only [List.mem_cons, List.not_mem_nil, or_false] at he
    rcases he with rfl | rfl <;> rfl

/-- Whatever is decided on a reply, the step leaves the dialogue open without a failure, or closed
and emptied. -/
theorem leaves_act {d : Dialogue} (hopen : d.phase ≠ .closed) (awaited : Awaited) (reply : Reply)
    (text : String) (decision : Decision) : d.Leaves (d.act awaited reply text decision) := by
  cases decision with
  | announce =>
    have hmarked : Leaves { d with capabilities := d.capabilities.addReply reply }
        (negotiate { d with capabilities := d.capabilities.addReply reply }) :=
      (negotiate_negotiation _).leaves hopen
    exact hmarked.congr rfl rfl
  | retry => exact .isOpen hopen (by simp [act])
  | advance move =>
    cases move with
    | greet => exact .isOpen (by simp [act, advance, greet, send, flush]) (by simp [act, advance])
    | negotiate => exact d.negotiate_negotiation.leaves hopen
    | encrypt => exact .isOpen hopen (by simp [act, advance, Event.isFailure])
    | sendPassword => exact leaves_sendPassword hopen
    | beginTransaction =>
      have hmarked : Leaves { d with authenticated := true }
          (beginTransaction { d with authenticated := true }) :=
        (beginTransaction_beginning _).leaves hopen
      exact hmarked.congr rfl rfl
    | firstRecipient | nextRecipient =>
      simp only [act, advance]
      refine .isOpen ?_ (by simp)
      split
      · exact hopen
      · rwa [sendNextRecipient_phase]
    | sendBody => exact leaves_sendBody hopen
    | quit => exact leaves_succeed hopen
    | close => exact .closed rfl rfl rfl (Or.inl rfl)
  | fail refusal =>
    simp only [act]
    split
    · exact .closed rfl rfl rfl (Or.inl rfl)
    · exact d.leaves_fail _ _

/-- Counting a reply changes nothing that clearing would not forget. -/
theorem clear_settle (d : Dialogue) (awaited : Awaited) (code : Code) :
    (settle { d with replyTexts := [] } awaited code).pipeline.clear = d.pipeline.clear := by
  unfold settle
  split
  · rfl
  · split <;> rfl

theorem greetingDue_of_awaited {d : Dialogue} (h : d.awaited ≠ some .greeting) :
    d.greetingDue = false := by
  rw [← Bool.not_eq_true]
  intro hdue
  exact h (if_pos hdue)

/-- Once the last line of a reply has come, the greeting is no longer due. -/
theorem greetingDue_settle {d : Dialogue} {awaited : Awaited} (hw : d.awaited = some awaited)
    (code : Code) : (settle { d with replyTexts := [] } awaited code).greetingDue = false := by
  cases awaited with
  | greeting => rfl
  | answer verb =>
    have hdue : d.greetingDue = false := greetingDue_of_awaited (by simp [hw])
    rw [settle_greetingDue]
    exact hdue

end Dialogue

def Call.cutsOff (call : Call) : Bool := call.breaksOff || call.isLost

theorem Call.cutsOff_of_isLost {call : Call} (h : call.isLost = true) : call.cutsOff = true := by
  rw [cutsOff, h, Bool.or_true]

theorem Call.cutsOff_of_malformed {bytes : Bytes} {error : Error}
    (h : Reply.parse bytes = .error error) : (line bytes).cutsOff = true := by
  rw [cutsOff, breaksOff, h]
  rfl

theorem Call.cutsOff_of_reply {bytes : Bytes} {reply : Reply} (h : Reply.parse bytes = .ok reply) :
    (line bytes).cutsOff = false := by
  rw [cutsOff, breaksOff, h]
  rfl

namespace Dialogue

inductive Course (d : Dialogue) (call : Call) : Prop
  | goesOn (hopen : (d.perform call).1.phase ≠ .closed)
    (he : ∀ e ∈ d.eventsOf call, e.isFailure = false)
  | ends (hclosed : (d.perform call).1.phase = .closed)
    (hp : (d.perform call).1.pipeline = d.pipeline.clear)
    (hg : (d.perform call).1.greetingDue = (d.greetingDue && call.cutsOff))
    (he : d.eventsOf call = [] ∨ ∃ error, d.eventsOf call = [.failed error])
  | dropped (error : Error) (hcall : call = .lost error) (hs : d.succeeded = true)
    (hnext : (d.perform call).1 = { d with phase := .closed }) (he : d.eventsOf call = [])

/-- A step after the reply was counted is the course of the whole call. -/
theorem Leaves.course {d s : Dialogue} {call : Call}
    (h : s.Leaves ((d.perform call).1, d.eventsOf call))
    (hp : s.pipeline.clear = d.pipeline.clear)
    (hg : s.greetingDue = (d.greetingDue && call.cutsOff)) : d.Course call := by
  cases h with
  | isOpen hopen he => exact .goesOn hopen he
  | closed hclosed hp' hg' he => exact .ends hclosed (hp'.trans hp) (hg'.trans hg) he

theorem course_line {d : Dialogue} (hopen : d.phase ≠ .closed) (line : Bytes) :
    d.Course (.line line) := by
  have hcall : ((d.perform (.line line)).1, d.eventsOf (.line line)) = d.takeLine line := rfl
  have hread := d.takeLine_reading line
  rw [← hcall] at hread
  generalize hr : ((d.perform (.line line)).1, d.eventsOf (.line line)) = r at hread
  have hleaves {s : Dialogue} (h : s.Leaves r) (hp : s.pipeline.clear = d.pipeline.clear)
      (hg : s.greetingDue = (d.greetingDue && Call.cutsOff (.line line))) :
      d.Course (.line line) := Leaves.course (hr ▸ h) hp hg
  cases hread with
  | closed hclosed => exact absurd (of_decide_eq_true hclosed) hopen
  | malformed error _ hparse =>
    refine hleaves (d.leaves_fail error true) rfl ?_
    rw [Call.cutsOff_of_malformed hparse, Bool.and_true]
  | unasked reply _ hparse hw =>
    refine hleaves (d.leaves_fail _ true) rfl ?_
    rw [greetingDue_of_awaited (by simp [hw]), Bool.false_and]
  | held reply awaited _ hparse =>
    refine hleaves (s := { d with greetingDue := false }) (.isOpen ?_ (by simp)) rfl ?_
    · unfold holdLine
      split <;> exact hopen
    · rw [Call.cutsOff_of_reply hparse, Bool.and_false]
  | completed reply awaited _ hparse hw =>
    refine hleaves (leaves_act (settle_open (d := { d with replyTexts := [] }) hopen _ _) _ _ _ _)
      (d.clear_settle _ _) ?_
    rw [greetingDue_settle hw, Call.cutsOff_of_reply hparse, Bool.and_false]

/-- An open dialogue takes one of three courses in any call. -/
theorem course {d : Dialogue} (hopen : d.phase ≠ .closed) (call : Call) : d.Course call := by
  have hunfinished : ¬d.isFinished = true := by simpa [isFinished] using hopen
  cases call with
  | submit e =>
    rcases d.perform_submit e with ⟨heq, hev⟩ | ⟨-, -, requested, asked, heq, hev, hasked⟩
    · exact .goesOn (by rwa [heq]) (by simp [eventsOf, hev])
    · refine .goesOn (by rwa [heq]) ?_
      rw [eventsOf, hev]
      rcases hasked with rfl | rfl <;> simp [Event.isFailure]
  | connected =>
    refine .goesOn ?_ (by simp [eventsOf, perform, Answer.silent])
    simp only [perform, connect]
    split
    · simp
    · exact hopen
  | line line => exact course_line hopen line
  | password text =>
    refine .goesOn ?_ (by simp [eventsOf, perform, Answer.silent])
    simp only [perform, givePassword]
    split <;> exact hopen
  | encrypted =>
    refine .goesOn ?_ (by simp [eventsOf, perform, Answer.silent])
    simp only [perform, encrypt, if_neg hunfinished]
    exact hopen
  | cancel =>
    have hcall : ((d.perform .cancel).1, d.eventsOf .cancel) = d.fail .cancelled false := by
      change d.cancel = _
      rw [cancel, if_neg hunfinished]
    refine Leaves.course (s := d) (hcall ▸ d.leaves_fail _ _) rfl ?_
    simp [Call.cutsOff, Call.breaksOff]
  | lost error =>
    by_cases hs : d.succeeded = true
    · have hcall : d.disconnect error = ({ d with phase := .closed }, []) := by
        rw [disconnect, if_neg hunfinished, if_pos hs]
      exact .dropped error rfl hs (congrArg Prod.fst hcall) (congrArg Prod.snd hcall)
    · have hcall : ((d.perform (.lost error)).1, d.eventsOf (.lost error)) =
          d.fail error false := by
        change d.disconnect error = _
        rw [disconnect, if_neg hunfinished, if_neg hs]
      refine Leaves.course (s := d) (hcall ▸ d.leaves_fail _ _) rfl ?_
      simp [Call.cutsOff, Call.isLost]
  | poll => exact .goesOn hopen (by simp [eventsOf, perform])

/-- No call has any effect on what is closed: nothing is reported or put out, whatever is called,
and a submission is refused. -/
structure Silent (d : Dialogue) (later : List Call) : Prop where
  phase_eq : (d.after later).phase = .closed
  events_eq : d.events later = []
  putOut_eq : d.putOut later = d.outbound
  refuses : ∀ e, (d.after later).submit e =
    .error (.invalidState "a submission was already started on this connection")

/-- What is closed stays as it is, whatever is called, and in any order. -/
theorem silent_of_closed {d : Dialogue} (h : d.phase = .closed) (later : List Call) :
    d.Silent later := by
  have hrefuses {s : Dialogue} (hclosed : s.phase = .closed) (e : Envelope) :
      s.submit e =
        .error (.invalidState "a submission was already started on this connection") := by
    rw [submit, if_pos]
    simp [hclosed]
  induction later using List.reverseRecOn with
  | nil => exact ⟨h, rfl, rfl, hrefuses h⟩
  | append_singleton later call ih =>
    obtain ⟨hclosed, -, hevents, houtput⟩ := perform_of_closed ih.phase_eq call
    refine ⟨?_, ?_, ?_, ?_⟩
    · rwa [after_snoc]
    · rw [events_snoc, ih.events_eq, hevents, List.append_nil]
    · rw [putOut_snoc, ih.putOut_eq, houtput, List.append_nil]
    · rw [after_snoc]
      exact hrefuses hclosed

inductive Failures (d : Dialogue) (events : List Event) : Prop
  | none (he : ∀ e ∈ events, e.isFailure = false)
  | one (before : List Event) (error : Error) (hclosed : d.phase = .closed)
    (he : events = before ++ [.failed error]) (hb : ∀ e ∈ before, e.isFailure = false)

/-- A call adds a failure only where none was reported yet, and then the dialogue is closed. -/
theorem Failures.snoc {d : Dialogue} {events : List Event} (h : d.Failures events) (call : Call) :
    (d.perform call).1.Failures (events ++ d.eventsOf call) := by
  by_cases hclosed : d.phase = .closed
  · obtain ⟨hstays, -, hsilent, -⟩ := perform_of_closed hclosed call
    rw [hsilent, List.append_nil]
    cases h with
    | none he => exact .none he
    | one before error _ he hb => exact .one before error hstays he hb
  · -- as long as the dialogue is open, no failure has been reported
    have hnone : ∀ e ∈ events, e.isFailure = false := by
      cases h with
      | none he => exact he
      | one _ _ hclosed' => exact absurd hclosed' hclosed
    have hquiet {new : List Event} (hnew : ∀ e ∈ new, e.isFailure = false) :
        (d.perform call).1.Failures (events ++ new) := by
      refine .none fun e hmem => ?_
      rcases List.mem_append.mp hmem with hold | hadded
      · exact hnone e hold
      · exact hnew e hadded
    cases course hclosed call with
    | goesOn _ he => exact hquiet he
    | ends hends _ _ he =>
      rcases he with he | ⟨error, he⟩
      · rw [he]
        exact hquiet (by simp)
      · rw [he]
        exact .one events error hends rfl hnone
    | dropped _ _ _ _ he =>
      rw [he]
      exact hquiet (by simp)

/-- In any run a failure is the last event, by induction from the end of the run. -/
theorem failures_run (settings : Settings) (calls : List Call) :
    ((start settings).after calls).Failures ((start settings).events calls) := by
  induction calls using List.reverseRecOn with
  | nil => exact .none (by simp)
  | append_singleton calls call ih =>
    rw [after_snoc, events_snoc]
    exact ih.snoc call

/-- How a run closes: for good, and with at most one failure, which is the last event. -/
structure ClosesForGood (settings : Settings) (calls : List Call) : Prop where
  silent : ((start settings).after calls).phase = .closed →
    ∀ later, ((start settings).after calls).Silent later
  failed_closed : ∀ error, .failed error ∈ (start settings).events calls →
    ((start settings).after calls).phase = .closed
  failed_last : ∀ before error later,
    (start settings).events calls = before ++ .failed error :: later → later = []
  failed_once : ((start settings).events calls).countP Event.isFailure ≤ 1

/-- Closing is for good, whatever is called and in whatever order. -/
theorem closesForGood (settings : Settings) (calls : List Call) : ClosesForGood settings calls := by
  have hnone {events : List Event} (h : ∀ e ∈ events, e.isFailure = false) (error : Error) :
      .failed error ∉ events := fun hmem => Bool.noConfusion (h _ hmem)
  have hcount {events : List Event} (h : ∀ e ∈ events, e.isFailure = false) :
      events.countP Event.isFailure = 0 :=
    List.countP_eq_zero.mpr fun e hmem => by simp [h e hmem]
  have hsilent (hclosed : ((start settings).after calls).phase = .closed) :=
    silent_of_closed hclosed
  cases failures_run settings calls with
  | none he =>
    refine ⟨hsilent, fun error hmem => absurd hmem (hnone he error), ?_, by simp [hcount he]⟩
    intro before error later heq
    exact absurd (by simp [heq]) (hnone he error)
  | one before error hclosed he hb =>
    refine ⟨hsilent, fun _ _ => hclosed, ?_, by simp [he, hcount hb, Event.isFailure]⟩
    intro front error' later heq
    rcases List.eq_nil_or_concat later with rfl | ⟨later', last, rfl⟩
    · rfl
    · have hsplit : before ++ [.failed error] = (front ++ .failed error' :: later') ++ [last] := by
        rw [← he, heq]
        simp
      obtain ⟨rfl, -⟩ := List.append_inj' hsplit rfl
      exact absurd (by simp) (hnone hb error')

structure AtRest (d : Dialogue) : Prop where
  waiting_eq : d.pipeline.waiting = []
  inFlight_eq : d.pipeline.inFlight = []
  awaited_eq : d.awaited = none

/-- A call that closes a dialogue and leaves something awaited: it comes before the greeting, or it
brings the loss of the connection before the reply to the QUIT after a success. -/
def ClosesWaiting (d : Dialogue) (call : Call) : Prop :=
  d.phase ≠ .closed ∧
    (d.greetingDue = true ∧ call.cutsOff = true ∨ d.succeeded = true ∧ call.isLost = true)

def LeavesWaiting (settings : Settings) (calls : List Call) : Prop :=
  Occurs calls fun before call => ((start settings).after before).ClosesWaiting call

def QuitsAfterSuccess (d : Dialogue) : Prop :=
  d.phase ≠ .closed → d.succeeded = true → .quit ∈ d.pipeline.verbs

/-- After a success every reply to QUIT is a leave to close, whatever its code. -/
theorem closed_of_quit_answered {d : Dialogue} (hs : d.succeeded = true) {call : Call}
    {f : InFlight} {code : Code} (h : d.reply? call = some (f, code)) (hf : f.verb = .quit) :
    (d.perform call).1.phase = .closed := by
  obtain ⟨line, reply, rfl, -, hline, -⟩ := reply?_eq_some h
  rw [hf] at hline
  simp only [perform, hline.takeLine_eq]
  rw [reactTo_leaving hs reply _ (Decision.listed_of _ _)]
  rfl

/-- Only its answer takes QUIT out of the pipeline. -/
theorem quit_mem_answered {d : Dialogue} (htidy : d.pipeline.Tidy) (hs : d.succeeded = true)
    (hq : .quit ∈ d.pipeline.verbs) {call : Call} (hopen : (d.perform call).1.phase ≠ .closed) :
    .quit ∈ (d.answered call).verbs := by
  cases hanswer : d.answer? call with
  | none => rwa [answered, hanswer]
  | some a =>
    have hreply : d.reply? call = some (a.1, a.2) := (Option.filter_eq_some_iff.mp hanswer).1
    obtain ⟨-, -, -, hhead, -⟩ := reply?_eq_some hreply
    obtain ⟨later, hlater⟩ := List.head?_eq_some_iff.mp hhead
    have hother : a.1.verb ≠ .quit := fun hf => hopen (closed_of_quit_answered hs hreply hf)
    rw [Pipeline.verbs, htidy.waiting_eq, hlater] at hq
    have hlate : .quit ∈ later.map (·.verb) := by simpa [Ne.symm hother] using hq
    simpa [answered, hanswer, Pipeline.acknowledge, Pipeline.verbs, htidy.waiting_eq, hlater]
      using hlate

theorem succeeded_sendBody (d : Dialogue) : d.sendBody.1.succeeded = d.succeeded := by
  unfold sendBody
  split
  · rfl
  · rw [fail_eq]

/-- QUIT that went out with a success is in flight until it is answered, and then the dialogue is
closed. -/
theorem QuitsAfterSuccess.perform {d : Dialogue} (h : d.QuitsAfterSuccess)
    (htidy : d.pipeline.Tidy) (call : Call) : (d.perform call).1.QuitsAfterSuccess := by
  intro hopen hs
  have hopen' : d.phase ≠ .closed := fun hclosed => hopen (perform_of_closed hclosed call).1
  by_cases hbefore : d.succeeded = true
  · have hleft := quit_mem_answered htidy hbefore (h hopen' hbefore) hopen
    cases sends_perform htidy.waiting_eq call with
    | closing hclosed => exact absurd hclosed hopen
    | sending cs _ hp =>
      have hkept : .quit ∈ (d.answered call).inFlight.map (·.verb) := by
        rwa [Pipeline.verbs, (tidy_answered htidy call).waiting_eq] at hleft
      rw [hp, Pipeline.verbs, Pipeline.sending, List.map_append]
      exact List.mem_append_right _ (List.mem_append_left _ hkept)
  · have hsent (s : Dialogue) : .quit ∈ s.succeed.1.pipeline.verbs :=
      (mem_verbs_send { s with succeeded := true } .quit .quit).mpr (Or.inr rfl)
    cases d.effect call with
    | submit e =>
      rcases d.perform_submit e with ⟨heq, -⟩ | ⟨-, -, requested, asked, heq, -⟩
      all_goals
        rw [heq] at hs
        exact absurd hs hbefore
    | line line hline =>
      cases hline with
      | aside _ _ hb => exact absurd (hb.succeeded_eq.symm.trans hs) hbefore
      | goAhead _ heq =>
        have hsame : (d.perform (.line line)).1.succeeded = d.succeeded := by
          calc
            _ = (sendBody { d with replyTexts := [] }).1.succeeded := by rw [← heq]; rfl
            _ = d.succeeded := succeeded_sendBody _
        exact absurd (hsame.symm.trans hs) hbefore
      | taken _ s _ heq =>
        have hnext : (d.perform (.line line)).1 = s.succeed.1 := congrArg Prod.fst heq
        rw [hnext]
        exact hsent s
      | reference _ _ s _ heq =>
        have hnext : (d.perform (.line line)).1 = s.succeed.1 := congrArg Prod.fst heq
        rw [hnext]
        exact hsent s
    | poll => exact absurd hs hbefore
    | aside _ _ hb => exact absurd (hb.succeeded_eq.symm.trans hs) hbefore

/-- In every run, a success that is not closed yet has QUIT in flight. -/
theorem quitsAfterSuccess_after (settings : Settings) (calls : List Call) :
    ((start settings).after calls).QuitsAfterSuccess := by
  induction calls using List.reverseRecOn with
  | nil => exact fun _ hs => Bool.noConfusion hs
  | append_singleton calls call ih =>
    rw [after_snoc]
    exact ih.perform (tidy_after settings calls) call

/-- A closed dialogue keeps what it awaits. -/
theorem awaited_perform_of_closed {d : Dialogue} (h : d.phase = .closed) (call : Call) :
    (d.perform call).1.pipeline = d.pipeline ∧ (d.perform call).1.greetingDue = d.greetingDue := by
  have hfinished : d.isFinished = true := by simpa [isFinished] using h
  cases call with
  | submit e =>
    rcases d.perform_submit e with ⟨heq, -⟩ | ⟨-, -, requested, asked, heq, -⟩
    all_goals
      rw [heq]
      exact ⟨rfl, rfl⟩
  | connected => simp [perform, connect, h]
  | password text => simp [perform, givePassword, hfinished]
  | poll => exact ⟨rfl, rfl⟩
  | line | encrypted | cancel | lost =>
    simp [perform, takeLine, encrypt, cancel, disconnect, hfinished]

/-- Nothing is awaited exactly if nothing waits, nothing is in flight and no greeting is due. -/
theorem atRest_iff (d : Dialogue) :
    d.AtRest ↔ d.pipeline.waiting = [] ∧ d.pipeline.inFlight = [] ∧ d.greetingDue = false := by
  constructor
  · rintro ⟨hwaiting, hflight, hawaited⟩
    exact ⟨hwaiting, hflight, greetingDue_of_awaited (by simp [hawaited])⟩
  · rintro ⟨hwaiting, hflight, hdue⟩
    exact ⟨hwaiting, hflight, by simp [awaited, hdue, Pipeline.awaiting, hflight]⟩

instance (d : Dialogue) : Decidable d.AtRest := decidable_of_iff _ d.atRest_iff.symm

/-- A cancellation, a line that is no reply and a lost connection close the dialogue at once. -/
theorem closed_of_cutsOff {d : Dialogue} (hopen : d.phase ≠ .closed) {call : Call}
    (h : call.cutsOff = true) : (d.perform call).1.phase = .closed := by
  have hunfinished : ¬d.isFinished = true := by simpa [isFinished] using hopen
  cases call with
  | cancel => simp [perform, cancel, if_neg hunfinished]
  | lost error =>
    simp only [perform, disconnect, if_neg hunfinished]
    split
    · rfl
    · exact d.fail_phase _ _
  | line line =>
    cases hparse : Reply.parse line with
    | ok reply =>
      rw [Call.cutsOff_of_reply hparse] at h
      cases h
    | error error => simp [perform, takeLine, if_neg hunfinished, hparse]
  | _ => cases h

/-- Whether an open dialogue that a call closes is at rest. -/
theorem closesWaiting_iff {d : Dialogue} (hopen : d.phase ≠ .closed) (htidy : d.pipeline.Tidy)
    (hquit : d.QuitsAfterSuccess) (call : Call) :
    d.ClosesWaiting call ↔
      (d.perform call).1.phase = .closed ∧ ¬(d.perform call).1.AtRest := by
  have hunfinished : ¬d.isFinished = true := by simpa [isFinished] using hopen
  by_cases hdropped : d.succeeded = true ∧ call.isLost = true
  · obtain ⟨error, rfl⟩ : ∃ error, call = .lost error := by
      cases call with
      | lost error => exact ⟨error, rfl⟩
      | _ => cases hdropped.2
    have hnext : (d.perform (.lost error)).1 = { d with phase := .closed } := by
      simp only [perform, disconnect, if_neg hunfinished, if_pos hdropped.1]
    have hflight : .quit ∈ d.pipeline.inFlight.map (·.verb) := by
      have hverbs := hquit hopen hdropped.1
      rwa [Pipeline.verbs, htidy.waiting_eq] at hverbs
    rw [hnext]
    refine iff_of_true ⟨hopen, Or.inr hdropped⟩ ⟨rfl, fun hrest => ?_⟩
    have hempty : d.pipeline.inFlight = [] := hrest.inFlight_eq
    rw [hempty] at hflight
    cases hflight
  · cases course hopen call with
    | goesOn hopen' =>
      refine iff_of_false ?_ fun hclosed => hopen' hclosed.1
      rintro ⟨-, ⟨-, hcut⟩ | ⟨-, hlost⟩⟩
      · exact hopen' (closed_of_cutsOff hopen hcut)
      · exact hopen' (closed_of_cutsOff hopen (Call.cutsOff_of_isLost hlost))
    | ends hclosed hp hg =>
      have hrest : (d.perform call).1.AtRest ↔ ¬(d.greetingDue = true ∧ call.cutsOff = true) := by
        rw [atRest_iff, hp, hg, ← Bool.and_eq_true, Bool.not_eq_true]
        exact ⟨fun h => h.2.2, fun h => ⟨rfl, rfl, h⟩⟩
      rw [hrest, not_not]
      constructor
      · rintro ⟨-, hcut | hlost⟩
        · exact ⟨hclosed, hcut⟩
        · exact absurd hlost hdropped
      · rintro ⟨-, hcut⟩
        exact ⟨hopen, Or.inl hcut⟩
    | dropped error hcall hs => exact absurd ⟨hs, by rw [hcall]; rfl⟩ hdropped

/-- A run leaves something awaited exactly if it has closed and is not at rest. -/
theorem leavesWaiting_iff (settings : Settings) (calls : List Call) :
    LeavesWaiting settings calls ↔
      ((start settings).after calls).phase = .closed ∧ ¬((start settings).after calls).AtRest := by
  induction calls using List.reverseRecOn with
  | nil => exact iff_of_false (not_occurs_nil _) fun h => Phase.noConfusion h.1
  | append_singleton calls call ih =>
    rw [LeavesWaiting, occurs_snoc_iff, after_snoc]
    change LeavesWaiting settings calls ∨ _ ↔ _
    rw [ih]
    by_cases hclosed : ((start settings).after calls).phase = .closed
    · obtain ⟨hp, hg⟩ := awaited_perform_of_closed hclosed call
      have hstays := (perform_of_closed hclosed call).1
      have hrest := atRest_iff (((start settings).after calls).perform call).1
      rw [hp, hg, ← atRest_iff] at hrest
      rw [hrest]
      simp [hclosed, hstays, ClosesWaiting]
    · rw [closesWaiting_iff hclosed (tidy_after settings calls)
        (quitsAfterSuccess_after settings calls) call]
      simp [hclosed]

def RestsWhenClosed (settings : Settings) (calls : List Call) : Prop :=
  ((start settings).after calls).phase = .closed → ((start settings).after calls).AtRest

instance (settings : Settings) (calls : List Call) : Decidable (RestsWhenClosed settings calls) :=
  inferInstanceAs (Decidable (_ → _))

/-- What closes is at rest, unless it was cut off before the greeting or lost its connection before
the reply to the QUIT after a success. -/
theorem restsWhenClosed_iff (settings : Settings) (calls : List Call) :
    RestsWhenClosed settings calls ↔ ¬LeavesWaiting settings calls := by
  rw [leavesWaiting_iff, RestsWhenClosed]
  exact not_and_not_right.symm

/-- A cancellation before the greeting leaves the greeting awaited, and the loss of the connection
after the message has been taken leaves QUIT in flight. -/
theorem not_restsWhenClosed :
    ¬RestsWhenClosed .plain [.submit .greeting, .connected, .cancel] ∧
    ¬RestsWhenClosed .plain
      (conversation .greeting repliesToBody ++ [.lost .connectionClosed]) := by
  decide +kernel

end Dialogue

end SmtpClient
