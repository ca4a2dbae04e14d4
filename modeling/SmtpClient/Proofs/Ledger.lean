import SmtpClient.Proofs.SingleOutcome
import SmtpClient.Proofs.Transcript

/-!
What a run has sent and what has been answered. Replies carry no mark of the command that they
answer, and the oldest command in flight is the one that the next reply is taken for. So as long as
a dialogue is open, the commands that were answered and after them those in flight are all that were
sent, in order and under their numbers.
-/
namespace SmtpClient

def Verb.isEnvelope : Verb → Bool
  | mail | rcpt => true
  | _ => false

def Envelope.parties (e : Envelope) (size : Option Nat) : List Command :=
  .mail e.sender size :: e.recipients.map .rcpt

/-- A transaction names its parties and then asks for the message to be taken. -/
theorem Dialogue.transaction_split (e : Envelope) (size : Option Nat) :
    transaction e size = e.parties size ++ [e.payload.command] := rfl

/-- The verbs of a transaction do not depend on the size that it declares. -/
theorem Dialogue.map_verb_transaction (e : Envelope) (size : Option Nat) :
    (transaction e size).map Command.verb =
      .mail :: List.replicate e.recipients.length .rcpt ++ [e.payload.command.verb] := by
  have hrcpt : Command.verb ∘ Command.rcpt = fun _ => Verb.rcpt := rfl
  simp [transaction, Command.verb, hrcpt, List.map_const']

theorem Envelope.isEnvelope_of_mem_parties {e : Envelope} {size : Option Nat} {c : Command}
    (h : c ∈ e.parties size) : c.verb.isEnvelope = true := by
  rcases List.mem_cons.mp h with rfl | hrcpt
  · rfl
  · obtain ⟨recipient, -, rfl⟩ := List.mem_map.mp hrcpt
    rfl

namespace Pipeline

def sending (p : Pipeline) (cs : List Command) : Pipeline where
  issued := p.issued + cs.length
  waiting := []
  inFlight := p.inFlight ++ (numbered p.issued cs).map sent

structure Tidy (p : Pipeline) : Prop where
  waiting_eq : p.waiting = []
  tag_le : ∀ f ∈ p.inFlight, f.tag ≤ p.issued

theorem sending_nil {p : Pipeline} (h : p.waiting = []) : p.sending [] = p := by
  cases p
  simp only [sending, numbered, List.length_nil, Nat.add_zero, List.map_nil, List.append_nil]
  rw [← h]

/-- Of the commands that were sent only the verbs are kept. -/
theorem map_sent_numbered_congr (issued : Nat) {cs cs' : List Command}
    (h : cs.map Command.verb = cs'.map Command.verb) :
    (numbered issued cs).map sent = (numbered issued cs').map sent := by
  induction cs generalizing issued cs' with
  | nil =>
    obtain rfl : cs' = [] := List.map_eq_nil_iff.mp h.symm
    rfl
  | cons c cs ih =>
    obtain ⟨c', later, rfl, hc, hlater⟩ := List.map_eq_cons_iff.mp h.symm
    have hrest := ih (issued + 1) hlater.symm
    simp only [numbered, List.map_cons, sent, hc, hrest]

theorem Tidy.acknowledge {p : Pipeline} (h : p.Tidy) : p.acknowledge.2.Tidy :=
  ⟨h.waiting_eq, fun f hf => h.tag_le f (List.mem_of_mem_tail hf)⟩

theorem Tidy.sending {p : Pipeline} (h : p.Tidy) (cs : List Command) : (p.sending cs).Tidy := by
  refine ⟨rfl, fun f hf => ?_⟩
  rcases List.mem_append.mp hf with hold | hnew
  · exact Nat.le_trans (h.tag_le f hold) (Nat.le_add_right _ _)
  · obtain ⟨q, hq, rfl⟩ := List.mem_map.mp hnew
    exact (tag_of_mem_numbered hq).2

end Pipeline

namespace Dialogue

def record {α : Type} (note : Dialogue → Call → List α) (d : Dialogue) : List Call → List α
  | [] => []
  | call :: later => note d call ++ (d.perform call).1.record note later

/-- What a run notes down is what its first part notes, and then what the rest notes from there. -/
theorem record_append {α : Type} (note : Dialogue → Call → List α) (d : Dialogue)
    (before later : List Call) :
    d.record note (before ++ later) =
      d.record note before ++ (d.after before).record note later := by
  induction before generalizing d with
  | nil => rfl
  | cons call before ih =>
    rw [List.cons_append, record, record, ih, List.append_assoc]
    rfl

theorem record_snoc {α : Type} (note : Dialogue → Call → List α) (d : Dialogue)
    (calls : List Call) (call : Call) :
    d.record note (calls ++ [call]) = d.record note calls ++ note (d.after calls) call := by
  rw [record_append, record, record, List.append_nil]

def reply? (d : Dialogue) : Call → Option (InFlight × Code)
  | .line line =>
    if d.isFinished || d.greetingDue then none
    else match d.pipeline.awaiting, Reply.parse line with
      | some f, .ok reply => if reply.continues then none else some (f, reply.code)
      | _, _ => none
  | _ => none

def answer? (d : Dialogue) (call : Call) : Option (InFlight × Code) :=
  (d.reply? call).filter fun a => !a.2.isIntermediate

def answers (d : Dialogue) (calls : List Call) : List (InFlight × Code) :=
  d.record (fun d call => (d.answer? call).toList) calls

def sentBy (d : Dialogue) (call : Call) : List InFlight :=
  (d.perform call).1.pipeline.inFlight.filter (d.pipeline.issued < ·.tag)

def allSent (d : Dialogue) (calls : List Call) : List InFlight := d.record sentBy calls

theorem answers_append (d : Dialogue) (before later : List Call) :
    d.answers (before ++ later) = d.answers before ++ (d.after before).answers later :=
  record_append _ d before later

theorem answers_snoc (d : Dialogue) (calls : List Call) (call : Call) :
    d.answers (calls ++ [call]) = d.answers calls ++ ((d.after calls).answer? call).toList :=
  record_snoc _ d calls call

theorem allSent_snoc (d : Dialogue) (calls : List Call) (call : Call) :
    d.allSent (calls ++ [call]) = d.allSent calls ++ (d.after calls).sentBy call :=
  record_snoc _ d calls call

/-- What is sent is in flight afterwards. -/
theorem mem_verbs_of_sentBy {d : Dialogue} {call : Call} {verb : Verb}
    (h : verb ∈ (d.sentBy call).map (·.verb)) : verb ∈ (d.perform call).1.pipeline.verbs :=
  List.mem_append_right _ (List.map_subset _ List.filter_sublist.subset h)

/-- A complete reply to a command completes it on a line. -/
theorem reply?_eq_some {d : Dialogue} {call : Call} {f : InFlight} {code : Code}
    (h : d.reply? call = some (f, code)) :
    ∃ line reply, call = .line line ∧ d.pipeline.awaiting = some f ∧
      d.Completes line f.verb reply ∧ reply.code = code := by
  cases call with
  | line line =>
    simp only [reply?] at h
    split at h
    · cases h
    · next hready =>
      simp only [Bool.or_eq_true, not_or, Bool.not_eq_true] at hready
      split at h
      · next f' reply hf hparse =>
        split at h
        · cases h
        · next hc =>
          cases h
          have hawaited : d.awaited = some (.answer f.verb) := by
            rw [awaited, hready.2, if_neg (by simp), hf]
            rfl
          exact ⟨line, reply, rfl, hf, ⟨hready.1, hawaited, hparse, by simpa using hc⟩, rfl⟩
      · cases h
  | _ => cases h

/-- A line that completes a reply answers the oldest command in flight. -/
theorem Completes.reply?_eq {d : Dialogue} {line : Bytes} {verb : Verb} {reply : Reply}
    (h : d.Completes line verb reply) :
    ∃ f, d.pipeline.awaiting = some f ∧ f.verb = verb ∧
      d.reply? (.line line) = some (f, reply.code) := by
  have hw := h.awaited_eq
  unfold awaited at hw
  split at hw
  · cases hw
  · next hdue =>
    obtain ⟨f, hf, hverb⟩ := Option.map_eq_some_iff.mp hw
    refine ⟨f, hf, by simpa using hverb, ?_⟩
    simp [reply?, h.unfinished, hdue, hf, h.parse_eq, h.last]

/-- Only a line that completes a reply to a command answers anything. -/
theorem reply?_line_of_not_completes {d : Dialogue} {line : Bytes}
    (h : ∀ verb reply, ¬d.Completes line verb reply) : d.reply? (.line line) = none := by
  cases hreply : d.reply? (.line line) with
  | none => rfl
  | some a =>
    obtain ⟨line', reply, hcall, -, hline, -⟩ := reply?_eq_some hreply
    cases hcall
    exact absurd hline (h _ _)

theorem reply?_of_closed {d : Dialogue} (h : d.phase = .closed) (call : Call) :
    d.reply? call = none := by
  cases call with
  | line line => simp [reply?, isFinished, h]
  | _ => rfl

inductive Sends (p : Pipeline) (next : Dialogue) : Prop
  | closing (hc : next.phase = .closed) (hw : next.pipeline.waiting = [])
    (hi : next.pipeline.issued = p.issued) (hf : next.pipeline.inFlight ⊆ p.inFlight)
  | sending (cs : List Command) (hopen : next.phase ≠ .closed) (h : next.pipeline = p.sending cs)

theorem sends_of_pipeline_eq {p : Pipeline} (hw : p.waiting = []) {next : Dialogue}
    (hp : next.pipeline = p) : Sends p next := by
  by_cases hc : next.phase = .closed
  · exact .closing hc (by rw [hp, hw]) (by rw [hp]) (by rw [hp]; exact List.Subset.refl _)
  · exact .sending [] hc (by rw [hp, Pipeline.sending_nil hw])

theorem sends_close (d : Dialogue) : Sends d.pipeline d.close :=
  .closing rfl rfl rfl (List.nil_subset _)

/-- A failure sends no command: QUIT goes out past the pipeline. -/
theorem sends_fail (d : Dialogue) (error : Error) (mayQuit : Bool) :
    Sends d.pipeline (d.fail error mayQuit).1 := by
  rw [fail_eq]
  exact .closing rfl rfl rfl (List.nil_subset _)

theorem sends_send {d : Dialogue} (hopen : d.phase ≠ .closed) (hw : d.pipeline.waiting = [])
    (c : Command) : Sends d.pipeline (d.send c) := by
  rw [send_eq d c hw]
  exact .sending [c] hopen rfl

/-- A transaction begins with a batch or with one command, or the dialogue closes. -/
theorem Beginning.sends {d : Dialogue} {r : Outcome} (h : d.Beginning r)
    (hopen : d.phase ≠ .closed) (hw : d.pipeline.waiting = []) : Sends d.pipeline r.1 := by
  cases h with
  | failed error => exact d.sends_fail error true
  | batch e size =>
    rw [sendBatch_eq d e size hw]
    exact .sending (transaction e size) (by simp) rfl
  | sender e size => exact sends_send hopen hw _

/-- After the greetings a dialogue sends one command, begins the transaction, waits, or closes. -/
theorem Negotiation.sends {d : Dialogue} {r : Outcome} (h : d.Negotiation r)
    (hopen : d.phase ≠ .closed) (hw : d.pipeline.waiting = []) : Sends d.pipeline r.1 := by
  cases h with
  | failed error => exact d.sends_fail error true
  | startTls => exact sends_send hopen hw _
  | park => exact sends_of_pipeline_eq hw rfl
  | ask => exact sends_of_pipeline_eq hw rfl
  | auth => exact sends_send (d := { d with passwordSent := false }) hopen hw _
  | begun => exact d.beginTransaction_beginning.sends hopen hw

theorem sends_sendPassword {d : Dialogue} (hw : d.pipeline.waiting = []) :
    Sends d.pipeline d.sendPassword.1 := by
  unfold sendPassword
  split
  · exact d.sends_fail _ _
  · split
    · exact d.sends_fail _ _
    · exact sends_of_pipeline_eq hw rfl

theorem sends_sendNextRecipient {d : Dialogue} (hopen : d.phase ≠ .closed)
    (hw : d.pipeline.waiting = []) : Sends d.pipeline d.sendNextRecipient := by
  unfold sendNextRecipient
  split
  · exact sends_of_pipeline_eq hw rfl
  · split
    · exact sends_send (d := { d with recipientsSent := d.recipientsSent + 1 }) hopen hw _
    · exact sends_send hopen hw _

theorem sends_sendBody {d : Dialogue} (hw : d.pipeline.waiting = []) :
    Sends d.pipeline d.sendBody.1 := by
  unfold sendBody
  split
  · exact sends_of_pipeline_eq hw rfl
  · exact d.sends_fail _ _

/-- Whatever is decided, commands are only sent behind those in flight. -/
theorem sends_act {d : Dialogue} (hopen : d.phase ≠ .closed) (hw : d.pipeline.waiting = [])
    (awaited : Awaited) (reply : Reply) (text : String) (decision : Decision) :
    Sends d.pipeline (d.act awaited reply text decision).1 := by
  cases decision with
  | announce =>
    exact (negotiate_negotiation { d with capabilities := d.capabilities.addReply reply }).sends
      hopen hw
  | retry => exact sends_send (d := { d with capabilities := .empty }) hopen hw _
  | advance move =>
    cases move with
    | greet =>
      exact sends_send (d := { d with phase := .ready, capabilities := .empty }) (by simp) hw _
    | negotiate => exact d.negotiate_negotiation.sends hopen hw
    | encrypt => exact sends_of_pipeline_eq hw rfl
    | sendPassword => exact sends_sendPassword hw
    | beginTransaction =>
      exact (beginTransaction_beginning { d with authenticated := true }).sends hopen hw
    | firstRecipient | nextRecipient =>
      simp only [act, advance]
      split
      · exact sends_of_pipeline_eq hw rfl
      · exact sends_sendNextRecipient hopen hw
    | sendBody => exact sends_sendBody hw
    | quit => exact sends_send (d := { d with succeeded := true }) hopen hw _
    | close => exact d.sends_close
  | fail refusal =>
    simp only [act]
    split
    · exact d.sends_close
    · exact d.sends_fail _ _

def answered (d : Dialogue) (call : Call) : Pipeline :=
  if (d.answer? call).isSome then d.pipeline.acknowledge.2 else d.pipeline

theorem answered_of_reply?_eq_none {d : Dialogue} {call : Call} (h : d.reply? call = none) :
    d.answered call = d.pipeline := by
  simp [answered, answer?, h]

/-- A complete reply takes out the command that it answers for good. -/
theorem Completes.pipeline_settle {d : Dialogue} {line : Bytes} {verb : Verb} {reply : Reply}
    (h : d.Completes line verb reply) :
    (settle { d with replyTexts := [] } (.answer verb) reply.code).pipeline =
      d.answered (.line line) := by
  obtain ⟨f, -, -, hreply⟩ := h.reply?_eq
  cases hc : reply.code.isIntermediate with
  | true => simp [answered, answer?, hreply, hc, settle_intermediate d verb reply.code hc]
  | false => simp [answered, answer?, hreply, hc, settle]

/-- A complete reply takes out what it answers, and the greeting answers nothing. -/
theorem pipeline_settle {d : Dialogue} {line : Bytes} {awaited : Awaited} {reply : Reply}
    (hopen : d.isFinished = false) (hw : d.awaited = some awaited)
    (hparse : Reply.parse line = .ok reply) (hc : reply.continues = false) :
    (settle { d with replyTexts := [] } awaited reply.code).pipeline =
      d.answered (.line line) := by
  cases awaited with
  | greeting =>
    have hkept : (settle { d with replyTexts := [] } .greeting reply.code).pipeline =
        d.pipeline := by simp [settle]
    rw [hkept, answered_of_reply?_eq_none]
    refine reply?_line_of_not_completes fun verb reply' h => ?_
    have hsame := hw.symm.trans h.awaited_eq
    cases hsame
  | answer verb => exact Completes.pipeline_settle ⟨hopen, hw, hparse, hc⟩

/-- A line takes out the command that it answers, and then commands are sent behind the others. -/
theorem sends_takeLine {d : Dialogue} (hw : d.pipeline.waiting = []) (line : Bytes) :
    Sends (d.answered (.line line)) (d.takeLine line).1 := by
  have hnone (h : ∀ verb reply, ¬d.Completes line verb reply) :
      d.answered (.line line) = d.pipeline :=
    answered_of_reply?_eq_none (reply?_line_of_not_completes h)
  have hread := d.takeLine_reading line
  generalize d.takeLine line = r at hread ⊢
  cases hread with
  | closed hclosed =>
    rw [hnone fun verb reply h => by simp [h.unfinished] at hclosed]
    exact sends_of_pipeline_eq hw rfl
  | malformed error _ hparse =>
    rw [hnone fun verb reply h => by simp [h.parse_eq] at hparse]
    exact d.sends_fail _ _
  | unasked reply _ _ hidle =>
    rw [hnone fun verb reply h => by simp [h.awaited_eq] at hidle]
    exact d.sends_fail _ _
  | held reply awaited _ hparse _ hc =>
    rw [hnone fun verb reply' h => ?_]
    · refine sends_of_pipeline_eq hw ?_
      unfold holdLine
      split <;> rfl
    · have hsame := hparse.symm.trans h.parse_eq
      cases hsame
      simp [h.last] at hc
  | completed reply awaited hopen hparse hawaited hc =>
    have hopen' : (settle { d with replyTexts := [] } awaited reply.code).phase ≠ .closed :=
      settle_open (d := { d with replyTexts := [] }) ((d.isFinished_eq_false_iff).mp hopen) _ _
    have hpipeline := pipeline_settle hopen hawaited hparse hc
    have hwaiting :
        (settle { d with replyTexts := [] } awaited reply.code).pipeline.waiting = [] := by
      rw [hpipeline, answered]
      split <;> exact hw
    rw [← hpipeline]
    exact sends_act hopen' hwaiting awaited reply _ _

/-- The same of any call: what was not answered stays in front, in its order. -/
theorem sends_perform {d : Dialogue} (hw : d.pipeline.waiting = []) (call : Call) :
    Sends (d.answered call) (d.perform call).1 := by
  cases call with
  | submit e =>
    rcases d.perform_submit e with ⟨heq, -⟩ | ⟨-, -, requested, asked, heq, -⟩
    · rw [heq]
      exact sends_of_pipeline_eq hw rfl
    · rw [heq]
      exact sends_of_pipeline_eq hw rfl
  | connected =>
    refine sends_of_pipeline_eq hw ?_
    simp only [perform, connect]
    split <;> rfl
  | line line => exact sends_takeLine hw line
  | password text =>
    simp only [perform, givePassword]
    split
    · next hresumes =>
      simp only [Bool.and_eq_true, Bool.not_eq_true', isFinished_eq_false_iff] at hresumes
      exact sends_send (d := { d with
        password := some text, parked := false, passwordSent := false }) hresumes.2 hw _
    · exact sends_of_pipeline_eq hw rfl
  | encrypted =>
    simp only [perform, encrypt]
    split
    · exact sends_of_pipeline_eq hw rfl
    · next hopen =>
      rw [Bool.not_eq_true, isFinished_eq_false_iff] at hopen
      exact sends_send (d := { d with encrypted := true, capabilities := .empty }) hopen hw _
  | cancel =>
    simp only [perform, cancel]
    split
    · exact sends_of_pipeline_eq hw rfl
    · exact d.sends_fail _ _
  | lost error =>
    simp only [perform, disconnect]
    split
    · exact sends_of_pipeline_eq hw rfl
    · split
      · exact sends_of_pipeline_eq hw rfl
      · exact d.sends_fail _ _
  | poll => exact sends_of_pipeline_eq hw rfl

theorem tidy_answered {d : Dialogue} (h : d.pipeline.Tidy) (call : Call) :
    (d.answered call).Tidy := by
  unfold answered
  split
  · exact h.acknowledge
  · exact h

theorem issued_answered (d : Dialogue) (call : Call) :
    (d.answered call).issued = d.pipeline.issued := by
  unfold answered
  split <;> rfl

theorem verbs_answered_subset (d : Dialogue) (call : Call) :
    (d.answered call).verbs ⊆ d.pipeline.verbs := by
  unfold answered
  split
  · exact d.pipeline.verbs_acknowledge_subset
  · exact List.Subset.refl _

/-- Sending keeps the numbers of what is in flight below those that will be issued. -/
theorem Sends.tidy {p : Pipeline} {next : Dialogue} (h : Sends p next) (hp : p.Tidy) :
    next.pipeline.Tidy := by
  cases h with
  | closing _ hw hi hf => exact ⟨hw, fun f hmem => hi ▸ hp.tag_le f (hf hmem)⟩
  | sending cs _ h =>
    rw [h]
    exact hp.sending cs

/-- In every run nothing is left waiting, and what is in flight was numbered before. -/
theorem tidy_after (settings : Settings) (calls : List Call) :
    ((start settings).after calls).pipeline.Tidy := by
  induction calls using List.reverseRecOn with
  | nil => exact ⟨rfl, fun f hf => by cases hf⟩
  | append_singleton calls call ih =>
    rw [after_snoc]
    exact (sends_perform ih.waiting_eq call).tidy (tidy_answered ih call)

inductive Outgoing (d : Dialogue) (call : Call) : Prop
  | none (hc : (d.perform call).1.phase = .closed)
    (hi : (d.perform call).1.pipeline.issued = d.pipeline.issued) (hs : d.sentBy call = [])
  | some (cs : List Command) (hopen : (d.perform call).1.phase ≠ .closed)
    (hp : (d.perform call).1.pipeline = (d.answered call).sending cs)
    (hs : d.sentBy call = (Pipeline.numbered d.pipeline.issued cs).map Pipeline.sent)

/-- What a call sends is what is in flight after it under new numbers, unless the dialogue is
closed. -/
theorem outgoing {d : Dialogue} (h : d.pipeline.Tidy) (call : Call) : d.Outgoing call := by
  have hleft := tidy_answered h call
  have hissued := d.issued_answered call
  have hold : ∀ f ∈ (d.answered call).inFlight, ¬d.pipeline.issued < f.tag := by
    intro f hf
    rw [← hissued]
    exact Nat.not_lt.mpr (hleft.tag_le f hf)
  cases sends_perform h.waiting_eq call with
  | closing hc hw hi hf =>
    refine .none hc (hi.trans hissued) (List.filter_eq_nil_iff.mpr fun f hmem => ?_)
    simpa using hold f (hf hmem)
  | sending cs hopen hp =>
    refine .some cs hopen hp ?_
    rw [sentBy, hp, Pipeline.sending, List.filter_append, hissued]
    have hgone : (d.answered call).inFlight.filter (d.pipeline.issued < ·.tag) = [] :=
      List.filter_eq_nil_iff.mpr fun f hmem => by simpa using hold f hmem
    have hkept : ((Pipeline.numbered d.pipeline.issued cs).map Pipeline.sent).filter
        (d.pipeline.issued < ·.tag) =
          (Pipeline.numbered d.pipeline.issued cs).map Pipeline.sent := by
      refine List.filter_eq_self.mpr fun f hmem => ?_
      obtain ⟨q, hq, rfl⟩ := List.mem_map.mp hmem
      exact decide_eq_true (Pipeline.tag_of_mem_numbered hq).1
    rw [hgone, hkept, List.nil_append]

/-- The command that is answered was the first in flight. -/
theorem answer?_inFlight (d : Dialogue) (call : Call) :
    (d.answer? call).toList.map Prod.fst ++ (d.answered call).inFlight = d.pipeline.inFlight := by
  cases hanswer : d.answer? call with
  | none => simp [answered, hanswer]
  | some a =>
    have hreply : d.reply? call = some (a.1, a.2) := (Option.filter_eq_some_iff.mp hanswer).1
    obtain ⟨line, reply, -, hf, -⟩ := reply?_eq_some hreply
    obtain ⟨later, hlater⟩ := List.head?_eq_some_iff.mp hf
    simp [answered, hanswer, Pipeline.acknowledge, hlater]

/-- The commands that were answered were sent before all others, and as long as the dialogue is open
those in flight are the rest. -/
theorem answers_sent (settings : Settings) (calls : List Call) :
    ((start settings).answers calls).map Prod.fst <+: (start settings).allSent calls ∧
    (((start settings).after calls).phase ≠ .closed →
      ((start settings).answers calls).map Prod.fst ++
        ((start settings).after calls).pipeline.inFlight = (start settings).allSent calls) := by
  induction calls using List.reverseRecOn with
  | nil => exact ⟨List.nil_prefix, fun _ => rfl⟩
  | append_singleton calls call ih =>
    obtain ⟨hbefore, hall⟩ := ih
    rw [answers_snoc, allSent_snoc, after_snoc, List.map_append]
    have htidy := tidy_after settings calls
    generalize (start settings).after calls = d at hall htidy ⊢
    by_cases hclosed : d.phase = .closed
    · have hnone : d.answer? call = none := by
        rw [answer?, reply?_of_closed hclosed]
        rfl
      have hstays := (perform_of_closed hclosed call).1
      rw [hnone]
      refine ⟨?_, fun hopen => absurd hstays hopen⟩
      simpa using hbefore.trans (List.prefix_append _ _)
    · have hsplit := d.answer?_inFlight call
      have hsame := hall hclosed
      cases outgoing htidy call with
      | none hc hi hs =>
        refine ⟨?_, fun hopen => absurd hc hopen⟩
        rw [hs, List.append_nil, ← hsame, ← hsplit]
        exact (List.prefix_append_right_inj _).mpr (List.prefix_append _ _)
      | some cs hopen hp hs =>
        have hgrown : ((start settings).answers calls).map Prod.fst ++
            (d.answer? call).toList.map Prod.fst ++ (d.perform call).1.pipeline.inFlight =
              (start settings).allSent calls ++ d.sentBy call := by
          calc
            _ = (((start settings).answers calls).map Prod.fst ++
                ((d.answer? call).toList.map Prod.fst ++ (d.answered call).inFlight)) ++
                  d.sentBy call := by
              rw [hp, hs, Pipeline.sending, issued_answered]
              simp only [List.append_assoc]
            _ = _ := by rw [hsplit, hsame]
        exact ⟨⟨_, hgrown⟩, fun _ => hgrown⟩

end Dialogue

namespace Envelope

/-- The commands that are still to come end the transaction. -/
theorem commandsFrom_suffix (e : Envelope) (named : Nat) :
    e.commandsFrom named <:+ e.commandsFrom 0 := by
  have hdrop : e.recipients.drop named <:+ e.recipients.drop 0 :=
    List.drop_suffix named e.recipients
  obtain ⟨front, hfront⟩ := hdrop
  refine ⟨front.map .rcpt, ?_⟩
  rw [commandsFrom, commandsFrom, ← hfront, List.map_append, List.append_assoc]

/-- A command of a transaction and those that follow it end the transaction, whatever size the
sender declares. -/
theorem Leads.suffix {e : Envelope} {c : Command} {rest : List Command} (h : e.Leads c rest)
    (size : Option Nat) :
    (c :: rest).map Command.verb <:+ (Dialogue.transaction e size).map Command.verb := by
  have hlater {cs : List Command} (hcs : cs <:+ e.commandsFrom 0) :
      cs.map Command.verb <:+ (Dialogue.transaction e size).map Command.verb := by
    rw [Dialogue.transaction_eq]
    exact (hcs.trans (List.suffix_cons _ _)).map _
  cases h with
  | sender size' => exact List.suffix_rfl
  | recipient named r hr =>
    rw [← e.commandsFrom_of_recipient named r hr]
    exact hlater (e.commandsFrom_suffix named)
  | payload => exact hlater (List.suffix_append _ _)

end Envelope

/-- Data without tags may be put out in between. -/
theorem Conveys.asides {said : List Command} {ts us : List Transmit} (h : Conveys said ts)
    (hus : ∀ t ∈ us, t.tags = []) : Conveys said (ts ++ us) := by
  induction us generalizing ts with
  | nil => rwa [List.append_nil]
  | cons t later ih =>
    rw [List.forall_mem_cons] at hus
    have hone : Conveys said (ts ++ [t]) := h.aside t hus.1
    have hall := ih hone hus.2
    rwa [List.append_assoc] at hall

namespace Dialogue

/-- What is in flight was said last. -/
theorem Turn.inFlight_suffix {d : Dialogue} {said : List Command} (h : d.Turn said)
    (hopen : d.phase ≠ .closed) :
    d.pipeline.inFlight.map (·.verb) <:+ said.map Command.verb := by
  cases h with
  | silent phase _ hd =>
    rw [hd.inFlight_eq]
    exact List.nil_suffix
  | opening verb said hd hu ho =>
    rw [hd.inFlight_eq]
    cases ho with
    | hail secured =>
      cases secured with
      | false => exact List.suffix_rfl
      | true => exact ⟨[.ehlo, .startTls], rfl⟩
    | secure => exact ⟨[.ehlo], rfl⟩
    | hailPlainly secured =>
      rw [preamble_plainly, List.map_append]
      exact List.suffix_append _ _
    | identify secured plainly =>
      rw [preamble_identified, List.map_append]
      exact List.suffix_append _ _
  | parked secured plainly hd =>
    rw [hd.inFlight_eq]
    exact List.nil_suffix
  | handshake hd =>
    rw [hd.inFlight_eq]
    exact List.nil_suffix
  | sending secured plainly identified e size c rest said he hm hs hl hf hsaid =>
    obtain ⟨front, hfront⟩ := hl.suffix size
    have hverbs := congrArg (List.map Command.verb) hsaid
    rw [List.map_append, List.map_append, ← hfront] at hverbs
    cases hf with
    | oneByOne hd hb =>
      rw [hb, if_neg (by simp), List.map_cons, ← List.append_assoc, List.append_cons,
        List.append_left_inj] at hverbs
      rw [hd.inFlight_eq, hverbs]
      exact List.suffix_append _ _
    | batch hd hb =>
      rw [hb, if_pos rfl, List.map_nil, List.append_nil, ← List.append_assoc] at hverbs
      rw [hd.inFlight_eq, hverbs]
      exact List.suffix_append _ _
  | leaving secured plainly identified e size he hm hd =>
    rw [hd.inFlight_eq, List.map_append]
    exact List.suffix_append _ _
  | closed _ hclosed => exact absurd hclosed hopen

/-- What is in flight was sent. -/
theorem mem_allSent_of_verbs {settings : Settings} {calls : List Call} {verb : Verb}
    (hopen : ((start settings).after calls).phase ≠ .closed)
    (h : verb ∈ ((start settings).after calls).pipeline.verbs) :
    verb ∈ ((start settings).allSent calls).map (·.verb) := by
  rw [Pipeline.verbs, (tidy_after settings calls).waiting_eq] at h
  rw [← (answers_sent settings calls).2 hopen, List.map_append]
  exact List.mem_append_right _ h

structure Puts (d : Dialogue) (said new : List Command) (call : Call) : Prop where
  told : (d.perform call).1.Told (said ++ new)
  sent_eq : d.sentBy call = (Pipeline.numbered said.length new).map Pipeline.sent
  nothing : new = [] → ∀ t ∈ d.outputOf call, t.tags = []
  output_eq : new ≠ [] →
    d.outputOf call = [Pipeline.batchOf (Pipeline.numbered said.length new)]
  ends : new ≠ [] → ∃ front c, new = front ++ [c] ∧ ∀ c' ∈ front, c'.verb.isEnvelope = true

/-- Whatever call comes when it may, the dialogue says something, sends it and puts it out in one
piece. -/
theorem Told.puts {d : Dialogue} {said : List Command} (h : d.Told said) {due : Nat}
    (hs : d.Standing due) (htidy : d.pipeline.Tidy) (call : Call)
    (hdue : call = .encrypted → 0 < due) : ∃ new, d.Puts said new call := by
  -- by the number of commands it is known what was sent, and by the turn which commands these are
  have hsent {new : List Command} (htold : (d.perform call).1.Told (said ++ new)) :
      d.sentBy call = (Pipeline.numbered said.length new).map Pipeline.sent := by
    have hissued := htold.issued_eq
    rw [List.length_append, ← h.issued_eq] at hissued
    cases outgoing htidy call with
    | none _ hi hnone =>
      obtain rfl : new = [] := List.length_eq_zero_iff.mp (by omega)
      exact hnone
    | some cs hopen hp hcs =>
      have hlength : cs.length = new.length := by
        have hcount := congrArg Pipeline.issued hp
        rw [Pipeline.sending, issued_answered] at hcount
        dsimp only at hcount
        omega
      obtain ⟨front, hfront⟩ := htold.turn.inFlight_suffix hopen
      rw [hp, Pipeline.sending, List.map_append, Pipeline.map_verb_sent, ← List.append_assoc,
        List.map_append] at hfront
      have hverbs := (List.append_inj' hfront (by simpa using hlength)).2
      rw [hcs, Pipeline.map_sent_numbered_congr _ hverbs, h.issued_eq]
  cases h.adds hs call hdue with
  | quiet htold ho =>
    have htold' : (d.perform call).1.Told (said ++ []) := by rwa [List.append_nil]
    exact ⟨[], htold', hsent htold', by simp [ho], by simp, by simp⟩
  | aside t htold ho ht =>
    have htold' : (d.perform call).1.Told (said ++ []) := by rwa [List.append_nil]
    refine ⟨[], htold', hsent htold', fun _ => ?_, by simp, by simp⟩
    rw [ho]
    cases ht <;> simp [Transmit.raw]
  | command c htold ho =>
    refine ⟨[c], htold, hsent htold, by simp, fun _ => ?_, fun _ => ⟨[], c, rfl, by simp⟩⟩
    rw [ho]
    simp [Pipeline.batchOf, Pipeline.numbered, Transmit.tagged]
  | transaction e size htold ho =>
    exact ⟨transaction e size, htold, hsent htold, by simp [transaction], fun _ => ho,
      fun _ => ⟨_, _, transaction_split e size, fun c => e.isEnvelope_of_mem_parties⟩⟩

/-- The commands that a run has said: the dialogue has come so far, what was put out carries them,
and they were sent under their numbers. -/
structure Ledger (settings : Settings) (calls : List Call) (said : List Command) : Prop where
  told : ((start settings).after calls).Told said
  conveys : Conveys said ((start settings).putOut calls)
  sent_eq : (start settings).allSent calls = (Pipeline.numbered 0 said).map Pipeline.sent

/-- What was put out conveys all that has been said, one call further. -/
theorem Puts.conveys {d : Dialogue} {said new : List Command} {call : Call}
    (h : d.Puts said new call) {ts : List Transmit} (hts : Conveys said ts) :
    Conveys (said ++ new) (ts ++ d.outputOf call) := by
  cases new with
  | nil =>
    rw [List.append_nil]
    exact hts.asides (h.nothing rfl)
  | cons c later =>
    rw [h.output_eq (List.cons_ne_nil _ _)]
    exact hts.batch c later

theorem Ledger.verbs_allSent {settings : Settings} {calls : List Call} {said : List Command}
    (h : Ledger settings calls said) :
    ((start settings).allSent calls).map (·.verb) = said.map Command.verb := by
  rw [h.sent_eq, Pipeline.map_verb_sent]

/-- Every run has a ledger. -/
theorem EncryptsWhenDue.ledger {settings : Settings} {calls : List Call}
    (h : EncryptsWhenDue settings calls) : ∃ said, Ledger settings calls said := by
  refine h.induction ⟨[], told_start settings, .nil, rfl⟩ ?_
  intro calls call due hs hdue ih
  obtain ⟨said, htold, hconveys, hsent⟩ := ih
  obtain ⟨new, hnew⟩ := htold.puts hs (tidy_after settings calls) call hdue
  refine ⟨said ++ new, ?_, ?_, ?_⟩
  · rw [after_snoc]
    exact hnew.told
  · rw [putOut_snoc]
    exact hnew.conveys hconveys
  · rw [allSent_snoc, hsent, hnew.sent_eq, Pipeline.numbered_append, List.map_append, Nat.zero_add]

end Dialogue

end SmtpClient
