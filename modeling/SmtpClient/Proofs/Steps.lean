import SmtpClient.Proofs.Pipeline
import SmtpClient.Proofs.Runs

namespace SmtpClient

inductive Decision.Listed (code : Code) : Awaited → Decision → Prop
  | greet (h : code = 220) : Listed code .greeting (.advance .greet)
  | announce (h : code = 250) : Listed code (.answer .ehlo) .announce
  | retry (h : code = 550 ∨ code = 502) : Listed code (.answer .ehlo) .retry
  | negotiate (h : code = 250) : Listed code (.answer .helo) (.advance .negotiate)
  | encrypt (h : code = 220) : Listed code (.answer .startTls) (.advance .encrypt)
  | sendPassword (h : code = 334) : Listed code (.answer .auth) (.advance .sendPassword)
  | beginTransaction (h : code = 235) : Listed code (.answer .auth) (.advance .beginTransaction)
  | firstRecipient (h : code = 250) : Listed code (.answer .mail) (.advance .firstRecipient)
  | nextRecipient (h : code = 250 ∨ code = 251) :
    Listed code (.answer .rcpt) (.advance .nextRecipient)
  | sendBody (h : code = 354) : Listed code (.answer .data) (.advance .sendBody)
  | quitAfterData (h : code = 250) : Listed code (.answer .data) (.advance .quit)
  | quitAfterBurl (h : code = 250) : Listed code (.answer .burl) (.advance .quit)
  | close (h : code = 220 ∨ code = 221) : Listed code (.answer .quit) (.advance .close)
  | fail (awaited : Awaited) (refusal : Refusal) : Listed code awaited (.fail refusal)

/-- Each verb has a short list of codes, and what is not on it is refused. -/
theorem Decision.listed_onVerb (code : Code) (verb : Verb) :
    Listed code (.answer verb) (onVerb code verb) := by
  cases verb with
  | ehlo =>
    rw [onVerb]
    split
    · next h => exact .announce h
    · split
      · next h => exact .retry h
      · exact .fail _ _
  | helo =>
    rw [onVerb]
    split
    · next h => exact .negotiate h
    · exact .fail _ _
  | startTls =>
    rw [onVerb]
    split
    · next h => exact .encrypt h
    · split <;> exact .fail _ _
  | auth =>
    rw [onVerb]
    split
    · next h => exact .sendPassword h
    · split
      · next h => exact .beginTransaction h
      · split <;> exact .fail _ _
  | mail =>
    rw [onVerb]
    split
    · next h => exact .firstRecipient h
    · split <;> exact .fail _ _
  | rcpt =>
    rw [onVerb]
    split
    · next h => exact .nextRecipient h
    · split <;> exact .fail _ _
  | data =>
    rw [onVerb]
    split
    · next h => exact .sendBody h
    · split
      · next h => exact .quitAfterData h
      · split <;> exact .fail _ _
  | burl =>
    rw [onVerb]
    split
    · next h => exact .quitAfterBurl h
    · split <;> exact .fail _ _
  | quit =>
    rw [onVerb]
    split
    · next h => exact .close h
    · exact .fail _ _

/-- Every decision is on the list, or it is a refusal. -/
theorem Decision.listed_of (awaited : Awaited) (code : Code) :
    Listed code awaited (Decision.of awaited code) := by
  unfold Decision.of
  split
  · exact .fail _ _
  · cases awaited with
    | greeting =>
      dsimp only
      rw [onGreeting]
      split
      · next h => exact .greet h
      · split <;> exact .fail _ _
    | answer verb => exact listed_onVerb code verb

def Envelope.commandsFrom (e : Envelope) (named : Nat) : List Command :=
  (e.recipients.drop named).map .rcpt ++ [e.payload.command]

theorem Envelope.commandsFrom_of_recipient (e : Envelope) (named : Nat) (recipient : Address)
    (h : e.recipients[named]? = some recipient) :
    e.commandsFrom named = .rcpt recipient :: e.commandsFrom (named + 1) := by
  obtain ⟨hlt, rfl⟩ := List.getElem?_eq_some_iff.mp h
  rw [commandsFrom, List.drop_eq_getElem_cons hlt]
  rfl

theorem Envelope.commandsFrom_of_none (e : Envelope) (named : Nat)
    (h : e.recipients[named]? = none) : e.commandsFrom named = [e.payload.command] := by
  rw [commandsFrom, List.drop_eq_nil_of_le (List.getElem?_eq_none_iff.mp h)]
  rfl

namespace Dialogue

/-- A transaction is the sender and what comes after it. -/
theorem transaction_eq (e : Envelope) (size : Option Nat) :
    transaction e size = .mail e.sender size :: e.commandsFrom 0 := rfl

/-- A command that is sent when nothing waits goes out at once, under the next number. -/
theorem send_eq (d : Dialogue) (c : Command) (h : d.pipeline.waiting = []) :
    d.send c = { d with
      pipeline := ⟨d.pipeline.issued + 1, [],
        d.pipeline.inFlight ++ [⟨d.pipeline.issued + 1, c.verb⟩]⟩
      outbound := d.outbound ++ [.tagged (d.pipeline.issued + 1) c.render] } := by
  simp [send, flush, Pipeline.enqueue, Pipeline.drain, Pipeline.transmitOf, Pipeline.sent, h]

/-- A command that is sent joins those on their way. -/
theorem mem_verbs_send (d : Dialogue) (c : Command) (verb : Verb) :
    verb ∈ (d.send c).pipeline.verbs ↔ verb ∈ d.pipeline.verbs ∨ verb = c.verb := by
  calc
    _ ↔ verb ∈ (d.pipeline.enqueue c).verbs := Pipeline.mem_verbs_drain _ verb
    _ ↔ verb ∈ d.pipeline.verbs ∨ verb ∈ [c].map Command.verb :=
      Pipeline.mem_verbs_foldl_enqueue d.pipeline [c] verb
    _ ↔ _ := by rw [List.map_singleton, List.mem_singleton]

/-- What is awaited is in flight. -/
theorem mem_verbs_of_awaited {d : Dialogue} {verb : Verb} (h : d.awaited = some (.answer verb)) :
    verb ∈ d.pipeline.verbs := by
  unfold awaited at h
  split at h
  · cases h
  · obtain ⟨f, hf, heq⟩ := Option.map_eq_some_iff.mp h
    cases heq
    exact Pipeline.mem_verbs_of_awaiting hf

def farewell (d : Dialogue) (mayQuit : Bool) : List Transmit :=
  if mayQuit && (d.phase.isOpen || d.phase = .connecting) && !d.pipeline.isInFlight .data then
    [.raw Command.quit.render]
  else []

/-- A failure empties the dialogue and closes it; only QUIT may go out with it. -/
theorem fail_eq (d : Dialogue) (error : Error) (mayQuit : Bool) :
    d.fail error mayQuit = ({ d with
      pipeline := d.pipeline.clear
      phase := .closed
      parked := false
      outbound := d.outbound ++ d.farewell mayQuit }, [.failed error]) := by
  unfold fail farewell
  dsimp only
  split <;> simp [close, put]

@[simp]
theorem fail_events (d : Dialogue) (error : Error) (mayQuit : Bool) :
    (d.fail error mayQuit).2 = [.failed error] := rfl

@[simp]
theorem fail_phase (d : Dialogue) (error : Error) (mayQuit : Bool) :
    (d.fail error mayQuit).1.phase = .closed := by
  rw [fail_eq]

/-- A refusal ends the dialogue. -/
theorem phase_act_fail (d : Dialogue) (awaited : Awaited) (reply : Reply) (text : String)
    (refusal : Refusal) : (d.act awaited reply text (.fail refusal)).1.phase = .closed := by
  simp only [act]
  split
  · rfl
  · exact d.fail_phase _ _

/-- A batch goes out in one piece, and all of it is in flight. -/
theorem sendBatch_eq (d : Dialogue) (e : Envelope) (size : Option Nat)
    (h : d.pipeline.waiting = []) :
    d.sendBatch e size = { d with
      batched := true
      recipientsSent := e.recipients.length
      pipeline := ⟨d.pipeline.issued + (transaction e size).length, [],
        d.pipeline.inFlight ++
          (Pipeline.numbered d.pipeline.issued (transaction e size)).map Pipeline.sent⟩
      outbound := d.outbound ++
        [Pipeline.batchOf (Pipeline.numbered d.pipeline.issued (transaction e size))]
      phase := .pipelining } := by
  have hne : Pipeline.numbered d.pipeline.issued (transaction e size) ≠ [] := by
    rw [transaction_eq]
    exact List.cons_ne_nil _ _
  simp [sendBatch, Pipeline.foldl_enqueue, Pipeline.drainAll_eq, h, hne]

inductive Beginning (d : Dialogue) : Outcome → Prop
  | failed (error : Error) : Beginning d (d.fail error true)
  | batch (e : Envelope) (size : Option Nat) (he : d.envelope = some e)
    (hs : declaredSize d.capabilities e.payload = .ok size)
    (hp : d.capabilities.supports .pipelining = true) : Beginning d (d.sendBatch e size, [])
  | sender (e : Envelope) (size : Option Nat) (he : d.envelope = some e)
    (hs : declaredSize d.capabilities e.payload = .ok size)
    (hp : d.capabilities.supports .pipelining = false) :
    Beginning d (d.send (.mail e.sender size), [])

/-- A transaction begins with all of its commands, with the first of them, or not at all. -/
theorem beginTransaction_beginning (d : Dialogue) : d.Beginning d.beginTransaction := by
  unfold beginTransaction
  cases he : d.envelope with
  | none => exact .failed _
  | some e =>
    dsimp only
    cases hs : declaredSize d.capabilities e.payload with
    | error error => exact .failed error
    | ok size =>
      dsimp only
      split
      · next hp => exact .batch e size he hs hp
      · next hp => exact .sender e size he hs (by simpa using hp)

def mustEncrypt (d : Dialogue) : Bool := d.settings.usesStartTls && !d.encrypted

def mustAuthenticate (d : Dialogue) : Bool := d.settings.requireAuth && !d.authenticated

theorem negotiate_eq_beginTransaction {d : Dialogue} (he : d.mustEncrypt = false)
    (ha : d.mustAuthenticate = false) : d.negotiate = d.beginTransaction := by
  change (if d.mustEncrypt then _ else if d.mustAuthenticate then _ else _) = _
  rw [if_neg (by simp [he]), if_neg (by simp [ha])]

inductive Negotiation (d : Dialogue) : Outcome → Prop
  | failed (error : Error) : Negotiation d (d.fail error true)
  | startTls (he : d.mustEncrypt = true) (hs : d.capabilities.supports .startTls = true) :
    Negotiation d (d.send .startTls, [])
  | park (he : d.mustEncrypt = false) (ha : d.mustAuthenticate = true)
    (hs : d.capabilities.supportsPlain = true) (hp : d.password = none)
    (hr : d.passwordRequested = true) : Negotiation d ({ d with parked := true }, [])
  | ask (he : d.mustEncrypt = false) (ha : d.mustAuthenticate = true)
    (hs : d.capabilities.supportsPlain = true) (hp : d.password = none)
    (hr : d.passwordRequested = false) : Negotiation d (requestPassword { d with parked := true })
  | auth (he : d.mustEncrypt = false) (ha : d.mustAuthenticate = true)
    (hs : d.capabilities.supportsPlain = true) (hp : d.password ≠ none) :
    Negotiation d (d.startAuth, [])
  | begun (he : d.mustEncrypt = false) (ha : d.mustAuthenticate = false) :
    Negotiation d d.beginTransaction

/-- What comes after the greetings is decided in the order of encryption, authentication and
transaction. -/
theorem negotiate_negotiation (d : Dialogue) : d.Negotiation d.negotiate := by
  change d.Negotiation (if d.mustEncrypt then _ else if d.mustAuthenticate then _ else _)
  split
  · next he =>
    split
    · next hs => exact .startTls he hs
    · exact .failed _
  · next he =>
    rw [Bool.not_eq_true] at he
    split
    · next ha =>
      split
      · exact .failed _
      · next hs =>
        have hs' : d.capabilities.supportsPlain = true := by simpa using hs
        split
        · next hp =>
          have hp' : d.password = none := Option.isNone_iff_eq_none.mp hp
          split
          · next hr => exact .park he ha hs' hp' hr
          · next hr => exact .ask he ha hs' hp' (by simpa using hr)
        · next hp => exact .auth he ha hs' (by simpa [Option.isNone_iff_eq_none] using hp)
    · next ha => exact .begun he (by simpa using ha)

def reactTo (d : Dialogue) (awaited : Awaited) (reply : Reply) (text : String)
    (decision : Decision) : Outcome :=
  (settle { d with replyTexts := [] } awaited reply.code).act awaited reply text decision

def replyText (d : Dialogue) (reply : Reply) : String :=
  "\n".intercalate (d.replyTexts ++ [reply.text])

/-- A reply to nothing is a failure. -/
theorem takeReply_of_none (d : Dialogue) (reply : Reply) (h : d.awaited = none) :
    d.takeReply reply = d.fail (.unexpectedReply "none" reply.code reply.text) true := by
  simp only [takeReply, h]

/-- A line of a reply that goes on is only held. -/
theorem takeReply_of_continues (d : Dialogue) (reply : Reply) (awaited : Awaited)
    (h : d.awaited = some awaited) (hc : reply.continues = true) :
    d.takeReply reply = (d.holdLine reply (Decision.of awaited reply.code), []) := by
  simp only [takeReply, h, hc, if_true]

/-- The last line of a reply is acted on, with the text of all its lines. -/
theorem takeReply_of_last (d : Dialogue) (reply : Reply) (awaited : Awaited)
    (h : d.awaited = some awaited) (hc : reply.continues = false) :
    d.takeReply reply =
      d.reactTo awaited reply (d.replyText reply) (Decision.of awaited reply.code) := by
  simp only [takeReply, h, hc, Bool.false_eq_true, if_false]
  rfl

/-- How a dialogue reads a line: not any more, or as no reply, or as a line of a reply to nothing,
or as a line of a reply that goes on, or as the last line of a reply. -/
inductive Reading (d : Dialogue) (line : Bytes) : Outcome → Prop
  | closed (hclosed : d.isFinished = true) : Reading d line (d, [])
  | malformed (error : Error) (hopen : d.isFinished = false)
    (hparse : Reply.parse line = .error error) : Reading d line (d.fail error true)
  | unasked (reply : Reply) (hopen : d.isFinished = false)
    (hparse : Reply.parse line = .ok reply) (hw : d.awaited = none) :
    Reading d line (d.fail (.unexpectedReply "none" reply.code reply.text) true)
  | held (reply : Reply) (awaited : Awaited) (hopen : d.isFinished = false)
    (hparse : Reply.parse line = .ok reply) (hw : d.awaited = some awaited)
    (hc : reply.continues = true) :
    Reading d line (d.holdLine reply (Decision.of awaited reply.code), [])
  | completed (reply : Reply) (awaited : Awaited) (hopen : d.isFinished = false)
    (hparse : Reply.parse line = .ok reply) (hw : d.awaited = some awaited)
    (hc : reply.continues = false) :
    Reading d line
      (d.reactTo awaited reply (d.replyText reply) (Decision.of awaited reply.code))

/-- Each way to read a line is one of those that `Reading` lists. -/
theorem takeLine_reading (d : Dialogue) (line : Bytes) : d.Reading line (d.takeLine line) := by
  cases hopen : d.isFinished with
  | true =>
    rw [takeLine, if_pos hopen]
    exact .closed hopen
  | false =>
    rw [takeLine, if_neg (by simp [hopen])]
    cases hparse : Reply.parse line with
    | error error => exact .malformed error hopen hparse
    | ok reply =>
      dsimp only
      cases hw : d.awaited with
      | none =>
        rw [d.takeReply_of_none reply hw]
        exact .unasked reply hopen hparse hw
      | some awaited =>
        cases hc : reply.continues with
        | true =>
          rw [d.takeReply_of_continues reply awaited hw hc]
          exact .held reply awaited hopen hparse hw hc
        | false =>
          rw [d.takeReply_of_last reply awaited hw hc]
          exact .completed reply awaited hopen hparse hw hc

structure Completes (d : Dialogue) (line : Bytes) (verb : Verb) (reply : Reply) : Prop where
  unfinished : d.isFinished = false
  awaited_eq : d.awaited = some (.answer verb)
  parse_eq : Reply.parse line = .ok reply
  last : reply.continues = false

/-- A line that completes a reply to a command is acted on by the code and the verb. -/
theorem Completes.takeLine_eq {d : Dialogue} {line : Bytes} {verb : Verb} {reply : Reply}
    (h : d.Completes line verb reply) :
    d.takeLine line = d.reactTo (.answer verb) reply (d.replyText reply)
      (Decision.of (.answer verb) reply.code) := by
  rw [takeLine, if_neg (by simp [h.unfinished]), h.parse_eq]
  exact d.takeReply_of_last reply _ h.awaited_eq h.last

/-- A complete reply changes the pipeline, the phase and the mark of the greeting, and nothing
else. -/
theorem settle_eq (d : Dialogue) (awaited : Awaited) (code : Code) :
    ∃ pipeline phase greetingDue, settle d awaited code =
      { d with pipeline := pipeline, phase := phase, greetingDue := greetingDue } := by
  unfold settle
  split
  · exact ⟨d.pipeline, d.phase, false, rfl⟩
  · split
    · exact ⟨d.pipeline, d.phase, d.greetingDue, rfl⟩
    · exact ⟨_, _, d.greetingDue, rfl⟩

section Settle

variable (d : Dialogue) (awaited : Awaited) (code : Code)

@[simp]
theorem settle_settings : (settle d awaited code).settings = d.settings := by
  obtain ⟨_, _, _, h⟩ := settle_eq d awaited code
  rw [h]

@[simp]
theorem settle_envelope : (settle d awaited code).envelope = d.envelope := by
  obtain ⟨_, _, _, h⟩ := settle_eq d awaited code
  rw [h]

@[simp]
theorem settle_outbound : (settle d awaited code).outbound = d.outbound := by
  obtain ⟨_, _, _, h⟩ := settle_eq d awaited code
  rw [h]

@[simp]
theorem settle_capabilities : (settle d awaited code).capabilities = d.capabilities := by
  obtain ⟨_, _, _, h⟩ := settle_eq d awaited code
  rw [h]

@[simp]
theorem settle_recipientsSent : (settle d awaited code).recipientsSent = d.recipientsSent := by
  obtain ⟨_, _, _, h⟩ := settle_eq d awaited code
  rw [h]

@[simp]
theorem settle_replyTexts : (settle d awaited code).replyTexts = d.replyTexts := by
  obtain ⟨_, _, _, h⟩ := settle_eq d awaited code
  rw [h]

@[simp]
theorem settle_batched : (settle d awaited code).batched = d.batched := by
  obtain ⟨_, _, _, h⟩ := settle_eq d awaited code
  rw [h]

@[simp]
theorem settle_succeeded : (settle d awaited code).succeeded = d.succeeded := by
  obtain ⟨_, _, _, h⟩ := settle_eq d awaited code
  rw [h]

theorem settle_greetingDue (verb : Verb) :
    (settle d (.answer verb) code).greetingDue = d.greetingDue := by
  unfold settle
  split
  · next h => cases h
  · split <;> rfl

end Settle

/-- An intermediate reply leaves its command in flight. -/
theorem settle_intermediate (d : Dialogue) (verb : Verb) (code : Code)
    (hc : code.isIntermediate = true) :
    settle { d with replyTexts := [] } (.answer verb) code = { d with replyTexts := [] } := by
  simp [settle, hc]

theorem isFinished_eq_false_iff (d : Dialogue) : d.isFinished = false ↔ d.phase ≠ .closed := by
  simp [isFinished]

/-- A parked dialogue that is open goes on when it is given the password. -/
theorem givePassword_of_parked {d : Dialogue} (hp : d.parked = true) (hopen : d.phase ≠ .closed)
    (password : String) :
    d.givePassword password = startAuth { d with password := some password, parked := false } := by
  have hunfinished := (d.isFinished_eq_false_iff).mpr hopen
  rw [givePassword, hp, hunfinished]
  rfl

/-- A password that is not waited for is only noted. -/
theorem givePassword_of_unparked {d : Dialogue} (h : d.parked = true → d.phase = .closed)
    (password : String) : d.givePassword password = { d with password := some password } := by
  rw [givePassword, if_neg]
  intro hresumes
  rw [Bool.and_eq_true, Bool.not_eq_true', isFinished_eq_false_iff] at hresumes
  exact hresumes.2 (h hresumes.1)

/-- A submission is refused without a trace, or it is the first and gives the envelope. -/
theorem perform_submit (d : Dialogue) (e : Envelope) :
    ((d.perform (.submit e)).1 = d ∧ (d.perform (.submit e)).2.events = []) ∨
    (d.envelope = none ∧ d.phase = .disconnected ∧ ∃ requested asked,
      (d.perform (.submit e)).1 =
        { d with envelope := some e, passwordRequested := requested } ∧
      (d.perform (.submit e)).2.events = [.total e.payload.total, .progress 0] ++ asked ∧
      (asked = [] ∨ asked = [.passwordRequested d.settings.user d.settings.host])) := by
  simp only [perform, submit]
  split
  · next submitted events h =>
    split at h
    · cases h
    · next hnew =>
      simp only [Bool.or_eq_true, bne_iff_ne, ne_eq, not_or, Bool.not_eq_true,
        Option.isSome_eq_false_iff, Option.isNone_iff_eq_none, not_not] at hnew
      refine Or.inr ⟨hnew.1, hnew.2, ?_⟩
      split at h <;> cases h
      · exact ⟨true, [.passwordRequested d.settings.user d.settings.host], rfl, rfl, Or.inr rfl⟩
      · exact ⟨d.passwordRequested, [], rfl, rfl, Or.inl rfl⟩
  · exact Or.inl ⟨rfl, rfl⟩

end Dialogue

end SmtpClient
