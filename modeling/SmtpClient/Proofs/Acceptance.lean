import SmtpClient.Proofs.Ledger

namespace SmtpClient

def Verb.accepts : Verb → Code → Bool
  | .mail, code => code = 250
  | .rcpt, code => code = 250 || code = 251
  | _, _ => true

theorem Verb.isEnvelope_of_not_accepts {verb : Verb} {code : Code}
    (h : verb.accepts code = false) : verb.isEnvelope = true := by
  cases verb with
  | mail | rcpt => rfl
  | _ => cases h

/-- Every answer that does not accept is decided to be a failure. -/
theorem Decision.of_not_accepts {verb : Verb} {code : Code} (h : verb.accepts code = false) :
    ∃ refusal, Decision.of (.answer verb) code = .fail refusal := by
  have hl := Decision.listed_of (.answer verb) code
  generalize Decision.of (.answer verb) code = decision at hl
  cases hl with
  | firstRecipient hcode => simp [Verb.accepts, hcode] at h
  | nextRecipient hcode =>
    simp only [Verb.accepts, Bool.or_eq_false_iff, decide_eq_false_iff_not] at h
    rcases hcode with hcode | hcode
    · exact absurd hcode h.1
    · exact absurd hcode h.2
  | fail _ refusal => exact ⟨refusal, rfl⟩
  | _ => cases h

def partyCount (verbs : List Verb) : Nat := verbs.countP Verb.isEnvelope

theorem partyCount_append (verbs later : List Verb) :
    partyCount (verbs ++ later) = partyCount verbs + partyCount later := List.countP_append

theorem partyCount_le_of_prefix {verbs all : List Verb} (h : verbs <+: all) :
    partyCount verbs ≤ partyCount all := h.sublist.countP_le

theorem partyCount_opening {opening : List Command}
    (h : ∀ c ∈ opening, c.verb.isOpening = true) : partyCount (opening.map Command.verb) = 0 := by
  rw [partyCount, List.countP_eq_zero]
  intro verb hmem
  obtain ⟨c, hc, rfl⟩ := List.mem_map.mp hmem
  have hopens := h c hc
  revert hopens
  cases c.verb <;> simp [Verb.isOpening, Verb.isEnvelope]

theorem partyCount_parties (e : Envelope) (size : Option Nat) :
    partyCount ((e.parties size).map Command.verb) = e.recipients.length + 1 := by
  have hall : ∀ verb ∈ (e.parties size).map Command.verb, verb.isEnvelope = true := by
    intro verb hmem
    obtain ⟨c, hc, rfl⟩ := List.mem_map.mp hmem
    exact e.isEnvelope_of_mem_parties hc
  rw [partyCount, List.countP_eq_length.mpr hall]
  simp [Envelope.parties]

/-- A transaction names the sender and each recipient once, so it has one party more than
recipients. -/
theorem partyCount_transaction (e : Envelope) (size : Option Nat) :
    partyCount ((Dialogue.transaction e size).map Command.verb) = e.recipients.length + 1 := by
  have hpayload : partyCount [e.payload.command.verb] = 0 := by
    rcases e.payload.verb_command with ⟨data, -, h⟩ | ⟨target, -, h⟩ <;> rw [h] <;> rfl
  rw [Dialogue.transaction_split, List.map_append, partyCount_append, partyCount_parties,
    List.map_singleton, hpayload]

theorem opening_of_mem_preamble {client : String} {secured plainly identified : Bool} {c : Command}
    (h : c ∈ preamble client secured plainly identified) : c.verb.isOpening = true := by
  have hall : (preamble client secured plainly identified).all (·.verb.isOpening) = true := by
    cases secured <;> cases plainly <;> cases identified <;> rfl
  exact List.all_eq_true.mp hall c h

/-- In the course of a submission the sender and the recipients are named once each. -/
theorem InCourse.partyCount_le {settings : Settings} {e : Envelope} {said : List Command}
    (h : InCourse settings (some e) said) :
    partyCount (said.map Command.verb) ≤ e.recipients.length + 1 := by
  have hpreamble (secured plainly identified : Bool) :
      partyCount ((preamble settings.clientName secured plainly identified).map Command.verb) = 0 :=
    partyCount_opening fun c => opening_of_mem_preamble
  cases h with
  | opening secured plainly identified h =>
    have hle := partyCount_le_of_prefix (h.map Command.verb)
    rw [hpreamble] at hle
    omega
  | transaction secured plainly identified e' size he h =>
    cases he
    have hle := partyCount_le_of_prefix (h.map Command.verb)
    rw [List.map_append, List.map_append, partyCount_append, partyCount_append, hpreamble,
      partyCount_transaction] at hle
    have hquit : partyCount ([Command.quit].map Command.verb) = 0 := rfl
    omega

/-- Behind a command that names the sender or a recipient there is the payload command. -/
theorem Envelope.Leads.front {e : Envelope} {c : Command} {rest : List Command}
    (h : e.Leads c rest) (hc : c.verb.isEnvelope = true) :
    ∃ front, rest = front ++ [e.payload.command] := by
  cases h with
  | sender size => exact ⟨_, rfl⟩
  | recipient named r hr => exact ⟨_, rfl⟩
  | payload =>
    rcases e.payload.verb_command with ⟨data, -, hlast⟩ | ⟨target, -, hlast⟩ <;>
      rw [hlast] at hc <;> cases hc

namespace Dialogue

def refusesEnvelope (d : Dialogue) (call : Call) : Bool :=
  (d.reply? call).any fun a => !a.1.verb.accepts a.2

theorem refusesEnvelope_of_reply? {d : Dialogue} {call : Call} {a : InFlight × Code}
    (h : d.reply? call = some a) (hno : a.1.verb.accepts a.2 = false) :
    d.refusesEnvelope call = true := by
  simp [refusesEnvelope, h, hno]

/-- A refusal is a line that completes the reply to the sender or a recipient, and it is decided to
be a failure. -/
theorem refusesEnvelope_eq_true {d : Dialogue} {call : Call} (h : d.refusesEnvelope call = true) :
    ∃ line f reply refusal, call = .line line ∧ d.pipeline.awaiting = some f ∧
      d.Completes line f.verb reply ∧ f.verb.isEnvelope = true ∧
      Decision.of (.answer f.verb) reply.code = .fail refusal := by
  obtain ⟨⟨f, code⟩, hreply, hno⟩ := (Option.any_eq_true _ _).mp h
  rw [Bool.not_eq_true'] at hno
  obtain ⟨line, reply, hcall, hf, hline, rfl⟩ := reply?_eq_some hreply
  obtain ⟨refusal, hrefusal⟩ := Decision.of_not_accepts hno
  exact ⟨line, f, reply, refusal, hcall, hf, hline, Verb.isEnvelope_of_not_accepts hno, hrefusal⟩

/-- A refusal closes the dialogue, and is reported as a failure. -/
theorem perform_of_refusesEnvelope {d : Dialogue} {call : Call}
    (h : d.refusesEnvelope call = true) :
    (d.perform call).1.phase = .closed ∧ ∃ error, d.eventsOf call = [.failed error] := by
  obtain ⟨line, f, reply, refusal, rfl, -, hline, hparty, hrefusal⟩ := refusesEnvelope_eq_true h
  have hquit : f.verb ≠ .quit := by
    intro hverb
    rw [hverb] at hparty
    cases hparty
  refine ⟨?_, refusal.error (.answer f.verb) reply (d.replyText reply), ?_⟩
  · rw [perform, hline.takeLine_eq, hrefusal]
    exact phase_act_fail _ _ _ _ _
  · rw [eventsOf, perform, hline.takeLine_eq, hrefusal]
    simp [reactTo, act, Answer.ofEvents, hquit]

/-- A run in which the sender or a recipient was refused has ended. -/
theorem phase_of_refused {settings : Settings} {calls : List Call}
    (h : Occurs calls fun before call =>
      ((start settings).after before).refusesEnvelope call = true) :
    ((start settings).after calls).phase = .closed := by
  induction calls using List.reverseRecOn with
  | nil => exact absurd h (not_occurs_nil _)
  | append_singleton calls call ih =>
    rw [after_snoc]
    rcases (occurs_snoc_iff _ _ _).mp h with hearlier | hlast
    · exact (perform_of_closed (ih hearlier) call).1
    · exact (perform_of_refusesEnvelope hlast).1

/-- As long as a dialogue is open, every answer that it got accepts. -/
theorem accepts_of_mem_answers (settings : Settings) (calls : List Call)
    (hopen : ((start settings).after calls).phase ≠ .closed) :
    ∀ a ∈ (start settings).answers calls, a.1.verb.accepts a.2 = true := by
  induction calls using List.reverseRecOn with
  | nil => exact fun a ha => by cases ha
  | append_singleton calls call ih =>
    rw [after_snoc] at hopen
    have hbefore : ((start settings).after calls).phase ≠ .closed :=
      fun hclosed => hopen (perform_of_closed hclosed call).1
    intro a ha
    rw [answers_snoc] at ha
    rcases List.mem_append.mp ha with hmem | hlast
    · exact ih hbefore a hmem
    · have hanswer := Option.mem_toList.mp hlast
      have hreply := (Option.filter_eq_some_iff.mp hanswer).1
      by_contra hno
      rw [Bool.not_eq_true] at hno
      exact hopen (perform_of_refusesEnvelope (refusesEnvelope_of_reply? hreply hno)).1

/-- A dialogue that waits for the reply to a command of its transaction: what came before it, and
the commands that follow it. -/
structure Midway (d : Dialogue) (said opening : List Command) (e : Envelope) (size : Option Nat)
    (c : Command) (rest : List Command) : Prop where
  envelope_eq : d.envelope = some e
  opens : ∀ c ∈ opening, c.verb.isOpening = true
  leads : e.Leads c rest
  flow : d.Flow e c rest
  said_eq : said ++ (if d.batched then [] else rest) = opening ++ transaction e size

/-- Where a command of the transaction is awaited, the turn tells what came before it and what
follows. -/
theorem Turn.midway {d : Dialogue} {said : List Command} (h : d.Turn said)
    (hopen : d.phase ≠ .closed) {verb : Verb} (hw : d.awaited = some (.answer verb))
    (hv : verb.isEnvelope = true ∨ verb.isPayload = true) :
    ∃ opening e size c rest, c.verb = verb ∧ d.Midway said opening e size c rest := by
  cases h with
  | sending secured plainly identified e size c rest said he hm hs hl hf hsaid =>
    have hverb : c.verb = verb := by
      rw [hf.awaited_eq] at hw
      simpa using hw
    exact ⟨_, e, size, c, rest, hverb, he, fun c => opening_of_mem_preamble, hl, hf, hsaid⟩
  | opening verb' said hd hu ho =>
    rw [hd.awaited_eq_answer (by simp)] at hw
    cases hw
    cases ho <;> simp [Verb.isEnvelope, Verb.isPayload] at hv
  | leaving secured plainly identified e size he hm hd =>
    rw [hd.awaited_eq_answer (by simp)] at hw
    cases hw
    simp [Verb.isEnvelope, Verb.isPayload] at hv
  | silent phase hp hd =>
    rcases hp with rfl | rfl
    · simp [hd.awaited_eq_none] at hw
    · simp [hd.awaited_eq_greeting] at hw
  | parked secured plainly hd => simp [hd.awaited_eq_none] at hw
  | handshake hd => simp [hd.awaited_eq_none] at hw
  | closed _ hclosed => exact absurd hclosed hopen

structure Accepted (settings : Settings) (calls : List Call) (e : Envelope)
    (opening : List Command) (size : Option Nat) (greetings : List (InFlight × Code))
    (codes : List Code) : Prop where
  conveys : Conveys (opening ++ transaction e size) ((start settings).putOut calls)
  opens : ∀ c ∈ opening, c.verb.isOpening = true
  greetings_eq : greetings.map Prod.fst = (Pipeline.numbered 0 opening).map Pipeline.sent
  answers_eq : (start settings).answers calls = greetings ++
    ((Pipeline.numbered opening.length (e.parties size)).map Pipeline.sent).zip (250 :: codes)
  length_eq : codes.length = e.recipients.length
  accepted : ∀ code ∈ codes, code = 250 ∨ code = 251

def EnvelopeTaken (settings : Settings) (calls : List Call) (e : Envelope) : Prop :=
  ∃ opening size greetings codes, Accepted settings calls e opening size greetings codes

/-- Answers that accept a sender and recipients are 250 to the sender and 250 or 251 to each of the
recipients. -/
theorem exists_codes_of_accepts {issued : Nat} {e : Envelope} {size : Option Nat}
    {taken : List (InFlight × Code)}
    (h : taken.map Prod.fst = (Pipeline.numbered issued (e.parties size)).map Pipeline.sent)
    (haccepted : ∀ a ∈ taken, a.1.verb.accepts a.2 = true) :
    ∃ codes, taken =
        ((Pipeline.numbered issued (e.parties size)).map Pipeline.sent).zip (250 :: codes) ∧
      codes.length = e.recipients.length ∧ ∀ code ∈ codes, code = 250 ∨ code = 251 := by
  obtain ⟨first, later, rfl, hfirst, hlater⟩ := List.map_eq_cons_iff.mp h
  have hmail : first.2 = 250 := by
    have haccepts := haccepted first List.mem_cons_self
    rw [hfirst] at haccepts
    exact of_decide_eq_true haccepts
  refine ⟨later.map Prod.snd, ?_, ?_, ?_⟩
  · refine List.zip_of_prod h ?_
    rw [List.map_cons, hmail]
  · simpa [Pipeline.length_numbered] using congrArg List.length hlater
  · intro code hcode
    obtain ⟨a, ha, rfl⟩ := List.mem_map.mp hcode
    have hverb : a.1.verb = .rcpt := by
      have hmem : a.1.verb ∈ (later.map Prod.fst).map (·.verb) :=
        List.mem_map_of_mem (List.mem_map_of_mem ha)
      rw [hlater, Pipeline.map_verb_sent, List.map_map] at hmem
      obtain ⟨recipient, -, hrcpt⟩ := List.mem_map.mp hmem
      exact hrcpt.symm
    have haccepts := haccepted a (List.mem_cons_of_mem _ ha)
    rw [hverb] at haccepts
    simpa [Verb.accepts] using haccepts

/-- When the answer to the payload command is awaited, all of the envelope has been accepted. -/
theorem Ledger.envelopeTaken {settings : Settings} {calls : List Call} {said : List Command}
    (h : Ledger settings calls said) (hopen : ((start settings).after calls).phase ≠ .closed)
    {verb : Verb} (hv : verb.isPayload = true)
    (hw : ((start settings).after calls).awaited = some (.answer verb)) :
    ∃ e, ((start settings).after calls).envelope = some e ∧ e.payload.command.verb = verb ∧
      EnvelopeTaken settings calls e := by
  obtain ⟨opening, e, size, c, rest, rfl, hm⟩ := h.told.turn.midway hopen hw (Or.inr hv)
  obtain ⟨rfl, rfl⟩ := hm.leads.last hv
  have hsaid : said = opening ++ e.parties size ++ [e.payload.command] := by
    have hall := hm.said_eq
    rwa [ite_self, List.append_nil, transaction_split, ← List.append_assoc] at hall
  have hone : ((start settings).after calls).pipeline.inFlight.length = 1 := by
    have hlength := congrArg List.length hm.flow.verbs_of_last
    rwa [List.length_map, List.length_singleton] at hlength
  have hanswered : ((start settings).answers calls).map Prod.fst =
      (Pipeline.numbered 0 (opening ++ e.parties size)).map Pipeline.sent := by
    have hall := (answers_sent settings calls).2 hopen
    rw [h.sent_eq, hsaid, Pipeline.numbered_append, List.map_append] at hall
    exact (List.append_inj' hall hone).1
  rw [Pipeline.numbered_append, List.map_append, Nat.zero_add, List.map_eq_append_iff] at hanswered
  obtain ⟨greetings, taken, hanswers, hgreetings, htaken⟩ := hanswered
  have haccepted : ∀ a ∈ taken, a.1.verb.accepts a.2 = true := fun a ha =>
    accepts_of_mem_answers settings calls hopen a (hanswers ▸ List.mem_append_right _ ha)
  obtain ⟨codes, hcodes, hlength, hall⟩ := exists_codes_of_accepts htaken haccepted
  refine ⟨e, hm.envelope_eq, rfl, opening, size, greetings, codes, ?_, hm.opens, hgreetings, ?_,
    hlength, hall⟩
  · rw [transaction_split, ← List.append_assoc, ← hsaid]
    exact h.conveys
  · rw [hanswers, hcodes]

/-- An accepted envelope has been answered once for each of its parties. -/
theorem Accepted.partyCount_answers {settings : Settings} {calls : List Call} {e : Envelope}
    {opening : List Command} {size : Option Nat} {greetings : List (InFlight × Code)}
    {codes : List Code} (h : Accepted settings calls e opening size greetings codes) :
    partyCount (((start settings).answers calls).map fun a => a.1.verb) =
      e.recipients.length + 1 := by
  have hanswered : ((start settings).answers calls).map Prod.fst =
      (Pipeline.numbered 0 (opening ++ e.parties size)).map Pipeline.sent := by
    rw [h.answers_eq, List.map_append, h.greetings_eq, List.map_fst_zip ?_,
      Pipeline.numbered_append, List.map_append, Nat.zero_add]
    simp [Pipeline.length_numbered, Envelope.parties, h.length_eq]
  have hverbs : ((start settings).answers calls).map (fun a => a.1.verb) =
      opening.map Command.verb ++ (e.parties size).map Command.verb := by
    calc
      _ = (((start settings).answers calls).map Prod.fst).map (·.verb) := by
        rw [List.map_map]
        rfl
      _ = _ := by rw [hanswered, Pipeline.map_verb_sent, List.map_append]
  rw [hverbs, partyCount_append, partyCount_opening h.opens, partyCount_parties, Nat.zero_add]

/-- After an accepted envelope no sender and no recipient is left to be answered. -/
theorem Ledger.awaiting_of_taken {settings : Settings} {before later : List Call}
    {said : List Command} (h : Ledger settings (before ++ later) said) {e : Envelope}
    (he : ((start settings).after before).envelope = some e) (ht : EnvelopeTaken settings before e)
    (hopen : ((start settings).after (before ++ later)).phase ≠ .closed) {f : InFlight}
    (hf : ((start settings).after (before ++ later)).pipeline.awaiting = some f) :
    f.verb.isEnvelope = false := by
  by_contra hparty
  rw [Bool.not_eq_false] at hparty
  obtain ⟨opening, size, greetings, codes, htaken⟩ := ht
  have hmost : partyCount (said.map Command.verb) ≤ e.recipients.length + 1 := by
    have hin := h.told.turn.inCourse
    rw [settings_after, after_append, envelope_after _ he] at hin
    exact hin.partyCount_le
  obtain ⟨others, hothers⟩ := List.head?_eq_some_iff.mp hf
  have hsplit : said.map Command.verb =
      ((start settings).answers before).map (fun a => a.1.verb) ++
        ((((start settings).after before).answers later).map (fun a => a.1.verb) ++
          f.verb :: others.map (·.verb)) := by
    have hall := congrArg (List.map InFlight.verb) ((answers_sent settings _).2 hopen)
    rw [h.sent_eq, Pipeline.map_verb_sent, hothers, answers_append] at hall
    simpa [Function.comp_def] using hall.symm
  have hone : partyCount (f.verb :: others.map (·.verb)) = partyCount (others.map (·.verb)) + 1 :=
    List.countP_cons_of_pos hparty
  rw [hsplit, partyCount_append, partyCount_append, htaken.partyCount_answers, hone] at hmost
  omega

/-- The body follows the acceptance of its envelope, whether the commands went out one by one or in
one batch. -/
structure BodyFollowsAcceptance (settings : Settings) (calls : List Call) : Prop where
  taken : ∀ before call later, calls = before ++ call :: later →
    ∀ t ∈ ((start settings).after before).outputOf call, t.EndsBody →
      ∃ e data, ((start settings).after before).envelope = some e ∧ e.payload = .message data ∧
        t = .raw (Body.encode data) ∧ EnvelopeTaken settings before e
  withheld : (Occurs calls fun before call =>
      ((start settings).after before).refusesEnvelope call = true) →
    ∀ t ∈ (start settings).putOut calls, ¬t.EndsBody

/-- What ends as a body does is the body of the envelope, and the envelope has been accepted. -/
theorem EncryptsWhenDue.taken_of_body {settings : Settings} {calls : List Call}
    (h : EncryptsWhenDue settings calls) {call : Call} {t : Transmit}
    (ht : t ∈ ((start settings).after calls).outputOf call) (hbody : t.EndsBody) :
    ((start settings).after calls).dataCode? call = some 354 ∧
    ∃ e data, ((start settings).after calls).envelope = some e ∧ e.payload = .message data ∧
      t = .raw (Body.encode data) ∧ EnvelopeTaken settings calls e := by
  have hgo : ((start settings).after calls).dataCode? call = some 354 := by
    by_contra hno
    exact perform_aside _ hno t ht hbody
  refine ⟨hgo, ?_⟩
  obtain ⟨line, reply, hcall, hline, -⟩ := dataCode?_eq_some hgo
  obtain ⟨said, hledger⟩ := h.ledger
  obtain ⟨e, he, hverb, htaken⟩ := hledger.envelopeTaken hline.phase_ne rfl hline.awaited_eq
  rcases e.payload.verb_command with ⟨data, hp, -⟩ | ⟨target, -, hburl⟩
  · have hcarries : ((start settings).after calls).Carries data := by
      intro e' he'
      cases he.symm.trans he'
      exact hp
    rw [(perform_goAhead (ownPayload_after settings calls) hcarries hgo).1,
      List.mem_singleton] at ht
    exact ⟨e, data, he, hp, ht, htaken⟩
  · rw [hburl] at hverb
    cases hverb

/-- A body that has gone out leaves nothing to refuse, and after a refusal no body goes out. -/
theorem EncryptsWhenDue.not_refused_of_body {settings : Settings} {calls : List Call}
    (h : EncryptsWhenDue settings calls) {t : Transmit} (hbody : t.EndsBody)
    (hsent : Occurs calls fun before call => t ∈ ((start settings).after before).outputOf call) :
    ¬Occurs calls fun before call =>
      ((start settings).after before).refusesEnvelope call = true := by
  induction calls using List.reverseRecOn with
  | nil => exact not_occurs_nil _
  | append_singleton calls call ih =>
    intro hrefused
    rcases (occurs_snoc_iff _ _ _).mp hrefused with hrefused | hlast
    · rcases (occurs_snoc_iff _ _ _).mp hsent with hsent | ht
      · exact ih h.of_append hsent hrefused
      · have hgo := (h.of_append.taken_of_body ht hbody).1
        obtain ⟨line, reply, -, hline, -⟩ := dataCode?_eq_some hgo
        exact hline.phase_ne (phase_of_refused hrefused)
    · obtain ⟨line, f, reply, refusal, rfl, hf, hline, hparty, -⟩ := refusesEnvelope_eq_true hlast
      rcases (occurs_snoc_iff _ _ _).mp hsent with hsent | ht
      · obtain ⟨before, call', later, rfl, ht⟩ := hsent
        obtain ⟨-, e, data, he, -, -, htaken⟩ := h.of_append.of_append.taken_of_body ht hbody
        obtain ⟨said, hledger⟩ := h.of_append.ledger
        have hnone := hledger.awaiting_of_taken he htaken hline.phase_ne hf
        rw [hparty] at hnone
        cases hnone
      · have hgo := (h.of_append.taken_of_body ht hbody).1
        obtain ⟨line', reply', -, hdata, -⟩ := dataCode?_eq_some hgo
        have hverb := hline.awaited_eq.symm.trans hdata.awaited_eq
        simp only [Option.some.injEq, Awaited.answer.injEq] at hverb
        rw [hverb] at hparty
        cases hparty

/-- In every run the body goes out only after the sender and every recipient have been accepted, and
not at all if one of them is refused. -/
theorem bodyFollowsAcceptance_run (settings : Settings) (calls : List Call)
    (h : EncryptsWhenDue settings calls) : BodyFollowsAcceptance settings calls := by
  refine ⟨?_, ?_⟩
  · rintro before call later rfl t ht hbody
    exact (h.of_append.taken_of_body ht hbody).2
  · intro hrefused t ht hbody
    exact h.not_refused_of_body hbody (occurs_of_mem_putOut ht) hrefused

def acceptedInBatch : List Call :=
  conversation (.toBoth (.message (Utf8.encode "hi\r\n")))
    (repliesToBatch ++ ["251 will forward", "354 go"])

/-- With two recipients in a batch, the body that goes out after all four acceptances is such a
body. -/
theorem bodyFollowsAcceptance_of_batch :
    EncryptsWhenDue .plain acceptedInBatch ∧
      .raw (Body.encode (Utf8.encode "hi\r\n")) ∈ (start .plain).putOut acceptedInBatch ∧
      BodyFollowsAcceptance .plain acceptedInBatch := by
  have hdue : EncryptsWhenDue .plain acceptedInBatch := .of_notMem _ (by decide +kernel)
  exact ⟨hdue, by decide +kernel, bodyFollowsAcceptance_run _ _ hdue⟩

/-- A refusal comes in the midst of the transaction, with the payload command behind the one that is
refused. -/
theorem Ledger.midway_of_refused {settings : Settings} {calls : List Call} {said : List Command}
    (h : Ledger settings calls said) {call : Call}
    (hrefused : ((start settings).after calls).refusesEnvelope call = true) :
    ∃ opening e size c front,
      ((start settings).after calls).Midway said opening e size c
        (front ++ [e.payload.command]) := by
  obtain ⟨line, f, reply, refusal, -, -, hline, hparty, -⟩ := refusesEnvelope_eq_true hrefused
  obtain ⟨opening, e, size, c, rest, hverb, hm⟩ :=
    h.told.turn.midway hline.phase_ne hline.awaited_eq (Or.inl hparty)
  obtain ⟨front, rfl⟩ := hm.leads.front (by rw [hverb]; exact hparty)
  exact ⟨opening, e, size, c, front, hm⟩

/-- In a batch the payload command goes out with the others. -/
theorem Midway.payload_mem {d : Dialogue} {said opening : List Command} {e : Envelope}
    {size : Option Nat} {c : Command} {rest : List Command}
    (h : d.Midway said opening e size c rest) (hphase : d.phase = .pipelining) :
    e.payload.command ∈ said := by
  have hbatched : d.batched = true := by
    cases h.flow with
    | oneByOne hd => simp [hd.phase_eq] at hphase
    | batch hd hb => exact hb
  have hsaid := h.said_eq
  rw [hbatched, if_pos rfl, List.append_nil, transaction_split] at hsaid
  rw [hsaid]
  simp

/-- Where commands go out one by one, the payload command does not go out before those that it
follows are answered. -/
theorem Midway.isPayload_of_mem {d : Dialogue} {said opening front : List Command} {e : Envelope}
    {size : Option Nat} {c : Command}
    (h : d.Midway said opening e size c (front ++ [e.payload.command]))
    (hphase : d.phase ≠ .pipelining) {c' : Command} (hc' : c' ∈ said) :
    c'.verb.isPayload = false := by
  have hbatched : d.batched = false := by
    cases h.flow with
    | oneByOne hd hb => exact hb
    | batch hd => exact absurd hd.phase_eq hphase
  have hsaid : said ++ front = opening ++ e.parties size := by
    have hall := h.said_eq
    rw [hbatched, if_neg (by simp), transaction_split, ← List.append_assoc,
      ← List.append_assoc] at hall
    exact (List.append_inj' hall rfl).1
  have hmem : c' ∈ opening ++ e.parties size := hsaid ▸ List.mem_append_left front hc'
  rcases List.mem_append.mp hmem with hopening | hparty
  · have hopens := h.opens c' hopening
    revert hopens
    cases c'.verb <;> simp [Verb.isOpening, Verb.isPayload]
  · have hnames := e.isEnvelope_of_mem_parties hparty
    revert hnames
    cases c'.verb <;> simp [Verb.isEnvelope, Verb.isPayload]

/-- A call that closes the dialogue sends no command. -/
theorem sentBy_of_closed {d : Dialogue} (h : d.pipeline.Tidy) {call : Call}
    (hclosed : (d.perform call).1.phase = .closed) : d.sentBy call = [] := by
  cases outgoing h call with
  | none _ _ hs => exact hs
  | some cs hopen => exact absurd hclosed hopen

/-- Nothing is sent from the refusal on. -/
theorem allSent_of_refused {settings : Settings} {before : List Call} {call : Call}
    (h : ((start settings).after before).refusesEnvelope call = true) (later : List Call) :
    (start settings).allSent (before ++ call :: later) = (start settings).allSent before := by
  induction later using List.reverseRecOn with
  | nil =>
    have hclosed := (perform_of_refusesEnvelope h).1
    rw [allSent_snoc, sentBy_of_closed (tidy_after settings before) hclosed, List.append_nil]
  | append_singleton later last ih =>
    have hclosed : ((start settings).after (before ++ call :: later)).phase = .closed :=
      phase_of_refused ⟨before, call, later, rfl, h⟩
    have hlast := (perform_of_closed hclosed last).1
    rw [← List.cons_append, ← List.append_assoc, allSent_snoc,
      sentBy_of_closed (tidy_after settings _) hlast, List.append_nil, ih]

/-- A submission that fails because the sender or a recipient is refused has not asked the server to
take the message by reference. -/
def WithholdsReference (settings : Settings) (calls : List Call) : Prop :=
  ∀ before call later error, calls = before ++ call :: later →
    ((start settings).after before).refusesEnvelope call = true →
    .failed error ∈ ((start settings).after before).eventsOf call →
    ∀ f ∈ (start settings).allSent calls, f.verb ≠ .burl

def RefusedInBatch (settings : Settings) (calls : List Call) : Prop :=
  Occurs calls fun before call =>
    ((start settings).after before).refusesEnvelope call = true ∧
      ((start settings).after before).phase = .pipelining

instance (settings : Settings) (calls : List Call) : Decidable (RefusedInBatch settings calls) :=
  inferInstanceAs (Decidable (Occurs calls _))

/-- A message by reference is withheld from a server that refuses the sender or a recipient exactly
if the refusal does not come after the whole transaction. -/
theorem withholdsReference_iff (settings : Settings) (calls : List Call)
    (h : EncryptsWhenDue settings calls) {target : Reference}
    (hp : ((start settings).after calls).envelope.map Envelope.payload = some (.reference target)) :
    WithholdsReference settings calls ↔ ¬RefusedInBatch settings calls := by
  constructor
  · rintro hwithholds ⟨before, call, later, rfl, hrefused, hphase⟩
    obtain ⟨said, hledger⟩ := h.of_append.ledger
    obtain ⟨opening, e, size, c, front, hm⟩ := hledger.midway_of_refused hrefused
    rw [after_append, envelope_after _ hm.envelope_eq, Option.map_some, Option.some.injEq] at hp
    have hburl : Verb.burl ∈ ((start settings).allSent before).map (·.verb) := by
      rw [hledger.verbs_allSent]
      refine List.mem_map.mpr ⟨e.payload.command, hm.payload_mem hphase, ?_⟩
      rw [hp]
      rfl
    obtain ⟨f, hf, hverb⟩ := List.mem_map.mp hburl
    obtain ⟨-, error, hfailed⟩ := perform_of_refusesEnvelope hrefused
    refine hwithholds before call later error rfl hrefused (by simp [hfailed]) f ?_ hverb
    rwa [allSent_of_refused hrefused]
  · rintro hnot before call later error rfl hrefused - f hf hburl
    have hbefore : EncryptsWhenDue settings before := h.of_append
    obtain ⟨said, hledger⟩ := hbefore.ledger
    obtain ⟨opening, e, size, c, front, hm⟩ := hledger.midway_of_refused hrefused
    have hphase : ((start settings).after before).phase ≠ .pipelining :=
      fun hphase => hnot ⟨before, call, later, rfl, hrefused, hphase⟩
    rw [allSent_of_refused hrefused] at hf
    have hverb : f.verb ∈ said.map Command.verb := by
      rw [← hledger.verbs_allSent]
      exact List.mem_map_of_mem hf
    obtain ⟨c', hc', hsame⟩ := List.mem_map.mp hverb
    have hpayload := hm.isPayload_of_mem hphase hc'
    rw [hsame, hburl] at hpayload
    cases hpayload

def refusedOneByOne : List Call :=
  conversation (.toBoth (.reference .draft))
    ["220 mx ESMTP", "250-mx", "250 BURL imap", "250 ok", "250 ok", "550 no such user"]

/-- A server that takes one command at a time and refuses the last recipient is not asked for the
message. -/
theorem withholdsReference_of_oneByOne :
    EncryptsWhenDue .plain refusedOneByOne ∧
      ((start .plain).after refusedOneByOne).envelope.map Envelope.payload =
        some (.reference .draft) ∧
      WithholdsReference .plain refusedOneByOne := by
  have hdue : EncryptsWhenDue .plain refusedOneByOne := .of_notMem _ (by decide +kernel)
  have hp : ((start .plain).after refusedOneByOne).envelope.map Envelope.payload =
      some (.reference .draft) := by decide +kernel
  exact ⟨hdue, hp, (withholdsReference_iff _ _ hdue hp).mpr (by decide +kernel)⟩

/-- The last recipient is refused by a server that has been sent the whole transaction. -/
theorem not_withholdsReference_of_batch :
    ¬WithholdsReference .plain
      (conversation (.toBoth (.reference .draft)) (repliesToBatch ++ ["550 no such user"])) := by
  intro hwithholds
  have hsent := hwithholds (conversation (.toBoth (.reference .draft)) repliesToBatch)
    (.line (Utf8.encode "550 no such user")) []
    (.rejected .recipient 550 none "no such user") rfl (by decide +kernel) (by decide +kernel)
  revert hsent
  decide +kernel

end Dialogue

end SmtpClient
