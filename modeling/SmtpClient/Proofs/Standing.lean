import SmtpClient.Proofs.Progress

/-!
Where a dialogue can stand. Before the transaction at most one command is in flight, and nothing is
in flight while the dialogue waits for a password or for the encryption handshake. In a transaction
the commands in flight are either the next one alone or all that are left. `Standing` lists these
places, and every call leads from one of them to another as long as the connection is encrypted
only when the dialogue has asked for it.
-/
namespace SmtpClient

def Verb.isOpening : Verb → Bool
  | helo | ehlo | startTls | auth => true
  | _ => false

def Phase.afterAnswer (phase : Phase) (verbs : List Verb) : Phase :=
  if phase = .pipelining && verbs.isEmpty then .ready else phase

inductive Envelope.Leads (e : Envelope) : Command → List Command → Prop
  | sender (size : Option Nat) : Leads e (.mail e.sender size) (e.commandsFrom 0)
  | recipient (named : Nat) (r : Address) (h : e.recipients[named]? = some r) :
    Leads e (.rcpt r) (e.commandsFrom (named + 1))
  | payload : Leads e e.payload.command []

theorem Envelope.commandsFrom_leads (e : Envelope) (named : Nat) :
    ∃ c rest, e.commandsFrom named = c :: rest ∧ e.Leads c rest := by
  cases h : e.recipients[named]? with
  | some r => exact ⟨_, _, e.commandsFrom_of_recipient named r h, .recipient named r h⟩
  | none => exact ⟨_, _, e.commandsFrom_of_none named h, .payload⟩

theorem Payload.verb_command (p : Payload) :
    (∃ data, p = .message data ∧ p.command.verb = .data) ∨
    (∃ target, p = .reference target ∧ p.command.verb = .burl) := by
  cases p with
  | message data => exact Or.inl ⟨data, rfl, rfl⟩
  | reference target => exact Or.inr ⟨target, rfl, rfl⟩

/-- Only the sender and the recipients have something after them. -/
theorem Envelope.Leads.verb {e : Envelope} {c : Command} {rest : List Command}
    (h : e.Leads c rest) :
    (rest ≠ [] ∧ (c.verb = .mail ∨ c.verb = .rcpt)) ∨
    (rest = [] ∧ c = e.payload.command ∧ (c.verb = .data ∨ c.verb = .burl)) := by
  have hne (named : Nat) : e.commandsFrom named ≠ [] := by simp [commandsFrom]
  cases h with
  | sender size => exact Or.inl ⟨hne 0, Or.inl rfl⟩
  | recipient named r h => exact Or.inl ⟨hne _, Or.inr rfl⟩
  | payload =>
    refine Or.inr ⟨rfl, rfl, ?_⟩
    rcases e.payload.verb_command with ⟨data, -, h⟩ | ⟨target, -, h⟩
    · exact Or.inl h
    · exact Or.inr h

/-- Nothing follows the command for the payload. -/
theorem Envelope.Leads.last {e : Envelope} {c : Command} {rest : List Command}
    (h : e.Leads c rest) (hc : c.verb.isPayload = true) :
    rest = [] ∧ c = e.payload.command := by
  rcases h.verb with ⟨-, hverb | hverb⟩ | ⟨hrest, hlast, -⟩
  · rw [hverb] at hc
    cases hc
  · rw [hverb] at hc
    cases hc
  · exact ⟨hrest, hlast⟩

/-- The command after one of a transaction leads what comes after itself. -/
theorem Envelope.Leads.next {e : Envelope} {c : Command} {rest : List Command}
    (h : e.Leads c rest) (hne : rest ≠ []) : ∃ c' rest', rest = c' :: rest' ∧ e.Leads c' rest' := by
  cases h with
  | sender size => exact e.commandsFrom_leads 0
  | recipient named r _ => exact e.commandsFrom_leads (named + 1)
  | payload => exact absurd rfl hne

inductive TransactionReply (verb : Verb) (rest : List Command) (code : Code) : Decision → Prop
  | accepted (move : Move) (hm : move = .firstRecipient ∨ move = .nextRecipient) (hne : rest ≠ [])
    (hc : code.isIntermediate = false) : TransactionReply verb rest code (.advance move)
  | goAhead (hv : verb = .data) (hrest : rest = []) (hc : code.isIntermediate = true) :
    TransactionReply verb rest code (.advance .sendBody)
  | taken (hrest : rest = []) (hc : code.isIntermediate = false) :
    TransactionReply verb rest code (.advance .quit)
  | refused (refusal : Refusal) : TransactionReply verb rest code (.fail refusal)

/-- What a listed decision does to a transaction is known from the commands that are left of it. -/
theorem Envelope.Leads.transactionReply {e : Envelope} {c : Command} {rest : List Command}
    (h : e.Leads c rest) {verb : Verb} (hv : c.verb = verb) {code : Code} {decision : Decision}
    (hd : Decision.Listed code (.answer verb) decision) :
    TransactionReply verb rest code decision := by
  have hkind := h.verb
  rw [hv] at hkind
  have hmore (hne : verb ≠ .data) (hne' : verb ≠ .burl) : rest ≠ [] := by
    rcases hkind with ⟨hrest, -⟩ | ⟨-, -, hverb | hverb⟩
    · exact hrest
    · exact absurd hverb hne
    · exact absurd hverb hne'
  have hlast (hne : verb ≠ .mail) (hne' : verb ≠ .rcpt) : rest = [] := by
    rcases hkind with ⟨-, hverb | hverb⟩ | ⟨hrest, -⟩
    · exact absurd hverb hne
    · exact absurd hverb hne'
    · exact hrest
  cases hd with
  | firstRecipient hcode =>
    exact .accepted _ (Or.inl rfl) (hmore (by simp) (by simp)) (by rw [hcode]; rfl)
  | nextRecipient hcode =>
    refine .accepted _ (Or.inr rfl) (hmore (by simp) (by simp)) ?_
    rcases hcode with hcode | hcode <;> rw [hcode] <;> rfl
  | sendBody hcode => exact .goAhead rfl (hlast (by simp) (by simp)) (by rw [hcode]; rfl)
  | quitAfterData hcode => exact .taken (hlast (by simp) (by simp)) (by rw [hcode]; rfl)
  | quitAfterBurl hcode => exact .taken (hlast (by simp) (by simp)) (by rw [hcode]; rfl)
  | fail _ refusal => exact .refused refusal
  | _ => simp at hkind

namespace Dialogue

/-- What a dialogue is ready for: its phase, whether it is parked, and the verbs of the commands
that are in flight. Nothing waits behind them. -/
structure Expects (d : Dialogue) (phase : Phase) (parked : Bool) (verbs : List Verb) : Prop where
  phase_eq : d.phase = phase
  greetingDue_eq : d.greetingDue = decide (phase = .connecting)
  parked_eq : d.parked = parked
  waiting_eq : d.pipeline.waiting = []
  inFlight_eq : d.pipeline.inFlight.map (·.verb) = verbs

structure Untouched (d : Dialogue) : Prop where
  batched_eq : d.batched = false
  recipientsSent_eq : d.recipientsSent = 0
  succeeded_eq : d.succeeded = false

inductive Flow (d : Dialogue) (e : Envelope) (c : Command) (rest : List Command) : Prop
  | oneByOne (hd : d.Expects .ready false [c.verb]) (hb : d.batched = false)
    (hr : rest ≠ [] → rest = e.commandsFrom d.recipientsSent)
  | batch (hd : d.Expects .pipelining false ((c :: rest).map Command.verb)) (hb : d.batched = true)

/-- Where a dialogue can stand, with the number of encryption handshakes that are due. -/
inductive Standing (d : Dialogue) : Nat → Prop
  | idle (hd : d.Expects .disconnected false []) (hu : d.Untouched) : Standing d 0
  | greeting (hd : d.Expects .connecting false []) (hu : d.Untouched) : Standing d 0
  | opening (verb : Verb) (hv : verb.isOpening = true) (hd : d.Expects .ready false [verb])
    (hu : d.Untouched) : Standing d 0
  | parked (hd : d.Expects .ready true []) (hu : d.Untouched) : Standing d 0
  | handshake (hd : d.Expects .ready false []) (hu : d.Untouched) : Standing d 1
  | sending (e : Envelope) (c : Command) (rest : List Command) (he : d.envelope = some e)
    (hs : d.succeeded = false) (hl : e.Leads c rest) (hf : d.Flow e c rest) : Standing d 0
  | leaving (hd : d.Expects .ready false [.quit]) (hs : d.succeeded = true) : Standing d 0
  | closed (due : Nat) (h : d.phase = .closed) : Standing d due

structure SameStanding (d next : Dialogue) : Prop where
  phase_eq : next.phase = d.phase
  greetingDue_eq : next.greetingDue = d.greetingDue
  parked_eq : next.parked = d.parked
  pipeline_eq : next.pipeline = d.pipeline
  envelope_eq : next.envelope = d.envelope
  batched_eq : next.batched = d.batched
  recipientsSent_eq : next.recipientsSent = d.recipientsSent
  succeeded_eq : next.succeeded = d.succeeded

/-- A change of other marks leaves a dialogue where it stands. -/
theorem sameStanding_of_eq {d next : Dialogue}
    (h : { next with
      settings := d.settings
      capabilities := d.capabilities
      outbound := d.outbound
      replyTexts := d.replyTexts
      password := d.password
      passwordRequested := d.passwordRequested
      passwordSent := d.passwordSent
      authenticated := d.authenticated
      encrypted := d.encrypted } = d) : d.SameStanding next := by
  rw [← h]
  exact ⟨rfl, rfl, rfl, rfl, rfl, rfl, rfl, rfl⟩

theorem Expects.congr {d next : Dialogue} {phase : Phase} {parked : Bool} {verbs : List Verb}
    (h : d.Expects phase parked verbs) (hsame : d.SameStanding next) :
    next.Expects phase parked verbs :=
  ⟨hsame.phase_eq.trans h.phase_eq, hsame.greetingDue_eq.trans h.greetingDue_eq,
    hsame.parked_eq.trans h.parked_eq, by rw [hsame.pipeline_eq, h.waiting_eq],
    by rw [hsame.pipeline_eq, h.inFlight_eq]⟩

theorem Untouched.congr {d next : Dialogue} (h : d.Untouched) (hsame : d.SameStanding next) :
    next.Untouched :=
  ⟨hsame.batched_eq.trans h.batched_eq, hsame.recipientsSent_eq.trans h.recipientsSent_eq,
    hsame.succeeded_eq.trans h.succeeded_eq⟩

theorem Flow.congr {d next : Dialogue} {e : Envelope} {c : Command} {rest : List Command}
    (h : d.Flow e c rest) (hsame : d.SameStanding next) : next.Flow e c rest := by
  cases h with
  | oneByOne hd hb hr =>
    exact .oneByOne (hd.congr hsame) (hsame.batched_eq.trans hb)
      (by rw [hsame.recipientsSent_eq]; exact hr)
  | batch hd hb => exact .batch (hd.congr hsame) (hsame.batched_eq.trans hb)

theorem Standing.congr {d next : Dialogue} {due : Nat} (h : d.Standing due)
    (hsame : d.SameStanding next) : next.Standing due := by
  cases h with
  | idle hd hu => exact .idle (hd.congr hsame) (hu.congr hsame)
  | greeting hd hu => exact .greeting (hd.congr hsame) (hu.congr hsame)
  | opening verb hv hd hu => exact .opening verb hv (hd.congr hsame) (hu.congr hsame)
  | parked hd hu => exact .parked (hd.congr hsame) (hu.congr hsame)
  | handshake hd hu => exact .handshake (hd.congr hsame) (hu.congr hsame)
  | sending e c rest he hs hl hf =>
    exact .sending e c rest (hsame.envelope_eq.trans he) (hsame.succeeded_eq.trans hs) hl
      (hf.congr hsame)
  | leaving hd hs => exact .leaving (hd.congr hsame) (hsame.succeeded_eq.trans hs)
  | closed due h => exact .closed due (hsame.phase_eq.trans h)

theorem Expects.awaited_eq_none {d : Dialogue} {phase : Phase} {parked : Bool}
    (h : d.Expects phase parked []) (hp : phase ≠ .connecting) : d.awaited = none := by
  have hg : d.greetingDue = false := by rw [h.greetingDue_eq, decide_eq_false hp]
  have hi : d.pipeline.inFlight = [] := List.map_eq_nil_iff.mp h.inFlight_eq
  simp [awaited, hg, Pipeline.awaiting, hi]

theorem Expects.awaited_eq_greeting {d : Dialogue} {parked : Bool} {verbs : List Verb}
    (h : d.Expects .connecting parked verbs) : d.awaited = some .greeting := by
  have hg : d.greetingDue = true := by rw [h.greetingDue_eq]; rfl
  simp [awaited, hg]

/-- The command in front is the one that is awaited. -/
theorem Expects.awaited_eq_answer {d : Dialogue} {phase : Phase} {parked : Bool} {verb : Verb}
    {verbs : List Verb} (h : d.Expects phase parked (verb :: verbs)) (hp : phase ≠ .connecting) :
    d.awaited = some (.answer verb) := by
  have hg : d.greetingDue = false := by rw [h.greetingDue_eq, decide_eq_false hp]
  obtain ⟨f, fs, hi, rfl, -⟩ := List.map_eq_cons_iff.mp h.inFlight_eq
  simp [awaited, hg, Pipeline.awaiting, hi]

/-- Whether a verb is in flight is known from the list. -/
theorem Expects.isInFlight_eq {d : Dialogue} {phase : Phase} {parked : Bool} {verbs : List Verb}
    (h : d.Expects phase parked verbs) (verb : Verb) :
    d.pipeline.isInFlight verb = decide (verb ∈ verbs) := by
  rw [Pipeline.isInFlight, ← h.inFlight_eq, List.any_eq, decide_eq_decide]
  simp [eq_comm]

/-- A complete reply takes its command out of the pipeline. -/
theorem Expects.settle_answer {d : Dialogue} {phase : Phase} {parked : Bool} {verb : Verb}
    {verbs : List Verb} (h : d.Expects phase parked (verb :: verbs)) (hp : phase ≠ .connecting)
    (code : Code) (hc : code.isIntermediate = false) :
    (settle { d with replyTexts := [] } (.answer verb) code).Expects
      (Phase.afterAnswer phase verbs) parked verbs := by
  obtain ⟨f, fs, hi, -, rfl⟩ := List.map_eq_cons_iff.mp h.inFlight_eq
  have hphase : Phase.afterAnswer phase (fs.map (·.verb)) ≠ .connecting := by
    unfold Phase.afterAnswer
    split
    · simp
    · exact hp
  have hg : d.greetingDue = decide (Phase.afterAnswer phase (fs.map (·.verb)) = .connecting) := by
    rw [h.greetingDue_eq, decide_eq_false hp, decide_eq_false hphase]
  simp only [settle, hc, reduceCtorEq, if_false, Bool.false_eq_true]
  refine ⟨?_, hg, h.parked_eq, h.waiting_eq, ?_⟩
  · simp [Pipeline.acknowledge, hi, h.phase_eq, Phase.afterAnswer]
  · simp [Pipeline.acknowledge, hi]

theorem Expects.send {d : Dialogue} {phase : Phase} {parked : Bool} {verbs : List Verb}
    (h : d.Expects phase parked verbs) (c : Command) :
    (d.send c).Expects phase parked (verbs ++ [c.verb]) := by
  rw [send_eq d c h.waiting_eq]
  exact ⟨h.phase_eq, h.greetingDue_eq, h.parked_eq, rfl, by simp [h.inFlight_eq]⟩

theorem Expects.recount {d : Dialogue} {phase : Phase} {parked : Bool} {verbs : List Verb}
    (h : d.Expects phase parked verbs) (named : Nat) :
    Expects { d with recipientsSent := named } phase parked verbs :=
  ⟨h.phase_eq, h.greetingDue_eq, h.parked_eq, h.waiting_eq, h.inFlight_eq⟩

theorem Expects.sendBatch {d : Dialogue} {parked : Bool} (h : d.Expects .ready parked [])
    (e : Envelope) (size : Option Nat) :
    (d.sendBatch e size).Expects .pipelining parked ((transaction e size).map Command.verb) := by
  rw [sendBatch_eq d e size h.waiting_eq]
  refine ⟨rfl, h.greetingDue_eq, h.parked_eq, rfl, ?_⟩
  simp only [List.map_append, h.inFlight_eq, List.nil_append, List.map_map]
  exact Pipeline.map_verb_numbered _ _

theorem Untouched.send {d : Dialogue} (h : d.Untouched) (c : Command) : (d.send c).Untouched :=
  ⟨h.batched_eq, h.recipientsSent_eq, h.succeeded_eq⟩

theorem Untouched.settle {d : Dialogue} (h : d.Untouched) (awaited : Awaited) (code : Code) :
    (Dialogue.settle { d with replyTexts := [] } awaited code).Untouched :=
  ⟨by simp [h.batched_eq], by simp [h.recipientsSent_eq], by simp [h.succeeded_eq]⟩

/-- What has failed stands nowhere but at the end. -/
theorem standing_fail (d : Dialogue) (error : Error) (mayQuit : Bool) (due : Nat) :
    (d.fail error mayQuit).1.Standing due := by
  rw [fail_eq]
  exact .closed due rfl

theorem standing_act_fail (d : Dialogue) (awaited : Awaited) (reply : Reply) (text : String)
    (refusal : Refusal) (due : Nat) :
    (d.act awaited reply text (.fail refusal)).1.Standing due := by
  simp only [act]
  split
  · exact .closed due rfl
  · exact d.standing_fail _ _ _

/-- A transaction that begins stands at its first command, with the rest in flight or still to be
sent. -/
theorem Beginning.standing {d : Dialogue} {r : Outcome} (h : d.Beginning r)
    (hd : d.Expects .ready false []) (hu : d.Untouched) :
    r.1.Standing (r.2.count .encryptionDue) := by
  cases h with
  | failed error => exact d.standing_fail error true _
  | batch e size he hs hp =>
    refine .sending e (.mail e.sender size) (e.commandsFrom 0) he hu.succeeded_eq (.sender size) ?_
    exact .batch (hd.sendBatch e size) rfl
  | sender e size he hs hp =>
    refine .sending e (.mail e.sender size) (e.commandsFrom 0) he hu.succeeded_eq (.sender size) ?_
    refine .oneByOne (hd.send _) hu.batched_eq fun _ => ?_
    exact congrArg e.commandsFrom hu.recipientsSent_eq.symm

/-- After the greetings one thing is waited for: a reply, the password, or the handshake. -/
theorem Negotiation.standing {d : Dialogue} {r : Outcome} (h : d.Negotiation r)
    (hd : d.Expects .ready false []) (hu : d.Untouched) :
    r.1.Standing (r.2.count .encryptionDue) := by
  have hparked : Expects { d with parked := true } .ready true [] :=
    ⟨hd.phase_eq, hd.greetingDue_eq, rfl, hd.waiting_eq, hd.inFlight_eq⟩
  have huntouched : Untouched { d with parked := true } :=
    ⟨hu.batched_eq, hu.recipientsSent_eq, hu.succeeded_eq⟩
  cases h with
  | failed error => exact d.standing_fail error true _
  | startTls => exact .opening .startTls rfl (hd.send _) (hu.send _)
  | park => exact .parked hparked huntouched
  | ask =>
    have hnone : (requestPassword { d with parked := true }).2.count .encryptionDue = 0 := by
      simp [requestPassword]
    rw [hnone]
    exact .parked (hparked.congr (sameStanding_of_eq rfl))
      (huntouched.congr (sameStanding_of_eq rfl))
  | auth =>
    have hsame : d.SameStanding { d with passwordSent := false } :=
      sameStanding_of_eq rfl
    exact .opening .auth rfl ((hd.congr hsame).send _) ((hu.congr hsame).send _)
  | begun => exact d.beginTransaction_beginning.standing hd hu

theorem standing_sendPassword {d : Dialogue} (hd : d.Expects .ready false [.auth])
    (hu : d.Untouched) :
    d.sendPassword.1.Standing (d.sendPassword.2.count .encryptionDue) := by
  unfold sendPassword
  split
  · exact d.standing_fail _ _ _
  · split
    · exact d.standing_fail _ _ _
    · next password _ =>
      have hsame : d.SameStanding
          { d.put (passwordResponse d.settings.user password).render with passwordSent := true } :=
        sameStanding_of_eq rfl
      exact .opening .auth rfl (hd.congr hsame) (hu.congr hsame)

/-- A complete reply to the greeting of the connection. -/
theorem standing_reactTo_greeting {d : Dialogue} (hd : d.Expects .connecting false [])
    (hu : d.Untouched) (reply : Reply) (text : String) {decision : Decision}
    (hl : Decision.Listed reply.code .greeting decision) :
    (d.reactTo .greeting reply text decision).1.Standing
      ((d.reactTo .greeting reply text decision).2.count .encryptionDue) := by
  cases hl with
  | greet h =>
    have hready : Expects { d with
        replyTexts := []
        greetingDue := false
        phase := .ready
        capabilities := .empty } .ready false [] :=
      ⟨rfl, rfl, hd.parked_eq, hd.waiting_eq, hd.inFlight_eq⟩
    exact .opening .ehlo rfl (hready.send (.ehlo d.settings.clientName))
      ⟨hu.batched_eq, hu.recipientsSent_eq, hu.succeeded_eq⟩
  | fail _ refusal => exact standing_act_fail _ _ _ _ _ _

/-- A complete reply to a command before the transaction. -/
theorem standing_reactTo_opening {d : Dialogue} {verb : Verb} (hv : verb.isOpening = true)
    (hd : d.Expects .ready false [verb]) (hu : d.Untouched) (reply : Reply) (text : String)
    {decision : Decision} (hl : Decision.Listed reply.code (.answer verb) decision) :
    (d.reactTo (.answer verb) reply text decision).1.Standing
      ((d.reactTo (.answer verb) reply text decision).2.count .encryptionDue) := by
  have hsettled (hc : reply.code.isIntermediate = false) :
      (settle { d with replyTexts := [] } (.answer verb) reply.code).Expects .ready false [] :=
    hd.settle_answer (by simp) reply.code hc
  have huntouched := hu.settle (.answer verb) reply.code
  cases hl with
  | announce h =>
    have hclear := hsettled (by rw [h]; rfl)
    exact (negotiate_negotiation _).standing (hclear.congr (sameStanding_of_eq rfl))
      (huntouched.congr (sameStanding_of_eq rfl))
  | retry h =>
    have hclear := hsettled (by rcases h with h | h <;> rw [h] <;> rfl)
    rw [reactTo]
    generalize settle { d with replyTexts := [] } (.answer .ehlo) reply.code = s
      at hclear huntouched ⊢
    have hsame : s.SameStanding { s with capabilities := .empty } := sameStanding_of_eq rfl
    exact .opening .helo rfl ((hclear.congr hsame).send _) ((huntouched.congr hsame).send _)
  | negotiate h => exact (negotiate_negotiation _).standing (hsettled (by rw [h]; rfl)) huntouched
  | encrypt h => exact .handshake (hsettled (by rw [h]; rfl)) huntouched
  | sendPassword h =>
    rw [reactTo, settle_intermediate d .auth reply.code (by rw [h]; rfl)]
    exact standing_sendPassword (hd.congr (sameStanding_of_eq rfl))
      (hu.congr (sameStanding_of_eq rfl))
  | beginTransaction h =>
    have hclear := hsettled (by rw [h]; rfl)
    exact (beginTransaction_beginning _).standing (hclear.congr (sameStanding_of_eq rfl))
      (huntouched.congr (sameStanding_of_eq rfl))
  | fail _ refusal => exact standing_act_fail _ _ _ _ _ _
  | firstRecipient | nextRecipient | sendBody | quitAfterData | quitAfterBurl | close => cases hv

/-- The next command of the transaction is sent, and the recipients that are named with it are
counted. -/
theorem sendNextRecipient_eq {d : Dialogue} {e : Envelope} (he : d.envelope = some e)
    {c : Command} {rest : List Command} (h : e.commandsFrom d.recipientsSent = c :: rest) :
    ∃ named, d.sendNextRecipient = Dialogue.send { d with recipientsSent := named } c ∧
      (rest ≠ [] → rest = e.commandsFrom named) := by
  cases hr : e.recipients[d.recipientsSent]? with
  | some r =>
    rw [e.commandsFrom_of_recipient _ r hr] at h
    obtain ⟨rfl, rfl⟩ := List.cons.inj h
    exact ⟨d.recipientsSent + 1, by simp [sendNextRecipient, he, hr], fun _ => rfl⟩
  | none =>
    rw [e.commandsFrom_of_none _ hr] at h
    obtain ⟨rfl, rfl⟩ := List.cons.inj h
    refine ⟨d.recipientsSent, ?_, fun hne => absurd rfl hne⟩
    simp only [sendNextRecipient, he, hr]
    rw [← he]

/-- Command by command, the next one of the transaction is sent when nothing else is in flight. -/
theorem standing_sendNextRecipient {d : Dialogue} {e : Envelope} (he : d.envelope = some e)
    (hs : d.succeeded = false) (hd : d.Expects .ready false []) (hb : d.batched = false) :
    d.sendNextRecipient.Standing 0 := by
  obtain ⟨c, rest, hrest, hl⟩ := e.commandsFrom_leads d.recipientsSent
  obtain ⟨named, heq, hnamed⟩ := sendNextRecipient_eq he hrest
  rw [heq]
  exact .sending e c rest he hs hl (.oneByOne ((hd.recount named).send c) hb hnamed)

/-- After the sender or a recipient is accepted, the next command is in flight already or is sent
now. -/
theorem standing_next {d : Dialogue} {e : Envelope} {c : Command} {rest : List Command}
    (he : d.envelope = some e) (hs : d.succeeded = false) (hl : e.Leads c rest)
    (hf : d.Flow e c rest) (hne : rest ≠ []) {verb : Verb} (hv : c.verb = verb) (code : Code)
    (hc : code.isIntermediate = false) :
    let s := settle { d with replyTexts := [] } (.answer verb) code
    Standing (if s.batched then s else s.sendNextRecipient) 0 := by
  intro s
  subst hv
  have hse : s.envelope = some e := by simp [s, he]
  have hss : s.succeeded = false := by simp [s, hs]
  have hsb : s.batched = d.batched := by simp [s]
  cases hf with
  | oneByOne hd hb hr =>
    have hclear : s.Expects .ready false [] := hd.settle_answer (by simp) code hc
    rw [if_neg (by rw [hsb, hb]; simp)]
    exact standing_sendNextRecipient hse hss hclear (hsb.trans hb)
  | batch hd hb =>
    have hleft := hd.settle_answer (by simp) code hc
    rw [if_pos (by rw [hsb, hb])]
    obtain ⟨c', rest', rfl, hl'⟩ := hl.next hne
    exact .sending e c' rest' hse hss hl' (.batch hleft (hsb.trans hb))

theorem Flow.expects {d : Dialogue} {e : Envelope} {c : Command} {rest : List Command}
    (h : d.Flow e c rest) :
    ∃ phase verbs, phase.isOpen = true ∧ d.Expects phase false (c.verb :: verbs) ∧
      (rest = [] → verbs = []) := by
  cases h with
  | oneByOne hd => exact ⟨.ready, [], rfl, hd, fun _ => rfl⟩
  | batch hd =>
    refine ⟨.pipelining, rest.map Command.verb, rfl, hd, ?_⟩
    rintro rfl
    rfl

/-- Nothing is in flight behind the last command of a transaction. -/
theorem Flow.verbs_of_last {d : Dialogue} {e : Envelope} {c : Command} (h : d.Flow e c []) :
    d.pipeline.inFlight.map (·.verb) = [c.verb] := by
  obtain ⟨phase, verbs, -, hd, hnil⟩ := h.expects
  rw [hd.inFlight_eq, hnil rfl]

/-- After the last command nothing is in flight, whichever way it was sent. -/
theorem Flow.settle_last {d : Dialogue} {e : Envelope} {c : Command} (h : d.Flow e c [])
    (code : Code) (hc : code.isIntermediate = false) :
    (settle { d with replyTexts := [] } (.answer c.verb) code).Expects .ready false [] := by
  obtain ⟨phase, verbs, hopen, hex, hnil⟩ := h.expects
  rw [hnil rfl] at hex
  have hne : phase ≠ .connecting := by
    rintro rfl
    cases hopen
  have hready : phase.afterAnswer [] = .ready := by
    cases phase <;> first | rfl | cases hopen
  rw [← hready]
  exact hex.settle_answer hne code hc

/-- Of a transaction on its way, the first command that is left is awaited. -/
theorem Flow.awaited_eq {d : Dialogue} {e : Envelope} {c : Command} {rest : List Command}
    (h : d.Flow e c rest) : d.awaited = some (.answer c.verb) := by
  cases h with
  | oneByOne hd => exact hd.awaited_eq_answer (by simp)
  | batch hd => exact hd.awaited_eq_answer (by simp)

/-- The body goes out while DATA waits for its last answer. -/
theorem standing_sendBody {d : Dialogue} {e : Envelope} {c : Command} {rest : List Command}
    (he : d.envelope = some e) (hs : d.succeeded = false) (hl : e.Leads c rest)
    (hf : d.Flow e c rest) : d.sendBody.1.Standing (d.sendBody.2.count .encryptionDue) := by
  unfold sendBody
  split
  · next data _ =>
    have hnone : [Event.progress data.length].count .encryptionDue = 0 := by simp
    rw [hnone]
    exact .sending e c rest he hs hl (hf.congr (sameStanding_of_eq rfl))
  · exact d.standing_fail _ _ _

/-- A success waits for the answer to QUIT and for nothing else. -/
theorem standing_succeed {d : Dialogue} (hd : d.Expects .ready false []) :
    d.succeed.1.Standing (d.succeed.2.count .encryptionDue) := by
  have hmarked : Expects { d with succeeded := true } .ready false [] :=
    ⟨hd.phase_eq, hd.greetingDue_eq, hd.parked_eq, hd.waiting_eq, hd.inFlight_eq⟩
  have hnone : d.succeed.2.count .encryptionDue = 0 := by
    simp only [succeed]
    split <;> simp
  rw [hnone]
  exact .leaving (hmarked.send .quit) rfl

/-- A complete reply to a command of the transaction. -/
theorem standing_reactTo_sending {d : Dialogue} {e : Envelope} {c : Command} {rest : List Command}
    (he : d.envelope = some e) (hs : d.succeeded = false) (hl : e.Leads c rest)
    (hf : d.Flow e c rest) {verb : Verb} (hv : c.verb = verb) (reply : Reply) (text : String)
    {decision : Decision} (hd : Decision.Listed reply.code (.answer verb) decision) :
    (d.reactTo (.answer verb) reply text decision).1.Standing
      ((d.reactTo (.answer verb) reply text decision).2.count .encryptionDue) := by
  cases hl.transactionReply hv hd with
  | accepted move hm hne hc =>
    have hnext := standing_next he hs hl hf hne hv reply.code hc
    rcases hm with rfl | rfl <;> exact hnext
  | goAhead hdata _ hc =>
    subst hdata
    rw [reactTo, settle_intermediate d .data reply.code hc]
    exact standing_sendBody he hs hl (hf.congr (sameStanding_of_eq rfl))
  | taken hrest hc =>
    subst hrest hv
    exact standing_succeed (hf.settle_last reply.code hc)
  | refused refusal => exact standing_act_fail _ _ _ _ _ _

/-- A complete reply to the QUIT after a success. -/
theorem reactTo_leaving {d : Dialogue} (hs : d.succeeded = true) (reply : Reply) (text : String)
    {decision : Decision} (hl : Decision.Listed reply.code (.answer .quit) decision) :
    d.reactTo (.answer .quit) reply text decision =
      ((settle { d with replyTexts := [] } (.answer .quit) reply.code).close, []) := by
  cases hl with
  | close => rfl
  | fail _ refusal => simp [reactTo, act, hs]

/-- A complete reply, wherever the dialogue stands. -/
theorem standing_reactTo {d : Dialogue} {due : Nat} (h : d.Standing due)
    (hopen : d.isFinished = false) {awaited : Awaited} (hw : d.awaited = some awaited)
    (reply : Reply) (text : String) {decision : Decision}
    (hl : Decision.Listed reply.code awaited decision) :
    (d.reactTo awaited reply text decision).1.Standing
      (due + (d.reactTo awaited reply text decision).2.count .encryptionDue) := by
  have hsame {awaited' : Awaited} (hw' : d.awaited = some awaited') : awaited' = awaited :=
    Option.some.inj (hw'.symm.trans hw)
  cases h with
  | idle hd => simp [hd.awaited_eq_none] at hw
  | greeting hd hu =>
    obtain rfl := hsame hd.awaited_eq_greeting
    rw [Nat.zero_add]
    exact standing_reactTo_greeting hd hu reply text hl
  | opening verb hv hd hu =>
    obtain rfl := hsame (hd.awaited_eq_answer (by simp))
    rw [Nat.zero_add]
    exact standing_reactTo_opening hv hd hu reply text hl
  | parked hd => simp [hd.awaited_eq_none] at hw
  | handshake hd => simp [hd.awaited_eq_none] at hw
  | sending e c rest he hs hleads hf =>
    obtain rfl := hsame hf.awaited_eq
    rw [Nat.zero_add]
    exact standing_reactTo_sending he hs hleads hf rfl reply text hl
  | leaving hd hs =>
    obtain rfl := hsame (hd.awaited_eq_answer (by simp))
    rw [reactTo_leaving hs reply text hl]
    exact .closed _ rfl
  | closed _ hclosed => simp [isFinished, hclosed] at hopen

/-- A line takes a standing dialogue to a place, with one handshake more due if it says so. -/
theorem standing_takeLine {d : Dialogue} {due : Nat} (h : d.Standing due) (line : Bytes) :
    (d.takeLine line).1.Standing (due + (d.takeLine line).2.count .encryptionDue) := by
  have hread := d.takeLine_reading line
  generalize d.takeLine line = r at hread ⊢
  cases hread with
  | closed => exact h
  | malformed error => exact d.standing_fail _ _ _
  | unasked reply => exact d.standing_fail _ _ _
  | held reply awaited =>
    unfold holdLine
    split <;> exact h.congr (sameStanding_of_eq rfl)
  | completed reply awaited hopen _ hw _ =>
    exact standing_reactTo h hopen hw reply _ (Decision.listed_of awaited reply.code)

theorem Completes.phase_ne {d : Dialogue} {line : Bytes} {verb : Verb} {reply : Reply}
    (h : d.Completes line verb reply) : d.phase ≠ .closed :=
  (d.isFinished_eq_false_iff).mp h.unfinished

/-- The places that can be told from one mark of the dialogue. -/
theorem Standing.of_disconnected {d : Dialogue} {due : Nat} (h : d.Standing due)
    (hp : d.phase = .disconnected) :
    due = 0 ∧ d.Expects .disconnected false [] ∧ d.Untouched := by
  cases h with
  | idle hd hu => exact ⟨rfl, hd, hu⟩
  | greeting hd => simp [hd.phase_eq] at hp
  | opening verb hv hd => simp [hd.phase_eq] at hp
  | parked hd => simp [hd.phase_eq] at hp
  | handshake hd => simp [hd.phase_eq] at hp
  | sending e c rest he hs hl hf =>
    obtain ⟨phase, verbs, hopen, hd, -⟩ := hf.expects
    rw [hd.phase_eq] at hp
    subst hp
    cases hopen
  | leaving hd => simp [hd.phase_eq] at hp
  | closed _ hclosed => simp [hclosed] at hp

/-- A dialogue is parked with nothing in flight, and no handshake is due then. -/
theorem Standing.of_parked {d : Dialogue} {due : Nat} (h : d.Standing due)
    (hp : d.parked = true) (hopen : d.isFinished = false) :
    due = 0 ∧ d.Expects .ready true [] ∧ d.Untouched := by
  cases h with
  | parked hd hu => exact ⟨rfl, hd, hu⟩
  | idle hd => simp [hd.parked_eq] at hp
  | greeting hd => simp [hd.parked_eq] at hp
  | opening verb hv hd => simp [hd.parked_eq] at hp
  | handshake hd => simp [hd.parked_eq] at hp
  | sending e c rest he hs hl hf =>
    obtain ⟨phase, verbs, -, hd, -⟩ := hf.expects
    simp [hd.parked_eq] at hp
  | leaving hd => simp [hd.parked_eq] at hp
  | closed _ hclosed => simp [isFinished, hclosed] at hopen

/-- A command before the transaction is in flight alone. -/
theorem Standing.of_opening {d : Dialogue} {due : Nat} (h : d.Standing due) {verb : Verb}
    (hw : d.awaited = some (.answer verb)) (hv : verb.isOpening = true)
    (hopen : d.isFinished = false) : d.Expects .ready false [verb] ∧ d.Untouched := by
  cases h with
  | opening verb' hv' hd hu =>
    rw [hd.awaited_eq_answer (by simp)] at hw
    cases hw
    exact ⟨hd, hu⟩
  | idle hd => simp [hd.awaited_eq_none] at hw
  | greeting hd => simp [hd.awaited_eq_greeting] at hw
  | parked hd => simp [hd.awaited_eq_none] at hw
  | handshake hd => simp [hd.awaited_eq_none] at hw
  | sending e c rest he hs hl hf =>
    rw [hf.awaited_eq] at hw
    cases hw
    rcases hl.verb with ⟨-, hc | hc⟩ | ⟨-, -, hc | hc⟩ <;> simp [hc, Verb.isOpening] at hv
  | leaving hd =>
    rw [hd.awaited_eq_answer (by simp)] at hw
    cases hw
    cases hv
  | closed _ hclosed => simp [isFinished, hclosed] at hopen

/-- While a handshake is due nothing is in flight. -/
theorem Standing.of_due {d : Dialogue} {due : Nat} (h : d.Standing due) (hdue : 0 < due)
    (hopen : d.isFinished = false) : due = 1 ∧ d.Expects .ready false [] ∧ d.Untouched := by
  cases h with
  | handshake hd hu => exact ⟨rfl, hd, hu⟩
  | closed _ hclosed => simp [isFinished, hclosed] at hopen
  | _ => cases hdue

/-- After a success only QUIT is in flight. -/
theorem Standing.of_succeeded {d : Dialogue} {due : Nat} (h : d.Standing due)
    (hs : d.succeeded = true) (hopen : d.isFinished = false) :
    due = 0 ∧ d.Expects .ready false [.quit] := by
  cases h with
  | leaving hd => exact ⟨rfl, hd⟩
  | idle hd hu => simp [hu.succeeded_eq] at hs
  | greeting hd hu => simp [hu.succeeded_eq] at hs
  | opening verb hv hd hu => simp [hu.succeeded_eq] at hs
  | parked hd hu => simp [hu.succeeded_eq] at hs
  | handshake hd hu => simp [hu.succeeded_eq] at hs
  | sending e c rest he hs' => simp [hs'] at hs
  | closed _ hclosed => simp [isFinished, hclosed] at hopen

theorem standing_submit {d : Dialogue} {due : Nat} (h : d.Standing due) (e : Envelope) :
    (d.perform (.submit e)).1.Standing (due + (d.eventsOf (.submit e)).count .encryptionDue) := by
  rw [eventsOf]
  rcases d.perform_submit e with ⟨heq, hev⟩ | ⟨-, hphase, requested, asked, heq, hev, hasked⟩
  · rw [heq, hev]
    exact h
  · obtain ⟨rfl, hd, hu⟩ := h.of_disconnected hphase
    have hnone : (d.perform (.submit e)).2.events.count .encryptionDue = 0 := by
      rcases hasked with rfl | rfl <;> simp [hev]
    rw [heq, hnone]
    exact .idle ⟨hd.phase_eq, hd.greetingDue_eq, hd.parked_eq, hd.waiting_eq, hd.inFlight_eq⟩
      ⟨hu.batched_eq, hu.recipientsSent_eq, hu.succeeded_eq⟩

theorem standing_connect {d : Dialogue} {due : Nat} (h : d.Standing due) :
    d.connect.Standing due := by
  unfold connect
  split
  · next hphase =>
    obtain ⟨rfl, hd, hu⟩ := h.of_disconnected hphase
    exact .greeting ⟨rfl, rfl, hd.parked_eq, hd.waiting_eq, hd.inFlight_eq⟩
      ⟨hu.batched_eq, hu.recipientsSent_eq, hu.succeeded_eq⟩
  · exact h

/-- A password takes a dialogue that is parked to AUTH, and no other dialogue anywhere. -/
theorem standing_givePassword {d : Dialogue} {due : Nat} (h : d.Standing due) (password : String) :
    (d.givePassword password).Standing due := by
  unfold givePassword
  split
  · next hparked =>
    simp only [Bool.and_eq_true, Bool.not_eq_true'] at hparked
    obtain ⟨rfl, hd, hu⟩ := h.of_parked hparked.1 hparked.2
    have hready : Expects { d with
        password := some password
        parked := false
        passwordSent := false } .ready false [] :=
      ⟨hd.phase_eq, hd.greetingDue_eq, rfl, hd.waiting_eq, hd.inFlight_eq⟩
    exact .opening .auth rfl (hready.send (.auth .plain))
      ⟨hu.batched_eq, hu.recipientsSent_eq, hu.succeeded_eq⟩
  · exact h.congr (sameStanding_of_eq rfl)

/-- The handshake takes one from what is due, and the server is greeted again. -/
theorem standing_encrypt {d : Dialogue} {due : Nat} (h : d.Standing due) (hdue : 0 < due) :
    d.encrypt.Standing (due - 1) := by
  unfold encrypt
  split
  · next hclosed => exact .closed _ (by simpa [isFinished] using hclosed)
  · next hopen =>
    obtain ⟨rfl, hd, hu⟩ := h.of_due hdue (by simpa using hopen)
    have hready : Expects { d with encrypted := true, capabilities := .empty } .ready false [] :=
      hd.congr (sameStanding_of_eq rfl)
    exact .opening .ehlo rfl (hready.send _) ⟨hu.batched_eq, hu.recipientsSent_eq, hu.succeeded_eq⟩

theorem phase_cancel (d : Dialogue) : d.cancel.1.phase = .closed := by
  unfold cancel
  split
  · next h => simpa [isFinished] using h
  · rw [fail_eq]

theorem phase_disconnect (d : Dialogue) (error : Error) :
    (d.disconnect error).1.phase = .closed := by
  unfold disconnect
  split
  · next h => simpa [isFinished] using h
  · split
    · rfl
    · rw [fail_eq]

/-- A call leads to a place with the handshakes that it leaves due. -/
theorem standing_perform {d : Dialogue} {due : Nat} (h : d.Standing due) (call : Call)
    (hdue : call = .encrypted → 0 < due) :
    (d.perform call).1.Standing
      (due + (d.eventsOf call).count .encryptionDue - [call].count .encrypted) := by
  cases call with
  | submit e => exact standing_submit h e
  | connected => exact standing_connect h
  | line line => exact standing_takeLine h line
  | password text => exact standing_givePassword h text
  | encrypted => exact standing_encrypt h (hdue rfl)
  | cancel => exact .closed _ d.phase_cancel
  | lost error => exact .closed _ (d.phase_disconnect error)
  | poll => exact h.congr (sameStanding_of_eq rfl)

theorem standing_start (settings : Settings) : (start settings).Standing 0 :=
  .idle ⟨rfl, rfl, rfl, rfl, rfl⟩ ⟨rfl, rfl, rfl⟩

/-- In every run the connection becomes encrypted at most once for each time that the dialogue has
asked for the handshake. -/
def EncryptsWhenDue (settings : Settings) (calls : List Call) : Prop :=
  ∀ before later, calls = before ++ .encrypted :: later →
    before.count .encrypted < ((start settings).events before).count .encryptionDue

instance (settings : Settings) (calls : List Call) : Decidable (EncryptsWhenDue settings calls) :=
  decidable_of_iff (¬Occurs calls fun before call => call = .encrypted ∧
      ((start settings).events before).count .encryptionDue ≤ before.count .encrypted) <| by
    constructor
    · intro hnone before later heq
      by_contra hlt
      exact hnone ⟨before, .encrypted, later, heq, rfl, Nat.le_of_not_lt hlt⟩
    · rintro hdue ⟨before, call, later, heq, rfl, hle⟩
      exact absurd (hdue before later heq) (Nat.not_lt_of_le hle)

/-- What holds of a run holds of its beginnings. -/
theorem EncryptsWhenDue.of_append {settings : Settings} {calls later : List Call}
    (h : EncryptsWhenDue settings (calls ++ later)) : EncryptsWhenDue settings calls := by
  rintro before rest rfl
  exact h before (rest ++ later) (by simp)

theorem EncryptsWhenDue.of_cons {settings : Settings} {before : List Call} {call : Call}
    {later : List Call} (h : EncryptsWhenDue settings (before ++ call :: later)) :
    EncryptsWhenDue settings (before ++ [call]) := by
  rw [← List.singleton_append, ← List.append_assoc] at h
  exact h.of_append

theorem EncryptsWhenDue.of_notMem (settings : Settings) {calls : List Call}
    (h : .encrypted ∉ calls) : EncryptsWhenDue settings calls := by
  rintro before later rfl
  simp at h

theorem EncryptsWhenDue.due_of_snoc {settings : Settings} {calls : List Call} {call : Call}
    (h : EncryptsWhenDue settings (calls ++ [call])) (hcall : call = .encrypted) :
    calls.count .encrypted < ((start settings).events calls).count .encryptionDue := by
  subst hcall
  exact h calls [] rfl

/-- A run goes on as it may, if the handshake comes last only where one is due. -/
theorem EncryptsWhenDue.snoc {settings : Settings} {calls : List Call} {call : Call}
    (h : EncryptsWhenDue settings calls)
    (hcall : call = .encrypted →
      calls.count .encrypted < ((start settings).events calls).count .encryptionDue) :
    EncryptsWhenDue settings (calls ++ [call]) := by
  intro before later heq
  rcases List.eq_nil_or_concat later with rfl | ⟨later', last, rfl⟩
  · obtain ⟨rfl, hlast⟩ := List.append_inj' heq rfl
    cases hlast
    exact hcall rfl
  · have hsplit : calls ++ [call] = (before ++ .encrypted :: later') ++ [last] := by
      simpa using heq
    obtain ⟨rfl, -⟩ := List.append_inj' hsplit rfl
    exact h before later' rfl

/-- Every run stands somewhere, and the handshakes that are due are those asked for and not done. -/
theorem EncryptsWhenDue.standing {settings : Settings} {calls : List Call}
    (h : EncryptsWhenDue settings calls) :
    calls.count .encrypted ≤ ((start settings).events calls).count .encryptionDue ∧
    ((start settings).after calls).Standing
      (((start settings).events calls).count .encryptionDue - calls.count .encrypted) := by
  induction calls using List.reverseRecOn with
  | nil => exact ⟨Nat.le_refl _, standing_start settings⟩
  | append_singleton calls call ih =>
    obtain ⟨hle, hstanding⟩ := ih h.of_append
    have hdue (hcall : call = .encrypted) := h.due_of_snoc hcall
    have hnext := standing_perform hstanding call fun hcall => Nat.sub_pos_of_lt (hdue hcall)
    have hone : [call].count .encrypted = if call = .encrypted then 1 else 0 := by
      simp [List.count_cons]
    rw [after_snoc, events_snoc, List.count_append, List.count_append, hone]
    rw [hone] at hnext
    split
    · next hcall =>
      have hlt := hdue hcall
      rw [if_pos hcall] at hnext
      refine ⟨by omega, ?_⟩
      convert hnext using 1
      omega
    · next hcall =>
      rw [if_neg hcall] at hnext
      refine ⟨by omega, ?_⟩
      convert hnext using 1
      omega

/-- Induction over a run, with the place where it stands before each call. -/
@[elab_as_elim]
theorem EncryptsWhenDue.induction {settings : Settings} {motive : List Call → Prop}
    {calls : List Call} (h : EncryptsWhenDue settings calls) (nil : motive [])
    (snoc : ∀ calls call due, ((start settings).after calls).Standing due →
      (call = .encrypted → 0 < due) → motive calls → motive (calls ++ [call])) :
    motive calls := by
  induction calls using List.reverseRecOn with
  | nil => exact nil
  | append_singleton calls call ih =>
    exact snoc calls call _ h.of_append.standing.2
      (fun hcall => Nat.sub_pos_of_lt (h.due_of_snoc hcall)) (ih h.of_append)

end Dialogue

end SmtpClient
