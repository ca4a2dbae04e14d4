import SmtpClient.Proofs.InFlight
import SmtpClient.Proofs.Ledger

/-!
A transaction that is sent at once and one that is sent command by command take the same course.
While the replies come in, the batch is ahead by the commands that the other side has not sent yet;
`Paired` says so, and every line, password, cancellation and loss of the connection keeps it.
-/
namespace SmtpClient

def BitSet.assign {n : Nat} (s : BitSet n) (i : Nat) (isIn : Bool) : BitSet n :=
  if isIn then s.insert i else ⟨s.bits &&& ~~~BitVec.twoPow n i⟩

/-- Putting one number in or out leaves the others where they are. -/
theorem BitSet.contains_assign {n : Nat} (s : BitSet n) {i : Nat} (hi : i < n) (isIn : Bool)
    (j : Nat) : (s.assign i isIn).contains j = if i = j then isIn else s.contains j := by
  cases isIn with
  | true =>
    rw [assign, if_pos rfl, contains_insert]
    by_cases hij : i = j
    · simp [← hij, hi]
    · simp [hij]
  | false =>
    rw [assign, if_neg (by simp)]
    by_cases hij : i = j
    · simp [contains, BitVec.getLsbD_twoPow, hij]
    · rw [if_neg hij]
      simp only [contains, BitVec.getLsbD_and, BitVec.getLsbD_not, BitVec.getLsbD_twoPow, hij]
      by_cases hj : j < n
      · simp [hj]
      · simp [hj, BitVec.getLsbD_of_ge _ _ (Nat.le_of_not_lt hj)]

namespace Dialogue

def offered (d : Dialogue) (pipelining : Bool) : Dialogue :=
  { d with capabilities := { d.capabilities with
      extensions := d.capabilities.extensions.assign Extension.pipelining.bit pipelining } }

theorem supports_offered (d : Dialogue) (pipelining : Bool) (e : Extension) :
    (d.offered pipelining).capabilities.supports e =
      if e = .pipelining then pipelining else d.capabilities.supports e := by
  have hbit : Extension.pipelining.bit = e.bit ↔ e = .pipelining := by
    cases e <;> simp [Extension.bit]
  rw [Capabilities.supports, Extension.isIn, offered, BitSet.contains_assign _ (by decide)]
  simp only [hbit]
  rfl

theorem declaredSize_offered (d : Dialogue) (pipelining : Bool) (p : Payload) :
    declaredSize (d.offered pipelining).capabilities p = declaredSize d.capabilities p := by
  have hsize : (d.offered pipelining).capabilities.supports .size =
      d.capabilities.supports .size := by simp [supports_offered]
  have hburl : (d.offered pipelining).capabilities.supports .burl =
      d.capabilities.supports .burl := by simp [supports_offered]
  have hlimit : (d.offered pipelining).capabilities.sizeLimit = d.capabilities.sizeLimit := rfl
  cases p with
  | message data => simp only [declaredSize, hlimit, hsize]
  | reference target => simp only [declaredSize, hburl]

inductive AboutToBegin (d : Dialogue) (line : Bytes) (b : Dialogue) : Prop
  | greeted (reply : Reply) (h : d.Completes line .ehlo reply) (hcode : reply.code = 250)
    (hb : b = { settle { d with replyTexts := [] } (.answer .ehlo) reply.code with
      capabilities := d.capabilities.addReply reply })
    (he : b.mustEncrypt = false) (ha : b.mustAuthenticate = false)
  | greetedPlainly (reply : Reply) (h : d.Completes line .helo reply) (hcode : reply.code = 250)
    (hb : b = settle { d with replyTexts := [] } (.answer .helo) reply.code)
    (he : b.mustEncrypt = false) (ha : b.mustAuthenticate = false)
  | authenticated (reply : Reply) (h : d.Completes line .auth reply) (hcode : reply.code = 235)
    (hb : b = { settle { d with replyTexts := [] } (.answer .auth) reply.code with
      authenticated := true })

/-- A line before the transaction does nothing but begin it, in the dialogue that has counted the
reply. -/
theorem AboutToBegin.takeLine_eq {d : Dialogue} {line : Bytes} {b : Dialogue}
    (h : d.AboutToBegin line b) : d.takeLine line = b.beginTransaction := by
  cases h with
  | greeted reply h hcode hb he ha =>
    have hannounce : Decision.of (.answer .ehlo) reply.code = .announce := by rw [hcode]; rfl
    rw [h.takeLine_eq, hannounce, reactTo, act, settle_capabilities, ← hb,
      negotiate_eq_beginTransaction he ha]
  | greetedPlainly reply h hcode hb he ha =>
    have hnegotiate : Decision.of (.answer .helo) reply.code = .advance .negotiate := by
      rw [hcode]; rfl
    rw [h.takeLine_eq, hnegotiate, reactTo, ← hb, act, advance,
      negotiate_eq_beginTransaction he ha]
  | authenticated reply h hcode hb =>
    have hbegin : Decision.of (.answer .auth) reply.code = .advance .beginTransaction := by
      rw [hcode]; rfl
    rw [h.takeLine_eq, hbegin, reactTo, act, advance, ← hb]

def NoMailBeyond (d : Dialogue) (last : Tag) : Prop :=
  d.AllInFlight fun f => f.verb = .mail → f.tag ≤ last

section NoMailBeyond

variable {d : Dialogue} {last : Tag}

theorem noMailBeyond_of_tidy (h : d.pipeline.Tidy) : d.NoMailBeyond d.pipeline.issued :=
  ⟨h.waiting_eq, fun f hmem _ => h.tag_le f hmem⟩

/-- If every MAIL in flight bears an old number, the call has not sent one. -/
theorem NoMailBeyond.notMem_sentBy {call : Call}
    (h : (d.perform call).1.NoMailBeyond d.pipeline.issued) :
    .mail ∉ (d.sentBy call).map (·.verb) := by
  intro hsent
  obtain ⟨f, hmem, hmail⟩ := List.mem_map.mp hsent
  rw [sentBy, List.mem_filter, decide_eq_true_eq] at hmem
  exact Nat.not_lt.mpr (h.inFlight f hmem.1 hmail) hmem.2

theorem NoMailBeyond.congr (h : d.NoMailBeyond last) {next : Dialogue}
    (hp : next.pipeline = d.pipeline) : next.NoMailBeyond last := AllInFlight.congr h hp

theorem NoMailBeyond.send (h : d.NoMailBeyond last) {c : Command} (hc : c.verb ≠ .mail) :
    (d.send c).NoMailBeyond last := AllInFlight.send h fun _ hmail => absurd hmail hc

/-- Once a dialogue has been greeted, MAIL is sent only if nothing is left to arrange. -/
theorem Negotiation.begins {r : Outcome} (h : d.Negotiation r) (hbefore : d.NoMailBeyond last)
    (hafter : ¬r.1.NoMailBeyond last) : d.mustEncrypt = false ∧ d.mustAuthenticate = false := by
  cases h with
  | failed error => exact absurd (d.allInFlight_fail error true) hafter
  | startTls => exact absurd (hbefore.send (by simp [Command.verb])) hafter
  | park | ask => exact (hafter (hbefore.congr rfl)).elim
  | auth =>
    have hfresh : NoMailBeyond { d with passwordSent := false } last := hbefore.congr rfl
    exact absurd (hfresh.send (by simp [Command.verb])) hafter
  | begun he ha => exact ⟨he, ha⟩

/-- A complete reply puts MAIL on its way only as the last one that had to be waited for. -/
theorem begins_of_reactTo {line : Bytes} {awaited : Awaited} {reply : Reply}
    (hopen : d.isFinished = false) (hw : d.awaited = some awaited)
    (hparse : Reply.parse line = .ok reply) (hc : reply.continues = false) (text : String)
    (hbefore : d.NoMailBeyond last) {decision : Decision}
    (hl : Decision.Listed reply.code awaited decision)
    (hafter : ¬(d.reactTo awaited reply text decision).1.NoMailBeyond last) :
    ∃ b, d.AboutToBegin line b := by
  have hsettled := AllInFlight.settle hbefore awaited reply.code
  rw [reactTo] at hafter
  have hmail : .mail ∈ decision.verbs := by
    by_contra hnone
    refine hafter (hsettled.act awaited reply text fun verb hmem tag hverb => ?_)
    exact absurd (hverb ▸ hmem) hnone
  cases hl with
  | announce hcode =>
    rw [act, settle_capabilities] at hafter
    obtain ⟨he, ha⟩ := (negotiate_negotiation
      { settle { d with replyTexts := [] } (.answer .ehlo) reply.code with
        capabilities := d.capabilities.addReply reply }).begins (hsettled.congr rfl) hafter
    exact ⟨_, .greeted reply ⟨hopen, hw, hparse, hc⟩ hcode rfl he ha⟩
  | negotiate hcode =>
    obtain ⟨he, ha⟩ := (negotiate_negotiation _).begins hsettled hafter
    exact ⟨_, .greetedPlainly reply ⟨hopen, hw, hparse, hc⟩ hcode rfl he ha⟩
  | beginTransaction hcode => exact ⟨_, .authenticated reply ⟨hopen, hw, hparse, hc⟩ hcode rfl⟩
  | _ => simp [Decision.verbs] at hmail

/-- A line after which a new MAIL is in flight is one that lets the transaction begin. -/
theorem begins_of_takeLine {line : Bytes} (hbefore : d.NoMailBeyond last)
    (hafter : ¬(d.takeLine line).1.NoMailBeyond last) : ∃ b, d.AboutToBegin line b := by
  have hread := d.takeLine_reading line
  generalize d.takeLine line = r at hread hafter
  cases hread with
  | closed => exact absurd hbefore hafter
  | malformed error => exact absurd (d.allInFlight_fail error true) hafter
  | unasked reply => exact absurd (d.allInFlight_fail _ _) hafter
  | held reply awaited =>
    unfold holdLine at hafter
    split at hafter <;> exact (hafter (hbefore.congr rfl)).elim
  | completed reply awaited hopen hparse hw hc =>
    exact begins_of_reactTo hopen hw hparse hc _ hbefore (Decision.listed_of _ _) hafter

end NoMailBeyond

/-- Only there a transaction begins: a line that lets MAIL go out is one of these. -/
theorem exists_aboutToBegin {d : Dialogue} (htidy : d.pipeline.Tidy) {line : Bytes}
    (hsent : .mail ∈ (d.sentBy (.line line)).map (·.verb)) : ∃ b, d.AboutToBegin line b := by
  refine begins_of_takeLine (noMailBeyond_of_tidy htidy) fun hnone => ?_
  have hafter : (d.perform (.line line)).1.NoMailBeyond d.pipeline.issued := hnone
  exact hafter.notMem_sentBy hsent

/-- Nothing is in flight when the transaction begins. -/
theorem AboutToBegin.clear {d : Dialogue} {line : Bytes} {b : Dialogue} {due : Nat}
    (h : d.AboutToBegin line b) (hd : d.Standing due) :
    b.Expects .ready false [] ∧ b.Untouched := by
  cases h with
  | greeted reply h hcode hb =>
    obtain ⟨hready, huntouched⟩ := hd.of_opening h.awaited_eq rfl h.unfinished
    have hclear := hready.settle_answer (by simp) reply.code (by rw [hcode]; rfl)
    have hempty := huntouched.settle (.answer .ehlo) reply.code
    rw [hb]
    exact ⟨hclear.congr (sameStanding_of_eq rfl), hempty.congr (sameStanding_of_eq rfl)⟩
  | greetedPlainly reply h hcode hb =>
    obtain ⟨hready, huntouched⟩ := hd.of_opening h.awaited_eq rfl h.unfinished
    rw [hb]
    exact ⟨hready.settle_answer (by simp) reply.code (by rw [hcode]; rfl), huntouched.settle _ _⟩
  | authenticated reply h hcode hb =>
    obtain ⟨hready, huntouched⟩ := hd.of_opening h.awaited_eq rfl h.unfinished
    have hclear := hready.settle_answer (by simp) reply.code (by rw [hcode]; rfl)
    have hempty := huntouched.settle (.answer .auth) reply.code
    rw [hb]
    exact ⟨hclear.congr (sameStanding_of_eq rfl), hempty.congr (sameStanding_of_eq rfl)⟩

def pending (d : Dialogue) : Bytes := d.outbound.flatMap (·.data)

theorem pending_send (d : Dialogue) (c : Command) (h : d.pipeline.waiting = []) :
    (d.send c).pending = d.pending ++ c.render := by
  simp [send_eq d c h, pending, Transmit.tagged]

theorem pending_put (d : Dialogue) (data : Bytes) : (d.put data).pending = d.pending ++ data := by
  simp [put, pending, Transmit.raw]

theorem pending_sendBatch (d : Dialogue) (e : Envelope) (size : Option Nat)
    (h : d.pipeline.waiting = []) :
    (d.sendBatch e size).pending = d.pending ++ (transaction e size).flatMap Command.render := by
  simp [sendBatch_eq d e size h, pending, Pipeline.data_batchOf_numbered]

theorem pending_settle (d : Dialogue) (awaited : Awaited) (code : Code) :
    (settle { d with replyTexts := [] } awaited code).pending = d.pending := by
  simp [pending]

/-- A transaction sent at once and one sent command by command, where the next reply answers the
same command. The batch is ahead by the commands after it. -/
structure InStep (p o : Dialogue) (e : Envelope) (c : Command) (rest : List Command) : Prop where
  leads : e.Leads c rest
  batch : p.Expects .pipelining false ((c :: rest).map Command.verb)
  batched : p.batched = true
  single : o.Expects .ready false [c.verb]
  unbatched : o.batched = false
  named : rest ≠ [] → rest = e.commandsFrom o.recipientsSent
  envelope : p.envelope = some e ∧ o.envelope = some e
  undecided : p.succeeded = false ∧ o.succeeded = false
  texts : p.replyTexts = o.replyTexts
  ahead : p.pending = o.pending ++ rest.flatMap Command.render

inductive Paired (p o : Dialogue) : Prop
  | sending (e : Envelope) (c : Command) (rest : List Command) (h : InStep p o e c rest)
  | leaving (hp : p.Expects .ready false [.quit]) (ho : o.Expects .ready false [.quit])
    (hs : p.succeeded = true ∧ o.succeeded = true) (ht : p.replyTexts = o.replyTexts)
    (hw : p.pending = o.pending)
  | closed (hp : p.phase = .closed) (ho : o.phase = .closed) (ha : p.awaited = o.awaited)
    (hs : p.succeeded = o.succeeded) (hw : p.succeeded = true → p.pending = o.pending)

def Agree (r r' : Outcome) : Prop := r.2 = r'.2 ∧ Paired r.1 r'.1

/-- The next reply answers the same command on both sides. -/
theorem InStep.awaited_eq {p o : Dialogue} {e : Envelope} {c : Command} {rest : List Command}
    (h : InStep p o e c rest) :
    p.awaited = some (.answer c.verb) ∧ o.awaited = some (.answer c.verb) :=
  ⟨h.batch.awaited_eq_answer (by simp), h.single.awaited_eq_answer (by simp)⟩

/-- What can be seen from outside is the same on both sides. -/
theorem Paired.observed {p o : Dialogue} (h : Paired p o) :
    p.isFinished = o.isFinished ∧ p.succeeded = o.succeeded ∧ p.awaited = o.awaited ∧
      (p.succeeded = true → p.pending = o.pending) := by
  cases h with
  | sending e c rest h =>
    obtain ⟨hp, ho⟩ := h.awaited_eq
    obtain ⟨hsp, hso⟩ := h.undecided
    exact ⟨by simp [isFinished, h.batch.phase_eq, h.single.phase_eq], hsp.trans hso.symm,
      hp.trans ho.symm, by simp [hsp]⟩
  | leaving hp ho hs ht hw =>
    have hwp := hp.awaited_eq_answer (by simp)
    have hwo := ho.awaited_eq_answer (by simp)
    exact ⟨by simp [isFinished, hp.phase_eq, ho.phase_eq], hs.1.trans hs.2.symm,
      hwp.trans hwo.symm, fun _ => hw⟩
  | closed hp ho ha hs hw => exact ⟨by simp [isFinished, hp, ho], hs, ha, hw⟩

theorem InStep.congr {p p' o o' : Dialogue} {e : Envelope} {c : Command} {rest : List Command}
    (h : InStep p o e c rest) (hp : p.SameStanding p') (ho : o.SameStanding o')
    (ht : p'.replyTexts = o'.replyTexts) (hp' : p'.outbound = p.outbound)
    (ho' : o'.outbound = o.outbound) : InStep p' o' e c rest where
  leads := h.leads
  batch := h.batch.congr hp
  batched := hp.batched_eq.trans h.batched
  single := h.single.congr ho
  unbatched := ho.batched_eq.trans h.unbatched
  named := by rw [ho.recipientsSent_eq]; exact h.named
  envelope := ⟨hp.envelope_eq.trans h.envelope.1, ho.envelope_eq.trans h.envelope.2⟩
  undecided := ⟨hp.succeeded_eq.trans h.undecided.1, ho.succeeded_eq.trans h.undecided.2⟩
  texts := ht
  ahead := by rw [pending, hp', pending, ho']; exact h.ahead

/-- A change of marks that do not matter any more. -/
theorem Paired.congr {p p' o o' : Dialogue} (h : Paired p o) (hp : p.SameStanding p')
    (ho : o.SameStanding o') (ht : p.replyTexts = o.replyTexts → p'.replyTexts = o'.replyTexts)
    (hp' : p'.outbound = p.outbound) (ho' : o'.outbound = o.outbound) : Paired p' o' := by
  cases h with
  | sending e c rest h => exact .sending e c rest (h.congr hp ho (ht h.texts) hp' ho')
  | leaving hlp hlo hs htexts hw =>
    refine .leaving (hlp.congr hp) (hlo.congr ho)
      ⟨hp.succeeded_eq.trans hs.1, ho.succeeded_eq.trans hs.2⟩ (ht htexts) ?_
    rw [pending, hp', pending, ho']
    exact hw
  | closed hcp hco ha hs hw =>
    refine .closed (hp.phase_eq.trans hcp) (ho.phase_eq.trans hco) ?_ ?_ fun hsp => ?_
    · simp only [awaited, hp.greetingDue_eq, hp.pipeline_eq, ho.greetingDue_eq, ho.pipeline_eq]
      exact ha
    · rw [hp.succeeded_eq, ho.succeeded_eq, hs]
    · rw [pending, hp', pending, ho']
      exact hw (hp.succeeded_eq.symm.trans hsp)

theorem awaited_close {d : Dialogue} (h : d.greetingDue = false) : d.close.awaited = none := by
  simp [close, awaited, h, Pipeline.clear, Pipeline.awaiting]

theorem awaited_fail (d : Dialogue) (error : Error) (mayQuit : Bool) (h : d.greetingDue = false) :
    (d.fail error mayQuit).1.awaited = none := by
  rw [fail_eq, awaited]
  simp [h, Pipeline.clear, Pipeline.awaiting]

/-- A failure is the same on both sides, and what is put out matters only after a success. -/
theorem agree_fail {p o : Dialogue} (hp : p.greetingDue = false) (ho : o.greetingDue = false)
    (hs : p.succeeded = o.succeeded) (error : Error) (mayQuit : Bool)
    (hw : p.succeeded = true → p.pending = o.pending ∧ p.farewell mayQuit = o.farewell mayQuit) :
    Agree (p.fail error mayQuit) (o.fail error mayQuit) := by
  refine ⟨rfl, .closed (by simp) (by simp) ?_ ?_ ?_⟩
  · rw [p.awaited_fail error mayQuit hp, o.awaited_fail error mayQuit ho]
  · rw [fail_eq, fail_eq]
    exact hs
  · rw [fail_eq, fail_eq]
    intro hsp
    obtain ⟨hpending, hfarewell⟩ := hw hsp
    simp only [pending, hfarewell, List.flatMap_append] at hpending ⊢
    rw [hpending]

/-- A failure is reported alike on both sides and leaves them paired. -/
theorem Paired.fail {p o : Dialogue} (h : Paired p o) (hopen : p.isFinished = false)
    (error : Error) (mayQuit : Bool) : Agree (p.fail error mayQuit) (o.fail error mayQuit) := by
  cases h with
  | sending e c rest h =>
    refine agree_fail h.batch.greetingDue_eq h.single.greetingDue_eq ?_ error mayQuit ?_
    · rw [h.undecided.1, h.undecided.2]
    · simp [h.undecided.1]
  | leaving hp ho hs ht hw =>
    refine agree_fail hp.greetingDue_eq ho.greetingDue_eq (hs.1.trans hs.2.symm) error mayQuit ?_
    refine fun _ => ⟨hw, ?_⟩
    simp only [farewell, hp.phase_eq, ho.phase_eq, hp.isInFlight_eq, ho.isInFlight_eq]
  | closed hp => simp [isFinished, hp] at hopen

/-- After an accepted command that is not the last, the side without a batch sends the next one. -/
theorem InStep.next {p o : Dialogue} {e : Envelope} {c : Command} {rest : List Command}
    (h : InStep p o e c rest) (hne : rest ≠ []) {verb : Verb} (hv : c.verb = verb) (code : Code)
    (hc : code.isIntermediate = false) :
    Paired (settle { p with replyTexts := [] } (.answer verb) code)
      (settle { o with replyTexts := [] } (.answer verb) code).sendNextRecipient := by
  subst hv
  obtain ⟨c', rest', rfl, hleads⟩ := h.leads.next hne
  have hp := h.batch.settle_answer (by simp) code hc
  have ho := h.single.settle_answer (by simp) code hc
  have he := h.envelope
  have hs := h.undecided
  -- the side without a batch catches up by one command, which the batch has sent before
  obtain ⟨named, hsend, hnamed⟩ := sendNextRecipient_eq
    (d := settle { o with replyTexts := [] } (.answer c.verb) code) (e := e) (by simp [he.2])
    (by simpa using (h.named hne).symm)
  have hmoved := ho.recount named
  rw [hsend]
  refine .sending e c' rest' ⟨hleads, hp, by simp [h.batched], hmoved.send c', ?_, hnamed,
    ⟨by simp [he.1], ?_⟩, ⟨by simp [hs.1], ?_⟩, ?_, ?_⟩
  · simp [send, flush, h.unbatched]
  · simp [send, flush, he.2]
  · simp [send, flush, hs.2]
  · simp [send, flush]
  · have hahead := h.ahead
    rw [List.flatMap_cons, ← List.append_assoc] at hahead
    rw [pending_send _ _ hmoved.waiting_eq, pending_settle, hahead]
    simp [pending]

/-- Where only the payload is left, both sides put out the same body and stay in step. -/
theorem InStep.sendBody {p o : Dialogue} {e : Envelope} {c : Command} {rest : List Command}
    (h : InStep p o e c rest) (hrest : rest = []) : Agree p.sendBody o.sendBody := by
  have hp : p.envelope.map Envelope.payload = some e.payload := by rw [h.envelope.1]; rfl
  have ho : o.envelope.map Envelope.payload = some e.payload := by rw [h.envelope.2]; rfl
  unfold Dialogue.sendBody
  rw [hp, ho]
  split
  · next data _ =>
    subst hrest
    have hahead : p.pending = o.pending := by simpa using h.ahead
    refine ⟨rfl, .sending e c [] ⟨h.leads, h.batch.congr (sameStanding_of_eq rfl), h.batched,
      h.single.congr (sameStanding_of_eq rfl), h.unbatched, h.named, h.envelope, h.undecided,
      h.texts, ?_⟩⟩
    simp [pending_put, hahead]
  · exact (Paired.sending e c rest h).fail (by simp [isFinished, h.batch.phase_eq]) _ _

theorem agree_succeed {p o : Dialogue} (hp : p.Expects .ready false [])
    (ho : o.Expects .ready false []) (he : p.envelope = o.envelope)
    (ht : p.replyTexts = o.replyTexts) (hw : p.pending = o.pending) :
    Agree p.succeed o.succeed := by
  have hmark {d : Dialogue} (hd : d.Expects .ready false []) :
      Expects { d with succeeded := true } .ready false [] :=
    ⟨hd.phase_eq, hd.greetingDue_eq, hd.parked_eq, hd.waiting_eq, hd.inFlight_eq⟩
  have hquit {d : Dialogue} (hd : d.Expects .ready false []) :
      d.succeed.1.pending = d.pending ++ Command.quit.render :=
    pending_send { d with succeeded := true } .quit hd.waiting_eq
  refine ⟨by simp only [succeed, he], ?_⟩
  refine .leaving ((hmark hp).send .quit) ((hmark ho).send .quit) ⟨rfl, rfl⟩ ht ?_
  rw [hquit hp, hquit ho, hw]

/-- After the last command is answered both sides stand alike. -/
theorem InStep.succeed {p o : Dialogue} {e : Envelope} {c : Command} {rest : List Command}
    (h : InStep p o e c rest) (hrest : rest = []) {verb : Verb} (hv : c.verb = verb) (code : Code)
    (hc : code.isIntermediate = false) :
    Agree (settle { p with replyTexts := [] } (.answer verb) code).succeed
      (settle { o with replyTexts := [] } (.answer verb) code).succeed := by
  subst hv hrest
  refine agree_succeed (h.batch.settle_answer (by simp) code hc)
    (h.single.settle_answer (by simp) code hc) ?_ (by simp) ?_
  · simp [h.envelope]
  · rw [pending_settle, pending_settle]
    simpa using h.ahead

/-- A refusal ends both sides alike, whatever the batch has sent ahead. -/
theorem InStep.refuse {p o : Dialogue} {e : Envelope} {c : Command} {rest : List Command}
    (h : InStep p o e c rest) (verb : Verb) (reply : Reply) (text : String) (refusal : Refusal) :
    Agree (p.reactTo (.answer verb) reply text (.fail refusal))
      (o.reactTo (.answer verb) reply text (.fail refusal)) := by
  have hs := h.undecided
  have hact {d : Dialogue} (hd : d.succeeded = false) :
      d.reactTo (.answer verb) reply text (.fail refusal) =
        (settle { d with replyTexts := [] } (.answer verb) reply.code).fail
          (refusal.error (.answer verb) reply text) (reply.code != 421) := by
    simp [reactTo, act, hd]
  rw [hact hs.1, hact hs.2]
  refine agree_fail ?_ ?_ (by simp [hs]) _ _ (by simp [hs.1])
  · rw [settle_greetingDue]
    exact h.batch.greetingDue_eq
  · rw [settle_greetingDue]
    exact h.single.greetingDue_eq

/-- A complete reply in the transaction is taken in the same way on both sides. -/
theorem InStep.reactTo {p o : Dialogue} {e : Envelope} {c : Command} {rest : List Command}
    (h : InStep p o e c rest) {verb : Verb} (hv : c.verb = verb) (reply : Reply) (text : String)
    {decision : Decision} (hd : Decision.Listed reply.code (.answer verb) decision) :
    Agree (p.reactTo (.answer verb) reply text decision)
      (o.reactTo (.answer verb) reply text decision) := by
  cases h.leads.transactionReply hv hd with
  | accepted move hm hne hc =>
    have hnext := h.next hne hv reply.code hc
    refine ⟨by rcases hm with rfl | rfl <;> rfl, ?_⟩
    rcases hm with rfl | rfl <;>
      simpa [Dialogue.reactTo, act, advance, h.batched, h.unbatched] using hnext
  | goAhead hdata hrest hc =>
    subst hdata
    have hplain : InStep { p with replyTexts := [] } { o with replyTexts := [] } e c rest :=
      h.congr (sameStanding_of_eq rfl) (sameStanding_of_eq rfl) rfl rfl rfl
    rw [Dialogue.reactTo, Dialogue.reactTo, settle_intermediate p .data reply.code hc,
      settle_intermediate o .data reply.code hc]
    exact hplain.sendBody hrest
  | taken hrest hc => exact h.succeed hrest hv reply.code hc
  | refused refusal => exact h.refuse verb reply text refusal

/-- A line of a reply is answered alike on both sides, whether or not it completes the reply. -/
theorem Paired.takeReply {p o : Dialogue} (h : Paired p o) (hopen : p.isFinished = false)
    (reply : Reply) : Agree (p.takeReply reply) (o.takeReply reply) := by
  have hheld {awaited : Awaited} (hp : p.awaited = some awaited) (ho : o.awaited = some awaited)
      (hc : reply.continues = true) : Agree (p.takeReply reply) (o.takeReply reply) := by
    rw [p.takeReply_of_continues reply awaited hp hc, o.takeReply_of_continues reply awaited ho hc]
    refine ⟨rfl, ?_⟩
    unfold holdLine
    split
    · exact h.congr (sameStanding_of_eq rfl) (sameStanding_of_eq rfl) id rfl rfl
    · exact h.congr (sameStanding_of_eq rfl) (sameStanding_of_eq rfl)
        (congrArg (· ++ [reply.text])) rfl rfl
  cases hc : reply.continues with
  | true =>
    cases hw : p.awaited with
    | none =>
      have ho := h.observed.2.2.1 ▸ hw
      rw [p.takeReply_of_none reply hw, o.takeReply_of_none reply ho]
      exact h.fail hopen _ _
    | some awaited => exact hheld hw (h.observed.2.2.1 ▸ hw) hc
  | false =>
    cases h with
    | sending e c rest h =>
      obtain ⟨hp, ho⟩ := h.awaited_eq
      have htext : o.replyText reply = p.replyText reply := by rw [replyText, replyText, h.texts]
      rw [p.takeReply_of_last reply _ hp hc, o.takeReply_of_last reply _ ho hc, htext]
      exact h.reactTo rfl reply _ (Decision.listed_of _ _)
    | leaving hp ho hs ht hw =>
      have hl := Decision.listed_of (.answer .quit) reply.code
      rw [p.takeReply_of_last reply _ (hp.awaited_eq_answer (by simp)) hc,
        o.takeReply_of_last reply _ (ho.awaited_eq_answer (by simp)) hc,
        reactTo_leaving hs.1 reply _ hl, reactTo_leaving hs.2 reply _ hl]
      refine ⟨rfl, .closed rfl rfl ?_ (by simp [close, hs]) fun _ => ?_⟩
      · rw [awaited_close (by rw [settle_greetingDue]; exact hp.greetingDue_eq),
          awaited_close (by rw [settle_greetingDue]; exact ho.greetingDue_eq)]
      · simpa [close, pending] using hw
    | closed hp => simp [isFinished, hp] at hopen

theorem Paired.takeLine {p o : Dialogue} (h : Paired p o) (line : Bytes) :
    Agree (p.takeLine line) (o.takeLine line) := by
  have hfinished := h.observed.1
  cases hp : p.isFinished with
  | true =>
    have ho : o.isFinished = true := hfinished.symm.trans hp
    rw [Dialogue.takeLine, Dialogue.takeLine, if_pos hp, if_pos ho]
    exact ⟨rfl, h⟩
  | false =>
    have ho : o.isFinished = false := hfinished.symm.trans hp
    rw [Dialogue.takeLine, Dialogue.takeLine, if_neg (by simp [hp]), if_neg (by simp [ho])]
    split
    · exact h.takeReply hp _
    · exact h.fail hp _ _

/-- No transaction waits for a password. -/
theorem Paired.givePassword {p o : Dialogue} (h : Paired p o) (password : String) :
    Paired (p.givePassword password) (o.givePassword password) := by
  have hunparked : (p.parked = true → p.phase = .closed) ∧
      (o.parked = true → o.phase = .closed) := by
    cases h with
    | sending e c rest h => simp [h.batch.parked_eq, h.single.parked_eq]
    | leaving hp ho => simp [hp.parked_eq, ho.parked_eq]
    | closed hp ho => exact ⟨fun _ => hp, fun _ => ho⟩
  rw [givePassword_of_unparked hunparked.1, givePassword_of_unparked hunparked.2]
  exact h.congr (sameStanding_of_eq rfl) (sameStanding_of_eq rfl) id rfl rfl

theorem Paired.cancel {p o : Dialogue} (h : Paired p o) : Agree p.cancel o.cancel := by
  unfold Dialogue.cancel
  rw [← h.observed.1]
  split
  · exact ⟨rfl, h⟩
  · next hopen => exact h.fail (by simpa using hopen) _ _

theorem Paired.disconnect {p o : Dialogue} (h : Paired p o) (error : Error) :
    Agree (p.disconnect error) (o.disconnect error) := by
  obtain ⟨hfinished, hs, ha, hw⟩ := h.observed
  cases hp : p.isFinished with
  | true =>
    rw [Dialogue.disconnect, Dialogue.disconnect, if_pos hp, if_pos (hfinished ▸ hp)]
    exact ⟨rfl, h⟩
  | false =>
    have ho : o.isFinished = false := hfinished.symm.trans hp
    have hkept {d : Dialogue} (hd : d.isFinished = false) (hsd : d.succeeded = true) :
        d.disconnect error = ({ d with phase := .closed }, []) := by
      simp [Dialogue.disconnect, hd, hsd]
    have hbroken {d : Dialogue} (hd : d.isFinished = false) (hsd : d.succeeded = false) :
        d.disconnect error = d.fail error false := by
      simp [Dialogue.disconnect, hd, hsd]
    cases hsp : p.succeeded with
    | true =>
      rw [hkept hp hsp, hkept ho (hs.symm.trans hsp)]
      exact ⟨rfl, .closed rfl rfl ha hs hw⟩
    | false =>
      rw [hbroken hp hsp, hbroken ho (hs.symm.trans hsp)]
      exact h.fail hp _ _

end Dialogue

def Call.isInTransaction : Call → Bool
  | line _ | password _ | cancel | lost _ => true
  | _ => false

namespace Dialogue

/-- Any one call of a transaction is answered alike on both sides and leaves them paired. -/
theorem Paired.perform {p o : Dialogue} (h : Paired p o) (call : Call)
    (hcall : call.isInTransaction = true) :
    (p.perform call).2 = (o.perform call).2 ∧ Paired (p.perform call).1 (o.perform call).1 := by
  have hagree {r r' : Outcome} (hr : Agree r r') :
      Answer.ofEvents r.2 = Answer.ofEvents r'.2 ∧ Paired r.1 r'.1 :=
    ⟨congrArg Answer.ofEvents hr.1, hr.2⟩
  cases call with
  | line line => exact hagree (h.takeLine line)
  | password text => exact ⟨rfl, h.givePassword text⟩
  | cancel => exact hagree h.cancel
  | lost error => exact hagree (h.disconnect error)
  | _ => cases hcall

/-- Both sides answer a run of such calls alike, by induction on the calls. -/
theorem Paired.run {p o : Dialogue} (h : Paired p o) (calls : List Call)
    (hcalls : ∀ call ∈ calls, call.isInTransaction = true) :
    (p.run calls).2 = (o.run calls).2 ∧ Paired (p.after calls) (o.after calls) := by
  induction calls generalizing p o with
  | nil => exact ⟨rfl, h⟩
  | cons call later ih =>
    obtain ⟨hanswer, hnext⟩ := h.perform call (hcalls call List.mem_cons_self)
    obtain ⟨hanswers, hlast⟩ := ih hnext fun call hmem => hcalls call (List.mem_cons_of_mem _ hmem)
    refine ⟨?_, hlast⟩
    simp only [Dialogue.run, hanswer, hanswers]

/-- The first step of a transaction, with the offer of the server and without it. -/
theorem agree_beginTransaction {b : Dialogue} (hb : b.Expects .ready false []) (hu : b.Untouched) :
    Agree (b.offered true).beginTransaction (b.offered false).beginTransaction := by
  have hfail (error : Error) :
      Agree ((b.offered true).fail error true) ((b.offered false).fail error true) :=
    agree_fail (p := b.offered true) (o := b.offered false) hb.greetingDue_eq hb.greetingDue_eq rfl
      error true fun hs => absurd (hu.succeeded_eq.symm.trans hs) (by simp)
  cases he : b.envelope with
  | none =>
    have hbegin (pipelining : Bool) : (b.offered pipelining).beginTransaction =
        (b.offered pipelining).fail (.invalidState "no envelope to submit") true := by
      have he' : (b.offered pipelining).envelope = none := he
      simp only [beginTransaction, he']
    rw [hbegin, hbegin]
    exact hfail _
  | some e =>
    have he' (pipelining : Bool) : (b.offered pipelining).envelope = some e := he
    cases hsize : declaredSize b.capabilities e.payload with
    | error error =>
      have hbegin (pipelining : Bool) : (b.offered pipelining).beginTransaction =
          (b.offered pipelining).fail error true := by
        simp only [beginTransaction, he', declaredSize_offered, hsize]
      rw [hbegin, hbegin]
      exact hfail _
    | ok size =>
      have hbatch : (b.offered true).beginTransaction =
          ((b.offered true).sendBatch e size, []) := by
        simp only [beginTransaction, he', declaredSize_offered, hsize, supports_offered, if_true]
      have hsingle : (b.offered false).beginTransaction =
          ((b.offered false).send (.mail e.sender size), []) := by
        simp [beginTransaction, he', declaredSize_offered, hsize, supports_offered]
      rw [hbatch, hsingle]
      -- both wait for the reply to MAIL, and the batch is ahead by all that follows it
      refine ⟨rfl, .sending e (.mail e.sender size) (e.commandsFrom 0) ?_⟩
      have hsingle' : Expects (b.offered false) .ready false [] := hb.congr (sameStanding_of_eq rfl)
      have hbatch' : Expects (b.offered true) .ready false [] := hb.congr (sameStanding_of_eq rfl)
      refine ⟨.sender size, hbatch'.sendBatch e size, rfl, hsingle'.send _, hu.batched_eq, ?_,
        ⟨he, he⟩, ⟨hu.succeeded_eq, hu.succeeded_eq⟩, rfl, ?_⟩
      · exact fun _ => congrArg e.commandsFrom hu.recipientsSent_eq.symm
      · have hpending : (b.offered true).pending = (b.offered false).pending := rfl
        rw [pending_sendBatch (b.offered true) e size hb.waiting_eq,
          pending_send (b.offered false) _ hb.waiting_eq, transaction_eq, List.flatMap_cons,
          hpending, List.append_assoc]

def written (b d : Dialogue) : Bytes := (d.outbound.drop b.outbound.length).flatMap (·.data)

/-- As long as nothing is polled, what waits is what waited before and what was put out since. -/
theorem pending_eq_append_written {b d : Dialogue} (h : b.outbound <+: d.outbound) :
    d.pending = b.pending ++ b.written d := by
  obtain ⟨new, hnew⟩ := h
  rw [written, pending, pending, ← hnew, List.drop_left, List.flatMap_append]

/-- Two dialogues that go on from `b` take the same course: they answer every call in the same way,
from outside they look the same, and with a success they have put out the same bytes. -/
structure SameCourse (b p o : Dialogue) (calls : List Call) : Prop where
  answers_eq : (p.run calls).2 = (o.run calls).2
  isFinished_eq : (p.after calls).isFinished = (o.after calls).isFinished
  succeeded_eq : (p.after calls).succeeded = (o.after calls).succeeded
  awaited_eq : (p.after calls).awaited = (o.after calls).awaited
  written_eq : .succeeded ∈ p.events calls →
    b.written (p.after calls) = b.written (o.after calls)

/-- Two sides that are paired take the same course from then on. -/
theorem Paired.sameCourse {b p o : Dialogue} (h : Paired p o) (hp : b.outbound <+: p.outbound)
    (ho : b.outbound <+: o.outbound) (calls : List Call)
    (hcalls : ∀ call ∈ calls, call.isInTransaction = true) : SameCourse b p o calls := by
  obtain ⟨hanswers, hafter⟩ := h.run calls hcalls
  obtain ⟨hfinished, hs, ha, hpending⟩ := hafter.observed
  refine ⟨hanswers, hfinished, hs, ha, fun hmem => ?_⟩
  have hpoll : .poll ∉ calls := fun hmem => by cases hcalls .poll hmem
  have hp' := pending_eq_append_written (hp.trans (p.outbound_extends_after hpoll))
  have ho' := pending_eq_append_written (ho.trans (o.outbound_extends_after hpoll))
  have hsame := hpending (succeeded_of_mem_events hmem)
  rw [hp', ho'] at hsame
  exact List.append_cancel_left hsame

/-- A transaction takes the same course with a server that lets the client send it at once and with
one that does not. -/
theorem sameCourse_beginTransaction (settings : Settings) (calls : List Call)
    (h : EncryptsWhenDue settings calls) (line : Bytes) (b : Dialogue)
    (hb : ((start settings).after calls).AboutToBegin line b) (later : List Call)
    (hlater : ∀ call ∈ later, call.isInTransaction = true) :
    (b.offered true).beginTransaction.2 = (b.offered false).beginTransaction.2 ∧
      SameCourse b (b.offered true).beginTransaction.1 (b.offered false).beginTransaction.1
        later := by
  obtain ⟨hclear, huntouched⟩ := hb.clear h.standing.2
  obtain ⟨hevents, hpaired⟩ := agree_beginTransaction hclear huntouched
  have hextends (pipelining : Bool) :
      b.outbound <+: (b.offered pipelining).beginTransaction.1.outbound :=
    (b.offered pipelining).beginTransaction_beginning.bodiless.continues.outbound_extends
  exact ⟨hevents, hpaired.sameCourse (hextends true) (hextends false) later hlater⟩

/-- After the answer to EHLO the transaction can begin, and with four replies it succeeds on the
same course. -/
theorem sameCourse_of_greeted : ∃ b,
    EncryptsWhenDue .plain (conversation .greeting ["220 mx ESMTP"]) ∧
      ((start .plain).after (conversation .greeting ["220 mx ESMTP"])).AboutToBegin
        (Utf8.encode "250 mx") b ∧
      (∀ call ∈ replies ["250 ok", "250 ok", "354 go", "250 queued"],
        call.isInTransaction = true) ∧
      .succeeded ∈ (b.offered true).beginTransaction.1.events
        (replies ["250 ok", "250 ok", "354 go", "250 queued"]) ∧
      SameCourse b (b.offered true).beginTransaction.1 (b.offered false).beginTransaction.1
        (replies ["250 ok", "250 ok", "354 go", "250 queued"]) := by
  have hplain : EncryptsWhenDue .plain (conversation .greeting ["220 mx ESMTP"]) :=
    .of_notMem _ (by decide +kernel)
  have hb : ((start .plain).after (conversation .greeting ["220 mx ESMTP"])).AboutToBegin
      (Utf8.encode "250 mx") _ :=
    .greeted ⟨250, none, "mx", false⟩ ⟨by decide +kernel, by decide +kernel, by decide +kernel, rfl⟩
      rfl rfl (by decide +kernel) (by decide +kernel)
  have hlater : ∀ call ∈ replies ["250 ok", "250 ok", "354 go", "250 queued"],
      call.isInTransaction = true := by decide +kernel
  exact ⟨_, hplain, hb, hlater, by decide +kernel,
    (sameCourse_beginTransaction _ _ hplain _ _ hb _ hlater).2⟩

end Dialogue

end SmtpClient
