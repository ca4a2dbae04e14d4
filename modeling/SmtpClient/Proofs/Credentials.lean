import SmtpClient.Proofs.Ledger
import SmtpClient.Proofs.Offers

namespace SmtpClient

def Transmit.IsResponse (t : Transmit) : Prop :=
  ∃ user password, t = .raw (passwordResponse user password).render

theorem not_isResponse_of_tags {t : Transmit} (h : t.tags ≠ []) : ¬t.IsResponse := by
  rintro ⟨user, password, rfl⟩
  exact h rfl

theorem not_isResponse_body (data : Bytes) : ¬(Transmit.raw (Body.encode data)).IsResponse := by
  rintro ⟨user, password, heq⟩
  exact not_endsBody_passwordResponse user password (heq ▸ Body.encode_endsBody data)

/-- The base64 of a text that begins with NUL begins with an A. -/
theorem head?_passwordResponse (user password : String) :
    (passwordResponse user password).render.head? = some 65 := by
  obtain ⟨b, rest, hrest⟩ : ∃ b rest, plainMessage user password = 0 :: b :: rest := by
    unfold plainMessage
    cases Utf8.encode user with
    | nil => exact ⟨0, Utf8.encode password, rfl⟩
    | cons b rest => exact ⟨b, rest ++ 0 :: Utf8.encode password, rfl⟩
  obtain ⟨cs, hcs⟩ : ∃ cs, Base64.encode (plainMessage user password) = 'A' :: cs := by
    rw [hrest]
    cases rest <;> exact ⟨_, rfl⟩
  have hletter : Utf8.encode (String.ofList ('A' :: cs)) =
      65 :: cs.flatMap String.utf8EncodeChar := by
    rw [Utf8.encode, String.toList_ofList, List.flatMap_cons]
    rfl
  rw [render_passwordResponse, hcs, hletter]
  rfl

theorem not_isResponse_quit : ¬(Transmit.raw Command.quit.render).IsResponse := by
  rintro ⟨user, password, heq⟩
  have hquit : Command.quit.render = (passwordResponse user password).render :=
    congrArg Transmit.data heq
  have hhead := head?_passwordResponse user password
  rw [← hquit] at hhead
  revert hhead
  decide

def Capabilities.knowsPlain (caps : Capabilities) : Bool := Mechanism.plain.isIn caps.mechanisms

theorem Capabilities.knowsPlain_of_supportsPlain {caps : Capabilities}
    (h : caps.supportsPlain = true) : caps.knowsPlain = true := by
  rw [supportsPlain, Bool.and_eq_true] at h
  exact h.2

/-- A line that brings PLAIN announces by itself that a password can be sent. -/
theorem Capabilities.knowsPlain_addLine {caps : Capabilities} {text : String}
    (h : (caps.addLine text).knowsPlain = true) :
    caps.knowsPlain = true ∨ (empty.addLine text).supportsPlain = true := by
  rcases (isIn_mechanisms_addLine caps text .plain).mp h with hbefore | ⟨parameters, hauth, hplain⟩
  · exact Or.inl hbefore
  · refine Or.inr ?_
    rw [supportsPlain, Bool.and_eq_true, supports_addLine, isIn_mechanisms_addLine]
    exact ⟨Or.inr ⟨parameters, hauth⟩, Or.inr ⟨parameters, hauth, hplain⟩⟩

/-- PLAIN comes to be known only by the line that announces it. -/
theorem Capabilities.knowsPlain_addReply {caps : Capabilities} {reply : Reply}
    (h : (caps.addReply reply).knowsPlain = true) :
    caps.knowsPlain = true ∨ (empty.addLine reply.text).supportsPlain = true := by
  have hline {named : Capabilities} (hnamed : named.knowsPlain = caps.knowsPlain)
      (hadded : (named.addLine reply.text).knowsPlain = true) :
      caps.knowsPlain = true ∨ (empty.addLine reply.text).supportsPlain = true :=
    hnamed ▸ knowsPlain_addLine hadded
  unfold addReply at h
  split at h
  · have hsame : ({ caps with
        hostname := String.ofList (firstWord reply.text.toList) } : Capabilities).knowsPlain =
          caps.knowsPlain := rfl
    exact hline hsame h
  · exact hline rfl h

namespace Dialogue

structure SameMeans (d next : Dialogue) : Prop where
  settings_eq : next.settings = d.settings
  password_eq : next.password = d.password
  passwordRequested_eq : next.passwordRequested = d.passwordRequested
  passwordSent_eq : next.passwordSent = d.passwordSent
  authenticated_eq : next.authenticated = d.authenticated

structure Aloof (d : Dialogue) (r : Outcome) : Prop extends SameMeans d r.1 where
  parked_of : r.1.parked = true → d.parked = true
  phase_of : r.1.phase = .disconnected → d.phase = .disconnected
  capabilities_eq : r.1.capabilities = d.capabilities ∨ r.1.capabilities = .empty
  auth_of : .auth ∈ r.1.pipeline.verbs → .auth ∈ d.pipeline.verbs
  ehlo_of : .ehlo ∈ r.1.pipeline.verbs → .ehlo ∈ d.pipeline.verbs ∨ r.1.capabilities = .empty
  mail_of : .mail ∈ r.1.pipeline.verbs → .mail ∈ d.pipeline.verbs ∨ d.mustAuthenticate = false
  output : ∃ new, r.1.outbound = d.outbound ++ new ∧ ∀ t ∈ new, ¬t.IsResponse
  unasked : ∀ user host, .passwordRequested user host ∉ r.2

theorem SameMeans.mustAuthenticate_eq {d next : Dialogue} (h : d.SameMeans next) :
    next.mustAuthenticate = d.mustAuthenticate := by
  rw [mustAuthenticate, h.settings_eq, h.authenticated_eq, mustAuthenticate]

theorem SameMeans.trans {d next last : Dialogue} (h : d.SameMeans next) (h' : next.SameMeans last) :
    d.SameMeans last :=
  ⟨h'.settings_eq.trans h.settings_eq, h'.password_eq.trans h.password_eq,
    h'.passwordRequested_eq.trans h.passwordRequested_eq,
    h'.passwordSent_eq.trans h.passwordSent_eq, h'.authenticated_eq.trans h.authenticated_eq⟩

theorem Aloof.trans {d next : Dialogue} {r : Outcome} (h : d.Aloof (next, []))
    (h' : next.Aloof r) : d.Aloof r := by
  obtain ⟨new, hnew, hnone⟩ := h.output
  obtain ⟨new', hnew', hnone'⟩ := h'.output
  have hforgotten (hempty : next.capabilities = .empty) : r.1.capabilities = .empty := by
    rcases h'.capabilities_eq with hsame | hgone
    · rw [hsame, hempty]
    · exact hgone
  refine ⟨h.toSameMeans.trans h'.toSameMeans, fun hp => h.parked_of (h'.parked_of hp),
    fun hp => h.phase_of (h'.phase_of hp), ?_, fun ha => h.auth_of (h'.auth_of ha), ?_, ?_,
    ⟨new ++ new', by rw [hnew', hnew, List.append_assoc], ?_⟩, h'.unasked⟩
  · rcases h.capabilities_eq with hsame | hgone
    · rw [← hsame]
      exact h'.capabilities_eq
    · exact Or.inr (hforgotten hgone)
  · intro hmem
    rcases h'.ehlo_of hmem with hnext | hgone
    · exact (h.ehlo_of hnext).imp_right hforgotten
    · exact Or.inr hgone
  · intro hmem
    rcases h'.mail_of hmem with hnext | hdone
    · exact h.mail_of hnext
    · exact Or.inr (h.toSameMeans.mustAuthenticate_eq ▸ hdone)
  · intro t ht
    rcases List.mem_append.mp ht with ht | ht
    · exact hnone t ht
    · exact hnone' t ht

/-- A step that sends nothing. -/
theorem aloof_of_unsent {d : Dialogue} {r : Outcome} (hm : d.SameMeans r.1)
    (hp : r.1.parked = true → d.parked = true)
    (hphase : r.1.phase = .disconnected → d.phase = .disconnected)
    (hc : r.1.capabilities = d.capabilities ∨ r.1.capabilities = .empty)
    (hv : r.1.pipeline.verbs ⊆ d.pipeline.verbs) (ho : r.1.outbound = d.outbound)
    (he : ∀ user host, .passwordRequested user host ∉ r.2) : d.Aloof r :=
  ⟨hm, hp, hphase, hc, fun h => hv h, fun h => Or.inl (hv h), fun h => Or.inl (hv h),
    ⟨[], by simp [ho], by simp⟩, he⟩

/-- A change of marks that do not matter for authentication. -/
theorem aloof_of_eq {d next : Dialogue}
    (h : { next with
      envelope := d.envelope
      recipientsSent := d.recipientsSent
      replyTexts := d.replyTexts
      encrypted := d.encrypted
      greetingDue := d.greetingDue
      batched := d.batched
      succeeded := d.succeeded } = d) : d.Aloof (next, []) := by
  rw [← h]
  exact aloof_of_unsent ⟨rfl, rfl, rfl, rfl, rfl⟩ id id (Or.inl rfl) (List.Subset.refl _) rfl
    (by simp)

theorem aloof_put (d : Dialogue) {data : Bytes} (h : ¬(Transmit.raw data).IsResponse) :
    d.Aloof (d.put data, []) :=
  ⟨⟨rfl, rfl, rfl, rfl, rfl⟩, id, id, Or.inl rfl, id, Or.inl, Or.inl,
    ⟨[.raw data], rfl, by simpa using h⟩, by simp⟩

/-- A command leaves authentication alone if it is not AUTH, and is EHLO or MAIL only where these
are due. -/
theorem aloof_send (d : Dialogue) (c : Command) (ha : c.verb ≠ .auth)
    (he : c.verb = .ehlo → d.capabilities = .empty)
    (hm : c.verb = .mail → d.mustAuthenticate = false) : d.Aloof (d.send c, []) := by
  refine ⟨⟨rfl, rfl, rfl, rfl, rfl⟩, id, id, Or.inl rfl, fun h => ?_, fun h => ?_, fun h => ?_,
    ⟨_, rfl, fun t ht => not_isResponse_of_tags (Pipeline.tags_drain _ t ht)⟩, by simp⟩
  · exact ((d.mem_verbs_send c .auth).mp h).resolve_right (Ne.symm ha)
  · exact ((d.mem_verbs_send c .ehlo).mp h).imp_right fun heq => he heq.symm
  · exact ((d.mem_verbs_send c .mail).mp h).imp_right fun heq => hm heq.symm

/-- Most commands have nothing to do with it. -/
theorem aloof_send_other (d : Dialogue) {c : Command}
    (h : c.verb ≠ .auth ∧ c.verb ≠ .ehlo ∧ c.verb ≠ .mail) : d.Aloof (d.send c, []) :=
  d.aloof_send c h.1 (fun he => absurd he h.2.1) fun hm => absurd hm h.2.2

/-- A failure has no part in authentication: QUIT, if it goes out, is no response. -/
theorem aloof_fail (d : Dialogue) (error : Error) (mayQuit : Bool) :
    d.Aloof (d.fail error mayQuit) := by
  rw [fail_eq]
  refine ⟨⟨rfl, rfl, rfl, rfl, rfl⟩, by simp, by simp, Or.inl rfl, by simp [Pipeline.verbs_clear],
    by simp [Pipeline.verbs_clear], by simp [Pipeline.verbs_clear],
    ⟨d.farewell mayQuit, rfl, fun t ht => ?_⟩, by simp⟩
  unfold farewell at ht
  split at ht
  · rw [List.mem_singleton.mp ht]
    exact not_isResponse_quit
  · cases ht

theorem aloof_close (d : Dialogue) : d.Aloof (d.close, []) :=
  aloof_of_unsent ⟨rfl, rfl, rfl, rfl, rfl⟩ id (by simp [close]) (Or.inl rfl) (List.nil_subset _)
    rfl (by simp)

theorem verb_payload (p : Payload) :
    p.command.verb ≠ .auth ∧ p.command.verb ≠ .ehlo ∧ p.command.verb ≠ .mail := by
  cases p <;> simp [Payload.command, Command.verb]

/-- A batch begins with MAIL, so it may go out where authentication need not be done any more. -/
theorem aloof_sendBatch {d : Dialogue} (ha : d.mustAuthenticate = false) (e : Envelope)
    (size : Option Nat) : d.Aloof (d.sendBatch e size, []) := by
  have hpayload := verb_payload e.payload
  have hverbs {verb : Verb} (hmem : verb ∈ (d.sendBatch e size).pipeline.verbs)
      (hmail : verb ≠ .mail) (hrcpt : verb ≠ .rcpt) (hlast : e.payload.command.verb ≠ verb) :
      verb ∈ d.pipeline.verbs := by
    have hsent := (Pipeline.mem_verbs_drainAll _ verb).mp hmem
    rw [Pipeline.mem_verbs_foldl_enqueue, map_verb_transaction] at hsent
    refine hsent.resolve_right fun hnew => ?_
    simp only [List.cons_append, List.mem_cons, List.mem_append, List.mem_replicate,
      List.not_mem_nil, or_false] at hnew
    rcases hnew with heq | ⟨-, heq⟩ | heq
    · exact hmail heq
    · exact hrcpt heq
    · exact hlast heq.symm
  exact ⟨⟨rfl, rfl, rfl, rfl, rfl⟩, id, by simp [sendBatch], Or.inl rfl,
    fun h => hverbs h (by simp) (by simp) hpayload.1,
    fun h => Or.inl (hverbs h (by simp) (by simp) hpayload.2.1), fun _ => Or.inr ha,
    ⟨_, rfl, fun t ht => not_isResponse_of_tags (Pipeline.tags_drainAll _ t ht)⟩, by simp⟩

/-- However the transaction begins, the means of authentication stay as they are. -/
theorem Beginning.aloof {d : Dialogue} {r : Outcome} (h : d.Beginning r)
    (ha : d.mustAuthenticate = false) : d.Aloof r := by
  cases h with
  | failed error => exact d.aloof_fail error true
  | batch e size => exact aloof_sendBatch ha e size
  | sender e size =>
    exact d.aloof_send _ (by simp [Command.verb]) (by simp [Command.verb]) fun _ => ha

inductive Arranges (d : Dialogue) (r : Outcome) : Prop
  | aloof (h : d.Aloof r)
  | parks (ha : d.mustAuthenticate = true) (hs : d.capabilities.supportsPlain = true)
    (hp : d.password = none) (hr : d.passwordRequested = true)
    (h : r = ({ d with parked := true }, []))
  | asks (ha : d.mustAuthenticate = true) (hs : d.capabilities.supportsPlain = true)
    (hp : d.password = none) (hr : d.passwordRequested = false)
    (h : r = requestPassword { d with parked := true })
  | authenticates (ha : d.mustAuthenticate = true) (hs : d.capabilities.supportsPlain = true)
    (hp : d.password ≠ none) (h : r = (d.startAuth, []))

/-- After the greetings a dialogue leaves authentication alone, asks for the password, or sends
AUTH. -/
theorem Negotiation.arranges {d : Dialogue} {r : Outcome} (h : d.Negotiation r) :
    d.Arranges r := by
  cases h with
  | failed error => exact .aloof (d.aloof_fail error true)
  | startTls => exact .aloof (d.aloof_send_other (by simp [Command.verb]))
  | park _ ha hs hp hr => exact .parks ha hs hp hr rfl
  | ask _ ha hs hp hr => exact .asks ha hs hp hr rfl
  | auth _ ha hs hp => exact .authenticates ha hs hp rfl
  | begun _ ha => exact .aloof (d.beginTransaction_beginning.aloof ha)

def Announces (d : Dialogue) (call : Call) : Prop :=
  ∃ line reply, call = .line line ∧ d.awaited = some (.answer .ehlo) ∧
    Reply.parse line = .ok reply ∧ reply.code = 250 ∧
    (Capabilities.empty.addLine reply.text).supportsPlain = true

structure Follows (d : Dialogue) (call : Call) (s : Dialogue) : Prop extends SameMeans d s where
  ungiven : ∀ text, call ≠ .password text
  parked_eq : s.parked = d.parked
  outbound_eq : s.outbound = d.outbound
  pipeline_eq : s.pipeline = d.answered call
  phase_of : s.phase = .disconnected → d.phase = .disconnected
  plain_of : s.capabilities.knowsPlain = true → d.capabilities.knowsPlain = true ∨ d.Announces call

inductive Deals (d : Dialogue) (call : Call) (r : Outcome) : Prop
  | follows (s : Dialogue) (hs : d.Follows call s) (h : s.Arranges r)
  | learns (text : String) (hcall : call = .password text)
    (hidle : d.parked = false ∨ d.phase = .closed) (h : r = ({ d with password := some text }, []))
  | resumes (text : String) (hcall : call = .password text) (hp : d.parked = true)
    (hopen : d.phase ≠ .closed)
    (h : r = (startAuth { d with password := some text, parked := false }, []))
  | requests (e : Envelope) (hcall : call = .submit e) (hnew : d.envelope = none)
    (hphase : d.phase = .disconnected) (ha : d.settings.requireAuth = true)
    (hp : d.password = none)
    (h : r = ({ d with envelope := some e, passwordRequested := true },
      [.total e.payload.total, .progress 0,
        .passwordRequested d.settings.user d.settings.host]))
  | responds (f : InFlight) (password : String) (hreply : d.reply? call = some (f, 334))
    (hverb : f.verb = .auth) (hfirst : d.passwordSent = false) (hp : d.password = some password)
    (h : r = ({ d.put (passwordResponse d.settings.user password).render with
      replyTexts := []
      passwordSent := true }, []))
  | accepted (f : InFlight) (s : Dialogue) (hs : d.Follows call s)
    (hanswer : d.answer? call = some (f, 235)) (hverb : f.verb = .auth)
    (h : Aloof { s with authenticated := true } r)
  | polls (hcall : call = .poll) (h : r = (d.poll.2, []))

theorem follows_self {d : Dialogue} {call : Call} (hcall : ∀ text, call ≠ .password text)
    (h : d.reply? call = none) : d.Follows call d :=
  ⟨⟨rfl, rfl, rfl, rfl, rfl⟩, hcall, rfl, rfl, (answered_of_reply?_eq_none h).symm, id, Or.inl⟩

theorem Aloof.deals {d : Dialogue} {call : Call} {r : Outcome} (h : d.Aloof r)
    (hcall : ∀ text, call ≠ .password text) (hreply : d.reply? call = none) : d.Deals call r :=
  .follows d (follows_self hcall hreply) (.aloof h)

theorem phase_settle_of_disconnected {d : Dialogue} {awaited : Awaited} {code : Code}
    (h : (settle { d with replyTexts := [] } awaited code).phase = .disconnected) :
    d.phase = .disconnected := by
  unfold settle at h
  split at h
  · exact h
  · split at h
    · exact h
    · dsimp only at h
      split at h
      · cases h
      · exact h

/-- A reply that has been counted leaves the means of authentication as they were. -/
theorem follows_settle {d : Dialogue} {line : Bytes} {awaited : Awaited} {reply : Reply}
    (hopen : d.isFinished = false) (hw : d.awaited = some awaited)
    (hparse : Reply.parse line = .ok reply) (hc : reply.continues = false) :
    d.Follows (.line line) (settle { d with replyTexts := [] } awaited reply.code) := by
  have hmarks : d.SameMeans (settle { d with replyTexts := [] } awaited reply.code) ∧
      (settle { d with replyTexts := [] } awaited reply.code).parked = d.parked := by
    obtain ⟨_, _, _, heq⟩ := settle_eq { d with replyTexts := [] } awaited reply.code
    rw [heq]
    exact ⟨⟨rfl, rfl, rfl, rfl, rfl⟩, rfl⟩
  exact ⟨hmarks.1, by simp, hmarks.2, by simp, pipeline_settle hopen hw hparse hc,
    phase_settle_of_disconnected, by simpa using Or.inl⟩

/-- What a line of a reply to EHLO announces is known from then on. -/
theorem Follows.addReply {d s : Dialogue} {line : Bytes} {reply : Reply}
    (h : d.Follows (.line line) s) (hw : d.awaited = some (.answer .ehlo))
    (hparse : Reply.parse line = .ok reply) (hcode : reply.code = 250) :
    d.Follows (.line line) { s with capabilities := d.capabilities.addReply reply } := by
  refine ⟨⟨h.settings_eq, h.password_eq, h.passwordRequested_eq, h.passwordSent_eq,
    h.authenticated_eq⟩, h.ungiven, h.parked_eq, h.outbound_eq, h.pipeline_eq, h.phase_of, ?_⟩
  intro hplain
  rcases Capabilities.knowsPlain_addReply hplain with hknown | hline
  · exact Or.inl hknown
  · exact Or.inr ⟨line, reply, rfl, hw, hparse, hcode, hline⟩

theorem aloof_sendNextRecipient (d : Dialogue) : d.Aloof (d.sendNextRecipient, []) := by
  unfold sendNextRecipient
  split
  · exact aloof_of_eq rfl
  · next e he =>
    split
    · have hcount : d.Aloof ({ d with recipientsSent := d.recipientsSent + 1 }, []) :=
        aloof_of_eq rfl
      exact hcount.trans (aloof_send_other _ (by simp [Command.verb]))
    · exact d.aloof_send_other (verb_payload e.payload)

/-- Events that ask for no password change nothing about a step. -/
theorem Aloof.report {d next : Dialogue} (h : d.Aloof (next, [])) {events : List Event}
    (he : ∀ user host, .passwordRequested user host ∉ events) : d.Aloof (next, events) :=
  ⟨h.toSameMeans, h.parked_of, h.phase_of, h.capabilities_eq, h.auth_of, h.ehlo_of, h.mail_of,
    h.output, he⟩

theorem aloof_sendBody (d : Dialogue) : d.Aloof d.sendBody := by
  unfold sendBody
  split
  · next data _ => exact (d.aloof_put (not_isResponse_body data)).report (by simp)
  · exact d.aloof_fail _ _

theorem aloof_succeed (d : Dialogue) : d.Aloof d.succeed := by
  have hmark : d.Aloof ({ d with succeeded := true }, []) := aloof_of_eq rfl
  refine (hmark.trans (aloof_send_other _ (c := Command.quit) (by simp [Command.verb]))).report ?_
  intro user host
  split <;> simp

theorem aloof_greet {d : Dialogue} {phase : Phase}
    (hphase : phase = .disconnected → d.phase = .disconnected) (encrypted : Bool) :
    d.Aloof (greet { d with phase := phase, encrypted := encrypted }, []) := by
  have hmark : d.Aloof ({ d with
      phase := phase, encrypted := encrypted, capabilities := .empty }, []) :=
    aloof_of_unsent ⟨rfl, rfl, rfl, rfl, rfl⟩ id hphase (Or.inr rfl)
      (List.Subset.refl _) rfl (by simp)
  exact hmark.trans
    (aloof_send _ _ (by simp [Command.verb]) (fun _ => rfl) (by simp [Command.verb]))

/-- A complete reply, by the decision that is listed for it. -/
theorem deals_reactTo {d : Dialogue} {line : Bytes} {awaited : Awaited} {reply : Reply}
    (hopen : d.isFinished = false) (hw : d.awaited = some awaited)
    (hparse : Reply.parse line = .ok reply) (hc : reply.continues = false) (text : String)
    {decision : Decision} (hl : Decision.Listed reply.code awaited decision) :
    d.Deals (.line line) (d.reactTo awaited reply text decision) := by
  have hs := follows_settle hopen hw hparse hc
  have haloof {r : Outcome}
      (h : (settle { d with replyTexts := [] } awaited reply.code).Aloof r) :
      d.Deals (.line line) r := .follows _ hs (.aloof h)
  have hcapabilities : (settle { d with replyTexts := [] } awaited reply.code).capabilities =
      d.capabilities := by simp
  unfold reactTo
  generalize hcounted : settle { d with replyTexts := [] } awaited reply.code = s
    at hs haloof hcapabilities
  cases hl with
  | greet => exact haloof (aloof_greet (by simp) s.encrypted)
  | announce hcode =>
    rw [act, hcapabilities]
    exact .follows _ (hs.addReply hw hparse hcode) (negotiate_negotiation _).arranges
  | retry =>
    have hforget : s.Aloof ({ s with capabilities := .empty }, []) :=
      aloof_of_unsent ⟨rfl, rfl, rfl, rfl, rfl⟩ id id (Or.inr rfl) (List.Subset.refl _) rfl
        (by simp)
    exact haloof (hforget.trans (aloof_send_other _ (by simp [Command.verb])))
  | negotiate => exact .follows s hs s.negotiate_negotiation.arranges
  | encrypt =>
    have hsame : s.Aloof (s, []) := aloof_of_eq rfl
    exact haloof (hsame.report (by simp))
  | sendPassword hcode =>
    have hline : d.Completes line .auth reply := ⟨hopen, hw, hparse, hc⟩
    obtain ⟨f, -, hverb, hreply⟩ := hline.reply?_eq
    rw [hcode] at hreply
    rw [settle_intermediate d .auth reply.code (by rw [hcode]; rfl)] at hcounted
    subst hcounted
    simp only [act, advance, sendPassword]
    split
    · exact haloof (aloof_fail _ _ _)
    · next hfirst =>
      split
      · exact haloof (aloof_fail _ _ _)
      · next password hp => exact .responds f password hreply hverb (by simpa using hfirst) hp rfl
  | beginTransaction hcode =>
    have hline : d.Completes line .auth reply := ⟨hopen, hw, hparse, hc⟩
    obtain ⟨f, -, hverb, hreply⟩ := hline.reply?_eq
    rw [hcode] at hreply
    refine .accepted f s hs (by rw [answer?, hreply]; rfl) hverb ?_
    exact (beginTransaction_beginning _).aloof (by simp [mustAuthenticate])
  | firstRecipient | nextRecipient =>
    simp only [act, advance]
    split
    · exact haloof (aloof_of_eq rfl)
    · exact haloof s.aloof_sendNextRecipient
  | sendBody => exact haloof s.aloof_sendBody
  | quitAfterData | quitAfterBurl => exact haloof s.aloof_succeed
  | close => exact haloof s.aloof_close
  | fail _ refusal =>
    simp only [act]
    split
    · exact haloof s.aloof_close
    · exact haloof (s.aloof_fail _ _)

/-- What a line has to do with authentication, by how the line is read. -/
theorem deals_takeLine (d : Dialogue) (line : Bytes) : d.Deals (.line line) (d.takeLine line) := by
  have hnone (h : ∀ verb reply, ¬d.Completes line verb reply) : d.reply? (.line line) = none :=
    reply?_line_of_not_completes h
  have hread := d.takeLine_reading line
  generalize d.takeLine line = r at hread ⊢
  cases hread with
  | closed hclosed =>
    have hsame : d.Aloof (d, []) := aloof_of_eq rfl
    exact hsame.deals (by simp) (hnone fun verb reply h => by simp [h.unfinished] at hclosed)
  | malformed error _ hparse =>
    exact (d.aloof_fail error true).deals (by simp)
      (hnone fun verb reply h => by simp [h.parse_eq] at hparse)
  | unasked reply _ _ hidle =>
    exact (d.aloof_fail _ _).deals (by simp)
      (hnone fun verb reply h => by simp [h.awaited_eq] at hidle)
  | held reply awaited _ hparse hw hc =>
    have hreply : d.reply? (.line line) = none := by
      refine hnone fun verb reply' h => ?_
      have hsame := hparse.symm.trans h.parse_eq
      cases hsame
      simp [h.last] at hc
    unfold holdLine
    split
    · next hannounce =>
      have hl := Decision.listed_of awaited reply.code
      rw [hannounce] at hl
      cases hl with
      | announce hcode =>
        exact .follows _ ((follows_self (by simp) hreply).addReply hw hparse hcode)
          (.aloof (aloof_of_eq rfl))
    · have hheld : d.Aloof ({ d with replyTexts := d.replyTexts ++ [reply.text] }, []) :=
        aloof_of_eq rfl
      exact hheld.deals (by simp) hreply
  | completed reply awaited hopen hparse hw hc =>
    exact deals_reactTo hopen hw hparse hc _ (Decision.listed_of awaited reply.code)

/-- A submission asks for the password if it is needed and not known. -/
theorem deals_submit (d : Dialogue) (e : Envelope) :
    d.Deals (.submit e) ((d.perform (.submit e)).1, d.eventsOf (.submit e)) := by
  cases hnew : d.envelope.isSome || d.phase != .disconnected with
  | true =>
    have hsame : d.Aloof (d, []) := aloof_of_eq rfl
    simpa [perform, eventsOf, submit, hnew] using Aloof.deals hsame (by simp) rfl
  | false =>
    have hfresh : d.envelope = none ∧ d.phase = .disconnected := by simpa using hnew
    cases hask : d.settings.requireAuth && d.password.isNone with
    | true =>
      have hneeded : d.settings.requireAuth = true ∧ d.password = none := by simpa using hask
      refine .requests e rfl hfresh.1 hfresh.2 hneeded.1 hneeded.2 ?_
      simp [perform, eventsOf, submit, hnew, hask, requestPassword, Answer.ofEvents]
    | false =>
      have hgiven : d.Aloof ({ d with envelope := some e }, []) := aloof_of_eq rfl
      have hsubmitted : d.Aloof ({ d with envelope := some e },
          [.total e.payload.total, .progress 0]) := hgiven.report (by simp)
      simpa [perform, eventsOf, submit, hnew, hask, Answer.ofEvents] using
        Aloof.deals hsubmitted (by simp) rfl

/-- What any call has to do with authentication, by cases of the call. -/
theorem deals (d : Dialogue) (call : Call) :
    d.Deals call ((d.perform call).1, d.eventsOf call) := by
  have hsame : d.Aloof (d, []) := aloof_of_eq rfl
  cases call with
  | submit e => exact d.deals_submit e
  | connected =>
    refine Aloof.deals ?_ (by simp) rfl
    change d.Aloof (d.connect, [])
    unfold connect
    split
    · exact aloof_of_unsent ⟨rfl, rfl, rfl, rfl, rfl⟩ id (by simp) (Or.inl rfl)
        (List.Subset.refl _) rfl (by simp)
    · exact hsame
  | line line => exact d.deals_takeLine line
  | password text =>
    change d.Deals (.password text) (d.givePassword text, [])
    unfold givePassword
    split
    · next hwaits =>
      simp only [Bool.and_eq_true, Bool.not_eq_true', isFinished_eq_false_iff] at hwaits
      exact .resumes text rfl hwaits.1 hwaits.2 rfl
    · next hidle =>
      refine .learns text rfl ?_ rfl
      simpa [isFinished, or_iff_not_imp_left] using hidle
  | encrypted =>
    refine Aloof.deals ?_ (by simp) rfl
    change d.Aloof (d.encrypt, [])
    unfold encrypt
    split
    · exact hsame
    · exact aloof_greet id true
  | cancel =>
    refine Aloof.deals ?_ (by simp) rfl
    change d.Aloof d.cancel
    unfold cancel
    split
    · exact hsame
    · exact d.aloof_fail _ _
  | lost error =>
    refine Aloof.deals ?_ (by simp) rfl
    change d.Aloof (d.disconnect error)
    unfold disconnect
    split
    · exact hsame
    · split
      · exact aloof_of_unsent ⟨rfl, rfl, rfl, rfl, rfl⟩ id (by simp) (Or.inl rfl)
          (List.Subset.refl _) rfl (by simp)
      · exact d.aloof_fail _ _
  | poll => exact .polls rfl rfl

end Dialogue

end SmtpClient
