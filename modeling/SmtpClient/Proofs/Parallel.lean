import Mathlib.Data.List.Forall2
import SmtpClient.Proofs.Credentials

namespace SmtpClient

inductive Call.SameButPassword : Call → Call → Prop
  | password (text text' : String) : SameButPassword (.password text) (.password text')
  | same (call : Call) : SameButPassword call call

structure Answer.Parallel (R : Transmit → Transmit → Prop) (a a' : Answer) : Prop where
  events_eq : a'.events = a.events
  transmit : Option.Rel R a.transmit a'.transmit
  refusal_eq : a'.refusal = a.refusal

namespace Dialogue

def under (d : Dialogue) (password : Option String) (outbound : List Transmit) : Dialogue :=
  { d with password := password, outbound := outbound }

/-- A dialogue that differs from another only in the password and in what waits to be written, where
one datum corresponds to one of the other dialogue. -/
structure Beside (R : Transmit → Transmit → Prop) (d d' : Dialogue) : Prop where
  same : d' = d.under d'.password d'.outbound
  outbound : List.Forall₂ R d.outbound d'.outbound

structure Parallel (R : Transmit → Transmit → Prop) (r r' : Outcome) : Prop where
  beside : Beside R r.1 r'.1
  events_eq : r'.2 = r.2

structure Agrees (R : Transmit → Transmit → Prop) (d : Dialogue) (password : Option String) :
    Prop where
  known : d.settings.requireAuth = true → password.isSome = d.password.isSome
  response : d.awaited = some (.answer .auth) →
    Option.Rel (fun p p' => R (.raw (passwordResponse d.settings.user p).render)
      (.raw (passwordResponse d.settings.user p').render)) d.password password

section Steps

variable {R : Transmit → Transmit → Prop} (hR : ∀ t, R t t) (d : Dialogue)
  (password : Option String) {outbound : List Transmit}

/-- A step that puts out the same in both dialogues. -/
theorem parallel_of_added {next next' : Dialogue} {out out' new : List Transmit}
    (hR : ∀ t, R t t) (ho : List.Forall₂ R out out') (hnext : next.outbound = out ++ new)
    (h : next' = next.under password (out' ++ new)) (events : List Event) :
    Parallel R (next, events) (next', events) := by
  subst h
  refine ⟨⟨rfl, ?_⟩, rfl⟩
  change List.Forall₂ R next.outbound (out' ++ new)
  rw [hnext]
  exact List.rel_append ho (List.forall₂_same.mpr fun t _ => hR t)

variable (ho : List.Forall₂ R d.outbound outbound)

include ho in
theorem parallel_self (events : List Event) :
    Parallel R (d, events) (d.under password outbound, events) :=
  ⟨⟨rfl, ho⟩, rfl⟩

include hR ho

/-- A failure does not look at the password, nor at what waits to be written. -/
theorem parallel_fail (error : Error) (mayQuit : Bool) :
    Parallel R (d.fail error mayQuit) ((d.under password outbound).fail error mayQuit) := by
  rw [fail_eq, fail_eq]
  exact parallel_of_added password hR ho rfl rfl _

theorem parallel_put (data : Bytes) (events : List Event) :
    Parallel R (d.put data, events) ((d.under password outbound).put data, events) :=
  parallel_of_added password hR ho rfl rfl _

theorem parallel_send (c : Command) (events : List Event) :
    Parallel R (d.send c, events) ((d.under password outbound).send c, events) :=
  parallel_of_added password hR ho rfl rfl _

/-- The transaction begins in the same way whatever the password is. -/
theorem parallel_beginTransaction :
    Parallel R d.beginTransaction (d.under password outbound).beginTransaction := by
  unfold beginTransaction
  have henvelope : (d.under password outbound).envelope = d.envelope := rfl
  have hcapabilities : (d.under password outbound).capabilities = d.capabilities := rfl
  rw [henvelope, hcapabilities]
  split
  · exact d.parallel_fail hR password ho _ _
  · next e _ =>
    split
    · exact d.parallel_fail hR password ho _ _
    · split
      · exact parallel_of_added password hR ho rfl rfl _
      · exact d.parallel_send hR password ho _ _

theorem parallel_sendNextRecipient :
    Parallel R (d.sendNextRecipient, []) ((d.under password outbound).sendNextRecipient, []) := by
  unfold sendNextRecipient
  have henvelope : (d.under password outbound).envelope = d.envelope := rfl
  have hcount : (d.under password outbound).recipientsSent = d.recipientsSent := rfl
  rw [henvelope, hcount]
  split
  · exact d.parallel_self password ho _
  · split
    · exact parallel_send hR { d with recipientsSent := d.recipientsSent + 1 } password ho _ _
    · exact d.parallel_send hR password ho _ _

theorem parallel_sendBody : Parallel R d.sendBody (d.under password outbound).sendBody := by
  unfold sendBody
  have henvelope : (d.under password outbound).envelope = d.envelope := rfl
  rw [henvelope]
  split
  · exact d.parallel_put hR password ho _ _
  · exact d.parallel_fail hR password ho _ _

/-- Only the answer to a challenge is made from the password. -/
theorem parallel_sendPassword
    (hp : Option.Rel (fun p p' => R (.raw (passwordResponse d.settings.user p).render)
      (.raw (passwordResponse d.settings.user p').render)) d.password password) :
    Parallel R d.sendPassword (d.under password outbound).sendPassword := by
  unfold sendPassword
  have hsent : (d.under password outbound).passwordSent = d.passwordSent := rfl
  have hpassword : (d.under password outbound).password = password := rfl
  rw [hsent, hpassword]
  split
  · exact d.parallel_fail hR password ho _ _
  · generalize hgiven : d.password = given at hp
    cases hp with
    | none => exact d.parallel_fail hR none ho _ _
    | some hresponse =>
      exact ⟨⟨rfl, List.rel_append ho (List.Forall₂.cons hresponse List.Forall₂.nil)⟩, rfl⟩

/-- Only whether the password is known decides how a dialogue goes on. -/
theorem parallel_negotiate
    (hp : d.settings.requireAuth = true → password.isSome = d.password.isSome) :
    Parallel R d.negotiate (d.under password outbound).negotiate := by
  change Parallel R (if d.mustEncrypt then _ else if d.mustAuthenticate then _ else _)
    (if d.mustEncrypt then _ else if d.mustAuthenticate then _ else _)
  split
  · change Parallel R (if d.capabilities.supports .startTls then _ else _)
      (if d.capabilities.supports .startTls then _ else _)
    split
    · exact d.parallel_send hR password ho _ _
    · exact d.parallel_fail hR password ho _ _
  · split
    · next hauth =>
      rw [mustAuthenticate, Bool.and_eq_true] at hauth
      have hnone : (d.under password outbound).password.isNone = d.password.isNone := by
        rw [← Option.not_isSome, ← Option.not_isSome, ← hp hauth.1]
        rfl
      have hplain : (d.under password outbound).capabilities = d.capabilities := rfl
      have hasked : (d.under password outbound).passwordRequested = d.passwordRequested := rfl
      rw [hnone, hplain, hasked]
      split
      · exact d.parallel_fail hR password ho _ _
      · split
        · split <;> exact ⟨⟨rfl, ho⟩, rfl⟩
        · exact parallel_send hR { d with passwordSent := false } password ho _ _
    · exact d.parallel_beginTransaction hR password ho

omit hR ho in
theorem settle_under (awaited : Awaited) (code : Code) :
    settle { d.under password outbound with replyTexts := [] } awaited code =
      (settle { d with replyTexts := [] } awaited code).under password outbound := by
  unfold settle
  split
  · rfl
  · split <;> rfl

/-- A decision looks at the password in two places: whether it is there, and what answers the
challenge. -/
theorem parallel_act (awaited : Awaited) (reply : Reply) (text : String) (decision : Decision)
    (hp : d.settings.requireAuth = true → password.isSome = d.password.isSome)
    (hresponse : decision = .advance .sendPassword →
      Option.Rel (fun p p' => R (.raw (passwordResponse d.settings.user p).render)
        (.raw (passwordResponse d.settings.user p').render)) d.password password) :
    Parallel R (d.act awaited reply text decision)
      ((d.under password outbound).act awaited reply text decision) := by
  cases decision with
  | announce =>
    exact parallel_negotiate hR { d with capabilities := d.capabilities.addReply reply } password ho
      hp
  | retry => exact parallel_send hR { d with capabilities := .empty } password ho _ _
  | advance move =>
    cases move with
    | greet =>
      exact parallel_send hR { d with phase := .ready, capabilities := .empty } password ho _ _
    | negotiate => exact d.parallel_negotiate hR password ho hp
    | encrypt => exact d.parallel_self password ho _
    | sendPassword => exact d.parallel_sendPassword hR password ho (hresponse rfl)
    | beginTransaction =>
      exact parallel_beginTransaction hR { d with authenticated := true } password ho
    | firstRecipient | nextRecipient =>
      simp only [act, advance]
      have hbatched : (d.under password outbound).batched = d.batched := rfl
      rw [hbatched]
      split
      · exact d.parallel_self password ho _
      · exact d.parallel_sendNextRecipient hR password ho
    | sendBody => exact d.parallel_sendBody hR password ho
    | quit => exact parallel_send hR { d with succeeded := true } password ho _ _
    | close => exact ⟨⟨rfl, ho⟩, rfl⟩
  | fail refusal =>
    simp only [act]
    have hs : (d.under password outbound).succeeded = d.succeeded := rfl
    rw [hs]
    split
    · exact ⟨⟨rfl, ho⟩, rfl⟩
    · exact d.parallel_fail hR password ho _ _

/-- A reply is acted on in the same way where both sides agree on what they have to share. -/
theorem parallel_takeReply (reply : Reply) (hp : d.Agrees R password) :
    Parallel R (d.takeReply reply) ((d.under password outbound).takeReply reply) := by
  have hawaited : (d.under password outbound).awaited = d.awaited := rfl
  cases hw : d.awaited with
  | none =>
    rw [takeReply_of_none _ _ hw, takeReply_of_none _ _ (hawaited.trans hw)]
    exact d.parallel_fail hR password ho _ _
  | some awaited =>
    cases hc : reply.continues with
    | true =>
      rw [takeReply_of_continues _ _ _ hw hc, takeReply_of_continues _ _ _ (hawaited.trans hw) hc]
      unfold holdLine
      split <;> exact ⟨⟨rfl, ho⟩, rfl⟩
    | false =>
      rw [takeReply_of_last _ _ _ hw hc, takeReply_of_last _ _ _ (hawaited.trans hw) hc, reactTo,
        reactTo, settle_under]
      obtain ⟨pipeline, phase, greetingDue, heq⟩ :=
        settle_eq { d with replyTexts := [] } awaited reply.code
      rw [heq]
      refine parallel_act hR { d with
        replyTexts := [], pipeline := pipeline, phase := phase, greetingDue := greetingDue }
        password ho awaited reply _ _ hp.known fun hdecision => ?_
      have hl := Decision.listed_of awaited reply.code
      rw [hdecision] at hl
      cases hl with
      | sendPassword => exact hp.response hw

/-- A line is read without the password. -/
theorem parallel_takeLine (line : Bytes) (hp : d.Agrees R password) :
    Parallel R (d.takeLine line) ((d.under password outbound).takeLine line) := by
  unfold takeLine
  have hfinished : (d.under password outbound).isFinished = d.isFinished := rfl
  rw [hfinished]
  split
  · exact d.parallel_self password ho _
  · split
    · exact d.parallel_takeReply hR password ho _ hp
    · exact d.parallel_fail hR password ho _ _

omit hR in
/-- A submission asks for the password where it is not known. -/
theorem parallel_submit (e : Envelope)
    (hp : d.settings.requireAuth = true → password.isSome = d.password.isSome) :
    Beside R (d.perform (.submit e)).1 ((d.under password outbound).perform (.submit e)).1 ∧
      Answer.Parallel R (d.perform (.submit e)).2
        ((d.under password outbound).perform (.submit e)).2 := by
  simp only [perform, submit]
  have henvelope : (d.under password outbound).envelope = d.envelope := rfl
  have hphase : (d.under password outbound).phase = d.phase := rfl
  have hsettings : (d.under password outbound).settings = d.settings := rfl
  rw [henvelope, hphase, hsettings]
  have hask : (d.settings.requireAuth && (d.under password outbound).password.isNone) =
      (d.settings.requireAuth && d.password.isNone) := by
    cases hauth : d.settings.requireAuth with
    | false => rfl
    | true =>
      rw [← Option.not_isSome, ← Option.not_isSome, ← hp hauth]
      rfl
  rw [hask]
  cases d.envelope.isSome || d.phase != .disconnected with
  | true => exact ⟨⟨rfl, ho⟩, rfl, .none, rfl⟩
  | false =>
    cases d.settings.requireAuth && d.password.isNone with
    | true => exact ⟨⟨rfl, ho⟩, rfl, .none, rfl⟩
    | false => exact ⟨⟨rfl, ho⟩, rfl, .none, rfl⟩

theorem parallel_givePassword (text text' : String) :
    Beside R (d.givePassword text) ((d.under password outbound).givePassword text') := by
  unfold givePassword
  have hfinished : (d.under password outbound).isFinished = d.isFinished := rfl
  have hparked : (d.under password outbound).parked = d.parked := rfl
  rw [hfinished, hparked]
  split
  · exact (parallel_send hR { d with
      password := some text, parked := false, passwordSent := false } (some text') ho _ []).beside
  · exact ⟨rfl, ho⟩

theorem parallel_disconnect (error : Error) :
    Parallel R (d.disconnect error) ((d.under password outbound).disconnect error) := by
  unfold disconnect
  have hfinished : (d.under password outbound).isFinished = d.isFinished := rfl
  have hs : (d.under password outbound).succeeded = d.succeeded := rfl
  rw [hfinished, hs]
  split
  · exact d.parallel_self password ho _
  · split
    · exact ⟨⟨rfl, ho⟩, rfl⟩
    · exact d.parallel_fail hR password ho _ _

theorem parallel_cancel : Parallel R d.cancel (d.under password outbound).cancel := by
  unfold cancel
  have hfinished : (d.under password outbound).isFinished = d.isFinished := rfl
  rw [hfinished]
  split
  · exact d.parallel_self password ho _
  · exact d.parallel_fail hR password ho _ _

/-- Two calls that differ in a password at most leave the dialogues beside each other, and are
answered alike. -/
theorem parallel_perform {call call' : Call} (hcall : Call.SameButPassword call call')
    (hp : d.Agrees R password) :
    Beside R (d.perform call).1 ((d.under password outbound).perform call').1 ∧
      Answer.Parallel R (d.perform call).2 ((d.under password outbound).perform call').2 := by
  have hreports {r r' : Outcome} (h : Parallel R r r') :
      Beside R r.1 r'.1 ∧ Answer.Parallel R (.ofEvents r.2) (.ofEvents r'.2) :=
    ⟨h.beside, h.events_eq, .none, rfl⟩
  cases hcall with
  | password text text' =>
    exact ⟨d.parallel_givePassword hR password ho text text', rfl, .none, rfl⟩
  | same =>
    cases call with
    | submit e => exact d.parallel_submit password ho e hp.known
    | connected =>
      refine ⟨?_, rfl, .none, rfl⟩
      simp only [perform, connect]
      have hphase : (d.under password outbound).phase = d.phase := rfl
      rw [hphase]
      split <;> exact ⟨rfl, ho⟩
    | line line => exact hreports (d.parallel_takeLine hR password ho line hp)
    | password text =>
      exact ⟨d.parallel_givePassword hR password ho text text, rfl, .none, rfl⟩
    | encrypted =>
      refine ⟨?_, rfl, .none, rfl⟩
      simp only [perform, encrypt]
      have hfinished : (d.under password outbound).isFinished = d.isFinished := rfl
      rw [hfinished]
      split
      · exact ⟨rfl, ho⟩
      · exact (parallel_send hR { d with encrypted := true, capabilities := .empty } password ho _
          []).beside
    | cancel => exact hreports (d.parallel_cancel hR password ho)
    | lost error => exact hreports (d.parallel_disconnect hR password ho error)
    | poll =>
      cases hd : d.outbound with
      | nil =>
        rw [hd] at ho
        cases ho
        exact ⟨⟨rfl, by simp [perform, poll, under, hd]⟩, rfl, by simp [perform, poll, under, hd],
          rfl⟩
      | cons t later =>
        rw [hd] at ho
        obtain ⟨t', later', ht, hlater, rfl⟩ := List.forall₂_cons_left_iff.mp ho
        refine ⟨⟨rfl, ?_⟩, rfl, ?_, rfl⟩
        · simpa [perform, poll, under, hd] using hlater
        · simpa [perform, poll, under, hd] using Option.Rel.some ht

end Steps

/-- Calls leave two dialogues beside each other, as long as they agree on the password. -/
theorem Beside.perform {R : Transmit → Transmit → Prop} (hR : ∀ t, R t t) {d d' : Dialogue}
    (h : Beside R d d') {call call' : Call} (hcall : Call.SameButPassword call call')
    (hp : d.Agrees R d'.password) :
    Beside R (d.perform call).1 (d'.perform call').1 ∧
      Answer.Parallel R (d.perform call).2 (d'.perform call').2 := by
  have hnext := d.parallel_perform hR d'.password h.outbound hcall hp
  rwa [← h.same] at hnext

end Dialogue

end SmtpClient
