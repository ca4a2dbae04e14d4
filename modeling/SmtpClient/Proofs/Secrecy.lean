import SmtpClient.Proofs.Parallel
import SmtpClient.Proofs.Waiting
import SmtpClient.Proofs.Authentication

namespace SmtpClient

inductive Transmit.Masks (user : String) : Transmit → Transmit → Prop
  | same (t : Transmit) : Masks user t t
  | responses (password password' : String) :
    Masks user (.raw (passwordResponse user password).render)
      (.raw (passwordResponse user password').render)

theorem Transmit.Masks.eq {user : String} {t t' : Transmit} (h : Masks user t t')
    (ht : ¬t.IsResponse) : t' = t := by
  cases h with
  | same => rfl
  | responses password password' => exact absurd ⟨user, password, rfl⟩ ht

/-- Where nothing that was put out is a response, both runs have put out the same. -/
theorem Transmit.Masks.eq_all {user : String} {ts ts' : List Transmit}
    (h : List.Forall₂ (Masks user) ts ts') (hnone : ∀ t ∈ ts, ¬t.IsResponse) : ts' = ts := by
  induction h with
  | nil => rfl
  | cons hmask _ ih =>
    rw [List.forall_mem_cons] at hnone
    rw [hmask.eq hnone.1, ih hnone.2]

def DifferInResponse (user : String) (ts ts' : List Transmit) : Prop :=
  ∃ before password password' later,
    ts = before ++ .raw (passwordResponse user password).render :: later ∧
    ts' = before ++ .raw (passwordResponse user password').render :: later ∧
    ∀ t ∈ before ++ later, ¬t.IsResponse

/-- Where at most one response was put out, it is the only difference. -/
theorem Transmit.Masks.differInResponse {user : String} {ts ts' : List Transmit}
    (h : List.Forall₂ (Masks user) ts ts')
    (hone : ts.Pairwise fun t u => t.IsResponse → ¬u.IsResponse) :
    ts' = ts ∨ DifferInResponse user ts ts' := by
  induction h with
  | nil => exact Or.inl rfl
  | @cons t t' later later' hmask hrest ih =>
    obtain ⟨hfirst, hlater⟩ := List.pairwise_cons.mp hone
    cases hmask with
    | same =>
      rcases ih hlater with rfl | ⟨before, password, password', rest, rfl, rfl, hnone⟩
      · exact Or.inl rfl
      · refine Or.inr ⟨t :: before, password, password', rest, rfl, rfl, ?_⟩
        have ht : ¬t.IsResponse := fun hresponse =>
          hfirst _ (by simp) hresponse ⟨user, password, rfl⟩
        rw [List.cons_append, List.forall_mem_cons]
        exact ⟨ht, hnone⟩
    | responses password password' =>
      have hnone : ∀ u ∈ later, ¬u.IsResponse := fun u hu => hfirst u hu ⟨user, password, rfl⟩
      obtain rfl := Masks.eq_all hrest hnone
      exact Or.inr ⟨[], password, password', later', rfl, rfl, hnone⟩

theorem Call.SameButPassword.password?_isSome {call call' : Call}
    (h : Call.SameButPassword call call') : call'.password?.isSome = call.password?.isSome := by
  cases h with
  | password | same => rfl

namespace Dialogue

/-- A reply to AUTH asks for the password, or accepts it, or ends the dialogue. -/
theorem of_reply_to_auth {d : Dialogue} {call : Call} {f : InFlight} {code : Code}
    (h : d.reply? call = some (f, code)) (hv : f.verb = .auth) :
    code = 334 ∨ (code = 235 ∧ (d.perform call).1.authenticated = true) ∨
      (d.perform call).1.phase = .closed := by
  obtain ⟨line, reply, rfl, -, hline, rfl⟩ := reply?_eq_some h
  rw [hv] at hline
  have hstep : (d.perform (.line line)).1 = (d.takeLine line).1 := rfl
  have hl := Decision.listed_of (.answer .auth) reply.code
  rw [hstep, hline.takeLine_eq]
  generalize Decision.of (.answer .auth) reply.code = decision at hl ⊢
  cases hl with
  | sendPassword hcode => exact Or.inl hcode
  | beginTransaction hcode =>
    have hbegun := (beginTransaction_beginning
      { settle { d with replyTexts := [] } (.answer .auth) reply.code with
        authenticated := true }).aloof (by simp [mustAuthenticate])
    exact Or.inr (Or.inl ⟨hcode, hbegun.authenticated_eq⟩)
  | fail _ refusal => exact Or.inr (Or.inr (phase_act_fail _ _ _ _ _))

/-- Authentication is never undone. -/
theorem authenticated_perform {d : Dialogue} (h : d.authenticated = true) (call : Call) :
    (d.perform call).1.authenticated = true := by
  cases d.deals call with
  | follows s hs hr =>
    have hkept : (d.perform call).1.authenticated = s.authenticated := hr.keeps.2
    rw [hkept, hs.authenticated_eq, h]
  | accepted f s hs _ _ hr => exact hr.authenticated_eq
  | learns text _ _ hr | resumes text _ _ _ hr | requests e _ _ _ _ _ hr
  | responds f password _ _ _ _ hr | polls _ hr =>
    rw [congrArg Prod.fst hr]
    exact h

/-- While the reply to AUTH is awaited, no line lets AUTH be sent again. -/
theorem passwordSent_takeLine {d : Dialogue} {f : InFlight} (hf : d.pipeline.awaiting = some f)
    (hv : f.verb = .auth) (hsent : d.passwordSent = true) (line : Bytes)
    (hopen : (d.takeLine line).1.phase ≠ .closed) : (d.takeLine line).1.passwordSent = true := by
  have hread := d.takeLine_reading line
  generalize d.takeLine line = r at hread hopen ⊢
  cases hread with
  | closed => exact hsent
  | malformed error | unasked reply => exact absurd (d.fail_phase _ _) hopen
  | held reply awaited =>
    unfold holdLine
    split <;> exact hsent
  | completed reply awaited _ _ hw =>
    have hl := Decision.listed_of awaited reply.code
    obtain ⟨pipeline, phase, greetingDue, heq⟩ :=
      settle_eq { d with replyTexts := [] } awaited reply.code
    rw [reactTo, heq] at hopen ⊢
    generalize Decision.of awaited reply.code = decision at hl hopen ⊢
    unfold Dialogue.awaited at hw
    split at hw
    · cases hw
      cases hl with
      | greet => exact hsent
      | fail _ refusal => exact absurd (phase_act_fail _ _ _ _ _) hopen
    · rw [hf, Option.map_some, hv] at hw
      cases hw
      cases hl with
      | sendPassword => simp [act, advance, sendPassword, hsent] at hopen
      | beginTransaction =>
        have hbegun := (beginTransaction_beginning { d with
          replyTexts := [], pipeline := pipeline, phase := phase, greetingDue := greetingDue
          authenticated := true }).aloof (by simp [mustAuthenticate])
        exact hbegun.passwordSent_eq.trans hsent
      | fail _ refusal => exact absurd (phase_act_fail _ _ _ _ _) hopen

structure Spent (d : Dialogue) : Prop where
  known : d.password ≠ none
  sent : d.passwordSent = true
  settled : d.authenticated = true ∨ ∃ f, d.pipeline.awaiting = some f ∧ f.verb = .auth

theorem Spent.passwordSent {d : Dialogue} (h : d.Spent) (hw : d.ParkedInWant) (call : Call)
    (hopen : (d.perform call).1.phase ≠ .closed) : (d.perform call).1.passwordSent = true := by
  have hbefore : d.phase ≠ .closed := fun hclosed => hopen (perform_of_closed hclosed call).1
  have hunparked : ¬d.parked = true := fun hp => h.known (hw hp hbefore)
  rcases h.settled with hdone | ⟨f, hf, hv⟩
  · cases d.deals call with
    | follows s hs hr =>
      cases hr with
      | aloof hr =>
        have hkept : (d.perform call).1.passwordSent = s.passwordSent := hr.passwordSent_eq
        rw [hkept, hs.passwordSent_eq, h.sent]
      | parks _ _ _ _ hr | asks _ _ _ _ hr =>
        rw [congrArg Prod.fst hr]
        exact hs.passwordSent_eq.trans h.sent
      | authenticates ha =>
        rw [mustAuthenticate, hs.authenticated_eq, hdone, Bool.not_true, Bool.and_false] at ha
        cases ha
    | accepted f s hs _ _ hr =>
      have hkept : (d.perform call).1.passwordSent = s.passwordSent := hr.passwordSent_eq
      rw [hkept, hs.passwordSent_eq, h.sent]
    | resumes _ _ hp => exact absurd hp hunparked
    | responds f password _ _ _ _ hr => rw [congrArg Prod.fst hr]
    | learns text _ _ hr | requests e _ _ _ _ _ hr | polls _ hr =>
      rw [congrArg Prod.fst hr]
      exact h.sent
  · -- AUTH is in flight, and a second challenge in answer to it ends the dialogue
    cases call with
    | line line => exact passwordSent_takeLine hf hv h.sent line hopen
    | submit e =>
      rcases d.perform_submit e with ⟨heq, -⟩ | ⟨-, -, requested, asked, heq, -⟩ <;> rw [heq] <;>
        exact h.sent
    | connected =>
      simp only [perform, connect]
      split <;> exact h.sent
    | password text =>
      simp only [perform, givePassword_of_unparked fun hp => absurd hp hunparked]
      exact h.sent
    | encrypted =>
      simp only [perform, encrypt]
      split <;> exact h.sent
    | cancel => exact absurd d.phase_cancel hopen
    | lost error => exact absurd (d.phase_disconnect error) hopen
    | poll => exact h.sent

/-- What is awaited stays so until it is answered for good. -/
theorem awaiting_perform {d : Dialogue} (htidy : d.pipeline.Tidy) {call : Call} {f : InFlight}
    (hf : d.pipeline.awaiting = some f) (hanswer : d.answer? call = none)
    (hopen : (d.perform call).1.phase ≠ .closed) :
    (d.perform call).1.pipeline.awaiting = some f := by
  obtain ⟨later, hlater⟩ := List.head?_eq_some_iff.mp hf
  cases outgoing htidy call with
  | none hclosed => exact absurd hclosed hopen
  | some cs _ hp =>
    rw [hp, answered, hanswer, Option.isSome_none, if_neg Bool.false_ne_true]
    rw [Pipeline.awaiting, Pipeline.sending, hlater]
    rfl

/-- A password that has been put out stays spent until the dialogue is closed. -/
theorem Spent.perform {d : Dialogue} (h : d.Spent) (hw : d.ParkedInWant) (htidy : d.pipeline.Tidy)
    (call : Call) (hopen : (d.perform call).1.phase ≠ .closed) : (d.perform call).1.Spent := by
  refine ⟨?_, h.passwordSent hw call hopen, ?_⟩
  · have hkept : (d.perform call).1.password = call.password?.or d.password :=
      (d.deals call).password_eq
    rw [hkept]
    cases call.password? with
    | none => exact h.known
    | some text => simp
  · rcases h.settled with hdone | ⟨f, hf, hv⟩
    · exact Or.inl (authenticated_perform hdone call)
    · cases hanswer : d.answer? call with
      | none => exact Or.inr ⟨f, awaiting_perform htidy hf hanswer hopen, hv⟩
      | some a =>
        obtain ⟨hreply, hfinal⟩ := Option.filter_eq_some_iff.mp hanswer
        obtain ⟨g, code⟩ := a
        obtain ⟨line, reply, -, hg, -⟩ := reply?_eq_some hreply
        obtain rfl : f = g := Option.some.inj (hf.symm.trans hg)
        rcases of_reply_to_auth hreply hv with rfl | ⟨-, hdone⟩ | hclosed
        · have hmid : Code.isIntermediate 334 = true := by decide
          simp [hmid] at hfinal
        · exact Or.inl hdone
        · exact absurd hclosed hopen

/-- The call that answers the challenge has spent the password. -/
theorem Responds.spent {d : Dialogue} {call : Call} {f : InFlight} {password : String}
    (h : d.Responds call f password) (htidy : d.pipeline.Tidy)
    (hopen : (d.perform call).1.phase ≠ .closed) : (d.perform call).1.Spent := by
  obtain ⟨line, reply, -, hf, -⟩ := reply?_eq_some h.reply_eq
  have hanswer : d.answer? call = none := by
    rw [answer?, h.reply_eq]
    rfl
  refine ⟨?_, h.noted, Or.inr ⟨f, awaiting_perform htidy hf hanswer hopen, h.verb_eq⟩⟩
  have hkept : (d.perform call).1.password = call.password?.or d.password :=
    (d.deals call).password_eq
  rw [hkept, password?_of_reply? h.reply_eq, h.password_eq]
  simp

/-- What has gone out of the password in any run: at most one response, after which no other can
follow. -/
structure RespondsOnce (settings : Settings) (calls : List Call) : Prop where
  spent : (∃ t ∈ (start settings).putOut calls, t.IsResponse) →
    ((start settings).after calls).phase ≠ .closed → ((start settings).after calls).Spent
  once : ((start settings).putOut calls).Pairwise fun t u => t.IsResponse → ¬u.IsResponse

/-- In every run one response goes out at most, by induction from the end of the run. -/
theorem respondsOnce (settings : Settings) (calls : List Call) :
    RespondsOnce settings calls := by
  induction calls using List.reverseRecOn with
  | nil =>
    refine ⟨?_, List.Pairwise.nil⟩
    rintro ⟨t, ht, -⟩
    cases ht
  | append_singleton calls call ih =>
    have htidy := tidy_after settings calls
    have hwant := parkedInWant_after settings calls
    have hlater (hspent : ((start settings).after calls).Spent)
        (hopen : ((start settings).after (calls ++ [call])).phase ≠ .closed) :
        ((start settings).after (calls ++ [call])).Spent := by
      rw [after_snoc] at hopen ⊢
      exact hspent.perform hwant htidy call hopen
    have hbefore (hopen : ((start settings).after (calls ++ [call])).phase ≠ .closed) :
        ((start settings).after calls).phase ≠ .closed := by
      rw [after_snoc] at hopen
      exact fun hclosed => hopen (perform_of_closed hclosed call).1
    by_cases hresponse : ∃ t ∈ ((start settings).after calls).outputOf call, t.IsResponse
    · obtain ⟨t, ht, hanswers⟩ := hresponse
      obtain ⟨f, password, hresponds⟩ := responds_of_output ht hanswers
      -- an earlier response would have left its mark, and then none is put out
      have hnone : ∀ u ∈ (start settings).putOut calls, ¬u.IsResponse := by
        intro u hu hearlier
        obtain ⟨line, reply, -, -, hline, -⟩ := reply?_eq_some hresponds.reply_eq
        have hsent := (ih.spent ⟨u, hu, hearlier⟩ hline.phase_ne).sent
        rw [hresponds.first] at hsent
        cases hsent
      refine ⟨fun _ hopen => ?_, ?_⟩
      · rw [after_snoc] at hopen ⊢
        exact hresponds.spent htidy hopen
      · rw [putOut_snoc, hresponds.output_eq, List.pairwise_append]
        exact ⟨ih.once, List.pairwise_singleton _ _, fun u hu _ _ hearlier =>
          absurd hearlier (hnone u hu)⟩
    · have hnone : ∀ t ∈ ((start settings).after calls).outputOf call, ¬t.IsResponse :=
        fun t ht hanswers => hresponse ⟨t, ht, hanswers⟩
      refine ⟨?_, ?_⟩
      · rintro ⟨t, ht, hanswers⟩ hopen
        rw [putOut_snoc] at ht
        have hearlier := (List.mem_append.mp ht).resolve_right fun hnew => hnone t hnew hanswers
        exact hlater (ih.spent ⟨t, hearlier, hanswers⟩ (hbefore hopen)) hopen
      · rw [putOut_snoc, List.pairwise_append]
        refine ⟨ih.once, ?_, fun _ _ u hu _ => hnone u hu⟩
        exact List.Pairwise.imp_of_mem (fun _ hu _ _ => hnone _ hu)
          (List.pairwise_of_forall (R := fun _ _ => True) fun _ _ => trivial)

structure SameView (d d' : Dialogue) : Prop where
  phase_eq : d'.phase = d.phase
  awaited_eq : d'.awaited = d.awaited
  capabilities_eq : d'.capabilities = d.capabilities
  parked_eq : d'.parked = d.parked
  isFinished_eq : d'.isFinished = d.isFinished
  succeeded_eq : d'.succeeded = d.succeeded
  describe_eq : d'.describe = d.describe

/-- Of the password a dialogue shows only whether it is known, and of what waits to be written only
how much it is. -/
theorem Beside.sameView {R : Transmit → Transmit → Prop} {d d' : Dialogue} (h : Beside R d d')
    (hp : d'.password.isSome = d.password.isSome) : SameView d d' := by
  obtain ⟨hsame, hout⟩ := h
  have hlength := hout.length_eq.symm
  generalize d'.password = password at hsame hp
  generalize d'.outbound = outbound at hsame hlength
  subst hsame
  refine ⟨rfl, rfl, rfl, rfl, rfl, rfl, ?_⟩
  have hgiven : (d.under password outbound).password.isSome = d.password.isSome := hp
  have hcount : (d.under password outbound).outbound.length = d.outbound.length := hlength
  unfold describe
  rw [hgiven, hcount]
  rfl

/-- The passwords of two runs are known at the same time. -/
theorem isSome_password_perform {d d' : Dialogue} {call call' : Call}
    (hcall : Call.SameButPassword call call')
    (h : d'.password.isSome = d.password.isSome) :
    (d'.perform call').1.password.isSome = (d.perform call).1.password.isSome := by
  have hd : (d.perform call).1.password = call.password?.or d.password :=
    (d.deals call).password_eq
  have hd' : (d'.perform call').1.password = call'.password?.or d'.password :=
    (d'.deals call').password_eq
  rw [hd, hd', Option.isSome_or, Option.isSome_or, hcall.password?_isSome, h]

/-- Two passwords that are known at the same time answer a challenge with two responses. -/
theorem agrees_masks {d : Dialogue} {password : Option String}
    (h : password.isSome = d.password.isSome) :
    d.Agrees (Transmit.Masks d.settings.user) password := by
  refine ⟨fun _ => h, fun _ => ?_⟩
  cases hd : d.password with
  | none =>
    rw [hd, Option.isSome_none, Option.isSome_eq_false_iff, Option.isNone_iff_eq_none] at h
    rw [h]
    exact .none
  | some p =>
    rw [hd, Option.isSome_some] at h
    obtain ⟨p', rfl⟩ := Option.isSome_iff_exists.mp h
    exact .some (.responses p p')

/-- Two runs with the same calls but for the passwords stay beside each other. -/
theorem Beside.run {d d' : Dialogue} (h : Beside (Transmit.Masks d.settings.user) d d')
    (hp : d'.password.isSome = d.password.isSome) {calls calls' : List Call}
    (hcalls : List.Forall₂ Call.SameButPassword calls calls') :
    Beside (Transmit.Masks d.settings.user) (d.after calls) (d'.after calls') ∧
      (d'.after calls').password.isSome = (d.after calls).password.isSome ∧
      List.Forall₂ (Answer.Parallel (Transmit.Masks d.settings.user)) (d.run calls).2
        (d'.run calls').2 := by
  induction hcalls generalizing d d' with
  | nil => exact ⟨h, hp, .nil⟩
  | @cons call call' later later' hcall _ ih =>
    obtain ⟨hnext, hanswer⟩ := h.perform .same hcall (agrees_masks hp)
    have hsettings := d.settings_perform call
    rw [← hsettings] at hnext
    obtain ⟨hlast, hknown, hanswers⟩ := ih hnext (isSome_password_perform hcall hp)
    rw [hsettings] at hlast hanswers
    exact ⟨hlast, hknown, .cons hanswer hanswers⟩

/-- What was taken to be written in two runs, by what their calls handed over. -/
theorem forall₂_taken {R : Transmit → Transmit → Prop} {as as' : List Answer}
    (h : List.Forall₂ (Answer.Parallel R) as as') :
    List.Forall₂ R (as.filterMap (·.transmit)) (as'.filterMap (·.transmit)) := by
  induction h with
  | nil => exact .nil
  | @cons a a' later later' hanswer _ ih =>
    have htransmit := hanswer.transmit
    rw [List.filterMap_cons, List.filterMap_cons]
    generalize a.transmit = t at htransmit ⊢
    generalize a'.transmit = t' at htransmit ⊢
    cases htransmit with
    | none => exact ih
    | some ht => exact .cons ht ih

/-- Two runs that cannot be told apart but for one response: every call gives back the same, every
prefix leaves a dialogue that tells the same of itself, and what they have put out is the same or
differs in the one response. -/
structure Indistinguishable (settings : Settings) (calls calls' : List Call) : Prop where
  answers : List.Forall₂ (Answer.Parallel (Transmit.Masks settings.user))
    ((start settings).run calls).2 ((start settings).run calls').2
  views : ∀ n, SameView ((start settings).after (calls.take n))
    ((start settings).after (calls'.take n))
  putOut : (start settings).putOut calls' = (start settings).putOut calls ∨
    DifferInResponse settings.user ((start settings).putOut calls)
      ((start settings).putOut calls')

/-- Runs with different passwords cannot be told apart but for the response. -/
theorem indistinguishable_of_passwords (settings : Settings) {calls calls' : List Call}
    (h : List.Forall₂ Call.SameButPassword calls calls') :
    Indistinguishable settings calls calls' := by
  have hstart : Beside (Transmit.Masks (start settings).settings.user) (start settings)
      (start settings) := ⟨rfl, .nil⟩
  refine ⟨?_, ?_, ?_⟩
  · exact (hstart.run rfl h).2.2
  · intro n
    obtain ⟨hlast, hknown, -⟩ := hstart.run rfl (List.forall₂_take n h)
    exact hlast.sameView hknown
  · obtain ⟨hlast, -, hanswers⟩ := hstart.run rfl h
    apply Transmit.Masks.differInResponse
    · exact List.rel_append (forall₂_taken hanswers) hlast.outbound
    · exact (respondsOnce settings calls).once

def sessionWithPassword (password : String) : List Call :=
  sessionToPassword ++ .password password :: replies ["334 ", "535 5.7.8 wrong"]

theorem indistinguishable_of_refused :
    List.Forall₂ Call.SameButPassword (sessionWithPassword "secret")
        (sessionWithPassword "other") ∧
      (start .guarded).putOut (sessionWithPassword "other") ≠
        (start .guarded).putOut (sessionWithPassword "secret") ∧
      Indistinguishable .guarded (sessionWithPassword "secret") (sessionWithPassword "other") := by
  have hcalls : List.Forall₂ Call.SameButPassword (sessionWithPassword "secret")
      (sessionWithPassword "other") := by
    apply List.rel_append
    · exact List.forall₂_same.mpr fun call _ => .same call
    · exact .cons (.password _ _) (List.forall₂_same.mpr fun call _ => .same call)
  exact ⟨hcalls, by decide +kernel, indistinguishable_of_passwords _ hcalls⟩

end Dialogue

end SmtpClient
