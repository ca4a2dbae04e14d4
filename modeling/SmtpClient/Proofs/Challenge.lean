import SmtpClient.Proofs.Acceptance
import SmtpClient.Proofs.PasswordTiming

namespace SmtpClient.Dialogue

def authCode? (d : Dialogue) (call : Call) : Option Code :=
  ((d.reply? call).filter fun a => a.1.verb = .auth).map (·.2)

theorem authCode?_eq_some_iff {d : Dialogue} {call : Call} {code : Code} :
    d.authCode? call = some code ↔ ∃ f, d.reply? call = some (f, code) ∧ f.verb = .auth := by
  constructor
  · intro h
    obtain ⟨⟨f, code'⟩, ha, rfl⟩ := Option.map_eq_some_iff.mp h
    obtain ⟨hreply, hverb⟩ := Option.filter_eq_some_iff.mp ha
    exact ⟨f, hreply, by simpa using hverb⟩
  · rintro ⟨f, hreply, hverb⟩
    simp [authCode?, hreply, hverb]

def canDeliver (d : Dialogue) : Bool :=
  d.envelope.any fun e => (declaredSize d.capabilities e.payload).isOk

theorem canDeliver_eq_true {d : Dialogue} (h : d.canDeliver = true) :
    ∃ e size, d.envelope = some e ∧ declaredSize d.capabilities e.payload = .ok size := by
  obtain ⟨e, he, hok⟩ := (Option.any_eq_true ..).mp h
  refine ⟨e, ?_⟩
  cases hs : declaredSize d.capabilities e.payload with
  | error error =>
    rw [hs] at hok
    cases hok
  | ok size => exact ⟨size, he, rfl⟩

/-- What cannot be delivered is not begun. -/
theorem phase_beginTransaction_of_undeliverable {d : Dialogue} (h : d.canDeliver = false) :
    d.beginTransaction.1.phase = .closed := by
  unfold beginTransaction
  split
  · exact d.fail_phase _ _
  · next e he =>
    split
    · exact d.fail_phase _ _
    · next size hs =>
      rw [canDeliver, he, Option.any_some, hs] at h
      cases h

/-- What can be delivered begins with MAIL. -/
theorem pipeline_beginTransaction {d : Dialogue} (h : d.canDeliver = true)
    (hw : d.pipeline.waiting = []) :
    ∃ size sender later,
      d.beginTransaction.1.pipeline = d.pipeline.sending (.mail sender size :: later) := by
  obtain ⟨e, size, he, hs⟩ := canDeliver_eq_true h
  refine ⟨size, e.sender, ?_⟩
  unfold beginTransaction
  rw [he]
  dsimp only
  rw [hs]
  dsimp only
  split
  · rw [sendBatch_eq d e size hw]
    exact ⟨e.commandsFrom 0, rfl⟩
  · rw [send_eq d _ hw]
    exact ⟨[], rfl⟩

/-- The commands that a call leaves behind those in flight are those that it sends. -/
theorem map_verb_subset_sentBy {d : Dialogue} {call : Call} {cs : List Command}
    (h : (d.perform call).1.pipeline = (d.answered call).sending cs) :
    cs.map Command.verb ⊆ (d.sentBy call).map (·.verb) := by
  intro verb hverb
  rw [← Pipeline.map_verb_sent d.pipeline.issued cs, List.map_map, List.mem_map] at hverb
  obtain ⟨q, hq, rfl⟩ := hverb
  refine List.mem_map.mpr ⟨Pipeline.sent q, List.mem_filter.mpr ⟨?_, ?_⟩, rfl⟩
  · rw [h, Pipeline.sending, issued_answered]
    exact List.mem_append_right _ (List.mem_map_of_mem hq)
  · exact decide_eq_true (Pipeline.tag_of_mem_numbered hq).1

/-- An acceptance of AUTH begins the transaction, from the dialogue in which the reply has been
counted. -/
theorem accepted_eq {d : Dialogue} {call : Call} (h : d.authCode? call = some 235) :
    ∃ s : Dialogue, (d.perform call).1 = s.beginTransaction.1 ∧ s.pipeline = d.answered call ∧
      s.canDeliver = d.canDeliver := by
  obtain ⟨f, hreply, hverb⟩ := authCode?_eq_some_iff.mp h
  obtain ⟨line, reply, rfl, -, hline, hcode⟩ := reply?_eq_some hreply
  rw [hverb] at hline
  refine ⟨{ settle { d with replyTexts := [] } (.answer .auth) reply.code with
    authenticated := true }, ?_, hline.pipeline_settle, ?_⟩
  · change (d.takeLine line).1 = _
    have hdecision : Decision.of (.answer .auth) reply.code = .advance .beginTransaction := by
      rw [hcode]
      decide
    rw [hline.takeLine_eq, hdecision]
    rfl
  · simp only [canDeliver, settle_envelope, settle_capabilities]

/-- An accepted AUTH sends MAIL, where there is an envelope that the server can take. -/
theorem mail_of_accepted {d : Dialogue} (htidy : d.pipeline.Tidy) {call : Call}
    (h : d.authCode? call = some 235) (hcan : d.canDeliver = true) :
    .mail ∈ (d.sentBy call).map (·.verb) := by
  obtain ⟨s, hnext, hp, hsame⟩ := accepted_eq h
  have hw : s.pipeline.waiting = [] := by rw [hp, (tidy_answered htidy call).waiting_eq]
  obtain ⟨size, sender, later, hsent⟩ := pipeline_beginTransaction (hsame.trans hcan) hw
  rw [← hnext, hp] at hsent
  exact map_verb_subset_sentBy hsent List.mem_cons_self

/-- Where nothing can be delivered, an accepted AUTH ends the dialogue without MAIL. -/
theorem phase_of_accepted {d : Dialogue} {call : Call} (h : d.authCode? call = some 235)
    (hcan : d.canDeliver = false) : (d.perform call).1.phase = .closed := by
  obtain ⟨s, hnext, -, hsame⟩ := accepted_eq h
  rw [hnext]
  exact phase_beginTransaction_of_undeliverable (hsame.trans hcan)

def PutsOutPassword (settings : Settings) (before : List Call) (call : Call) : Prop :=
  ∃ password ∈ lastPassword before,
    .raw (passwordResponse settings.user password).render ∈
      ((start settings).after before).outputOf call

instance (settings : Settings) (before : List Call) (call : Call) :
    Decidable (PutsOutPassword settings before call) :=
  inferInstanceAs (Decidable (∃ password ∈ lastPassword before, _))

/-- The mark that the password was put out comes with the response. -/
theorem Deals.put_out_of {d : Dialogue} {call : Call} {r : Outcome} (h : d.Deals call r)
    (hsent : r.1.passwordSent = true) :
    d.passwordSent = true ∨ ∃ password, d.password = some password ∧
      r.1.outbound = d.outbound ++ [.raw (passwordResponse d.settings.user password).render] := by
  cases h with
  | follows s hs h =>
    cases h with
    | aloof h =>
      rw [h.passwordSent_eq, hs.passwordSent_eq] at hsent
      exact Or.inl hsent
    | parks _ _ _ _ h | asks _ _ _ _ h =>
      rw [h] at hsent
      exact Or.inl (hs.passwordSent_eq.symm.trans hsent)
    | authenticates _ _ _ h =>
      rw [h] at hsent
      cases hsent
  | accepted f s hs _ _ h =>
    have hkept : r.1.passwordSent = s.passwordSent := h.passwordSent_eq
    rw [hkept, hs.passwordSent_eq] at hsent
    exact Or.inl hsent
  | resumes text _ _ _ h =>
    rw [h] at hsent
    cases hsent
  | responds f password _ _ _ hp h =>
    rw [h]
    exact Or.inr ⟨password, hp, rfl⟩
  | learns text _ _ h | requests e _ _ _ _ _ h | polls _ h =>
    rw [h] at hsent
    exact Or.inl hsent

theorem putsOutPassword_of_passwordSent {settings : Settings} {calls : List Call}
    (h : ((start settings).after calls).passwordSent = true) :
    Occurs calls (PutsOutPassword settings) := by
  induction calls using List.reverseRecOn with
  | nil => cases h
  | append_singleton calls call ih =>
    rw [after_snoc] at h
    rw [occurs_snoc_iff]
    rcases (((start settings).after calls).deals call).put_out_of h with
      hearlier | ⟨password, hp, hout⟩
    · exact Or.inl (ih hearlier)
    · refine Or.inr ⟨password, ?_, ?_⟩
      · exact (password_after settings calls).symm.trans hp
      · rw [settings_after] at hout
        rw [outputOf_eq hout]
        exact List.mem_singleton_self _

/-- The first challenge is answered with the password that was given last, and with nothing else. -/
theorem outputOf_challenge {settings : Settings} {before : List Call} {call : Call}
    (h : ((start settings).after before).authCode? call = some 334)
    (hfirst : ((start settings).after before).passwordSent = false) :
    ∃ password, lastPassword before = some password ∧
      ((start settings).after before).outputOf call =
        [.raw (passwordResponse settings.user password).render] := by
  obtain ⟨f, hreply, hverb⟩ := authCode?_eq_some_iff.mp h
  obtain ⟨line, reply, rfl, -, hline, hcode⟩ := reply?_eq_some hreply
  rw [hverb] at hline
  obtain ⟨password, hp⟩ : ∃ password, lastPassword before = some password := by
    refine Option.ne_none_iff_exists'.mp fun hnone => ?_
    exact notMem_auth_of_unknown hnone (mem_verbs_of_awaited hline.awaited_eq)
  refine ⟨password, hp, ?_⟩
  rw [← password_after settings] at hp
  have husers := settings_after settings before
  generalize (start settings).after before = d at hline hfirst hp husers ⊢
  have hdecision : Decision.of (.answer .auth) reply.code = .advance .sendPassword := by
    rw [hcode]
    decide
  have hmid : reply.code.isIntermediate = true := by
    rw [hcode]
    decide
  have hout : (d.perform (.line line)).1.outbound =
      d.outbound ++ [.raw (passwordResponse d.settings.user password).render] := by
    change (d.takeLine line).1.outbound = _
    rw [hline.takeLine_eq, hdecision, reactTo, settle_intermediate d .auth _ hmid]
    simp [act, advance, sendPassword, hfirst, hp, put]
  rw [outputOf_eq hout, husers]

/-- Once AUTH was answered with a challenge, the password has been put out: at once, or before. -/
theorem putsOutPassword_of_challenge {settings : Settings} {before : List Call} {call : Call}
    (h : ((start settings).after before).authCode? call = some 334) :
    Occurs (before ++ [call]) (PutsOutPassword settings) := by
  rw [occurs_snoc_iff]
  cases hsent : ((start settings).after before).passwordSent with
  | true => exact Or.inl (putsOutPassword_of_passwordSent hsent)
  | false =>
    obtain ⟨password, hp, hout⟩ := outputOf_challenge h hsent
    refine Or.inr ⟨password, hp, ?_⟩
    rw [hout]
    exact List.mem_singleton_self _

/-- A dialogue is authenticated only by an acceptance of AUTH. -/
theorem accepts_of_authenticated {settings : Settings} {calls : List Call}
    (h : ((start settings).after calls).authenticated = true) :
    Occurs calls fun before call =>
      ((start settings).after before).authCode? call = some 235 := by
  induction calls using List.reverseRecOn with
  | nil => cases h
  | append_singleton calls call ih =>
    rw [after_snoc] at h
    rw [occurs_snoc_iff]
    rcases (((start settings).after calls).deals call).authenticated_of h with hbefore | ⟨f, hf, hv⟩
    · exact Or.inl (ih hbefore)
    · have hreply := (Option.filter_eq_some_iff.mp hf).1
      exact Or.inr (authCode?_eq_some_iff.mpr ⟨f, hreply, hv⟩)

/-- Where authentication is asked for, MAIL is sent by an acceptance of AUTH, or after it. -/
theorem EncryptsWhenDue.accepts_of_mail {settings : Settings} {before : List Call} {call : Call}
    (h : EncryptsWhenDue settings (before ++ [call])) (hrequired : settings.requireAuth = true)
    (hmail : .mail ∈ (((start settings).after before).sentBy call).map (·.verb)) :
    Occurs (before ++ [call]) fun before call =>
      ((start settings).after before).authCode? call = some 235 := by
  have hnext := h.standing.2
  rw [after_snoc] at hnext
  rw [occurs_snoc_iff]
  rcases authenticated_of_mail (tidy_after settings before) hnext hmail with hdone | ⟨f, hf, hv⟩
  · have hauthenticated : ((start settings).after before).authenticated = true := by
      simpa [mustAuthenticate, settings_after, hrequired] using hdone
    exact Or.inl (accepts_of_authenticated hauthenticated)
  · have hreply := (Option.filter_eq_some_iff.mp hf).1
    exact Or.inr (authCode?_eq_some_iff.mpr ⟨f, hreply, hv⟩)

/-- A closed dialogue stays closed. -/
theorem phase_of_closed_before {settings : Settings} {before : List Call}
    (h : ((start settings).after before).phase = .closed) (later : List Call) :
    ((start settings).after (before ++ later)).phase = .closed := by
  induction later using List.reverseRecOn with
  | nil => rwa [List.append_nil]
  | append_singleton later call ih =>
    rw [← List.append_assoc, after_snoc]
    exact (perform_of_closed ih call).1

def ProvesBeforeMail (settings : Settings) (calls : List Call) : Prop :=
  ∀ before call later, calls = before ++ call :: later →
    .mail ∈ (((start settings).after before).sentBy call).map (·.verb) →
    Occurs before (PutsOutPassword settings)

/-- AUTH was accepted before it was answered with a challenge, where something can be delivered. -/
def AcceptsUnproved (settings : Settings) (calls : List Call) : Prop :=
  Occurs calls fun before call =>
    ((start settings).after before).authCode? call = some 235 ∧
      ((start settings).after before).canDeliver = true ∧
      ¬Occurs before fun earlier call' =>
        ((start settings).after earlier).authCode? call' = some 334

instance (settings : Settings) (calls : List Call) : Decidable (AcceptsUnproved settings calls) :=
  inferInstanceAs (Decidable (Occurs calls _))

/-- The password comes before the transaction exactly if AUTH is not accepted without a
challenge. -/
theorem provesBeforeMail_iff (settings : Settings) (calls : List Call)
    (hrequired : settings.requireAuth = true) (h : EncryptsWhenDue settings calls) :
    ProvesBeforeMail settings calls ↔ ¬AcceptsUnproved settings calls := by
  constructor
  · rintro hproves ⟨before, call, later, rfl, haccepted, hcan, hnone⟩
    have hmail := mail_of_accepted (tidy_after settings before) haccepted hcan
    obtain ⟨earlier, call', between, rfl, password, -, hout⟩ := hproves before call later rfl hmail
    obtain ⟨f, -, -, hverb, hreply, -⟩ := challenge_of_response hout ⟨_, _, rfl⟩
    exact hnone ⟨earlier, call', between, rfl, authCode?_eq_some_iff.mpr ⟨f, hreply, hverb⟩⟩
  · rintro hnot before call later rfl hmail
    obtain ⟨earlier, call', between, heq, haccepted⟩ := h.of_cons.accepts_of_mail hrequired hmail
    have hcan : ((start settings).after earlier).canDeliver = true := by
      by_contra hcannot
      have hclosed := phase_of_accepted haccepted (by simpa using hcannot)
      rw [← after_snoc] at hclosed
      have hlast := phase_of_closed_before hclosed between
      rw [List.append_assoc, List.singleton_append, ← heq, after_snoc] at hlast
      rw [sentBy_of_closed (tidy_after settings before) hlast] at hmail
      cases hmail
    have hchallenged : Occurs earlier fun first challenge =>
        ((start settings).after first).authCode? challenge = some 334 := by
      by_contra hnone
      refine hnot ⟨earlier, call', between ++ later, ?_, haccepted, hcan, hnone⟩
      rw [List.append_cons before call later, heq, List.append_assoc, List.cons_append]
    obtain ⟨first, challenge, rest, rfl, hchallenge⟩ := hchallenged
    have hproved := (putsOutPassword_of_challenge hchallenge).append rest
    rw [List.append_assoc, List.singleton_append] at hproved
    rcases List.eq_nil_or_concat between with rfl | ⟨between', last, rfl⟩
    · obtain ⟨rfl, -⟩ := List.append_inj' heq rfl
      exact hproved
    · rw [List.concat_eq_append, ← List.cons_append, ← List.append_assoc] at heq
      obtain ⟨rfl, -⟩ := List.append_inj' heq rfl
      exact hproved.append _

/-- A session in which the password is put out in answer to a challenge, and MAIL after it. -/
theorem provesBeforeMail_of_challenged :
    Settings.guarded.requireAuth = true ∧ EncryptsWhenDue .guarded guardedSession ∧
      .mail ∈ ((start .guarded).allSent guardedSession).map (·.verb) ∧
      ProvesBeforeMail .guarded guardedSession := by
  have hdue : EncryptsWhenDue .guarded guardedSession := by decide +kernel
  exact ⟨rfl, hdue, by decide +kernel,
    (provesBeforeMail_iff .guarded guardedSession rfl hdue).mpr (by decide +kernel)⟩

def authenticating : Settings := { Settings.plain with requireAuth := true, user := "alice" }

def acceptedUnproved : List Call :=
  .password "secret" ::
    conversation .greeting ["220 mx ESMTP", "250-mx", "250 AUTH PLAIN", "235 ok"]

/-- MAIL goes out with no proof of the user if the server says 235 to AUTH itself. -/
theorem not_provesBeforeMail_of_unproved :
    authenticating.requireAuth = true ∧ EncryptsWhenDue authenticating acceptedUnproved ∧
      ¬ProvesBeforeMail authenticating acceptedUnproved := by
  refine ⟨rfl, .of_notMem _ (by decide +kernel), fun hproves => ?_⟩
  have hproved := hproves acceptedUnproved.dropLast (.line (Utf8.encode "235 ok")) [] rfl
    (by decide +kernel)
  revert hproved
  decide +kernel

end SmtpClient.Dialogue
