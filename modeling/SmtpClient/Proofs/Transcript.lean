import SmtpClient.Proofs.Turn

namespace SmtpClient.Dialogue

theorem Told.connect {d : Dialogue} {said : List Command} (h : d.Told said) :
    d.Speaks said (d.connect, []) := by
  unfold Dialogue.connect
  split
  · next hphase =>
    obtain ⟨rfl, hd, hu⟩ := h.turn.of_disconnected hphase
    have hconnecting : Expects { d with phase := .connecting, greetingDue := true }
        .connecting false [] :=
      ⟨rfl, rfl, hd.parked_eq, hd.waiting_eq, hd.inFlight_eq⟩
    have huntouched : Untouched { d with phase := .connecting, greetingDue := true } :=
      ⟨hu.batched_eq, hu.recipientsSent_eq, hu.succeeded_eq⟩
    exact ⟨⟨rfl, rfl⟩,
      .quiet ⟨h.issued_eq, .silent .connecting (Or.inr rfl) hconnecting huntouched⟩ rfl⟩
  · exact ⟨⟨rfl, rfl⟩, .quiet h rfl⟩

/-- A password that is waited for says AUTH, and any other says nothing. -/
theorem Told.givePassword {d : Dialogue} {said : List Command} (h : d.Told said)
    (password : String) : d.Speaks said (d.givePassword password, []) := by
  unfold Dialogue.givePassword
  split
  · next hparked =>
    simp only [Bool.and_eq_true, Bool.not_eq_true'] at hparked
    obtain ⟨hd, hu, hm, secured, plainly, rfl⟩ := h.turn.of_parked hparked.1 hparked.2
    let s : Dialogue :=
      { d with password := some password, parked := false, passwordSent := false }
    have hready : s.Expects .ready false [] :=
      ⟨hd.phase_eq, hd.greetingDue_eq, rfl, hd.waiting_eq, hd.inFlight_eq⟩
    have huntouched : s.Untouched := ⟨hu.batched_eq, hu.recipientsSent_eq, hu.succeeded_eq⟩
    have hturn : (s.send (.auth .plain)).Turn
        (preamble d.settings.clientName secured plainly false ++ [.auth .plain]) := by
      rw [← preamble_identified]
      exact .opening .auth _ (hready.send _) (huntouched.send _) (.identify secured plainly hm)
    obtain ⟨htold, hout⟩ := told_send (d := s) h.issued_eq hready.waiting_eq hturn
    exact ⟨⟨rfl, rfl⟩, .command _ htold hout⟩
  · have hsame : d.SameStanding { d with password := some password } := sameStanding_of_eq rfl
    exact ⟨⟨rfl, rfl⟩,
      .quiet ⟨h.issued_eq, h.turn.congr hsame ⟨rfl, rfl⟩ (fun _ => rfl) fun _ => rfl⟩ rfl⟩

/-- A cancellation says nothing more of the submission; QUIT may go out beside it. -/
theorem Told.cancel {d : Dialogue} {said : List Command} (h : d.Told said) :
    d.Speaks said d.cancel := by
  unfold Dialogue.cancel
  split
  · exact ⟨⟨rfl, rfl⟩, .quiet h rfl⟩
  · exact h.along.fail _ _

theorem Told.disconnect {d : Dialogue} {said : List Command} (h : d.Told said) (error : Error) :
    d.Speaks said (d.disconnect error) := by
  unfold Dialogue.disconnect
  split
  · exact ⟨⟨rfl, rfl⟩, .quiet h rfl⟩
  · split
    · have hend := h.along
      exact ⟨⟨rfl, rfl⟩, .quiet ⟨h.issued_eq, .closed said rfl hend.inCourse hend.clear⟩ rfl⟩
    · exact h.along.fail _ _

/-- A submission says nothing yet. -/
theorem Told.submit {d : Dialogue} {said : List Command} (h : d.Told said) (e : Envelope) :
    d.Speaks said ((d.perform (.submit e)).1, d.eventsOf (.submit e)) := by
  rcases d.perform_submit e with ⟨heq, -⟩ | ⟨-, hphase, requested, asked, heq, -⟩
  · rw [heq]
    exact ⟨⟨rfl, rfl⟩, .quiet h rfl⟩
  · obtain ⟨rfl, hd, hu⟩ := h.turn.of_disconnected hphase
    rw [heq]
    have hidle : Expects { d with envelope := some e, passwordRequested := requested }
        .disconnected false [] :=
      ⟨hd.phase_eq, hd.greetingDue_eq, hd.parked_eq, hd.waiting_eq, hd.inFlight_eq⟩
    have huntouched : Untouched { d with envelope := some e, passwordRequested := requested } :=
      ⟨hu.batched_eq, hu.recipientsSent_eq, hu.succeeded_eq⟩
    exact ⟨⟨rfl, rfl⟩,
      .quiet ⟨h.issued_eq, .silent .disconnected (Or.inl rfl) hidle huntouched⟩ rfl⟩

/-- Every call but the end of the encryption handshake keeps the terms on which it is made. -/
theorem Told.perform {d : Dialogue} {said : List Command} (h : d.Told said) {call : Call}
    (hcall : call ≠ .encrypted) (hpoll : call ≠ .poll) :
    d.Speaks said ((d.perform call).1, d.eventsOf call) := by
  cases call with
  | submit e => exact h.submit e
  | connected => exact h.connect
  | line line => exact h.takeLine line
  | password text => exact h.givePassword text
  | encrypted => exact absurd rfl hcall
  | cancel => exact h.cancel
  | lost error => exact h.disconnect error
  | poll => exact absurd rfl hpoll

/-- What is taken to be written has been said before. -/
theorem Told.poll {d : Dialogue} {said : List Command} (h : d.Told said) :
    d.poll.2.Told said := by
  have hsame : d.SameStanding d.poll.2 := sameStanding_of_eq rfl
  exact ⟨h.issued_eq, h.turn.congr hsame ⟨rfl, rfl⟩ (fun _ => rfl) fun _ => rfl⟩

/-- Once the connection is encrypted the server is greeted again. -/
theorem Told.encrypt {d : Dialogue} {said : List Command} (h : d.Told said) {due : Nat}
    (hs : d.Standing due) (hdue : 0 < due) : d.Utters said (d.encrypt, []) := by
  unfold Dialogue.encrypt
  split
  · exact .quiet h rfl
  · next hopen =>
    obtain ⟨-, hd, hu⟩ := hs.of_due hdue (by simpa using hopen)
    obtain ⟨rfl, -⟩ := h.turn.of_clear hd
    let s : Dialogue := { d with encrypted := true, capabilities := .empty }
    have hready : s.Expects .ready false [] := hd.congr (sameStanding_of_eq rfl)
    have huntouched : s.Untouched := hu.congr (sameStanding_of_eq rfl)
    have hm : s.mustEncrypt = false := Bool.and_false _
    have hturn : (s.send (.ehlo d.settings.clientName)).Turn
        ([.ehlo d.settings.clientName, .startTls] ++ [.ehlo d.settings.clientName]) := by
      refine .opening .ehlo _ (hready.send _) (huntouched.send _) (.hail true fun hmust => ?_)
      have hnot := hm.symm.trans hmust
      cases hnot
    obtain ⟨htold, hout⟩ := told_send (d := s) h.issued_eq hready.waiting_eq hturn
    exact .command _ htold hout

theorem told_start (settings : Settings) : (start settings).Told [] :=
  ⟨rfl, .silent .disconnected (Or.inl rfl) ⟨rfl, rfl, rfl, rfl, rfl⟩ ⟨rfl, rfl, rfl⟩⟩

inductive Adds (d : Dialogue) (said : List Command) (call : Call) : Prop
  | quiet (h : (d.perform call).1.Told said) (ho : d.outputOf call = [])
  | aside (t : Transmit) (h : (d.perform call).1.Told said) (ho : d.outputOf call = [t])
    (ht : d.Aside (d.eventsOf call) t)
  | command (c : Command) (h : (d.perform call).1.Told (said ++ [c]))
    (ho : d.outputOf call = [.tagged (said.length + 1) c.render])
  | transaction (e : Envelope) (size : Option Nat)
    (h : (d.perform call).1.Told (said ++ transaction e size))
    (ho : d.outputOf call =
      [Pipeline.batchOf (Pipeline.numbered said.length (transaction e size))])

theorem Utters.adds {d : Dialogue} {said : List Command} {call : Call}
    (h : d.Utters said ((d.perform call).1, d.eventsOf call)) : d.Adds said call := by
  cases h with
  | quiet htold ho => exact .quiet htold (outputOf_eq (ho.trans (List.append_nil _).symm))
  | aside t htold ho ht => exact .aside t htold (outputOf_eq ho) ht
  | command c htold ho => exact .command c htold (outputOf_eq ho)
  | transaction e size htold ho => exact .transaction e size htold (outputOf_eq ho)

/-- Whatever call comes when it may, it adds commands in the order of the submission, or data that
is no command. -/
theorem Told.adds {d : Dialogue} {said : List Command} (h : d.Told said) {due : Nat}
    (hs : d.Standing due) (call : Call) (hdue : call = .encrypted → 0 < due) :
    d.Adds said call := by
  by_cases hpoll : call = .poll
  · subst hpoll
    exact .quiet h.poll d.outputOf_poll
  · by_cases hcall : call = .encrypted
    · subst hcall
      exact (h.encrypt hs (hdue rfl)).adds
    · exact (h.perform hcall hpoll).utters.adds

/-- Every run has said what it has put out. -/
theorem EncryptsWhenDue.told {settings : Settings} {calls : List Call}
    (h : EncryptsWhenDue settings calls) :
    ∃ said, ((start settings).after calls).Told said ∧
      Conveys said ((start settings).putOut calls) := by
  -- call by call: what the dialogue has said grows as what is put out does
  refine h.induction ⟨[], told_start settings, .nil⟩ ?_
  · intro calls call due hs hdue ih
    obtain ⟨said, htold, hconveys⟩ := ih
    rw [after_snoc, putOut_snoc]
    cases htold.adds hs call hdue with
    | quiet htold' ho =>
      rw [ho, List.append_nil]
      exact ⟨said, htold', hconveys⟩
    | aside t htold' ho ht =>
      rw [ho]
      refine ⟨said, htold', hconveys.aside t ?_⟩
      cases ht <;> rfl
    | command c htold' ho =>
      rw [ho]
      exact ⟨said ++ [c], htold', hconveys.command c⟩
    | transaction e size htold' ho =>
      rw [ho]
      exact ⟨said ++ transaction e size, htold', hconveys.batch _ _⟩

/-- Only the end of the handshake changes what may be said. -/
theorem Told.sameTerms {d : Dialogue} {said : List Command} (h : d.Told said) {call : Call}
    (hcall : call ≠ .encrypted) : d.SameTerms (d.perform call).1 := by
  by_cases hpoll : call = .poll
  · subst hpoll
    exact ⟨rfl, rfl⟩
  · exact (h.perform hcall hpoll).terms

/-- A connection that is to be encrypted stays so until it is. -/
theorem mustEncrypt_after {settings : Settings} (hs : settings.usesStartTls = true)
    {calls : List Call} (h : .encrypted ∉ calls) :
    ((start settings).after calls).mustEncrypt = true := by
  induction calls using List.reverseRecOn with
  | nil =>
    have himplicit : settings.usesImplicitTls = false := by
      simp only [Settings.usesStartTls, decide_eq_true_eq] at hs
      simp [Settings.usesImplicitTls, hs]
    simp [mustEncrypt, start, hs, himplicit]
  | append_singleton calls call ih =>
    simp only [List.mem_append, List.mem_singleton, not_or] at h
    obtain ⟨said, htold, -⟩ := (EncryptsWhenDue.of_notMem settings h.1).told
    rw [after_snoc, (htold.sameTerms (Ne.symm h.2)).mustEncrypt_eq]
    exact ih h.1

/-- What a run has put out: commands in the order of a submission, with the tags that count them,
and beside them data that is no command. -/
structure Transcribed (settings : Settings) (calls : List Call) : Prop where
  commands : ∃ said, InCourse settings ((start settings).after calls).envelope said ∧
    Conveys said ((start settings).putOut calls) ∧
    ((start settings).putOut calls).flatMap Transmit.tags = List.range' 1 said.length ∧
    (((start settings).putOut calls).filter (!·.tags.isEmpty)).flatMap Transmit.data =
      said.flatMap Command.render
  asides : ∀ before call later, calls = before ++ call :: later →
    ∀ t ∈ ((start settings).after before).outputOf call, t.tags = [] →
      ((start settings).after before).Aside (((start settings).after before).eventsOf call) t

/-- The commands of every run come in the order of a submission and are numbered from one, and
beside them only the password, the body and the farewell of a failure are put out. -/
theorem transcribed_run (settings : Settings) (calls : List Call)
    (h : EncryptsWhenDue settings calls) : Transcribed settings calls := by
  refine ⟨?_, ?_⟩
  · obtain ⟨said, htold, hconveys⟩ := h.told
    have hin := htold.turn.inCourse
    rw [settings_after] at hin
    exact ⟨said, hin, hconveys, hconveys.tags_eq, hconveys.data_eq⟩
  · rintro before call later rfl t ht htags
    have hbefore : EncryptsWhenDue settings (before ++ [call]) := h.of_cons
    obtain ⟨said, htold, -⟩ := hbefore.of_append.told
    have hdue (hcall : call = .encrypted) := Nat.sub_pos_of_lt (hbefore.due_of_snoc hcall)
    cases htold.adds hbefore.of_append.standing.2 call hdue with
    | quiet _ ho =>
      rw [ho] at ht
      cases ht
    | aside t' _ ho haside =>
      rw [ho, List.mem_singleton] at ht
      rw [ht]
      exact haside
    | command c _ ho =>
      rw [ho, List.mem_singleton] at ht
      rw [ht] at htags
      cases htags
    | transaction e size _ ho =>
      rw [ho, List.mem_singleton] at ht
      rw [ht] at htags
      cases htags

def guardedSession : List Call :=
  .submit .greeting :: .connected ::
    replies ["220 mx ESMTP", "250-mx", "250 STARTTLS", "220 go ahead"] ++
    .encrypted :: replies ["250-mx", "250 AUTH PLAIN"] ++
    .password "secret" :: replies ["334 ", "235 ok", "250 ok", "250 ok", "354 go", "250 queued"]

/-- A session that is encrypted, authenticated and successful is the longest such transcript. -/
theorem transcribed_guardedSession :
    EncryptsWhenDue .guarded guardedSession ∧ Transcribed .guarded guardedSession := by
  have hdue : EncryptsWhenDue .guarded guardedSession := by decide +kernel
  exact ⟨hdue, transcribed_run .guarded guardedSession hdue⟩

end SmtpClient.Dialogue
