import SmtpClient.Proofs.Credentials

namespace SmtpClient

def Call.password? : Call → Option String
  | password text => some text
  | _ => none

def lastPassword (calls : List Call) : Option String :=
  (calls.filterMap Call.password?).getLast?

theorem lastPassword_snoc (calls : List Call) (call : Call) :
    lastPassword (calls ++ [call]) = call.password?.or (lastPassword calls) := by
  rw [lastPassword, List.filterMap_append, List.getLast?_append]
  cases h : call.password? <;> simp [lastPassword, h]

def Event.asksForPassword : Event → Bool
  | passwordRequested _ _ => true
  | _ => false

/-- In the course of a submission AUTH comes at most once. -/
theorem InCourse.count_auth_le {settings : Settings} {envelope : Option Envelope}
    {said : List Command} (h : InCourse settings envelope said) :
    (said.map Command.verb).count .auth ≤ 1 := by
  have hpreamble (secured plainly identified : Bool) :
      ((preamble settings.clientName secured plainly identified).map Command.verb).count .auth ≤
        1 := by
    cases secured <;> cases plainly <;> cases identified <;> simp [preamble, Command.verb]
  cases h with
  | opening secured plainly identified h =>
    exact Nat.le_trans ((h.map Command.verb).sublist.count_le .auth)
      (hpreamble secured plainly identified)
  | transaction secured plainly identified e size he h =>
    have hlater : ((Dialogue.transaction e size).map Command.verb).count .auth = 0 := by
      have hpayload := Dialogue.verb_payload e.payload
      rw [Dialogue.map_verb_transaction]
      simp [List.count_replicate, hpayload]
    have hle := (h.map Command.verb).sublist.count_le .auth
    rw [List.map_append, List.map_append, List.count_append, List.count_append, hlater] at hle
    exact Nat.le_trans hle (hpreamble secured plainly identified)

namespace Dialogue

/-- Of what comes before a transaction, and of its first command, at most one is in flight. -/
theorem Standing.count_verb_le {d : Dialogue} {due : Nat} (h : d.Standing due)
    (hopen : d.phase ≠ .closed) {verb : Verb} (hv : verb = .mail ∨ verb.isOpening = true) :
    (d.pipeline.inFlight.map (·.verb)).count verb ≤ 1 := by
  have hshort {phase : Phase} {parked : Bool} {verbs : List Verb}
      (hd : d.Expects phase parked verbs) (hverbs : verbs.length ≤ 1) :
      (d.pipeline.inFlight.map (·.verb)).count verb ≤ 1 := by
    rw [hd.inFlight_eq]
    exact Nat.le_trans List.count_le_length hverbs
  cases h with
  | idle hd | greeting hd | parked hd | handshake hd => exact hshort hd (Nat.zero_le 1)
  | opening _ _ hd | leaving hd => exact hshort hd (Nat.le_refl 1)
  | sending e c rest he hs hl hf =>
    cases hf with
    | oneByOne hd => exact hshort hd (Nat.le_refl 1)
    | batch hd =>
      have hall : ((transaction e none).map Command.verb).count verb ≤ 1 := by
        rw [map_verb_transaction]
        cases e.payload <;> cases verb <;>
          simp [Verb.isOpening, Payload.command, Command.verb, List.count_replicate] at hv ⊢
      rw [hd.inFlight_eq]
      exact Nat.le_trans ((hl.suffix none).sublist.count_le verb) hall
  | closed _ hclosed => exact absurd hclosed hopen

/-- A command that is sent new was not in flight. -/
theorem notMem_answered_of_sentBy {d : Dialogue} (htidy : d.pipeline.Tidy) {call : Call} {due : Nat}
    (hs : (d.perform call).1.Standing due) {verb : Verb}
    (hv : verb = .mail ∨ verb.isOpening = true)
    (hmem : verb ∈ (d.sentBy call).map (·.verb)) :
    verb ∉ (d.answered call).verbs ∧ verb ∈ (d.perform call).1.pipeline.verbs := by
  cases outgoing htidy call with
  | none _ _ hnone =>
    rw [hnone] at hmem
    cases hmem
  | some cs hopen hp hcs =>
    have hcount := hs.count_verb_le hopen hv
    rw [hcs] at hmem
    rw [hp, Pipeline.sending, issued_answered, List.map_append, List.count_append] at hcount
    have hone : 0 < (((Pipeline.numbered d.pipeline.issued cs).map Pipeline.sent).map
        (·.verb)).count verb := List.count_pos_iff.mpr hmem
    constructor
    · intro hold
      rw [Pipeline.verbs, (tidy_answered htidy call).waiting_eq] at hold
      have hbefore := List.count_pos_iff.mpr hold
      rw [List.map_nil, List.nil_append] at hbefore
      omega
    · rw [hp, Pipeline.verbs, Pipeline.sending, List.map_append, issued_answered]
      exact List.mem_append_right _ (List.mem_append_right _ hmem)

theorem Follows.password?_eq {d s : Dialogue} {call : Call} (h : d.Follows call s) :
    call.password? = none := by
  cases call with
  | password text => exact absurd rfl (h.ungiven text)
  | _ => rfl

theorem password?_of_reply? {d : Dialogue} {call : Call} {a : InFlight × Code}
    (h : d.reply? call = some a) : call.password? = none := by
  obtain ⟨line, reply, rfl, -⟩ := reply?_eq_some h
  rfl

/-- However a dialogue arranges its authentication, it keeps what it was given. -/
theorem Arranges.keeps {s : Dialogue} {r : Outcome} (h : s.Arranges r) :
    r.1.password = s.password ∧ r.1.authenticated = s.authenticated := by
  cases h with
  | aloof h => exact ⟨h.password_eq, h.authenticated_eq⟩
  | parks _ _ _ _ h | asks _ _ _ _ h | authenticates _ _ _ h =>
    rw [h]
    exact ⟨rfl, rfl⟩

theorem Deals.password_eq {d : Dialogue} {call : Call} {r : Outcome} (h : d.Deals call r) :
    r.1.password = call.password?.or d.password := by
  cases h with
  | follows s hs h => rw [h.keeps.1, hs.password_eq, hs.password?_eq, Option.none_or]
  | learns text hcall _ h | resumes text hcall _ _ h =>
    rw [h, hcall]
    rfl
  | requests e hcall _ _ _ _ h =>
    rw [h, hcall]
    rfl
  | responds f password hreply _ _ _ h =>
    rw [h, password?_of_reply? hreply, Option.none_or]
    rfl
  | accepted f s hs _ _ h => rw [h.password_eq, hs.password?_eq, Option.none_or, hs.password_eq]
  | polls hcall h =>
    rw [h, hcall]
    rfl

/-- A dialogue knows the password that was given last, and no other. -/
theorem password_after (settings : Settings) (calls : List Call) :
    ((start settings).after calls).password = lastPassword calls := by
  induction calls using List.reverseRecOn with
  | nil => rfl
  | append_singleton calls call ih =>
    have hstep := (((start settings).after calls).deals call).password_eq
    rw [after_snoc, lastPassword_snoc, ← ih]
    exact hstep

/-- Authentication comes to be done only by a 235 that answers AUTH. -/
theorem Deals.authenticated_of {d : Dialogue} {call : Call} {r : Outcome} (h : d.Deals call r)
    (hdone : r.1.authenticated = true) :
    d.authenticated = true ∨ ∃ f, d.answer? call = some (f, 235) ∧ f.verb = .auth := by
  cases h with
  | follows s hs h => exact Or.inl (by rw [← hs.authenticated_eq, ← h.keeps.2, hdone])
  | accepted f s hs hanswer hverb h => exact Or.inr ⟨f, hanswer, hverb⟩
  | learns text _ _ h | resumes text _ _ _ h | requests e _ _ _ _ _ h
  | responds f password _ _ _ _ h | polls _ h =>
    rw [h] at hdone
    exact Or.inl hdone

/-- A dialogue is authenticated only after AUTH was answered with 235. -/
theorem accepted_of_authenticated {settings : Settings} {calls : List Call}
    (h : ((start settings).after calls).authenticated = true) :
    ∃ a ∈ (start settings).answers calls, a.1.verb = .auth ∧ a.2 = 235 := by
  induction calls using List.reverseRecOn with
  | nil => cases h
  | append_singleton calls call ih =>
    rw [after_snoc] at h
    rw [answers_snoc]
    rcases (((start settings).after calls).deals call).authenticated_of h with hbefore | ⟨f, hf, hv⟩
    · obtain ⟨a, ha, haccepts⟩ := ih hbefore
      exact ⟨a, List.mem_append_left _ ha, haccepts⟩
    · exact ⟨(f, 235), List.mem_append_right _ (by simp [hf]), hv, rfl⟩

structure Responds (d : Dialogue) (call : Call) (f : InFlight) (password : String) : Prop where
  reply_eq : d.reply? call = some (f, 334)
  verb_eq : f.verb = .auth
  first : d.passwordSent = false
  password_eq : d.password = some password
  output_eq : d.outputOf call = [.raw (passwordResponse d.settings.user password).render]
  noted : (d.perform call).1.passwordSent = true

/-- What a step adds behind what it starts from is no response. -/
theorem Arranges.output {s : Dialogue} {r : Outcome} (h : s.Arranges r) :
    ∃ new, r.1.outbound = s.outbound ++ new ∧ ∀ t ∈ new, ¬t.IsResponse := by
  cases h with
  | aloof h => exact h.output
  | parks _ _ _ _ h | asks _ _ _ _ h =>
    rw [h]
    exact ⟨[], (List.append_nil _).symm, by simp⟩
  | authenticates _ _ _ h =>
    rw [h]
    exact ⟨_, rfl, fun t ht => not_isResponse_of_tags (Pipeline.tags_drain _ t ht)⟩

/-- Only in answer to the challenge the password is put out. -/
theorem responds_of_output {d : Dialogue} {call : Call} {t : Transmit} (ht : t ∈ d.outputOf call)
    (hresponse : t.IsResponse) : ∃ f password, d.Responds call f password := by
  have hnot {new : List Transmit} (ho : (d.perform call).1.outbound = d.outbound ++ new)
      (hnone : ∀ t ∈ new, ¬t.IsResponse) : False := by
    rw [outputOf_eq ho] at ht
    exact hnone t ht hresponse
  cases d.deals call with
  | follows s hs h =>
    obtain ⟨new, ho, hnone⟩ := h.output
    rw [hs.outbound_eq] at ho
    exact (hnot ho hnone).elim
  | learns text _ _ h | requests e _ _ _ _ _ h =>
    have ho : (d.perform call).1.outbound = d.outbound ++ [] := by
      rw [congrArg Prod.fst h]
      exact (List.append_nil _).symm
    exact (hnot ho (by simp)).elim
  | resumes text _ _ _ h =>
    have ho := congrArg (fun r : Outcome => r.1.outbound) h
    exact (hnot ho fun t ht => not_isResponse_of_tags (Pipeline.tags_drain _ t ht)).elim
  | responds f password hreply hverb hfirst hp h =>
    have hnext := congrArg Prod.fst h
    refine ⟨f, password, hreply, hverb, hfirst, hp, outputOf_eq ?_, ?_⟩
    · exact congrArg Dialogue.outbound hnext
    · exact congrArg Dialogue.passwordSent hnext
  | accepted f s hs _ _ h =>
    obtain ⟨new, ho, hnone⟩ := h.output
    have ho' : (d.perform call).1.outbound = s.outbound ++ new := ho
    rw [hs.outbound_eq] at ho'
    exact (hnot ho' hnone).elim
  | polls hcall h =>
    rw [hcall, outputOf_poll] at ht
    cases ht

def Offered (d : Dialogue) : Prop :=
  d.parked = true → d.phase ≠ .closed →
    d.settings.requireAuth = true ∧ d.capabilities.supportsPlain = true

/-- A parked dialogue that stays so and open keeps what the server has announced. -/
theorem Standing.capabilities_of_parked {d : Dialogue} {due : Nat} (h : d.Standing due)
    (hp : d.parked = true) (call : Call) (hdue : call = .encrypted → 0 < due)
    (hopen : (d.perform call).1.phase ≠ .closed) (hstays : (d.perform call).1.parked = true) :
    (d.perform call).1.capabilities = d.capabilities := by
  have hbefore : d.isFinished = false := by
    rw [isFinished_eq_false_iff]
    exact fun hclosed => hopen (perform_of_closed hclosed call).1
  obtain ⟨rfl, hd, -⟩ := h.of_parked hp hbefore
  cases call with
  | submit e =>
    rcases d.perform_submit e with ⟨heq, -⟩ | ⟨-, -, requested, asked, heq, -⟩ <;> rw [heq]
  | connected =>
    simp only [perform, connect]
    split <;> rfl
  | line line =>
    have hidle := hd.awaited_eq_none (by simp)
    have hread := d.takeLine_reading line
    change (d.takeLine line).1.phase ≠ .closed at hopen
    generalize d.takeLine line = r at hread hopen
    cases hread with
    | closed hclosed => simp [hbefore] at hclosed
    | malformed error | unasked reply => exact absurd (d.fail_phase _ _) hopen
    | held reply awaited _ _ hw | completed reply awaited _ _ hw => simp [hidle] at hw
  | password text =>
    simp [perform, givePassword, hp, hbefore, startAuth, Dialogue.send, flush] at hstays
  | encrypted => exact absurd (hdue rfl) (Nat.lt_irrefl 0)
  | cancel => exact absurd d.phase_cancel hopen
  | lost error => exact absurd (d.phase_disconnect error) hopen
  | poll => rfl

theorem Deals.offered {d : Dialogue} {call : Call} {r : Outcome} (h : d.Deals call r)
    (hunparked : d.parked = false) : r.1.Offered := by
  intro hparked hopen
  have hnot (hp : d.parked = true) :
      r.1.settings.requireAuth = true ∧ r.1.capabilities.supportsPlain = true := by
    rw [hunparked] at hp
    cases hp
  have hparks {s : Dialogue} (ha : s.mustAuthenticate = true)
      (hs : s.capabilities.supportsPlain = true) :
      s.settings.requireAuth = true ∧ s.capabilities.supportsPlain = true := by
    rw [mustAuthenticate, Bool.and_eq_true] at ha
    exact ⟨ha.1, hs⟩
  cases h with
  | follows s hs h =>
    cases h with
    | aloof h => exact hnot (hs.parked_eq ▸ h.parked_of hparked)
    | parks ha hplain _ _ h | asks ha hplain _ _ h =>
      rw [h]
      exact hparks ha hplain
    | authenticates _ _ _ h =>
      rw [h] at hparked
      exact hnot (hs.parked_eq ▸ hparked)
  | accepted f s hs _ _ h => exact hnot (hs.parked_eq ▸ h.parked_of hparked)
  | resumes text _ _ _ h =>
    rw [h] at hparked
    cases hparked
  | learns text _ _ h | requests e _ _ _ _ _ h | responds f password _ _ _ _ h | polls _ h =>
    rw [h] at hparked
    exact hnot hparked

/-- In every run a dialogue is parked only where authentication is asked for and the server offers
to take the password. -/
theorem EncryptsWhenDue.offered {settings : Settings} {calls : List Call}
    (h : EncryptsWhenDue settings calls) : ((start settings).after calls).Offered := by
  refine h.induction (fun hparked => by cases hparked) ?_
  intro calls call due hs hdue ih
  rw [after_snoc]
  generalize (start settings).after calls = d at hs ih ⊢
  cases hp : d.parked with
  | false => exact (d.deals call).offered hp
  | true =>
    intro hstays hopen
    have hbefore : d.phase ≠ .closed := fun hclosed => hopen (perform_of_closed hclosed call).1
    rw [settings_perform, hs.capabilities_of_parked hp call hdue hopen hstays]
    exact ih hp hbefore

structure Identifies (d : Dialogue) (call : Call) : Prop where
  required : d.settings.requireAuth = true
  offered : (d.perform call).1.capabilities.supportsPlain = true
  known : (d.perform call).1.password ≠ none
  output_eq : d.outputOf call =
    [.tagged (d.pipeline.issued + 1) (Command.auth .plain).render]
  sent_eq : d.sentBy call = [⟨d.pipeline.issued + 1, .auth⟩]

/-- A call that does nothing but send one command behind those in flight. -/
theorem outputOf_of_send {d s : Dialogue} {call : Call} {c : Command} (htidy : d.pipeline.Tidy)
    (hp : s.pipeline = d.answered call) (ho : s.outbound = d.outbound)
    (h : (d.perform call).1 = s.send c) :
    d.outputOf call = [.tagged (d.pipeline.issued + 1) c.render] ∧
      d.sentBy call = [⟨d.pipeline.issued + 1, c.verb⟩] := by
  have hwaiting : s.pipeline.waiting = [] := by rw [hp, (tidy_answered htidy call).waiting_eq]
  have hissued : s.pipeline.issued = d.pipeline.issued := by rw [hp, issued_answered]
  rw [send_eq s c hwaiting, hissued, ho] at h
  constructor
  · exact outputOf_eq (congrArg Dialogue.outbound h)
  · have hnew := congrArg Dialogue.pipeline h
    cases outgoing htidy call with
    | none _ hi =>
      rw [hnew] at hi
      exact absurd hi (Nat.succ_ne_self _)
    | some cs _ hcs hsent =>
      have hflight := congrArg (fun p => p.inFlight) (hcs.symm.trans hnew)
      dsimp only [Pipeline.sending] at hflight
      rw [issued_answered, hp] at hflight
      rw [hsent, List.append_cancel_left hflight]

inductive Initiates (d : Dialogue) (call : Call) (verb : Verb) (r : Outcome) : Prop
  | aloof (s : Dialogue) (hs : d.Follows call s) (h : s.Aloof r)
  | accepted (f : InFlight) (s : Dialogue) (hs : d.Follows call s)
    (hanswer : d.answer? call = some (f, 235)) (hverb : f.verb = .auth)
    (h : Aloof { s with authenticated := true } r)
  | greeted (hverb : verb = .auth) (s : Dialogue) (hs : d.Follows call s)
    (ha : s.mustAuthenticate = true) (hplain : s.capabilities.supportsPlain = true)
    (hp : s.password ≠ none) (h : r = (s.startAuth, []))
  | resumed (hverb : verb = .auth) (text : String) (hcall : call = .password text)
    (hp : d.parked = true) (hopen : d.phase ≠ .closed)
    (h : r = (startAuth { d with password := some text, parked := false }, []))

/-- A command that is in flight after a call, and was not before, was sent in one of the ways that
`Initiates` lists. -/
theorem Deals.initiates {d : Dialogue} {call : Call} {r : Outcome} (h : d.Deals call r)
    {verb : Verb} (hbefore : verb ∉ (d.answered call).verbs) (hafter : verb ∈ r.1.pipeline.verbs) :
    d.Initiates call verb r := by
  have hnot {s : Dialogue} (hs : s.pipeline = d.answered call)
      (hmem : verb ∈ s.pipeline.verbs) : d.Initiates call verb r :=
    absurd (hs ▸ hmem) hbefore
  have hnew {s : Dialogue} (hs : s.pipeline = d.answered call)
      (hmem : verb ∈ (s.send (.auth .plain)).pipeline.verbs) : verb = .auth := by
    rw [mem_verbs_send, hs] at hmem
    exact hmem.resolve_left hbefore
  cases h with
  | follows s hs h =>
    cases h with
    | aloof h => exact .aloof s hs h
    | parks _ _ _ _ h | asks _ _ _ _ h =>
      rw [h] at hafter
      exact hnot hs.pipeline_eq hafter
    | authenticates ha hplain hp h =>
      have hsent : verb ∈ s.startAuth.pipeline.verbs := by rwa [h] at hafter
      exact .greeted (hnew (s := { s with passwordSent := false }) hs.pipeline_eq hsent) s hs ha
        hplain hp h
  | resumes text hcall hp hopen h =>
    have hanswered : d.pipeline = d.answered call := by
      rw [hcall]
      rfl
    rw [h] at hafter
    exact .resumed (hnew hanswered hafter) text hcall hp hopen h
  | accepted f s hs hanswer hverb h => exact .accepted f s hs hanswer hverb h
  | learns text hcall _ h | requests e hcall _ _ _ _ h | polls hcall h =>
    have hanswered : d.pipeline = d.answered call := by
      rw [hcall]
      rfl
    rw [h] at hafter
    exact hnot hanswered hafter
  | responds f password hreply _ _ _ h =>
    have hanswered : d.pipeline = d.answered call := by
      rw [answered, answer?, hreply]
      rfl
    rw [h] at hafter
    exact hnot hanswered hafter

theorem initiates_of_sentBy {d : Dialogue} (htidy : d.pipeline.Tidy) {call : Call} {due : Nat}
    (hs : (d.perform call).1.Standing due) {verb : Verb}
    (hv : verb = .mail ∨ verb.isOpening = true)
    (hmem : verb ∈ (d.sentBy call).map (·.verb)) :
    verb ∉ (d.answered call).verbs ∧ verb ∈ (d.perform call).1.pipeline.verbs ∧
      d.Initiates call verb ((d.perform call).1, d.eventsOf call) := by
  obtain ⟨hbefore, hafter⟩ := notMem_answered_of_sentBy htidy hs hv hmem
  exact ⟨hbefore, hafter, (d.deals call).initiates hbefore hafter⟩

/-- AUTH is sent only where it is asked for, offered, and possible. -/
theorem identifies_of_sentBy {d : Dialogue} (htidy : d.pipeline.Tidy) (hoffered : d.Offered)
    {call : Call} {due : Nat} (hs : (d.perform call).1.Standing due)
    (hmem : .auth ∈ (d.sentBy call).map (·.verb)) : d.Identifies call := by
  obtain ⟨hbefore, hafter, hinitiates⟩ := initiates_of_sentBy htidy hs (Or.inr rfl) hmem
  cases hinitiates with
  | aloof s hf h | accepted _ s hf _ _ h => exact absurd (hf.pipeline_eq ▸ h.auth_of hafter) hbefore
  | greeted _ s hf ha hplain hp h =>
    have hnext := congrArg Prod.fst h
    obtain ⟨hout, hsent⟩ := outputOf_of_send (s := { s with passwordSent := false }) htidy
      hf.pipeline_eq hf.outbound_eq hnext
    rw [mustAuthenticate, Bool.and_eq_true, hf.settings_eq] at ha
    refine ⟨ha.1, ?_, ?_, hout, hsent⟩
    · rw [hnext]
      exact hplain
    · rw [hnext]
      exact hp
  | resumed _ text hcall hp hopen h =>
    have hnext := congrArg Prod.fst h
    have hanswered : d.pipeline = d.answered call := by
      rw [hcall]
      rfl
    obtain ⟨hrequired, hplain⟩ := hoffered hp hopen
    obtain ⟨hout, hsent⟩ := outputOf_of_send
      (s := { d with password := some text, parked := false, passwordSent := false }) htidy
      hanswered rfl hnext
    refine ⟨hrequired, ?_, ?_, hout, hsent⟩
    · rw [hnext]
      exact hplain
    · rw [hnext]
      simp [startAuth, Dialogue.send, flush]

/-- EHLO is sent only with what was announced before forgotten. -/
theorem knowsPlain_of_ehlo {d : Dialogue} (htidy : d.pipeline.Tidy) {call : Call} {due : Nat}
    (hs : (d.perform call).1.Standing due) (hmem : .ehlo ∈ (d.sentBy call).map (·.verb)) :
    (d.perform call).1.capabilities.knowsPlain = false := by
  obtain ⟨hbefore, hafter, hinitiates⟩ := initiates_of_sentBy htidy hs (Or.inr rfl) hmem
  cases hinitiates with
  | aloof s hf h | accepted _ s hf _ _ h =>
    rcases h.ehlo_of hafter with hold | hgone
    · exact absurd (hf.pipeline_eq ▸ hold) hbefore
    · rw [hgone]
      rfl
  | greeted hverb | resumed hverb => cases hverb

/-- MAIL is sent only where authentication is done or not asked for. -/
theorem authenticated_of_mail {d : Dialogue} (htidy : d.pipeline.Tidy) {call : Call} {due : Nat}
    (hs : (d.perform call).1.Standing due) (hmem : .mail ∈ (d.sentBy call).map (·.verb)) :
    d.mustAuthenticate = false ∨ ∃ f, d.answer? call = some (f, 235) ∧ f.verb = .auth := by
  obtain ⟨hbefore, hafter, hinitiates⟩ := initiates_of_sentBy htidy hs (Or.inl rfl) hmem
  cases hinitiates with
  | aloof s hf h =>
    rcases h.mail_of hafter with hold | hdone
    · exact absurd (hf.pipeline_eq ▸ hold) hbefore
    · exact Or.inl (hf.mustAuthenticate_eq ▸ hdone)
  | accepted f s _ hanswer hverb => exact Or.inr ⟨f, hanswer, hverb⟩
  | greeted hverb | resumed hverb => cases hverb

def AnnouncesPlain (settings : Settings) (calls : List Call) : Prop :=
  ∃ before line later reply, calls = before ++ .line line :: later ∧
    ((start settings).after before).awaited = some (.answer .ehlo) ∧
    Reply.parse line = .ok reply ∧ reply.code = 250 ∧
    (Capabilities.empty.addLine reply.text).supportsPlain = true ∧
    ∀ f ∈ ((start settings).after before).allSent (.line line :: later), f.verb ≠ .ehlo

/-- An announcement holds until EHLO is sent again. -/
theorem AnnouncesPlain.snoc {settings : Settings} {calls : List Call} {call : Call}
    (h : AnnouncesPlain settings calls)
    (hnone : ∀ f ∈ ((start settings).after calls).sentBy call, f.verb ≠ .ehlo) :
    AnnouncesPlain settings (calls ++ [call]) := by
  obtain ⟨before, line, later, reply, rfl, hw, hparse, hcode, hplain, hsent⟩ := h
  refine ⟨before, line, later ++ [call], reply, by simp, hw, hparse, hcode, hplain, ?_⟩
  rw [after_append] at hnone
  rw [← List.cons_append, allSent_snoc]
  intro f hf
  rcases List.mem_append.mp hf with hearlier | hlast
  · exact hsent f hearlier
  · exact hnone f hlast

theorem Announces.announcesPlain {settings : Settings} {calls : List Call} {call : Call}
    (h : ((start settings).after calls).Announces call)
    (hnone : ∀ f ∈ ((start settings).after calls).sentBy call, f.verb ≠ .ehlo) :
    AnnouncesPlain settings (calls ++ [call]) := by
  obtain ⟨line, reply, rfl, hw, hparse, hcode, hplain⟩ := h
  refine ⟨calls, line, [], reply, rfl, hw, hparse, hcode, hplain, ?_⟩
  simpa [allSent, record] using hnone

/-- Only a line of a reply to EHLO lets a dialogue know of PLAIN. -/
theorem Deals.plain_of {d : Dialogue} {call : Call} {r : Outcome} (h : d.Deals call r)
    (hplain : r.1.capabilities.knowsPlain = true) :
    d.capabilities.knowsPlain = true ∨ d.Announces call := by
  have hkept {s next : Dialogue} (hs : d.Follows call s)
      (hc : next.capabilities = s.capabilities ∨ next.capabilities = .empty)
      (hnext : next.capabilities.knowsPlain = true) :
      d.capabilities.knowsPlain = true ∨ d.Announces call := by
    rcases hc with hsame | hgone
    · exact hs.plain_of (hsame ▸ hnext)
    · rw [hgone] at hnext
      cases hnext
  cases h with
  | follows s hs h =>
    cases h with
    | aloof h => exact hkept hs h.capabilities_eq hplain
    | parks _ _ _ _ h | asks _ _ _ _ h | authenticates _ _ _ h =>
      rw [h] at hplain
      exact hs.plain_of hplain
  | accepted f s hs _ _ h => exact hkept hs h.capabilities_eq hplain
  | learns text _ _ h | resumes text _ _ _ h | requests e _ _ _ _ _ h
  | responds f password _ _ _ _ h | polls _ h =>
    rw [h] at hplain
    exact Or.inl hplain

/-- What a dialogue knows of PLAIN it knows from the latest reply to EHLO. -/
theorem EncryptsWhenDue.announcesPlain {settings : Settings} {calls : List Call}
    (h : EncryptsWhenDue settings calls)
    (hplain : ((start settings).after calls).capabilities.knowsPlain = true) :
    AnnouncesPlain settings calls := by
  induction calls using List.reverseRecOn with
  | nil =>
    have hempty : Capabilities.empty.knowsPlain = false := by decide
    have hboth := hempty.symm.trans hplain
    cases hboth
  | append_singleton calls call ih =>
    have hnext := h.standing.2
    rw [after_snoc] at hplain hnext
    have hnone : ∀ f ∈ ((start settings).after calls).sentBy call, f.verb ≠ .ehlo := by
      intro f hf hverb
      have hgone := knowsPlain_of_ehlo (tidy_after settings calls) hnext
        (List.mem_map.mpr ⟨f, hf, hverb⟩)
      rw [hgone] at hplain
      cases hplain
    rcases (((start settings).after calls).deals call).plain_of hplain with hbefore | hline
    · exact (ih h.of_append hbefore).snoc hnone
    · exact hline.announcesPlain hnone

/-- The mark that the password was put out goes only when AUTH is sent again. -/
theorem Deals.passwordSent_of {d : Dialogue} {call : Call} {r : Outcome} (h : d.Deals call r)
    (hsent : d.passwordSent = true) :
    r.1.passwordSent = true ∨ ∃ s, s.pipeline = d.answered call ∧ s.outbound = d.outbound ∧
      r.1 = Dialogue.send s (.auth .plain) := by
  cases h with
  | follows s hs h =>
    cases h with
    | aloof h => exact Or.inl (by rw [h.passwordSent_eq, hs.passwordSent_eq, hsent])
    | parks _ _ _ _ h | asks _ _ _ _ h =>
      rw [h]
      exact Or.inl (hs.passwordSent_eq.trans hsent)
    | authenticates _ _ _ h =>
      rw [h]
      exact Or.inr ⟨{ s with passwordSent := false }, hs.pipeline_eq, hs.outbound_eq, rfl⟩
  | resumes text hcall _ _ h =>
    rw [h, hcall]
    exact Or.inr ⟨{ d with password := some text, parked := false, passwordSent := false },
      rfl, rfl, rfl⟩
  | responds f password _ _ _ _ h =>
    rw [h]
    exact Or.inl rfl
  | accepted f s hs _ _ h =>
    have hkept : r.1.passwordSent = s.passwordSent := h.passwordSent_eq
    exact Or.inl (by rw [hkept, hs.passwordSent_eq, hsent])
  | learns text _ _ h | requests e _ _ _ _ _ h | polls _ h =>
    rw [h]
    exact Or.inl hsent

/-- What is answered was sent before. -/
theorem mem_allSent_of_reply? {settings : Settings} {calls : List Call} {call : Call}
    {f : InFlight} {code : Code} (h : ((start settings).after calls).reply? call = some (f, code)) :
    f ∈ (start settings).allSent calls := by
  obtain ⟨line, reply, -, hf, hline, -⟩ := reply?_eq_some h
  rw [← (answers_sent settings calls).2 hline.phase_ne]
  exact List.mem_append_right _ (List.mem_of_head? hf)

/-- AUTH goes out at most once, since what has been said is in the course of one submission. -/
theorem EncryptsWhenDue.count_auth_le {settings : Settings} {calls : List Call}
    (h : EncryptsWhenDue settings calls) :
    (((start settings).allSent calls).map (·.verb)).count .auth ≤ 1 := by
  obtain ⟨said, hledger⟩ := h.ledger
  rw [hledger.verbs_allSent]
  exact hledger.told.turn.inCourse.count_auth_le

/-- What has gone out of the password so far: at most one response, with the mark that it was put
out, and only after AUTH was sent. -/
structure Answered (settings : Settings) (calls : List Call) : Prop where
  noted : ∀ t ∈ (start settings).putOut calls, t.IsResponse →
    ((start settings).after calls).passwordSent = true ∧
      .auth ∈ ((start settings).allSent calls).map (·.verb)
  once : ((start settings).putOut calls).Pairwise fun t u => t.IsResponse → ¬u.IsResponse

theorem Answered.of_silent {settings : Settings} {calls : List Call} {call : Call}
    (h : Answered settings calls) (hdue : EncryptsWhenDue settings (calls ++ [call]))
    (hnone : ∀ t ∈ ((start settings).after calls).outputOf call, ¬t.IsResponse) :
    Answered settings (calls ++ [call]) := by
  refine ⟨fun t ht hresponse => ?_, ?_⟩
  · rw [putOut_snoc] at ht
    have hbefore := (List.mem_append.mp ht).resolve_right fun hnew => hnone t hnew hresponse
    obtain ⟨hsent, hauth⟩ := h.noted t hbefore hresponse
    rw [after_snoc, allSent_snoc, List.map_append]
    refine ⟨?_, List.mem_append_left _ hauth⟩
    rcases (((start settings).after calls).deals call).passwordSent_of hsent with
      hkept | ⟨s, hp, ho, hnext⟩
    · exact hkept
    · have hagain := (outputOf_of_send (tidy_after settings calls) hp ho hnext).2
      have hcount := hdue.count_auth_le
      rw [allSent_snoc, hagain, List.map_append, List.count_append] at hcount
      have hfirst := List.count_pos_iff.mpr hauth
      simp [Command.verb] at hcount
      omega
  · rw [putOut_snoc, List.pairwise_append]
    refine ⟨h.once, ?_, fun t _ u hu _ => hnone u hu⟩
    exact List.Pairwise.imp_of_mem (fun _ hu _ _ => hnone _ hu)
      (List.pairwise_of_forall (R := fun _ _ => True) fun _ _ => trivial)

/-- The challenge is answered once: before it no response has gone out, and it leaves the mark that
one has. -/
theorem Responds.answered {settings : Settings} {calls : List Call} {call : Call} {f : InFlight}
    {password : String} (h : ((start settings).after calls).Responds call f password)
    (hbefore : Answered settings calls) : Answered settings (calls ++ [call]) := by
  have hauth : .auth ∈ ((start settings).allSent calls).map (·.verb) :=
    List.mem_map.mpr ⟨f, mem_allSent_of_reply? h.reply_eq, h.verb_eq⟩
  refine ⟨fun t _ _ => ?_, ?_⟩
  · rw [after_snoc, allSent_snoc, List.map_append]
    exact ⟨h.noted, List.mem_append_left _ hauth⟩
  · rw [putOut_snoc, h.output_eq, List.pairwise_append]
    refine ⟨hbefore.once, List.pairwise_singleton _ _, fun t ht u _ hresponse => ?_⟩
    have hnoted := (hbefore.noted t ht hresponse).1
    rw [h.first] at hnoted
    cases hnoted

/-- What has gone out of the password, by induction over the calls of a run. -/
theorem EncryptsWhenDue.answered {settings : Settings} {calls : List Call}
    (h : EncryptsWhenDue settings calls) : Answered settings calls := by
  induction calls using List.reverseRecOn with
  | nil => exact ⟨by simp [start], by simp [start]⟩
  | append_singleton calls call ih =>
    by_cases hresponse : ∃ t ∈ ((start settings).after calls).outputOf call, t.IsResponse
    · obtain ⟨t, ht, hanswers⟩ := hresponse
      obtain ⟨f, password, hresponds⟩ := responds_of_output ht hanswers
      exact hresponds.answered (ih h.of_append)
    · refine (ih h.of_append).of_silent h fun t ht hanswers => hresponse ⟨t, ht, hanswers⟩

inductive Asks (d : Dialogue) (r : Outcome) : Prop
  | silently (hsame : r.1.passwordRequested = d.passwordRequested)
    (hphase : r.1.phase = .disconnected → d.phase = .disconnected)
    (hnone : ∀ e ∈ r.2, e.asksForPassword = false)
  | submitting (hnew : d.envelope = none) (hphase : d.phase = .disconnected)
    (ha : d.settings.requireAuth = true) (hp : d.password = none) (hgiven : r.1.envelope ≠ none)
    (hnoted : r.1.passwordRequested = true) (hone : r.2.countP Event.asksForPassword = 1)
  | parking (hfirst : d.passwordRequested = false) (ha : d.settings.requireAuth = true)
    (hp : d.password = none) (hparked : r.1.parked = true)
    (hnoted : r.1.passwordRequested = true) (hone : r.2.countP Event.asksForPassword = 1)

theorem Aloof.silent {d : Dialogue} {r : Outcome} (h : d.Aloof r) :
    ∀ e ∈ r.2, e.asksForPassword = false := by
  intro e he
  cases e with
  | passwordRequested user host => exact absurd he (h.unasked user host)
  | _ => rfl

theorem Deals.asks {d : Dialogue} {call : Call} {r : Outcome} (h : d.Deals call r) : d.Asks r := by
  cases h with
  | follows s hs h =>
    cases h with
    | aloof h =>
      exact .silently (h.passwordRequested_eq.trans hs.passwordRequested_eq)
        (fun hp => hs.phase_of (h.phase_of hp)) h.silent
    | parks _ _ _ _ h | authenticates _ _ _ h =>
      rw [h]
      exact .silently hs.passwordRequested_eq hs.phase_of (by simp)
    | asks ha _ hp hr h =>
      rw [mustAuthenticate, Bool.and_eq_true, hs.settings_eq] at ha
      rw [hs.password_eq] at hp
      rw [hs.passwordRequested_eq] at hr
      rw [h]
      exact .parking hr ha.1 hp rfl rfl rfl
  | accepted f s hs _ _ h =>
    have hkept : r.1.passwordRequested = s.passwordRequested := h.passwordRequested_eq
    exact .silently (hkept.trans hs.passwordRequested_eq) (fun hp => hs.phase_of (h.phase_of hp))
      h.silent
  | requests e _ hnew hphase ha hp h =>
    rw [h]
    exact .submitting hnew hphase ha hp (by simp) rfl rfl
  | learns text _ _ h | resumes text _ _ _ h | responds f password _ _ _ _ h | polls _ h =>
    rw [h]
    exact .silently rfl id (by simp)

structure AskedOnce (settings : Settings) (calls : List Call) : Prop where
  late : ((start settings).after calls).passwordRequested = true →
    ((start settings).after calls).envelope ≠ none ∨
      ((start settings).after calls).phase ≠ .disconnected
  count_eq : ((start settings).events calls).countP Event.asksForPassword =
    if ((start settings).after calls).passwordRequested then 1 else 0

theorem AskedOnce.snoc {settings : Settings} {calls : List Call} (h : AskedOnce settings calls)
    (call : Call) {due : Nat} (hs : (((start settings).after calls).perform call).1.Standing due) :
    AskedOnce settings (calls ++ [call]) := by
  have hasks := (((start settings).after calls).deals call).asks
  have henvelope := envelope_perform ((start settings).after calls) call
  obtain ⟨hlate, hcount⟩ := h
  constructor
  · rw [after_snoc]
    intro hnoted
    cases hasks with
    | silently hsame hphase =>
      rcases hlate (hsame ▸ hnoted) with hgiven | hconnected
      · obtain ⟨e, he⟩ := Option.ne_none_iff_exists'.mp hgiven
        rw [henvelope e he]
        exact Or.inl (by simp)
      · exact Or.inr fun hp => hconnected (hphase hp)
    | submitting _ _ _ _ hgiven => exact Or.inl hgiven
    | parking _ _ _ hparked =>
      refine Or.inr fun hp => ?_
      have hopen : (((start settings).after calls).perform call).1.isFinished = false := by
        simp [isFinished, hp]
      have hready := (hs.of_parked hparked hopen).2.1.phase_eq
      rw [hp] at hready
      cases hready
  · rw [after_snoc, events_snoc, List.countP_append, hcount]
    have heq : ((start settings).after calls).eventsOf call =
        (((start settings).after calls).perform call).2.events := rfl
    cases hasks with
    | silently hsame _ hnone =>
      have hzero := List.countP_eq_zero.mpr fun e he => by simpa using hnone e he
      dsimp only at hsame hzero
      rw [hsame, hzero, Nat.add_zero]
    | submitting hnew hphase _ _ _ hnoted hone =>
      have hfirst : ((start settings).after calls).passwordRequested = false := by
        by_contra hasked
        rcases hlate (by simpa using hasked) with hgiven | hconnected
        · exact hgiven hnew
        · exact hconnected hphase
      dsimp only at hnoted hone
      rw [hfirst, hnoted, hone]
      rfl
    | parking hfirst _ _ _ hnoted hone =>
      dsimp only at hnoted hone
      rw [hfirst, hnoted, hone]
      rfl

/-- The password is asked for at most once in a run, by induction over its calls. -/
theorem EncryptsWhenDue.askedOnce {settings : Settings} {calls : List Call}
    (h : EncryptsWhenDue settings calls) : AskedOnce settings calls := by
  induction calls using List.reverseRecOn with
  | nil => exact ⟨by simp [start], rfl⟩
  | append_singleton calls call ih =>
    have hnext := h.standing.2
    rw [after_snoc] at hnext
    exact (ih h.of_append).snoc call hnext

/-- How a run authenticates, if at all. -/
structure Authenticates (settings : Settings) (calls : List Call) : Prop where
  recorded : ∃ said, Conveys said ((start settings).putOut calls) ∧
    (start settings).allSent calls = (Pipeline.numbered 0 said).map Pipeline.sent
  without : settings.requireAuth = false →
    (∀ f ∈ (start settings).allSent calls, f.verb ≠ .auth) ∧
      ∀ t ∈ (start settings).putOut calls, ¬t.IsResponse
  auth_once : (((start settings).allSent calls).map (·.verb)).count .auth ≤ 1
  auth : ∀ before call later, calls = before ++ call :: later →
    ∀ f ∈ ((start settings).after before).sentBy call, f.verb = .auth →
      ((start settings).after before).outputOf call = [.tagged f.tag (Command.auth .plain).render] ∧
        lastPassword (before ++ [call]) ≠ none ∧ AnnouncesPlain settings (before ++ [call])
  response_once : ((start settings).putOut calls).Pairwise fun t u => t.IsResponse → ¬u.IsResponse
  response : ∀ before call later, calls = before ++ call :: later →
    ∀ t ∈ ((start settings).after before).outputOf call, t.IsResponse →
      ∃ f password, f ∈ (start settings).allSent before ∧ f.verb = .auth ∧
        ((start settings).after before).reply? call = some (f, 334) ∧
        lastPassword before = some password ∧
        t = .raw (passwordResponse settings.user password).render
  mail : settings.requireAuth = true → ∀ before call later, calls = before ++ call :: later →
    ∀ f ∈ ((start settings).after before).sentBy call, f.verb = .mail →
      ∃ a ∈ (start settings).answers (before ++ [call]), a.1.verb = .auth ∧ a.2 = 235
  request_once : ((start settings).events calls).countP Event.asksForPassword ≤ 1
  request : ∀ before call later, calls = before ++ call :: later →
    ∀ e ∈ ((start settings).after before).eventsOf call, e.asksForPassword = true →
      settings.requireAuth = true ∧ lastPassword before = none

/-- Whatever call sends AUTH, the password is known by then and the server has announced that it
takes one. -/
theorem EncryptsWhenDue.identifies {settings : Settings} {before : List Call} {call : Call}
    (h : EncryptsWhenDue settings (before ++ [call])) {f : InFlight}
    (hf : f ∈ ((start settings).after before).sentBy call) (hverb : f.verb = .auth) :
    ((start settings).after before).Identifies call := by
  have hnext := h.standing.2
  rw [after_snoc] at hnext
  exact identifies_of_sentBy (tidy_after settings before) h.of_append.offered hnext
    (List.mem_map.mpr ⟨f, hf, hverb⟩)

/-- Whatever a run has recorded was recorded by one of its calls. -/
theorem occurs_of_mem_allSent {settings : Settings} {calls : List Call} {f : InFlight}
    (h : f ∈ (start settings).allSent calls) :
    Occurs calls fun before call => f ∈ ((start settings).after before).sentBy call := by
  induction calls using List.reverseRecOn with
  | nil => cases h
  | append_singleton calls call ih =>
    rw [allSent_snoc] at h
    rw [occurs_snoc_iff]
    exact (List.mem_append.mp h).imp ih id

/-- Where no authentication is asked for, AUTH is not sent. -/
theorem EncryptsWhenDue.requireAuth_of_auth {settings : Settings} {calls : List Call}
    (h : EncryptsWhenDue settings calls) {f : InFlight} (hf : f ∈ (start settings).allSent calls)
    (hverb : f.verb = .auth) : settings.requireAuth = true := by
  obtain ⟨before, call, later, rfl, hsent⟩ := occurs_of_mem_allSent hf
  have hrequired := (h.of_cons.identifies hsent hverb).required
  rwa [settings_after] at hrequired

/-- Where no authentication is asked for, neither AUTH nor a response goes out. -/
theorem EncryptsWhenDue.unauthenticated {settings : Settings} {calls : List Call}
    (h : EncryptsWhenDue settings calls) (hfree : settings.requireAuth = false) :
    (∀ f ∈ (start settings).allSent calls, f.verb ≠ .auth) ∧
      ∀ t ∈ (start settings).putOut calls, ¬t.IsResponse := by
  have hnone (f : InFlight) (hf : f ∈ (start settings).allSent calls) : f.verb ≠ .auth := by
    intro hverb
    have hrequired := h.requireAuth_of_auth hf hverb
    rw [hfree] at hrequired
    cases hrequired
  refine ⟨hnone, fun t ht hresponse => ?_⟩
  obtain ⟨f, hf, hverb⟩ := List.mem_map.mp (h.answered.noted t ht hresponse).2
  exact hnone f hf hverb

/-- AUTH is put out when the password is known and the server has announced that it takes it. -/
theorem EncryptsWhenDue.announced_of_auth {settings : Settings} {before : List Call} {call : Call}
    (h : EncryptsWhenDue settings (before ++ [call])) {f : InFlight}
    (hf : f ∈ ((start settings).after before).sentBy call) (hverb : f.verb = .auth) :
    ((start settings).after before).outputOf call = [.tagged f.tag (Command.auth .plain).render] ∧
      lastPassword (before ++ [call]) ≠ none ∧ AnnouncesPlain settings (before ++ [call]) := by
  have hidentifies := h.identifies hf hverb
  have hnext := after_snoc (start settings) before call
  refine ⟨?_, ?_, ?_⟩
  · have hone := hidentifies.sent_eq ▸ hf
    rw [List.mem_singleton] at hone
    rw [hone, hidentifies.output_eq]
  · rw [← password_after settings, hnext]
    exact hidentifies.known
  · refine h.announcesPlain ?_
    rw [hnext]
    exact Capabilities.knowsPlain_of_supportsPlain hidentifies.offered

/-- A response is put out in answer to the challenge, and carries the password given last. -/
theorem challenge_of_response {settings : Settings} {before : List Call} {call : Call}
    {t : Transmit} (ht : t ∈ ((start settings).after before).outputOf call)
    (hresponse : t.IsResponse) :
    ∃ f password, f ∈ (start settings).allSent before ∧ f.verb = .auth ∧
      ((start settings).after before).reply? call = some (f, 334) ∧
      lastPassword before = some password ∧
      t = .raw (passwordResponse settings.user password).render := by
  obtain ⟨f, password, hresponds⟩ := responds_of_output ht hresponse
  refine ⟨f, password, mem_allSent_of_reply? hresponds.reply_eq, hresponds.verb_eq,
    hresponds.reply_eq, ?_, ?_⟩
  · rw [← password_after settings, hresponds.password_eq]
  · rw [hresponds.output_eq, List.mem_singleton] at ht
    rw [ht, settings_after]

/-- Where authentication is asked for, MAIL is put out after AUTH was accepted. -/
theorem EncryptsWhenDue.accepted_of_mail {settings : Settings} {before : List Call} {call : Call}
    (h : EncryptsWhenDue settings (before ++ [call])) (hrequired : settings.requireAuth = true)
    {f : InFlight} (hf : f ∈ ((start settings).after before).sentBy call)
    (hverb : f.verb = .mail) :
    ∃ a ∈ (start settings).answers (before ++ [call]), a.1.verb = .auth ∧ a.2 = 235 := by
  have hnext := h.standing.2
  rw [after_snoc] at hnext
  rw [answers_snoc]
  rcases authenticated_of_mail (tidy_after settings before) hnext
    (List.mem_map.mpr ⟨f, hf, hverb⟩) with hdone | ⟨a, ha, hauth⟩
  · have hauthenticated : ((start settings).after before).authenticated = true := by
      simpa [mustAuthenticate, settings_after, hrequired] using hdone
    obtain ⟨a, ha, haccepts⟩ := accepted_of_authenticated hauthenticated
    exact ⟨a, List.mem_append_left _ ha, haccepts⟩
  · exact ⟨(a, 235), List.mem_append_right _ (by simp [ha]), hauth, rfl⟩

/-- The password is asked for where authentication is, and while it is not known. -/
theorem unknown_of_asksForPassword {settings : Settings} {before : List Call} {call : Call}
    {e : Event} (he : e ∈ ((start settings).after before).eventsOf call)
    (hasks : e.asksForPassword = true) :
    settings.requireAuth = true ∧ lastPassword before = none := by
  rw [← password_after settings]
  cases (((start settings).after before).deals call).asks with
  | silently _ _ hnone =>
    have hsilent := hnone e he
    rw [hasks] at hsilent
    cases hsilent
  | submitting _ _ ha hp | parking _ ha hp =>
    rw [settings_after] at ha
    exact ⟨ha, hp⟩

/-- Every run authenticates in this way, as long as the connection is encrypted only when that is
due. -/
theorem authenticates_run (settings : Settings) (calls : List Call)
    (h : EncryptsWhenDue settings calls) : Authenticates settings calls := by
  obtain ⟨said, hledger⟩ := h.ledger
  refine ⟨⟨said, hledger.conveys, hledger.sent_eq⟩, h.unauthenticated, h.count_auth_le, ?_,
    h.answered.once, ?_, ?_, ?_, ?_⟩
  · rintro before call later rfl f hf hverb
    exact h.of_cons.announced_of_auth hf hverb
  · rintro before call later rfl t ht hresponse
    exact challenge_of_response ht hresponse
  · rintro hrequired before call later rfl f hf hverb
    exact h.of_cons.accepted_of_mail hrequired hf hverb
  · rw [h.askedOnce.count_eq]
    split <;> simp
  · rintro before call later rfl e he hasks
    exact unknown_of_asksForPassword he hasks

/-- A session that is asked for its password, and puts it out once it is challenged. -/
theorem authenticates_guardedSession :
    EncryptsWhenDue .guarded guardedSession ∧
      .raw (passwordResponse "alice" "secret").render ∈ (start .guarded).putOut guardedSession ∧
      Authenticates .guarded guardedSession := by
  have hdue : EncryptsWhenDue .guarded guardedSession := by decide +kernel
  exact ⟨hdue, by decide +kernel, authenticates_run .guarded guardedSession hdue⟩

end Dialogue

end SmtpClient
