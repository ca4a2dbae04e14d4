import SmtpClient.Proofs.Authentication
import SmtpClient.Proofs.Waiting

/-!
When the password arrives does not matter. A dialogue that is told the password while it is parked
goes on as if it had known it all along, so up to the first line that is taken after AUTH was sent,
or would have been, the password may be given at any time: the same is put out and reported, apart
from the request for the password.
-/
namespace SmtpClient

def unasked (events : List Event) : List Event := events.filter (!·.asksForPassword)

theorem unasked_append (events later : List Event) :
    unasked (events ++ later) = unasked events ++ unasked later := List.filter_append ..

namespace Dialogue

def telling (d : Dialogue) (password : Option String) (asked : Bool) : Dialogue :=
  { d with password := password, passwordRequested := asked }

inductive Matches (password : Option String) (asked : Bool) (r r' : Outcome) : Prop
  | same (h : r'.1 = r.1.telling password asked) (he : unasked r'.2 = unasked r.2)
  | parks (s : Dialogue) (requested : Bool) (hnone : s.password = none) (hopen : s.phase ≠ .closed)
    (h : r.1 = { s with parked := true, passwordRequested := requested })
    (h' : r'.1 = (s.telling password asked).startAuth) (he : unasked r'.2 = unasked r.2)

theorem matches_of_eq {password : Option String} {asked : Bool} {r r' : Outcome}
    (h : r' = (r.1.telling password asked, r.2)) : Matches password asked r r' := by
  rw [h]
  exact .same rfl rfl

section Telling

variable (d : Dialogue) (password : Option String) (asked : Bool)

theorem fail_telling (error : Error) (mayQuit : Bool) :
    (d.telling password asked).fail error mayQuit =
      ((d.fail error mayQuit).1.telling password asked, (d.fail error mayQuit).2) := by
  rw [fail_eq, fail_eq]
  rfl

theorem settle_telling (awaited : Awaited) (code : Code) :
    settle { d.telling password asked with replyTexts := [] } awaited code =
      (settle { d with replyTexts := [] } awaited code).telling password asked := by
  unfold settle
  split
  · rfl
  · split <;> rfl

theorem sendNextRecipient_telling :
    (d.telling password asked).sendNextRecipient =
      d.sendNextRecipient.telling password asked := by
  unfold sendNextRecipient
  have henvelope : (d.telling password asked).envelope = d.envelope := rfl
  rw [henvelope]
  split
  · rfl
  · next e _ =>
    have hcount : (d.telling password asked).recipientsSent = d.recipientsSent := rfl
    rw [hcount]
    split <;> rfl

theorem sendBody_telling :
    (d.telling password asked).sendBody =
      (d.sendBody.1.telling password asked, d.sendBody.2) := by
  unfold sendBody
  have henvelope : (d.telling password asked).envelope = d.envelope := rfl
  rw [henvelope]
  split
  · rfl
  · exact d.fail_telling password asked _ _

theorem beginTransaction_telling :
    (d.telling password asked).beginTransaction =
      (d.beginTransaction.1.telling password asked, d.beginTransaction.2) := by
  unfold beginTransaction
  have henvelope : (d.telling password asked).envelope = d.envelope := rfl
  have hcapabilities : (d.telling password asked).capabilities = d.capabilities := rfl
  rw [henvelope]
  split
  · exact d.fail_telling password asked _ _
  · next e _ =>
    rw [hcapabilities]
    split
    · exact d.fail_telling password asked _ _
    · split <;> rfl

/-- The challenge is answered in the same way where the password is the same. -/
theorem sendPassword_telling (h : d.password = password) :
    (d.telling password asked).sendPassword =
      (d.sendPassword.1.telling password asked, d.sendPassword.2) := by
  subst h
  unfold sendPassword
  have hsent : (d.telling d.password asked).passwordSent = d.passwordSent := rfl
  have hpassword : (d.telling d.password asked).password = d.password := rfl
  rw [hsent, hpassword]
  split
  · exact d.fail_telling d.password asked _ _
  · split
    · exact d.fail_telling d.password asked _ _
    · rfl

end Telling

/-- Only where authentication begins it matters whether the password is known. -/
theorem matches_negotiate {d : Dialogue} {password : Option String} (hp : password ≠ none)
    (hd : d.password = password ∨ d.password = none) (hopen : d.phase ≠ .closed) (asked : Bool) :
    Matches password asked d.negotiate (d.telling password asked).negotiate := by
  have hfail (error : Error) : Matches password asked (d.fail error true)
      ((d.telling password asked).fail error true) :=
    matches_of_eq (d.fail_telling password asked error true)
  have hgiven : (d.telling password asked).password.isNone = false := by
    cases password with
    | none => exact absurd rfl hp
    | some text => rfl
  change Matches password asked
    (if d.mustEncrypt then _ else if d.mustAuthenticate then _ else _)
    (if d.mustEncrypt then _ else if d.mustAuthenticate then _ else _)
  split
  · change Matches password asked (if d.capabilities.supports .startTls then _ else _)
      (if d.capabilities.supports .startTls then _ else _)
    split
    · exact .same rfl rfl
    · exact hfail _
  · split
    · change Matches password asked (if !d.capabilities.supportsPlain then _ else _)
        (if !d.capabilities.supportsPlain then _ else _)
      split
      · exact hfail _
      · rw [hgiven, if_neg Bool.false_ne_true]
        split
        · next hnone =>
          rw [Option.isNone_iff_eq_none] at hnone
          split
          · exact .parks d _ hnone hopen rfl rfl rfl
          · exact .parks d true hnone hopen rfl rfl rfl
        · exact .same rfl rfl
    · exact matches_of_eq (d.beginTransaction_telling password asked)

/-- A decision matches unless it is to authenticate, where the one without the password is parked.
-/
theorem matches_act {d : Dialogue} {password : Option String} (hp : password ≠ none)
    (hd : d.password = password ∨ d.password = none) (hopen : d.phase ≠ .closed) (asked : Bool)
    (awaited : Awaited) (reply : Reply) (text : String) (decision : Decision)
    (hresponse : decision = .advance .sendPassword → d.password = password) :
    Matches password asked (d.act awaited reply text decision)
      ((d.telling password asked).act awaited reply text decision) := by
  cases decision with
  | announce =>
    exact matches_negotiate (d := { d with capabilities := d.capabilities.addReply reply }) hp hd
      hopen asked
  | retry => exact .same rfl rfl
  | advance move =>
    cases move with
    | greet | encrypt | quit | close => exact .same rfl rfl
    | negotiate => exact matches_negotiate hp hd hopen asked
    | sendPassword => exact matches_of_eq (d.sendPassword_telling password asked (hresponse rfl))
    | beginTransaction =>
      exact matches_of_eq
        (beginTransaction_telling { d with authenticated := true } password asked)
    | firstRecipient | nextRecipient =>
      refine matches_of_eq ?_
      simp only [act, advance]
      have hbatched : (d.telling password asked).batched = d.batched := rfl
      rw [hbatched]
      split
      · rfl
      · rw [sendNextRecipient_telling]
    | sendBody => exact matches_of_eq (d.sendBody_telling password asked)
  | fail refusal =>
    refine matches_of_eq ?_
    simp only [act]
    have hs : (d.telling password asked).succeeded = d.succeeded := rfl
    rw [hs]
    split
    · rfl
    · exact d.fail_telling password asked _ _

/-- Both sides count the reply and come to the same decision. -/
theorem matches_takeReply {d : Dialogue} {password : Option String} (hp : password ≠ none)
    (hd : d.password = password ∨ d.password = none) (hopen : d.phase ≠ .closed) (asked : Bool)
    (reply : Reply) (hresponse : d.awaited = some (.answer .auth) → d.password = password) :
    Matches password asked (d.takeReply reply) ((d.telling password asked).takeReply reply) := by
  have hawaited : (d.telling password asked).awaited = d.awaited := rfl
  cases hw : d.awaited with
  | none =>
    rw [takeReply_of_none _ _ hw, takeReply_of_none _ _ (hawaited.trans hw)]
    exact matches_of_eq (d.fail_telling password asked _ _)
  | some awaited =>
    cases hc : reply.continues with
    | true =>
      rw [takeReply_of_continues _ _ _ hw hc, takeReply_of_continues _ _ _ (hawaited.trans hw) hc]
      refine matches_of_eq ?_
      unfold holdLine
      split <;> rfl
    | false =>
      rw [takeReply_of_last _ _ _ hw hc, takeReply_of_last _ _ _ (hawaited.trans hw) hc, reactTo,
        reactTo, settle_telling]
      have hkept : (settle { d with replyTexts := [] } awaited reply.code).password =
          d.password := by
        obtain ⟨_, _, _, heq⟩ := settle_eq { d with replyTexts := [] } awaited reply.code
        rw [heq]
      have hopen' := settle_open (d := { d with replyTexts := [] }) hopen awaited reply.code
      refine matches_act hp (by rwa [hkept]) hopen' asked awaited reply _ _ ?_
      intro hdecision
      have hl := Decision.listed_of awaited reply.code
      rw [hdecision] at hl
      cases hl with
      | sendPassword => rw [hkept, hresponse hw]

theorem matches_takeLine {d : Dialogue} {password : Option String} (hp : password ≠ none)
    (hd : d.password = password ∨ d.password = none) (asked : Bool) (line : Bytes)
    (hresponse : d.awaited = some (.answer .auth) → d.password = password) :
    Matches password asked (d.takeLine line) ((d.telling password asked).takeLine line) := by
  unfold takeLine
  have hfinished : (d.telling password asked).isFinished = d.isFinished := rfl
  rw [hfinished]
  split
  · exact .same rfl rfl
  · next hopen =>
    rw [Bool.not_eq_true, isFinished_eq_false_iff] at hopen
    split
    · exact matches_takeReply hp hd hopen asked _ hresponse
    · exact matches_of_eq (d.fail_telling password asked _ _)

def submitted (d : Dialogue) (e : Envelope) : Dialogue :=
  { d with
    envelope := some e
    passwordRequested := d.passwordRequested || (d.settings.requireAuth && d.password.isNone) }

/-- A submission is taken or refused for its envelope and phase, and reports the same wherever it is
taken, but for the request for the password. -/
theorem perform_submit_eq (d : Dialogue) (e : Envelope) :
    ((d.perform (.submit e)).1, unasked (d.eventsOf (.submit e))) =
      if d.envelope.isSome || d.phase != .disconnected then (d, [])
      else (d.submitted e, [.total e.payload.total, .progress 0]) := by
  simp only [perform, eventsOf, submit]
  cases d.envelope.isSome || d.phase != .disconnected with
  | true => rfl
  | false =>
    simp only [submitted]
    cases d.settings.requireAuth && d.password.isNone with
    | true =>
      rw [Bool.or_true]
      rfl
    | false =>
      rw [Bool.or_false]
      rfl

/-- Two dialogues of one phase and one envelope take a submission together. -/
theorem submit_alongside {d d' : Dialogue} (henvelope : d'.envelope = d.envelope)
    (hphase : d'.phase = d.phase) (e : Envelope) :
    unasked (d'.eventsOf (.submit e)) = unasked (d.eventsOf (.submit e)) ∧
    ((d.perform (.submit e)).1 = d ∧ (d'.perform (.submit e)).1 = d' ∨
      (d.perform (.submit e)).1 = d.submitted e ∧ (d'.perform (.submit e)).1 = d'.submitted e) := by
  have hone := d.perform_submit_eq e
  have hother := d'.perform_submit_eq e
  rw [henvelope, hphase] at hother
  split at hone
  · next hrefused =>
    rw [if_pos hrefused] at hother
    obtain ⟨hd, he⟩ := Prod.mk.inj hone
    obtain ⟨hd', he'⟩ := Prod.mk.inj hother
    exact ⟨he'.trans he.symm, Or.inl ⟨hd, hd'⟩⟩
  · next htaken =>
    rw [if_neg htaken] at hother
    obtain ⟨hd, he⟩ := Prod.mk.inj hone
    obtain ⟨hd', he'⟩ := Prod.mk.inj hother
    exact ⟨he'.trans he.symm, Or.inr ⟨hd, hd'⟩⟩

theorem matches_submit {d : Dialogue} {password : Option String} (hp : password ≠ none)
    (asked : Bool) (e : Envelope) :
    Matches password asked ((d.perform (.submit e)).1, d.eventsOf (.submit e))
      (((d.telling password asked).perform (.submit e)).1,
        (d.telling password asked).eventsOf (.submit e)) := by
  have hgiven : password.isNone = false := by
    cases password with
    | none => exact absurd rfl hp
    | some text => rfl
  have henvelope : (d.telling password asked).envelope = d.envelope := rfl
  obtain ⟨hevents, ⟨hd, hd'⟩ | ⟨hd, hd'⟩⟩ := submit_alongside henvelope rfl e
  · exact .same (by rw [hd, hd']) hevents
  · refine .same ?_ hevents
    rw [hd, hd']
    simp only [submitted, telling, hgiven, Bool.and_false, Bool.or_false]

end Dialogue

def Call.isOrdinary : Call → Bool
  | submit _ | connected | line _ | encrypted => true
  | _ => false

namespace Dialogue

/-- A call that is made on its own account matches on both sides. -/
theorem matches_perform {d : Dialogue} {password : Option String} (hp : password ≠ none)
    (hd : d.password = password ∨ d.password = none) (asked : Bool)
    (hresponse : d.awaited = some (.answer .auth) → d.password = password) {call : Call}
    (hcall : call.isOrdinary = true) :
    Matches password asked ((d.perform call).1, d.eventsOf call)
      (((d.telling password asked).perform call).1, (d.telling password asked).eventsOf call) := by
  cases call with
  | submit e => exact matches_submit hp asked e
  | connected =>
    refine matches_of_eq ?_
    simp only [perform, connect, eventsOf]
    have hphase : (d.telling password asked).phase = d.phase := rfl
    rw [hphase]
    split <;> rfl
  | line line => exact matches_takeLine hp hd asked line hresponse
  | encrypted =>
    refine matches_of_eq ?_
    simp only [perform, encrypt, eventsOf]
    have hfinished : (d.telling password asked).isFinished = d.isFinished := rfl
    rw [hfinished]
    split <;> rfl
  | _ => cases hcall

def Alike (d d' : Dialogue) : Prop := ∃ asked, d' = { d with passwordRequested := asked }

theorem Alike.refl (d : Dialogue) : d.Alike d := ⟨d.passwordRequested, rfl⟩

theorem Alike.symm {d d' : Dialogue} (h : d.Alike d') : d'.Alike d := by
  obtain ⟨asked, rfl⟩ := h
  exact ⟨d.passwordRequested, rfl⟩

/-- Only the call that gives a password brings one. -/
theorem password_perform {d : Dialogue} {call : Call} (hcall : call.isOrdinary = true) :
    (d.perform call).1.password = d.password := by
  have hstep := (d.deals call).password_eq
  have hnone : call.password? = none := by cases call <;> first | rfl | cases hcall
  rw [hnone, Option.none_or] at hstep
  exact hstep

/-- Once the password is known it makes no difference whether it was asked for. -/
theorem Alike.perform {d d' : Dialogue} (h : d.Alike d') (hp : d.password ≠ none) {call : Call}
    (hcall : call.isOrdinary = true) :
    Alike (d.perform call).1 (d'.perform call).1 ∧
      unasked (d'.eventsOf call) = unasked (d.eventsOf call) := by
  obtain ⟨asked, rfl⟩ := h
  have hkept := d.password_perform hcall
  cases matches_perform (d := d) hp (Or.inl rfl) asked (fun _ => rfl) hcall with
  | same h he =>
    refine ⟨⟨asked, h.trans ?_⟩, he⟩
    rw [telling, ← hkept]
  | parks s requested hnone _ h =>
    have hlost : (d.perform call).1.password = none := (congrArg Dialogue.password h).trans hnone
    exact absurd (hkept.symm.trans hlost) hp

theorem password_after_ordinary (d : Dialogue) {calls : List Call}
    (hcalls : ∀ call ∈ calls, call.isOrdinary = true) :
    (d.after calls).password = d.password := by
  induction calls using List.reverseRecOn with
  | nil => rfl
  | append_singleton calls call ih =>
    rw [List.forall_mem_append] at hcalls
    rw [after_snoc, password_perform (hcalls.2 call (List.mem_singleton_self call)), ih hcalls.1]

/-- Two dialogues that are alike and have their password stay alike, and report the same but for the
request. -/
theorem Alike.run {d d' : Dialogue} (h : d.Alike d') (hp : d.password ≠ none) {calls : List Call}
    (hcalls : ∀ call ∈ calls, call.isOrdinary = true) :
    Alike (d.after calls) (d'.after calls) ∧
      unasked (d'.events calls) = unasked (d.events calls) := by
  induction calls using List.reverseRecOn with
  | nil => exact ⟨h, rfl⟩
  | append_singleton calls call ih =>
    rw [List.forall_mem_append] at hcalls
    obtain ⟨hbefore, hevents⟩ := ih hcalls.1
    have hknown : (d.after calls).password ≠ none := by
      rwa [password_after_ordinary d hcalls.1]
    obtain ⟨hnext, hnew⟩ := hbefore.perform hknown (hcalls.2 call (List.mem_singleton_self call))
    rw [after_snoc, after_snoc, events_snoc, events_snoc, unasked_append, unasked_append, hevents,
      hnew]
    exact ⟨hnext, rfl⟩

/-- Without a password AUTH is not sent. -/
theorem notMem_auth_of_unknown {settings : Settings} {calls : List Call}
    (h : lastPassword calls = none) : .auth ∉ ((start settings).after calls).pipeline.verbs := by
  induction calls using List.reverseRecOn with
  | nil => simp [start, Pipeline.verbs, Pipeline.empty]
  | append_singleton calls call ih =>
    rw [lastPassword_snoc, Option.or_eq_none_iff] at h
    obtain ⟨hcall, hbefore⟩ := h
    have hunknown : ((start settings).after calls).password = none := by
      rw [password_after settings, hbefore]
    have hleft : .auth ∉ (((start settings).after calls).answered call).verbs :=
      fun hmem => ih hbefore (verbs_answered_subset _ call hmem)
    rw [after_snoc]
    intro hmem
    cases (((start settings).after calls).deals call).initiates hleft hmem with
    | aloof s hs h | accepted _ s hs _ _ h => exact hleft (hs.pipeline_eq ▸ h.auth_of hmem)
    | greeted _ s hs _ _ hp => exact hp (hs.password_eq.trans hunknown)
    | resumed _ text htext =>
      rw [htext] at hcall
      cases hcall

/-- A call that is answered alike whether the password was given before it or is given after it. -/
def CatchesUp (d d' : Dialogue) (password : String) (call : Call) : Prop :=
  Alike (d'.perform call).1 ((d.perform call).1.givePassword password) ∧
    unasked (d'.eventsOf call) = unasked (d.eventsOf call)

/-- A step of a dialogue that waits for nothing before it is given the password. -/
theorem catchesUp_of_unparked {d d' : Dialogue} {password : String}
    (hidle : d.parked = true → d.phase = .closed) (hnone : d.password = none)
    (hauth : d.awaited ≠ some (.answer .auth)) (h : d'.Alike (d.givePassword password))
    {call : Call} (hcall : call.isOrdinary = true) (hwant : ParkedInWant (d'.perform call).1) :
    d.CatchesUp d' password call := by
  rw [givePassword_of_unparked hidle] at h
  obtain ⟨asked, heq⟩ := h.symm
  have hsame : d' = d.telling (some password) asked := heq
  have hgiven : (d'.perform call).1.password = some password := by
    rw [password_perform hcall, hsame]
    rfl
  have hunparked (hopen : (d'.perform call).1.phase ≠ .closed) :
      (d'.perform call).1.parked = false := by
    by_contra hparked
    have hlost := hwant (by simpa using hparked) hopen
    rw [hgiven] at hlost
    cases hlost
  have hmatches := matches_perform (Option.some_ne_none password) (Or.inr hnone) asked
    (fun hw => absurd hw hauth) hcall
  rw [← hsame] at hmatches
  unfold CatchesUp
  generalize (d.perform call).1 = r at hmatches ⊢
  generalize (d'.perform call).1 = r' at hmatches hunparked ⊢
  cases hmatches with
  | same h he =>
    dsimp only at h
    subst h
    have hidle' : r.parked = true → r.phase = .closed := by
      intro hparked
      by_contra hopen
      have hnot : r.parked = false := hunparked hopen
      rw [hparked] at hnot
      cases hnot
    rw [givePassword_of_unparked hidle']
    exact ⟨Alike.symm ⟨asked, rfl⟩, he⟩
  | parks s requested _ hopen h h' he =>
    dsimp only at h h'
    subst h h'
    have hnot : s.parked = false := hunparked hopen
    have hresumes := givePassword_of_parked
      (d := { s with parked := true, passwordRequested := requested }) rfl hopen password
    rw [hresumes]
    refine ⟨Alike.symm ⟨asked, ?_⟩, he⟩
    simp only [startAuth, telling, Dialogue.send, flush, hnot]

/-- While a dialogue is parked, a submission and the connection do not depend on the password. -/
theorem catchesUp_of_parked {d d' : Dialogue} {password : String} (hparked : d.parked = true)
    (hopen : d.phase ≠ .closed) (h : d'.Alike (d.givePassword password)) {call : Call}
    (hcall : call.isOrdinary = true) (hline : ∀ line, call ≠ .line line)
    (hencrypted : call ≠ .encrypted) : d.CatchesUp d' password call := by
  rw [givePassword_of_parked hparked hopen] at h
  obtain ⟨asked, heq⟩ := h.symm
  have henvelope : d'.envelope = d.envelope := by
    rw [heq]
    rfl
  have hphase : d'.phase = d.phase := by
    rw [heq]
    rfl
  cases call with
  | submit e =>
    obtain ⟨hevents, ⟨hd, hd'⟩ | ⟨hd, hd'⟩⟩ := submit_alongside henvelope hphase e
    · rw [CatchesUp, hd, hd', givePassword_of_parked hparked hopen]
      exact ⟨h, hevents⟩
    · have hresumes := givePassword_of_parked (d := d.submitted e) hparked hopen password
      refine ⟨?_, hevents⟩
      rw [hd, hd', hresumes, heq]
      exact ⟨_, rfl⟩
  | connected =>
    simp only [CatchesUp, perform, eventsOf, connect]
    rw [hphase]
    split
    · have hresumes := givePassword_of_parked
        (d := { d with phase := .connecting, greetingDue := true }) hparked (by simp) password
      rw [hresumes, heq]
      exact ⟨⟨d.passwordRequested, rfl⟩, trivial⟩
    · rw [givePassword_of_parked hparked hopen]
      exact ⟨h, trivial⟩
  | line line => exact absurd rfl (hline line)
  | encrypted => exact absurd rfl hencrypted
  | _ => cases hcall

def PastAuth (settings : Settings) (password : String) (earlier : List Call) : Prop :=
  .auth ∈ ((start settings).allSent (.password password :: earlier)).map (·.verb)

instance (settings : Settings) (password : String) (earlier : List Call) :
    Decidable (PastAuth settings password earlier) :=
  inferInstanceAs (Decidable (_ ∈ _))

def InTime (settings : Settings) (password : String) (before : List Call) : Prop :=
  ¬Occurs before fun earlier call => call.isLine = true ∧ PastAuth settings password earlier

instance (settings : Settings) (password : String) (before : List Call) :
    Decidable (InTime settings password before) :=
  inferInstanceAs (Decidable (¬Occurs before _))

/-- Past AUTH the server is greeted again, in calls that come after others. -/
def Regreets (settings : Settings) (password : String) (before between : List Call) : Prop :=
  Occurs between fun earlier call =>
    call = .encrypted ∧ PastAuth settings password (before ++ earlier)

instance (settings : Settings) (password : String) (before between : List Call) :
    Decidable (Regreets settings password before between) :=
  inferInstanceAs (Decidable (Occurs between _))

structure Concur (settings : Settings) (calls calls' : List Call) : Prop where
  putOut_eq : (start settings).putOut calls' = (start settings).putOut calls
  alike : ((start settings).after calls).Alike ((start settings).after calls')
  events_eq : unasked ((start settings).events calls') = unasked ((start settings).events calls)

/-- A run without the password beside the one that was given it first. Before AUTH they would be
alike with the password in both; past it the one is parked, and the other has AUTH in flight. -/
inductive Abreast (settings : Settings) (password : String) (before : List Call) : Prop
  | level (hnot : ¬PastAuth settings password before)
    (hidle : ((start settings).after before).parked = true →
      ((start settings).after before).phase = .closed)
    (hsame : Alike ((start settings).after (.password password :: before))
      (((start settings).after before).givePassword password))
  | parked (hpast : PastAuth settings password before)
    (hparked : ((start settings).after before).parked = true)
    (hopen : ((start settings).after before).phase ≠ .closed)
    (hopen' : ((start settings).after (.password password :: before)).phase ≠ .closed)
    (hauth : .auth ∈ ((start settings).after (.password password :: before)).pipeline.verbs)

/-- A handshake is due only while nothing is in flight. -/
theorem EncryptsWhenDue.verbs_eq_nil {settings : Settings} {calls : List Call}
    (h : EncryptsWhenDue settings (calls ++ [.encrypted]))
    (hopen : ((start settings).after calls).phase ≠ .closed) :
    ((start settings).after calls).pipeline.verbs = [] := by
  have hdue := Nat.sub_pos_of_lt (h.due_of_snoc rfl)
  obtain ⟨-, hready, -⟩ :=
    h.of_append.standing.2.of_due hdue ((isFinished_eq_false_iff _).mpr hopen)
  rw [Pipeline.verbs, (tidy_after settings calls).waiting_eq, hready.inFlight_eq]
  rfl

section Moments

variable {settings : Settings} {password : String} {before between later : List Call} {call : Call}

theorem PastAuth.snoc (h : PastAuth settings password before) (call : Call) :
    PastAuth settings password (before ++ [call]) := by
  rw [PastAuth, ← List.cons_append, allSent_snoc, List.map_append]
  exact List.mem_append_left _ h

theorem InTime.of_append (h : InTime settings password (before ++ later)) :
    InTime settings password before := by
  intro hheard
  exact h (hheard.append later)

/-- What the server does not say leaves an open dialogue open, and as much in flight as before. -/
theorem perform_of_unheard {d : Dialogue} (hopen : d.phase ≠ .closed)
    (hcall : call.isOrdinary = true) (hline : ¬call.isLine = true) :
    (d.perform call).1.parked = d.parked ∧ (d.perform call).1.phase ≠ .closed ∧
      d.pipeline.verbs ⊆ (d.perform call).1.pipeline.verbs := by
  cases call with
  | submit e =>
    rcases d.perform_submit e with ⟨heq, -⟩ | ⟨-, -, requested, asked, heq, -⟩
    · rw [heq]
      exact ⟨rfl, hopen, List.Subset.refl _⟩
    · rw [heq]
      exact ⟨rfl, hopen, List.Subset.refl _⟩
  | connected =>
    simp only [perform, connect]
    split
    · exact ⟨rfl, by simp, List.Subset.refl _⟩
    · exact ⟨rfl, hopen, List.Subset.refl _⟩
  | line line => exact absurd rfl hline
  | encrypted =>
    have hunfinished := (d.isFinished_eq_false_iff).mpr hopen
    simp only [perform, encrypt, hunfinished]
    refine ⟨rfl, hopen, ?_⟩
    intro verb hmem
    exact (mem_verbs_send _ _ verb).mpr (Or.inl hmem)
  | _ => cases hcall

/-- Where a dialogue is parked for want of its password, one that has it has just sent AUTH. -/
theorem auth_of_parked {d d' : Dialogue} (hparked : d.parked = true) (hopen : d.phase ≠ .closed)
    (h : d'.Alike (d.givePassword password)) :
    d'.phase ≠ .closed ∧ .auth ∈ d'.pipeline.verbs := by
  rw [givePassword_of_parked hparked hopen] at h
  obtain ⟨asked, heq⟩ := h.symm
  rw [heq]
  exact ⟨hopen, (mem_verbs_send _ (.auth .plain) .auth).mpr (Or.inr rfl)⟩

theorem password_after_unasked (hcalls : ∀ call ∈ before, call.isOrdinary = true) :
    ((start settings).after before).password = none :=
  password_after_ordinary (start settings) hcalls

/-- Without the password no AUTH is on its way. -/
theorem notMem_auth_after (hcalls : ∀ call ∈ before, call.isOrdinary = true) :
    .auth ∉ ((start settings).after before).pipeline.verbs := by
  apply notMem_auth_of_unknown
  rw [← password_after settings, password_after_unasked hcalls]

/-- A step of two runs of which one has had the password from some moment on and the other would be
given it now, while nothing is parked. -/
theorem catchesUp_of_level (hcalls : ∀ c ∈ before ++ between ++ [call], c.isOrdinary = true)
    (hidle : ((start settings).after (before ++ between)).parked = true →
      ((start settings).after (before ++ between)).phase = .closed)
    (hsame : Alike ((start settings).after (before ++ .password password :: between))
      (((start settings).after (before ++ between)).givePassword password)) :
    CatchesUp ((start settings).after (before ++ between))
      ((start settings).after (before ++ .password password :: between)) password call := by
  rw [List.forall_mem_append] at hcalls
  have hcall := hcalls.2 call (List.mem_singleton_self call)
  have hwant := parkedInWant_after settings (before ++ .password password :: between ++ [call])
  rw [after_snoc] at hwant
  apply catchesUp_of_unparked hidle (password_after_unasked hcalls.1) ?_ hsame hcall hwant
  intro hw
  exact notMem_auth_after hcalls.1 (mem_verbs_of_awaited hw)

/-- One call further the two runs are still abreast, or the one parks where the other sends AUTH. -/
theorem Abreast.snoc (h : Abreast settings password before)
    (hcalls : ∀ c ∈ before ++ [call], c.isOrdinary = true)
    (htime : InTime settings password (before ++ [call])) :
    Abreast settings password (before ++ [call]) := by
  cases h with
  | level hnot hidle hsame =>
    obtain ⟨hnext, -⟩ := @catchesUp_of_level settings password [] before call hcalls hidle hsame
    have hlater : Alike ((start settings).after (.password password :: (before ++ [call])))
        (((start settings).after (before ++ [call])).givePassword password) := by
      rw [← List.cons_append, after_snoc, after_snoc]
      exact hnext
    by_cases hidle' : ((start settings).after (before ++ [call])).parked = true →
        ((start settings).after (before ++ [call])).phase = .closed
    · refine .level ?_ hidle' hlater
      rw [PastAuth, ← List.cons_append, allSent_snoc, List.map_append, List.mem_append, not_or]
      refine ⟨hnot, ?_⟩
      intro hsent
      -- what this step had sent would be in flight, and in the other run too
      have hmem := mem_verbs_of_sentBy hsent
      rw [givePassword_of_unparked hidle'] at hlater
      obtain ⟨asked, heq⟩ := hlater.symm
      rw [← after_snoc, List.cons_append, heq] at hmem
      exact notMem_auth_after hcalls hmem
    · rw [Classical.not_imp] at hidle'
      obtain ⟨hparked, hopen⟩ := hidle'
      obtain ⟨hopen', hauth⟩ := auth_of_parked hparked hopen hlater
      exact .parked (mem_allSent_of_verbs hopen' hauth) hparked hopen hopen' hauth
  | parked hpast hparked hopen hopen' hauth =>
    have hline : ¬call.isLine = true := by
      intro hline
      exact htime ⟨before, call, [], rfl, hline, hpast⟩
    have hcall := (List.forall_mem_append.mp hcalls).2 call (List.mem_singleton_self call)
    obtain ⟨hparks, hopen, -⟩ := perform_of_unheard hopen hcall hline
    obtain ⟨-, hopen', hkept⟩ := perform_of_unheard hopen' hcall hline
    rw [← after_snoc] at hparks hopen hopen' hkept
    exact .parked (hpast.snoc call) (hparks.trans hparked) hopen hopen' (hkept hauth)

/-- Runs that are in time are abreast, by induction from the end of the run. -/
theorem abreast_of_inTime (hcalls : ∀ call ∈ before, call.isOrdinary = true)
    (h : InTime settings password before) : Abreast settings password before := by
  induction before using List.reverseRecOn with
  | nil => exact .level List.not_mem_nil (fun hparked => by cases hparked) (Alike.refl _)
  | append_singleton before call ih =>
    exact (ih (List.forall_mem_append.mp hcalls).1 h.of_append).snoc hcalls h

/-- Given the password in time, a dialogue stands where it would stand if it had been given it
earlier, unless the server is greeted past AUTH between the two moments. -/
theorem catchUp_run (hcalls : ∀ call ∈ before ++ between, call.isOrdinary = true)
    (h : InTime settings password (before ++ between))
    (hgreets : ¬Regreets settings password before between) :
    Alike ((start settings).after (before ++ .password password :: between))
        (((start settings).after (before ++ between)).givePassword password) ∧
      unasked ((start settings).events (before ++ .password password :: between)) =
        unasked ((start settings).events (before ++ between)) := by
  induction between using List.reverseRecOn with
  | nil =>
    rw [List.append_nil, after_snoc, events_snoc, unasked_append]
    exact ⟨Alike.refl _, List.append_nil _⟩
  | append_singleton between call ih =>
    rw [← List.append_assoc] at hcalls h ⊢
    rw [Regreets, occurs_snoc_iff, not_or] at hgreets
    obtain ⟨hbefore, hlast⟩ := List.forall_mem_append.mp hcalls
    have hcall := hlast call (List.mem_singleton_self call)
    obtain ⟨hsame, hevents⟩ := ih hbefore h.of_append hgreets.1
    have hstep : CatchesUp ((start settings).after (before ++ between))
        ((start settings).after (before ++ .password password :: between)) password call := by
      cases abreast_of_inTime hbefore h.of_append with
      | level _ hidle _ => exact catchesUp_of_level hcalls hidle hsame
      | parked hpast hparked hopen _ _ =>
        apply catchesUp_of_parked hparked hopen hsame hcall
        · rintro line rfl
          exact h ⟨before ++ between, .line line, [], rfl, rfl, hpast⟩
        · rintro rfl
          exact hgreets.2 ⟨rfl, hpast⟩
    have hcons : before ++ .password password :: (between ++ [call]) =
        before ++ .password password :: between ++ [call] := by simp
    rw [hcons, after_snoc, after_snoc, events_snoc, events_snoc, unasked_append, unasked_append,
      hevents, hstep.2]
    exact ⟨hstep.1, rfl⟩

end Moments

/-- Where nothing was taken to be written, all that was put out still waits for that. -/
theorem putOut_of_unpolled (d : Dialogue) {calls : List Call} (h : .poll ∉ calls) :
    d.putOut calls = (d.after calls).outbound := by
  induction calls using List.reverseRecOn with
  | nil => rfl
  | append_singleton calls call ih =>
    rw [List.mem_append, List.mem_singleton, not_or] at h
    rw [putOut_snoc, after_snoc, outbound_perform _ _ (Ne.symm h.2), ih h.1]

/-- In a run that goes on without a poll, all that was waiting to be written is put out. -/
theorem outbound_prefix_putOut (d : Dialogue) (calls later : List Call)
    (h : .poll ∉ calls ++ later) : (d.after calls).outbound <+: d.putOut (calls ++ later) := by
  rw [putOut_of_unpolled d h, after_append]
  rw [List.mem_append, not_or] at h
  exact outbound_extends_after _ h.2

theorem Alike.outbound_eq {d d' : Dialogue} (h : d.Alike d') : d'.outbound = d.outbound := by
  obtain ⟨asked, rfl⟩ := h
  rfl

/-- The password that is waited for sends AUTH, under the next number. -/
theorem outbound_givePassword {d : Dialogue} (hparked : d.parked = true) (hopen : d.phase ≠ .closed)
    (hwaiting : d.pipeline.waiting = []) (password : String) :
    (d.givePassword password).outbound =
      d.outbound ++ [.tagged (d.pipeline.issued + 1) (Command.auth .plain).render] := by
  have hsend := send_eq { d with password := some password, parked := false, passwordSent := false }
    (.auth .plain) hwaiting
  rw [givePassword_of_parked hparked hopen]
  exact congrArg outbound hsend

/-- A connection that becomes encrypted is greeted again, under the next number. -/
theorem outbound_encrypt {d : Dialogue} (hopen : d.phase ≠ .closed)
    (hwaiting : d.pipeline.waiting = []) :
    d.encrypt.outbound = d.outbound ++
      [.tagged (d.pipeline.issued + 1) (Command.ehlo d.settings.clientName).render] := by
  have hsend := send_eq { d with encrypted := true, capabilities := .empty }
    (.ehlo d.settings.clientName) hwaiting
  rw [encrypt, (d.isFinished_eq_false_iff).mpr hopen]
  exact congrArg outbound hsend

theorem render_auth_ne_ehlo (mechanism : Mechanism) (client : String) :
    (Command.auth mechanism).render ≠ (Command.ehlo client).render := by
  intro h
  have hauth : (Command.auth mechanism).render.head? = some 65 := rfl
  have hehlo : (Command.ehlo client).render.head? = some 69 := rfl
  rw [h, hehlo] at hauth
  cases hauth

section Moments

variable {settings : Settings} {password : String} {before between later : List Call}

theorem poll_notMem (hcalls : ∀ call ∈ before ++ between ++ later, call.isOrdinary = true)
    (password : String) :
    .poll ∉ before ++ .password password :: between ++ later ∧
      .poll ∉ before ++ between ++ .password password :: later := by
  have hnot : .poll ∉ before ++ between ++ later := fun hmem => by cases hcalls _ hmem
  simpa using hnot

/-- A handshake past AUTH puts EHLO behind AUTH in the one run, and before it in the other. -/
theorem putOut_ne_of_regreets
    (hcalls : ∀ call ∈ before ++ between ++ later, call.isOrdinary = true)
    (h : InTime settings password (before ++ between))
    (hgreets : Regreets settings password before between) :
    (start settings).putOut (before ++ between ++ .password password :: later) ≠
      (start settings).putOut (before ++ .password password :: between ++ later) := by
  obtain ⟨hpolls, hpolls'⟩ := poll_notMem hcalls password
  obtain ⟨earlier, call, rest, rfl, ⟨rfl, hpast⟩, hfirst⟩ := hgreets.exists_first
  rw [← List.append_assoc] at h hcalls
  have hbefore : ∀ call ∈ before ++ earlier, call.isOrdinary = true :=
    (List.forall_mem_append.mp (List.forall_mem_append.mp hcalls).1).1
  obtain ⟨hcatch, -⟩ := catchUp_run hbefore h.of_append hfirst
  cases abreast_of_inTime hbefore h.of_append with
  | level hnot _ _ => exact absurd hpast hnot
  | parked _ hparked hopen _ _ =>
    have hwaiting := (tidy_after settings (before ++ earlier)).waiting_eq
    have hone := hcatch.outbound_eq.symm.trans
      (outbound_givePassword hparked hopen hwaiting password)
    have hleft := outbound_prefix_putOut (start settings)
      (before ++ .password password :: earlier) (.encrypted :: rest ++ later)
      (by simpa using hpolls)
    have hright := outbound_prefix_putOut (start settings) (before ++ earlier ++ [.encrypted])
      (rest ++ .password password :: later) (by simpa using hpolls')
    rw [hone] at hleft
    rw [after_snoc] at hright
    change (encrypt _).outbound <+: _ at hright
    rw [outbound_encrypt hopen hwaiting] at hright
    intro heq
    simp only [List.append_assoc, List.cons_append, List.nil_append] at hleft hright heq
    rw [heq] at hright
    have hsame := (List.prefix_of_prefix_length_le hleft hright (by simp)).eq_of_length (by simp)
    simp only [List.append_cancel_left_eq, List.cons.injEq, and_true, Transmit.tagged,
      Transmit.mk.injEq] at hsame
    exact render_auth_ne_ehlo _ _ hsame

/-- Where the late run catches up before the server is greeted again, nothing tells the two apart.
-/
theorem concur_of_catchUp
    (hcalls : ∀ call ∈ before ++ between ++ later, call.isOrdinary = true)
    (h : InTime settings password (before ++ between))
    (hgreets : ¬Regreets settings password before between) :
    Concur settings (before ++ .password password :: between ++ later)
      (before ++ between ++ .password password :: later) := by
  obtain ⟨hpolls, hpolls'⟩ := poll_notMem hcalls password
  obtain ⟨hbetween, hlater⟩ := List.forall_mem_append.mp hcalls
  obtain ⟨hcatch, hevents⟩ := catchUp_run hbetween h hgreets
  have hknown :
      ((start settings).after (before ++ .password password :: between)).password ≠ none := by
    rw [password_after, lastPassword, List.filterMap_append, List.filterMap_cons]
    simp [Call.password?]
  obtain ⟨hlast, hrest⟩ := hcatch.run hknown hlater
  have halike : Alike
      ((start settings).after (before ++ .password password :: between ++ later))
      ((start settings).after (before ++ between ++ .password password :: later)) := by
    have hcons : before ++ between ++ .password password :: later =
        before ++ between ++ [.password password] ++ later := by simp
    rw [hcons, after_append _ (before ++ .password password :: between), after_append _ _ later,
      after_snoc]
    exact hlast
  refine ⟨?_, halike, ?_⟩
  · rw [putOut_of_unpolled _ hpolls, putOut_of_unpolled _ hpolls']
    obtain ⟨asked, heq⟩ := halike
    rw [heq]
  · calc unasked ((start settings).events (before ++ between ++ .password password :: later))
        = unasked ((start settings).events (before ++ between)) ++
            unasked ((((start settings).after (before ++ between)).givePassword
              password).events later) := by
          rw [events_append, unasked_append]
          rfl
      _ = unasked ((start settings).events (before ++ .password password :: between)) ++
            unasked (((start settings).after
              (before ++ .password password :: between)).events later) := by
          rw [hevents, hrest]
      _ = unasked ((start settings).events
            (before ++ .password password :: between ++ later)) := by
          rw [events_append _ (before ++ .password password :: between), unasked_append]

/-- Of two runs that are given the password at different moments, both in time, everything agrees
but the request for it, as long as the server is not greeted past AUTH between these moments. If it
is, they put out different things. -/
theorem concur_iff_of_inTime
    (hcalls : ∀ call ∈ before ++ between ++ later, call.isOrdinary = true)
    (h : InTime settings password (before ++ between)) :
    Concur settings (before ++ .password password :: between ++ later)
        (before ++ between ++ .password password :: later) ↔
      ¬Regreets settings password before between := by
  constructor
  · intro hconcur hgreets
    exact putOut_ne_of_regreets hcalls h hgreets hconcur.putOut_eq
  · intro hgreets
    exact concur_of_catchUp hcalls h hgreets

/-- A handshake that is due does not come past AUTH, where a reply is awaited. -/
theorem EncryptsWhenDue.not_regreets
    (hdue : EncryptsWhenDue settings (.password password :: (before ++ between)))
    (hcalls : ∀ call ∈ before ++ between, call.isOrdinary = true)
    (h : InTime settings password (before ++ between)) :
    ¬Regreets settings password before between := by
  rintro ⟨earlier, call, rest, rfl, rfl, hpast⟩
  rw [← List.append_assoc] at hdue hcalls h
  have hbefore := (List.forall_mem_append.mp hcalls).1
  cases abreast_of_inTime hbefore h.of_append with
  | level hnot _ _ => exact hnot hpast
  | parked _ _ _ hopen hauth =>
    rw [← List.cons_append] at hdue
    rw [hdue.of_cons.verbs_eq_nil hopen] at hauth
    cases hauth

end Moments

/-- A session that is asked for its password when it needs it, and one that has it before. -/
theorem concur_of_early_or_parked :
    (∀ call ∈ sessionToPassword ++ replies ["334", "235 welcome"], call.isOrdinary = true) ∧
      InTime .guarded "secret" sessionToPassword ∧
      ¬Regreets .guarded "secret" [] sessionToPassword ∧
      .raw (passwordResponse "alice" "secret").render ∈ (start .guarded).putOut
        (sessionToPassword ++ .password "secret" :: replies ["334", "235 welcome"]) ∧
      Concur .guarded
        (.password "secret" :: sessionToPassword ++ replies ["334", "235 welcome"])
        (sessionToPassword ++ .password "secret" :: replies ["334", "235 welcome"]) := by
  have hcalls : ∀ call ∈ sessionToPassword ++ replies ["334", "235 welcome"],
      call.isOrdinary = true := by decide +kernel
  have htime : InTime .guarded "secret" sessionToPassword := by decide +kernel
  have hgreets : ¬Regreets .guarded "secret" [] sessionToPassword := by decide +kernel
  have hiff := @concur_iff_of_inTime .guarded "secret" [] sessionToPassword
    (replies ["334", "235 welcome"]) hcalls htime
  exact ⟨hcalls, htime, hgreets, by decide +kernel, hiff.mpr hgreets⟩

def prematureSession : List Call :=
  .submit .greeting :: .connected :: replies ["220 mx ESMTP", "250-mx", "250 AUTH PLAIN"] ++
    [.encrypted]

/-- It is greeted again before AUTH if it is given its password last, and after AUTH if first. -/
theorem not_concur_prematureSession :
    (∀ call ∈ prematureSession, call.isOrdinary = true) ∧
      InTime { Settings.guarded with security := .none } "secret" prematureSession ∧
      ¬Concur { Settings.guarded with security := .none } (.password "secret" :: prematureSession)
        (prematureSession ++ [.password "secret"]) := by
  refine ⟨by decide +kernel, by decide +kernel, ?_⟩
  intro hconcur
  have hputOut := hconcur.putOut_eq
  revert hputOut
  decide +kernel

end Dialogue

end SmtpClient
