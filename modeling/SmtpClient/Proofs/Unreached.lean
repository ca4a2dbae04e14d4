import SmtpClient.Proofs.MessageBody
import SmtpClient.Proofs.PasswordTiming
import SmtpClient.Proofs.ReplyLine

namespace SmtpClient

def Error.IsDefensive (error : Error) : Prop :=
  error = .invalidState "no credential for AUTH" ∨
    error = .invalidState "DATA without message data"

namespace Dialogue

/-- Sends the command that waits, which has to be `c`, as the last that was issued, and alone. -/
def flush? (d : Dialogue) (c : Command) : Option Dialogue :=
  if d.pipeline.waiting = [(d.pipeline.issued, c)] then some d.flush else none

def send? (d : Dialogue) (c : Command) : Option Dialogue :=
  flush? { d with pipeline := d.pipeline.enqueue c } c

def greet? (d : Dialogue) : Option Dialogue :=
  send? { d with capabilities := .empty } (.ehlo d.settings.clientName)

def startAuth? (d : Dialogue) : Option Dialogue :=
  send? { d with passwordSent := false } (.auth .plain)

def sendPassword? (d : Dialogue) : Option Outcome :=
  if d.passwordSent || d.password.isSome then some d.sendPassword else none

def beginTransaction? (d : Dialogue) : Option Outcome :=
  match d.envelope with
  | none => some d.beginTransaction
  | some e =>
    match declaredSize d.capabilities e.payload with
    | .error _ => some d.beginTransaction
    | .ok size =>
      if d.capabilities.supports .pipelining then some d.beginTransaction
      else (d.send? (.mail e.sender size)).map (·, [])

def negotiate? (d : Dialogue) : Option Outcome :=
  if d.settings.usesStartTls && !d.encrypted then
    if d.capabilities.supports .startTls then (d.send? .startTls).map (·, [])
    else some d.negotiate
  else if d.settings.requireAuth && !d.authenticated then
    if !d.capabilities.supportsPlain || d.password.isNone then some d.negotiate
    else d.startAuth?.map (·, [])
  else d.beginTransaction?

def sendNextRecipient? (d : Dialogue) : Option Dialogue :=
  match d.envelope with
  | none => none
  | some e =>
    match e.recipients[d.recipientsSent]? with
    | some recipient =>
      send? { d with recipientsSent := d.recipientsSent + 1 } (.rcpt recipient)
    | none => d.send? e.payload.command

def sendBody? (d : Dialogue) : Option Outcome :=
  match d.envelope.map Envelope.payload with
  | some (.message _) => some d.sendBody
  | _ => none

def succeed? (d : Dialogue) : Option Outcome :=
  (send? { d with succeeded := true } .quit).map (·, d.succeed.2)

def advance? (d : Dialogue) : Move → Option Outcome
  | .greet => (greet? { d with phase := .ready }).map (·, [])
  | .negotiate => d.negotiate?
  | .encrypt => some (d, [.encryptionDue])
  | .sendPassword => d.sendPassword?
  | .beginTransaction => beginTransaction? { d with authenticated := true }
  | .firstRecipient | .nextRecipient =>
    if d.batched then some (d, []) else d.sendNextRecipient?.map (·, [])
  | .sendBody => d.sendBody?
  | .quit => d.succeed?
  | .close => some (d.close, [])

def act? (d : Dialogue) (awaited : Awaited) (reply : Reply) (text : String) :
    Decision → Option Outcome
  | .announce => negotiate? { d with capabilities := d.capabilities.addReply reply }
  | .retry => (send? { d with capabilities := .empty } (.helo d.settings.clientName)).map (·, [])
  | .advance move => d.advance? move
  | .fail refusal => some (d.act awaited reply text (.fail refusal))

def takeReply? (d : Dialogue) (reply : Reply) : Option Outcome :=
  match d.awaited with
  | none => some (d.takeReply reply)
  | some awaited =>
    if reply.continues then some (d.takeReply reply)
    else (settle { d with replyTexts := [] } awaited reply.code).act? awaited reply
      (d.replyText reply) (Decision.of awaited reply.code)

def takeLine? (d : Dialogue) (line : Bytes) : Option Outcome :=
  if d.isFinished then some (d, [])
  else match Reply.parse line with
    | .ok reply => d.takeReply? reply
    | .error _ => some (d.takeLine line)

def givePassword? (d : Dialogue) (password : String) : Option Dialogue :=
  if d.parked && !d.isFinished then
    startAuth? { d with password := some password, parked := false }
  else some (d.givePassword password)

def encrypt? (d : Dialogue) : Option Dialogue :=
  if d.isFinished then some d else greet? { d with encrypted := true }

def perform? (d : Dialogue) : Call → Option (Dialogue × Answer)
  | .line line => (d.takeLine? line).map fun r => (r.1, .ofEvents r.2)
  | .password text => (d.givePassword? text).map (·, .silent)
  | .encrypted => d.encrypt?.map (·, .silent)
  | call => some (d.perform call)

def run? (d : Dialogue) : List Call → Option (Dialogue × List Answer)
  | [] => some (d, [])
  | call :: later =>
    (d.perform? call).bind fun first =>
      (first.1.run? later).map fun rest => (rest.1, first.2 :: rest.2)

def Grounded (d : Dialogue) : Prop :=
  ∀ verb ∈ d.pipeline.verbs, verb.isEnvelope = true → d.envelope ≠ none

structure Spared (r? : Option Outcome) (r : Outcome) : Prop where
  eq : r? = some r
  grounded : r.1.Grounded
  harmless : ∀ error, .failed error ∈ r.2 → ¬error.IsDefensive

theorem Grounded.of_subset {d next : Dialogue} (h : d.Grounded)
    (hv : next.pipeline.verbs ⊆ d.pipeline.verbs) (he : next.envelope = d.envelope) :
    next.Grounded := by
  intro verb hmem hverb
  rw [he]
  exact h verb (hv hmem) hverb

/-- Where nothing waits, the command that is sent is the one that was just enqueued. -/
theorem send?_eq {d : Dialogue} (hw : d.pipeline.waiting = []) (c : Command) :
    d.send? c = some (d.send c) := by
  have hone : (d.pipeline.enqueue c).waiting = [((d.pipeline.enqueue c).issued, c)] := by
    rw [Pipeline.enqueue, hw]
    rfl
  rw [send?, flush?, if_pos hone]
  rfl

/-- A command of the envelope is sent only where there is one. -/
theorem Grounded.send {d : Dialogue} (h : d.Grounded) {c : Command}
    (hc : c.verb.isEnvelope = true → d.envelope ≠ none) : (d.send c).Grounded := by
  intro verb hmem hverb
  rcases (d.mem_verbs_send c verb).mp hmem with hold | rfl
  · exact h verb hold hverb
  · exact hc hverb

theorem spared_send {d : Dialogue} (h : d.Grounded) (hw : d.pipeline.waiting = []) {c : Command}
    (hc : c.verb.isEnvelope = true → d.envelope ≠ none) {events : List Event}
    (he : ∀ error, .failed error ∉ events) :
    Spared ((d.send? c).map (·, events)) (d.send c, events) := by
  refine ⟨?_, h.send hc, fun error hmem => absurd hmem (he error)⟩
  rw [send?_eq hw]
  rfl

/-- A command that is none of the envelope's. -/
theorem spared_send_other {d : Dialogue} (h : d.Grounded) (hw : d.pipeline.waiting = [])
    {c : Command} (hc : c.verb.isEnvelope = false) :
    Spared ((d.send? c).map (·, [])) (d.send c, []) :=
  spared_send h hw (by simp [hc]) (by simp)

/-- A failure with an error of another kind. -/
theorem spared_fail (d : Dialogue) {error : Error} (h : ¬error.IsDefensive) (mayQuit : Bool) :
    Spared (some (d.fail error mayQuit)) (d.fail error mayQuit) := by
  refine ⟨rfl, ?_, fun error' hmem => ?_⟩
  · rw [fail_eq]
    intro verb hmem
    simp [Pipeline.verbs_clear] at hmem
  · rw [fail_events, List.mem_singleton, Event.failed.injEq] at hmem
    rwa [hmem]

/-- A challenge is answered without a way out if the password is known. -/
theorem spared_sendPassword {d : Dialogue} (h : d.Grounded) (hp : d.password ≠ none) :
    Spared d.sendPassword? d.sendPassword := by
  obtain ⟨password, hp⟩ := Option.ne_none_iff_exists'.mp hp
  have hsome : (d.passwordSent || d.password.isSome) = true := by simp [hp]
  rw [sendPassword?, if_pos hsome, sendPassword]
  split
  · exact d.spared_fail (by simp [Error.IsDefensive]) true
  · rw [hp]
    exact ⟨rfl, h, by simp⟩

theorem grounded_of_envelope {d : Dialogue} (h : d.envelope ≠ none) : d.Grounded :=
  fun _ _ _ => h

/-- What keeps a payload back is its size, or a feature that the server lacks. -/
theorem not_isDefensive_declaredSize {caps : Capabilities} {payload : Payload} {error : Error}
    (h : declaredSize caps payload = .error error) : ¬error.IsDefensive := by
  cases payload with
  | message data =>
    simp only [declaredSize] at h
    split at h
    · split at h
      · cases h
        simp [Error.IsDefensive]
      · cases h
    · cases h
  | reference target =>
    simp only [declaredSize] at h
    split at h
    · cases h
    · cases h
      simp [Error.IsDefensive]

theorem spared_beginTransaction {d : Dialogue} (h : d.Grounded) (hw : d.pipeline.waiting = []) :
    Spared d.beginTransaction? d.beginTransaction := by
  unfold beginTransaction? beginTransaction
  cases he : d.envelope with
  | none => exact d.spared_fail (by simp [Error.IsDefensive]) true
  | some e =>
    have hgiven : d.envelope ≠ none := by simp [he]
    dsimp only
    cases hs : declaredSize d.capabilities e.payload with
    | error error => exact d.spared_fail (not_isDefensive_declaredSize hs) true
    | ok size =>
      dsimp only
      split
      · exact ⟨rfl, grounded_of_envelope hgiven, by simp⟩
      · exact spared_send h hw (fun _ => hgiven) (by simp)

/-- AUTH is sent only with the password known, so that its challenge can be answered. -/
theorem spared_negotiate {d : Dialogue} (h : d.Grounded) (hw : d.pipeline.waiting = []) :
    Spared d.negotiate? d.negotiate := by
  unfold negotiate? negotiate
  split
  · split
    · exact spared_send_other h hw rfl
    · exact d.spared_fail (by simp [Error.IsDefensive]) true
  · split
    · cases hs : d.capabilities.supportsPlain with
      | false => exact d.spared_fail (by simp [Error.IsDefensive]) true
      | true =>
        simp only [Bool.not_true, Bool.false_or, Bool.false_eq_true, if_false]
        split
        · split
          · exact ⟨rfl, h, by simp⟩
          · exact ⟨rfl, h, by simp [requestPassword]⟩
        · exact spared_send_other (d := { d with passwordSent := false }) h hw rfl
    · exact spared_beginTransaction h hw

/-- The next recipient is asked of an envelope that is there. -/
theorem spared_sendNextRecipient {d : Dialogue} (hw : d.pipeline.waiting = [])
    (he : d.envelope ≠ none) :
    Spared (d.sendNextRecipient?.map (·, [])) (d.sendNextRecipient, []) := by
  obtain ⟨e, he'⟩ := Option.ne_none_iff_exists'.mp he
  unfold sendNextRecipient? sendNextRecipient
  rw [he']
  dsimp only
  cases e.recipients[d.recipientsSent]? with
  | some recipient =>
    have hnext : Grounded { d with envelope := some e, recipientsSent := d.recipientsSent + 1 } :=
      grounded_of_envelope (by simp)
    exact spared_send hnext hw (by simp) (by simp)
  | none => exact spared_send (grounded_of_envelope he) hw (fun _ => he) (by simp)

/-- The body is that of a message, where the envelope carries one. -/
theorem spared_sendBody {d : Dialogue} (h : d.Grounded) {data : Bytes}
    (hp : d.envelope.map Envelope.payload = some (.message data)) :
    Spared d.sendBody? d.sendBody := by
  unfold sendBody? sendBody
  rw [hp]
  exact ⟨rfl, h, by simp⟩

theorem spared_succeed {d : Dialogue} (h : d.Grounded) (hw : d.pipeline.waiting = []) :
    Spared d.succeed? d.succeed := by
  refine spared_send (d := { d with succeeded := true }) h hw
    (by simp [Command.verb, Verb.isEnvelope]) ?_
  intro error hmem
  dsimp only [succeed] at hmem
  split at hmem <;> simp at hmem

structure Provided (d : Dialogue) (awaited : Awaited) : Prop where
  password : awaited = .answer .auth → d.password ≠ none
  envelope : ∀ verb, awaited = .answer verb → verb.isEnvelope = true → d.envelope ≠ none
  message : awaited = .answer .data →
    ∃ data, d.envelope.map Envelope.payload = some (.message data)

/-- A refusal has its own error, and never that of a state which should not come up. -/
theorem not_isDefensive_refusal (refusal : Refusal) (awaited : Awaited) (reply : Reply)
    (text : String) : ¬(refusal.error awaited reply text).IsDefensive := by
  cases refusal <;> simp [Refusal.error, Error.IsDefensive]

/-- Every decision that is listed for a reply is carried out. -/
theorem spared_act {d : Dialogue} (h : d.Grounded) (hw : d.pipeline.waiting = [])
    {awaited : Awaited} (hp : d.Provided awaited) (reply : Reply) (text : String)
    {decision : Decision} (hl : Decision.Listed reply.code awaited decision) :
    Spared (d.act? awaited reply text decision) (d.act awaited reply text decision) := by
  cases hl with
  | greet =>
    exact spared_send_other (d := { d with phase := .ready, capabilities := .empty }) h hw rfl
  | announce =>
    exact spared_negotiate (d := { d with capabilities := d.capabilities.addReply reply }) h hw
  | retry => exact spared_send_other (d := { d with capabilities := .empty }) h hw rfl
  | negotiate => exact spared_negotiate h hw
  | encrypt => exact ⟨rfl, h, by simp [act, advance]⟩
  | sendPassword => exact spared_sendPassword h (hp.password rfl)
  | beginTransaction =>
    exact spared_beginTransaction (d := { d with authenticated := true }) h hw
  | firstRecipient | nextRecipient =>
    have he : d.envelope ≠ none := hp.envelope _ rfl rfl
    simp only [act?, act, advance?, advance]
    split
    · exact ⟨rfl, h, by simp⟩
    · exact spared_sendNextRecipient hw he
  | sendBody =>
    obtain ⟨data, hmessage⟩ := hp.message rfl
    exact spared_sendBody h hmessage
  | quitAfterData | quitAfterBurl => exact spared_succeed h hw
  | close => exact ⟨rfl, h.of_subset (List.nil_subset _) rfl, by simp [act, advance]⟩
  | fail awaited refusal =>
    simp only [act?, act]
    split
    · exact ⟨rfl, h.of_subset (List.nil_subset _) rfl, by simp⟩
    · exact d.spared_fail (not_isDefensive_refusal refusal awaited reply text) _

structure Equipped (d : Dialogue) : Prop where
  waiting_eq : d.pipeline.waiting = []
  grounded : d.Grounded
  own : d.OwnPayload
  password_of : .auth ∈ d.pipeline.verbs → d.password ≠ none

/-- What the awaited command needs is at hand by the time that its reply comes. -/
theorem Equipped.provided {d : Dialogue} (h : d.Equipped) {awaited : Awaited}
    (hw : d.awaited = some awaited) : d.Provided awaited := by
  refine ⟨?_, ?_, ?_⟩
  · rintro rfl
    exact h.password_of (mem_verbs_of_awaited hw)
  · rintro verb rfl hverb
    exact h.grounded verb (mem_verbs_of_awaited hw) hverb
  · rintro rfl
    obtain ⟨e, he, hverb⟩ := h.own .data (mem_verbs_of_awaited hw) rfl
    cases hp : e.payload with
    | message data => exact ⟨data, by rw [he, Option.map_some, hp]⟩
    | reference target =>
      rw [hp] at hverb
      cases hverb

/-- A reply that is counted puts no command back among those that wait. -/
theorem waiting_settle {d : Dialogue} (hw : d.pipeline.waiting = []) (awaited : Awaited)
    (code : Code) :
    (settle { d with replyTexts := [] } awaited code).pipeline.waiting = [] := by
  unfold settle
  split
  · exact hw
  · split <;> exact hw

theorem Provided.settle {d : Dialogue} {awaited : Awaited} (h : d.Provided awaited) (code : Code) :
    Provided (settle { d with replyTexts := [] } awaited code) awaited := by
  obtain ⟨_, _, _, heq⟩ := settle_eq { d with replyTexts := [] } awaited code
  rw [heq]
  exact ⟨h.password, h.envelope, h.message⟩

theorem Grounded.settle {d : Dialogue} (h : d.Grounded) (awaited : Awaited) (code : Code) :
    Grounded (settle { d with replyTexts := [] } awaited code) :=
  h.of_subset (d.verbs_settle_subset awaited code)
    (settle_envelope { d with replyTexts := [] } awaited code)

theorem holdLine_eq (d : Dialogue) (reply : Reply) (decision : Decision) :
    ∃ capabilities replyTexts, d.holdLine reply decision =
      { d with capabilities := capabilities, replyTexts := replyTexts } := by
  unfold holdLine
  split
  · exact ⟨_, d.replyTexts, rfl⟩
  · exact ⟨d.capabilities, _, rfl⟩

/-- A complete reply meets a dialogue that has what the decision needs. -/
theorem spared_takeReply {d : Dialogue} (h : d.Equipped) (reply : Reply) :
    Spared (d.takeReply? reply) (d.takeReply reply) := by
  unfold takeReply?
  cases hw : d.awaited with
  | none =>
    rw [d.takeReply_of_none reply hw]
    exact d.spared_fail (by simp [Error.IsDefensive]) true
  | some awaited =>
    dsimp only
    split
    · next hc =>
      rw [d.takeReply_of_continues reply awaited hw hc]
      obtain ⟨_, _, heq⟩ := d.holdLine_eq reply (Decision.of awaited reply.code)
      rw [heq]
      exact ⟨rfl, h.grounded, by simp⟩
    · next hc =>
      rw [d.takeReply_of_last reply awaited hw (by simpa using hc)]
      exact spared_act (h.grounded.settle awaited reply.code)
        (waiting_settle h.waiting_eq awaited reply.code) ((h.provided hw).settle reply.code)
        reply (d.replyText reply) (Decision.listed_of awaited reply.code)

theorem spared_takeLine {d : Dialogue} (h : d.Equipped) (line : Bytes) :
    Spared (d.takeLine? line) (d.takeLine line) := by
  unfold takeLine? takeLine
  split
  · exact ⟨rfl, h.grounded, by simp⟩
  · cases hparse : Reply.parse line with
    | ok reply => exact spared_takeReply h reply
    | error error =>
      have hmalformed := (Reply.parse_eq_error_iff line error).mp hparse
      refine d.spared_fail ?_ true
      rw [hmalformed.2]
      simp [Error.IsDefensive]

theorem spared_givePassword {d : Dialogue} (h : d.Equipped) (password : String) :
    Spared ((d.givePassword? password).map (·, [])) (d.givePassword password, []) := by
  unfold givePassword? givePassword
  split
  · exact spared_send_other
      (d := { d with password := some password, parked := false, passwordSent := false })
      h.grounded h.waiting_eq rfl
  · exact ⟨rfl, h.grounded, by simp⟩

theorem spared_encrypt {d : Dialogue} (h : d.Equipped) :
    Spared (d.encrypt?.map (·, [])) (d.encrypt, []) := by
  unfold encrypt? encrypt
  split
  · exact ⟨rfl, h.grounded, by simp⟩
  · exact spared_send_other (d := { d with encrypted := true, capabilities := .empty })
      h.grounded h.waiting_eq rfl

structure SparedBy (d : Dialogue) (call : Call) : Prop where
  eq : d.perform? call = some (d.perform call)
  grounded : (d.perform call).1.Grounded
  events : ∀ error, .failed error ∈ d.eventsOf call → error.IsDefensive → call = .lost error
  refusal : ∀ error ∈ (d.perform call).2.refusal, ¬error.IsDefensive

theorem Spared.by {d : Dialogue} {call : Call} {r? : Option Outcome} {r : Outcome}
    (h : Spared r? r) (heq : d.perform? call = r?.map fun r => (r.1, .ofEvents r.2))
    (hp : d.perform call = (r.1, .ofEvents r.2)) : d.SparedBy call := by
  refine ⟨?_, ?_, fun error hmem herror => ?_, ?_⟩
  · rw [heq, h.eq, hp]
    rfl
  · rw [hp]
    exact h.grounded
  · rw [eventsOf, hp] at hmem
    exact absurd herror (h.harmless error hmem)
  · rw [hp]
    simp [Answer.ofEvents]

/-- A submission is refused for one reason only. -/
theorem refusal_submit {d : Dialogue} {e : Envelope} {error : Error}
    (h : error ∈ (d.perform (.submit e)).2.refusal) :
    error = .invalidState "a submission was already started on this connection" := by
  simp only [perform, submit] at h
  split at h
  · cases h
  · next refused hrefused =>
    obtain rfl : refused = error := Option.some.inj h
    split at hrefused
    · cases hrefused
      rfl
    · split at hrefused <;> cases hrefused

/-- A submission begins with nothing on its way. -/
theorem sparedBy_submit {d : Dialogue} (h : d.Grounded) (e : Envelope) :
    d.SparedBy (.submit e) := by
  have hrefusal (error : Error) (hmem : error ∈ (d.perform (.submit e)).2.refusal) :
      ¬error.IsDefensive := by
    rw [refusal_submit hmem]
    simp [Error.IsDefensive]
  rcases d.perform_submit e with ⟨heq, hnone⟩ | ⟨-, -, requested, asked, heq, hevents, hasked⟩
  · refine ⟨rfl, by rwa [heq], fun error hmem _ => ?_, hrefusal⟩
    rw [eventsOf, hnone] at hmem
    cases hmem
  · refine ⟨rfl, ?_, fun error hmem _ => ?_, hrefusal⟩
    · rw [heq]
      exact grounded_of_envelope (by simp)
    · rw [eventsOf, hevents] at hmem
      rcases hasked with rfl | rfl <;> simp at hmem

theorem sparedBy_lost {d : Dialogue} (h : d.Grounded) (error : Error) :
    d.SparedBy (.lost error) := by
  refine ⟨rfl, ?_, ?_, by simp [perform, Answer.ofEvents]⟩
  · simp only [perform, disconnect]
    split
    · exact h
    · split
      · exact h
      · exact (fail_eq d error false) ▸ h.of_subset (by simp [Pipeline.verbs_clear]) rfl
  · intro error' hmem _
    simp only [eventsOf, perform, disconnect, Answer.ofEvents] at hmem
    split at hmem
    · cases hmem
    · split at hmem
      · cases hmem
      · rw [fail_events, List.mem_singleton, Event.failed.injEq] at hmem
        rw [hmem]

/-- No call of an equipped dialogue needs a way out. -/
theorem sparedBy_perform {d : Dialogue} (h : d.Equipped) (call : Call) : d.SparedBy call := by
  have hsame (next : Dialogue) (hp : next.pipeline = d.pipeline)
      (he : next.envelope = d.envelope) : Spared (some (next, [])) (next, []) := by
    refine ⟨rfl, h.grounded.of_subset ?_ he, by simp⟩
    rw [hp]
    exact List.Subset.refl _
  cases call with
  | submit e => exact sparedBy_submit h.grounded e
  | connected =>
    have hnext : d.connect.pipeline = d.pipeline ∧ d.connect.envelope = d.envelope := by
      unfold connect
      split <;> exact ⟨rfl, rfl⟩
    exact (hsame d.connect hnext.1 hnext.2).by rfl rfl
  | line line => exact (spared_takeLine h line).by rfl rfl
  | password text =>
    refine (spared_givePassword h text).by ?_ rfl
    rw [Option.map_map]
    rfl
  | encrypted =>
    refine (spared_encrypt h).by ?_ rfl
    rw [Option.map_map]
    rfl
  | cancel =>
    have hcancel : Spared (some d.cancel) d.cancel := by
      unfold cancel
      split
      · exact hsame d rfl rfl
      · exact d.spared_fail (by simp [Error.IsDefensive]) false
    exact hcancel.by rfl rfl
  | lost error => exact sparedBy_lost h.grounded error
  | poll => exact ⟨rfl, h.grounded, by simp [eventsOf, perform], by simp [perform]⟩

/-- What a command in flight needs besides an envelope is there after every run. -/
theorem Grounded.equipped {settings : Settings} {calls : List Call}
    (h : ((start settings).after calls).Grounded) : ((start settings).after calls).Equipped := by
  refine ⟨(tidy_after settings calls).waiting_eq, h, ownPayload_after settings calls, ?_⟩
  intro hmem hnone
  rw [password_after settings] at hnone
  exact notMem_auth_of_unknown hnone hmem

/-- In every run the dialogue is equipped, by induction from the end of the run. -/
theorem equipped_after (settings : Settings) (calls : List Call) :
    ((start settings).after calls).Equipped := by
  induction calls using List.reverseRecOn with
  | nil =>
    apply Grounded.equipped
    intro verb hmem
    simp [start, Pipeline.empty, Pipeline.verbs] at hmem
  | append_singleton calls call ih =>
    apply Grounded.equipped
    rw [after_snoc]
    exact (sparedBy_perform ih call).grounded

/-- A run can go on from wherever a run has led. -/
theorem run?_after (settings : Settings) (before later : List Call) :
    ((start settings).after before).run? later =
      some (((start settings).after before).run later) := by
  induction later generalizing before with
  | nil => rfl
  | cons call later ih =>
    have hcall := (sparedBy_perform (equipped_after settings before) call).eq
    have hrest := ih (before ++ [call])
    rw [after_snoc] at hrest
    rw [run?, hcall, Option.bind_some, hrest]
    rfl

/-- A run in which none of the states comes up that should not: it is a run of the steps that give
nothing there, it leaves no command waiting, and none of the errors for such a state is reported,
unless one is brought in as the reason why the connection is lost. -/
structure KeepsClear (settings : Settings) (calls : List Call) : Prop where
  run_eq : (start settings).run? calls = some ((start settings).run calls)
  waiting_eq : ((start settings).after calls).pipeline.waiting = []
  events : ∀ before call later, calls = before ++ call :: later → ∀ error, error.IsDefensive →
    .failed error ∈ ((start settings).after before).eventsOf call → call = .lost error
  refusal : ∀ before call later, calls = before ++ call :: later → ∀ error, error.IsDefensive →
    (((start settings).after before).perform call).2.refusal ≠ some error

/-- Every run keeps clear of these states, in whatever order the calls come. -/
theorem keepsClear_run (settings : Settings) (calls : List Call) : KeepsClear settings calls := by
  refine ⟨?_, (equipped_after settings calls).waiting_eq, ?_, ?_⟩
  · exact run?_after settings [] calls
  · intro before call later _ error herror hmem
    have hcall := sparedBy_perform (equipped_after settings before) call
    exact hcall.events error hmem herror
  · intro before call later _ error herror hrefused
    have hcall := sparedBy_perform (equipped_after settings before) call
    exact hcall.refusal error hrefused herror

/-- In another state these steps do give nothing. -/
example (settings : Settings) :
    (start settings).sendBody? = none ∧ (start settings).sendPassword? = none := ⟨rfl, rfl⟩

end Dialogue

end SmtpClient
