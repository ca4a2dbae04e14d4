import SmtpClient.Proofs.SingleOutcome
import SmtpClient.Proofs.Transcript

namespace SmtpClient

namespace Dialogue

/-- A dialogue as it would be had it heard no line since it was connected. -/
def unheard (d : Dialogue) : Dialogue :=
  { d with
    phase := if d.phase = .disconnected then .disconnected else .connecting
    capabilities := .empty
    pipeline := .empty
    outbound := []
    replyTexts := []
    greetingDue := d.phase ≠ .disconnected }

/-- Once connected, a dialogue that has heard nothing waits for the greeting. -/
theorem unheard_of_connected {d : Dialogue} (h : d.phase ≠ .disconnected) :
    d.unheard = { d with
      phase := .connecting
      capabilities := .empty
      pipeline := .empty
      outbound := []
      replyTexts := []
      greetingDue := true } := by
  simp [unheard, h]

/-- Counting a reply leaves no trace but in what was heard. -/
theorem unheard_settle (d : Dialogue) (awaited : Awaited) (code : Code) :
    (settle { d with replyTexts := [] } awaited code).unheard = d.unheard := by
  have hphase {phase : Phase} (hp : phase = .disconnected ↔ d.phase = .disconnected) :
      unheard { d with phase := phase } = d.unheard := by
    simp only [unheard, hp, ne_eq]
  unfold settle
  split
  · rfl
  · split
    · rfl
    · refine hphase ?_
      split
      · next hready =>
        simp only [Bool.and_eq_true, decide_eq_true_eq] at hready
        simp [hready.1]
      · exact Iff.rfl

/-- What can be awaited in the clear. -/
theorem Turn.awaited_of_clear {d : Dialogue} {said : List Command} (h : d.Turn said)
    (hm : d.mustEncrypt = true) (hopen : d.isFinished = false) {awaited : Awaited}
    (hw : d.awaited = some awaited) :
    d.phase ≠ .disconnected ∧ awaited ∈
      [.greeting, .answer .ehlo, .answer .helo, .answer .startTls] := by
  have hnot {P : Prop} (hf : d.mustEncrypt = false) : P := by
    rw [hm] at hf
    cases hf
  cases h with
  | silent phase hp hd =>
    rcases hp with rfl | rfl
    · simp [hd.awaited_eq_none] at hw
    · rw [hd.awaited_eq_greeting] at hw
      cases hw
      simp [hd.phase_eq]
  | opening verb said hd hu ho =>
    rw [hd.awaited_eq_answer (by simp)] at hw
    cases hw
    cases ho with
    | hail | secure | hailPlainly => simp [hd.phase_eq]
    | identify secured plainly hf => exact hnot hf
  | parked secured plainly hd hu hf => exact hnot hf
  | handshake hd => simp [hd.awaited_eq_none] at hw
  | sending secured plainly identified e size c rest said he hf => exact hnot hf
  | leaving secured plainly identified e size he hf => exact hnot hf
  | closed _ hclosed => simp [isFinished, hclosed] at hopen

/-- In the clear a dialogue that has been greeted asks for encryption or gives up. -/
theorem Negotiation.unheard {d : Dialogue} {r : Outcome} (h : d.Negotiation r)
    (hm : d.mustEncrypt = true) (hopen : r.1.isFinished = false) :
    r.1.unheard = d.unheard := by
  cases h with
  | failed error => simp [isFinished] at hopen
  | startTls => rfl
  | park hf => simp [hm] at hf
  | ask hf => simp [hm] at hf
  | auth hf => simp [hm] at hf
  | begun hf => simp [hm] at hf

theorem Told.unheard_reactTo {d : Dialogue} {said : List Command} (h : d.Told said)
    (hm : d.mustEncrypt = true) (hopen : d.isFinished = false) {awaited : Awaited}
    (hw : d.awaited = some awaited) (reply : Reply) (text : String) {decision : Decision}
    (hl : Decision.Listed reply.code awaited decision)
    (hnext : (d.reactTo awaited reply text decision).1.isFinished = false) :
    (d.reactTo awaited reply text decision).1.unheard = d.unheard := by
  obtain ⟨hconnected, hclear⟩ := h.turn.awaited_of_clear hm hopen hw
  have hmust := (d.silently_settle awaited reply.code).toSameTerms.mustEncrypt_eq.trans hm
  have hsettle := d.unheard_settle awaited reply.code
  rw [Dialogue.reactTo] at hnext ⊢
  cases hl with
  | greet _ =>
    rw [unheard_of_connected hconnected]
    rfl
  | announce _ =>
    generalize settle { d with replyTexts := [] } (.answer .ehlo) reply.code = s at *
    have hneg := negotiate_negotiation { s with capabilities := s.capabilities.addReply reply }
    exact (hneg.unheard hmust hnext).trans hsettle
  | retry _ => exact hsettle
  | negotiate _ => exact ((negotiate_negotiation _).unheard hmust hnext).trans hsettle
  | encrypt _ => exact hsettle
  | fail _ refusal => simp [isFinished, phase_act_fail] at hnext
  | _ => simp at hclear

/-- A line that leaves the dialogue open in the clear changes only what was heard. -/
theorem Told.unheard_takeLine {d : Dialogue} {said : List Command} (h : d.Told said)
    (hm : d.mustEncrypt = true) (line : Bytes)
    (hnext : (d.takeLine line).1.isFinished = false) :
    (d.takeLine line).1.unheard = d.unheard := by
  have hread := d.takeLine_reading line
  generalize d.takeLine line = r at hread hnext ⊢
  cases hread with
  | closed => rfl
  | malformed error => simp [isFinished] at hnext
  | unasked reply => simp [isFinished] at hnext
  | held reply awaited =>
    unfold Dialogue.holdLine
    split <;> rfl
  | completed reply awaited hopen _ hw _ =>
    exact h.unheard_reactTo hm hopen hw reply _ (Decision.listed_of awaited reply.code) hnext

theorem submit_dialogue (d : Dialogue) (e : Envelope) :
    (d.perform (.submit e)).1 =
      if d.envelope.isSome || d.phase != .disconnected then d
      else { d with
        envelope := some e
        passwordRequested :=
          d.passwordRequested || (d.settings.requireAuth && d.password.isNone) } := by
  simp only [perform, submit]
  by_cases hnew : (d.envelope.isSome || d.phase != .disconnected) = true
  · rw [if_pos hnew, if_pos hnew]
  · rw [if_neg hnew, if_neg hnew]
    by_cases hasks : (d.settings.requireAuth && d.password.isNone) = true
    · rw [if_pos hasks, hasks, Bool.or_true]
      rfl
    · rw [if_neg hasks, Bool.eq_false_iff.mpr hasks, Bool.or_false]

/-- A submission does not hang on what was heard. -/
theorem unheard_submit (d : Dialogue) (e : Envelope) :
    (d.perform (.submit e)).1.unheard = (d.unheard.perform (.submit e)).1 := by
  rw [submit_dialogue, submit_dialogue]
  by_cases hp : d.phase = .disconnected
  · have hphase : d.unheard.phase = .disconnected := by simp [unheard, hp]
    rw [hphase, hp]
    change unheard (if d.envelope.isSome || _ then _ else _) =
      if d.envelope.isSome || _ then _ else _
    split
    · rfl
    · simp [unheard, hp]
  · have hphase : d.unheard.phase = .connecting := by simp [unheard, hp]
    rw [if_pos (by simp [hp]), if_pos (by simp [hphase])]

/-- No password is waited for in the clear. -/
theorem Told.unheard_givePassword {d : Dialogue} {said : List Command} (h : d.Told said)
    (hm : d.mustEncrypt = true) (hopen : d.isFinished = false) (password : String) :
    (d.givePassword password).unheard = d.unheard.givePassword password := by
  have hparked : d.parked = false := by
    by_contra hnot
    obtain ⟨-, -, hf, -⟩ := h.turn.of_parked (by simpa using hnot) hopen
    simp [hm] at hf
  have hparked' : d.unheard.parked = false := hparked
  simp only [Dialogue.givePassword, hparked, hparked', Bool.false_and, Bool.false_eq_true, if_false]
  rfl

/-- A call that is no line does the same to a dialogue as it would had it heard nothing. -/
theorem Told.unheard_perform {d : Dialogue} {said : List Command} (h : d.Told said)
    (hm : d.mustEncrypt = true) {call : Call} (hline : call.isLine = false)
    (hcall : call ≠ .encrypted) (hnext : (d.perform call).1.isFinished = false) :
    (d.perform call).1.unheard = (d.unheard.perform call).1 := by
  have hfinished {s : Dialogue} (hclosed : s.phase = .closed) (hopen : s.isFinished = false) :
      False := by simp [isFinished, hclosed] at hopen
  have hopen : d.isFinished = false := by
    rw [isFinished_eq_false_iff]
    intro hclosed
    exact hfinished (perform_of_closed hclosed call).1 hnext
  cases call with
  | submit e => exact d.unheard_submit e
  | connected =>
    simp only [Dialogue.perform, Dialogue.connect]
    by_cases hp : d.phase = .disconnected <;> simp [unheard, hp]
  | line line => cases hline
  | password text => exact h.unheard_givePassword hm hopen text
  | encrypted => exact absurd rfl hcall
  | cancel => exact (hfinished d.phase_cancel hnext).elim
  | lost error => exact (hfinished (d.phase_disconnect error) hnext).elim
  | poll => rfl

/-- In the clear a run leads to the same, but for what was heard, as its calls that are no lines. -/
theorem unheard_after {settings : Settings} (hs : settings.usesStartTls = true) {calls : List Call}
    (h : .encrypted ∉ calls) (hopen : ((start settings).after calls).isFinished = false) :
    ((start settings).after calls).unheard =
      (start settings).after (calls.filter (!·.isLine)) := by
  -- from the last call: a line changes nothing on either side, any other call the same on both
  induction calls using List.reverseRecOn with
  | nil => rfl
  | append_singleton calls call ih =>
    simp only [List.mem_append, List.mem_singleton, not_or] at h
    obtain ⟨said, htold, -⟩ := (EncryptsWhenDue.of_notMem settings h.1).told
    have hm := mustEncrypt_after hs h.1
    rw [after_snoc] at hopen ⊢
    have hbefore : ((start settings).after calls).isFinished = false := by
      rw [isFinished_eq_false_iff]
      intro hclosed
      simp [isFinished, (perform_of_closed hclosed call).1] at hopen
    rw [List.filter_append]
    cases hline : call.isLine with
    | true =>
      cases call with
      | line line =>
        rw [List.filter_cons_of_neg (by simp [hline]), List.filter_nil, List.append_nil]
        exact (htold.unheard_takeLine hm line hopen).trans (ih h.1 hbefore)
      | _ => cases hline
    | false =>
      rw [List.filter_cons_of_pos (by simp [hline]), List.filter_nil, after_snoc, ← ih h.1 hbefore]
      exact htold.unheard_perform hm hline (Ne.symm h.2) hopen

/-- A run in the clear that is about to be encrypted, with all of its output written. -/
structure ReadyToEncrypt (settings : Settings) (calls : List Call) : Prop where
  clear : .encrypted ∉ calls
  due : .encryptionDue ∈ (start settings).events calls
  unfinished : ((start settings).after calls).isFinished = false
  written : ((start settings).after calls).outbound = []

def securing (d : Dialogue) : Dialogue :=
  { d with phase := .ready, pipeline := ⟨2, [], []⟩, greetingDue := false }

/-- Where the handshake begins, everything but what the server has announced is known. -/
theorem ReadyToEncrypt.forget_eq {settings : Settings} {calls : List Call}
    (h : ReadyToEncrypt settings calls) :
    { (start settings).after calls with capabilities := .empty } =
      ((start settings).after calls).unheard.securing := by
  have hclear := EncryptsWhenDue.of_notMem settings h.clear
  obtain ⟨said, htold, -⟩ := hclear.told
  have hdue :
      0 < ((start settings).events calls).count .encryptionDue - calls.count .encrypted := by
    rw [List.count_eq_zero_of_not_mem h.clear]
    exact List.count_pos_iff.mpr h.due
  obtain ⟨-, hd, -⟩ := hclear.standing.2.of_due hdue h.unfinished
  obtain ⟨rfl, -, -, htexts⟩ := htold.turn.of_clear hd
  have hissued : ((start settings).after calls).pipeline.issued = 2 := htold.issued_eq
  have hwritten := h.written
  generalize (start settings).after calls = d at hd htexts hissued hwritten
  have hpipeline : d.pipeline = ⟨2, [], []⟩ := by
    have hidle : d.pipeline.inFlight = [] := List.map_eq_nil_iff.mp hd.inFlight_eq
    rw [← hissued, ← hd.waiting_eq, ← hidle]
  simp [unheard, securing, hpipeline, hwritten, htexts, hd.phase_eq, hd.greetingDue_eq]

/-- The new greeting does not depend on what the server announced in the clear. -/
theorem encrypt_forget {d : Dialogue} (hopen : d.isFinished = false) :
    d.encrypt = encrypt { d with capabilities := .empty } := by
  have hopen' : isFinished { d with capabilities := .empty } = false := hopen
  rw [encrypt, encrypt, if_neg (by simp [hopen]), if_neg (by simp [hopen'])]
  rfl

/-- Nothing that is heard in the clear has an influence once the connection is encrypted: of two
runs that differ only in the lines they were sent before, both dialogues are then equal, and they
stay equal whatever calls follow. -/
theorem encrypted_eq_of_unheard (settings : Settings) (calls calls' : List Call)
    (hs : settings.usesStartTls = true) (h : ReadyToEncrypt settings calls)
    (h' : ReadyToEncrypt settings calls')
    (hcalls : calls.filter (!·.isLine) = calls'.filter (!·.isLine)) :
    (start settings).after (calls ++ [.encrypted]) =
        (start settings).after (calls' ++ [.encrypted]) ∧
      ∀ later, ((start settings).after (calls ++ [.encrypted])).run later =
        ((start settings).after (calls' ++ [.encrypted])).run later := by
  have htwo : (start settings).after (calls ++ [.encrypted]) =
      (start settings).after (calls' ++ [.encrypted]) := by
    have hencrypt {calls : List Call} (h : ReadyToEncrypt settings calls) :
        (start settings).after (calls ++ [.encrypted]) =
          (securing ((start settings).after (calls.filter (!·.isLine)))).encrypt := by
      rw [after_snoc, ← unheard_after hs h.clear h.unfinished, ← h.forget_eq]
      exact encrypt_forget h.unfinished
    rw [hencrypt h, hencrypt h', hcalls]
  exact ⟨htwo, fun later => by rw [htwo]⟩

def greetedBy (texts : List String) : List Call := conversation .greeting texts ++ [.poll, .poll]

def briefly : List String := ["220 mx ESMTP", "250-mx", "250 STARTTLS", "220 go ahead"]

def atLength : List String :=
  ["220-welcome", "220 at length", "250-elsewhere at your service", "250-SIZE 1", "250-PIPELINING",
    "250-AUTH PLAIN", "250 STARTTLS", "220-ready", "220 when you are"]

/-- A server that says little and one that says much leave the same dialogue once it is encrypted.
-/
theorem encrypted_eq_of_greetedBy :
    Settings.guarded.usesStartTls = true ∧ ReadyToEncrypt .guarded (greetedBy briefly) ∧
      ReadyToEncrypt .guarded (greetedBy atLength) ∧
      (start .guarded).after (greetedBy briefly ++ [.encrypted]) =
        (start .guarded).after (greetedBy atLength ++ [.encrypted]) := by
  have hbriefly : ReadyToEncrypt .guarded (greetedBy briefly) :=
    ⟨by decide +kernel, by decide +kernel, by decide +kernel, by decide +kernel⟩
  have hatLength : ReadyToEncrypt .guarded (greetedBy atLength) :=
    ⟨by decide +kernel, by decide +kernel, by decide +kernel, by decide +kernel⟩
  have htwo := encrypted_eq_of_unheard .guarded (greetedBy briefly) (greetedBy atLength) rfl
    hbriefly hatLength (by decide +kernel)
  exact ⟨rfl, hbriefly, hatLength, htwo.1⟩

end Dialogue

end SmtpClient
