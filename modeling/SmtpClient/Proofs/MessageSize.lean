import SmtpClient.Proofs.Announced
import SmtpClient.Proofs.Batching
import SmtpClient.Proofs.EnvelopeCommand
import SmtpClient.Proofs.Offers
import SmtpClient.Proofs.Stuffing

namespace SmtpClient

namespace Body

/-- The octets of a message that a server counts in a body (RFC 1870): all of them but the lone dot
at the end and the dots that were added. -/
def countedOctets (body : Bytes) : Nat :=
  (unstuff (body.take (body.length - loneDot.length))).length

/-- A server counts the message and, where it does not end its last line, two octets more. -/
theorem countedOctets_encode (message : Bytes) :
    countedOctets (encode message) =
      message.length + if Bytes.crlf <:+ message then 0 else Bytes.crlf.length := by
  have hstuffed : (encode message).take ((encode message).length - loneDot.length) =
      stuff (terminated message) := by
    rw [encode_eq, List.length_append, Nat.add_sub_cancel, List.take_left]
  rw [countedOctets, hstuffed, unstuff_stuff, terminated]
  split
  · rfl
  · exact List.length_append

/-- Only a message that ends its last line is counted with as many octets as it has. -/
theorem countedOctets_encode_eq_iff (message : Bytes) :
    countedOctets (encode message) = message.length ↔ Bytes.crlf <:+ message := by
  rw [countedOctets_encode]
  have hcrlf : Bytes.crlf.length = 2 := rfl
  split
  · next h => exact iff_of_true (Nat.add_zero _) h
  · next h => exact iff_of_false (by omega) h

end Body

/-- A line ends where its CR comes. -/
theorem Bytes.line_unique {line line' : Bytes} (h : line.IsCommandLine) (h' : line'.IsCommandLine)
    {rest rest' : Bytes} (heq : line ++ rest = line' ++ rest') : line = line' := by
  obtain ⟨text, htext, rfl⟩ := h
  obtain ⟨text', htext', rfl⟩ := h'
  have hcut {bytes : Bytes} (hbytes : bytes.Unbroken) (later : Bytes) :
      (bytes ++ crlf ++ later).takeWhile (· ≠ cr) = bytes := by
    have hnone : ∀ b ∈ bytes, decide (b ≠ cr) = true := by
      intro b hb
      exact decide_eq_true fun hcr => hbytes.1 (hcr ▸ hb)
    rw [List.append_assoc, List.takeWhile_append_of_pos hnone]
    exact List.append_nil _
  have hsame : text = text' := by rw [← hcut htext rest, heq, hcut htext' rest']
  rw [hsame]

/-- The size that is declared to the server can be read off the line. -/
theorem Command.mail_size_unique {sender : Address} {size size' : Option Nat} {rest rest' : Bytes}
    (h : (Command.mail sender size).render ++ rest = (Command.mail sender size').render ++ rest') :
    size = size' := by
  have hline (size : Option Nat) := (EnvelopeCommand.mail sender size).isCommandLine_line
  have hsame := EnvelopeCommand.line_injective (Bytes.line_unique (hline size) (hline size') h)
  exact (EnvelopeCommand.mail.inj hsame).2

def Capabilities.LimitAnnounced (caps : Capabilities) : Prop :=
  caps.sizeLimit ≠ none → caps.supports .size = true

theorem Capabilities.LimitAnnounced.addLine {caps : Capabilities} (h : caps.LimitAnnounced)
    (text : String) : (caps.addLine text).LimitAnnounced := by
  rw [LimitAnnounced, sizeLimit_addLine, supports_addLine]
  intro hlimit
  cases htext : limit? text with
  | none =>
    rw [htext] at hlimit
    exact Or.inl (h hlimit)
  | some limit =>
    obtain ⟨parameters, hsize, -⟩ := limit?_eq_some_iff.mp htext
    exact Or.inr ⟨parameters, hsize⟩

theorem Capabilities.LimitAnnounced.addReply {caps : Capabilities} (h : caps.LimitAnnounced)
    (reply : Reply) : (caps.addReply reply).LimitAnnounced := by
  have hnamed (hostname : String) : LimitAnnounced { caps with hostname := hostname } := h
  unfold Capabilities.addReply
  split
  · exact (hnamed _).addLine reply.text
  · exact h.addLine reply.text

namespace Dialogue

/-- What is known of the server after a call: what was known, nothing, or one line more. -/
theorem capabilities_perform (d : Dialogue) (call : Call) :
    (d.perform call).1.capabilities = d.capabilities ∨
      (d.perform call).1.capabilities = .empty ∨
        ∃ reply, (d.perform call).1.capabilities = d.capabilities.addReply reply := by
  by_cases hline : ∃ line, call = .line line
  · obtain ⟨line, rfl⟩ := hline
    change (d.takeLine line).1.capabilities = _ ∨ (d.takeLine line).1.capabilities = _ ∨
      ∃ reply, (d.takeLine line).1.capabilities = _
    have hread := d.takeLine_reading line
    generalize d.takeLine line = r at hread ⊢
    cases hread with
    | closed => exact Or.inl rfl
    | malformed | unasked => exact Or.inl (d.retains_fail _ _).capabilities_eq
    | held reply awaited =>
      unfold holdLine
      split
      · exact Or.inr (Or.inr ⟨reply, rfl⟩)
      · exact Or.inl rfl
    | completed reply awaited =>
      rw [capabilities_reactTo]
      unfold Decision.announced
      split
      · exact Or.inr (Or.inr ⟨reply, rfl⟩)
      · exact Or.inr (Or.inl rfl)
      · exact Or.inr (Or.inl rfl)
      · exact Or.inl rfl
  · by_cases hencrypted : call = .encrypted
    · subst hencrypted
      cases hopen : d.isFinished with
      | true =>
        refine Or.inl ?_
        rw [perform, encrypt, if_pos hopen]
      | false =>
        refine Or.inr (Or.inl ?_)
        rw [perform_encrypted hopen]
        rfl
    · exact Or.inl
        (retains_perform (d := d) (fun line heq => hline ⟨line, heq⟩) hencrypted).capabilities_eq

/-- In no run is a limit known of a server that has not announced SIZE. -/
theorem limitAnnounced_after (settings : Settings) (calls : List Call) :
    ((start settings).after calls).capabilities.LimitAnnounced := by
  have hempty : Capabilities.empty.LimitAnnounced := fun hlimit => absurd rfl hlimit
  induction calls using List.reverseRecOn with
  | nil => exact hempty
  | append_singleton calls call ih =>
    rw [after_snoc]
    rcases ((start settings).after calls).capabilities_perform call with
      hsame | hgone | ⟨reply, hmore⟩
    · rwa [hsame]
    · rwa [hgone]
    · rw [hmore]
      exact ih.addReply reply

structure PutsOutMail (d : Dialogue) (call : Call) (e : Envelope) (size : Option Nat) : Prop where
  envelope_eq : d.envelope = some e
  sent : .mail ∈ (d.sentBy call).map (·.verb)
  output : ∃ later tags,
    d.outputOf call = [⟨(Command.mail e.sender size).render ++ later, tags⟩]

theorem PutsOutMail.size_unique {d : Dialogue} {call : Call} {e e' : Envelope}
    {size size' : Option Nat} (h : d.PutsOutMail call e size) (h' : d.PutsOutMail call e' size') :
    size = size' := by
  obtain rfl : e = e' := Option.some.inj (h.envelope_eq.symm.trans h'.envelope_eq)
  obtain ⟨later, tags, hout⟩ := h.output
  obtain ⟨later', tags', hout'⟩ := h'.output
  have hdata := congrArg Transmit.data (List.singleton_inj.mp (hout.symm.trans hout'))
  exact Command.mail_size_unique hdata

/-- The reply that lets the transaction begin only takes out what it answers. -/
theorem AboutToBegin.same {d : Dialogue} {line : Bytes} {b : Dialogue} (h : d.AboutToBegin line b) :
    b.envelope = d.envelope ∧ b.outbound = d.outbound ∧ b.pipeline = d.answered (.line line) := by
  cases h with
  | greeted reply h _ hb | greetedPlainly reply h _ hb | authenticated reply h _ hb =>
    rw [hb, ← h.pipeline_settle]
    simp

/-- Only a line lets MAIL go out, as the last reply that had to be waited for. -/
theorem exists_aboutToBegin_of_sent {d : Dialogue} (htidy : d.pipeline.Tidy) {call : Call}
    (hsent : .mail ∈ (d.sentBy call).map (·.verb)) :
    ∃ line b, call = .line line ∧ d.AboutToBegin line b := by
  have hopen : (d.perform call).1.phase ≠ .closed :=
    Decides.phase_ne htidy (Or.inl ⟨.mail, hsent, Or.inr (Or.inr rfl)⟩)
  have hbefore := noMailBeyond_of_tidy htidy
  by_cases hline : ∃ line, call = .line line
  · obtain ⟨line, rfl⟩ := hline
    obtain ⟨b, hb⟩ := exists_aboutToBegin htidy hsent
    exact ⟨line, b, rfl, hb⟩
  · refine absurd hsent (NoMailBeyond.notMem_sentBy ?_)
    by_cases hencrypted : call = .encrypted
    · subst hencrypted
      have hunfinished : d.isFinished = false :=
        (d.isFinished_eq_false_iff).mpr fun hclosed => hopen (perform_of_closed hclosed _).1
      have hforgotten : NoMailBeyond { d with encrypted := true, capabilities := .empty }
          d.pipeline.issued := hbefore.congr rfl
      rw [perform_encrypted hunfinished]
      exact hforgotten.send (by simp [Command.verb])
    · rcases pipeline_perform_of_not_line (fun line heq => hline ⟨line, heq⟩) hencrypted hopen with
        hsame | ⟨-, s, hsame, hnext⟩
      · exact hbefore.congr hsame
      · have hs : s.NoMailBeyond d.pipeline.issued := hbefore.congr hsame
        rw [hnext]
        exact hs.send (by simp [Command.verb])

/-- Whenever MAIL is sent, its declaration is the one that goes with what the server has
announced. -/
theorem exists_putsOutMail {d : Dialogue} (htidy : d.pipeline.Tidy) {call : Call}
    (hsent : .mail ∈ (d.sentBy call).map (·.verb)) :
    ∃ e size, d.PutsOutMail call e size ∧
      declaredSize (d.perform call).1.capabilities e.payload = .ok size := by
  have hopen : (d.perform call).1.phase ≠ .closed :=
    Decides.phase_ne htidy (Or.inl ⟨.mail, hsent, Or.inr (Or.inr rfl)⟩)
  obtain ⟨line, b, rfl, hb⟩ := exists_aboutToBegin_of_sent htidy hsent
  obtain ⟨henvelope, hout, hpipeline⟩ := hb.same
  have hw : b.pipeline.waiting = [] := by
    rw [hpipeline]
    exact (tidy_answered htidy _).waiting_eq
  have hnext : (d.perform (.line line)).1 = b.beginTransaction.1 := by
    rw [← hb.takeLine_eq]
    rfl
  have hbegins := b.beginTransaction_beginning
  rw [hnext] at hopen ⊢
  generalize b.beginTransaction = r at hbegins hnext hopen ⊢
  cases hbegins with
  | failed error => exact absurd (b.fail_phase _ _) hopen
  | batch e size he hsize =>
    refine ⟨e, size, ⟨henvelope ▸ he, hsent, ?_⟩, hsize⟩
    have hdata := Pipeline.data_batchOf_numbered b.pipeline.issued (transaction e size)
    generalize hbatch : Pipeline.batchOf
      (Pipeline.numbered b.pipeline.issued (transaction e size)) = batch at hdata
    rw [transaction_eq, List.flatMap_cons] at hdata
    refine ⟨(e.commandsFrom 0).flatMap Command.render, batch.tags, ?_⟩
    rw [← hdata]
    refine outputOf_eq ?_
    rw [hnext, sendBatch_eq b e size hw, hout, hbatch]
  | sender e size he hsize =>
    refine ⟨e, size, ⟨henvelope ▸ he, hsent, ?_⟩, hsize⟩
    refine ⟨[], [b.pipeline.issued + 1], outputOf_eq ?_⟩
    rw [hnext, send_eq b _ hw, hout, List.append_nil]
    rfl

/-- For a message, what is declared is its own length, where the server takes sizes, and the limit
leaves room for it. -/
theorem declaredSize_message {caps : Capabilities} {data : Bytes} {size : Option Nat}
    (h : declaredSize caps (.message data) = .ok size) :
    size = (if caps.supports .size then some data.length else none) ∧
      ∀ limit, caps.sizeLimit = some limit → data.length ≤ limit := by
  unfold declaredSize at h
  split at h
  · next payload data' hpayload =>
    cases hpayload
    split at h
    · next limit hlimit =>
      split at h
      · cases h
      · next hroom =>
        cases h
        refine ⟨rfl, fun limit' hlimit' => ?_⟩
        obtain rfl : limit = limit' := Option.some.inj (hlimit.symm.trans hlimit')
        exact Nat.not_lt.mp hroom
    · next hnone =>
      cases h
      refine ⟨rfl, fun limit hlimit => ?_⟩
      rw [hnone] at hlimit
      cases hlimit
  · next payload target hpayload => cases hpayload

/-- MAIL declares the octets that the server counts in the body of the message, if it declares any,
and goes out only if the limit of the server leaves room for them; and no other body is put out. -/
structure DeclaresTransmitted (settings : Settings) (calls : List Call) (data : Bytes) : Prop where
  declared : ∀ before call later e size, calls = before ++ call :: later →
    ((start settings).after before).PutsOutMail call e size →
    size = if ((start settings).after (before ++ [call])).capabilities.supports .size then
      some (Body.countedOctets (Body.encode data)) else none
  within : ∀ before call later e size limit, calls = before ++ call :: later →
    ((start settings).after before).PutsOutMail call e size →
    ((start settings).after (before ++ [call])).capabilities.sizeLimit = some limit →
    Body.countedOctets (Body.encode data) ≤ limit
  transmitted : ∀ t ∈ (start settings).putOut calls, t.EndsBody → t = .raw (Body.encode data)

def DeclaresSize (settings : Settings) (calls : List Call) : Prop :=
  Occurs calls fun before call => ∃ e n, ((start settings).after before).PutsOutMail call e (some n)

/-- Every body that is put out is the one of the message. -/
theorem eq_body_of_endsBody {settings : Settings} {calls : List Call} {data : Bytes}
    (hc : ((start settings).after calls).Carries data) {t : Transmit}
    (ht : t ∈ (start settings).putOut calls) (hbody : t.EndsBody) :
    t = .raw (Body.encode data) := by
  obtain ⟨before, call, later, rfl, hmem⟩ := occurs_of_mem_putOut ht
  by_cases hgo : ((start settings).after before).dataCode? call = some 354
  · rw [(perform_goAhead (ownPayload_after settings before) hc.of_append hgo).1] at hmem
    exact List.mem_singleton.mp hmem
  · exact absurd hbody (perform_aside _ hgo t hmem)

/-- The size that is declared is the size that is sent, unless a size is declared for a message that
leaves its last line open. -/
theorem declaresTransmitted_iff (settings : Settings) (calls : List Call) (data : Bytes)
    (hc : ((start settings).after calls).Carries data) :
    DeclaresTransmitted settings calls data ↔
      (DeclaresSize settings calls → Bytes.crlf <:+ data) := by
  have hown {before : List Call} {call : Call} {later : List Call} {e : Envelope}
      {size : Option Nat} (heq : calls = before ++ call :: later)
      (hmail : ((start settings).after before).PutsOutMail call e size) :
      size = (if ((start settings).after (before ++ [call])).capabilities.supports .size then
          some data.length else none) ∧
        ∀ limit, ((start settings).after (before ++ [call])).capabilities.sizeLimit = some limit →
          data.length ≤ limit := by
    subst heq
    obtain ⟨e', size', hmail', hdeclared⟩ :=
      exists_putsOutMail (tidy_after settings before) hmail.sent
    obtain rfl := hmail.size_unique hmail'
    have hcarries : ((start settings).after before).Carries data := hc.of_append
    have hpayload : e'.payload = .message data := hcarries e' hmail'.envelope_eq
    rw [hpayload] at hdeclared
    rw [after_snoc]
    exact declaredSize_message hdeclared
  constructor
  · rintro hall ⟨before, call, later, heq, e, n, hmail⟩
    have hcounted := hall.declared before call later e (some n) heq hmail
    have hlength := (hown heq hmail).1
    rw [← Body.countedOctets_encode_eq_iff]
    split at hlength
    · next hsize =>
      rw [if_pos hsize, hlength] at hcounted
      exact (Option.some.inj hcounted).symm
    · cases hlength
  · intro hended
    have hsame {before : List Call} {call : Call} {later : List Call} {e : Envelope}
        {size : Option Nat} (heq : calls = before ++ call :: later)
        (hmail : ((start settings).after before).PutsOutMail call e size)
        (hsize : ((start settings).after (before ++ [call])).capabilities.supports .size = true) :
        Body.countedOctets (Body.encode data) = data.length := by
      have hlength := (hown heq hmail).1
      rw [if_pos hsize] at hlength
      rw [hlength] at hmail
      exact (Body.countedOctets_encode_eq_iff data).mpr
        (hended ⟨before, call, later, heq, e, data.length, hmail⟩)
    refine ⟨fun before call later e size heq hmail => ?_,
      fun before call later e size limit heq hmail hlimit => ?_,
      fun t ht hbody => eq_body_of_endsBody hc ht hbody⟩
    · rw [(hown heq hmail).1]
      split
      · next hsize => rw [hsame heq hmail hsize]
      · rfl
    · have hsize := limitAnnounced_after settings (before ++ [call]) (by rw [hlimit]; simp)
      rw [hsame heq hmail hsize]
      exact (hown heq hmail).2 limit hlimit

def fittingMessage : List Call :=
  conversation .greeting ["220 mx ESMTP", "250-mx", "250 SIZE 4", "250 ok", "250 ok", "354 go"]

theorem declaresTransmitted_of_endedLine :
    ((start .plain).after fittingMessage).Carries (Utf8.encode "hi\r\n") ∧
      .raw (Body.encode (Utf8.encode "hi\r\n")) ∈ (start .plain).putOut fittingMessage ∧
      DeclaresTransmitted .plain fittingMessage (Utf8.encode "hi\r\n") := by
  have hc : ((start .plain).after fittingMessage).Carries (Utf8.encode "hi\r\n") := by
    decide +kernel
  exact ⟨hc, by decide +kernel,
    (declaresTransmitted_iff _ _ _ hc).mpr fun _ => by decide +kernel⟩

def openLine : Envelope := { Envelope.greeting with payload := .message (Utf8.encode "hi") }

/-- It is counted with four octets, and goes out to a server that takes no more than three. -/
theorem not_declaresTransmitted_of_openLine :
    ¬DeclaresTransmitted .plain
      (conversation openLine ["220 mx ESMTP", "250-mx", "250 SIZE 3"]) (Utf8.encode "hi") := by
  intro hall
  have hmail : ((start .plain).after (conversation openLine ["220 mx ESMTP", "250-mx"])).PutsOutMail
      (.line (Utf8.encode "250 SIZE 3")) openLine (some 2) :=
    ⟨by decide +kernel, by decide +kernel, [], [2], by decide +kernel⟩
  have hroom := hall.within (conversation openLine ["220 mx ESMTP", "250-mx"])
    (.line (Utf8.encode "250 SIZE 3")) [] openLine (some 2) 3 rfl hmail (by decide +kernel)
  revert hroom
  decide +kernel

end Dialogue

end SmtpClient
