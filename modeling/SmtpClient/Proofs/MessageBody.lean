import SmtpClient.Proofs.Progress

namespace SmtpClient.Dialogue

def OwnPayload (d : Dialogue) : Prop :=
  ∀ verb ∈ d.pipeline.verbs, verb.isPayload = true →
    ∃ e, d.envelope = some e ∧ e.payload.command.verb = verb

theorem Bodiless.ownPayload {d : Dialogue} {r : Outcome} (h : d.Bodiless r) (hd : d.OwnPayload) :
    r.1.OwnPayload := by
  intro verb hmem hverb
  rw [h.envelope_eq]
  rcases h.verbs_of verb hmem hverb with hmem' | hown
  · exact hd verb hmem' hverb
  · exact hown

theorem bodiless_succeed (d : Dialogue) :
    Bodiless { d with succeeded := true } (d.succeed.1, []) := bodiless_send_other _ rfl

theorem OwnPayload.succeed {d : Dialogue} (h : d.OwnPayload) : d.succeed.1.OwnPayload := by
  have hmark : OwnPayload { d with succeeded := true } := h
  exact d.bodiless_succeed.ownPayload hmark

theorem withholds_succeed (d : Dialogue) : d.Withholds d.succeed.1 := d.bodiless_succeed.withholds

theorem OwnPayload.sendBody {d : Dialogue} (h : d.OwnPayload) : d.sendBody.1.OwnPayload := by
  unfold Dialogue.sendBody
  split
  · exact h
  · exact (d.bodiless_fail _ _).ownPayload h

theorem Exchange.ownPayload {d : Dialogue} {line : Bytes} {r : Outcome} (h : d.Exchange line r)
    (hd : d.OwnPayload) : r.1.OwnPayload := by
  cases h with
  | aside _ _ h => exact h.ownPayload hd
  | goAhead _ h =>
    subst h
    exact OwnPayload.sendBody (d := { d with replyTexts := [] }) hd
  | taken _ s hs h =>
    subst h
    exact (hs.ownPayload hd).succeed
  | reference _ _ s hs h =>
    subst h
    exact (hs.ownPayload hd).succeed

/-- In every call, a command to take a message is sent only as the one of the envelope. -/
theorem ownPayload_perform {d : Dialogue} (h : d.OwnPayload) (call : Call) :
    (d.perform call).1.OwnPayload := by
  cases d.effect call with
  | submit e =>
    rcases d.perform_submit e with ⟨heq, -⟩ | ⟨hnone, -, requested, asked, heq, -⟩
    · rwa [heq]
    · rw [heq]
      intro verb hmem hverb
      obtain ⟨e', he', -⟩ := h verb hmem hverb
      simp [hnone] at he'
  | line line hline => exact hline.ownPayload h
  | poll => exact h
  | aside _ _ haside => exact haside.ownPayload h

/-- In every run, what is on its way to take a message is the command of the envelope. -/
theorem ownPayload_after (settings : Settings) (calls : List Call) :
    ((start settings).after calls).OwnPayload := by
  induction calls using List.reverseRecOn with
  | nil =>
    intro verb hmem
    simp [start, Pipeline.empty, Pipeline.verbs] at hmem
  | append_singleton calls call ih =>
    rw [after_snoc]
    exact ownPayload_perform ih call

def Carries (d : Dialogue) (data : Bytes) : Prop :=
  ∀ e ∈ d.envelope, e.payload = .message data

instance (d : Dialogue) (data : Bytes) : Decidable (d.Carries data) :=
  inferInstanceAs (Decidable (∀ e ∈ d.envelope, e.payload = .message data))

/-- A message that an envelope carries after a call is the one it carried before. -/
theorem Carries.of_perform {d : Dialogue} {call : Call} {data : Bytes}
    (h : (d.perform call).1.Carries data) : d.Carries data :=
  fun e he => h e (d.envelope_perform call e he)

/-- What is on its way to take the message of an envelope. -/
theorem OwnPayload.of_awaited {d : Dialogue} (h : d.OwnPayload) {data : Bytes}
    (hc : d.Carries data) {verb : Verb} (hw : d.awaited = some (.answer verb))
    (hverb : verb.isPayload = true) :
    verb = .data ∧ d.envelope.map Envelope.payload = some (.message data) := by
  have hmem : verb ∈ d.pipeline.verbs := mem_verbs_of_awaited hw
  obtain ⟨e, he, hown⟩ := h verb hmem hverb
  have hp := hc e he
  rw [hp] at hown
  exact ⟨hown.symm, by rw [he, Option.map_some, hp]⟩

/-- A code for DATA comes with a line that completes the reply to it. -/
theorem dataCode?_eq_some {d : Dialogue} {call : Call} {code : Code}
    (h : d.dataCode? call = some code) :
    ∃ line reply, call = .line line ∧ d.Completes line .data reply ∧ reply.code = code := by
  cases call with
  | line line =>
    simp only [dataCode?] at h
    split at h
    · cases h
    · next hready =>
      simp only [ne_eq, decide_not, Bool.or_eq_true, Bool.not_eq_true', decide_eq_false_iff_not,
        not_or, Bool.not_eq_true, Decidable.not_not] at hready
      split at h
      · next reply hparse =>
        split at h
        · cases h
        · next hc =>
          exact ⟨line, reply, rfl, ⟨hready.1, hready.2, hparse, by simpa using hc⟩,
            Option.some.inj h⟩
      · cases h
  | _ => cases h

theorem Completes.dataCode?_eq {d : Dialogue} {line : Bytes} {reply : Reply}
    (h : d.Completes line .data reply) : d.dataCode? (.line line) = some reply.code := by
  simp [dataCode?, h.unfinished, h.awaited_eq, h.parse_eq, h.last]

/-- A complete 354 to DATA puts out the body, and nothing else, and reports its bytes. -/
theorem perform_goAhead {d : Dialogue} (hd : d.OwnPayload) {data : Bytes} (hc : d.Carries data)
    {call : Call} (h : d.dataCode? call = some 354) :
    d.outputOf call = [.raw (Body.encode data)] ∧ d.eventsOf call = [.progress data.length] := by
  obtain ⟨line, reply, rfl, hline, -⟩ := dataCode?_eq_some h
  have hp := (hd.of_awaited hc hline.awaited_eq rfl).2
  have htake : d.takeLine line =
      ({ d with replyTexts := [], outbound := d.outbound ++ [.raw (Body.encode data)] },
        [.progress data.length]) := by
    cases d.exchange_takeLine line with
    | aside hgo => exact absurd h hgo
    | goAhead _ heq =>
      rw [heq, sendBody]
      simp only [hp]
      rfl
    | taken htaken => simp [h] at htaken
    | reference hnone => simp [h] at hnone
  exact ⟨outputOf_eq (congrArg (·.1.outbound) htake), congrArg (·.2) htake⟩

/-- No other call puts out a body. -/
theorem perform_aside (d : Dialogue) {call : Call} (h : d.dataCode? call ≠ some 354) :
    ∀ t ∈ d.outputOf call, ¬t.EndsBody := by
  have hwithheld (hw : d.Withholds (d.perform call).1) : ∀ t ∈ d.outputOf call, ¬t.EndsBody := by
    obtain ⟨new, hnew, hbody⟩ := hw
    rwa [outputOf_eq hnew]
  cases d.effect call with
  | submit e =>
    rcases d.perform_submit e with ⟨heq, -⟩ | ⟨-, -, requested, asked, heq, -⟩
    · simp [outputOf, heq]
    · simp [outputOf, heq]
  | line line hline =>
    apply hwithheld
    rw [perform]
    cases hline with
    | aside _ _ hb => exact hb.withholds
    | goAhead hgo => exact absurd hgo h
    | taken _ s hs heq =>
      rw [heq]
      exact hs.withholds.trans s.withholds_succeed
    | reference _ _ s hs heq =>
      rw [heq]
      exact hs.withholds.trans s.withholds_succeed
  | poll => simp [outputOf_poll]
  | aside _ _ haside => exact hwithheld haside.withholds

/-- For a message, success is what a complete 250 to DATA reports. -/
theorem succeeded_mem_eventsOf_iff {d : Dialogue} (hd : d.OwnPayload) {data : Bytes}
    (hc : d.Carries data) (call : Call) :
    .succeeded ∈ d.eventsOf call ↔ d.dataCode? call = some 250 := by
  cases d.effect call with
  | submit e =>
    have hnone : d.dataCode? (.submit e) = none := rfl
    rw [eventsOf, hnone]
    rcases d.perform_submit e with ⟨-, hev⟩ | ⟨-, -, requested, asked, -, hev, hasked⟩
    · simp [hev]
    · rcases hasked with rfl | rfl <;> simp [hev]
  | line line hline =>
    have hev : d.eventsOf (.line line) = (d.takeLine line).2 := rfl
    cases hline with
    | aside _ htaken hb =>
      exact ⟨fun hmem => absurd hmem hb.not_succeeded, fun heq => absurd heq htaken⟩
    | goAhead hgo => rw [(perform_goAhead hd hc hgo).2, hgo]; simp
    | taken htaken s hs heq =>
      rw [hev, heq, htaken, succeed]
      split <;> simp
    | reference _ hw => cases (hd.of_awaited hc hw rfl).1
  | poll => simp [eventsOf, perform, dataCode?]
  | aside _ hnone haside =>
    rw [hnone]
    exact ⟨fun hmem => absurd hmem haside.not_succeeded, fun heq => by cases heq⟩

/-- A success is remembered. -/
theorem succeeded_of_mem_eventsOf {d : Dialogue} {call : Call} (h : .succeeded ∈ d.eventsOf call) :
    (d.perform call).1.succeeded = true := by
  cases d.effect call with
  | submit e =>
    rw [eventsOf] at h
    rcases d.perform_submit e with ⟨-, hev⟩ | ⟨-, -, requested, asked, -, hev, hasked⟩
    · simp [hev] at h
    · rcases hasked with rfl | rfl <;> simp [hev] at h
  | line line hline =>
    have hev : d.eventsOf (.line line) = (d.takeLine line).2 := rfl
    cases hline with
    | aside _ _ hb => exact absurd h hb.not_succeeded
    | goAhead _ heq =>
      rw [hev, heq, sendBody] at h
      split at h <;> simp at h
    | taken _ s hs heq =>
      rw [perform, heq]
      rfl
    | reference _ _ s hs heq =>
      rw [perform, heq]
      rfl
  | poll => cases h
  | aside _ _ haside => exact absurd h haside.not_succeeded

/-- A success that was reported is remembered to the end. -/
theorem succeeded_of_mem_events {d : Dialogue} {calls : List Call}
    (h : .succeeded ∈ d.events calls) : (d.after calls).succeeded = true := by
  induction calls using List.reverseRecOn with
  | nil => cases h
  | append_singleton calls call ih =>
    rw [events_snoc] at h
    rw [after_snoc]
    rcases List.mem_append.mp h with hbefore | hlast
    · exact succeeded_perform _ call (ih hbefore)
    · exact succeeded_of_mem_eventsOf hlast

/-- Every other reply to DATA ends the submission. -/
theorem perform_refused {d : Dialogue} {call : Call} {code : Code}
    (h : d.dataCode? call = some code) (hgo : code ≠ 354) (htaken : code ≠ 250) :
    ∃ error, d.eventsOf call = [.failed error] := by
  obtain ⟨line, reply, rfl, hline, rfl⟩ := dataCode?_eq_some h
  have hl := Decision.listed_of (.answer .data) reply.code
  rw [eventsOf, perform, hline.takeLine_eq]
  generalize Decision.of (.answer .data) reply.code = decision at hl
  cases hl with
  | sendBody hcode => exact absurd hcode hgo
  | quitAfterData hcode => exact absurd hcode htaken
  | fail _ refusal => exact ⟨_, by simp [reactTo, act, Answer.ofEvents]; rfl⟩

def goAheads (d : Dialogue) : List Call → Nat
  | [] => 0
  | call :: later =>
    (if d.dataCode? call = some 354 then 1 else 0) + (d.perform call).1.goAheads later

theorem goAheads_append (d : Dialogue) (before later : List Call) :
    d.goAheads (before ++ later) = d.goAheads before + (d.after before).goAheads later := by
  induction before generalizing d with
  | nil => simp [goAheads]
  | cons call before ih =>
    rw [List.cons_append, goAheads, goAheads, ih, Nat.add_assoc]
    rfl

theorem goAheads_snoc (d : Dialogue) (calls : List Call) (call : Call) :
    d.goAheads (calls ++ [call]) =
      d.goAheads calls + if (d.after calls).dataCode? call = some 354 then 1 else 0 :=
  d.goAheads_append calls [call]

/-- There was a go-ahead exactly if some call brought a complete 354 to DATA. -/
theorem goAheads_pos_iff (d : Dialogue) (calls : List Call) :
    0 < d.goAheads calls ↔
      Occurs calls fun before call => (d.after before).dataCode? call = some 354 := by
  induction calls using List.reverseRecOn with
  | nil => simp [goAheads, not_occurs_nil]
  | append_singleton calls call ih =>
    rw [goAheads_snoc, occurs_snoc_iff, ← ih]
    split
    · next hgo => simp [hgo]
    · next hgo => simp [hgo]

theorem Carries.of_append {d : Dialogue} {before later : List Call} {data : Bytes}
    (h : (d.after (before ++ later)).Carries data) : (d.after before).Carries data := by
  induction later using List.reverseRecOn with
  | nil => rwa [List.append_nil] at h
  | append_singleton later call ih =>
    rw [← List.append_assoc, after_snoc] at h
    exact ih h.of_perform

/-- In every run the body is put out as often as the server asks for it. -/
theorem count_body_putOut (settings : Settings) (calls : List Call) {data : Bytes}
    (hc : ((start settings).after calls).Carries data) :
    ((start settings).putOut calls).count (.raw (Body.encode data)) =
      (start settings).goAheads calls := by
  induction calls using List.reverseRecOn with
  | nil => rfl
  | append_singleton calls call ih =>
    have hc' := hc.of_append
    have hd := ownPayload_after settings calls
    rw [putOut_snoc, List.count_append, ih hc', goAheads_snoc]
    congr 1
    split
    · next hgo => simp [(perform_goAhead hd hc' hgo).1]
    · next hgo =>
      rw [List.count_eq_zero]
      exact fun hmem => perform_aside _ hgo _ hmem (Body.encode_endsBody data)

def SendsBeforeSuccess (settings : Settings) (calls : List Call) (data : Bytes) : Prop :=
  ∀ before call later, calls = before ++ call :: later →
    .succeeded ∈ ((start settings).after before).eventsOf call →
    Occurs before fun earlier asked =>
      ((start settings).after earlier).dataCode? asked = some 354 ∧
      ((start settings).after earlier).outputOf asked = [.raw (Body.encode data)] ∧
      ((start settings).after earlier).eventsOf asked = [.progress data.length]

def TakenUnasked (settings : Settings) (calls : List Call) : Prop :=
  Occurs calls fun before call =>
    ((start settings).after before).dataCode? call = some 250 ∧
      (start settings).goAheads before = 0

instance (settings : Settings) (calls : List Call) : Decidable (TakenUnasked settings calls) :=
  inferInstanceAs (Decidable (Occurs calls _))

/-- A success is always one of a message that was sent exactly if the server never takes a message
for which it has not asked. -/
theorem sendsBeforeSuccess_iff (settings : Settings) (calls : List Call) (data : Bytes)
    (hc : ((start settings).after calls).Carries data) :
    SendsBeforeSuccess settings calls data ↔ ¬TakenUnasked settings calls := by
  constructor
  · rintro hsends ⟨before, call, later, rfl, htaken, hnone⟩
    have hsucceeded := (succeeded_mem_eventsOf_iff (ownPayload_after settings before)
      hc.of_append call).mpr htaken
    obtain ⟨earlier, asked, rest, rfl, hasked, -⟩ := hsends before call later rfl hsucceeded
    have hpos := ((start settings).goAheads_pos_iff _).mpr ⟨earlier, asked, rest, rfl, hasked⟩
    omega
  · rintro hasked before call later rfl hsucceeded
    have htaken := (succeeded_mem_eventsOf_iff (ownPayload_after settings before)
      hc.of_append call).mp hsucceeded
    have hpos : 0 < (start settings).goAheads before :=
      Nat.pos_of_ne_zero fun hnone => hasked ⟨before, call, later, rfl, htaken, hnone⟩
    obtain ⟨earlier, asked, rest, rfl, hgo⟩ := ((start settings).goAheads_pos_iff _).mp hpos
    have hcarries : ((start settings).after earlier).Carries data := hc.of_append.of_append
    exact ⟨earlier, asked, rest, rfl, hgo,
      perform_goAhead (ownPayload_after settings earlier) hcarries hgo⟩

/-- A server that asks for the message and takes it has got it before. -/
theorem sendsBeforeSuccess_of_asked :
    ((start .plain).after (conversation .greeting repliesToBody)).Carries
        (Utf8.encode "hi\r\n") ∧
      SendsBeforeSuccess .plain (conversation .greeting repliesToBody) (Utf8.encode "hi\r\n") := by
  have hc : ((start .plain).after (conversation .greeting repliesToBody)).Carries
      (Utf8.encode "hi\r\n") := by decide +kernel
  exact ⟨hc, (sendsBeforeSuccess_iff _ _ _ hc).mpr (by decide +kernel)⟩

/-- A server that answers DATA with 250 at once. -/
theorem not_sendsBeforeSuccess_of_unasked :
    ¬SendsBeforeSuccess .plain (conversation .greeting (repliesToRecipient ++ ["250 queued"]))
      (Utf8.encode "hi\r\n") := by
  intro hsends
  have hsent := hsends (conversation .greeting repliesToRecipient)
    (.line (Utf8.encode "250 queued")) [] rfl (by decide +kernel)
  revert hsent
  decide +kernel

/-- The body goes out at most once, and once it has gone out an intermediate reply to DATA ends the
submission. -/
structure SendsOnce (settings : Settings) (calls : List Call) (data : Bytes) : Prop where
  once : ((start settings).putOut calls).count (.raw (Body.encode data)) ≤ 1
  refused : ∀ before call later code, calls = before ++ call :: later →
    .raw (Body.encode data) ∈ (start settings).putOut before →
    ((start settings).after before).dataCode? call = some code → code.isIntermediate = true →
    ∃ error, ((start settings).after before).eventsOf call = [.failed error]

/-- The body goes out only once exactly if the server asks for it only once. -/
theorem sendsOnce_iff (settings : Settings) (calls : List Call) (data : Bytes)
    (hc : ((start settings).after calls).Carries data) :
    SendsOnce settings calls data ↔ (start settings).goAheads calls ≤ 1 := by
  rw [← count_body_putOut settings calls hc]
  refine ⟨fun h => h.once, fun honce => ⟨honce, ?_⟩⟩
  rintro before call later code rfl hsent hcode hintermediate
  have hbefore : 0 < (start settings).goAheads before := by
    rw [← count_body_putOut settings before hc.of_append]
    exact List.count_pos_iff.mpr hsent
  -- a second 354 would make two go-aheads, and 250 is not intermediate
  refine perform_refused hcode ?_ ?_
  · rintro rfl
    rw [count_body_putOut settings _ hc, goAheads_append, goAheads, if_pos hcode] at honce
    omega
  · rintro rfl
    cases hintermediate

/-- A server that asks once gets the body once. -/
theorem sendsOnce_of_asked :
    ((start .plain).after (conversation .greeting repliesToBody)).Carries
        (Utf8.encode "hi\r\n") ∧
      SendsOnce .plain (conversation .greeting repliesToBody) (Utf8.encode "hi\r\n") := by
  have hc : ((start .plain).after (conversation .greeting repliesToBody)).Carries
      (Utf8.encode "hi\r\n") := by decide +kernel
  exact ⟨hc, (sendsOnce_iff _ _ _ hc).mpr (by decide +kernel)⟩

/-- A server that asks for the body again. -/
theorem not_sendsOnce_of_asked_again :
    ¬SendsOnce .plain (conversation .greeting (repliesToRecipient ++ ["354 go", "354 go on"]))
      (Utf8.encode "hi\r\n") := by
  intro hsends
  have honce := hsends.once
  revert honce
  decide +kernel

end SmtpClient.Dialogue
