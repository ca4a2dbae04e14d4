import SmtpClient.Proofs.Ledger

namespace SmtpClient.Dialogue

theorem isInFlight_of_mem {d : Dialogue} {f : InFlight} (hf : f ∈ d.pipeline.inFlight)
    (hdata : f.verb = .data) : d.pipeline.isInFlight .data = true :=
  List.any_eq_true.mpr ⟨f, hf, decide_eq_true hdata⟩

/-- A failure while DATA is in flight puts out nothing. -/
theorem outbound_fail_of_data {d : Dialogue} {f : InFlight} (hf : f ∈ d.pipeline.inFlight)
    (hdata : f.verb = .data) (error : Error) (mayQuit : Bool) :
    (d.fail error mayQuit).1.outbound = d.outbound := by
  have hin := isInFlight_of_mem hf hdata
  rw [fail_eq]
  simp [farewell, hin]

structure Sending (d : Dialogue) (data : Bytes) (e : Envelope) (c : Command)
    (rest : List Command) : Prop where
  envelope_eq : d.envelope = some e
  payload_eq : e.payload = .message data
  leads : e.Leads c rest
  flow : d.Flow e c rest

/-- DATA is in flight only in a transaction. -/
theorem Standing.of_data {d : Dialogue} {due : Nat} (h : d.Standing due) (hown : d.OwnPayload)
    (hopen : d.phase ≠ .closed) {f : InFlight} (hf : f ∈ d.pipeline.inFlight)
    (hdata : f.verb = .data) : due = 0 ∧ ∃ data e c rest, d.Sending data e c rest := by
  have hin := isInFlight_of_mem hf hdata
  cases h with
  | sending e c rest he hs hl hflow =>
    have hverb : Verb.data ∈ d.pipeline.verbs := by
      rw [← hdata]
      exact List.mem_append_right _ (List.mem_map_of_mem hf)
    obtain ⟨e', he', hown'⟩ := hown .data hverb rfl
    cases he.symm.trans he'
    rcases e.payload.verb_command with ⟨data, hp, -⟩ | ⟨target, -, hburl⟩
    · exact ⟨rfl, data, e, c, rest, he, hp, hl, hflow⟩
    · rw [hburl] at hown'
      cases hown'
  | opening verb hv hd =>
    rw [hd.isInFlight_eq] at hin
    obtain rfl : Verb.data = verb := by simpa using hin
    cases hv
  | leaving hd => simp [hd.isInFlight_eq] at hin
  | closed _ hclosed => exact absurd hclosed hopen
  | idle hd | greeting hd | parked hd | handshake hd => simp [hd.isInFlight_eq] at hin

theorem Sending.carries {d : Dialogue} {data : Bytes} {e : Envelope} {c : Command}
    {rest : List Command} (h : d.Sending data e c rest) : d.Carries data := by
  intro e' he'
  cases h.envelope_eq.symm.trans he'
  exact h.payload_eq

/-- A line that does not answer DATA for good puts out nothing, unless it asks for the body. -/
theorem Sending.takeLine {d : Dialogue} {data : Bytes} {e : Envelope} {c : Command}
    {rest : List Command} (h : d.Sending data e c rest) {f : InFlight}
    (hf : f ∈ d.pipeline.inFlight) (hdata : f.verb = .data) {line : Bytes}
    (hleft : f ∈ (d.answered (.line line)).inFlight)
    (hgo : d.dataCode? (.line line) ≠ some 354) :
    (d.takeLine line).1.outbound = d.outbound := by
  have hread := d.takeLine_reading line
  generalize d.takeLine line = r at hread ⊢
  cases hread with
  | closed => rfl
  | malformed error => exact outbound_fail_of_data hf hdata _ _
  | unasked reply => exact outbound_fail_of_data hf hdata _ _
  | held reply awaited =>
    unfold holdLine
    split <;> rfl
  | completed reply awaited hopen hparse hawaited hc =>
    rw [h.flow.awaited_eq] at hawaited
    cases hawaited
    have hline : d.Completes line c.verb reply := ⟨hopen, h.flow.awaited_eq, hparse, hc⟩
    have hpipeline := hline.pipeline_settle
    have hlisted := Decision.listed_of (.answer c.verb) reply.code
    generalize Decision.of (.answer c.verb) reply.code = decision at hlisted
    cases h.leads.transactionReply rfl hlisted with
    | accepted move hm hne =>
      have hbatched : d.batched = true := by
        cases h.flow with
        | batch _ hb => exact hb
        | oneByOne hd =>
          have hverb : Verb.data ∈ d.pipeline.inFlight.map (·.verb) :=
            hdata ▸ List.mem_map_of_mem hf
          rw [hd.inFlight_eq, List.mem_singleton] at hverb
          exact absurd (h.leads.last (by rw [← hverb]; rfl)).1 hne
      rcases hm with rfl | rfl <;> simp [reactTo, act, advance, hbatched]
    | goAhead hv hrest hcode =>
      rw [hv] at hlisted hline
      cases hlisted with
      | sendBody h354 => exact absurd (hline.dataCode?_eq.trans (congrArg some h354)) hgo
    | taken hrest hcode =>
      subst hrest
      have hnone := List.map_eq_nil_iff.mp (h.flow.settle_last reply.code hcode).inFlight_eq
      rw [hpipeline] at hnone
      rw [hnone] at hleft
      cases hleft
    | refused refusal =>
      have hsettled : (d.reactTo (.answer c.verb) reply (d.replyText reply)
          (.fail refusal)).1.outbound =
            (settle { d with replyTexts := [] } (.answer c.verb) reply.code).outbound := by
        rw [reactTo, act]
        split
        · rfl
        · exact outbound_fail_of_data (by rw [hpipeline]; exact hleft) hdata _ _
      rw [hsettled, settle_outbound]

/-- A command that the call does not answer for good stays in flight. -/
theorem mem_inFlight_answered {d : Dialogue} {f : InFlight} (hf : f ∈ d.pipeline.inFlight)
    {call : Call} (hopen : ∀ code, d.answer? call ≠ some (f, code)) :
    f ∈ (d.answered call).inFlight := by
  rw [← d.answer?_inFlight call] at hf
  rcases List.mem_append.mp hf with hgone | hleft
  · obtain ⟨a, ha, rfl⟩ := List.mem_map.mp hgone
    exact absurd (Option.mem_toList.mp ha) (hopen a.2)
  · exact hleft

/-- A call that does not answer DATA for good puts out nothing, unless it asks for the body. -/
theorem Sending.outputOf_eq_nil {d : Dialogue} {data : Bytes} {e : Envelope} {c : Command}
    {rest : List Command} (h : d.Sending data e c rest) {f : InFlight}
    (hf : f ∈ d.pipeline.inFlight) (hdata : f.verb = .data) {call : Call}
    (hopen : ∀ code, d.answer? call ≠ some (f, code)) (hcall : call ≠ .encrypted)
    (hgo : d.dataCode? call ≠ some 354) : d.outputOf call = [] := by
  have hsame (hout : (d.perform call).1.outbound = d.outbound) : d.outputOf call = [] :=
    outputOf_eq (hout.trans (List.append_nil _).symm)
  obtain ⟨phase, verbs, -, hd, -⟩ := h.flow.expects
  cases call with
  | submit e' =>
    rcases d.perform_submit e' with ⟨heq, -⟩ | ⟨-, -, requested, asked, heq, -⟩
    · exact hsame (by rw [heq])
    · exact hsame (by rw [heq])
  | connected =>
    apply hsame
    rw [perform, connect]
    split <;> rfl
  | line line => exact hsame (h.takeLine hf hdata (mem_inFlight_answered hf hopen) hgo)
  | password text =>
    apply hsame
    simp [perform, givePassword, hd.parked_eq]
  | encrypted => exact absurd rfl hcall
  | cancel =>
    apply hsame
    rw [perform, cancel]
    split
    · rfl
    · exact outbound_fail_of_data hf hdata .cancelled false
  | lost error =>
    apply hsame
    rw [perform, disconnect]
    split
    · rfl
    · split
      · rfl
      · exact outbound_fail_of_data hf hdata error false
  | poll => exact d.outputOf_poll

/-- When DATA is answered it is alone in flight, so a 354 to DATA is one to that DATA. -/
theorem Sending.reply?_of_goAhead {d : Dialogue} {data : Bytes} {e : Envelope} {c : Command}
    {rest : List Command} (h : d.Sending data e c rest) {f : InFlight}
    (hf : f ∈ d.pipeline.inFlight) {call : Call} (hgo : d.dataCode? call = some 354) :
    d.reply? call = some (f, 354) := by
  obtain ⟨line, reply, rfl, hline, hcode⟩ := dataCode?_eq_some hgo
  obtain ⟨g, hg, -, hreply⟩ := hline.reply?_eq
  have hc : c.verb = .data := by
    have hsame := h.flow.awaited_eq.symm.trans hline.awaited_eq
    simpa using hsame
  obtain ⟨rfl, -⟩ := h.leads.last (by rw [hc]; rfl)
  obtain ⟨only, honly, -⟩ := List.map_eq_singleton_iff.mp h.flow.verbs_of_last
  rw [honly, List.mem_singleton] at hf
  rw [Pipeline.awaiting, honly, List.head?_cons, Option.some.injEq] at hg
  rw [hreply, hcode, hf, hg]

structure AwaitsData (settings : Settings) (calls : List Call) (f : InFlight) : Prop where
  verb_eq : f.verb = .data
  sent : f ∈ (start settings).allSent calls
  unanswered : f ∉ ((start settings).answers calls).map Prod.fst

/-- From DATA to its last answer nothing is put out but the body, and the body only in answer to a
354 to that DATA. DATA itself is the last of what goes out with it. -/
structure KeepsSilence (settings : Settings) (calls : List Call) : Prop where
  last : ∀ before call later f, calls = before ++ call :: later →
    f ∈ ((start settings).after before).sentBy call → f.verb = .data →
    ∃ earlier, ((start settings).after before).outputOf call =
      [Pipeline.batchOf (earlier ++ [(f.tag, .data)])]
  silent : ∀ before call later f, calls = before ++ call :: later →
    AwaitsData settings before f →
    (∀ code, ((start settings).after before).answer? call ≠ some (f, code)) →
    ((start settings).after before).outputOf call = [] ∨
    ∃ data, ((start settings).after before).reply? call = some (f, 354) ∧
      ((start settings).after before).envelope.map Envelope.payload = some (.message data) ∧
      ((start settings).after before).outputOf call = [.raw (Body.encode data)]

/-- While DATA is awaited, a call that does not answer it for good puts out nothing but the body. -/
theorem EncryptsWhenDue.silent {settings : Settings} {calls : List Call} {call : Call}
    (h : EncryptsWhenDue settings (calls ++ [call])) {f : InFlight}
    (hf : AwaitsData settings calls f)
    (hopen : ∀ code, ((start settings).after calls).answer? call ≠ some (f, code)) :
    ((start settings).after calls).outputOf call = [] ∨
    ∃ data, ((start settings).after calls).reply? call = some (f, 354) ∧
      ((start settings).after calls).envelope.map Envelope.payload = some (.message data) ∧
      ((start settings).after calls).outputOf call = [.raw (Body.encode data)] := by
  by_cases hclosed : ((start settings).after calls).phase = .closed
  · exact Or.inl (perform_of_closed hclosed call).2.2.2
  · have hin : f ∈ ((start settings).after calls).pipeline.inFlight := by
      have hall := hf.sent
      rw [← (answers_sent settings calls).2 hclosed] at hall
      exact (List.mem_append.mp hall).resolve_left hf.unanswered
    have hown := ownPayload_after settings calls
    obtain ⟨hdue, data, e, c, rest, hs⟩ :=
      h.of_append.standing.2.of_data hown hclosed hin hf.verb_eq
    have hcall : call ≠ .encrypted := by
      intro hcall
      have hlt := h.due_of_snoc hcall
      omega
    by_cases hgo : ((start settings).after calls).dataCode? call = some 354
    · have hpayload : ((start settings).after calls).envelope.map Envelope.payload =
          some (.message data) := by
        rw [hs.envelope_eq, Option.map_some, hs.payload_eq]
      exact Or.inr ⟨data, hs.reply?_of_goAhead hin hgo, hpayload,
        (perform_goAhead hown hs.carries hgo).1⟩
    · exact Or.inl (hs.outputOf_eq_nil hin hf.verb_eq hopen hcall hgo)

/-- DATA is the last of the commands that go out with it. -/
theorem EncryptsWhenDue.data_last {settings : Settings} {calls : List Call} {call : Call}
    (h : EncryptsWhenDue settings (calls ++ [call])) {f : InFlight}
    (hf : f ∈ ((start settings).after calls).sentBy call) (hdata : f.verb = .data) :
    ∃ earlier, ((start settings).after calls).outputOf call =
      [Pipeline.batchOf (earlier ++ [(f.tag, .data)])] := by
  obtain ⟨said, hledger⟩ := h.of_append.ledger
  have hdue (hcall : call = .encrypted) := Nat.sub_pos_of_lt (h.due_of_snoc hcall)
  obtain ⟨new, hputs⟩ :=
    hledger.told.puts h.of_append.standing.2 (tidy_after settings calls) call hdue
  rw [hputs.sent_eq] at hf
  have hne : new ≠ [] := by
    rintro rfl
    cases hf
  obtain ⟨front, c, rfl, hfront⟩ := hputs.ends hne
  rw [Pipeline.numbered_append, List.map_append] at hf
  rcases List.mem_append.mp hf with hearlier | hlast
  · have hverb : Verb.data ∈ front.map Command.verb := by
      rw [← Pipeline.map_verb_sent said.length front, ← hdata]
      exact List.mem_map_of_mem hearlier
    obtain ⟨c', hc', hverb'⟩ := List.mem_map.mp hverb
    have hparty := hfront c' hc'
    rw [hverb'] at hparty
    cases hparty
  · rw [hputs.output_eq hne, Pipeline.numbered_append]
    obtain rfl : f = ⟨said.length + front.length + 1, c.verb⟩ := List.mem_singleton.mp hlast
    obtain rfl : c = .data := by
      cases c with
      | data => rfl
      | _ => cases hdata
    exact ⟨_, rfl⟩

/-- In every run DATA, once it has been put out, is followed by nothing but the body until it has
been answered for good. -/
theorem keepsSilence_run (settings : Settings) (calls : List Call)
    (h : EncryptsWhenDue settings calls) : KeepsSilence settings calls := by
  refine ⟨?_, ?_⟩
  · rintro before call later f rfl hf hdata
    rw [List.append_cons] at h
    exact h.of_append.data_last hf hdata
  · rintro before call later f rfl hf hopen
    rw [List.append_cons] at h
    exact h.of_append.silent hf hopen

def refusedInBatch : List Call :=
  conversation (.toBoth (.message (Utf8.encode "hi\r\n")))
    (repliesToBatch ++ ["550 no such user", "354 go"])

/-- The last recipient is refused, and the server asks for the message all the same: it gets
nothing. -/
theorem keepsSilence_of_refused :
    EncryptsWhenDue .plain refusedInBatch ∧ AwaitsData .plain refusedInBatch ⟨5, .data⟩ ∧
      KeepsSilence .plain refusedInBatch := by
  have hdue : EncryptsWhenDue .plain refusedInBatch := .of_notMem _ (by decide +kernel)
  exact ⟨hdue, ⟨rfl, by decide +kernel, by decide +kernel⟩, keepsSilence_run _ _ hdue⟩

end SmtpClient.Dialogue
