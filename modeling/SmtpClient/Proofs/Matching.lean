import SmtpClient.Proofs.Ledger

namespace SmtpClient

def Call.lastLine? : Call → Option Reply
  | line bytes =>
    match Reply.parse bytes with
    | .ok reply => if reply.continues then none else some reply
    | .error _ => none
  | _ => none

def completeReplies (calls : List Call) : List Reply := calls.filterMap Call.lastLine?

def finalReplies (calls : List Call) : List Reply :=
  ((completeReplies calls).drop 1).filter (!·.code.isIntermediate)

theorem completeReplies_snoc (calls : List Call) (call : Call) :
    completeReplies (calls ++ [call]) = completeReplies calls ++ call.lastLine?.toList := by
  rw [completeReplies, List.filterMap_append]
  cases h : call.lastLine? <;> simp [completeReplies, h]

/-- The first complete reply is the greeting, and it answers no command. -/
theorem finalReplies_of_nil {calls : List Call} (h : completeReplies calls = []) (call : Call) :
    finalReplies (calls ++ [call]) = [] := by
  rw [finalReplies, completeReplies_snoc, h]
  cases call.lastLine? <;> rfl

theorem completeReplies_of_none {call : Call} (h : call.lastLine? = none) (calls : List Call) :
    completeReplies (calls ++ [call]) = completeReplies calls := by
  rw [completeReplies_snoc, h]
  exact List.append_nil _

theorem finalReplies_of_none {call : Call} (h : call.lastLine? = none) (calls : List Call) :
    finalReplies (calls ++ [call]) = finalReplies calls := by
  rw [finalReplies, completeReplies_of_none h, finalReplies]

/-- After the greeting, a reply that is not intermediate counts as final. -/
theorem finalReplies_snoc {calls : List Call} (h : completeReplies calls ≠ []) (call : Call) :
    finalReplies (calls ++ [call]) =
      finalReplies calls ++ call.lastLine?.toList.filter (!·.code.isIntermediate) := by
  rw [finalReplies, completeReplies_snoc, finalReplies, ← List.filter_append,
    List.drop_append_of_le_length (Nat.one_le_iff_ne_zero.mpr (by simpa using h))]

theorem Pipeline.getElem?_verb_sent (issued : Nat) (cs : List Command) (i : Nat) :
    ((numbered issued cs).map sent)[i]?.map (·.verb) = cs[i]?.map Command.verb := by
  rw [← List.getElem?_map, map_verb_sent, List.getElem?_map]

namespace Dialogue

inductive Hears (d : Dialogue) (call : Call) : Prop
  | nothing (hl : call.lastLine? = none) (ha : d.answer? call = none)
    (hp : (d.perform call).1.phase = d.phase) (hc : call = .connected → d.phase ≠ .disconnected)
  | connects (hcall : call = .connected) (hbefore : d.phase = .disconnected)
    (hp : (d.perform call).1.phase = .connecting)
  | greeting (reply : Reply) (hl : call.lastLine? = some reply) (ha : d.answer? call = none)
    (hbefore : d.phase = .connecting) (hp : (d.perform call).1.phase.isOpen = true)
  | reply (f : InFlight) (reply : Reply) (hl : call.lastLine? = some reply)
    (ha : d.reply? call = some (f, reply.code)) (hbefore : d.phase.isOpen = true)
    (hp : (d.perform call).1.phase.isOpen = true)

/-- Once something has been said, commands are exchanged. -/
theorem Turn.isOpen_of_ne_nil {d : Dialogue} {said : List Command} (h : d.Turn said)
    (hopen : d.phase ≠ .closed) (hne : said ≠ []) : d.phase.isOpen = true := by
  cases h with
  | silent => exact absurd rfl hne
  | opening _ _ hd | parked _ _ hd | handshake hd | leaving _ _ _ _ _ _ _ hd =>
    rw [hd.phase_eq]
    rfl
  | sending _ _ _ _ _ _ _ _ _ _ _ _ hf =>
    obtain ⟨phase, verbs, hphase, hd, -⟩ := hf.expects
    rw [hd.phase_eq, hphase]
  | closed _ hclosed => exact absurd hclosed hopen

/-- Whatever is awaited, the mark of the greeting tells whether it is the greeting. -/
theorem Standing.expects {d : Dialogue} {due : Nat} (h : d.Standing due)
    (hopen : d.phase ≠ .closed) : ∃ phase parked verbs, d.Expects phase parked verbs := by
  cases h with
  | idle hd | greeting hd | opening _ _ hd | parked hd | handshake hd | leaving hd =>
    exact ⟨_, _, _, hd⟩
  | sending e c rest he hs hl hf =>
    obtain ⟨phase, verbs, -, hd, -⟩ := hf.expects
    exact ⟨phase, false, c.verb :: verbs, hd⟩
  | closed _ hclosed => exact absurd hclosed hopen

/-- In an open dialogue the greeting of the server is due exactly while it is connecting. -/
theorem Standing.greetingDue_eq {d : Dialogue} {due : Nat} (h : d.Standing due)
    (hopen : d.phase ≠ .closed) : d.greetingDue = decide (d.phase = .connecting) := by
  obtain ⟨phase, parked, verbs, hd⟩ := h.expects hopen
  rw [hd.greetingDue_eq, hd.phase_eq]

/-- While the greeting is awaited no command is in flight, and later the greeting is not awaited. -/
theorem Standing.phase_of_awaited {d : Dialogue} {due : Nat} (h : d.Standing due)
    (hopen : d.phase ≠ .closed) {awaited : Awaited} (hw : d.awaited = some awaited) :
    (awaited = .greeting ∧ d.phase = .connecting) ∨
    ((∃ verb, awaited = .answer verb) ∧ d.phase.isOpen = true) := by
  cases h with
  | idle hd => simp [hd.awaited_eq_none] at hw
  | greeting hd =>
    rw [hd.awaited_eq_greeting] at hw
    exact Or.inl ⟨(Option.some.inj hw).symm, hd.phase_eq⟩
  | opening verb hv hd =>
    rw [hd.awaited_eq_answer (by simp)] at hw
    exact Or.inr ⟨⟨verb, (Option.some.inj hw).symm⟩, by rw [hd.phase_eq]; rfl⟩
  | parked hd => simp [hd.awaited_eq_none] at hw
  | handshake hd => simp [hd.awaited_eq_none] at hw
  | sending e c rest he hs hl hf =>
    obtain ⟨phase, verbs, hphase, hd, -⟩ := hf.expects
    rw [hf.awaited_eq] at hw
    exact Or.inr ⟨⟨c.verb, (Option.some.inj hw).symm⟩, by rw [hd.phase_eq, hphase]⟩
  | leaving hd =>
    rw [hd.awaited_eq_answer (by simp)] at hw
    exact Or.inr ⟨⟨.quit, (Option.some.inj hw).symm⟩, by rw [hd.phase_eq]; rfl⟩
  | closed _ hclosed => exact absurd hclosed hopen

/-- A call that is no line leaves the phase as it is, or connects, or ends the dialogue. -/
theorem phase_perform_of_not_line (d : Dialogue) {call : Call} (hline : ∀ line, call ≠ .line line)
    (hopen : (d.perform call).1.phase ≠ .closed) :
    (d.perform call).1.phase = d.phase ∧ (call = .connected → d.phase ≠ .disconnected) ∨
      call = .connected ∧ d.phase = .disconnected ∧ (d.perform call).1.phase = .connecting := by
  cases call with
  | submit e =>
    refine Or.inl ⟨?_, by simp⟩
    rcases d.perform_submit e with ⟨heq, -⟩ | ⟨-, -, requested, asked, heq, -⟩ <;> rw [heq]
  | connected =>
    by_cases hphase : d.phase = .disconnected
    · exact Or.inr ⟨rfl, hphase, by simp [perform, connect, hphase]⟩
    · exact Or.inl ⟨by simp [perform, connect, hphase], fun _ => hphase⟩
  | line line => exact absurd rfl (hline line)
  | password text =>
    refine Or.inl ⟨?_, by simp⟩
    simp only [perform, givePassword]
    split <;> rfl
  | encrypted =>
    refine Or.inl ⟨?_, by simp⟩
    simp only [perform, encrypt]
    split <;> rfl
  | cancel => exact absurd d.phase_cancel hopen
  | lost error => exact absurd (d.phase_disconnect error) hopen
  | poll => exact Or.inl ⟨rfl, by simp⟩

/-- Nothing is in flight before anything has been said. -/
theorem Told.ne_nil_of_awaiting {d : Dialogue} {said : List Command} (h : d.Told said)
    (hopen : d.phase ≠ .closed) {f : InFlight} (hf : d.pipeline.awaiting = some f) :
    said ≠ [] := by
  rintro rfl
  have hnone : d.pipeline.inFlight.map (·.verb) = [] :=
    List.suffix_nil.mp (h.turn.inFlight_suffix hopen)
  rw [List.map_eq_nil_iff] at hnone
  simp [Pipeline.awaiting, hnone] at hf

/-- A line that leaves the dialogue open ends no reply, or is the greeting, or answers the awaited
command. -/
theorem Told.hears_line {d : Dialogue} {said : List Command} (h : d.Told said) {due : Nat}
    (hs : d.Standing due) (line : Bytes) (hopen : (d.takeLine line).1.phase ≠ .closed) :
    d.Hears (.line line) := by
  have hkept : (d.perform (.line line)).1 = (d.takeLine line).1 := rfl
  have hread := d.takeLine_reading line
  generalize htaken : d.takeLine line = r at hread hopen hkept
  cases hread with
  | closed hclosed => exact absurd (by simpa [isFinished] using hclosed) hopen
  | malformed error | unasked reply => exact absurd (d.fail_phase _ _) hopen
  | held reply awaited _ hparse _ hc =>
    refine .nothing (by simp [Call.lastLine?, hparse, hc]) ?_ ?_ (by simp)
    · rw [answer?, reply?_line_of_not_completes]
      · rfl
      · intro verb reply' hline
        obtain rfl : reply = reply' := by simpa using hparse.symm.trans hline.parse_eq
        simp [hline.last] at hc
    · rw [hkept, Dialogue.holdLine]
      split <;> rfl
  | completed reply awaited hunfinished hparse hw hc =>
    have hl : (Call.line line).lastLine? = some reply := by simp [Call.lastLine?, hparse, hc]
    have hbefore : d.phase ≠ .closed := (d.isFinished_eq_false_iff).mp hunfinished
    have hplace := hs.phase_of_awaited hbefore hw
    cases awaited with
    | greeting =>
      refine .greeting reply hl ?_ (by simpa using hplace) ?_
      · rw [answer?, reply?_line_of_not_completes]
        · rfl
        · intro verb reply' hline
          simpa using hw.symm.trans hline.awaited_eq
      · rw [hkept]
        have hlisted := Decision.listed_of .greeting reply.code
        generalize Decision.of .greeting reply.code = decision at hlisted hopen ⊢
        cases hlisted with
        | greet => rfl
        | fail _ refusal => exact absurd (phase_act_fail _ _ _ _ _) hopen
    | answer verb =>
      have hline : d.Completes line verb reply := ⟨hunfinished, hw, hparse, hc⟩
      obtain ⟨f, hf, -, hreply⟩ := hline.reply?_eq
      refine .reply f reply hl hreply (by simpa using hplace) ?_
      have hsaid := h.ne_nil_of_awaiting hbefore hf
      have hopen' : (d.perform (.line line)).1.phase ≠ .closed := by rwa [hkept]
      have hnext {said' : List Command} (htold : (d.perform (.line line)).1.Told said')
          (hne : said' ≠ []) := htold.turn.isOpen_of_ne_nil hopen' hne
      cases h.adds hs (.line line) (by simp) with
      | quiet htold | aside _ htold => exact hnext htold hsaid
      | command c htold => exact hnext htold (by simp)
      | transaction e size htold => exact hnext htold (by simp [hsaid])

/-- The same of any call, by what the call brings. -/
theorem Told.hears {d : Dialogue} {said : List Command} (h : d.Told said) {due : Nat}
    (hs : d.Standing due) (call : Call) (hopen : (d.perform call).1.phase ≠ .closed) :
    d.Hears call := by
  by_cases hline : ∃ line, call = .line line
  · obtain ⟨line, rfl⟩ := hline
    exact h.hears_line hs line hopen
  · rw [not_exists] at hline
    rcases d.phase_perform_of_not_line hline hopen with ⟨hp, hc⟩ | ⟨hcall, hbefore, hp⟩
    · refine .nothing ?_ ?_ hp hc <;> cases call <;> first | rfl | exact absurd rfl (hline _)
    · exact .connects hcall hbefore hp

inductive Heard (phase : Phase) (calls : List Call) : Prop
  | unconnected (hp : phase = .disconnected) (hc : .connected ∉ calls)
    (hr : completeReplies calls = [])
  | ungreeted (hp : phase = .connecting) (hc : .connected ∈ calls)
    (hr : completeReplies calls = [])
  | greeted (hp : phase.isOpen = true) (hc : .connected ∈ calls) (hr : completeReplies calls ≠ [])

theorem Heard.ne_nil_of_isOpen {phase : Phase} {calls : List Call} (h : Heard phase calls)
    (hp : phase.isOpen = true) : .connected ∈ calls ∧ completeReplies calls ≠ [] := by
  cases h with
  | unconnected hp' | ungreeted hp' =>
    rw [hp'] at hp
    cases hp
  | greeted _ hc hr => exact ⟨hc, hr⟩

structure Counted (d : Dialogue) (settings : Settings) (calls : List Call) : Prop where
  heard : Heard d.phase calls
  codes_eq : ((start settings).answers calls).map Prod.snd = (finalReplies calls).map (·.code)

/-- One call further, the answers are still as many as the replies that count. -/
theorem Hears.counted {settings : Settings} {calls : List Call} {call : Call}
    (h : ((start settings).after calls).Hears call)
    (hcounted : ((start settings).after calls).Counted settings calls) :
    (((start settings).after calls).perform call).1.Counted settings (calls ++ [call]) := by
  obtain ⟨hheard, hcodes⟩ := hcounted
  cases h with
  | nothing hl ha hp hc =>
    refine ⟨?_, ?_⟩
    · rw [hp]
      have hr := completeReplies_of_none hl calls
      cases hheard with
      | unconnected hp' hc' hr' =>
        refine .unconnected hp' ?_ (hr.trans hr')
        rw [List.mem_append, List.mem_singleton]
        exact fun hmem => hmem.elim hc' fun heq => hc heq.symm hp'
      | ungreeted hp' hc' hr' => exact .ungreeted hp' (List.mem_append_left _ hc') (hr.trans hr')
      | greeted hp' hc' hr' => exact .greeted hp' (List.mem_append_left _ hc') (hr ▸ hr')
    · rw [answers_snoc, ha, finalReplies_of_none hl]
      simpa using hcodes
  | connects hcall hbefore hp =>
    subst hcall
    have hnil : completeReplies calls = [] := by
      cases hheard with
      | unconnected _ _ hr => exact hr
      | ungreeted _ _ hr => exact hr
      | greeted hp' => simp [hbefore, Phase.isOpen] at hp'
    refine ⟨.ungreeted hp (by simp) ?_, ?_⟩
    · rw [completeReplies_of_none rfl, hnil]
    · rw [answers_snoc, finalReplies_of_none rfl]
      simpa [answer?, reply?] using hcodes
  | greeting reply hl ha hbefore hp =>
    obtain ⟨hc, hnil⟩ : .connected ∈ calls ∧ completeReplies calls = [] := by
      cases hheard with
      | unconnected hp' =>
        rw [hbefore] at hp'
        cases hp'
      | ungreeted _ hc hr => exact ⟨hc, hr⟩
      | greeted hp' => simp [hbefore, Phase.isOpen] at hp'
    refine ⟨.greeted hp (List.mem_append_left _ hc) ?_, ?_⟩
    · simp [completeReplies_snoc, hl]
    · -- the greeting answers nothing, and nothing was answered before it
      have hfinal : finalReplies calls = [] := by rw [finalReplies, hnil]; rfl
      rw [answers_snoc, ha, finalReplies_of_nil hnil]
      simpa [hfinal] using hcodes
  | reply f reply hl ha hbefore hp =>
    obtain ⟨hc, hne⟩ := hheard.ne_nil_of_isOpen hbefore
    refine ⟨.greeted hp (List.mem_append_left _ hc) ?_, ?_⟩
    · simp [completeReplies_snoc, hl]
    · rw [answers_snoc, List.map_append, hcodes, finalReplies_snoc hne, List.map_append, answer?,
        ha, hl]
      cases hi : reply.code.isIntermediate <;> simp [hi]

/-- In every run the answers are the replies that count, as long as the dialogue is open. -/
theorem EncryptsWhenDue.counted {settings : Settings} {calls : List Call}
    (h : EncryptsWhenDue settings calls) (hopen : ((start settings).after calls).phase ≠ .closed) :
    ((start settings).after calls).Counted settings calls := by
  induction calls using List.reverseRecOn with
  | nil => exact ⟨.unconnected rfl (by simp) rfl, rfl⟩
  | append_singleton calls call ih =>
    rw [after_snoc] at hopen ⊢
    have hbefore : ((start settings).after calls).phase ≠ .closed :=
      fun hclosed => hopen (perform_of_closed hclosed call).1
    obtain ⟨said, htold, -⟩ := h.of_append.told
    exact (htold.hears h.of_append.standing.2 call hopen).counted (ih h.of_append hbefore)

theorem Standing.inFlight_length_le {d : Dialogue} {due : Nat} (h : d.Standing due)
    (hready : d.phase = .ready) : d.pipeline.inFlight.length ≤ 1 := by
  have hone {phase : Phase} {parked : Bool} {verbs : List Verb} (hd : d.Expects phase parked verbs)
      (hverbs : verbs.length ≤ 1) : d.pipeline.inFlight.length ≤ 1 := by
    have hlength := congrArg List.length hd.inFlight_eq
    rw [List.length_map] at hlength
    omega
  cases h with
  | idle hd | greeting hd | parked hd | handshake hd => exact hone hd (Nat.zero_le 1)
  | opening verb hv hd | leaving hd => exact hone hd (Nat.le_refl 1)
  | sending e c rest he hs hl hf =>
    cases hf with
    | oneByOne hd => exact hone hd (Nat.le_refl 1)
    | batch hd => simp [hd.phase_eq] at hready
  | closed _ hclosed => simp [hready] at hclosed

/-- While a whole transaction is in flight, what is left of it ends with its payload. -/
theorem Standing.inFlight_suffix {d : Dialogue} {due : Nat} (h : d.Standing due)
    (hp : d.phase = .pipelining) : ∃ e, d.envelope = some e ∧ d.pipeline.inFlight ≠ [] ∧
      d.pipeline.inFlight.map (·.verb) <:+
        .mail :: List.replicate e.recipients.length .rcpt ++ [e.payload.command.verb] := by
  cases h with
  | idle hd | greeting hd | opening _ _ hd | parked hd | handshake hd | leaving hd =>
    simp [hd.phase_eq] at hp
  | sending e c rest he hs hl hf =>
    cases hf with
    | oneByOne hd => simp [hd.phase_eq] at hp
    | batch hd =>
      refine ⟨e, he, ?_, ?_⟩
      · intro hnone
        have hnil := hd.inFlight_eq
        simp [hnone] at hnil
      · rw [hd.inFlight_eq, ← map_verb_transaction e none]
        exact hl.suffix none
  | closed _ hclosed => simp [hp] at hclosed

/-- The commands of a run are answered in the order in which they were put out: `said` are all of
them, and the replies that were given after the greeting answer the first of them. -/
structure FirstInFirstOut (settings : Settings) (calls : List Call) (said : List Command) :
    Prop where
  conveys : Conveys said ((start settings).putOut calls)
  tags_eq : ((start settings).putOut calls).flatMap Transmit.tags = List.range' 1 said.length
  length_le : (finalReplies calls).length ≤ said.length
  waiting_eq : ((start settings).after calls).pipeline.waiting = []
  inFlight_eq : ((start settings).after calls).pipeline.inFlight =
    ((Pipeline.numbered 0 said).map Pipeline.sent).drop (finalReplies calls).length
  awaited_eq : ((start settings).after calls).awaited =
    if .connected ∈ calls ∧ completeReplies calls = [] then some .greeting
    else said[(finalReplies calls).length]?.map fun c => .answer c.verb
  ready : ((start settings).after calls).phase = .ready →
    ((start settings).after calls).pipeline.inFlight.length ≤ 1
  pipelining : ((start settings).after calls).phase = .pipelining →
    ∃ e, ((start settings).after calls).envelope = some e ∧
      ((start settings).after calls).pipeline.inFlight ≠ [] ∧
      ((start settings).after calls).pipeline.inFlight.map (·.verb) <:+
        .mail :: List.replicate e.recipients.length .rcpt ++ [e.payload.command.verb]

/-- In a run that is not over, each complete reply after the greeting answers the oldest command
that is not answered yet, and what is in flight are all the others. -/
theorem firstInFirstOut_run (settings : Settings) (calls : List Call)
    (h : EncryptsWhenDue settings calls) (hopen : ((start settings).after calls).phase ≠ .closed) :
    ∃ said, FirstInFirstOut settings calls said := by
  obtain ⟨said, htold, hconveys, hsent⟩ := h.ledger
  have hs := h.standing.2
  obtain ⟨hheard, hcodes⟩ := h.counted hopen
  have hcount : ((start settings).answers calls).length = (finalReplies calls).length := by
    simpa using congrArg List.length hcodes
  -- the commands that were answered, and after them those in flight, are all that were sent
  have hall := (answers_sent settings calls).2 hopen
  rw [hsent] at hall
  have hflight : ((start settings).after calls).pipeline.inFlight =
      ((Pipeline.numbered 0 said).map Pipeline.sent).drop (finalReplies calls).length := by
    rw [← hall, ← hcount, List.drop_left' (by simp)]
  have hlength : (finalReplies calls).length ≤ said.length := by
    have hle := congrArg List.length hall
    simp only [List.length_append, List.length_map, Pipeline.length_numbered] at hle
    omega
  refine ⟨said, hconveys, hconveys.tags_eq, hlength, (tidy_after settings calls).waiting_eq,
    hflight, ?_, hs.inFlight_length_le, hs.inFlight_suffix⟩
  have hgreeting : ((start settings).after calls).greetingDue =
      decide (.connected ∈ calls ∧ completeReplies calls = []) := by
    rw [hs.greetingDue_eq hopen, decide_eq_decide]
    cases hheard with
    | unconnected hp hc hr => simp [hp, hc]
    | ungreeted hp hc hr => simp [hp, hc, hr]
    | greeted hp hc hr =>
      have hne : ((start settings).after calls).phase ≠ .connecting := by
        intro hphase
        simp [hphase, Phase.isOpen] at hp
      simp [hne, hr]
  rw [awaited, hgreeting]
  simp only [decide_eq_true_eq]
  congr 1
  rw [Pipeline.awaiting, hflight, List.head?_drop]
  have hverb := Pipeline.getElem?_verb_sent 0 said (finalReplies calls).length
  have hawaited := congrArg (Option.map Awaited.answer) hverb
  rwa [Option.map_map, Option.map_map] at hawaited

def takenInPart : List Call := conversation (.toBoth (.reference .draft)) repliesToBatch

/-- A server that has taken a part of a batch has answered the first commands of it. -/
theorem firstInFirstOut_of_batch :
    EncryptsWhenDue .plain takenInPart ∧ ((start .plain).after takenInPart).phase = .pipelining ∧
      ((start .plain).after takenInPart).phase ≠ .closed ∧
      ∃ said, FirstInFirstOut .plain takenInPart said := by
  have hdue : EncryptsWhenDue .plain takenInPart := .of_notMem _ (by decide +kernel)
  have hphase : ((start .plain).after takenInPart).phase = .pipelining := by decide +kernel
  have hopen : ((start .plain).after takenInPart).phase ≠ .closed := by
    rw [hphase]
    simp
  exact ⟨hdue, hphase, hopen, firstInFirstOut_run _ _ hdue hopen⟩

end Dialogue

end SmtpClient
