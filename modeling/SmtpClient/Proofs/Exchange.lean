import SmtpClient.Proofs.Steps

namespace SmtpClient

def Transmit.EndsBody (t : Transmit) : Prop := t.tags = [] ∧ Bytes.dot :: Bytes.crlf <:+ t.data

/-- A body ends in a lone dot, with the line end before it or at its very beginning. -/
theorem Body.encode_endsBody (data : Bytes) : (Transmit.raw (Body.encode data)).EndsBody := by
  refine ⟨rfl, ?_⟩
  have hending : Bytes.dot :: Bytes.crlf <:+ Body.ending (Body.stuff data) := by
    unfold Body.ending
    split
    · exact List.suffix_rfl
    · exact List.suffix_append _ _
  exact hending.trans (List.suffix_append _ _)

theorem not_endsBody_of_tags {t : Transmit} (h : t.tags ≠ []) : ¬t.EndsBody := fun he => h he.1

def Base64.alphabet : List Char := '=' :: (List.range 64).map letter

theorem Base64.letter_mem_alphabet (n : Nat) : letter n ∈ alphabet := by
  refine List.mem_cons_of_mem _ ?_
  by_cases hn : n < 64
  · exact List.mem_map_of_mem (List.mem_range.mpr hn)
  · have hlast : letter n = letter 63 := by
      unfold letter
      rw [if_neg (by omega), if_neg (by omega), if_neg (by omega), if_neg (by omega)]
      rfl
    rw [hlast]
    exact List.mem_map_of_mem (List.mem_range.mpr (by decide))

theorem Base64.encode_subset_alphabet (bs : Bytes) : encode bs ⊆ alphabet := by
  have hpad : '=' ∈ alphabet := List.mem_cons_self
  fun_induction encode bs with
  | case1 => exact List.nil_subset _
  | case2 a => simp [letter_mem_alphabet, hpad]
  | case3 a b => simp [letter_mem_alphabet, hpad]
  | case4 a b c rest ih => simp [letter_mem_alphabet, ih]

/-- No base64 has a dot in it. -/
theorem Base64.dot_notMem_encode (bs : Bytes) :
    Bytes.dot ∉ Utf8.encode (String.ofList (encode bs)) := by
  have halphabet : (alphabet.all fun c => Bytes.dot ∉ String.utf8EncodeChar c) = true := by decide
  rw [Utf8.encode, String.toList_ofList]
  intro hdot
  obtain ⟨c, hc, hbyte⟩ := List.mem_flatMap.mp hdot
  exact of_decide_eq_true (List.all_eq_true.mp halphabet c (encode_subset_alphabet bs hc)) hbyte

theorem render_passwordResponse (user password : String) :
    (passwordResponse user password).render =
      Utf8.encode (String.ofList (Base64.encode (plainMessage user password))) ++ Bytes.crlf := by
  simp [passwordResponse, Command.render, Command.words]

/-- An answer to a challenge ends in base64, which has no dot in it. -/
theorem not_endsBody_passwordResponse (user password : String) :
    ¬(Transmit.raw (passwordResponse user password).render).EndsBody := by
  rintro ⟨-, hsuffix⟩
  rw [Transmit.raw, render_passwordResponse] at hsuffix
  -- with the line end taken off both, the base64 itself would end in a dot
  have hdot : [Bytes.dot] <:+
      Utf8.encode (String.ofList (Base64.encode (plainMessage user password))) :=
    List.suffix_append_self_iff.mp hsuffix
  exact Base64.dot_notMem_encode _ (hdot.mem List.mem_cons_self)

theorem not_endsBody_quit : ¬(Transmit.raw Command.quit.render).EndsBody := by
  rintro ⟨-, hsuffix⟩
  revert hsuffix
  decide

def Verb.isPayload : Verb → Bool
  | data | burl => true
  | _ => false

namespace Dialogue

structure Kept (d next : Dialogue) : Prop where
  settings_eq : next.settings = d.settings
  envelope_eq : next.envelope = d.envelope
  succeeded_eq : next.succeeded = d.succeeded

def Withholds (d next : Dialogue) : Prop :=
  ∃ new, next.outbound = d.outbound ++ new ∧ ∀ t ∈ new, ¬t.EndsBody

/-- A step that puts out no body and reports no success. A command to take a message is the one of
the envelope. -/
structure Bodiless (d : Dialogue) (r : Outcome) : Prop extends Kept d r.1 where
  verbs_of : ∀ verb ∈ r.1.pipeline.verbs, verb.isPayload = true →
    verb ∈ d.pipeline.verbs ∨ ∃ e, d.envelope = some e ∧ e.payload.command.verb = verb
  withholds : d.Withholds r.1
  not_succeeded : .succeeded ∉ r.2

theorem Kept.trans {d next last : Dialogue} (h : d.Kept next) (h' : next.Kept last) : d.Kept last :=
  ⟨h'.settings_eq.trans h.settings_eq, h'.envelope_eq.trans h.envelope_eq,
    h'.succeeded_eq.trans h.succeeded_eq⟩

theorem Withholds.trans {d next last : Dialogue} (h : d.Withholds next)
    (h' : next.Withholds last) : d.Withholds last := by
  obtain ⟨new, hnew, hbody⟩ := h
  obtain ⟨new', hnew', hbody'⟩ := h'
  refine ⟨new ++ new', by rw [hnew', hnew, List.append_assoc], fun t ht => ?_⟩
  rcases List.mem_append.mp ht with ht | ht
  · exact hbody t ht
  · exact hbody' t ht

/-- Two such steps in a row are one, with the events of the second. -/
theorem Bodiless.trans {d next : Dialogue} {r : Outcome} (h : d.Bodiless (next, []))
    (h' : next.Bodiless r) : d.Bodiless r := by
  refine ⟨h.toKept.trans h'.toKept, fun verb hmem hverb => ?_, h.withholds.trans h'.withholds,
    h'.not_succeeded⟩
  rcases h'.verbs_of verb hmem hverb with hmem' | hown
  · exact h.verbs_of verb hmem' hverb
  · exact Or.inr (h.envelope_eq ▸ hown)

/-- A step that sends nothing. -/
theorem bodiless_of_unsent {d : Dialogue} {r : Outcome} (hk : d.Kept r.1)
    (hv : r.1.pipeline.verbs ⊆ d.pipeline.verbs) (ho : r.1.outbound = d.outbound)
    (hs : .succeeded ∉ r.2) : d.Bodiless r :=
  ⟨hk, fun verb hmem _ => Or.inl (hv hmem), ⟨[], by simp [ho], by simp⟩, hs⟩

/-- A change of marks. -/
theorem bodiless_of_marks {d next : Dialogue} (hk : d.Kept next)
    (hp : next.pipeline = d.pipeline) (ho : next.outbound = d.outbound) : d.Bodiless (next, []) :=
  bodiless_of_unsent hk (by rw [hp]; exact List.Subset.refl _) ho (by simp)

theorem bodiless_put (d : Dialogue) {data : Bytes} (h : ¬(Transmit.raw data).EndsBody) :
    d.Bodiless (d.put data, []) :=
  ⟨⟨rfl, rfl, rfl⟩, fun verb hmem _ => Or.inl hmem, ⟨[.raw data], rfl, by simpa using h⟩, by simp⟩

/-- A command puts out no body, and one that takes a message has to be that of the envelope. -/
theorem bodiless_send (d : Dialogue) (c : Command)
    (h : c.verb.isPayload = true → ∃ e, d.envelope = some e ∧ e.payload.command = c) :
    d.Bodiless (d.send c, []) := by
  refine ⟨⟨rfl, rfl, rfl⟩, fun verb hmem hverb => ?_, ⟨_, rfl, fun t ht => ?_⟩, by simp⟩
  · rcases (d.mem_verbs_send c verb).mp hmem with hmem' | rfl
    · exact Or.inl hmem'
    · obtain ⟨e, he, hc⟩ := h hverb
      exact Or.inr ⟨e, he, by rw [hc]⟩
  · exact not_endsBody_of_tags (Pipeline.tags_drain _ t ht)

theorem bodiless_send_other (d : Dialogue) {c : Command} (h : c.verb.isPayload = false) :
    d.Bodiless (d.send c, []) :=
  d.bodiless_send c (by simp [h])

/-- A failure puts out a last QUIT at most. -/
theorem bodiless_fail (d : Dialogue) (error : Error) (mayQuit : Bool) :
    d.Bodiless (d.fail error mayQuit) := by
  rw [fail_eq]
  refine ⟨⟨rfl, rfl, rfl⟩, fun verb hmem _ => ?_, ⟨d.farewell mayQuit, rfl, fun t ht => ?_⟩,
    by simp⟩
  · rw [Pipeline.verbs_clear] at hmem
    cases hmem
  · unfold farewell at ht
    split at ht
    · rw [List.mem_singleton.mp ht]
      exact not_endsBody_quit
    · cases ht

theorem bodiless_close (d : Dialogue) : d.Bodiless (d.close, []) :=
  bodiless_of_unsent ⟨rfl, rfl, rfl⟩ (List.nil_subset _) rfl (by simp)

/-- A batch puts out no body, and its last command is the one of the envelope. -/
theorem bodiless_sendBatch (d : Dialogue) (e : Envelope) (size : Option Nat)
    (he : d.envelope = some e) : d.Bodiless (d.sendBatch e size, []) := by
  refine ⟨⟨rfl, rfl, rfl⟩, fun verb hmem hverb => ?_, ⟨_, rfl, fun t ht => ?_⟩, by simp⟩
  · have hsent := (Pipeline.mem_verbs_drainAll _ verb).mp hmem
    rcases (Pipeline.mem_verbs_foldl_enqueue d.pipeline _ verb).mp hsent with hmem' | hnew
    · exact Or.inl hmem'
    · refine Or.inr ⟨e, he, ?_⟩
      simp only [transaction, List.map_append, List.map_cons, List.map_map, List.map_nil,
        List.mem_append, List.mem_cons, List.mem_map, Function.comp_apply, List.not_mem_nil,
        or_false] at hnew
      rcases hnew with (rfl | ⟨r, -, rfl⟩) | rfl
      · cases hverb
      · cases hverb
      · rfl
  · exact not_endsBody_of_tags (Pipeline.tags_drainAll _ t ht)

theorem Beginning.bodiless {d : Dialogue} {r : Outcome} (h : d.Beginning r) : d.Bodiless r := by
  cases h with
  | failed error => exact d.bodiless_fail error true
  | batch e size he => exact d.bodiless_sendBatch e size he
  | sender e size => exact d.bodiless_send_other rfl

/-- What is arranged after the greetings puts out no body. -/
theorem Negotiation.bodiless {d : Dialogue} {r : Outcome} (h : d.Negotiation r) :
    d.Bodiless r := by
  cases h with
  | failed error => exact d.bodiless_fail error true
  | startTls => exact d.bodiless_send_other rfl
  | park => exact bodiless_of_marks ⟨rfl, rfl, rfl⟩ rfl rfl
  | ask =>
    exact bodiless_of_unsent ⟨rfl, rfl, rfl⟩ (List.Subset.refl _) rfl (by simp [requestPassword])
  | auth =>
    have hmark : d.Bodiless ({ d with passwordSent := false }, []) :=
      bodiless_of_marks ⟨rfl, rfl, rfl⟩ rfl rfl
    exact hmark.trans (bodiless_send_other _ rfl)
  | begun => exact d.beginTransaction_beginning.bodiless

theorem bodiless_sendPassword (d : Dialogue) : d.Bodiless d.sendPassword := by
  unfold sendPassword
  split
  · exact d.bodiless_fail _ _
  · split
    · exact d.bodiless_fail _ _
    · next password _ =>
      have hput := d.bodiless_put (not_endsBody_passwordResponse d.settings.user password)
      exact ⟨⟨rfl, rfl, rfl⟩, hput.verbs_of, hput.withholds, hput.not_succeeded⟩

theorem bodiless_sendNextRecipient (d : Dialogue) : d.Bodiless (d.sendNextRecipient, []) := by
  unfold sendNextRecipient
  split
  · exact bodiless_of_marks ⟨rfl, rfl, rfl⟩ rfl rfl
  · next e he =>
    split
    · have hmark : d.Bodiless ({ d with recipientsSent := d.recipientsSent + 1 }, []) :=
        bodiless_of_marks ⟨rfl, rfl, rfl⟩ rfl rfl
      exact hmark.trans (bodiless_send_other _ rfl)
    · exact d.bodiless_send _ fun _ => ⟨e, he, rfl⟩

/-- Counting a reply leaves no command in flight that was not there. -/
theorem verbs_settle_subset (d : Dialogue) (awaited : Awaited) (code : Code) :
    (settle { d with replyTexts := [] } awaited code).pipeline.verbs ⊆ d.pipeline.verbs := by
  unfold settle
  split
  · exact List.Subset.refl _
  · split
    · exact List.Subset.refl _
    · exact Pipeline.verbs_acknowledge_subset _

theorem bodiless_settle (d : Dialogue) (awaited : Awaited) (code : Code) :
    d.Bodiless (settle { d with replyTexts := [] } awaited code, []) :=
  bodiless_of_unsent ⟨by simp, by simp, by simp⟩ (d.verbs_settle_subset awaited code) (by simp)
    (by simp)

/-- Only a go-ahead for the body and the end of the transaction have to do with the body. -/
theorem bodiless_act (d : Dialogue) (awaited : Awaited) (reply : Reply) (text : String)
    {decision : Decision} (hbody : decision ≠ .advance .sendBody)
    (hquit : decision ≠ .advance .quit) : d.Bodiless (d.act awaited reply text decision) := by
  cases decision with
  | announce =>
    have hmark : d.Bodiless ({ d with capabilities := d.capabilities.addReply reply }, []) :=
      bodiless_of_marks ⟨rfl, rfl, rfl⟩ rfl rfl
    exact hmark.trans (negotiate_negotiation _).bodiless
  | retry =>
    have hmark : d.Bodiless ({ d with capabilities := .empty }, []) :=
      bodiless_of_marks ⟨rfl, rfl, rfl⟩ rfl rfl
    exact hmark.trans (bodiless_send_other _ rfl)
  | advance move =>
    cases move with
    | greet =>
      have hmark : d.Bodiless ({ d with phase := .ready, capabilities := .empty }, []) :=
        bodiless_of_marks ⟨rfl, rfl, rfl⟩ rfl rfl
      exact hmark.trans (bodiless_send_other _ rfl)
    | negotiate => exact d.negotiate_negotiation.bodiless
    | encrypt =>
      exact bodiless_of_unsent ⟨rfl, rfl, rfl⟩ (List.Subset.refl _) rfl (by simp [act, advance])
    | sendPassword => exact d.bodiless_sendPassword
    | beginTransaction =>
      have hmark : d.Bodiless ({ d with authenticated := true }, []) :=
        bodiless_of_marks ⟨rfl, rfl, rfl⟩ rfl rfl
      exact hmark.trans (beginTransaction_beginning _).bodiless
    | firstRecipient | nextRecipient =>
      simp only [act, advance]
      split
      · exact bodiless_of_marks ⟨rfl, rfl, rfl⟩ rfl rfl
      · exact d.bodiless_sendNextRecipient
    | sendBody => exact absurd rfl hbody
    | quit => exact absurd rfl hquit
    | close => exact d.bodiless_close
  | fail refusal =>
    simp only [act]
    split
    · exact d.bodiless_close
    · exact d.bodiless_fail _ _

def dataCode? (d : Dialogue) : Call → Option Code
  | .line line =>
    if d.isFinished || d.awaited ≠ some (.answer .data) then none
    else match Reply.parse line with
      | .ok reply => if reply.continues then none else some reply.code
      | .error _ => none
  | _ => none

inductive Exchange (d : Dialogue) (line : Bytes) (r : Outcome) : Prop
  | aside (hgo : d.dataCode? (.line line) ≠ some 354) (htaken : d.dataCode? (.line line) ≠ some 250)
    (h : d.Bodiless r)
  | goAhead (hgo : d.dataCode? (.line line) = some 354)
    (h : r = sendBody { d with replyTexts := [] })
  | taken (htaken : d.dataCode? (.line line) = some 250) (s : Dialogue) (hs : d.Bodiless (s, []))
    (h : r = s.succeed)
  | reference (hnone : d.dataCode? (.line line) = none) (hw : d.awaited = some (.answer .burl))
    (s : Dialogue) (hs : d.Bodiless (s, [])) (h : r = s.succeed)

/-- A complete reply, by the decision that is listed for it. -/
theorem exchange_reactTo {d : Dialogue} (hopen : d.isFinished = false) {line : Bytes}
    {reply : Reply} (hparse : Reply.parse line = .ok reply) (hc : reply.continues = false)
    {awaited : Awaited} (hw : d.awaited = some awaited) (text : String) :
    d.Exchange line (d.reactTo awaited reply text (Decision.of awaited reply.code)) := by
  have hcode : d.dataCode? (.line line) =
      if awaited = .answer .data then some reply.code else none := by
    by_cases hdata : awaited = .answer .data <;>
      simp [dataCode?, hopen, hw, hparse, hc, hdata]
  have hsettled := d.bodiless_settle awaited reply.code
  have haside {decision : Decision} (hgo : d.dataCode? (.line line) ≠ some 354)
      (htaken : d.dataCode? (.line line) ≠ some 250) (hbody : decision ≠ .advance .sendBody)
      (hquit : decision ≠ .advance .quit) :
      d.Exchange line (d.reactTo awaited reply text decision) :=
    .aside hgo htaken (hsettled.trans (bodiless_act _ awaited reply text hbody hquit))
  have hl := Decision.listed_of awaited reply.code
  generalize hd : Decision.of awaited reply.code = decision at hl
  cases hl with
  | sendBody h =>
    refine .goAhead (by rw [hcode, h]; rfl) ?_
    rw [reactTo, settle_intermediate d .data reply.code (by rw [h]; rfl)]
    rfl
  | quitAfterData h => exact .taken (by rw [hcode, h]; rfl) _ hsettled rfl
  | quitAfterBurl h => exact .reference (by rw [hcode]; rfl) hw _ hsettled rfl
  | fail _ refusal =>
    have hother : ∀ code : Code, Decision.of (.answer .data) code ≠ .fail refusal →
        d.dataCode? (.line line) ≠ some code := by
      intro code hne heq
      rw [hcode] at heq
      split at heq
      · next hdata =>
        cases heq
        rw [hdata] at hd
        exact hne hd
      · cases heq
    exact haside (hother 354 (by simp [Decision.of, Decision.onVerb]))
      (hother 250 (by simp [Decision.of, Decision.onVerb])) (by simp) (by simp)
  | _ => exact haside (by simp [hcode]) (by simp [hcode]) (by simp) (by simp)

/-- What a line has to do with the body, by how the line is read. -/
theorem exchange_takeLine (d : Dialogue) (line : Bytes) : d.Exchange line (d.takeLine line) := by
  have hnone (h : d.dataCode? (.line line) = none) {r : Outcome} (hr : d.Bodiless r) :
      d.Exchange line r := .aside (by simp [h]) (by simp [h]) hr
  have hread := d.takeLine_reading line
  generalize d.takeLine line = r at hread ⊢
  cases hread with
  | closed hclosed =>
    exact hnone (by simp [dataCode?, hclosed])
      (bodiless_of_unsent ⟨rfl, rfl, rfl⟩ (List.Subset.refl _) rfl (by simp))
  | malformed error _ hparse =>
    exact hnone (by simp [dataCode?, hparse]) (d.bodiless_fail error true)
  | unasked reply _ _ hw => exact hnone (by simp [dataCode?, hw]) (d.bodiless_fail _ _)
  | held reply awaited _ hparse _ hc =>
    refine hnone (by simp [dataCode?, hparse, hc]) ?_
    unfold holdLine
    split <;> exact bodiless_of_marks ⟨rfl, rfl, rfl⟩ rfl rfl
  | completed reply awaited hopen hparse hw hc => exact exchange_reactTo hopen hparse hc hw _

inductive Effect (d : Dialogue) : Call → Prop
  | submit (e : Envelope) : Effect d (.submit e)
  | line (line : Bytes) (h : d.Exchange line (d.takeLine line)) : Effect d (.line line)
  | poll : Effect d .poll
  | aside (call : Call) (hnone : d.dataCode? call = none)
    (h : d.Bodiless ((d.perform call).1, d.eventsOf call)) : Effect d call

theorem bodiless_connect (d : Dialogue) : d.Bodiless (d.connect, []) := by
  unfold connect
  split <;> exact bodiless_of_marks ⟨rfl, rfl, rfl⟩ rfl rfl

theorem bodiless_givePassword (d : Dialogue) (password : String) :
    d.Bodiless (d.givePassword password, []) := by
  unfold givePassword
  split
  · have hmark : d.Bodiless
        ({ d with password := some password, parked := false, passwordSent := false }, []) :=
      bodiless_of_marks ⟨rfl, rfl, rfl⟩ rfl rfl
    exact hmark.trans (bodiless_send_other _ rfl)
  · exact bodiless_of_marks ⟨rfl, rfl, rfl⟩ rfl rfl

theorem bodiless_encrypt (d : Dialogue) : d.Bodiless (d.encrypt, []) := by
  unfold encrypt
  split
  · exact bodiless_of_marks ⟨rfl, rfl, rfl⟩ rfl rfl
  · have hmark : d.Bodiless ({ d with encrypted := true, capabilities := .empty }, []) :=
      bodiless_of_marks ⟨rfl, rfl, rfl⟩ rfl rfl
    exact hmark.trans (bodiless_send_other _ rfl)

theorem bodiless_cancel (d : Dialogue) : d.Bodiless d.cancel := by
  unfold cancel
  split
  · exact bodiless_of_marks ⟨rfl, rfl, rfl⟩ rfl rfl
  · exact d.bodiless_fail _ _

theorem bodiless_disconnect (d : Dialogue) (error : Error) : d.Bodiless (d.disconnect error) := by
  unfold disconnect
  split
  · exact bodiless_of_marks ⟨rfl, rfl, rfl⟩ rfl rfl
  · split
    · exact bodiless_of_marks ⟨rfl, rfl, rfl⟩ rfl rfl
    · exact d.bodiless_fail _ _

/-- What any call has to do with the body: only a line lets it out or reports the success. -/
theorem effect (d : Dialogue) (call : Call) : d.Effect call := by
  cases call with
  | submit e => exact .submit e
  | connected => exact .aside .connected rfl d.bodiless_connect
  | line line => exact .line line (d.exchange_takeLine line)
  | password text => exact .aside (.password text) rfl (d.bodiless_givePassword text)
  | encrypted => exact .aside .encrypted rfl d.bodiless_encrypt
  | cancel => exact .aside .cancel rfl d.bodiless_cancel
  | lost error => exact .aside (.lost error) rfl (d.bodiless_disconnect error)
  | poll => exact .poll

end Dialogue

end SmtpClient
