import SmtpClient.Proofs.Authentication
import SmtpClient.Proofs.InFlight
import SmtpClient.Proofs.LastLine
import SmtpClient.Proofs.Matching

namespace SmtpClient

def Verb.isGreeting : Verb → Bool
  | helo | ehlo => true
  | _ => false

def Capabilities.announcedBy (lines : List Reply) : Capabilities :=
  (lines.filter (·.code = 250)).foldl addReply empty

theorem Capabilities.announcedBy_snoc (lines : List Reply) (line : Reply) :
    announcedBy (lines ++ [line]) =
      if line.code = 250 then (announcedBy lines).addReply line else announcedBy lines := by
  rw [announcedBy, List.filter_append, List.foldl_append]
  split
  · next hcode =>
    rw [List.filter_cons_of_pos (by simpa using hcode)]
    rfl
  · next hcode =>
    rw [List.filter_cons_of_neg (by simpa using hcode)]
    rfl

/-- A line of the reply to EHLO is taken in exactly if its code is 250. -/
theorem Decision.of_ehlo_eq_announce (code : Code) :
    Decision.of (.answer .ehlo) code = .announce ↔ code = 250 := by
  constructor
  · intro hannounce
    have hlisted := Decision.listed_of (.answer .ehlo) code
    rw [hannounce] at hlisted
    cases hlisted with
    | announce hcode => exact hcode
  · intro hcode
    rw [hcode]
    rfl

def IsReply (lines : List Reply) (last : Reply) : Prop :=
  ∃ held, lines = held ++ [last] ∧ (∀ line ∈ held, line.continues = true) ∧ last.continues = false

/-- How a server has presented itself: its reply to the latest EHLO is complete, and what is known
of it is what the reply announces, or nothing if the reply was a refusal and HELO was sent. -/
inductive Presented (heard : List Reply) (greeting : Option Verb) (caps : Capabilities) : Prop
  | understood (last : Reply) (hreply : IsReply heard last) (hcode : last.code = 250)
    (hg : greeting = some .ehlo) (hc : caps = .announcedBy heard)
  | refused (last : Reply) (hreply : IsReply heard last) (hcode : last.code = 550 ∨ last.code = 502)
    (hg : greeting = some .helo) (hc : caps = .empty)

namespace Dialogue

def NoGreeting (d : Dialogue) : Prop := d.AllInFlight fun f => f.verb.isGreeting = false

theorem NoGreeting.notMem_verbs {d : Dialogue} (h : d.NoGreeting) {verb : Verb}
    (hv : verb.isGreeting = true) : verb ∉ d.pipeline.verbs := by
  intro hmem
  rw [Pipeline.verbs, h.waiting_eq, List.map_nil, List.nil_append] at hmem
  obtain ⟨f, hf, rfl⟩ := List.mem_map.mp hmem
  rw [h.inFlight f hf] at hv
  cases hv

theorem isGreeting_of_mem_transaction {e : Envelope} {size : Option Nat} {verb : Verb}
    (h : verb ∈ (transaction e size).map Command.verb) : verb.isGreeting = false := by
  rw [map_verb_transaction, List.cons_append, List.mem_cons, List.mem_append, List.mem_replicate,
    List.mem_singleton] at h
  rcases h with rfl | ⟨-, rfl⟩ | rfl
  · rfl
  · rfl
  · cases e.payload <;> rfl

/-- The server is greeted only by two of the decisions that a reply can lead to. -/
theorem NoGreeting.act {d : Dialogue} (h : d.NoGreeting) (awaited : Awaited) (reply : Reply)
    (text : String) {decision : Decision} (hretry : decision ≠ .retry)
    (hgreet : decision ≠ .advance .greet) : (d.act awaited reply text decision).1.NoGreeting := by
  refine AllInFlight.act h awaited reply text fun verb hmem _ => ?_
  have hverbs : ∀ verb ∈ decision.verbs, verb.isGreeting = false := by
    cases decision with
    | retry => exact absurd rfl hretry
    | advance move =>
      cases move with
      | greet => exact absurd rfl hgreet
      | _ => simp [Decision.verbs, Verb.isGreeting]
    | _ => simp [Decision.verbs, Verb.isGreeting]
  exact hverbs verb hmem

theorem Expects.verbs_eq {d : Dialogue} {phase : Phase} {parked : Bool} {verbs : List Verb}
    (h : d.Expects phase parked verbs) : d.pipeline.verbs = verbs := by
  rw [Pipeline.verbs, h.waiting_eq, h.inFlight_eq]
  rfl

/-- A greeting that is on its way is alone, and its reply is awaited. -/
theorem Standing.of_greeting {d : Dialogue} {due : Nat} (h : d.Standing due)
    (hopen : d.phase ≠ .closed) {verb : Verb} (hv : verb.isGreeting = true)
    (hmem : verb ∈ d.pipeline.verbs) : d.Expects .ready false [verb] ∧ d.Untouched := by
  cases h with
  | idle hd | greeting hd | parked hd | handshake hd =>
    rw [hd.verbs_eq] at hmem
    cases hmem
  | opening verb' _ hd hu =>
    rw [hd.verbs_eq] at hmem
    obtain rfl := List.mem_singleton.mp hmem
    exact ⟨hd, hu⟩
  | sending e c rest he hs hl hf =>
    have htransaction : verb ∈ (transaction e none).map Command.verb := by
      refine (hl.suffix none).subset ?_
      cases hf with
      | oneByOne hd =>
        rw [hd.verbs_eq] at hmem
        obtain rfl := List.mem_singleton.mp hmem
        exact List.mem_cons_self
      | batch hd =>
        rwa [hd.verbs_eq] at hmem
    rw [isGreeting_of_mem_transaction htransaction] at hv
    cases hv
  | leaving hd =>
    rw [hd.verbs_eq] at hmem
    obtain rfl := List.mem_singleton.mp hmem
    cases hv
  | closed _ hclosed => exact absurd hclosed hopen

def greetingsBy (d : Dialogue) (call : Call) : List Verb :=
  ((d.sentBy call).map (·.verb)).filter Verb.isGreeting

def greetings (d : Dialogue) (calls : List Call) : List Verb := d.record greetingsBy calls

def greetingLine? (d : Dialogue) : Call → Option Reply
  | .line line => if d.awaited = some (.answer .ehlo) then (Reply.parse line).toOption else none
  | _ => none

def hearing (d : Dialogue) (lines : List Reply) (call : Call) : List Reply :=
  if .ehlo ∈ d.greetingsBy call then [] else lines ++ (d.greetingLine? call).toList

def heard (d : Dialogue) (lines : List Reply) : List Call → List Reply
  | [] => lines
  | call :: later => (d.perform call).1.heard (d.hearing lines call) later

/-- What was heard after a longer run is what the last call adds to it. -/
theorem heard_snoc (d : Dialogue) (lines : List Reply) (calls : List Call) (call : Call) :
    d.heard lines (calls ++ [call]) = (d.after calls).hearing (d.heard lines calls) call := by
  induction calls generalizing d lines with
  | nil => rfl
  | cons call' calls ih => exact ih (d.perform call').1 (d.hearing lines call')

theorem greetings_snoc (d : Dialogue) (calls : List Call) (call : Call) :
    d.greetings (calls ++ [call]) = d.greetings calls ++ (d.after calls).greetingsBy call :=
  record_snoc _ d calls call

theorem greetingsBy_eq_nil_of_noGreeting {d : Dialogue} {call : Call}
    (h : (d.perform call).1.NoGreeting) : d.greetingsBy call = [] := by
  refine List.filter_eq_nil_iff.mpr fun verb hmem hgreeting => ?_
  exact h.notMem_verbs hgreeting (mem_verbs_of_sentBy hmem)

/-- Where nothing new is in flight, nothing was sent. -/
theorem greetingsBy_eq_nil_of_pipeline_eq {d : Dialogue} (htidy : d.pipeline.Tidy) {call : Call}
    (h : (d.perform call).1.pipeline = d.pipeline) : d.greetingsBy call = [] := by
  have hnone : d.sentBy call = [] := by
    refine List.filter_eq_nil_iff.mpr fun f hmem => ?_
    rw [h] at hmem
    rw [decide_eq_true_eq]
    exact Nat.not_lt.mpr (htidy.tag_le f hmem)
  rw [greetingsBy, hnone]
  rfl

inductive Acquainted (d : Dialogue) (lines : List Reply) (greeting : Option Verb) : Prop
  | closed (h : d.phase = .closed)
  | ungreeted (h : d.phase = .disconnected ∨ d.phase = .connecting)
  | listening (hmem : .ehlo ∈ d.pipeline.verbs) (hheld : ∀ line ∈ lines, line.continues = true)
    (hg : greeting = some .ehlo) (hc : d.capabilities = .announcedBy lines)
  | presented (hnone : .ehlo ∉ d.pipeline.verbs) (h : Presented lines greeting d.capabilities)

section Step

variable {d : Dialogue} {lines : List Reply} {greeting : Option Verb} {due : Nat} {call : Call}

/-- A call that has nothing to do with a greeting. -/
theorem Acquainted.unaffected (h : d.Acquainted lines greeting)
    (hline : d.greetingLine? call = none) (hsent : d.greetingsBy call = [])
    (hopen : d.phase ≠ .closed)
    (hc : (d.perform call).1.capabilities = d.capabilities)
    (hv : .ehlo ∈ (d.perform call).1.pipeline.verbs ↔ .ehlo ∈ d.pipeline.verbs)
    (hp : d.phase = .disconnected ∨ d.phase = .connecting →
      (d.perform call).1.phase = .disconnected ∨ (d.perform call).1.phase = .connecting) :
    (d.perform call).1.Acquainted (d.hearing lines call)
      ((d.greetingsBy call).getLast?.or greeting) := by
  have hsame : d.hearing lines call = lines := by
    rw [hearing, hsent, hline, if_neg List.not_mem_nil]
    exact List.append_nil _
  rw [hsame, hsent]
  cases h with
  | closed hclosed => exact absurd hclosed hopen
  | ungreeted hphase => exact .ungreeted (hp hphase)
  | listening hmem hheld hg hcaps => exact .listening (hv.mpr hmem) hheld hg (hc.trans hcaps)
  | presented hnone hpresented =>
    rw [← hc] at hpresented
    exact .presented (fun hmem => hnone (hv.mp hmem)) hpresented

/-- A call that sends EHLO and forgets what was known of the server. -/
theorem acquainted_of_hail (htidy : d.pipeline.Tidy) {s : Dialogue} {client : String}
    (hp : s.pipeline = d.answered call) (ho : s.outbound = d.outbound)
    (hc : s.capabilities = .empty) (h : (d.perform call).1 = s.send (.ehlo client)) :
    (d.perform call).1.Acquainted (d.hearing lines call)
      ((d.greetingsBy call).getLast?.or greeting) := by
  have hgreetings : d.greetingsBy call = [.ehlo] := by
    rw [greetingsBy, (outputOf_of_send htidy hp ho h).2]
    rfl
  have hnothing : d.hearing lines call = [] := by
    rw [hearing, hgreetings, if_pos (List.mem_singleton_self _)]
  rw [hnothing, hgreetings, h]
  refine .listening ?_ (by simp) rfl hc
  exact (s.mem_verbs_send _ _).mpr (Or.inr rfl)

/-- The lines of the reply to EHLO so far, where that is awaited. -/
theorem Acquainted.listens (h : d.Acquainted lines greeting) (hs : d.Standing due)
    (hopen : d.phase ≠ .closed) (hw : d.awaited = some (.answer .ehlo)) :
    (∀ line ∈ lines, line.continues = true) ∧ greeting = some .ehlo ∧
      d.capabilities = .announcedBy lines := by
  have hmem := mem_verbs_of_awaited hw
  cases h with
  | closed hclosed => exact absurd hclosed hopen
  | ungreeted hphase =>
    have hready := (hs.of_greeting hopen rfl hmem).1.phase_eq
    rw [hready] at hphase
    simp at hphase
  | listening _ hheld hg hc => exact ⟨hheld, hg, hc⟩
  | presented hnone => exact absurd hmem hnone

/-- A line that announces another. -/
theorem Acquainted.hold (h : d.Acquainted lines greeting) (hs : d.Standing due)
    (htidy : d.pipeline.Tidy) (hopen : d.phase ≠ .closed) {line : Bytes} {reply : Reply}
    {awaited : Awaited} (hparse : Reply.parse line = .ok reply) (hw : d.awaited = some awaited)
    (hc : reply.continues = true)
    (hnext : (d.perform (.line line)).1 = d.holdLine reply (Decision.of awaited reply.code)) :
    (d.perform (.line line)).1.Acquainted (d.hearing lines (.line line))
      ((d.greetingsBy (.line line)).getLast?.or greeting) := by
  have hpipeline : (d.perform (.line line)).1.pipeline = d.pipeline := by
    rw [hnext, holdLine]
    split <;> rfl
  have hphase : (d.perform (.line line)).1.phase = d.phase := by
    rw [hnext, holdLine]
    split <;> rfl
  have hsent := greetingsBy_eq_nil_of_pipeline_eq htidy hpipeline
  by_cases hehlo : awaited = .answer .ehlo
  · subst hehlo
    obtain ⟨hheld, hg, hcaps⟩ := h.listens hs hopen hw
    have hheard : d.hearing lines (.line line) = lines ++ [reply] := by
      rw [hearing, hsent, if_neg List.not_mem_nil, greetingLine?, if_pos hw, hparse]
      rfl
    rw [hheard, hsent]
    refine .listening ?_ ?_ hg ?_
    · rw [hpipeline]
      exact mem_verbs_of_awaited hw
    · rw [List.forall_mem_append, List.forall_mem_singleton]
      exact ⟨hheld, hc⟩
    · rw [hnext, holdLine, Capabilities.announcedBy_snoc, ← hcaps]
      by_cases hcode : reply.code = 250
      · rw [if_pos hcode, if_pos ((Decision.of_ehlo_eq_announce _).mpr hcode)]
      · rw [if_neg hcode, if_neg (mt (Decision.of_ehlo_eq_announce _).mp hcode)]
  · have hline : d.greetingLine? (.line line) = none := by
      rw [greetingLine?, if_neg]
      rw [hw]
      exact fun heq => hehlo (Option.some.inj heq)
    refine h.unaffected hline hsent hopen ?_ (by rw [hpipeline]) (by rw [hphase]; exact id)
    rw [hnext, holdLine, if_neg (Decision.of_ne_announce hehlo reply.code)]

/-- A complete reply to a greeting leaves none on its way, and neither does one to another
command. -/
theorem Standing.noGreeting_settle (hs : d.Standing due) (htidy : d.pipeline.Tidy) {line : Bytes}
    {verb : Verb} {reply : Reply} (hline : d.Completes line verb reply)
    (hfinal : verb.isGreeting = true → reply.code.isIntermediate = false) :
    NoGreeting (settle { d with replyTexts := [] } (.answer verb) reply.code) := by
  have hmem := mem_verbs_of_awaited hline.awaited_eq
  by_cases hverb : verb.isGreeting = true
  · obtain ⟨hready, -⟩ := hs.of_greeting hline.phase_ne hverb hmem
    exact allInFlight_of_verbs_eq_nil (hready.settle_answer (by simp) _ (hfinal hverb)).verbs_eq
  · have hbefore : d.NoGreeting := by
      refine ⟨htidy.waiting_eq, fun f hf => ?_⟩
      by_contra hgreeting
      rw [Bool.not_eq_false] at hgreeting
      obtain ⟨hready, -⟩ := hs.of_greeting hline.phase_ne hgreeting
        (List.mem_append_right _ (List.mem_map_of_mem hf))
      have hawaited := (hready.awaited_eq_answer (by simp)).symm.trans hline.awaited_eq
      cases hawaited
      exact hverb hgreeting
    exact AllInFlight.settle hbefore _ _

/-- The last line of the reply to EHLO, which lets the dialogue go on. -/
theorem Acquainted.understand (h : d.Acquainted lines greeting) (hs : d.Standing due)
    (htidy : d.pipeline.Tidy) {line : Bytes} {reply : Reply} (hline : d.Completes line .ehlo reply)
    (hcode : reply.code = 250) :
    (d.perform (.line line)).1.Acquainted (d.hearing lines (.line line))
      ((d.greetingsBy (.line line)).getLast?.or greeting) := by
  obtain ⟨hheld, hg, hcaps⟩ := h.listens hs hline.phase_ne hline.awaited_eq
  have hannounce := (Decision.of_ehlo_eq_announce reply.code).mpr hcode
  have hnext : (d.perform (.line line)).1 =
      (d.reactTo (.answer .ehlo) reply (d.replyText reply) .announce).1 := by
    rw [← hannounce, ← hline.takeLine_eq]
    rfl
  have hsettled := hs.noGreeting_settle htidy hline fun _ => by rw [hcode]; rfl
  have hquiet : (d.perform (.line line)).1.NoGreeting := by
    rw [hnext]
    exact hsettled.act _ _ _ (by simp) (by simp)
  have hsent := greetingsBy_eq_nil_of_noGreeting hquiet
  have hheard : d.hearing lines (.line line) = lines ++ [reply] := by
    rw [hearing, hsent, if_neg List.not_mem_nil, greetingLine?, if_pos hline.awaited_eq,
      hline.parse_eq]
    rfl
  rw [hheard, hsent]
  refine .presented (hquiet.notMem_verbs rfl) ?_
  refine .understood reply ⟨lines, rfl, hheld, hline.last⟩ hcode hg ?_
  rw [hnext, capabilities_reactTo, Capabilities.announcedBy_snoc, if_pos hcode, ← hcaps]
  rfl

/-- The last line of the reply to EHLO, which refuses it: the dialogue falls back on HELO. -/
theorem Acquainted.fallBack (h : d.Acquainted lines greeting) (hs : d.Standing due)
    (htidy : d.pipeline.Tidy) {line : Bytes} {reply : Reply}
    (hline : d.Completes line .ehlo reply) (hcode : reply.code = 550 ∨ reply.code = 502) :
    (d.perform (.line line)).1.Acquainted (d.hearing lines (.line line))
      ((d.greetingsBy (.line line)).getLast?.or greeting) := by
  obtain ⟨hheld, hg, hcaps⟩ := h.listens hs hline.phase_ne hline.awaited_eq
  obtain ⟨hready, -⟩ := hs.of_opening hline.awaited_eq rfl hline.unfinished
  have hretry : Decision.of (.answer .ehlo) reply.code = .retry := by
    rcases hcode with hcode | hcode <;> rw [hcode] <;> rfl
  have hfinal : reply.code.isIntermediate = false := by
    rcases hcode with hcode | hcode <;> rw [hcode] <;> rfl
  have hsettled := hready.settle_answer (by simp) reply.code hfinal
  have hpipeline := hline.pipeline_settle
  have hnext : (d.perform (.line line)).1 =
      (d.reactTo (.answer .ehlo) reply (d.replyText reply) .retry).1 := by
    rw [← hretry, ← hline.takeLine_eq]
    rfl
  rw [reactTo, act] at hnext
  have hout := settle_outbound { d with replyTexts := [] } (.answer .ehlo) reply.code
  generalize settle { d with replyTexts := [] } (.answer .ehlo) reply.code = s
    at hsettled hpipeline hnext hout
  have hsent := (outputOf_of_send (s := { s with capabilities := .empty }) htidy hpipeline hout
    hnext).2
  have hgreetings : d.greetingsBy (.line line) = [.helo] := by
    rw [greetingsBy, hsent]
    rfl
  have hheard : d.hearing lines (.line line) = lines ++ [reply] := by
    rw [hearing, hgreetings, if_neg (by decide), greetingLine?, if_pos hline.awaited_eq,
      hline.parse_eq]
    rfl
  rw [hheard, hgreetings]
  refine .presented ?_ (.refused reply ⟨lines, rfl, hheld, hline.last⟩ hcode rfl ?_)
  · rw [hnext, mem_verbs_send, not_or]
    refine ⟨?_, by simp [Command.verb]⟩
    have hnone : s.pipeline.verbs = [] := hsettled.verbs_eq
    change .ehlo ∉ s.pipeline.verbs
    rw [hnone]
    exact List.not_mem_nil
  · rw [hnext]
    rfl

/-- The last line of a reply to anything but EHLO and the connection itself. -/
theorem Acquainted.goOn (h : d.Acquainted lines greeting) (hs : d.Standing due)
    (htidy : d.pipeline.Tidy) {line : Bytes} {verb : Verb} {reply : Reply}
    (hline : d.Completes line verb reply) (hverb : verb ≠ .ehlo)
    (hopen : (d.perform (.line line)).1.phase ≠ .closed) :
    (d.perform (.line line)).1.Acquainted (d.hearing lines (.line line))
      ((d.greetingsBy (.line line)).getLast?.or greeting) := by
  have hbefore := hline.phase_ne
  have hnext : (d.perform (.line line)).1 =
      (d.reactTo (.answer verb) reply (d.replyText reply)
        (Decision.of (.answer verb) reply.code)).1 := by
    rw [← hline.takeLine_eq]
    rfl
  have hlisted := Decision.listed_of (.answer verb) reply.code
  generalize Decision.of (.answer verb) reply.code = decision at hlisted hnext
  obtain ⟨hretry, hgreet, hcaps⟩ : decision ≠ .retry ∧ decision ≠ .advance .greet ∧
      decision.announced d.capabilities reply = d.capabilities := by
    cases hlisted with
    | announce | retry => exact absurd rfl hverb
    | _ => simp [Decision.announced]
  have hfinal : verb.isGreeting = true → reply.code.isIntermediate = false := by
    intro hgreeting
    cases hlisted with
    | negotiate hcode =>
      rw [hcode]
      rfl
    | fail _ refusal =>
      rw [hnext] at hopen
      exact absurd (phase_act_fail _ _ _ _ _) hopen
    | announce | retry => exact absurd rfl hverb
    | _ => cases hgreeting
  have hquiet : (d.perform (.line line)).1.NoGreeting := by
    rw [hnext]
    exact (hs.noGreeting_settle htidy hline hfinal).act _ _ _ hretry hgreet
  refine h.unaffected ?_ (greetingsBy_eq_nil_of_noGreeting hquiet) hbefore ?_ ?_ ?_
  · rw [greetingLine?, if_neg]
    rw [hline.awaited_eq]
    simpa using hverb
  · rw [hnext, capabilities_reactTo, hcaps]
  · refine iff_of_false (hquiet.notMem_verbs rfl) fun hmem => ?_
    obtain ⟨hready, -⟩ := hs.of_greeting hbefore rfl hmem
    have hawaited := (hready.awaited_eq_answer (by simp)).symm.trans hline.awaited_eq
    cases hawaited
    exact hverb rfl
  · intro hphase
    rcases hs.phase_of_awaited hbefore hline.awaited_eq with ⟨hgreeting, -⟩ | ⟨-, hready⟩
    · cases hgreeting
    · rcases hphase with hphase | hphase <;> simp [hphase, Phase.isOpen] at hready

/-- The greeting of the connection, which is answered with EHLO. -/
theorem acquainted_of_greeting (htidy : d.pipeline.Tidy) {line : Bytes} {reply : Reply}
    (hunfinished : d.isFinished = false) (hw : d.awaited = some .greeting)
    (hparse : Reply.parse line = .ok reply) (hlast : reply.continues = false)
    (hnext : (d.perform (.line line)).1 =
      (d.reactTo .greeting reply (d.replyText reply) (Decision.of .greeting reply.code)).1) :
    (d.perform (.line line)).1.Acquainted (d.hearing lines (.line line))
      ((d.greetingsBy (.line line)).getLast?.or greeting) := by
  have hpipeline := pipeline_settle hunfinished hw hparse hlast
  have hout := settle_outbound { d with replyTexts := [] } .greeting reply.code
  have hlisted := Decision.listed_of .greeting reply.code
  generalize Decision.of .greeting reply.code = decision at hlisted hnext
  rw [reactTo] at hnext
  generalize settle { d with replyTexts := [] } .greeting reply.code = s
    at hnext hpipeline hout
  cases hlisted with
  | greet =>
    exact acquainted_of_hail (s := { s with phase := .ready, capabilities := .empty }) htidy
      hpipeline hout rfl hnext
  | fail _ refusal =>
    refine .closed ?_
    rw [hnext]
    exact phase_act_fail _ _ _ _ _

/-- A line that leaves the dialogue open keeps it acquainted: it is held, or it completes the reply
to EHLO, or it answers something else. -/
theorem Acquainted.takeLine (h : d.Acquainted lines greeting) (hs : d.Standing due)
    (htidy : d.pipeline.Tidy) (line : Bytes)
    (hopen : (d.perform (.line line)).1.phase ≠ .closed) :
    (d.perform (.line line)).1.Acquainted (d.hearing lines (.line line))
      ((d.greetingsBy (.line line)).getLast?.or greeting) := by
  have hbefore : d.phase ≠ .closed := fun hclosed => hopen (perform_of_closed hclosed _).1
  have hnext : (d.perform (.line line)).1 = (d.takeLine line).1 := rfl
  have hread := d.takeLine_reading line
  generalize d.takeLine line = r at hread hnext
  cases hread with
  | closed hclosed => exact absurd (by simpa [isFinished] using hclosed) hbefore
  | malformed | unasked =>
    rw [hnext] at hopen
    exact absurd (d.fail_phase _ _) hopen
  | held reply awaited _ hparse hw hc => exact h.hold hs htidy hbefore hparse hw hc hnext
  | completed reply awaited hunfinished hparse hw hlast =>
    cases awaited with
    | greeting => exact acquainted_of_greeting htidy hunfinished hw hparse hlast hnext
    | answer verb =>
      have hline : d.Completes line verb reply := ⟨hunfinished, hw, hparse, hlast⟩
      by_cases hehlo : verb = .ehlo
      · subst hehlo
        have hlisted := Decision.listed_of (.answer .ehlo) reply.code
        generalize Decision.of (.answer .ehlo) reply.code = decision at hlisted hnext
        cases hlisted with
        | announce hcode => exact h.understand hs htidy hline hcode
        | retry hcode => exact h.fallBack hs htidy hline hcode
        | fail _ refusal =>
          rw [hnext] at hopen
          exact absurd (phase_act_fail _ _ _ _ _) hopen
      · exact h.goOn hs htidy hline hehlo hopen

/-- A call that brings no line leaves what is on its way, or it resumes with AUTH. -/
theorem pipeline_perform_of_not_line (hline : ∀ line, call ≠ .line line)
    (hencrypted : call ≠ .encrypted) (hopen : (d.perform call).1.phase ≠ .closed) :
    (d.perform call).1.pipeline = d.pipeline ∨
      d.parked = true ∧ ∃ s : Dialogue, s.pipeline = d.pipeline ∧
        (d.perform call).1 = s.send (.auth .plain) := by
  cases call with
  | submit e =>
    refine Or.inl ?_
    rcases d.perform_submit e with ⟨heq, -⟩ | ⟨-, -, requested, asked, heq, -⟩ <;> rw [heq]
  | connected =>
    refine Or.inl ?_
    simp only [perform, connect]
    split <;> rfl
  | line line => exact absurd rfl (hline line)
  | password text =>
    simp only [perform, givePassword]
    split
    · next hresumes =>
      rw [Bool.and_eq_true] at hresumes
      exact Or.inr ⟨hresumes.1,
        { d with password := some text, parked := false, passwordSent := false }, rfl, rfl⟩
    · exact Or.inl rfl
  | encrypted => exact absurd rfl hencrypted
  | cancel => exact absurd d.phase_cancel hopen
  | lost error => exact absurd (d.phase_disconnect error) hopen
  | poll => exact Or.inl rfl

/-- Calls that are neither a line nor the end of a handshake leave what was heard as it is. -/
theorem Acquainted.aside (h : d.Acquainted lines greeting) (hs : d.Standing due)
    (htidy : d.pipeline.Tidy) (hline : ∀ line, call ≠ .line line) (hencrypted : call ≠ .encrypted)
    (hopen : (d.perform call).1.phase ≠ .closed) :
    (d.perform call).1.Acquainted (d.hearing lines call)
      ((d.greetingsBy call).getLast?.or greeting) := by
  have hbefore : d.phase ≠ .closed := fun hclosed => hopen (perform_of_closed hclosed _).1
  have hnothing : d.greetingLine? call = none := by
    cases call with
    | line line => exact absurd rfl (hline line)
    | _ => rfl
  have hcaps := (retains_perform (d := d) hline hencrypted).capabilities_eq
  have hphase : d.phase = .disconnected ∨ d.phase = .connecting →
      (d.perform call).1.phase = .disconnected ∨ (d.perform call).1.phase = .connecting := by
    intro hungreeted
    rcases d.phase_perform_of_not_line hline hopen with ⟨hsame, -⟩ | ⟨-, -, hconnecting⟩
    · rwa [hsame]
    · exact Or.inr hconnecting
  rcases pipeline_perform_of_not_line hline hencrypted hopen with
    hpipeline | ⟨hparked, s, hpipeline, hnext⟩
  · exact h.unaffected hnothing (greetingsBy_eq_nil_of_pipeline_eq htidy hpipeline) hbefore hcaps
      (by rw [hpipeline]) hphase
  · obtain ⟨-, hidle, -⟩ := hs.of_parked hparked ((d.isFinished_eq_false_iff).mpr hbefore)
    have hempty : s.pipeline.verbs = [] := by rw [hpipeline, hidle.verbs_eq]
    have hquiet : (d.perform call).1.NoGreeting := by
      rw [hnext]
      exact (allInFlight_of_verbs_eq_nil hempty).send fun _ => rfl
    refine h.unaffected hnothing (greetingsBy_eq_nil_of_noGreeting hquiet) hbefore hcaps ?_ hphase
    refine iff_of_false (hquiet.notMem_verbs rfl) ?_
    rw [hidle.verbs_eq]
    exact List.not_mem_nil

/-- Each call leaves a dialogue acquainted with the server as far as the call took it. -/
theorem Acquainted.perform (h : d.Acquainted lines greeting) (hs : d.Standing due)
    (htidy : d.pipeline.Tidy) (call : Call) (hdue : call = .encrypted → 0 < due) :
    (d.perform call).1.Acquainted (d.hearing lines call)
      ((d.greetingsBy call).getLast?.or greeting) := by
  by_cases hclosed : (d.perform call).1.phase = .closed
  · exact .closed hclosed
  · by_cases hline : ∃ line, call = .line line
    · obtain ⟨line, rfl⟩ := hline
      exact h.takeLine hs htidy line hclosed
    · by_cases hencrypted : call = .encrypted
      · subst hencrypted
        have hbefore : d.phase ≠ .closed := fun hd => hclosed (perform_of_closed hd _).1
        have hunfinished := (d.isFinished_eq_false_iff).mpr hbefore
        exact acquainted_of_hail (s := { d with encrypted := true, capabilities := .empty }) htidy
          rfl rfl rfl (perform_encrypted hunfinished)
      · exact h.aside hs htidy (fun line heq => hline ⟨line, heq⟩) hencrypted hclosed

end Step

def latestReply (settings : Settings) (calls : List Call) : List Reply :=
  (start settings).heard [] calls

def latestGreeting? (settings : Settings) (calls : List Call) : Option Verb :=
  ((start settings).greetings calls).getLast?

/-- In every run the dialogue is acquainted with the server by the lines of the latest reply to
EHLO. -/
theorem EncryptsWhenDue.acquainted {settings : Settings} {calls : List Call}
    (h : EncryptsWhenDue settings calls) :
    ((start settings).after calls).Acquainted (latestReply settings calls)
      (latestGreeting? settings calls) := by
  refine h.induction (.ungreeted (Or.inl rfl)) ?_
  intro calls call due hs hdue ih
  rw [after_snoc, latestReply, heard_snoc, latestGreeting?, greetings_snoc, List.getLast?_append]
  exact ih.perform hs (tidy_after settings calls) call hdue

/-- A call with which the dialogue turns to encryption, to authentication or to the transaction. It
sends the command, or it waits for the password to do so. -/
def Decides (d : Dialogue) (call : Call) : Prop :=
  (∃ verb ∈ (d.sentBy call).map (·.verb), verb = .startTls ∨ verb = .auth ∨ verb = .mail) ∨
    ((d.perform call).1.parked = true ∧ (d.perform call).1.phase ≠ .closed)

theorem Decides.phase_ne {d : Dialogue} (htidy : d.pipeline.Tidy) {call : Call}
    (h : d.Decides call) : (d.perform call).1.phase ≠ .closed := by
  rcases h with ⟨verb, hmem, -⟩ | ⟨-, hopen⟩
  · cases outgoing htidy call with
    | none _ _ hnone =>
      rw [hnone] at hmem
      cases hmem
    | some _ hopen => exact hopen
  · exact hopen

/-- Nothing is decided as long as nothing but a greeting is on its way. -/
theorem Decides.not_expects {d : Dialogue} {call : Call} (h : d.Decides call) {phase : Phase}
    {verbs : List Verb} (hd : (d.perform call).1.Expects phase false verbs) :
    ¬∀ verb ∈ verbs, verb.isGreeting = true := by
  intro hgreetings
  rcases h with ⟨verb, hmem, hverb⟩ | ⟨hparked, -⟩
  · have hsent := mem_verbs_of_sentBy hmem
    rw [hd.verbs_eq] at hsent
    have hgreeting := hgreetings verb hsent
    rcases hverb with rfl | rfl | rfl <;> cases hgreeting
  · rw [hd.parked_eq] at hparked
    cases hparked

/-- Before the server has greeted nothing is on its way. -/
theorem Standing.of_ungreeted {d : Dialogue} {due : Nat} (h : d.Standing due)
    (hphase : d.phase = .disconnected ∨ d.phase = .connecting) :
    ∃ phase, d.Expects phase false [] := by
  cases h with
  | idle hd => exact ⟨_, hd⟩
  | greeting hd => exact ⟨_, hd⟩
  | opening _ _ hd | parked hd | handshake hd | leaving hd => simp [hd.phase_eq] at hphase
  | sending e c rest he hs hl hf =>
    obtain ⟨phase, verbs, hopen, hd, -⟩ := hf.expects
    rw [hd.phase_eq] at hphase
    rcases hphase with rfl | rfl <;> cases hopen
  | closed _ hclosed => simp [hclosed] at hphase

/-- Whenever a dialogue decides how to go on, the server has presented itself in its reply to the
latest EHLO, and what is known of it is exactly what that reply has announced. -/
theorem presented_of_decides (settings : Settings) (calls : List Call) (call : Call)
    (h : EncryptsWhenDue settings (calls ++ [call]))
    (hdecides : ((start settings).after calls).Decides call) :
    Presented (latestReply settings (calls ++ [call])) (latestGreeting? settings (calls ++ [call]))
      ((start settings).after (calls ++ [call])).capabilities := by
  have hs := h.standing.2
  have hacquainted := h.acquainted
  have hopen := hdecides.phase_ne (tidy_after settings calls)
  rw [after_snoc] at hs hacquainted ⊢
  cases hacquainted with
  | closed hclosed => exact absurd hclosed hopen
  | ungreeted hphase =>
    obtain ⟨phase, hd⟩ := hs.of_ungreeted hphase
    exact absurd (by simp) (hdecides.not_expects hd)
  | listening hmem =>
    obtain ⟨hd, -⟩ := hs.of_greeting hopen rfl hmem
    exact absurd (by simp [Verb.isGreeting]) (hdecides.not_expects hd)
  | presented _ hpresented => exact hpresented

def mixedReply : List Call :=
  conversation .greeting ["220 mx ESMTP", "250-mx", "451-PIPELINING", "250-SIZE 1000"]

/-- Of the line with the other code nothing is known. -/
theorem presented_of_mixedReply :
    EncryptsWhenDue .plain (mixedReply ++ [.line (Utf8.encode "250 BURL imap")]) ∧
    ((start .plain).after mixedReply).Decides (.line (Utf8.encode "250 BURL imap")) ∧
    Presented [⟨250, none, "mx", true⟩, ⟨451, none, "PIPELINING", true⟩,
        ⟨250, none, "SIZE 1000", true⟩, ⟨250, none, "BURL imap", false⟩] (some .ehlo)
      ((start .plain).after
        (mixedReply ++ [.line (Utf8.encode "250 BURL imap")])).capabilities := by
  have hdue : EncryptsWhenDue .plain (mixedReply ++ [.line (Utf8.encode "250 BURL imap")]) :=
    .of_notMem _ (by decide +kernel)
  have hdecides : ((start .plain).after mixedReply).Decides
      (.line (Utf8.encode "250 BURL imap")) := Or.inl ⟨.mail, by decide +kernel, by simp⟩
  have hpresented := presented_of_decides .plain _ _ hdue hdecides
  have hlines : latestReply .plain (mixedReply ++ [.line (Utf8.encode "250 BURL imap")]) =
      [⟨250, none, "mx", true⟩, ⟨451, none, "PIPELINING", true⟩,
        ⟨250, none, "SIZE 1000", true⟩, ⟨250, none, "BURL imap", false⟩] := by decide +kernel
  have hgreeting : latestGreeting? .plain
      (mixedReply ++ [.line (Utf8.encode "250 BURL imap")]) = some .ehlo := by decide +kernel
  rw [hlines, hgreeting] at hpresented
  exact ⟨hdue, hdecides, hpresented⟩

end Dialogue

end SmtpClient
