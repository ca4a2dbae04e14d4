import SmtpClient.Proofs.Credentials

namespace SmtpClient.Dialogue

def ParkedInWant (d : Dialogue) : Prop :=
  d.parked = true → d.phase ≠ .closed → d.password = none

theorem Arranges.parkedInWant {s : Dialogue} {r : Outcome} (h : s.Arranges r)
    (hw : s.parked = true → s.password = none) (hparked : r.1.parked = true) :
    r.1.password = none := by
  cases h with
  | aloof h =>
    rw [h.password_eq]
    exact hw (h.parked_of hparked)
  | parks _ _ hp _ h | asks _ _ hp _ h =>
    rw [h]
    exact hp
  | authenticates _ _ _ h =>
    rw [h] at hparked ⊢
    exact hw hparked

/-- A dialogue becomes parked only without a password, and one that is given it goes on. -/
theorem Deals.parkedInWant {d : Dialogue} {call : Call} {r : Outcome} (h : d.Deals call r)
    (hopen : d.phase ≠ .closed) (hw : d.parked = true → d.password = none)
    (hparked : r.1.parked = true) : r.1.password = none := by
  cases h with
  | follows s hs h =>
    exact h.parkedInWant (fun hp => hs.password_eq.trans (hw (hs.parked_eq ▸ hp))) hparked
  | accepted f s hs _ _ h =>
    have hkept : r.1.password = s.password := h.password_eq
    rw [hkept, hs.password_eq]
    exact hw (hs.parked_eq ▸ h.parked_of hparked)
  | learns text _ hidle h =>
    rw [h] at hparked
    rcases hidle with hunparked | hclosed
    · exact absurd hparked (by simp [hunparked])
    · exact absurd hclosed hopen
  | resumes text _ _ _ h =>
    rw [h] at hparked
    cases hparked
  | requests e _ _ _ _ _ h | responds f password _ _ _ _ h | polls _ h =>
    rw [h] at hparked ⊢
    exact hw hparked

/-- A dialogue is parked by its want of the password, and goes on when it is given one. -/
theorem ParkedInWant.perform {d : Dialogue} (hw : d.ParkedInWant) (call : Call) :
    (d.perform call).1.ParkedInWant := by
  intro hparked hopen
  have hopen' : d.phase ≠ .closed := fun hclosed => hopen (perform_of_closed hclosed call).1
  exact (d.deals call).parkedInWant hopen' (fun hp => hw hp hopen') hparked

/-- In every run, whoever is parked does not know the password. -/
theorem parkedInWant_after (settings : Settings) (calls : List Call) :
    ((start settings).after calls).ParkedInWant := by
  induction calls using List.reverseRecOn with
  | nil => exact fun hparked => by cases hparked
  | append_singleton calls call ih =>
    rw [after_snoc]
    exact ih.perform call

inductive Wait where
  | reply
  | password
  | handshake

/-- Whether a run waits for this: a reply is awaited, or the dialogue is parked, with nothing in
flight, because it has no password, or it has asked for the encryption handshake more often than the
connection has become encrypted. -/
def WaitsFor (settings : Settings) (calls : List Call) : Wait → Prop
  | .reply => ((start settings).after calls).awaited.isSome = true
  | .password => ((start settings).after calls).parked = true ∧
      ((start settings).after calls).pipeline.inFlight = [] ∧
      ((start settings).after calls).password = none
  | .handshake =>
    calls.count .encrypted < ((start settings).events calls).count .encryptionDue

/-- The three ways in which a dialogue in progress can stand. -/
theorem Standing.waits {d : Dialogue} {due : Nat} (h : d.Standing due)
    (hphase : d.phase ∈ [.connecting, .ready, .pipelining]) :
    (d.awaited.isSome = true ∧ d.parked = false ∧ due = 0) ∨
    (d.awaited = none ∧ d.parked = true ∧ d.pipeline.inFlight = [] ∧ due = 0) ∨
    (d.awaited = none ∧ d.parked = false ∧ due = 1) := by
  cases h with
  | idle hd => simp [hd.phase_eq] at hphase
  | closed _ hclosed => simp [hclosed] at hphase
  | greeting hd => exact Or.inl ⟨by rw [hd.awaited_eq_greeting]; rfl, hd.parked_eq, rfl⟩
  | opening verb hv hd =>
    exact Or.inl ⟨by rw [hd.awaited_eq_answer (by simp)]; rfl, hd.parked_eq, rfl⟩
  | leaving hd =>
    exact Or.inl ⟨by rw [hd.awaited_eq_answer (by simp)]; rfl, hd.parked_eq, rfl⟩
  | sending e c rest he hs hl hf =>
    obtain ⟨phase, verbs, -, hd, -⟩ := hf.expects
    exact Or.inl ⟨by rw [hf.awaited_eq]; rfl, hd.parked_eq, rfl⟩
  | parked hd =>
    have hnone : d.pipeline.inFlight = [] := List.map_eq_nil_iff.mp hd.inFlight_eq
    exact Or.inr (Or.inl ⟨hd.awaited_eq_none (by simp), hd.parked_eq, hnone, rfl⟩)
  | handshake hd =>
    exact Or.inr (Or.inr ⟨hd.awaited_eq_none (by simp), hd.parked_eq, rfl⟩)

/-- From the connection to its end a run waits for one thing, and for one only. -/
theorem existsUnique_waitsFor (settings : Settings) (calls : List Call)
    (h : EncryptsWhenDue settings calls)
    (hphase : ((start settings).after calls).phase ∈ [.connecting, .ready, .pipelining]) :
    ∃! wait, WaitsFor settings calls wait := by
  obtain ⟨hle, hs⟩ := h.standing
  have hopen : ((start settings).after calls).phase ≠ .closed := by
    intro hclosed
    simp [hclosed] at hphase
  rcases hs.waits hphase with ⟨hw, hp, hdue⟩ | ⟨hw, hp, hnone, hdue⟩ | ⟨hw, hp, hdue⟩
  · refine ⟨.reply, hw, ?_⟩
    intro wait hwait
    cases wait with
    | reply => rfl
    | password => simp [WaitsFor, hp] at hwait
    | handshake =>
      rw [WaitsFor] at hwait
      omega
  · refine ⟨.password, ⟨hp, hnone, parkedInWant_after settings calls hp hopen⟩, ?_⟩
    intro wait hwait
    cases wait with
    | reply => simp [WaitsFor, hw] at hwait
    | password => rfl
    | handshake =>
      rw [WaitsFor] at hwait
      omega
  · have hlt : calls.count .encrypted < ((start settings).events calls).count .encryptionDue := by
      omega
    refine ⟨.handshake, hlt, ?_⟩
    intro wait hwait
    cases wait with
    | reply => simp [WaitsFor, hw] at hwait
    | password => simp [WaitsFor, hp] at hwait
    | handshake => rfl

def sessionToPassword : List Call :=
  .submit .greeting :: .connected ::
    replies ["220 mx ESMTP", "250-mx", "250 STARTTLS", "220 go ahead"] ++
    .encrypted :: replies ["250-mx", "250 AUTH PLAIN"]

/-- Parked, a dialogue waits for the password and for nothing else. -/
theorem existsUnique_waitsFor_of_unauthenticated :
    EncryptsWhenDue .guarded sessionToPassword ∧
      ((start .guarded).after sessionToPassword).phase ∈ [.connecting, .ready, .pipelining] ∧
      WaitsFor .guarded sessionToPassword .password ∧
      ∃! wait, WaitsFor .guarded sessionToPassword wait := by
  have hdue : EncryptsWhenDue .guarded sessionToPassword := by decide +kernel
  have hphase : ((start .guarded).after sessionToPassword).phase ∈
      [.connecting, .ready, .pipelining] := by decide +kernel
  exact ⟨hdue, hphase, ⟨by decide +kernel, by decide +kernel, by decide +kernel⟩,
    existsUnique_waitsFor _ _ hdue hphase⟩

end SmtpClient.Dialogue
