import SmtpClient.Proofs.Exchange

namespace SmtpClient.Dialogue

structure Continues (d next : Dialogue) : Prop where
  settings_eq : next.settings = d.settings
  envelope_eq : next.envelope = d.envelope
  outbound_extends : d.outbound <+: next.outbound
  succeeded_of : d.succeeded = true → next.succeeded = true

theorem Continues.trans {d next last : Dialogue} (h : d.Continues next) (h' : next.Continues last) :
    d.Continues last :=
  ⟨h'.settings_eq.trans h.settings_eq, h'.envelope_eq.trans h.envelope_eq,
    h.outbound_extends.trans h'.outbound_extends, fun hs => h'.succeeded_of (h.succeeded_of hs)⟩

/-- A step that puts out no body takes nothing back. -/
theorem Bodiless.continues {d : Dialogue} {r : Outcome} (h : d.Bodiless r) : d.Continues r.1 := by
  obtain ⟨new, hnew, -⟩ := h.withholds
  exact ⟨h.settings_eq, h.envelope_eq, ⟨new, hnew.symm⟩, fun hs => h.succeeded_eq.trans hs⟩

theorem continues_succeed (d : Dialogue) : d.Continues d.succeed.1 :=
  ⟨rfl, rfl, List.prefix_append _ _, fun _ => rfl⟩

theorem continues_sendBody (d : Dialogue) : d.Continues d.sendBody.1 := by
  unfold sendBody
  split
  · exact ⟨rfl, rfl, List.prefix_append _ _, id⟩
  · exact (d.bodiless_fail _ _).continues

/-- A line takes nothing back, whatever it has to do with the body. -/
theorem Exchange.continues {d : Dialogue} {line : Bytes} {r : Outcome} (h : d.Exchange line r) :
    d.Continues r.1 := by
  cases h with
  | aside _ _ h => exact h.continues
  | goAhead _ h =>
    have hmark : d.Continues { d with replyTexts := [] } := ⟨rfl, rfl, List.prefix_rfl, id⟩
    rw [h]
    exact hmark.trans (continues_sendBody _)
  | taken _ s hs h =>
    rw [h]
    exact hs.continues.trans s.continues_succeed
  | reference _ _ s hs h =>
    rw [h]
    exact hs.continues.trans s.continues_succeed

/-- An envelope that was taken stays in every call. -/
theorem envelope_perform (d : Dialogue) (call : Call) (e : Envelope) (h : d.envelope = some e) :
    (d.perform call).1.envelope = some e := by
  cases d.effect call with
  | submit e' =>
    rcases d.perform_submit e' with ⟨heq, -⟩ | ⟨hnone, -⟩
    · rw [heq, h]
    · rw [hnone] at h
      cases h
  | line line hline => exact hline.continues.envelope_eq.trans h
  | poll => exact h
  | aside _ _ haside => exact haside.envelope_eq.trans h

theorem envelope_after {d : Dialogue} {e : Envelope} (calls : List Call)
    (h : d.envelope = some e) : (d.after calls).envelope = some e := by
  induction calls using List.reverseRecOn with
  | nil => exact h
  | append_singleton calls call ih => rw [after_snoc, envelope_perform _ call e ih]

theorem settings_perform (d : Dialogue) (call : Call) :
    (d.perform call).1.settings = d.settings := by
  cases d.effect call with
  | submit e =>
    rcases d.perform_submit e with ⟨heq, -⟩ | ⟨-, -, requested, asked, heq, -⟩ <;> rw [heq]
  | line line hline => exact hline.continues.settings_eq
  | poll => rfl
  | aside _ _ haside => exact haside.settings_eq

/-- The settings of a run are those that it began with. -/
theorem settings_after (settings : Settings) (calls : List Call) :
    ((start settings).after calls).settings = settings := by
  induction calls using List.reverseRecOn with
  | nil => rfl
  | append_singleton calls call ih => rw [after_snoc, settings_perform, ih]

/-- A success is not taken back. -/
theorem succeeded_perform (d : Dialogue) (call : Call) (h : d.succeeded = true) :
    (d.perform call).1.succeeded = true := by
  cases d.effect call with
  | submit e =>
    rcases d.perform_submit e with ⟨heq, -⟩ | ⟨-, -, requested, asked, heq, -⟩
    · rw [heq, h]
    · rw [heq]
      exact h
  | line line hline => exact hline.continues.succeeded_of h
  | poll => exact h
  | aside _ _ haside => exact haside.succeeded_eq.trans h

/-- A call only adds behind what waits to be written. -/
theorem outbound_extends_perform (d : Dialogue) (call : Call) (hpoll : call ≠ .poll) :
    d.outbound <+: (d.perform call).1.outbound := by
  cases d.effect call with
  | submit e =>
    have hsame : (d.perform (.submit e)).1.outbound = d.outbound := by
      rcases d.perform_submit e with ⟨heq, -⟩ | ⟨-, -, requested, asked, heq, -⟩ <;> rw [heq]
    exact hsame ▸ List.prefix_rfl
  | line line hline => exact hline.continues.outbound_extends
  | poll => exact absurd rfl hpoll
  | aside _ _ haside => exact haside.continues.outbound_extends

/-- What waits after a call is what waited before and what the call adds. -/
theorem outbound_perform (d : Dialogue) (call : Call) (hpoll : call ≠ .poll) :
    (d.perform call).1.outbound = d.outbound ++ d.outputOf call := by
  rw [outputOf]
  exact List.prefix_iff_eq_append.mp (d.outbound_extends_perform call hpoll) |>.symm

/-- As long as nothing is polled, what waits only grows. -/
theorem outbound_extends_after (d : Dialogue) {calls : List Call} (h : .poll ∉ calls) :
    d.outbound <+: (d.after calls).outbound := by
  induction calls generalizing d with
  | nil => exact List.prefix_rfl
  | cons call later ih =>
    rw [List.mem_cons, not_or] at h
    exact (d.outbound_extends_perform call (Ne.symm h.1)).trans (ih _ h.2)

theorem outputOf_eq {d : Dialogue} {call : Call} {new : List Transmit}
    (h : (d.perform call).1.outbound = d.outbound ++ new) : d.outputOf call = new := by
  rw [outputOf, h, List.drop_left]

/-- A poll moves what waits to what was taken, and adds nothing. -/
theorem outputOf_poll (d : Dialogue) : d.outputOf .poll = [] := by
  apply List.drop_eq_nil_of_le
  simp only [perform, poll, List.length_tail]
  omega

theorem transmit_perform (d : Dialogue) (call : Call) (hpoll : call ≠ .poll) :
    (d.perform call).2.transmit = none := by
  cases call with
  | submit e =>
    simp only [perform]
    split <;> rfl
  | poll => exact absurd rfl hpoll
  | _ => rfl

/-- What a run has put out grows by what its last call puts out. -/
theorem putOut_snoc (d : Dialogue) (calls : List Call) (call : Call) :
    d.putOut (calls ++ [call]) = d.putOut calls ++ (d.after calls).outputOf call := by
  have htaken : (d.run (calls ++ [call])).2.filterMap (·.transmit) =
      (d.run calls).2.filterMap (·.transmit) ++
        ((d.after calls).perform call).2.transmit.toList := by
    rw [run_append, List.filterMap_append]
    congr 1
  rw [putOut, htaken, after_snoc, putOut, List.append_assoc, List.append_assoc]
  congr 1
  by_cases hpoll : call = .poll
  · subst hpoll
    rw [outputOf_poll, List.append_nil]
    simp only [perform, poll]
    cases (d.after calls).outbound <;> rfl
  · rw [transmit_perform _ _ hpoll, outbound_perform _ _ hpoll]
    rfl

/-- Whatever a run has put out was put out by one of its calls. -/
theorem occurs_of_mem_putOut {settings : Settings} {calls : List Call} {t : Transmit}
    (h : t ∈ (start settings).putOut calls) :
    Occurs calls fun before call => t ∈ ((start settings).after before).outputOf call := by
  induction calls using List.reverseRecOn with
  | nil => cases h
  | append_singleton calls call ih =>
    rw [putOut_snoc] at h
    rw [occurs_snoc_iff]
    rcases List.mem_append.mp h with hearlier | hlast
    · exact Or.inl (ih hearlier)
    · exact Or.inr hlast

end SmtpClient.Dialogue
