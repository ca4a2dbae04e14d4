import SmtpClient.Proofs.CommandLog

namespace SmtpClient.Pipeline

/-- A drain that gives a transmit takes a command away from those that wait. -/
theorem length_waiting_drain {p rest : Pipeline} {t : Transmit} (h : p.drain = (some t, rest)) :
    rest.waiting.length < p.waiting.length := by
  have hrest : rest.waiting = p.waiting.drop 1 := by
    have hdrain := congrArg (fun r => r.2.waiting) h
    rw [drain_eq_take] at hdrain
    exact hdrain.symm
  have hsome : p.waiting ≠ [] := by
    intro hnone
    rw [drain, hnone] at h
    cases h
  have hpos := List.length_pos_iff.mpr hsome
  rw [hrest, List.length_drop]
  omega

/-- Drains until nothing is given any more: the transmits in order, and what is left behind. -/
def drainEach (p : Pipeline) : List Transmit × Pipeline :=
  match _h : p.drain with
  | (none, rest) => ([], rest)
  | (some t, rest) => (t :: rest.drainEach.1, rest.drainEach.2)
  termination_by p.waiting.length
  decreasing_by all_goals exact length_waiting_drain _h

theorem drainEach_nil {p : Pipeline} (h : p.waiting = []) : p.drainEach = ([], p) := by
  have hdrain : p.drain = (none, p) := by rw [drain, h]
  rw [drainEach]
  split
  · next rest hrest =>
    cases hdrain.symm.trans hrest
    rfl
  · next t rest hrest => cases hdrain.symm.trans hrest

/-- One round of draining takes the command that has waited longest, and leaves the later ones. -/
theorem drainEach_cons {p : Pipeline} {q : Tag × Command} {later : List (Tag × Command)}
    (h : p.waiting = q :: later) :
    p.drainEach =
      (transmitOf q :: (drainEach { p with
        waiting := later, inFlight := p.inFlight ++ [sent q] }).1,
        (drainEach { p with waiting := later, inFlight := p.inFlight ++ [sent q] }).2) := by
  have hdrain : p.drain = (some (transmitOf q), { p with
      waiting := later, inFlight := p.inFlight ++ [sent q] }) := by rw [drain, h]
  rw [drainEach]
  split
  · next rest hrest => cases hdrain.symm.trans hrest
  · next t rest hrest =>
    cases hdrain.symm.trans hrest
    rfl

/-- One after another the commands that wait are sent, each with a transmit of its own. -/
theorem drainEach_eq (p : Pipeline) :
    p.drainEach = (p.waiting.map transmitOf,
      { p with waiting := [], inFlight := p.inFlight ++ p.waiting.map sent }) := by
  -- on the commands that wait, for any commands that are in flight already
  generalize hw : p.waiting = waiting
  induction waiting generalizing p with
  | nil =>
    obtain ⟨issued, _, inFlight⟩ := p
    subst hw
    simp [drainEach_nil]
  | cons q later ih =>
    have hlater := ih { p with waiting := later, inFlight := p.inFlight ++ [sent q] } rfl
    rw [drainEach_cons hw, hlater]
    simp

theorem joined_map_transmitOf (qs : List (Tag × Command)) :
    joined (qs.map transmitOf) = batchOf qs := by
  induction qs with
  | nil => rfl
  | cons q later ih =>
    calc
      _ = joined [transmitOf q] ++ joined (later.map transmitOf) :=
        joined_append [transmitOf q] (later.map transmitOf)
      _ = batchOf [q] ++ batchOf later := by
        rw [ih, batchOf_singleton]
        simp [joined]
      _ = batchOf (q :: later) := (batchOf_append [q] later).symm

structure DrainsAlike (p : Pipeline) : Prop where
  none_iff : p.drainAll.1 = none ↔ p.waiting = []
  data_eq : ∀ t ∈ p.drainAll.1, t.data = p.drainEach.1.flatMap (·.data)
  tags_eq : ∀ t ∈ p.drainAll.1, t.tags = p.drainEach.1.flatMap (·.tags)
  waiting_eq : p.drainAll.2.waiting = p.drainEach.2.waiting
  inFlight_eq : p.drainAll.2.inFlight = p.drainEach.2.inFlight
  issued_eq : p.drainAll.2.issued = p.drainEach.2.issued

/-- A batch is what the single transmits make together, in every state of the pipeline. -/
theorem drainsAlike (p : Pipeline) : p.DrainsAlike := by
  have hone : ∀ t ∈ p.drainAll.1, t = joined p.drainEach.1 := by
    intro t ht
    rw [drainEach_eq, joined_map_transmitOf]
    rw [drainAll_eq_all] at ht
    split at ht
    · cases ht
    · exact (Option.some.inj ht).symm
  have hrest : p.drainAll.2 = p.drainEach.2 := by rw [drainAll_eq_all, drainEach_eq]
  refine ⟨?_, ?_, ?_, ?_, ?_, ?_⟩
  · rw [drainAll_eq_all]
    split <;> simp_all
  · intro t ht
    rw [hone t ht]
    rfl
  · intro t ht
    rw [hone t ht]
    rfl
  · rw [hrest]
  · rw [hrest]
  · rw [hrest]

end SmtpClient.Pipeline
