import SmtpClient.Wire.Pipeline

namespace SmtpClient.Pipeline

def numbered (issued : Nat) : List Command → List (Tag × Command)
  | [] => []
  | c :: later => (issued + 1, c) :: numbered (issued + 1) later

def batchOf (qs : List (Tag × Command)) : Transmit :=
  ⟨qs.flatMap fun q => q.2.render, qs.map fun q => q.1⟩

theorem map_snd_numbered (issued : Nat) (cs : List Command) :
    (numbered issued cs).map Prod.snd = cs := by
  induction cs generalizing issued with
  | nil => rfl
  | cons c later ih => rw [numbered, List.map_cons, ih]

/-- The numbers are consecutive and begin behind those that were issued. -/
theorem map_fst_numbered (issued : Nat) (cs : List Command) :
    (numbered issued cs).map Prod.fst = List.range' (issued + 1) cs.length := by
  induction cs generalizing issued with
  | nil => rfl
  | cons c later ih => rw [numbered, List.map_cons, ih, List.length_cons, List.range'_succ]

/-- The later commands are numbered from where the earlier ones have come to. -/
theorem numbered_append (issued : Nat) (cs later : List Command) :
    numbered issued (cs ++ later) = numbered issued cs ++ numbered (issued + cs.length) later := by
  induction cs generalizing issued with
  | nil => rfl
  | cons c cs ih =>
    have hnext : issued + 1 + cs.length = issued + (c :: cs).length := by
      rw [List.length_cons]
      omega
    rw [List.cons_append, numbered, numbered, ih, hnext, List.cons_append]

theorem length_numbered (issued : Nat) (cs : List Command) :
    (numbered issued cs).length = cs.length := by
  have hlength := congrArg List.length (map_snd_numbered issued cs)
  rwa [List.length_map] at hlength

/-- No number is given twice: each is new, and none is beyond the count. -/
theorem tag_of_mem_numbered {issued : Nat} {cs : List Command} {q : Tag × Command}
    (h : q ∈ numbered issued cs) : issued < q.1 ∧ q.1 ≤ issued + cs.length := by
  have htag : q.1 ∈ (numbered issued cs).map Prod.fst := List.mem_map_of_mem h
  rw [map_fst_numbered, List.mem_range'_1, Nat.add_right_comm] at htag
  exact ⟨htag.1, Nat.le_of_lt_succ htag.2⟩

theorem map_verb_numbered (issued : Nat) (cs : List Command) :
    (numbered issued cs).map (·.2.verb) = cs.map Command.verb := by
  calc
    _ = ((numbered issued cs).map Prod.snd).map Command.verb := by
      rw [List.map_map]
      rfl
    _ = _ := by rw [map_snd_numbered]

theorem map_verb_sent (issued : Nat) (cs : List Command) :
    ((numbered issued cs).map sent).map (·.verb) = cs.map Command.verb := by
  rw [List.map_map]
  exact map_verb_numbered issued cs

/-- A batch holds its commands line after line. -/
theorem data_batchOf_numbered (issued : Nat) (cs : List Command) :
    (batchOf (numbered issued cs)).data = cs.flatMap Command.render := by
  calc
    _ = ((numbered issued cs).map Prod.snd).flatMap Command.render := by
      rw [List.flatMap_map]
      rfl
    _ = _ := by rw [map_snd_numbered]

/-- Commands that are enqueued one after another wait in this order under consecutive numbers. -/
theorem foldl_enqueue (p : Pipeline) (cs : List Command) :
    cs.foldl enqueue p = { p with
      issued := p.issued + cs.length
      waiting := p.waiting ++ numbered p.issued cs } := by
  induction cs generalizing p with
  | nil => simp [numbered]
  | cons c later ih =>
    rw [List.foldl_cons, ih]
    simp [enqueue, numbered, Nat.add_assoc, Nat.add_comm 1]

/-- A batch of more commands is the lines and the tags of both parts. -/
theorem batchOf_append (qs later : List (Tag × Command)) :
    batchOf (qs ++ later) = batchOf qs ++ batchOf later := by
  change _ = Transmit.append (batchOf qs) (batchOf later)
  simp [batchOf, Transmit.append]

theorem batchOf_singleton (q : Tag × Command) : batchOf [q] = transmitOf q := by
  simp [batchOf, transmitOf, Transmit.tagged]

/-- Commands that wait join the batch in their order. -/
theorem sendInto_batchOf (done : List (Tag × Command)) {qs : List (Tag × Command)} (p : Pipeline)
    (h : p.waiting = qs) :
    sendInto (some (batchOf done)) p qs = (some (batchOf (done ++ qs)),
      { p with waiting := [], inFlight := p.inFlight ++ qs.map sent }) := by
  induction qs generalizing done p with
  | nil =>
    obtain ⟨issued, waiting, inFlight⟩ := p
    obtain rfl : waiting = [] := h
    simp [sendInto]
  | cons q later ih =>
    have hjoin : (transmitOf q).joinTo (some (batchOf done)) = batchOf (done ++ [q]) := by
      rw [Transmit.joinTo, ← batchOf_singleton, ← batchOf_append]
    rw [sendInto, hjoin, ih (done ++ [q]) _ rfl]
    simp

/-- The whole loop: the batch of all that waits, which is then in flight. -/
theorem drainAll_eq (p : Pipeline) (h : p.waiting ≠ []) :
    p.drainAll = (some (batchOf p.waiting),
      { p with waiting := [], inFlight := p.inFlight ++ p.waiting.map sent }) := by
  obtain ⟨q, later, hw⟩ := List.exists_cons_of_ne_nil h
  have hfirst : (transmitOf q).joinTo none = batchOf [q] := (batchOf_singleton q).symm
  rw [drainAll, hw, sendInto, hfirst, sendInto_batchOf [q] _ rfl]
  simp

/-- A single drain gives the command that has waited longest. -/
theorem drain_eq_take (p : Pipeline) : p.drain =
    (if p.waiting = [] then none else some (batchOf (p.waiting.take 1)),
      { p with
        waiting := p.waiting.drop 1
        inFlight := p.inFlight ++ (p.waiting.take 1).map sent }) := by
  obtain ⟨issued, waiting, inFlight⟩ := p
  cases waiting with
  | nil => simp [drain]
  | cons q later => simp [drain, batchOf_singleton]

/-- Draining at once gives all that waits in one transmit. -/
theorem drainAll_eq_all (p : Pipeline) : p.drainAll =
    (if p.waiting = [] then none else some (batchOf p.waiting),
      { p with waiting := [], inFlight := p.inFlight ++ p.waiting.map sent }) := by
  by_cases h : p.waiting = []
  · obtain ⟨issued, waiting, inFlight⟩ := p
    obtain rfl : waiting = [] := h
    simp [drainAll, sendInto]
  · rw [if_neg h, drainAll_eq p h]

def verbs (p : Pipeline) : List Verb :=
  p.waiting.map (·.2.verb) ++ p.inFlight.map (·.verb)

theorem mem_verbs_foldl_enqueue (p : Pipeline) (cs : List Command) (verb : Verb) :
    verb ∈ (cs.foldl enqueue p).verbs ↔ verb ∈ p.verbs ∨ verb ∈ cs.map Command.verb := by
  rw [foldl_enqueue, verbs, verbs, List.map_append, map_verb_numbered]
  simp only [List.mem_append]
  exact or_right_comm

theorem mem_verbs_drain (p : Pipeline) (verb : Verb) : verb ∈ p.drain.2.verbs ↔ verb ∈ p.verbs := by
  unfold drain
  split
  · exact Iff.rfl
  · next q later hw =>
    simp only [verbs, hw, sent, List.map_cons, List.map_append, List.map_nil, List.mem_append,
      List.mem_cons, List.not_mem_nil, or_false]
    rw [← or_assoc, or_comm, or_assoc]

/-- Draining only moves commands, from those that wait to those in flight. -/
theorem mem_verbs_drainAll (p : Pipeline) (verb : Verb) :
    verb ∈ p.drainAll.2.verbs ↔ verb ∈ p.verbs := by
  have hsent : (p.waiting.map sent).map (·.verb) = p.waiting.map (·.2.verb) := by
    rw [List.map_map]
    rfl
  rw [drainAll_eq_all, verbs, verbs, List.map_append, hsent]
  simp only [List.map_nil, List.nil_append, List.mem_append]
  exact or_comm

theorem verbs_clear (p : Pipeline) : p.clear.verbs = [] := rfl

/-- A reply takes one command away at most. -/
theorem verbs_acknowledge_subset (p : Pipeline) : p.acknowledge.2.verbs ⊆ p.verbs := by
  intro verb hmem
  rcases List.mem_append.mp hmem with hwaiting | hsent
  · exact List.mem_append_left _ hwaiting
  · exact List.mem_append_right _ (List.map_subset _ (List.tail_sublist _).subset hsent)

theorem mem_verbs_of_awaiting {p : Pipeline} {f : InFlight} (h : p.awaiting = some f) :
    f.verb ∈ p.verbs :=
  List.mem_append_right _ (List.mem_map_of_mem (List.mem_of_head? h))

/-- Whatever the pipeline sends carries a tag. -/
theorem tags_drain (p : Pipeline) : ∀ t ∈ p.drain.1.toList, t.tags ≠ [] := by
  unfold drain
  split
  · simp
  · simp [transmitOf, Transmit.tagged]

/-- A batch is never empty. -/
theorem tags_drainAll (p : Pipeline) : ∀ t ∈ p.drainAll.1.toList, t.tags ≠ [] := by
  rw [drainAll_eq_all]
  split
  · simp
  · next hw => simpa [batchOf] using hw

end SmtpClient.Pipeline
