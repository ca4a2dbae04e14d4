import SmtpClient.Proofs.LineReading

namespace SmtpClient

namespace Bytes

def firstLine (stream : Bytes) : Bytes := stream.lines.headD []

theorem firstLine_of_notMem {stream : Bytes} (h : lf ∉ stream) : stream.firstLine = stream := by
  by_cases hne : stream = []
  · subst hne
    rfl
  · rw [firstLine, lines_of_notMem hne h]
    rfl

theorem firstLine_append {text : Bytes} (h : lf ∉ text) (rest : Bytes) :
    (text ++ lf :: rest).firstLine = text ++ [lf] := by
  rw [firstLine, lines_append_lf h]
  rfl

/-- What a stream begins with before its first LF is shorter than its first line. -/
theorem length_lt_firstLine {before later : Bytes} (h : lf ∉ before)
    (hlf : lf ∈ before ++ later) : before.length < (before ++ later).firstLine.length := by
  have hlater : lf ∈ later := (List.mem_append.mp hlf).resolve_left h
  obtain ⟨text, rest, rfl, htext⟩ := List.eq_append_cons_of_mem hlater
  rw [← List.append_assoc, firstLine_append (by simp [h, htext]), List.length_append,
    List.length_append]
  exact Nat.lt_succ_of_le (Nat.le_add_right _ _)

end Bytes

namespace Inbox

def Overruns (buffer : Bytes) (pieces : List Bytes) : Prop :=
  ∃ before later, pieces = before ++ later ∧ before ≠ [] ∧ Bytes.lf ∉ before.flatten ∧
    lineLimit < (buffer ++ before.flatten).length

theorem not_overruns_nil (buffer : Bytes) : ¬Overruns buffer [] := by
  rintro ⟨before, later, hsplit, hne, -⟩
  exact hne (List.append_eq_nil_iff.mp hsplit.symm).1

theorem overruns_cons_iff (buffer piece : Bytes) (later : List Bytes) :
    Overruns buffer (piece :: later) ↔
      Bytes.lf ∉ piece ∧
        (lineLimit < (buffer ++ piece).length ∨ Overruns (buffer ++ piece) later) := by
  constructor
  · rintro ⟨before, rest, hsplit, hne, hopen, hlong⟩
    obtain ⟨first, before, rfl⟩ := List.exists_cons_of_ne_nil hne
    obtain ⟨rfl, rfl⟩ := List.cons.inj hsplit
    rw [List.flatten_cons, List.mem_append, not_or] at hopen
    rw [List.flatten_cons, ← List.append_assoc] at hlong
    refine ⟨hopen.1, ?_⟩
    by_cases hlast : before = []
    · subst hlast
      rw [List.flatten_nil, List.append_nil] at hlong
      exact Or.inl hlong
    · exact Or.inr ⟨before, rest, rfl, hlast, hopen.2, hlong⟩
  · rintro ⟨hpiece, hlong | ⟨before, rest, rfl, -, hopen, hlong⟩⟩
    · exact ⟨[piece], later, rfl, List.cons_ne_nil _ _, by simpa using hpiece, by simpa using hlong⟩
    · refine ⟨piece :: before, rest, rfl, List.cons_ne_nil _ _, ?_, ?_⟩
      · rw [List.flatten_cons, List.mem_append, not_or]
        exact ⟨hpiece, hopen⟩
      · rwa [List.flatten_cons, ← List.append_assoc]

/-- A read fails exactly where the line is open beyond the limit at the end of some piece. -/
theorem readPieces_eq_error_iff (count : Nat) (buffer : Bytes) (pieces : List Bytes)
    (error : Error) : (readPieces count buffer pieces).1 = .error error ↔
      error = overlong ∧ Overruns buffer pieces := by
  induction pieces generalizing count buffer with
  | nil => simp [readPieces, not_overruns_nil]
  | cons piece later ih =>
    rw [readPieces, overruns_cons_iff]
    split
    · next hlf => simp [hlf]
    · next hlf =>
      split
      · next hlong =>
        constructor
        · intro h
          exact ⟨(Except.error.inj h).symm, hlf, Or.inl hlong⟩
        · rintro ⟨rfl, -⟩
          rfl
      · next hshort => rw [ih, and_iff_right hlf, or_iff_right hshort]

end Inbox

namespace Segmentation

variable {stream : Bytes} (cut : Segmentation stream)

def readFirst : Except Error Nat × Bytes × Inbox := cut.reader.inbox.readLine []

def Rejects : Prop := ∃ text, cut.readFirst.1 = .error (.malformedReply text)

/-- The first line is refused exactly if it overruns on its way in. -/
theorem rejects_iff : cut.Rejects ↔ Inbox.Overruns [] cut.pieces := by
  have hread (error : Error) := Inbox.readPieces_eq_error_iff 0 [] cut.pieces error
  constructor
  · rintro ⟨text, h⟩
    exact ((hread _).mp h).2
  · intro h
    exact ⟨_, (hread _).mpr ⟨rfl, h⟩⟩

/-- The line that is read is the first of the stream. -/
theorem eq_firstLine_of_readFirst {n : Nat} {buffer : Bytes} {inbox : Inbox}
    (h : cut.readFirst = (.ok n, buffer, inbox)) : buffer = stream.firstLine := by
  have hcases := cut.reader.inbox.attempt_cases [] none
  have hunread : cut.reader.inbox.unread = stream := cut.flatten_eq
  have hreturned : cut.reader.inbox.attempt [] none = (some (.ok n), buffer, inbox) := by
    rw [readFirst] at h
    rw [Inbox.attempt, h]
  rw [hreturned, hunread] at hcases
  cases hcases with
  | line text next hopen hstream =>
    rw [hstream, Bytes.firstLine_append hopen]
    rfl
  | ended b text next hopen hstream =>
    rw [hstream, Bytes.firstLine_of_notMem hopen]
    rfl
  | atEnd next hstream =>
    rw [hstream]
    rfl

/-- A line without an end is refused if it is too long, however it arrives. -/
theorem rejects_iff_of_notMem (h : Bytes.lf ∉ stream) :
    cut.Rejects ↔ lineLimit < stream.length := by
  rw [rejects_iff]
  constructor
  · rintro ⟨before, later, hsplit, -, -, hlong⟩
    have hlength := congrArg List.length cut.flatten_eq
    rw [hsplit, List.flatten_append, List.length_append] at hlength
    exact Nat.lt_of_lt_of_le hlong (hlength ▸ Nat.le_add_right _ _)
  · intro hlong
    have hne : cut.pieces ≠ [] := by
      intro hnil
      have hstream := cut.flatten_eq
      rw [hnil] at hstream
      subst hstream
      exact Nat.not_lt_zero _ hlong
    refine ⟨cut.pieces, [], (List.append_nil _).symm, hne, ?_, ?_⟩
    · rwa [cut.flatten_eq]
    · rwa [cut.flatten_eq]

/-- A line with an end is refused only if what comes before its LF is too long. -/
theorem lt_firstLine_of_rejects (hlf : Bytes.lf ∈ stream) (h : cut.Rejects) :
    lineLimit + 1 < stream.firstLine.length := by
  obtain ⟨before, later, hsplit, -, hopen, hlong⟩ := cut.rejects_iff.mp h
  have hstream : before.flatten ++ later.flatten = stream := by
    rw [← List.flatten_append, ← hsplit, cut.flatten_eq]
  rw [← hstream] at hlf ⊢
  have hbefore := Bytes.length_lt_firstLine hopen hlf
  rw [List.nil_append] at hlong
  omega

def whole (hne : stream ≠ []) : Segmentation stream :=
  ⟨[stream], by simpa using hne.symm, by simp⟩

theorem flatten_map_singleton (bytes : Bytes) : (bytes.map fun b => [b]).flatten = bytes := by
  rw [← List.flatMap_def, List.flatMap_singleton']

def bytewise (stream : Bytes) : Segmentation stream :=
  ⟨stream.map fun b => [b], by simp, flatten_map_singleton stream⟩

/-- In one piece no line is refused that has an end. -/
theorem not_rejects_whole (hne : stream ≠ []) (hlf : Bytes.lf ∈ stream) :
    ¬(whole hne).Rejects := by
  rw [rejects_iff, whole, Inbox.overruns_cons_iff]
  exact fun h => h.1 hlf

/-- Byte by byte, a line that is too long is refused before its end comes. -/
theorem rejects_bytewise (hlf : Bytes.lf ∈ stream)
    (hlong : lineLimit + 1 < stream.firstLine.length) : (bytewise stream).Rejects := by
  obtain ⟨text, rest, rfl, hopen⟩ := List.eq_append_cons_of_mem hlf
  rw [Bytes.firstLine_append hopen, List.length_append] at hlong
  rw [rejects_iff]
  refine ⟨text.map fun b => [b], (Bytes.lf :: rest).map fun b => [b], List.map_append, ?_, ?_, ?_⟩
  · rintro hnil
    rw [List.map_eq_nil_iff.mp hnil] at hlong
    exact absurd hlong (by decide)
  · rwa [flatten_map_singleton]
  · rw [List.nil_append, flatten_map_singleton]
    exact Nat.lt_of_succ_lt_succ hlong

/-- All ways of arriving have the same verdict exactly if the first line never ends or has no more
than the limit before its LF. -/
theorem rejects_congr_iff (stream : Bytes) :
    (∀ cut cut' : Segmentation stream, cut.Rejects ↔ cut'.Rejects) ↔
      (Bytes.lf ∈ stream → stream.firstLine.length ≤ lineLimit + 1) := by
  constructor
  · intro hsame hlf
    by_contra hlong
    exact not_rejects_whole (List.ne_nil_of_mem hlf) hlf
      ((hsame _ _).mp (rejects_bytewise hlf (Nat.not_le.mp hlong)))
  · intro hshort cut cut'
    by_cases hlf : Bytes.lf ∈ stream
    · have hnone (cut : Segmentation stream) : ¬cut.Rejects := fun h =>
        Nat.not_lt.mpr (hshort hlf) (cut.lt_firstLine_of_rejects hlf h)
      exact iff_of_false (hnone cut) (hnone cut')
    · rw [cut.rejects_iff_of_notMem hlf, cut'.rejects_iff_of_notMem hlf]

end Segmentation

/-- However a stream arrives, its first line is refused exactly if it is longer than the limit, the
verdict is the same, and no line is returned that is longer. -/
structure KeepsLimit (stream : Bytes) : Prop where
  verdict : ∀ cut : Segmentation stream, cut.Rejects ↔ lineLimit < stream.firstLine.length
  same : ∀ cut cut' : Segmentation stream, cut.Rejects ↔ cut'.Rejects
  returned : ∀ (cut : Segmentation stream) n buffer inbox,
    cut.readFirst = (.ok n, buffer, inbox) → buffer.length ≤ lineLimit

/-- The limit is kept for a stream exactly if its first line is no longer than the limit or never
ends. -/
theorem keepsLimit_iff (stream : Bytes) :
    KeepsLimit stream ↔ (Bytes.lf ∈ stream → stream.firstLine.length ≤ lineLimit) := by
  constructor
  · intro h hlf
    by_contra hlong
    exact Segmentation.not_rejects_whole (List.ne_nil_of_mem hlf) hlf
      ((h.verdict _).mpr (Nat.not_le.mp hlong))
  · intro hshort
    have hverdict (cut : Segmentation stream) :
        cut.Rejects ↔ lineLimit < stream.firstLine.length := by
      by_cases hlf : Bytes.lf ∈ stream
      · refine iff_of_false (fun h => ?_) (Nat.not_lt.mpr (hshort hlf))
        have hlong := cut.lt_firstLine_of_rejects hlf h
        have hle := hshort hlf
        omega
      · rw [cut.rejects_iff_of_notMem hlf, Bytes.firstLine_of_notMem hlf]
    refine ⟨hverdict, fun cut cut' => (hverdict cut).trans (hverdict cut').symm,
      fun cut n buffer inbox hread => ?_⟩
    rw [cut.eq_firstLine_of_readFirst hread]
    refine Nat.not_lt.mp fun hlong => ?_
    obtain ⟨text, hfailed⟩ := (hverdict cut).mpr hlong
    rw [hread] at hfailed
    cases hfailed

def longLine : Bytes := List.replicate (lineLimit + 1) 97 ++ [Bytes.lf]

/-- It is returned if its end comes with the bytes that are beyond the limit. -/
theorem not_keepsLimit_longLine : ¬KeepsLimit longLine := by
  have hlf : Bytes.lf ∈ longLine := List.mem_append_right _ List.mem_cons_self
  have hlong : lineLimit < longLine.firstLine.length := by
    have hopen : Bytes.lf ∉ List.replicate (lineLimit + 1) (97 : UInt8) := fun hmem =>
      absurd (List.eq_of_mem_replicate hmem) (by decide)
    rw [longLine, Bytes.firstLine_append hopen, List.length_append, List.length_replicate]
    exact Nat.lt_succ_of_lt (Nat.lt_succ_self _)
  intro h
  exact Segmentation.not_rejects_whole (List.ne_nil_of_mem hlf) hlf ((h.verdict _).mpr hlong)

end SmtpClient
