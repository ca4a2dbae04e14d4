import SmtpClient.Network.LineReader
import SmtpClient.Proofs.Framing

/-!
Lines read from a stream that arrives in pieces, by calls that may be given up while they wait and
are made again with the same buffer. However the stream is cut, and wherever calls are given up,
what was returned, what stands in the buffer and what is unread are the stream, and the lines that
are returned are the lines of the stream.
-/
namespace SmtpClient

namespace Bytes

/-- Bytes without LF belong to the first line of what they begin. -/
theorem lines_append_of_notMem {text : Bytes} (hne : text ≠ []) (h : lf ∉ text) (rest : Bytes) :
    lines (text ++ rest) = (text ++ rest.lines.headD []) :: rest.lines.tail := by
  induction text with
  | nil => exact absurd rfl hne
  | cons b text ih =>
    rw [List.mem_cons, not_or] at h
    rw [List.cons_append, lines_cons_of_ne (Ne.symm h.1)]
    by_cases htext : text = []
    · subst htext
      rfl
    · rw [ih htext h.2]
      rfl

theorem lines_of_notMem {text : Bytes} (hne : text ≠ []) (h : lf ∉ text) :
    text.lines = [text] := by
  have hlines := lines_append_of_notMem hne h []
  rw [List.append_nil] at hlines
  rw [hlines]
  exact congrArg (· :: []) (List.append_nil text)

/-- The first line ends at the first LF. -/
theorem lines_append_lf {text : Bytes} (h : lf ∉ text) (rest : Bytes) :
    lines (text ++ lf :: rest) = (text ++ [lf]) :: rest.lines := by
  have hline : IsLine (text ++ [lf]) := ⟨text, h, rfl⟩
  have hlines := lines_line_append hline rest
  rwa [List.append_assoc, List.singleton_append] at hlines

def completeLines (stream : Bytes) : List Bytes := stream.lines.filter (lf ∈ ·)

theorem completeLines_of_notMem {text : Bytes} (h : lf ∉ text) : text.completeLines = [] := by
  by_cases hne : text = []
  · subst hne
    rfl
  · rw [completeLines, lines_of_notMem hne h]
    simp [h]

/-- A line is complete with the first LF, and after it come the complete lines of the rest. -/
theorem completeLines_append {text : Bytes} (h : lf ∉ text) (rest : Bytes) :
    (text ++ lf :: rest).completeLines = (text ++ [lf]) :: rest.completeLines := by
  rw [completeLines, lines_append_lf h, List.filter_cons_of_pos (by simp)]
  rfl

end Bytes

namespace Inbox

def unread (inbox : Inbox) : Bytes := inbox.rest ++ inbox.pieces.flatten

def pending (inbox : Inbox) : List Bytes :=
  if inbox.rest = [] then inbox.pieces else inbox.rest :: inbox.pieces

theorem flatten_pending (inbox : Inbox) : inbox.pending.flatten = inbox.unread := by
  unfold pending unread
  split
  · next h => rw [h, List.nil_append]
  · rfl

def overlong : Error := .malformedReply s!"reply line exceeds {lineLimit} bytes"

theorem through_append {text : Bytes} (h : Bytes.lf ∉ text) (rest : Bytes) :
    through (text ++ Bytes.lf :: rest) = text ++ [Bytes.lf] := by
  have hrun : ∀ b ∈ text, decide (b ≠ Bytes.lf) = true := fun b hb =>
    decide_eq_true fun heq => h (heq ▸ hb)
  rw [through, List.takeWhile_append_of_pos hrun, List.dropWhile_append_of_pos hrun]
  simp

/-- Reads from pieces as `readPieces` does, but waits only so many times: a call that has to wait
once more is given up. -/
def readWithin : Nat → Nat → Bytes → List Bytes → Option (Except Error Nat) × Bytes × Inbox
  | 0, _, buffer, pieces => (none, buffer, ⟨[], pieces⟩)
  | _ + 1, count, buffer, [] => (some (.ok count), buffer, ⟨[], []⟩)
  | patience + 1, count, buffer, piece :: later =>
    if Bytes.lf ∈ piece then
      (some (.ok (count + (through piece).length)), buffer ++ through piece,
        ⟨piece.drop (through piece).length, later⟩)
    else if lineLimit < (buffer ++ piece).length then
      (some (.error overlong), buffer ++ piece, ⟨[], later⟩)
    else readWithin patience (count + piece.length) (buffer ++ piece) later

/-- A call that can wait for all there is to come is never given up. -/
theorem readWithin_of_lt {patience : Nat} {pieces : List Bytes} (h : pieces.length < patience)
    (count : Nat) (buffer : Bytes) :
    readWithin patience count buffer pieces =
      (some (readPieces count buffer pieces).1, (readPieces count buffer pieces).2) := by
  induction pieces generalizing patience count buffer with
  | nil =>
    obtain ⟨patience, rfl⟩ := Nat.exists_eq_succ_of_ne_zero (Nat.ne_zero_of_lt h)
    rfl
  | cons piece later ih =>
    obtain ⟨patience, rfl⟩ := Nat.exists_eq_succ_of_ne_zero (Nat.ne_zero_of_lt h)
    rw [readWithin, readPieces]
    split
    · rfl
    · split
      · rfl
      · exact ih (Nat.lt_of_succ_lt_succ h) _ _

def attempt (inbox : Inbox) (buffer : Bytes) :
    Option Nat → Option (Except Error Nat) × Bytes × Inbox
  | none => (some (inbox.readLine buffer).1, (inbox.readLine buffer).2)
  | some patience => readWithin patience 0 buffer inbox.pending

inductive Attempt (buffer unread : Bytes) : Option (Except Error Nat) × Bytes × Inbox → Prop
  | line (text : Bytes) (next : Inbox) (hopen : Bytes.lf ∉ text)
    (hunread : unread = text ++ Bytes.lf :: next.unread) :
    Attempt buffer unread (some (.ok (text.length + 1)), buffer ++ text ++ [Bytes.lf], next)
  | ended (b : UInt8) (text : Bytes) (next : Inbox) (hopen : Bytes.lf ∉ b :: text)
    (hunread : unread = b :: text) (hnext : next.unread = []) :
    Attempt buffer unread (some (.ok (text.length + 1)), buffer ++ b :: text, next)
  | atEnd (next : Inbox) (hunread : unread = []) (hnext : next.unread = []) :
    Attempt buffer unread (some (.ok 0), buffer, next)
  | failed (text : Bytes) (next : Inbox) (hopen : Bytes.lf ∉ text)
    (hlong : lineLimit < (buffer ++ text).length) (hunread : unread = text ++ next.unread) :
    Attempt buffer unread (some (.error overlong), buffer ++ text, next)
  | givenUp (text : Bytes) (next : Inbox) (hopen : Bytes.lf ∉ text)
    (hunread : unread = text ++ next.unread) :
    Attempt buffer unread (none, buffer ++ text, next)

/-- What a call has read so far goes before the pieces that it still meets. -/
theorem attempt_readWithin (patience : Nat) (buffer : Bytes) {text : Bytes}
    (hopen : Bytes.lf ∉ text) (pieces : List Bytes) :
    Attempt buffer (text ++ pieces.flatten)
      (readWithin patience text.length (buffer ++ text) pieces) := by
  induction pieces generalizing patience text with
  | nil =>
    cases patience with
    | zero => exact .givenUp text ⟨[], []⟩ hopen rfl
    | succ patience =>
      rw [List.flatten_nil, List.append_nil]
      cases text with
      | nil =>
        rw [List.append_nil]
        exact .atEnd ⟨[], []⟩ rfl rfl
      | cons b text => exact .ended b text ⟨[], []⟩ hopen rfl rfl
  | cons piece later ih =>
    cases patience with
    | zero => exact .givenUp text ⟨[], piece :: later⟩ hopen rfl
    | succ patience =>
      rw [readWithin]
      split
      · next hlf =>
        obtain ⟨before, after, rfl, hbefore⟩ := List.eq_append_cons_of_mem hlf
        have hline : Bytes.lf ∉ text ++ before := by simp [hopen, hbefore]
        have hread : Attempt buffer (text ++ ((before ++ Bytes.lf :: after) :: later).flatten) _ :=
          .line (text ++ before) ⟨after, later⟩ hline (by simp [unread])
        simpa [through_append hbefore, Nat.add_assoc] using hread
      · next hlf =>
        have hmore : Bytes.lf ∉ text ++ piece := by simp [hopen, hlf]
        rw [List.append_assoc, List.flatten_cons, ← List.append_assoc text]
        split
        · next hlong => exact .failed (text ++ piece) ⟨[], later⟩ hmore hlong rfl
        · rw [← List.length_append]
          exact ih patience hmore

/-- A call ends in one of the ways of `Attempt`, whatever it meets and however long it waits. -/
theorem attempt_cases (inbox : Inbox) (buffer : Bytes) (patience : Option Nat) :
    Attempt buffer inbox.unread (inbox.attempt buffer patience) := by
  have hwithin (patience : Nat) :
      Attempt buffer inbox.unread (readWithin patience 0 buffer inbox.pending) := by
    have h := attempt_readWithin patience buffer List.not_mem_nil inbox.pending
    rwa [flatten_pending, List.nil_append, List.append_nil] at h
  cases patience with
  | none =>
    have h := hwithin (inbox.pending.length + 1)
    rwa [readWithin_of_lt (Nat.lt_succ_self _)] at h
  | some patience => exact hwithin patience

end Inbox

structure Segmentation (stream : Bytes) where
  pieces : List Bytes
  nonempty : [] ∉ pieces
  flatten_eq : pieces.flatten = stream

structure Reader where
  inbox : Inbox
  buffer : Bytes
  lines : List Bytes

namespace Reader

def ahead (r : Reader) : Bytes := r.buffer ++ r.inbox.unread

def attempt (r : Reader) (patience : Option Nat) : Reader :=
  match r.inbox.attempt r.buffer patience with
  | (some (.ok (_ + 1)), buffer, inbox) => ⟨inbox, [], r.lines ++ [buffer]⟩
  | (_, buffer, inbox) => ⟨inbox, buffer, r.lines⟩

def after (r : Reader) (calls : List (Option Nat)) : Reader := calls.foldl attempt r

theorem after_snoc (r : Reader) (calls : List (Option Nat)) (patience : Option Nat) :
    r.after (calls ++ [patience]) = (r.after calls).attempt patience := by
  rw [after, List.foldl_append]
  rfl

structure Keeps (stream : Bytes) (r : Reader) : Prop where
  lines_eq : stream.lines = r.lines ++ r.ahead.lines
  buffer_open : Bytes.lf ∉ r.buffer

/-- No call takes a line away or adds one: what it has read stands in the buffer or was returned. -/
theorem Keeps.attempt {stream : Bytes} {r : Reader} (h : r.Keeps stream) (patience : Option Nat) :
    (r.attempt patience).Keeps stream := by
  obtain ⟨hlines, hbuffer⟩ := h
  have hcases := r.inbox.attempt_cases r.buffer patience
  rw [Reader.attempt]
  rw [ahead] at hlines
  generalize r.inbox.attempt r.buffer patience = outcome at hcases ⊢
  cases hcases with
  | line text next hopen hunread =>
    have hline : Bytes.IsLine (r.buffer ++ text ++ [Bytes.lf]) :=
      ⟨r.buffer ++ text, by simp [hbuffer, hopen], rfl⟩
    have hahead := Bytes.lines_line_append hline next.unread
    refine ⟨?_, List.not_mem_nil⟩
    rw [hlines, hunread]
    simpa [ahead] using hahead
  | ended b text next hopen hunread hnext =>
    have hahead : (r.buffer ++ b :: text).lines = [r.buffer ++ b :: text] :=
      Bytes.lines_of_notMem (by simp) (by simpa [hbuffer] using hopen)
    refine ⟨?_, List.not_mem_nil⟩
    rw [hlines, hunread, hahead, ahead, hnext]
    exact (List.append_nil _).symm
  | atEnd next hunread hnext =>
    refine ⟨?_, hbuffer⟩
    rw [hlines, hunread, ahead, hnext]
  | failed text next hopen _ hunread | givenUp text next hopen hunread =>
    refine ⟨?_, by simp [hbuffer, hopen]⟩
    rw [hlines, hunread, ahead, List.append_assoc]

/-- Nothing is lost in any sequence of calls, by induction from its end. -/
theorem Keeps.after {stream : Bytes} {r : Reader} (h : r.Keeps stream) (calls : List (Option Nat)) :
    (r.after calls).Keeps stream := by
  induction calls using List.reverseRecOn with
  | nil => exact h
  | append_singleton calls patience ih =>
    rw [after_snoc]
    exact ih.attempt patience

def left (r : Reader) : List Bytes := r.ahead.completeLines

theorem Keeps.completeLines_eq {stream : Bytes} {r : Reader} (h : r.Keeps stream) :
    stream.completeLines = r.lines.filter (Bytes.lf ∈ ·) ++ r.left := by
  rw [Bytes.completeLines, h.lines_eq, List.filter_append]
  rfl

/-- What was returned, what is in the buffer and what is unread are the stream, in this order. -/
theorem Keeps.stream_eq {stream : Bytes} {r : Reader} (h : r.Keeps stream) :
    r.lines.flatten ++ r.buffer ++ r.inbox.unread = stream := by
  rw [← Bytes.flatten_lines stream, h.lines_eq, List.flatten_append, Bytes.flatten_lines, ahead,
    List.append_assoc]

/-- A call fails only on a line that is too long. -/
theorem Keeps.exists_long {stream : Bytes} {r : Reader} (h : r.Keeps stream)
    {patience : Option Nat} {error : Error} {buffer : Bytes} {inbox : Inbox}
    (hfailed : r.inbox.attempt r.buffer patience = (some (.error error), buffer, inbox)) :
    error = Inbox.overlong ∧ ∃ line ∈ stream.lines, lineLimit < line.length := by
  have hcases := r.inbox.attempt_cases r.buffer patience
  rw [hfailed] at hcases
  cases hcases with
  | failed text next hopen hlong hunread =>
    have hne : r.buffer ++ text ≠ [] := by
      intro hnil
      rw [hnil] at hlong
      exact Nat.not_lt_zero _ hlong
    have hahead : r.ahead = r.buffer ++ text ++ inbox.unread := by
      rw [ahead, hunread, List.append_assoc]
    have hfirst := Bytes.lines_append_of_notMem hne (by simp [h.buffer_open, hopen]) inbox.unread
    have hmem : r.buffer ++ text ++ inbox.unread.lines.headD [] ∈ stream.lines := by
      rw [h.lines_eq, hahead, hfirst]
      exact List.mem_append_right _ List.mem_cons_self
    refine ⟨rfl, _, hmem, ?_⟩
    rw [List.length_append]
    exact Nat.lt_add_right _ hlong

/-- A call that is not given up and does not fail returns the next line that has an end. -/
theorem left_attempt {r : Reader} (hopen : Bytes.lf ∉ r.buffer)
    (hfine : ∀ error buffer inbox,
      r.inbox.attempt r.buffer none ≠ (some (.error error), buffer, inbox)) :
    (r.attempt none).left = r.left.tail := by
  have hcases := r.inbox.attempt_cases r.buffer none
  have hreturned : (r.inbox.attempt r.buffer none).1 ≠ none := Option.some_ne_none _
  rw [left, left, attempt, ahead]
  generalize r.inbox.attempt r.buffer none = outcome at hcases hfine hreturned ⊢
  have hnone {text : Bytes} (htext : Bytes.lf ∉ text) :
      (r.buffer ++ text).completeLines = [] :=
    Bytes.completeLines_of_notMem (by simp [hopen, htext])
  cases hcases with
  | line text next htext hunread =>
    have hline : Bytes.lf ∉ r.buffer ++ text := by simp [hopen, htext]
    rw [ahead, hunread, ← List.append_assoc, Bytes.completeLines_append hline]
    rfl
  | ended b text next htext hunread hnext =>
    rw [ahead, hunread, hnext, hnone htext]
    rfl
  | atEnd next hunread hnext =>
    rw [ahead, hunread, hnext, hnone List.not_mem_nil]
    rfl
  | failed text next => exact absurd rfl (hfine _ _ _)
  | givenUp text next => exact absurd rfl hreturned

structure Returns (r : Reader) (n : Nat) (buffer : Bytes) (inbox : Inbox) : Prop where
  counted : ∃ added, added.length = n ∧ buffer = r.buffer ++ added ∧
    r.inbox.unread = added ++ inbox.unread
  line : 0 < n → buffer.IsLine ∨ Bytes.lf ∉ buffer ∧ inbox.unread = []
  zero : n = 0 → r.inbox.unread = []

/-- A call that returns has read to the end of its line, or to the end of the stream. -/
theorem returns_of_attempt {r : Reader} (hopen : Bytes.lf ∉ r.buffer) {patience : Option Nat}
    {n : Nat} {buffer : Bytes} {inbox : Inbox}
    (h : r.inbox.attempt r.buffer patience = (some (.ok n), buffer, inbox)) :
    r.Returns n buffer inbox := by
  have hcases := r.inbox.attempt_cases r.buffer patience
  rw [h] at hcases
  cases hcases with
  | line text next htext hunread =>
    refine ⟨⟨text ++ [Bytes.lf], List.length_append, List.append_assoc _ _ _, ?_⟩,
      fun _ => Or.inl ⟨r.buffer ++ text, by simp [hopen, htext], rfl⟩, fun hzero => by cases hzero⟩
    rw [hunread, List.append_assoc, List.singleton_append]
  | ended b text next htext hunread hnext =>
    have hbuffer : Bytes.lf ∉ r.buffer ++ b :: text := by simpa [hopen] using htext
    refine ⟨⟨b :: text, rfl, rfl, ?_⟩, fun _ => Or.inr ⟨hbuffer, hnext⟩,
      fun hzero => by cases hzero⟩
    rw [hunread, hnext, List.append_nil]
  | atEnd next hunread hnext =>
    refine ⟨⟨[], rfl, (List.append_nil _).symm, ?_⟩, fun hpos => absurd hpos (Nat.lt_irrefl 0),
      fun _ => hunread⟩
    rw [hunread, hnext, List.append_nil]

/-- Calls that are not given up return one line after the other. -/
theorem Keeps.left_after {stream : Bytes} {r : Reader} (h : r.Keeps stream)
    (hshort : ∀ line ∈ stream.lines, line.length ≤ lineLimit) (n : Nat) :
    (r.after (List.replicate n none)).left = r.left.drop n := by
  induction n with
  | zero => rfl
  | succ n ih =>
    have hkeeps := h.after (List.replicate n none)
    rw [List.replicate_succ', after_snoc, left_attempt hkeeps.buffer_open, ih, List.tail_drop]
    intro error buffer inbox hfailed
    obtain ⟨-, line, hline, hlong⟩ := hkeeps.exists_long hfailed
    exact Nat.not_lt.mpr (hshort line hline) hlong

/-- What a reader of a stream has returned, has in its buffer and has before it is the stream, and
so it is with every call that it may make next. While no line is too long no call fails, and the
lines with an end that are returned are those of the stream: all of them once the stream is read,
and after calls enough that are not given up. -/
structure LosesNothing (stream : Bytes) (r : Reader) : Prop where
  kept : r.lines.flatten ++ r.buffer ++ r.inbox.unread = stream
  lines_prefix : r.lines <+: stream.lines
  returns : ∀ patience n buffer inbox,
    r.inbox.attempt r.buffer patience = (some (.ok n), buffer, inbox) → r.Returns n buffer inbox
  unfailing : (∀ line ∈ stream.lines, line.length ≤ lineLimit) →
    ∀ patience error, (r.inbox.attempt r.buffer patience).1 ≠ some (.error error)
  complete : r.inbox.unread = [] → r.lines.filter (Bytes.lf ∈ ·) = stream.completeLines
  completes : (∀ line ∈ stream.lines, line.length ≤ lineLimit) →
    ∀ n, stream.lines.length ≤ n →
      (r.after (List.replicate n none)).lines.filter (Bytes.lf ∈ ·) = stream.completeLines

/-- A reader that keeps the lines of its stream loses nothing of it. -/
theorem Keeps.losesNothing {stream : Bytes} {r : Reader} (h : r.Keeps stream) :
    r.LosesNothing stream := by
  refine ⟨h.stream_eq, ⟨_, h.lines_eq.symm⟩, fun patience n buffer inbox hreturned =>
    returns_of_attempt h.buffer_open hreturned, fun hshort patience error hfailed => ?_,
    fun hread => ?_, fun hshort n hn => ?_⟩
  · obtain ⟨-, line, hline, hlong⟩ := h.exists_long (Prod.ext hfailed rfl)
    exact Nat.not_lt.mpr (hshort line hline) hlong
  · have hleft : r.left = [] := by
      rw [left, ahead, hread, List.append_nil]
      exact Bytes.completeLines_of_notMem h.buffer_open
    rw [h.completeLines_eq, hleft, List.append_nil]
  · have hfew : r.left.length ≤ n := by
      have hsplit := congrArg List.length h.completeLines_eq
      have hfilter : stream.completeLines.length ≤ stream.lines.length :=
        List.length_filter_le _ _
      rw [List.length_append] at hsplit
      omega
    rw [(h.after _).completeLines_eq, h.left_after hshort, List.drop_eq_nil_of_le hfew,
      List.append_nil]

end Reader

namespace Segmentation

variable {stream : Bytes} (cut : Segmentation stream)

def reader : Reader := ⟨⟨[], cut.pieces⟩, [], []⟩

theorem keeps_after (calls : List (Option Nat)) : (cut.reader.after calls).Keeps stream := by
  have hstart : cut.reader.Keeps stream :=
    ⟨congrArg Bytes.lines cut.flatten_eq.symm, List.not_mem_nil⟩
  exact hstart.after calls

/-- Whatever calls were made before it, and however the stream arrives, a reader has lost nothing of
the stream and has nothing of it twice. -/
theorem losesNothing_after (calls : List (Option Nat)) :
    (cut.reader.after calls).LosesNothing stream :=
  (cut.keeps_after calls).losesNothing

end Segmentation

/-- A line in two pieces. The first call is given up between them, and the second goes on. -/
example : (Reader.after ⟨⟨[], [[50, 53], [48, 10, 50]]⟩, [], []⟩ [some 1, none]).lines =
    [[50, 53, 48, 10]] := by decide

end SmtpClient
