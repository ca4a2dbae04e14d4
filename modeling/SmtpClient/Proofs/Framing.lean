import Mathlib.Data.List.Induction
import SmtpClient.Mail.Body

namespace SmtpClient

namespace Bytes

def IsLine (line : Bytes) : Prop := ∃ text, lf ∉ text ∧ line = text ++ [lf]

theorem lines_cons_lf (rest : Bytes) : lines (lf :: rest) = [lf] :: lines rest := by
  rw [lines, linesOf_cons, if_pos (by rfl)]
  rfl

theorem lines_cons_of_ne {b : UInt8} (h : b ≠ lf) (rest : Bytes) :
    lines (b :: rest) = (b :: (lines rest).headD []) :: (lines rest).tail := by
  have hne : ¬(b == lf) = true := by simpa using h
  rw [lines, linesOf_cons, if_neg hne, lines]
  cases linesOf lf rest with
  | nil => rfl
  | cons piece later => rfl

/-- A line that has its end is the first of the lines, whatever follows it. -/
theorem lines_line_append {line : Bytes} (h : line.IsLine) (rest : Bytes) :
    lines (line ++ rest) = line :: lines rest := by
  obtain ⟨text, hmark, rfl⟩ := h
  induction text with
  | nil => exact lines_cons_lf rest
  | cons b text ih =>
    rw [List.mem_cons, not_or] at hmark
    have htext := ih hmark.2
    rw [List.cons_append, List.cons_append, lines_cons_of_ne (Ne.symm hmark.1), htext]
    rfl

/-- Lines that have their ends are found again in the bytes that they make. -/
theorem lines_flatten_append {ls : List Bytes} (h : ∀ line ∈ ls, line.IsLine) (rest : Bytes) :
    lines (ls.flatten ++ rest) = ls ++ lines rest := by
  induction ls with
  | nil => rfl
  | cons line later ih =>
    have hlater := ih fun l hl => h l (List.mem_cons_of_mem _ hl)
    rw [List.flatten_cons, List.append_assoc, lines_line_append (h line List.mem_cons_self),
      hlater]
    rfl

theorem lines_ne_nil {stream : Bytes} (h : stream ≠ []) : stream.lines ≠ [] := by
  intro hnil
  have hflat := flatten_lines stream
  rw [hnil] at hflat
  exact h hflat.symm

theorem isLine_lf : IsLine [lf] := ⟨[], List.not_mem_nil, rfl⟩

theorem IsLine.cons {b : UInt8} {line : Bytes} (hb : b ≠ lf) (h : line.IsLine) :
    IsLine (b :: line) := by
  obtain ⟨text, hmark, rfl⟩ := h
  refine ⟨b :: text, ?_, rfl⟩
  rw [List.mem_cons, not_or]
  exact ⟨Ne.symm hb, hmark⟩

/-- Where a stream ends with LF no line of it is open. -/
theorem isLine_of_mem_lines {stream : Bytes} (h : stream.getLast? = some lf) :
    ∀ line ∈ stream.lines, line.IsLine := by
  induction stream with
  | nil => cases h
  | cons b rest ih =>
    intro line hline
    rcases eq_or_ne rest [] with rfl | hrest
    · obtain rfl : b = lf := Option.some.inj h
      rw [lines_cons_lf] at hline
      obtain rfl := List.mem_singleton.mp hline
      exact isLine_lf
    · rw [List.getLast?_cons_of_ne_nil hrest] at h
      have hlines := ih h
      by_cases hb : b = lf
      · subst hb
        rw [lines_cons_lf] at hline
        rcases List.mem_cons.mp hline with rfl | hlater
        · exact isLine_lf
        · exact hlines line hlater
      · obtain ⟨piece, later, hsplit⟩ := List.exists_cons_of_ne_nil (lines_ne_nil hrest)
        rw [hsplit] at hlines
        rw [lines_cons_of_ne hb, hsplit] at hline
        rcases List.mem_cons.mp hline with rfl | hlater
        · exact (hlines piece List.mem_cons_self).cons hb
        · exact hlines line (List.mem_cons_of_mem _ hlater)

theorem crlf_suffix_concat (bytes : Bytes) (b : UInt8) :
    crlf <:+ bytes ++ [b] ↔ bytes.getLast? = some cr ∧ b = lf := by
  constructor
  · rintro ⟨before, heq⟩
    have hsplit : (before ++ [cr]) ++ [lf] = bytes ++ [b] := by
      rw [← heq, List.append_assoc]
      rfl
    obtain ⟨rfl, hb⟩ := List.append_inj' hsplit rfl
    exact ⟨List.getLast?_concat, (List.singleton_inj.mp hb).symm⟩
  · rintro ⟨hlast, rfl⟩
    obtain ⟨before, rfl⟩ := List.getLast?_eq_some_iff.mp hlast
    exact ⟨before, by rw [List.append_assoc]; rfl⟩

end Bytes

namespace Body

def terminated (message : Bytes) : Bytes :=
  if Bytes.crlf <:+ message then message else message ++ Bytes.crlf

def loneDot : Bytes := Bytes.dot :: Bytes.crlf

/-- Changes the first byte of every line as `f` changes a line of that byte alone, with a mark that
tells whether a line begins. -/
def eachLine (f : Bytes → Bytes) (fresh : Bool) : Bytes → Bytes
  | [] => []
  | b :: rest => (if fresh then f [b] else [b]) ++ eachLine f (b = Bytes.lf) rest

/-- A change that only touches the first byte of a line can be made line by line or byte by byte.
Within a line only the lines after it are changed. -/
theorem eachLine_eq {f : Bytes → Bytes} (hcons : ∀ b rest, f (b :: rest) = f [b] ++ rest)
    (stream : Bytes) :
    eachLine f true stream = stream.lines.flatMap f ∧
      eachLine f false stream = stream.lines.headD [] ++ stream.lines.tail.flatMap f := by
  induction stream with
  | nil => exact ⟨rfl, rfl⟩
  | cons b rest ih =>
    obtain ⟨hfresh, hwithin⟩ := ih
    by_cases hlf : b = Bytes.lf
    · subst hlf
      rw [Bytes.lines_cons_lf, eachLine, eachLine, decide_eq_true rfl, hfresh]
      exact ⟨rfl, rfl⟩
    · rw [Bytes.lines_cons_of_ne hlf, eachLine, eachLine, decide_eq_false hlf, hwithin]
      refine ⟨?_, rfl⟩
      rw [List.flatMap_cons, hcons b ((Bytes.lines rest).headD []), List.append_assoc]
      rfl

def stuffFrom (fresh : Bool) : Bytes → Bytes
  | [] => []
  | b :: rest =>
    (if fresh && b = Bytes.dot then [Bytes.dot, b] else [b]) ++ stuffFrom (b = Bytes.lf) rest

def freshAfter (fresh : Bool) (bytes : Bytes) : Bool :=
  bytes.foldl (fun _ b => b = Bytes.lf) fresh

theorem stuffLine_cons (b : UInt8) (rest : Bytes) :
    stuffLine (b :: rest) = (if b = Bytes.dot then [Bytes.dot, b] else [b]) ++ rest := by
  unfold stuffLine
  split
  · next heq =>
    obtain ⟨rfl, rfl⟩ := List.cons.inj heq
    rfl
  · next hdot =>
    rw [if_neg fun (hb : b = Bytes.dot) => hdot rest (by rw [hb])]
    rfl

/-- Stuffing line by line and stuffing byte by byte with a mark are the same. -/
theorem eachLine_stuffLine (fresh : Bool) (message : Bytes) :
    eachLine stuffLine fresh message = stuffFrom fresh message := by
  induction message generalizing fresh with
  | nil => rfl
  | cons b rest ih =>
    rw [eachLine, stuffFrom, ih, stuffLine_cons, List.append_nil]
    cases fresh <;> simp

theorem stuffFrom_true (message : Bytes) : stuffFrom true message = stuff message := by
  rw [← eachLine_stuffLine]
  refine (eachLine_eq (fun b rest => ?_) message).1
  rw [stuffLine_cons, stuffLine_cons, List.append_nil]

/-- What is stuffed in two pieces is stuffed as a whole, if the mark is handed on. -/
theorem stuffFrom_append (fresh : Bool) (xs ys : Bytes) :
    stuffFrom fresh (xs ++ ys) = stuffFrom fresh xs ++ stuffFrom (freshAfter fresh xs) ys := by
  induction xs generalizing fresh with
  | nil => rfl
  | cons b rest ih =>
    rw [List.cons_append, stuffFrom, stuffFrom, ih, List.append_assoc]
    rfl

theorem stuff_append (xs ys : Bytes) :
    stuff (xs ++ ys) = stuff xs ++ stuffFrom (freshAfter true xs) ys := by
  rw [← stuffFrom_true, stuffFrom_append, stuffFrom_true]

/-- Stuffing keeps the last byte. -/
theorem getLast?_stuff (message : Bytes) : (stuff message).getLast? = message.getLast? := by
  -- byte by byte from the end, where `stuff` has no equation but `stuff_append`
  induction message using List.reverseRecOn with
  | nil => rfl
  | append_singleton before b =>
    rw [stuff_append, List.getLast?_concat, stuffFrom, stuffFrom, List.append_nil]
    split <;> simp

/-- A line end behind a message stays as it is, wherever the message ends. -/
theorem stuff_append_crlf (message : Bytes) :
    stuff (message ++ Bytes.crlf) = stuff message ++ Bytes.crlf := by
  have hcrlf (fresh : Bool) : stuffFrom fresh Bytes.crlf = Bytes.crlf := by cases fresh <;> rfl
  rw [stuff_append, hcrlf]

/-- The ending of a body can be chosen on the message as well as on what stuffing makes of it. -/
theorem crlf_suffix_stuff_iff (message : Bytes) :
    Bytes.crlf <:+ stuff message ↔ Bytes.crlf <:+ message := by
  induction message using List.reverseRecOn with
  | nil => exact Iff.rfl
  | append_singleton before b =>
    by_cases hlf : b = Bytes.lf
    · subst hlf
      have hsnoc (fresh : Bool) : stuffFrom fresh [Bytes.lf] = [Bytes.lf] := by
        cases fresh <;> rfl
      rw [stuff_append, hsnoc, Bytes.crlf_suffix_concat, Bytes.crlf_suffix_concat,
        getLast?_stuff]
    · have hlast : ∀ bytes : Bytes, bytes.getLast? = some b → ¬Bytes.crlf <:+ bytes := by
        rintro bytes hb ⟨front, rfl⟩
        rw [List.getLast?_append] at hb
        exact hlf (Option.some.inj hb).symm
      have hend : (before ++ [b]).getLast? = some b := List.getLast?_concat
      exact iff_of_false (hlast _ ((getLast?_stuff _).trans hend)) (hlast _ hend)

theorem terminated_getLast? (message : Bytes) :
    (terminated message).getLast? = some Bytes.lf := by
  have hcrlf {bytes : Bytes} (h : Bytes.crlf <:+ bytes) : bytes.getLast? = some Bytes.lf := by
    obtain ⟨front, rfl⟩ := h
    rw [List.getLast?_append]
    rfl
  unfold terminated
  split
  · next h => exact hcrlf h
  · exact hcrlf (List.suffix_append _ _)

/-- A body is the stuffed message, its last line ended, and the lone dot. -/
theorem encode_eq (message : Bytes) :
    encode message = stuff (terminated message) ++ loneDot := by
  rw [encode, ending, terminated]
  by_cases h : Bytes.crlf <:+ message
  · rw [if_pos ((crlf_suffix_stuff_iff message).mpr h), if_pos h]
    rfl
  · rw [if_neg fun hs => h ((crlf_suffix_stuff_iff message).mp hs), if_neg h, stuff_append_crlf,
      List.append_assoc]
    rfl

/-- A line is found again under the dot that was put before it. -/
theorem unstuffLine_stuffLine (line : Bytes) : unstuffLine (stuffLine line) = line := by
  unfold stuffLine
  split
  · rfl
  · next hdot =>
    unfold unstuffLine
    split
    · next rest => exact absurd rfl (hdot rest)
    · rfl

/-- A stuffed line that begins with a dot has a second one. -/
theorem stuffLine_ne_end (line : Bytes) :
    ¬(stuffLine line = [46, 13, 10] ∨ stuffLine line = [46, 10]) := by
  unfold stuffLine
  split
  · simp
  · next hdot =>
    rintro (rfl | rfl)
    · exact hdot _ rfl
    · exact hdot _ rfl

theorem stuffLine_isLine {line : Bytes} (h : line.IsLine) : (stuffLine line).IsLine := by
  unfold stuffLine
  split
  · exact h.cons (by decide)
  · exact h

/-- A receiver takes stuffed lines up to the first lone dot, and no stuffed line is one. -/
theorem receiveLines_stuffed (ls later : List Bytes) :
    receiveLines (ls.map stuffLine ++ loneDot :: later) = some (ls.flatten, later) := by
  induction ls with
  | nil => rfl
  | cons line ls ih =>
    rw [List.map_cons, List.cons_append, receiveLines, if_neg (stuffLine_ne_end line), ih,
      Option.map_some, unstuffLine_stuffLine]
    rfl

/-- A receiver reads a body as the message in it, with its last line ended, and stops right there:
no message ends early, and none takes what follows for a part of itself. -/
theorem receive_encode_append (message rest : Bytes) :
    receive (encode message ++ rest) = some (terminated message, rest) := by
  have hmessage : ∀ line ∈ (terminated message).lines, line.IsLine :=
    Bytes.isLine_of_mem_lines (terminated_getLast? message)
  have hstuffed : ∀ line ∈ (terminated message).lines.map stuffLine, line.IsLine := by
    intro line hline
    obtain ⟨whole, hmem, rfl⟩ := List.mem_map.mp hline
    exact stuffLine_isLine (hmessage whole hmem)
  have hdot : loneDot.IsLine := ⟨[Bytes.dot, Bytes.cr], by decide, rfl⟩
  -- so the stream is cut between the message, the lone dot and the rest, and not across them
  have hlines : (encode message ++ rest).lines =
      (terminated message).lines.map stuffLine ++ loneDot :: rest.lines := by
    rw [encode_eq, stuff, List.flatMap_def, List.append_assoc,
      Bytes.lines_flatten_append hstuffed, Bytes.lines_line_append hdot]
  rw [receive, hlines, receiveLines_stuffed, Option.map_some, Bytes.flatten_lines,
    Bytes.flatten_lines]

/-- A message that is a lone dot, and a lone dot after its body. -/
example : receive (encode [46] ++ loneDot) = some ([46, 13, 10], loneDot) := by decide

end Body

end SmtpClient
