import Mathlib.Data.Set.Function
import SmtpClient.Proofs.Framing

namespace SmtpClient.Body

def unstuffFrom (fresh : Bool) (body : Bytes) : Bytes := eachLine unstuffLine fresh body

theorem unstuffLine_cons (b : UInt8) (rest : Bytes) :
    unstuffLine (b :: rest) = (if b = Bytes.dot then [] else [b]) ++ rest := by
  unfold unstuffLine
  split
  · next heq =>
    obtain ⟨rfl, rfl⟩ := List.cons.inj heq
    rfl
  · next hdot =>
    rw [if_neg fun (hb : b = Bytes.dot) => hdot rest (by rw [hb])]
    rfl

theorem unstuffFrom_true (body : Bytes) : unstuffFrom true body = unstuff body := by
  refine (eachLine_eq (fun b rest => ?_) body).1
  rw [unstuffLine_cons, unstuffLine_cons, List.append_nil]

/-- One byte of unstuffing: a dot at which a line begins is left out. -/
theorem unstuffFrom_cons (fresh : Bool) (b : UInt8) (rest : Bytes) :
    unstuffFrom fresh (b :: rest) =
      (if fresh && b = Bytes.dot then [] else [b]) ++ unstuffFrom (b = Bytes.lf) rest := by
  rw [unstuffFrom, eachLine, unstuffLine_cons, List.append_nil]
  cases fresh <;> simp [unstuffFrom]

/-- Within a line a byte is kept, and whether a line begins after it depends on it alone. -/
theorem stuffFrom_false_cons (b : UInt8) (rest : Bytes) :
    stuffFrom false (b :: rest) = b :: stuffFrom (b = Bytes.lf) rest := rfl

theorem unstuffFrom_false_cons (b : UInt8) (rest : Bytes) :
    unstuffFrom false (b :: rest) = b :: unstuffFrom (b = Bytes.lf) rest := rfl

/-- At the start of a line only a dot makes a difference. -/
theorem stuffFrom_eq (fresh : Bool) (message : Bytes) : stuffFrom fresh message =
    (if fresh = true ∧ message.head? = some Bytes.dot then [Bytes.dot] else []) ++
      stuffFrom false message := by
  cases message with
  | nil => simp [stuffFrom]
  | cons b rest => cases fresh <;> by_cases hdot : b = Bytes.dot <;> simp [stuffFrom, hdot]

/-- At the beginning of a line stuffing differs from stuffing within it by one dot at most. -/
theorem stuffFrom_true_eq (message : Bytes) : stuffFrom true message =
    (if message.head? = some Bytes.dot then [Bytes.dot] else []) ++ stuffFrom false message := by
  rw [stuffFrom_eq]
  simp

theorem unstuffFrom_true_of_ne {b : UInt8} (hdot : b ≠ Bytes.dot) (rest : Bytes) :
    unstuffFrom true (b :: rest) = unstuffFrom false (b :: rest) := by
  simp [unstuffFrom_cons, hdot]

theorem unstuffFrom_true_dot (rest : Bytes) :
    unstuffFrom true (Bytes.dot :: rest) = unstuffFrom false rest := rfl

theorem head?_stuffFrom_false (message : Bytes) :
    (stuffFrom false message).head? = message.head? := by
  cases message <;> rfl

theorem head?_unstuffFrom_false (body : Bytes) : (unstuffFrom false body).head? = body.head? := by
  cases body <;> rfl

/-- Unstuffing undoes stuffing, with the same mark on both sides. -/
theorem unstuffFrom_stuffFrom (fresh : Bool) (message : Bytes) :
    unstuffFrom fresh (stuffFrom fresh message) = message := by
  induction message generalizing fresh with
  | nil => rfl
  | cons b rest ih =>
    have hwithin : unstuffFrom false (stuffFrom false (b :: rest)) = b :: rest := by
      rw [stuffFrom_false_cons, unstuffFrom_false_cons, ih]
    cases fresh with
    | false => exact hwithin
    | true =>
      rw [stuffFrom_true_eq]
      by_cases hdot : b = Bytes.dot
      · subst hdot
        exact hwithin
      · have hhead : (b :: rest).head? ≠ some Bytes.dot := fun h => hdot (Option.some.inj h)
        rw [if_neg hhead, List.nil_append, stuffFrom_false_cons, unstuffFrom_true_of_ne hdot,
          ← stuffFrom_false_cons]
        exact hwithin

/-- Every message is found again in what is stuffed. -/
theorem unstuff_stuff (message : Bytes) : unstuff (stuff message) = message := by
  rw [← stuffFrom_true, ← unstuffFrom_true, unstuffFrom_stuffFrom]

def DotsDoubledFrom (fresh : Bool) : Bytes → Prop
  | [] => True
  | b :: rest =>
    (fresh = true → b = Bytes.dot → rest.head? = some Bytes.dot) ∧
      DotsDoubledFrom (b = Bytes.lf) rest

/-- Stuffing undoes unstuffing exactly where every dot at which a line begins is doubled. -/
theorem stuffFrom_unstuffFrom_iff (fresh : Bool) (body : Bytes) :
    stuffFrom fresh (unstuffFrom fresh body) = body ↔ DotsDoubledFrom fresh body := by
  induction body generalizing fresh with
  | nil => exact iff_of_true rfl trivial
  | cons b rest ih =>
    have hwithin : stuffFrom false (unstuffFrom false (b :: rest)) = b :: rest ↔
        DotsDoubledFrom (b = Bytes.lf) rest := by
      rw [unstuffFrom_false_cons, stuffFrom_false_cons, List.cons_inj_right, ih]
    cases fresh with
    | false =>
      rw [hwithin, DotsDoubledFrom]
      simp
    | true =>
      by_cases hdot : b = Bytes.dot
      · -- the first dot is dropped, and given back if there is another one
        subst hdot
        rw [unstuffFrom_true_dot, stuffFrom_true_eq, head?_unstuffFrom_false, DotsDoubledFrom]
        by_cases hhead : rest.head? = some Bytes.dot
        · rw [if_pos hhead, List.singleton_append, List.cons_inj_right, ih]
          exact (and_iff_right fun _ _ => hhead).symm
        · rw [if_neg hhead, List.nil_append]
          refine iff_of_false (fun heq => hhead ?_) fun h => hhead (h.1 rfl rfl)
          have hfirst := congrArg List.head? heq
          rwa [head?_stuffFrom_false, head?_unstuffFrom_false] at hfirst
      · rw [unstuffFrom_true_of_ne hdot, stuffFrom_true_eq, head?_unstuffFrom_false,
          DotsDoubledFrom]
        simp [hdot, hwithin]

theorem freshAfter_concat (fresh : Bool) (bytes : Bytes) (b : UInt8) :
    freshAfter fresh (bytes ++ [b]) = decide (b = Bytes.lf) := by
  rw [freshAfter, List.foldl_append]
  rfl

/-- A line begins at the beginning and after every LF. -/
theorem freshAfter_true_iff (bytes : Bytes) :
    freshAfter true bytes = true ↔ bytes = [] ∨ bytes.getLast? = some Bytes.lf := by
  cases bytes using List.reverseRecOn with
  | nil => simp [freshAfter]
  | append_singleton bytes b => simp [freshAfter_concat]

def DotsDoubled (body : Bytes) : Prop :=
  ∀ before rest, body = before ++ Bytes.dot :: rest →
    before = [] ∨ before.getLast? = some Bytes.lf → rest.head? = some Bytes.dot

/-- Said of places: a dot at which a line begins has another one behind it. -/
theorem dotsDoubledFrom_iff (fresh : Bool) (body : Bytes) :
    DotsDoubledFrom fresh body ↔ ∀ before rest, body = before ++ Bytes.dot :: rest →
      freshAfter fresh before = true → rest.head? = some Bytes.dot := by
  induction body generalizing fresh with
  | nil => simp [DotsDoubledFrom]
  | cons b later ih =>
    rw [DotsDoubledFrom, ih]
    constructor
    · rintro ⟨hfirst, hlater⟩ before rest hsplit hfresh
      cases before with
      | nil =>
        obtain ⟨rfl, rfl⟩ := List.cons.inj hsplit
        exact hfirst hfresh rfl
      | cons c before =>
        obtain ⟨rfl, hrest⟩ := List.cons.inj hsplit
        exact hlater before rest hrest hfresh
    · intro hall
      refine ⟨fun hfresh hdot => hall [] later (by rw [hdot]; rfl) hfresh, ?_⟩
      rintro before rest rfl hfresh
      exact hall (b :: before) rest rfl hfresh

/-- Stuffing undoes unstuffing exactly for the bodies whose dots at the start of a line are doubled.
-/
theorem stuff_unstuff_iff (body : Bytes) : stuff (unstuff body) = body ↔ DotsDoubled body := by
  rw [← stuffFrom_true, ← unstuffFrom_true, stuffFrom_unstuffFrom_iff, dotsDoubledFrom_iff]
  simp only [freshAfter_true_iff]
  rfl

def doubleAfterLf : Bytes → Bytes
  | [] => []
  | 10 :: 46 :: rest => 10 :: 46 :: 46 :: doubleAfterLf rest
  | b :: rest => b :: doubleAfterLf rest

/-- Within a line, stuffing doubles the dots that follow an LF. -/
theorem stuffFrom_false_eq (message : Bytes) : stuffFrom false message = doubleAfterLf message := by
  fun_induction doubleAfterLf message with
  | case1 => rfl
  | case2 rest ih =>
    rw [← ih]
    rfl
  | case3 b rest hother ih =>
    have hhead : ¬(decide (b = Bytes.lf) = true ∧ rest.head? = some Bytes.dot) := by
      rintro ⟨hlf, hdot⟩
      obtain ⟨later, rfl⟩ := List.head?_eq_some_iff.mp hdot
      exact hother later (of_decide_eq_true hlf) rfl
    rw [stuffFrom_false_cons, stuffFrom_eq, if_neg hhead, List.nil_append, ih]

def addedDots (message : Bytes) : Nat :=
  (message.zip message.tail).count (Bytes.lf, Bytes.dot) +
    if message.head? = some Bytes.dot then 1 else 0

theorem count_zip_tail_cons (b : UInt8) (rest : Bytes) :
    ((b :: rest).zip rest).count (Bytes.lf, Bytes.dot) =
      (if decide (b = Bytes.lf) = true ∧ rest.head? = some Bytes.dot then 1 else 0) +
        (rest.zip rest.tail).count (Bytes.lf, Bytes.dot) := by
  cases rest with
  | nil => simp
  | cons c later =>
    rw [List.zip_cons_cons, List.count_cons, Nat.add_comm]
    simp

theorem length_stuffFrom_false (message : Bytes) : (stuffFrom false message).length =
    message.length + (message.zip message.tail).count (Bytes.lf, Bytes.dot) := by
  induction message with
  | nil => rfl
  | cons b rest ih =>
    rw [stuffFrom_false_cons, stuffFrom_eq, List.tail_cons, count_zip_tail_cons, List.length_cons,
      List.length_append, ih, List.length_cons]
    split
    · rw [List.length_singleton]
      omega
    · rw [List.length_nil]
      omega

/-- Stuffing adds one byte for each dot at the start of a line. -/
theorem length_stuff (message : Bytes) :
    (stuff message).length = message.length + addedDots message := by
  rw [← stuffFrom_true, stuffFrom_true_eq, List.length_append, length_stuffFrom_false, addedDots]
  split
  · rw [List.length_singleton]
    omega
  · rw [List.length_nil]
    omega

/-- Messages and bodies with doubled dots correspond to each other. -/
theorem bijOn_stuff : Set.BijOn stuff Set.univ {body | DotsDoubled body} := by
  have hinverse : Set.InvOn unstuff stuff Set.univ {body | DotsDoubled body} :=
    ⟨fun message _ => unstuff_stuff message, fun body hbody => (stuff_unstuff_iff body).mpr hbody⟩
  refine hinverse.bijOn (fun message _ => ?_) fun _ _ => Set.mem_univ _
  exact (stuff_unstuff_iff _).mp (congrArg stuff (unstuff_stuff message))

/-- A message is read back from what stuffing makes of it, which is the message with the dot at its
beginning and every dot after an LF doubled and has that many bytes more. A body is what stuffing
makes of some message exactly if every dot at the start of a line is followed by another one. -/
theorem stuff_reversible (message body : Bytes) :
    unstuff (stuff message) = message ∧
      stuff message = (if message.head? = some Bytes.dot then [Bytes.dot] else []) ++
        doubleAfterLf message ∧
      (stuff message).length = message.length + addedDots message ∧
      (stuff (unstuff body) = body ↔ DotsDoubled body) ∧
      Set.BijOn stuff Set.univ {body | DotsDoubled body} := by
  refine ⟨unstuff_stuff message, ?_, length_stuff message, stuff_unstuff_iff body, bijOn_stuff⟩
  rw [← stuffFrom_true, stuffFrom_true_eq, stuffFrom_false_eq]

/-- Dots at the beginning, after an LF and after another dot. -/
example : stuff [46, 10, 46, 46, 97, 46] = [46, 46, 10, 46, 46, 46, 97, 46] := by decide

end SmtpClient.Body
