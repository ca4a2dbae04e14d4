import Mathlib.Data.List.Count
import SmtpClient.Text.Fields

namespace SmtpClient

section Fields

variable {α : Type} [BEq α]

theorem fields_cons (mark x : α) (xs : List α) :
    fields mark (x :: xs) = if x == mark then [] :: fields mark xs
      else match fields mark xs with
        | [] => [[x]]
        | piece :: later => (x :: piece) :: later := rfl

theorem fields_ne_nil (mark : α) (xs : List α) : fields mark xs ≠ [] := by
  cases xs with
  | nil => exact List.cons_ne_nil _ _
  | cons x xs =>
    rw [fields_cons]
    split
    · exact List.cons_ne_nil _ _
    · split <;> exact List.cons_ne_nil _ _

/-- A list has one piece more than it has marks. -/
theorem length_fields (mark : α) (xs : List α) :
    (fields mark xs).length = xs.count mark + 1 := by
  induction xs with
  | nil => rfl
  | cons x xs ih =>
    obtain ⟨piece, later, hxs⟩ := List.exists_cons_of_ne_nil (fields_ne_nil mark xs)
    rw [fields_cons, List.count_cons]
    split
    · rw [List.length_cons, ih]
    · rw [hxs] at ih ⊢
      exact ih

variable [LawfulBEq α]

/-- The pieces with the marks between them are the list again. -/
theorem intercalate_fields (mark : α) (xs : List α) : [mark].intercalate (fields mark xs) = xs := by
  induction xs with
  | nil => rfl
  | cons x xs ih =>
    obtain ⟨piece, later, hxs⟩ := List.exists_cons_of_ne_nil (fields_ne_nil mark xs)
    rw [fields_cons]
    split
    · next hx =>
      obtain rfl : x = mark := by simpa using hx
      rw [hxs, List.intercalate_cons_cons, ← hxs, ih]
      rfl
    · rw [hxs] at ih ⊢
      rw [← ih]
      cases later <;> simp

theorem fields_of_notMem {mark : α} {xs : List α} (h : mark ∉ xs) : fields mark xs = [xs] := by
  induction xs with
  | nil => rfl
  | cons x xs ih =>
    rw [List.mem_cons, not_or] at h
    rw [fields_cons, if_neg (by simpa using Ne.symm h.1), ih h.2]

/-- A mark parts the pieces before it from those after it. -/
theorem fields_append_cons (mark : α) (xs ys : List α) :
    fields mark (xs ++ mark :: ys) = fields mark xs ++ fields mark ys := by
  induction xs with
  | nil => rw [List.nil_append, fields_cons, if_pos (beq_self_eq_true mark)]; rfl
  | cons x xs ih =>
    obtain ⟨piece, later, hxs⟩ := List.exists_cons_of_ne_nil (fields_ne_nil mark xs)
    rw [List.cons_append, fields_cons, fields_cons mark x xs, ih, hxs]
    split <;> rfl

/-- A piece without marks comes first, and the pieces of what follows its mark come after it. -/
theorem fields_append {mark : α} {piece : List α} (h : mark ∉ piece) (rest : List α) :
    fields mark (piece ++ mark :: rest) = piece :: fields mark rest := by
  rw [fields_append_cons, fields_of_notMem h]
  rfl

/-- Around a single mark there are two pieces. -/
theorem fields_of_count {mark : α} {before after : List α}
    (h : (before ++ mark :: after).count mark = 1) :
    fields mark (before ++ mark :: after) = [before, after] := by
  rw [List.count_append, List.count_cons_self] at h
  have hbefore : mark ∉ before := by
    apply List.count_eq_zero.mp
    omega
  have hafter : mark ∉ after := by
    apply List.count_eq_zero.mp
    omega
  rw [fields_append hbefore, fields_of_notMem hafter]

/-- Words without marks are the pieces of what they are joined to by marks. -/
theorem fields_intercalate {mark : α} {words : List (List α)} (hne : words ≠ [])
    (h : ∀ word ∈ words, mark ∉ word) :
    fields mark ([mark].intercalate words) = words := by
  induction words with
  | nil => exact absurd rfl hne
  | cons word later ih =>
    rw [List.forall_mem_cons] at h
    cases later with
    | nil =>
      rw [List.intercalate_singleton]
      exact fields_of_notMem h.1
    | cons next later =>
      rw [List.intercalate_cons_cons, List.append_assoc, List.singleton_append, fields_append h.1,
        ih (List.cons_ne_nil _ _) h.2]

end Fields

end SmtpClient
