namespace SmtpClient

/-- The pieces between the marks, one more than there are marks. -/
def fields {α : Type} [BEq α] (mark : α) (xs : List α) : List (List α) :=
  xs.foldr (fun x pieces =>
    if x == mark then [] :: pieces
    else match pieces with
      | [] => [[x]]
      | piece :: later => (x :: piece) :: later) [[]]

/-- The pieces that end after a mark, and what follows the last mark if anything does. -/
def linesOf {α : Type} [BEq α] (mark : α) (xs : List α) : List (List α) :=
  xs.foldr (fun x pieces =>
    if x == mark then [x] :: pieces
    else match pieces with
      | [] => [[x]]
      | piece :: later => (x :: piece) :: later) []

theorem linesOf_cons {α : Type} [BEq α] (mark x : α) (xs : List α) :
    linesOf mark (x :: xs) = if x == mark then [x] :: linesOf mark xs
      else match linesOf mark xs with
        | [] => [[x]]
        | piece :: later => (x :: piece) :: later := rfl

theorem flatten_linesOf {α : Type} [BEq α] (mark : α) (xs : List α) :
    (linesOf mark xs).flatten = xs := by
  induction xs with
  | nil => rfl
  | cons x xs ih =>
    rw [linesOf_cons]
    split
    · simp [ih]
    · split <;> simp_all

/-- The twenty-five code points with the Unicode property White_Space, as ranges. -/
def blankRanges : List (Nat × Nat) :=
  [(0x09, 0x0D), (0x20, 0x20), (0x85, 0x85), (0xA0, 0xA0), (0x1680, 0x1680), (0x2000, 0x200A),
    (0x2028, 0x2029), (0x202F, 0x202F), (0x205F, 0x205F), (0x3000, 0x3000)]

def isBlank (c : Char) : Bool := blankRanges.any fun r => r.1 ≤ c.toNat && c.toNat ≤ r.2

def trim (cs : List Char) : List Char :=
  ((cs.dropWhile isBlank).reverse.dropWhile isBlank).reverse

/-- The first run of characters that are not blank, empty if there is none. -/
def firstWord (cs : List Char) : List Char := (cs.dropWhile isBlank).takeWhile (!isBlank ·)

end SmtpClient
