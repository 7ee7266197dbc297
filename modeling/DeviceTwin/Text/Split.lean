/-!
# Cutting a text at separators

Identifiers, versions, paths and variable names are texts with separators in
them. They are cut as lists of characters, so each cut is a recursion on the
text and its laws are inductions on it.

`pieces sep s` holds every piece between two separators, `cut sep s` stops at
the first separator and `cutLast sep s` at the last one. Joining the pieces
with the separator gives the text back (`join_pieces`), and no piece holds the
separator (`not_mem_of_mem_pieces`).
-/

namespace DeviceTwin.Text

/-- The pieces of a text between the separators. There is always one more piece
than there are separators, so the empty text has one empty piece. -/
def pieces (sep : Char) : List Char → List (List Char)
  | [] => [[]]
  | c :: s =>
    if c = sep then
      [] :: pieces sep s
    else
      match pieces sep s with
      | [] => [[c]]
      | p :: ps => (c :: p) :: ps

@[simp] theorem pieces_nil (sep : Char) : pieces sep [] = [[]] := rfl

theorem pieces_ne_nil (sep : Char) (s : List Char) : pieces sep s ≠ [] := by
  cases s with
  | nil => simp
  | cons c s =>
    unfold pieces
    split
    · simp
    · split <;> simp

@[simp] theorem pieces_cons_self (sep : Char) (s : List Char) :
    pieces sep (sep :: s) = [] :: pieces sep s := by
  simp [pieces]

/-- The pieces with the separator between them. -/
def join (sep : Char) : List (List Char) → List Char
  | [] => []
  | [p] => p
  | p :: ps => p ++ sep :: join sep ps

theorem join_cons_cons (sep : Char) (p q : List Char) (ps : List (List Char)) :
    join sep (p :: q :: ps) = p ++ sep :: join sep (q :: ps) := rfl

theorem join_pieces (sep : Char) (s : List Char) : join sep (pieces sep s) = s := by
  induction s with
  | nil => rfl
  | cons c s ih =>
    by_cases h : c = sep
    · subst h
      rw [pieces_cons_self]
      cases hp : pieces c s with
      | nil => exact absurd hp (pieces_ne_nil c s)
      | cons q ps => rw [join_cons_cons, ← hp, ih]; rfl
    · cases hp : pieces sep s with
      | nil => exact absurd hp (pieces_ne_nil sep s)
      | cons q ps =>
        rw [hp] at ih
        simp only [pieces, h, if_false, hp]
        cases ps with
        | nil => simpa [join] using ih
        | cons r ps => simpa [join] using ih

theorem not_mem_of_mem_pieces {sep : Char} {s p : List Char} (h : p ∈ pieces sep s) :
    sep ∉ p := by
  induction s generalizing p with
  | nil => simp_all
  | cons c s ih =>
    unfold pieces at h
    split at h
    · rcases List.mem_cons.1 h with rfl | h
      · simp
      · exact ih h
    · rename_i hc
      cases hp : pieces sep s with
      | nil => exact absurd hp (pieces_ne_nil sep s)
      | cons q ps =>
        rw [hp] at h ih
        rcases List.mem_cons.1 h with rfl | h
        · have := ih (List.mem_cons_self)
          simp only [List.mem_cons, not_or]
          exact ⟨fun e => hc e.symm, this⟩
        · exact ih (List.mem_cons_of_mem _ h)

/-- What stands before and after the first separator. -/
def cut (sep : Char) : List Char → Option (List Char × List Char)
  | [] => none
  | c :: s =>
    if c = sep then
      some ([], s)
    else
      (cut sep s).map fun (a, b) => (c :: a, b)

/-- What stands before and after the last separator. -/
def cutLast (sep : Char) : List Char → Option (List Char × List Char)
  | [] => none
  | c :: s =>
    match cutLast sep s with
    | some (a, b) => some (c :: a, b)
    | none => if c = sep then some ([], s) else none

/-- The rest of a text after a given beginning. -/
def afterBeginning : List Char → List Char → Option (List Char)
  | [], s => some s
  | _ :: _, [] => none
  | b :: bs, c :: s => if b = c then afterBeginning bs s else none

theorem afterBeginning_eq_some_iff {b s r : List Char} :
    afterBeginning b s = some r ↔ s = b ++ r := by
  induction b generalizing s with
  | nil => simp [afterBeginning, eq_comm]
  | cons x b ih =>
    cases s with
    | nil => simp [afterBeginning]
    | cons c s =>
      by_cases h : x = c
      · subst h; simp [afterBeginning, ih]
      · simp [afterBeginning, h, Ne.symm h]

/-- The pieces of a text between the occurrences of a character that stands
twice in a row. -/
def doublePieces (sep : Char) : List Char → List (List Char)
  | [] => [[]]
  | [c] => [[c]]
  | c :: d :: s =>
    if c = sep ∧ d = sep then
      [] :: doublePieces sep s
    else
      match doublePieces sep (d :: s) with
      | [] => [[c]]
      | p :: ps => (c :: p) :: ps

/-- Texts with a separating text between them. -/
def interpose (sep : String) : List String → String
  | [] => ""
  | [s] => s
  | s :: ss => s ++ sep ++ interpose sep ss

/-- The number of octets that a text takes in UTF-8. -/
def octets : List Char → Nat
  | [] => 0
  | c :: s => c.utf8Size + octets s

@[simp] theorem octets_nil : octets [] = 0 := rfl

@[simp] theorem octets_cons (c : Char) (s : List Char) :
    octets (c :: s) = c.utf8Size + octets s := rfl

end DeviceTwin.Text
