import DeviceTwin.Text.Split

/-!
# Places in a text

A reader that fails says where. A place is what is left of the text from there
on, so a reader needs no counters and a place costs nothing to make; some faults
are found a few octets further on, and `ahead` is that number. Line and column
are worked out only for a message: lines count from one, and the column is the
number of octets read of the line.
-/

namespace DeviceTwin.Json

structure Place where
  rest : List Char
  ahead : Nat
  deriving DecidableEq, Repr

namespace Place

def here (rest : List Char) : Place := ⟨rest, 0⟩

/-- The place behind the next octet, or the end. -/
def behindNext (rest : List Char) : Place := ⟨rest, 1⟩

/-- Where a reader stands that has read so many octets of the text. -/
def walk : Nat × Nat → List Char → Nat → Nat × Nat
  | pos, _, 0 => pos
  | pos, [], _ => pos
  | (line, column), c :: s, n =>
    if n < c.utf8Size then (line, column + n)
    else walk (if c = '\n' then (line + 1, 0) else (line, column + c.utf8Size)) s
      (n - c.utf8Size)

/-- The line and the column of a place in a text. -/
def lineColumn (text : List Char) (p : Place) : Nat × Nat :=
  walk (1, 0) text (Text.octets text - Text.octets p.rest + p.ahead)

end Place

end DeviceTwin.Json
