import DeviceTwin.Json.Reader

/-!
# Values as documents

A value that is already there is read by the same readers as a text. It is
complete, so nothing in it is broken, and it stands nowhere in a text.
-/

namespace DeviceTwin.Json

open DeviceTwin.Number

/-- An integer as a number of a document. -/
def numberOf (n : Int) : Number :=
  if h : IsWide64 n then .integer ⟨n, h⟩
  else
    match Double.ofInt? n with
    | some x => .real x
    | none => .tooLarge []

mutual

def toDocument : Json → Document
  | null => .scalar [] [] .null
  | boolean b => .scalar [] [] (.boolean b)
  | integer n => .scalar [] [] (.number (numberOf n))
  | real x => .scalar [] [] (.number (.real x))
  | text s => .scalar [] [] (.text (.ok s))
  | list items => .list [] (toItems items)
  | object entries => .object [] (toMembers entries)

def toItems : List Json → Items
  | [] => .close []
  | j :: js => .item (toDocument j) (toItems js)

def toMembers : List (String × Json) → Members
  | [] => .close []
  | (k, j) :: es => .member ⟨.ok k, []⟩ (toDocument j) (toMembers es)

end

/-- Reads a value that is already there. -/
def readAs {α : Type} (j : Json) (r : Reader α) : Except Fault α :=
  r .stored j.toDocument

end DeviceTwin.Json
