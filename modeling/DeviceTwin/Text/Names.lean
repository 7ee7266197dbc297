/-!
# Lists of names

`distinct names` keeps the first occurrence of each name, and `repeated names`
tells the names that occur more than once, each at its second occurrence.
`ascending names` lists each name once in the order of code points, which is also
the order of the octets of the names.
-/

namespace DeviceTwin.Text

def distinctBut (seen : List String) : List String → List String
  | [] => []
  | n :: ns =>
    if seen.contains n then distinctBut seen ns else n :: distinctBut (n :: seen) ns

def distinct (names : List String) : List String :=
  distinctBut [] names

def repeatedBut (seen told : List String) : List String → List String
  | [] => []
  | n :: ns =>
    if !seen.contains n then repeatedBut (n :: seen) told ns
    else if told.contains n then repeatedBut seen told ns
    else n :: repeatedBut seen (n :: told) ns

def repeated (names : List String) : List String :=
  repeatedBut [] [] names

def ascending (names : List String) : List String :=
  (distinct names).mergeSort fun a b => decide (a ≤ b)

end DeviceTwin.Text
