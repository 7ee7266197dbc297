import DeviceTwin.Proofs.Text.Split
import DeviceTwin.Suggestion.Score
import DeviceTwin.Validation.Check
import Mathlib.Algebra.GroupWithZero.Nat
import Mathlib.Data.List.Basic

/-!
# Lines of a report

The words of a message hold no line breaks, so those of a line are the ones of the names,
identifiers and reasons that its defect tells (`Defect.breaks_line`). In a report every defect
fills one line and one more for each of these breaks, and behind the defects stand an empty line
and their number (`Defects.lines_report`). One line for each defect is what a report has if and
only if no text of a defect holds a line break: nothing keeps such a text out of a description,
and what stands behind the break reads like a defect of its own
(`Defects.not_one_line_each`).
-/

namespace DeviceTwin

namespace Text

/-- What stands before, between and behind the line breaks of a text. -/
def lines (s : String) : List String :=
  (pieces '\n' s.toList).map String.ofList

/-- The number of line breaks in a text. -/
def breaks (s : String) : Nat :=
  s.toList.count '\n'

theorem length_pieces (sep : Char) (s : List Char) : (pieces sep s).length = s.count sep + 1 := by
  induction s with
  | nil => rfl
  | cons c s ih =>
      by_cases hc : c = sep
      · rw [hc, pieces_cons_self, List.length_cons, ih, List.count_cons_self]
      · obtain ⟨p, ps, hp⟩ := List.exists_cons_of_ne_nil (pieces_ne_nil sep s)
        rw [hp] at ih
        rw [pieces, if_neg hc, hp, List.count_cons_of_ne hc, ← ih]
        rfl

theorem length_lines (s : String) : (lines s).length = breaks s + 1 := by
  rw [lines, List.length_map, length_pieces, breaks]

theorem breaks_eq_zero_iff {s : String} : breaks s = 0 ↔ '\n' ∉ s.toList :=
  List.count_eq_zero

theorem breaks_append (s t : String) : breaks (s ++ t) = breaks s + breaks t := by
  rw [breaks, String.toList_append, List.count_append]
  rfl

theorem breaks_interpose {sep : String} (h : breaks sep = 0) (ss : List String) :
    breaks (interpose sep ss) = (ss.map breaks).sum := by
  induction ss with
  | nil => rfl
  | cons s ss ih =>
      cases ss with
      | nil => rw [List.map_singleton, List.sum_singleton]; rfl
      | cons t ss =>
          rw [List.map_cons, List.sum_cons, ← ih]
          change breaks (s ++ sep ++ interpose sep (t :: ss)) = _
          rw [breaks_append, breaks_append, h, Nat.add_zero]

theorem not_mem_of_mem_lines {s l : String} (h : l ∈ lines s) : '\n' ∉ l.toList := by
  obtain ⟨p, hp, rfl⟩ := List.mem_map.1 h
  rw [String.toList_ofList]
  exact not_mem_of_mem_pieces hp

/-- A text without line breaks is one line. -/
theorem lines_eq_singleton_iff {s : String} : lines s = [s] ↔ breaks s = 0 := by
  constructor
  · intro h
    exact breaks_eq_zero_iff.2 (not_mem_of_mem_lines (h ▸ List.mem_singleton_self s))
  · intro h
    rw [lines, pieces_of_not_mem (breaks_eq_zero_iff.1 h), List.map_singleton, String.ofList_toList]

/-- A line break ends a line, whatever stands before it. -/
theorem lines_append_break (s t : String) : lines (s ++ "\n" ++ t) = lines s ++ lines t := by
  have hbreak : (s ++ "\n" ++ t).toList = s.toList ++ '\n' :: t.toList := by
    simp
  rw [lines, hbreak, pieces_append_cons, List.map_append]
  rfl

/-- Texts with a line break behind each of them fill their lines, one after the other. -/
theorem lines_join_append (ss : List String) (t : String) :
    lines (String.join (ss.map (· ++ "\n")) ++ t) = ss.flatMap lines ++ lines t := by
  induction ss with
  | nil => simp [String.join]
  | cons s ss ih =>
      have hjoin : String.join ((s :: ss).map (· ++ "\n")) ++ t =
          s ++ "\n" ++ (String.join (ss.map (· ++ "\n")) ++ t) := by
        rw [List.map_cons, String.join_cons, String.append_assoc]
      rw [hjoin, lines_append_break, ih, List.flatMap_cons, List.append_assoc]

end Text

open DeviceTwin.Text

namespace Defect

/-- The texts that a defect tells: names, identifiers, reasons, and a suggestion. -/
def texts : Defect → List String
  | invalidReference _ source _ target suggestion => source :: target :: suggestion.toList
  | duplicateName _ name => [name]
  | invalidStateTransition source target reason => [source, target, reason]
  | unreachableStates initial states => initial :: states
  | missingRequiredField field => [field]
  | invalidFieldValue field expected actual => [field, expected, actual]
  | invalidContext expected actual => [expected, actual]
  | invalidDtmi id reason => [id, reason]
  | circularReference path => path

theorem breaks_elementName (k : ElementKind) : breaks k.name = 0 := by
  cases k <;> rfl

theorem breaks_code (k : DefectKind) : breaks k.code = 0 := by
  cases k <;> rfl

/-- The words of messages and lines hold no line breaks. -/
theorem breaks_words : ∀ word ∈ [" '", "'", "' references unknown ", " (did you mean '", "'?)",
    "Duplicate ", " name '", "Invalid transition '", "' -> '", "': ",
    "Unreachable states from initial state '", "Missing required field '", "Invalid value for '",
    "': expected ", ", got '", "Invalid @context: expected '", "', got '", "Invalid DTMI '",
    "Circular reference: ", "[", "] "], breaks word = 0 := by
  decide +kernel

theorem breaks_question (suggestion : Option String) :
    breaks (question suggestion) = (suggestion.toList.map breaks).sum := by
  have hwords := breaks_words
  simp only [List.forall_mem_cons] at hwords
  cases suggestion with
  | none => rfl
  | some name =>
      change breaks (" (did you mean '" ++ name ++ "'?)") = breaks name + 0
      simp only [breaks_append, hwords, Nat.zero_add]

/-- A message has the line breaks of its texts, and no others. -/
theorem breaks_message (d : Defect) : breaks d.message = (d.texts.map breaks).sum := by
  have hwords := breaks_words
  simp only [List.forall_mem_cons] at hwords
  have hcomma : breaks ", " = 0 := rfl
  have harrow : breaks " -> " = 0 := rfl
  unfold message
  cases d <;>
    simp only [texts, breaks_append, breaks_elementName, breaks_question,
      breaks_interpose hcomma, breaks_interpose harrow, hwords, List.map_cons, List.sum_cons,
      List.map_nil, List.sum_nil, Nat.zero_add, Nat.add_zero, Nat.add_assoc]

theorem breaks_line (d : Defect) : breaks d.line = (d.texts.map breaks).sum := by
  have hwords := breaks_words
  simp only [List.forall_mem_cons] at hwords
  simp only [line, code, breaks_append, breaks_message, breaks_code, hwords, Nat.zero_add]

/-- One line is what a defect fills if and only if none of its texts holds a line break. -/
theorem lines_line_eq_singleton_iff {d : Defect} :
    lines d.line = [d.line] ↔ ∀ t ∈ d.texts, '\n' ∉ t.toList := by
  simp only [lines_eq_singleton_iff, breaks_line, List.sum_eq_zero_iff_forall_eq_nat,
    List.forall_mem_map, breaks_eq_zero_iff]

end Defect

namespace Defects

/-- What a report ends with: an empty line, the number of defects, and nothing behind it. -/
def ending (ds : Defects) : List String :=
  ["", toString ds.length ++ " defect(s)", ""]

theorem breaks_toString (n : Nat) : breaks (toString n) = 0 := by
  refine breaks_eq_zero_iff.2 fun h => ?_
  have hdigits : (toString n).toList = Nat.toDigits 10 n := by
    simp
  rw [hdigits] at h
  exact absurd (Nat.isDigit_of_mem_toDigits (by decide) (by decide) h) (by decide)

theorem lines_report (d : Defect) (ds : Defects) :
    lines (report (d :: ds)) =
      (d :: ds).flatMap (fun d => lines d.line) ++ ending (d :: ds) := by
  have hsummary : breaks (toString (d :: ds).length ++ " defect(s)") = 0 := by
    rw [breaks_append, breaks_toString]
    rfl
  have hreport : report (d :: ds) =
      String.join (((d :: ds).map Defect.line).map (· ++ "\n")) ++
        ("" ++ "\n" ++ (toString (d :: ds).length ++ " defect(s)" ++ "\n" ++ "")) := by
    simp [report, String.append_assoc, Function.comp_def]
  rw [hreport, lines_join_append, lines_append_break, lines_append_break,
    lines_eq_singleton_iff.2 hsummary, List.flatMap_map]
  rfl

/-- One line for each defect is what a report has in front of its ending if and only if no text
of a defect holds a line break. -/
theorem lines_report_eq_map_iff {d : Defect} {ds : Defects} :
    lines (report (d :: ds)) = (d :: ds).map Defect.line ++ ending (d :: ds) ↔
      ∀ e ∈ d :: ds, ∀ t ∈ e.texts, '\n' ∉ t.toList := by
  rw [lines_report, List.append_left_inj]
  constructor
  · intro h e he
    have hline : e.line ∈ (d :: ds).flatMap fun e => lines e.line :=
      h ▸ List.mem_map_of_mem he
    obtain ⟨e', -, he'⟩ := List.mem_flatMap.1 hline
    have hbreaks := breaks_eq_zero_iff.2 (not_mem_of_mem_lines he')
    exact Defect.lines_line_eq_singleton_iff.1 (lines_eq_singleton_iff.2 hbreaks)
  · intro h
    rw [List.map_eq_flatMap]
    exact List.flatMap_congr fun e he => Defect.lines_line_eq_singleton_iff.2 (h e he)

/-- **Lines of a report.** Nothing is reported where there are no defects. Otherwise the lines of
the defects stand one after the other, each defect with one line and one more for every line
break in its texts, and then an empty line and the number of defects. So a report has one line
for each defect, its code and its message, if and only if no text of a defect holds a line
break. -/
theorem report_lines (d : Defect) (ds : Defects) :
    report [] = "" ∧
      lines (report (d :: ds)) =
        (d :: ds).flatMap (fun e => lines e.line) ++
          ["", toString (ds.length + 1) ++ " defect(s)", ""] ∧
      (∀ e : Defect, (lines e.line).length = (e.texts.map breaks).sum + 1) ∧
      (lines (report (d :: ds)) =
          (d :: ds).map (fun e => "[" ++ e.code ++ "] " ++ e.message) ++
            ["", toString (ds.length + 1) ++ " defect(s)", ""] ↔
        ∀ e ∈ d :: ds, ∀ t ∈ e.texts, '\n' ∉ t.toList) := by
  refine ⟨rfl, lines_report d ds, fun e => ?_, lines_report_eq_map_iff⟩
  rw [length_lines, Defect.breaks_line]

open scoped Concrete

/-- A context with a line break in it: the report on the one defect of the description has a
second line, the one of a defect that the description does not have. -/
theorem not_one_line_each :
    let m : Model :=
      { Model.new "dtmi:a;1" "A" "A" with context := "x\n[E005] Duplicate Property name 'y" }
    let forged : Defect := .duplicateName .property "y"
    Validation.validate .standard m = .error [.invalidContext Model.standardContext m.context] ∧
      lines (report [.invalidContext Model.standardContext m.context]) =
        ["[E001] Invalid @context: expected 'dtmi:htc:context;1', got 'x", forged.line, "",
          "1 defect(s)", ""] :=
  ⟨rfl, rfl⟩

end Defects

end DeviceTwin
