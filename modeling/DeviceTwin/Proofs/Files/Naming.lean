import DeviceTwin.Files.Path
import DeviceTwin.Proofs.Text.Split
import Mathlib.Tactic.SplitIfs

/-!
# Names with something behind them

The name that a path ends in is one of its pieces, so putting something behind it gives a path
that ends in the longer name (`Path.name?_of_withSuffix`). If this is a point and a word, the
word is the extension then (`Path.extension?_append`).
-/

namespace DeviceTwin.Files.Path

open DeviceTwin.Text

variable {path : String}

theorem slash_not_mem_of_mem_steps {p : String} (h : p ∈ steps path) : '/' ∉ p.toList := by
  obtain ⟨q, hq, rfl⟩ := List.mem_map.1 (List.mem_filter.1 h).1
  rw [String.toList_ofList]
  exact not_mem_of_mem_pieces hq

theorem pieces_ofSteps {ps : List String} (hne : ps ≠ []) (h : ∀ p ∈ ps, '/' ∉ p.toList) :
    pieces (ofSteps ps) = ps := by
  have htext : ("/" : String).toList = ['/'] := rfl
  rw [pieces, ofSteps, toList_interpose htext, pieces_join (by simpa using hne)]
  · simp [Function.comp_def]
  · simpa using h

theorem pieces_slash (path : String) : pieces ("/" ++ path) = "" :: pieces path := by
  simp [pieces, pieces_cons_self]

/-- A name that a path ends in is a piece of it that leads somewhere. -/
theorem exists_of_name?_eq {name : String} (h : name? path = some name) :
    ∃ above, steps path = above ++ [name] ∧ name ≠ "" ∧ '/' ∉ name.toList := by
  obtain ⟨hlast, -⟩ := Option.filter_eq_some_iff.1 h
  obtain ⟨above, habove⟩ := List.getLast?_eq_some_iff.1 hlast
  have hmem : name ∈ steps path := habove ▸ List.mem_append_right _ List.mem_cons_self
  have hname : name ≠ "" ∧ name ≠ "." := of_decide_eq_true (List.mem_filter.1 hmem).2
  exact ⟨above, habove, hname.1, slash_not_mem_of_mem_steps hmem⟩

/-- With a suffix behind it, a path ends in its name with the suffix behind it. -/
theorem name?_of_withSuffix {suffix other : String} (hslash : '/' ∉ suffix.toList)
    (hlength : 2 < suffix.length) (h : withSuffix? path suffix = some other) :
    ∃ name, name ≠ "" ∧ name? other = some (name ++ suffix) := by
  obtain ⟨name, hname, heq⟩ := Option.map_eq_some_iff.1 h
  obtain ⟨above, habove, hne, hmem⟩ := exists_of_name?_eq hname
  refine ⟨name, hne, ?_⟩
  have hpieces : pieces (ofSteps (above ++ [name ++ suffix])) = above ++ [name ++ suffix] := by
    refine pieces_ofSteps (by simp) fun p hp => ?_
    rcases List.mem_append.1 hp with hp | hp
    · exact slash_not_mem_of_mem_steps (habove ▸ List.mem_append_left _ hp)
    · rw [List.mem_singleton.1 hp, String.toList_append]
      exact mt List.mem_append.1 (not_or.2 ⟨hmem, hslash⟩)
  have hlong : ∀ word : String, word.length ≤ 2 → name ++ suffix ≠ word := by
    rintro word hword rfl
    rw [String.length_append] at hword
    omega
  have hlast : [name ++ suffix].filter (fun p => p ≠ "" ∧ p ≠ ".") = [name ++ suffix] := by
    simp [hlong "" (by decide), hlong "." (by decide)]
  have hsteps : (steps other).getLast? = some (name ++ suffix) := by
    rw [habove, List.dropLast_concat] at heq
    subst heq
    rw [steps]
    split_ifs
    · rw [pieces_slash, hpieces, ← List.cons_append, List.filter_append, hlast,
        List.getLast?_concat]
    · rw [hpieces, List.filter_append, hlast, List.getLast?_concat]
  rw [name?, hsteps]
  simp [hlong ".." (by decide)]

/-- An extension stands behind the last point of a name, and something stands before it. -/
theorem extension?_eq_some_iff {name word : String} (hup : name ≠ "..") :
    extension? name = some word ↔
      ∃ stem, stem ≠ "" ∧ name = stem ++ "." ++ word ∧ '.' ∉ word.toList := by
  constructor
  · intro h
    rw [extension?] at h
    split at h
    · cases h
    · cases h
    · next c stem ext hcut =>
        rw [if_neg hup] at h
        cases h
        obtain ⟨hname, hext⟩ := cutLast_eq_some_iff.1 hcut
        have hstem : (String.ofList (c :: stem)).toList ≠ ("" : String).toList := by simp
        refine ⟨String.ofList (c :: stem), mt (congrArg String.toList) hstem, ?_,
          by simpa using hext⟩
        exact String.toList_inj.1 (by simpa using hname)
  · rintro ⟨stem, hstem, rfl, hword⟩
    have hcut : cutLast '.' (stem ++ "." ++ word).toList = some (stem.toList, word.toList) := by
      simpa using cutLast_append hword stem.toList
    obtain ⟨c, rest, hcons⟩ := List.exists_cons_of_ne_nil (l := stem.toList) (by simpa using hstem)
    rw [extension?, hcut, hcons]
    simp [hup]

theorem extension?_append {name word : String} (hname : name ≠ "") (hdot : '.' ∉ word.toList)
    (hword : word ≠ "") : extension? (name ++ "." ++ word) = some word := by
  refine (extension?_eq_some_iff fun h => ?_).2 ⟨name, hname, rfl, hdot⟩
  have hlength := congrArg String.length h
  have hshort : ("." : String).length = 1 ∧ (".." : String).length = 2 := ⟨rfl, rfl⟩
  have hname' : name.length ≠ 0 := by simpa using hname
  have hword' : word.length ≠ 0 := by simpa using hword
  simp only [String.length_append, hshort] at hlength
  omega

end DeviceTwin.Files.Path
