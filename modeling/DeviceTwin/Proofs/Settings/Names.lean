import DeviceTwin.Proofs.Settings.Taking
import DeviceTwin.Proofs.Text.Lower
import DeviceTwin.Proofs.Text.Split
import DeviceTwin.Settings.Environment
import DeviceTwin.Toml.Document
import Mathlib.Data.List.TakeWhile

/-!
# Names of settings

A key without quotes is a way of one step, and a variable `TWIN__SECTION__SETTING` is a way of
two: the section and the setting in small letters. Capitals are put into small letters one by
one, so each setting has one variable in capitals (`Named.eq_variableName_iff`).
-/

namespace DeviceTwin.Settings

open DeviceTwin.Text

/-! ### Ways -/

theorem isIdentifier_of_isBare {c : Char} (h : Toml.isBare c = true) : isIdentifier c = true := by
  simp only [Toml.isBare, isIdentifier, Bool.or_eq_true] at h ⊢
  tauto

theorem stepsOf_of_isIdentifier {key : String} (h : ∀ c ∈ key.toList, isIdentifier c = true) :
    stepsOf key = [.key key] := by
  rw [stepsOf, List.takeWhile_eq_self_iff.2 h, List.dropWhile_eq_nil_iff.2 h]
  by_cases hkey : key.toList.isEmpty = true
  · simp [hkey]
  · simp [hkey, stepsAfter?]

theorem stepsOf_pair {a b : List Char} (ha : a ≠ []) (hb : b ≠ [])
    (ha' : ∀ c ∈ a, isIdentifier c = true) (hb' : ∀ c ∈ b, isIdentifier c = true) :
    stepsOf (String.ofList (a ++ '.' :: b)) =
      [.key (String.ofList a), .key (String.ofList b)] := by
  obtain ⟨htake, hdrop⟩ := takeWhile_append_stop (s := '.' :: b) ha' fun c hc => by
    cases hc
    decide
  obtain ⟨n, hn⟩ : ∃ n, (a ++ '.' :: b).length = n + 1 :=
    ⟨a.length + b.length, by simp [Nat.add_assoc]⟩
  rw [stepsOf, String.toList_ofList, htake, hdrop, hn]
  simp [stepsAfter?, List.takeWhile_eq_self_iff.2 hb', List.dropWhile_eq_nil_iff.2 hb', ha, hb]

/-! ### Words of capitals -/

/-- A character of a name in capitals. -/
def isCapitalChar (c : Char) : Bool :=
  isUpper c || isDigit c || c = '_'

/-- A word of capitals, digits and underscores. -/
structure IsCapital (w : List Char) : Prop where
  ne_nil : w ≠ []
  all : w.all isCapitalChar = true

instance : DecidablePred IsCapital := fun w =>
  decidable_of_iff (w ≠ [] ∧ w.all isCapitalChar = true)
    ⟨fun h => ⟨h.1, h.2⟩, fun h => ⟨h.1, h.2⟩⟩

theorem isCapitalChar_iff {c : Char} :
    isCapitalChar c = true ↔ isUpper c = true ∨ isDigit c = true ∨ c = '_' := by
  simp [isCapitalChar, or_assoc]

theorem toNat_lt_of_isCapitalChar {c : Char} (h : isCapitalChar c = true) : c.toNat < 97 := by
  rcases isCapitalChar_iff.1 h with h | h | rfl
  · have hupper := isUpper_iff.1 h
    omega
  · simp only [isDigit, Bool.and_eq_true, decide_eq_true_eq] at h
    omega
  · decide

theorem isIdentifier_toLower {c : Char} (h : isCapitalChar c = true) :
    isIdentifier (toLower c) = true := by
  by_cases hc : isUpper c = true
  · have hupper := isUpper_iff.1 hc
    have hlower : isLower (toLower c) = true := by
      simp only [isLower, toNat_toLower_of_isUpper hc, Bool.and_eq_true, decide_eq_true_eq]
      omega
    simp [isIdentifier, isLetter, hlower]
  · rw [toLower_of_not_isUpper hc]
    rcases isCapitalChar_iff.1 h with h | h | rfl
    · exact absurd h hc
    · simp [isIdentifier, h]
    · rfl

namespace IsCapital

variable {w : List Char}

theorem toNat_lt (h : IsCapital w) : ∀ c ∈ w, c.toNat < 97 :=
  fun c hc => toNat_lt_of_isCapitalChar (List.all_eq_true.1 h.all c hc)

theorem isAscii (h : IsCapital w) : IsAscii w :=
  fun c hc => Nat.lt_trans (h.toNat_lt c hc) (by decide)

theorem isIdentifier (h : IsCapital w) : ∀ c ∈ w.map toLower, isIdentifier c = true :=
  List.forall_mem_map.2 fun c hc => isIdentifier_toLower (List.all_eq_true.1 h.all c hc)

theorem map_ne_nil (h : IsCapital w) : w.map toLower ≠ [] :=
  fun hnil => h.ne_nil (List.map_eq_nil_iff.1 hnil)

/-- A word of capitals that was put into small letters stays as it is. -/
theorem lowered_map_toLower (h : IsCapital w) :
    lowered (String.ofList (w.map toLower)) = String.ofList (w.map toLower) := by
  rw [lowered_ofList h.isAscii.map_toLower, List.map_map]
  simp [Function.comp_def, toLower_toLower]

/-- Words of capitals differ in small letters as well. -/
theorem map_toLower_inj {w' : List Char} (h : IsCapital w) (h' : IsCapital w')
    (heq : w.map toLower = w'.map toLower) : w = w' :=
  Text.map_toLower_inj h.toNat_lt h'.toNat_lt heq

end IsCapital

/-! ### Variables -/

/-- The name of a variable has three parts between double underscores: the mark, a section and
a setting, all of them in capitals. -/
structure Named (name : String) (group setting : List Char) : Prop where
  pieces : doublePieces '_' name.toList = ["TWIN".toList, group, setting]
  group_isCapital : IsCapital group
  setting_isCapital : IsCapital setting

instance (name : String) (group setting : List Char) : Decidable (Named name group setting) :=
  decidable_of_iff (doublePieces '_' name.toList = ["TWIN".toList, group, setting] ∧
      IsCapital group ∧ IsCapital setting)
    ⟨fun h => ⟨h.1, h.2.1, h.2.2⟩, fun h => ⟨h.1, h.2, h.3⟩⟩

namespace Named

variable {name : String} {group setting : List Char}

theorem toList_eq (h : Named name group setting) :
    name.toList = "TWIN__".toList ++ (group ++ '_' :: '_' :: setting) := by
  have hjoin : ['_', '_'].intercalate (doublePieces '_' name.toList) = name.toList :=
    intercalate_doublePieces name.toList
  rw [← hjoin, h.pieces]
  simp [List.intercalate_cons_cons]

theorem eq_of_named {name' : String} (h : Named name group setting)
    (h' : Named name' group setting) : name = name' := by
  rw [← String.toList_inj, h.toList_eq, h'.toList_eq]

theorem isAscii (h : Named name group setting) : IsAscii name.toList := by
  rw [h.toList_eq]
  intro c hc
  simp only [List.mem_append, List.mem_cons] at hc
  rcases hc with hc | hc | rfl | rfl | hc
  · have hmark : "TWIN__".toList.all (fun c => decide (c.toNat < 128)) = true := rfl
    exact of_decide_eq_true (List.all_eq_true.1 hmark c hc)
  · exact h.group_isCapital.isAscii c hc
  · decide
  · decide
  · exact h.setting_isCapital.isAscii c hc

/-- The setting of a variable has the parts of its name in small letters. -/
theorem settingKey?_eq (h : Named name group setting) :
    Environment.settingKey? name =
      some (String.ofList (group.map toLower ++ '.' :: setting.map toLower)) := by
  have hlower : lowered name = String.ofList (name.toList.map toLower) := by
    rw [← lowered_ofList h.isAscii, String.ofList_toList]
  have hrest : doublePieces '_' (group ++ '_' :: '_' :: setting) = [group, setting] := by
    have hpieces := h.pieces
    rw [h.toList_eq] at hpieces
    have hmark :
        doublePieces '_' ("TWIN".toList ++ '_' :: '_' :: (group ++ '_' :: '_' :: setting)) =
          "TWIN".toList :: doublePieces '_' (group ++ '_' :: '_' :: setting) :=
      doublePieces_append (by decide) _
    exact (List.cons.inj (hmark.symm.trans hpieces)).2
  have hmap : (group ++ '_' :: '_' :: setting).map toLower =
      group.map toLower ++ '_' :: '_' :: setting.map toLower := by
    rw [List.map_append]
    rfl
  have hbegin : name.toList.map toLower =
      Environment.mark.toList ++ (group ++ '_' :: '_' :: setting).map toLower := by
    rw [h.toList_eq, List.map_append]
    rfl
  have hunderscore : ∀ c, toLower c = '_' ↔ c = '_' := fun c => toLower_eq_iff rfl
  rw [Environment.settingKey?, hlower, String.toList_ofList,
    afterBeginning_eq_some_iff.2 hbegin, Option.map_some, doublePieces_map hunderscore, hrest]
  rfl

theorem stepsOf_eq (h : Named name group setting) :
    stepsOf (String.ofList (group.map toLower ++ '.' :: setting.map toLower)) =
      [.key (String.ofList (group.map toLower)), .key (String.ofList (setting.map toLower))] :=
  stepsOf_pair h.group_isCapital.map_ne_nil h.setting_isCapital.map_ne_nil
    h.group_isCapital.isIdentifier h.setting_isCapital.isIdentifier

end Named

/-- Every setting has a variable in capitals. -/
theorem Setting.exists_named {x : Setting} (hx : x ∈ Setting.all) :
    ∃ group setting, Named x.variableName group setting ∧
      String.ofList (group.map toLower) = x.group ∧
      String.ofList (setting.map toLower) = x.name := by
  let parts := doublePieces '_' x.variableName.toList
  refine ⟨parts.getD 1 [], parts.getD 2 [], ?_⟩
  simp only [Setting.all, List.mem_cons, List.not_mem_nil, or_false] at hx
  rcases hx with rfl | rfl | rfl | rfl | rfl | rfl | rfl <;> decide

/-- A variable in capitals is the one of a setting if its parts are the ones of the setting in
small letters. -/
theorem Named.eq_variableName_iff {name : String} {group setting : List Char}
    (h : Named name group setting) {x : Setting} (hx : x ∈ Setting.all) :
    name = x.variableName ↔ String.ofList (group.map toLower) = x.group ∧
      String.ofList (setting.map toLower) = x.name := by
  obtain ⟨group', setting', hnamed, hgroup, hsetting⟩ := Setting.exists_named hx
  rw [← hgroup, ← hsetting, String.ofList_inj, String.ofList_inj]
  constructor
  · rintro rfl
    have hparts := h.pieces.symm.trans hnamed.pieces
    simp only [List.cons.injEq, true_and, and_true] at hparts
    rw [hparts.1, hparts.2]
    exact ⟨rfl, rfl⟩
  · rintro ⟨hg, hs⟩
    rw [← h.group_isCapital.map_toLower_inj hnamed.group_isCapital hg,
      ← h.setting_isCapital.map_toLower_inj hnamed.setting_isCapital hs] at hnamed
    exact h.eq_of_named hnamed

end DeviceTwin.Settings
