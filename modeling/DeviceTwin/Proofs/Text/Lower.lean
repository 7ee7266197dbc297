import DeviceTwin.Text.Lower
import Mathlib.Logic.Basic
import Mathlib.Data.List.Basic

/-!
# Small letters of ASCII texts

A text of ASCII characters is put into small letters character by character.
-/

namespace DeviceTwin.Text

theorem isUpper_iff {c : Char} : isUpper c = true ↔ 65 ≤ c.toNat ∧ c.toNat ≤ 90 := by
  simp [isUpper]

theorem toNat_ofNat {n : Nat} (h : n < 0xD800) : (Char.ofNat n).toNat = n := by
  have hvalid : n.isValidChar := .inl h
  rw [Char.ofNat, dif_pos hvalid]
  rfl

theorem toNat_toLower_of_isUpper {c : Char} (h : isUpper c = true) :
    (toLower c).toNat = c.toNat + 32 := by
  obtain ⟨-, hle⟩ := isUpper_iff.1 h
  rw [toLower, if_pos h, toNat_ofNat (by omega)]

theorem toLower_of_not_isUpper {c : Char} (h : ¬ isUpper c = true) : toLower c = c :=
  if_neg h

theorem toLower_toLower (c : Char) : toLower (toLower c) = toLower c := by
  by_cases h : isUpper c = true
  · refine toLower_of_not_isUpper fun hlower => ?_
    have hupper := isUpper_iff.1 h
    have hlower := isUpper_iff.1 hlower
    rw [toNat_toLower_of_isUpper h] at hlower
    omega
  · rw [toLower_of_not_isUpper h, toLower_of_not_isUpper h]

/-- A character that is no letter is not the small form of another one. -/
theorem toLower_eq_iff {c d : Char} (hd : isLetter d = false) : toLower c = d ↔ c = d := by
  have hnot : ¬ isUpper d = true ∧ ¬ isLower d = true := by
    simpa [isLetter] using hd
  constructor
  · intro h
    by_cases hc : isUpper c = true
    · have hupper := isUpper_iff.1 hc
      have hd' : d.toNat = c.toNat + 32 := h ▸ toNat_toLower_of_isUpper hc
      refine absurd ?_ hnot.2
      simp only [isLower, hd', Bool.and_eq_true, decide_eq_true_eq]
      omega
    · rwa [toLower_of_not_isUpper hc] at h
  · rintro rfl
    exact toLower_of_not_isUpper hnot.1

/-- Characters before the small letters differ in small letters as well. -/
theorem toLower_inj {c d : Char} (hc : c.toNat < 97) (hd : d.toNat < 97)
    (h : toLower c = toLower d) : c = d := by
  have hsize := congrArg Char.toNat h
  by_cases hc' : isUpper c = true <;> by_cases hd' : isUpper d = true
  · rw [toNat_toLower_of_isUpper hc', toNat_toLower_of_isUpper hd'] at hsize
    exact Char.toNat_inj.1 (by omega)
  · rw [toNat_toLower_of_isUpper hc', toLower_of_not_isUpper hd'] at hsize
    have hupper := isUpper_iff.1 hc'
    omega
  · rw [toLower_of_not_isUpper hc', toNat_toLower_of_isUpper hd'] at hsize
    have hupper := isUpper_iff.1 hd'
    omega
  · rwa [toLower_of_not_isUpper hc', toLower_of_not_isUpper hd'] at h

theorem map_toLower_inj {s t : List Char} (hs : ∀ c ∈ s, c.toNat < 97)
    (ht : ∀ c ∈ t, c.toNat < 97) (h : s.map toLower = t.map toLower) : s = t := by
  induction s generalizing t with
  | nil => exact (List.map_eq_nil_iff.1 h.symm).symm
  | cons c s ih =>
      cases t with
      | nil => cases h
      | cons d t =>
          obtain ⟨hcd, hst⟩ := List.cons.inj h
          obtain ⟨hc, hs⟩ := List.forall_mem_cons.1 hs
          obtain ⟨hd, ht⟩ := List.forall_mem_cons.1 ht
          rw [toLower_inj hc hd hcd, ih hs ht hst]

def IsAscii (s : List Char) : Prop :=
  ∀ c ∈ s, c.toNat < 128

theorem lowered_ofList {s : List Char} (h : IsAscii s) :
    lowered (String.ofList s) = String.ofList (s.map toLower) := by
  have hsigma : '\u03a3' ∉ s := fun hmem => absurd (h _ hmem) (by decide)
  have hsmall : s.flatMap small = s.flatMap fun c => [toLower c] :=
    List.flatMap_congr fun c hc => if_pos (h c hc)
  rw [lowered, String.toList_ofList, loweredBehind_eq_flatMap hsigma, hsmall,
    List.map_eq_flatMap]

theorem IsAscii.map_toLower {s : List Char} (h : IsAscii s) : IsAscii (s.map toLower) := by
  refine List.forall_mem_map.2 fun c hc => ?_
  by_cases hc' : isUpper c = true
  · have hupper := isUpper_iff.1 hc'
    rw [toNat_toLower_of_isUpper hc']
    omega
  · rw [toLower_of_not_isUpper hc']
    exact h c hc

end DeviceTwin.Text
