import DeviceTwin.Proofs.Suggestion.Best
import DeviceTwin.Proofs.Validation.References
import DeviceTwin.Validation.Check

/-!
# Checks that come to the same suggestions

What a matcher says of two names may depend on what it was asked before, and so on the order in
which names come out of a hash set. It is steady for a description if it only ever says one thing
of the names that are asked about there (`Steady`). Then two searches for the same dangling sites
among the same names find the same, in whatever order these are listed (`dangling_unique`).
-/

namespace DeviceTwin.Validation

open DeviceTwin.Suggestion DeviceTwin.Text

/-- Two lists that both correspond to a third one are equal, if what corresponds is unique. -/
theorem eq_of_forall₂ {α β : Type} {R R' : α → β → Prop} {as : List α} {bs bs' : List β}
    (hone : ∀ a ∈ as, ∀ b b', R a b → R' a b' → b' = b) (h : List.Forall₂ R as bs)
    (h' : List.Forall₂ R' as bs') : bs' = bs := by
  induction h generalizing bs' with
  | nil => exact List.forall₂_nil_left_iff.1 h'
  | cons hfirst _ ih =>
      obtain ⟨b', bs', hfirst', hrest, rfl⟩ := List.forall₂_cons_left_iff.1 h'
      obtain ⟨hone, hones⟩ := List.forall_mem_cons.1 hone
      rw [hone _ _ hfirst hfirst', ih hones hrest]

variable [Matcher]

/-- The matcher says one thing only of an undeclared name and a declared one of its kind, whatever
it was asked before. -/
def Steady (s : ValidationSettings) (m : Model) : Prop :=
  ∀ r, .reference r ∈ sites s.checkEmittedEvents m → (Site.reference r).Dangling m →
    ∀ name ∈ declaredNames m r.targetKind, ∀ c c',
      Says r.targetName name c → Says r.targetName name c' → c = c'

section Names

variable {wanted : String} {names names' : List String} {memory memory' : Matcher.Memory}

theorem exists_said (h : Matcher.Reached memory) {c : Comparison}
    (hc : c ∈ ((compareAll wanted names).run memory).1) :
    c.candidate ∈ names ∧ Says wanted c.candidate c := by
  obtain ⟨name, hname, htold⟩ := exists_left_of_mem (says_compareAll h wanted names) hc
  rw [htold.candidate_eq]
  exact ⟨hname, htold⟩

/-- What is said once is said in every list that has the name. -/
theorem mem_compareAll_of_mem (hone : ∀ name ∈ names, ∀ c c',
      Says wanted name c → Says wanted name c' → c = c')
    (hnames : ∀ name, name ∈ names ↔ name ∈ names') (h : Matcher.Reached memory)
    (h' : Matcher.Reached memory') {c : Comparison}
    (hc : c ∈ ((compareAll wanted names).run memory).1) :
    c ∈ ((compareAll wanted names').run memory').1 := by
  obtain ⟨hmem, htold⟩ := exists_said h hc
  have hother : c.candidate ∈
      ((compareAll wanted names').run memory').1.map Comparison.candidate := by
    rw [map_candidate_compareAll h', ← hnames]
    exact hmem
  obtain ⟨c', hc', heq⟩ := List.mem_map.1 hother
  have htold' := (exists_said h' hc').2
  rw [heq] at htold'
  exact hone _ hmem c c' htold htold' ▸ hc'

theorem best?_unique (hone : ∀ name ∈ names, ∀ c c',
      Says wanted name c → Says wanted name c' → c = c')
    (hnames : ∀ name, name ∈ names ↔ name ∈ names') (h : Matcher.Reached memory)
    (h' : Matcher.Reached memory') :
    ((best? wanted names).run memory).1 = ((best? wanted names').run memory').1 := by
  have hone' : ∀ name ∈ names', ∀ c c', Says wanted name c → Says wanted name c' → c = c' :=
    fun name hname => hone name ((hnames name).2 hname)
  exact bestCompared?_congr fun c => ⟨mem_compareAll_of_mem hone hnames h h',
    mem_compareAll_of_mem hone' (fun name => (hnames name).symm) h' h⟩

end Names

section Searches

variable {s : ValidationSettings} {m m' : Model} (order order' : HashOrder)

/-- A dangling site is told as one thing in both of two checks. -/
theorem tells_unique
    (hdeclared : ∀ kind name, name ∈ declaredNames m' kind ↔ name ∈ declaredNames m kind)
    (hsteady : Steady s m) {o : Site} (ho : o ∈ sites s.checkEmittedEvents m)
    (hdangling : o.Dangling m) {d d' : Defect} (hd : @Site.Tells _ order s m o d)
    (hd' : @Site.Tells _ order' s m' o d') : d' = d := by
  cases o with
  | endpoint =>
      obtain rfl := hd
      exact hd'
  | reference r =>
      obtain ⟨memory, h, rfl⟩ := hd
      obtain ⟨memory', h', rfl⟩ := hd'
      congr 1
      rw [suggestion, suggestion]
      split_ifs with hs
      · refine best?_unique (fun name hname => hsteady r ho hdangling name ?_) (fun name => ?_) h' h
        · rwa [@mem_listedNames _ _ order', hdeclared] at hname
        · rw [@mem_listedNames _ _ order', @mem_listedNames _ _ order, hdeclared]
      · rfl

/-- Two searches for the same sites among the same names find the same. -/
theorem dangling_unique
    (hsites : ∀ checked, sites checked m' = sites checked m)
    (hdeclared : ∀ kind name, name ∈ declaredNames m' kind ↔ name ∈ declaredNames m kind)
    (hsteady : Steady s m) :
    ((@danglingDefects _ order' s m').run Matcher.blank).1 =
      ((@danglingDefects _ order s m).run Matcher.blank).1 := by
  have hdangling : ((sites s.checkEmittedEvents m').filter fun o => o.Dangling m') =
      (sites s.checkEmittedEvents m).filter fun o => o.Dangling m := by
    rw [hsites]
    exact List.filter_congr fun o _ => decide_eq_decide.2 (not_congr (hdeclared _ _))
  have hfirst := (@covers_sites _ order s m _ .blank).2
  have hsecond := (@covers_sites _ order' s m' _ .blank).2
  rw [hdangling] at hsecond
  have hone : ∀ o ∈ (sites s.checkEmittedEvents m).filter fun o => o.Dangling m, ∀ d d',
      @Site.Tells _ order s m o d → @Site.Tells _ order' s m' o d' → d' = d :=
    fun o ho _ _ => tells_unique order order' hdeclared hsteady (List.mem_of_mem_filter ho)
      (of_decide_eq_true (List.mem_filter.1 ho).2)
  exact eq_of_forall₂ hone hfirst hsecond

end Searches

end DeviceTwin.Validation
