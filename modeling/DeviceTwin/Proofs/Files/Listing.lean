import DeviceTwin.Files.Entry
import DeviceTwin.Proofs.Text.Table
import Mathlib.Data.List.Sort
import Mathlib.Data.String.Basic

/-!
# The files of a tree

In a proper tree every directory gives its entries different names. `Entry.files` lists each
file of such a tree once, with its address and content (`Proper.mem_files_iff`), and the
addresses rise step by step in the order of their names (`Proper.files_pairwise`): a directory
stands among its siblings as if it were a file of its name, and what it holds comes in its
place. Both are inductions on the tree.
-/

namespace DeviceTwin

namespace Files

/-- A name that an entry of a directory can have. -/
structure IsName (name : String) : Prop where
  ne_empty : name ≠ ""
  ne_dot : name ≠ "."
  ne_up : name ≠ ".."
  slash_not_mem : '/' ∉ name.toList

namespace Entry

/-- A tree as a disk may hold it: the entries of each directory have names, and different
ones. -/
inductive Proper : Entry → Prop
  | file (content : ByteArray) : Proper (file content)
  | directory {entries : List (String × Entry)} (names : ∀ e ∈ entries, IsName e.1)
    (nodup : (entries.map Prod.fst).Nodup) (below : ∀ e ∈ entries, Proper e.2) :
    Proper (directory entries)

/-- Whether a file stands at an address. -/
def HasFile (e : Entry) (a : Address) : Prop :=
  ∃ content, e.find? a = some (file content)

variable {e : Entry} {entries : List (String × Entry)}

theorem Proper.of_mem (h : (Entry.directory entries).Proper) {name : String}
    (he : (name, e) ∈ entries) : IsName name ∧ e.Proper := by
  cases h with
  | directory names _ below => exact ⟨names _ he, below _ he⟩

theorem Proper.child?_eq_some_iff (h : (Entry.directory entries).Proper) {name : String} :
    (Entry.directory entries).child? name = some e ↔ (name, e) ∈ entries := by
  cases h with
  | directory _ nodup _ => exact Text.lookupEntry_eq_some_iff nodup

/-- What is found in a proper tree is proper, and the way to it leads along names. -/
theorem Proper.of_find? (h : e.Proper) {a : Address} {e' : Entry} (hfind : e.find? a = some e') :
    e'.Proper ∧ ∀ name ∈ a, IsName name := by
  induction a generalizing e with
  | nil =>
      obtain rfl := Option.some.inj ((find?_nil e).symm.trans hfind)
      exact ⟨h, fun _ hname => absurd hname List.not_mem_nil⟩
  | cons name a ih =>
      rw [find?_cons, Option.bind_eq_some_iff] at hfind
      obtain ⟨child, hchild, hfind⟩ := hfind
      cases e with
      | file content => exact nomatch hchild
      | directory entries =>
          obtain ⟨hname, hproper⟩ := h.of_mem (h.child?_eq_some_iff.1 hchild)
          obtain ⟨hfound, hnames⟩ := ih hproper hfind
          exact ⟨hfound, List.forall_mem_cons.2 ⟨hname, hnames⟩⟩

theorem find?_append (e : Entry) (a b : Address) :
    e.find? (a ++ b) = (e.find? a).bind (·.find? b) := by
  induction a generalizing e with
  | nil => rw [List.nil_append, find?_nil, Option.bind_some]
  | cons name a ih =>
      rw [List.cons_append, find?_cons, find?_cons, Option.bind_assoc]
      exact Option.bind_congr fun e' _ => ih e'

/-- Above what is found stand directories. -/
theorem exists_directory_of_find? {a b : Address} {e' : Entry} (hb : b ≠ [])
    (h : e.find? (a ++ b) = some e') : ∃ es, e.find? a = some (directory es) := by
  rw [find?_append, Option.bind_eq_some_iff] at h
  obtain ⟨above, habove, h⟩ := h
  obtain ⟨name, b, rfl⟩ := List.exists_cons_of_ne_nil hb
  cases above with
  | file content => exact nomatch h
  | directory es => exact ⟨es, habove⟩

/-! ### The list of files -/

theorem filesBelow_eq_map (entries : List (String × Entry)) :
    filesBelow entries = entries.map fun e => (e.1, e.2.files.map fun f => (e.1 :: f.1, f.2)) := by
  induction entries with
  | nil => rfl
  | cons e es ih =>
      obtain ⟨name, e⟩ := e
      rw [filesBelow, ih, List.map_cons]

theorem mem_inOrder {α : Type} {found : List (String × List α)} {x : α} :
    x ∈ inOrder found ↔ ∃ l ∈ found, x ∈ l.2 := by
  simp [inOrder]

/-- A file below a directory is one of its entries, or stands below one. -/
theorem mem_files_directory {name : String} {a : Address} {content : ByteArray} :
    (name :: a, content) ∈ (directory entries).files ↔
      ∃ e, (name, e) ∈ entries ∧ (a, content) ∈ e.files := by
  rw [files, mem_inOrder, filesBelow_eq_map]
  constructor
  · rintro ⟨l, hl, hf⟩
    obtain ⟨⟨name', e⟩, he, rfl⟩ := List.mem_map.1 hl
    obtain ⟨⟨a', content'⟩, hbelow, heq⟩ := List.mem_map.1 hf
    simp only [Prod.mk.injEq, List.cons.injEq] at heq
    obtain ⟨⟨rfl, rfl⟩, rfl⟩ := heq
    exact ⟨e, he, hbelow⟩
  · rintro ⟨e, he, hf⟩
    exact ⟨_, List.mem_map_of_mem he, List.mem_map_of_mem hf⟩

theorem nil_not_mem_files_directory (content : ByteArray) :
    ([], content) ∉ (directory entries).files := by
  simp [files, mem_inOrder, filesBelow_eq_map]

/-- Every file of a proper tree is listed with its address, and nothing else is. -/
theorem Proper.mem_files_iff (h : e.Proper) {a : Address} {content : ByteArray} :
    (a, content) ∈ e.files ↔ e.find? a = some (Entry.file content) := by
  induction h generalizing a with
  | file content' =>
      cases a with
      | nil => simp [files, eq_comm]
      | cons name a =>
          rw [find?_cons]
          simp [files, child?, entries]
  | @directory entries names nodup below ih =>
      cases a with
      | nil => simp [nil_not_mem_files_directory]
      | cons name a =>
          rw [mem_files_directory, find?_cons, Option.bind_eq_some_iff]
          refine exists_congr fun e => ?_
          rw [(Proper.directory names nodup below).child?_eq_some_iff]
          exact and_congr_right fun he => ih _ he

theorem Proper.hasFile_iff (h : e.Proper) {a : Address} :
    e.HasFile a ↔ ∃ content, (a, content) ∈ e.files :=
  exists_congr fun _ => h.mem_files_iff.symm

/-! ### Its order -/

/-- Lists under different names come in the strict order of the names. -/
theorem pairwise_mergeSort_lt {α : Type} {found : List (String × α)}
    (h : (found.map Prod.fst).Nodup) :
    (found.mergeSort fun a b => decide (a.1 ≤ b.1)).Pairwise fun a b => a.1 < b.1 := by
  have hsorted : (found.mergeSort fun a b => decide (a.1 ≤ b.1)).Pairwise
      fun a b => decide (a.1 ≤ b.1) = true :=
    List.pairwise_mergeSort (fun _ _ _ hab hbc => by
      simp only [decide_eq_true_eq] at hab hbc ⊢
      exact String.le_trans hab hbc) (fun a b => by simpa using String.le_total a.1 b.1) found
  have hnodup : ((found.mergeSort fun a b => decide (a.1 ≤ b.1)).map Prod.fst).Nodup :=
    ((List.mergeSort_perm _ _).map Prod.fst).nodup_iff.2 h
  refine hsorted.imp₂ (fun a b hle hne => ?_) (List.pairwise_map.1 hnodup)
  exact Text.lt_of_not_lt_of_ne (String.not_lt.2 (of_decide_eq_true hle)) (Ne.symm hne)

/-- The addresses of the files of a proper tree rise. -/
theorem Proper.files_pairwise (h : e.Proper) :
    (e.files.map Prod.fst).Pairwise (· < ·) := by
  induction h with
  | file content => simp [files]
  | @directory entries names nodup below ih =>
      have hnames : ((filesBelow entries).map Prod.fst).Nodup := by
        rw [filesBelow_eq_map, List.map_map]
        exact nodup
      -- The addresses of each entry begin with its name.
      have hfound : ∀ l ∈ filesBelow entries, ∃ e ∈ entries, l.1 = e.1 ∧
          l.2.map Prod.fst = (e.2.files.map Prod.fst).map (e.1 :: ·) := by
        rw [filesBelow_eq_map]
        refine List.forall_mem_map.2 fun e he => ⟨e, he, rfl, ?_⟩
        simp only [List.map_map, Function.comp_def]
      have hbelow : ∀ l ∈ filesBelow entries, ∀ f ∈ l.2, ∃ a, f.1 = l.1 :: a := by
        intro l hl f hf
        obtain ⟨e, -, hname, hmap⟩ := hfound l hl
        have hmem : f.1 ∈ l.2.map Prod.fst := List.mem_map_of_mem hf
        rw [hmap] at hmem
        obtain ⟨a, -, ha⟩ := List.mem_map.1 hmem
        exact ⟨a, by rw [← ha, hname]⟩
      rw [files, inOrder, List.pairwise_map, List.pairwise_flatMap]
      refine ⟨fun l hl => ?_, ?_⟩
      · obtain ⟨e, he, -, hmap⟩ := hfound l (List.mem_mergeSort.1 hl)
        rw [← List.pairwise_map (f := Prod.fst), hmap, List.pairwise_map]
        exact (ih e he).imp fun hlt => List.Lex.cons hlt
      · refine (pairwise_mergeSort_lt hnames).imp_of_mem fun hl hl' hlt f hf g hg => ?_
        obtain ⟨a, ha⟩ := hbelow _ (List.mem_mergeSort.1 hl) f hf
        obtain ⟨b, hb⟩ := hbelow _ (List.mem_mergeSort.1 hl') g hg
        rw [ha, hb]
        exact List.Lex.rel hlt

end Entry

end Files

end DeviceTwin
