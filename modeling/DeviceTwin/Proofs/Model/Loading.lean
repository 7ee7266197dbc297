import DeviceTwin.Model.Loading
import DeviceTwin.Proofs.Files.Listing
import DeviceTwin.Proofs.Files.Naming
import DeviceTwin.Proofs.Files.Writing

/-!
# The descriptions below a directory

A path that leads to a directory can be continued by the address of what stands below the
directory (`Disk.look_joined`), so each file that is found there can also be loaded on its own.
`Model.loadDirectory` answers with one outcome for each wanted file, in the order of the
addresses and each the one that the file has on its own (`Model.loadDirectory_exact`). Which
files are wanted is a matter of their addresses (`LoaderSettings.Wanted`), so what stands in one
file has no part in the outcomes of the others.
-/

namespace DeviceTwin

open DeviceTwin.Files DeviceTwin.Json

namespace Files

open Entry

/-! ### Paths below a directory -/

theorem IsName.piece_ne {name : String} (h : IsName name) : ¬ (name = "" ∨ name = ".") :=
  not_or.2 ⟨h.ne_empty, h.ne_dot⟩

theorem IsName.next_eq {name : String} (h : IsName name) (place : Address) :
    Disk.next place name = place ++ [name] := by
  rw [Disk.next, if_neg h.piece_ne, if_neg h.ne_up]

/-- A path of names does not start at the top. -/
theorem isAbsolute_ofSteps {a : Address} (hnames : ∀ name ∈ a, IsName name) :
    Path.isAbsolute (Path.ofSteps a) = false := by
  cases a with
  | nil => rfl
  | cons name a =>
      have hname := hnames name List.mem_cons_self
      obtain ⟨c, rest, hcons⟩ : ∃ c rest, name.toList = c :: rest :=
        List.exists_cons_of_ne_nil (by simpa using hname.ne_empty)
      have hc : c ≠ '/' := by
        rintro rfl
        exact hname.slash_not_mem (hcons ▸ List.mem_cons_self)
      have hhead : (Path.ofSteps (name :: a)).toList.head? = some c := by
        cases a with
        | nil => rw [show Path.ofSteps [name] = name from rfl, hcons, List.head?_cons]
        | cons second a =>
            rw [show Path.ofSteps (name :: second :: a) = name ++ "/" ++ Path.ofSteps (second :: a)
              from rfl]
            simp [hcons]
      simp [Path.isAbsolute, hhead, hc]

namespace Disk

variable {d : Disk} {path : String} {entries : List (String × Entry)} {e : Entry} {a : Address}

/-- Names lead down to what is found under them. -/
theorem follow_names {place : Address} (hplace : d.root.find? place = some (directory entries))
    (hnames : ∀ name ∈ a, IsName name) (hfind : (directory entries).find? a = some e) :
    d.follow place a = .ok (place ++ a) := by
  induction a generalizing place entries with
  | nil => rw [follow, List.append_nil]
  | cons name a ih =>
      obtain ⟨hname, hnames⟩ := List.forall_mem_cons.1 hnames
      refine follow_cons_eq_ok_iff.2 ⟨⟨_, hplace⟩, ?_⟩
      rw [hname.next_eq, List.append_cons place name a]
      cases a with
      | nil => rw [follow, List.append_nil]
      | cons second a =>
          rw [← List.singleton_append] at hfind
          obtain ⟨es, hes⟩ := exists_directory_of_find? (List.cons_ne_nil second a) hfind
          rw [find?_append, hes] at hfind
          refine ih ?_ hnames hfind
          rw [find?_append, hplace]
          exact hes

/-- The pieces of a path, without the one behind a slash at its end. -/
theorem exists_pieces_joined {rel : String} (hpath : path ≠ "") (hrel : Path.isAbsolute rel = false)
    (place : Address) (hfollow : d.follow (d.start path) (Path.pieces path) = .ok place) :
    ∃ ps, Path.pieces (Path.joined path rel) = ps ++ Path.pieces rel ∧
      d.follow (d.start path) ps = .ok place := by
  by_cases hslash : path.toList.getLast? = some '/'
  · obtain ⟨above, habove⟩ := List.getLast?_eq_some_iff.1 hslash
    have hpieces : Path.pieces path = (Text.pieces '/' above).map String.ofList ++ [""] := by
      rw [Path.pieces, habove, Text.pieces_append_cons]
      simp
    rw [hpieces] at hfollow
    obtain ⟨place', habove', hlast⟩ := follow_append_eq_ok_iff.1 hfollow
    obtain rfl : place' = place := Except.ok.inj (follow_cons_eq_ok_iff.1 hlast).2
    refine ⟨_, ?_, habove'⟩
    have hjoined : Path.joined path rel = path ++ rel := by
      simp [Path.joined, hrel, hpath, hslash]
    rw [hjoined, Path.pieces, String.toList_append, habove, List.append_assoc,
      List.singleton_append, Text.pieces_append_cons, List.map_append, Path.pieces]
  · refine ⟨Path.pieces path, ?_, hfollow⟩
    have hjoined : Path.joined path rel = path ++ "/" ++ rel := by
      simp [Path.joined, hrel, hpath, hslash]
    rw [hjoined, Path.pieces, String.toList_append, String.toList_append, List.append_assoc,
      show ("/" : String).toList = ['/'] from rfl, List.singleton_append,
      Text.pieces_append_cons, List.map_append, Path.pieces, Path.pieces]

/-- What is joined to a path stands behind it. -/
theorem exists_joined {rel : String} (hpath : path ≠ "") (hrel : Path.isAbsolute rel = false) :
    ∃ more, Path.joined path rel = path ++ more := by
  simp only [Path.joined, hrel, Bool.false_or, String.isEmpty_iff, if_neg hpath]
  split_ifs
  · exact ⟨rel, rfl⟩
  · exact ⟨"/" ++ rel, String.append_assoc⟩

theorem start_append (hpath : path ≠ "") (more : String) :
    d.start (path ++ more) = d.start path := by
  obtain ⟨c, rest, hcons⟩ : ∃ c rest, path.toList = c :: rest :=
    List.exists_cons_of_ne_nil (by simpa using hpath)
  simp [start, Path.isAbsolute, hcons]

/-- What is found below a directory stands at the path of the directory and the address. -/
theorem look_joined (hlook : d.look path = some (directory entries)) (ha : a ≠ [])
    (hnames : ∀ name ∈ a, IsName name) (hfind : (directory entries).find? a = some e) :
    d.look (Path.joined path (Path.ofSteps a)) = some e := by
  have hrel := isAbsolute_ofSteps hnames
  rw [look] at hlook
  cases hplace : d.address path with
  | error o => simp [hplace] at hlook
  | ok place =>
      rw [hplace] at hlook
      change d.root.find? place = _ at hlook
      obtain ⟨hpath, hfollow⟩ := address_eq_ok_iff.1 hplace
      obtain ⟨ps, hpieces, hps⟩ := exists_pieces_joined hpath hrel place hfollow
      rw [Path.pieces_ofSteps ha fun name hname => (hnames name hname).slash_not_mem] at hpieces
      have haddress : d.address (Path.joined path (Path.ofSteps a)) = .ok (place ++ a) := by
        obtain ⟨more, hmore⟩ := exists_joined hpath hrel
        refine address_eq_ok_iff.2 ⟨by simp [hmore, hpath], ?_⟩
        rw [hpieces, hmore, start_append hpath]
        exact follow_append_eq_ok_iff.2 ⟨place, hps, follow_names hlook hnames hfind⟩
      rw [look, haddress]
      change d.root.find? (place ++ a) = _
      rw [find?_append, hlook]
      exact hfind

end Disk

end Files

/-! ### The files that are wanted -/

/-- The address of a file as it is compared with what is to be skipped. -/
def Files.slashed (a : Address) : List Char :=
  (Path.ofSteps a).toList.map fun c => if c = '\\' then '/' else c

/-- The name of the file ends in the extension, and its address begins with nothing that is to be
skipped. -/
structure LoaderSettings.Wanted (s : LoaderSettings) (a : Address) : Prop where
  name : ∃ above stem, a = above ++ [stem ++ "." ++ s.extension] ∧ stem ≠ ""
  extension : '.' ∉ s.extension.toList
  kept : ∀ p ∈ s.skipPrefixes, ¬ p.toList <+: slashed a

theorem LoaderSettings.selects_iff {s : LoaderSettings} {a : Address}
    (hnames : ∀ name ∈ a, IsName name) : s.selects a = true ↔ s.Wanted a := by
  have hextension : a.getLast?.bind Path.extension? = some s.extension ↔
      (∃ above stem, a = above ++ [stem ++ "." ++ s.extension] ∧ stem ≠ "") ∧
        '.' ∉ s.extension.toList := by
    rw [Option.bind_eq_some_iff]
    constructor
    · rintro ⟨name, hlast, hname⟩
      obtain ⟨above, rfl⟩ := List.getLast?_eq_some_iff.1 hlast
      have hup := (hnames name (List.mem_append_right _ List.mem_cons_self)).ne_up
      obtain ⟨stem, hstem, rfl, hdot⟩ := (Path.extension?_eq_some_iff hup).1 hname
      exact ⟨⟨above, stem, rfl, hstem⟩, hdot⟩
    · rintro ⟨⟨above, stem, rfl, hstem⟩, hdot⟩
      have hup := (hnames _ (List.mem_append_right _ List.mem_cons_self)).ne_up
      exact ⟨_, List.getLast?_concat, (Path.extension?_eq_some_iff hup).2 ⟨stem, hstem, rfl, hdot⟩⟩
  have hkept : (s.skipPrefixes.any fun p => p.toList.isPrefixOf (slashed a)) = false ↔
      ∀ p ∈ s.skipPrefixes, ¬ p.toList <+: slashed a := by
    simp
  change (decide (a.getLast?.bind Path.extension? = some s.extension) &&
    !s.skipPrefixes.any fun p => p.toList.isPrefixOf (slashed a)) = true ↔ _
  rw [Bool.and_eq_true, decide_eq_true_eq, Bool.not_eq_true', hextension, hkept]
  exact ⟨fun ⟨⟨hname, hdot⟩, hkept⟩ => ⟨hname, hdot, hkept⟩,
    fun ⟨hname, hdot, hkept⟩ => ⟨⟨hname, hdot⟩, hkept⟩⟩

namespace Model

open Entry

section Load

variable [RealReader] {s : LoaderSettings} {e : Entry} {d : Disk} {path : String}
  {entries : List (String × Entry)}

theorem mem_allIn_iff (hproper : e.Proper) {l : LoadedModel} :
    l ∈ allIn s e ↔ s.Wanted l.address ∧
      ∃ content, e.find? l.address = some (file content) ∧ l.outcome = ofContent content := by
  obtain ⟨a, outcome⟩ := l
  simp only [allIn, List.mem_map, List.mem_filter]
  constructor
  · rintro ⟨⟨a', content⟩, ⟨hmem, hselects⟩, heq⟩
    obtain ⟨rfl, rfl⟩ := LoadedModel.mk.inj heq
    have hfind := hproper.mem_files_iff.1 hmem
    exact ⟨(LoaderSettings.selects_iff (hproper.of_find? hfind).2).1 hselects, content, hfind, rfl⟩
  · rintro ⟨hwanted, content, hfind, rfl⟩
    exact ⟨(a, content), ⟨hproper.mem_files_iff.2 hfind,
      (LoaderSettings.selects_iff (hproper.of_find? hfind).2).2 hwanted⟩, rfl⟩

theorem mem_addresses_iff (hproper : e.Proper) {a : Address} :
    a ∈ (allIn s e).map LoadedModel.address ↔ s.Wanted a ∧ e.HasFile a := by
  simp only [List.mem_map, mem_allIn_iff hproper]
  constructor
  · rintro ⟨l, ⟨hwanted, content, hfind, -⟩, rfl⟩
    exact ⟨hwanted, content, hfind⟩
  · rintro ⟨hwanted, content, hfind⟩
    exact ⟨⟨a, ofContent content⟩, ⟨hwanted, content, hfind, rfl⟩, rfl⟩

theorem addresses_pairwise (hproper : e.Proper) :
    ((allIn s e).map LoadedModel.address).Pairwise (· < ·) := by
  have hmap : (allIn s e).map LoadedModel.address =
      (e.files.map Prod.fst).filter s.selects := by
    rw [allIn, List.map_map, List.filter_map]
    rfl
  rw [hmap]
  exact hproper.files_pairwise.filter s.selects

theorem run_loadDirectory (s : LoaderSettings) (hlook : d.look path = some (directory entries)) :
    (loadDirectory s path).run d = (.ok (allIn s (directory entries)), d) := by
  simp only [loadDirectory, Plan.run_bind, Plan.run_entry, hlook, Plan.pure_eq, Plan.run_done]

/-- A file below a directory loads on its own as it does with the others. -/
theorem run_load_of_mem (hlook : d.look path = some (directory entries))
    (hproper : (directory entries).Proper) {l : LoadedModel}
    (hl : l ∈ allIn s (directory entries)) :
    (load (Path.joined path l.path)).run d = (l.outcome, d) := by
  obtain ⟨-, content, hfind, houtcome⟩ := (mem_allIn_iff hproper).1 hl
  have hne : l.address ≠ [] := by
    intro hnil
    rw [hnil, find?_nil] at hfind
    cases hfind
  have hfile := Disk.look_joined hlook hne (hproper.of_find? hfind).2 hfind
  change d.look (Path.joined path l.path) = _ at hfile
  simp only [load, Plan.run_bind, Plan.run_entry, hfile, Plan.pure_eq, Plan.run_done, ofEntry,
    houtcome]

/-- A directory is loaded file by file: each wanted file once, in the order of the addresses, and
with the outcome that it has on its own. If other contents stand in some of the files, the rest
of the outcomes stays. -/
theorem loadDirectory_exact (s : LoaderSettings) (hlook : d.look path = some (directory entries))
    (hproper : (directory entries).Proper) :
    ∃ loaded, (loadDirectory s path).run d = (.ok loaded, d) ∧
      (loaded.map LoadedModel.address).Pairwise (· < ·) ∧
      (∀ a, a ∈ loaded.map LoadedModel.address ↔
        s.Wanted a ∧ (directory entries).HasFile a) ∧
      (∀ l ∈ loaded, (load (Path.joined path l.path)).run d = (l.outcome, d)) ∧
      ∀ {d' : Disk} {entries' : List (String × Entry)},
        d'.look path = some (directory entries') → (directory entries').Proper →
        (∀ a, (directory entries').HasFile a ↔ (directory entries).HasFile a) →
        ∃ loaded', (loadDirectory s path).run d' = (.ok loaded', d') ∧
          loaded'.map LoadedModel.address = loaded.map LoadedModel.address ∧
          ∀ l ∈ loaded, ∀ l' ∈ loaded', l'.address = l.address →
            (directory entries').find? l.address = (directory entries).find? l.address →
            l'.outcome = l.outcome := by
  refine ⟨_, run_loadDirectory s hlook, addresses_pairwise hproper,
    fun a => mem_addresses_iff hproper, fun l hl => run_load_of_mem hlook hproper hl, ?_⟩
  intro d' entries' hlook' hproper' hfiles
  refine ⟨_, run_loadDirectory s hlook', ?_, fun l hl l' hl' haddress hsame => ?_⟩
  · refine (addresses_pairwise hproper').eq_of_mem_iff (addresses_pairwise hproper) fun a => ?_
    rw [mem_addresses_iff hproper', mem_addresses_iff hproper, hfiles]
  · obtain ⟨-, content, hfind, houtcome⟩ := (mem_allIn_iff hproper).1 hl
    obtain ⟨-, content', hfind', houtcome'⟩ := (mem_allIn_iff hproper').1 hl'
    rw [haddress, hsame, hfind] at hfind'
    cases hfind'
    rw [houtcome, houtcome']

end Load

/-- A shelf of descriptions: a directory and a file whose names begin alike, and a directory that
is skipped. -/
def shelf (content : ByteArray) : List (String × Entry) :=
  [("target", directory [("c.json", file "{}".toUTF8)]), ("lamp.json", file "{}".toUTF8),
    ("lamp", directory [("b.json", file content), ("notes.txt", file "on".toUTF8)])]

theorem shelf_proper (content : ByteArray) : (directory (shelf content)).Proper := by
  have hname : ∀ name ∈ ["target", "c.json", "lamp.json", "lamp", "b.json", "notes.txt"],
      IsName name := by
    simp only [List.forall_mem_cons]
    refine ⟨?_, ?_, ?_, ?_, ?_, ?_, by simp⟩ <;> exact ⟨by decide, by decide, by decide, by decide⟩
  simp only [List.forall_mem_cons] at hname
  obtain ⟨htarget, hc, hjson, hlamp, hb, hnotes, -⟩ := hname
  have hskipped : (directory [("c.json", file "{}".toUTF8)]).Proper :=
    .directory (by simpa using hc) (by simp) (by simpa using Proper.file _)
  have hlit : (directory [("b.json", file content), ("notes.txt", file "on".toUTF8)]).Proper :=
    .directory (by simpa using ⟨hb, hnotes⟩) (by simp)
      (by simpa using ⟨Proper.file _, Proper.file _⟩)
  exact .directory (by simpa [shelf] using ⟨htarget, hjson, hlamp⟩) (by simp [shelf])
    (List.forall_mem_cons.2 ⟨hskipped, List.forall_mem_cons.2
      ⟨Proper.file _, List.forall_mem_singleton.2 hlit⟩⟩)

theorem hasFile_shelf_iff {content : ByteArray} {a : Address} :
    (directory (shelf content)).HasFile a ↔
      a ∈ [["target", "c.json"], ["lamp.json"], ["lamp", "b.json"], ["lamp", "notes.txt"]] := by
  rw [(shelf_proper content).hasFile_iff]
  simp [shelf, files, filesBelow, mem_inOrder, exists_or, eq_comm]

open scoped Concrete

/-- A file that is no text is reported as such, and it is the only one whose outcome changes when
there is a text in it. -/
theorem loadDirectory_exact_shelf :
    let d (content : ByteArray) : Disk := ⟨directory [("models", directory (shelf content))], []⟩
    (d ⟨#[255]⟩).look "models" = some (directory (shelf ⟨#[255]⟩)) ∧
      (directory (shelf ⟨#[255]⟩)).Proper ∧
      ∃ loaded loaded',
        (loadDirectory .standard "models").run (d ⟨#[255]⟩) = (.ok loaded, d ⟨#[255]⟩) ∧
        (loadDirectory .standard "models").run (d "{}".toUTF8) = (.ok loaded', d "{}".toUTF8) ∧
        loaded'.map LoadedModel.address = loaded.map LoadedModel.address ∧
        (∃ l ∈ loaded, l.address = ["lamp", "b.json"] ∧
          l.outcome = .error (.unreadable .notText)) ∧
        ["target", "c.json"] ∉ loaded.map LoadedModel.address ∧
        ∀ l ∈ loaded, ∀ l' ∈ loaded', l'.address = l.address → l.address = ["lamp.json"] →
          l'.outcome = l.outcome := by
  intro d
  have hproper := shelf_proper ⟨#[255]⟩
  have hlook : ∀ content, (d content).look "models" = some (directory (shelf content)) :=
    fun _ => rfl
  obtain ⟨loaded, hrun, -, hmem, hload, hother⟩ :=
    loadDirectory_exact .standard (hlook ⟨#[255]⟩) hproper
  obtain ⟨loaded', hrun', haddresses, hsame⟩ := hother (hlook "{}".toUTF8) (shelf_proper _)
    fun a => hasFile_shelf_iff.trans hasFile_shelf_iff.symm
  have hnames : ∀ {a}, (directory (shelf ⟨#[255]⟩)).HasFile a → ∀ name ∈ a, IsName name :=
    fun ⟨_, hfind⟩ => (hproper.of_find? hfind).2
  refine ⟨rfl, hproper, loaded, loaded', hrun, hrun', haddresses, ?_, fun hskipped => ?_, ?_⟩
  · have hfile : (directory (shelf ⟨#[255]⟩)).HasFile ["lamp", "b.json"] := ⟨_, rfl⟩
    have hwanted := LoaderSettings.selects_iff (s := .standard) (hnames hfile)
    obtain ⟨l, hl, haddress⟩ := List.mem_map.1 ((hmem _).2 ⟨hwanted.1 (by decide), hfile⟩)
    have houtcome := hload l hl
    rw [LoadedModel.path, haddress] at houtcome
    exact ⟨l, hl, haddress, (congrArg Prod.fst houtcome).symm⟩
  · obtain ⟨hwanted, hfile⟩ := (hmem _).1 hskipped
    have hselects := (LoaderSettings.selects_iff (hnames hfile)).2 hwanted
    exact absurd hselects (by decide)
  · intro l hl l' hl' haddress hlamp
    exact hsame l hl l' hl' haddress (by rw [hlamp]; rfl)

end Model

end DeviceTwin
