import DeviceTwin.Files.Disk
import DeviceTwin.Proofs.Results
import Mathlib.Logic.Basic
import Mathlib.Tactic.SplitIfs

/-!
# What a write changes

A text that is written stands at its path afterwards, and at every other path stands what stood
there before, up to the entries of directories (`Disk.look_write_self`, `Disk.look_write`). A
path by which a written file is found too has the same name at its end, whatever way it takes.
Writing over what was written is writing at once (`Disk.write_write`).
-/

namespace DeviceTwin

theorem Text.insertEntry_insertEntry_self {α : Type} (key : String) (v w : α)
    (entries : List (String × α)) :
    insertEntry key v (insertEntry key w entries) = insertEntry key v entries := by
  induction entries with
  | nil => simp [insertEntry]
  | cons e es ih =>
      rw [insertEntry.eq_2 key w, insertEntry.eq_2 key v]
      split_ifs with hlt heq
      · simp [insertEntry]
      · simp [insertEntry]
      · rw [insertEntry, if_neg hlt, if_neg heq, ih]

namespace Files

/-! ### Entries -/

namespace Entry

/-- What is found at a place may differ in the entries of a directory. -/
inductive Alike : Option Entry → Option Entry → Prop
  | same (found : Option Entry) : Alike found found
  | directories (es es' : List (String × Entry)) :
    Alike (some (directory es)) (some (directory es'))

namespace Alike

variable {before after : Option Entry}

theorem content?_eq (h : Alike before after) :
    after.bind content? = before.bind content? := by
  cases h <;> rfl

theorem isSome_eq (h : Alike before after) : after.isSome = before.isSome := by
  cases h <;> rfl

theorem directory_iff (h : Alike before after) :
    (∃ es, after = some (directory es)) ↔ ∃ es, before = some (directory es) := by
  cases h with
  | same => exact Iff.rfl
  | directories es es' => exact ⟨fun _ => ⟨es, rfl⟩, fun _ => ⟨es', rfl⟩⟩

end Alike

/-- There is room for a file: its directory is there, and in its place is no directory. -/
structure Admits (e : Entry) (above : Address) (name : String) : Prop where
  parent : ∃ es, e.find? above = some (directory es)
  free : ∀ es, e.find? (above ++ [name]) ≠ some (directory es)

theorem find?_file_cons (content : ByteArray) (name : String) (address : Address) :
    (file content).find? (name :: address) = none := rfl

/-- A file is put among its siblings. -/
theorem alike_put_name {es : List (String × Entry)} {name : String} {a : Address}
    (hfree : ∀ es', (directory es).find? [name] ≠ some (directory es')) (ha : a ≠ [name])
    (content : ByteArray) :
    Alike ((directory es).find? a) ((put content [name] (directory es)).find? a) := by
  cases a with
  | nil =>
      rw [find?_nil, find?_nil]
      exact .directories _ _
  | cons n rest =>
      rw [find?_cons, find?_cons]
      by_cases hn : n = name
      · subst hn
        -- What would stand below the file stood there before only if it was a directory.
        obtain ⟨m, rest, rfl⟩ := List.exists_cons_of_ne_nil (fun h => ha (congrArg (n :: ·) h))
        rw [child?_put_self, Option.bind_some, put, find?_file_cons]
        cases hchild : (directory es).child? n with
        | none => exact .same none
        | some e =>
            cases e with
            | file c => exact .same none
            | directory es' =>
                refine absurd ?_ (hfree es')
                rw [find?_cons, hchild, Option.bind_some, find?_nil]
      · rw [child?_put_of_ne hn]
        exact .same _

/-- A file that is put into a tree changes no other place. -/
theorem alike_put {e : Entry} {above : Address} {name : String} (h : e.Admits above name)
    {a : Address} (ha : a ≠ above ++ [name]) (content : ByteArray) :
    Alike (e.find? a) ((put content (above ++ [name]) e).find? a) := by
  -- On the way down both trees have the same entries, but for the one that leads on.
  induction above generalizing e a with
  | nil =>
      obtain ⟨es, hes⟩ := h.parent
      rw [find?_nil] at hes
      obtain rfl := Option.some.inj hes
      exact alike_put_name h.free ha content
  | cons m above ih =>
      obtain ⟨es, hes⟩ := h.parent
      rw [find?_cons, Option.bind_eq_some_iff] at hes
      obtain ⟨e', hchild, hes⟩ := hes
      have hadmits : e'.Admits above name := by
        refine ⟨⟨es, hes⟩, fun es' hes' => h.free es' ?_⟩
        rw [List.cons_append, find?_cons, hchild, Option.bind_some, hes']
      cases a with
      | nil =>
          cases e with
          | file c => cases hchild
          | directory entries =>
              rw [find?_nil, find?_nil]
              exact .directories _ _
      | cons n rest =>
          rw [List.cons_append, find?_cons, find?_cons]
          by_cases hn : n = m
          · subst hn
            rw [child?_put_self, hchild]
            exact ih hadmits fun hrest => ha (congrArg (n :: ·) hrest)
          · rw [child?_put_of_ne hn]
            exact .same _

/-- Only the last of several files that are put at an address stays. -/
theorem put_put (c c' : ByteArray) (a : Address) (e : Entry) :
    put c a (put c' a e) = put c a e := by
  induction a generalizing e with
  | nil => rfl
  | cons name a ih =>
      rw [put, child?_put_self, Option.getD_some, ih, put, put, entries,
        Text.insertEntry_insertEntry_self]

end Entry

/-! ### Paths -/

namespace Disk

open Entry

variable {d d' : Disk}

/-- The content of the file at a path, if there is one. -/
def contentAt? (d : Disk) (path : String) : Option ByteArray :=
  (d.look path).bind Entry.content?

/-- Where a piece of a path leads from a directory. -/
def next (place : Address) (piece : String) : Address :=
  if piece = "" ∨ piece = "." then place
  else if piece = ".." then place.dropLast
  else place ++ [piece]

theorem enter_eq_ok_iff {place a : Address} :
    d.enter place = .ok a ↔ place = a ∧ ∃ es, d.root.find? place = some (directory es) := by
  rw [enter]
  rcases d.root.find? place with _ | c | es
  · simp
  · simp [isDirectory]
  · simp [isDirectory]

theorem follow_cons_eq_ok_iff {place a : Address} {p : String} {ps : List String} :
    d.follow place (p :: ps) = .ok a ↔
      (∃ es, d.root.find? place = some (directory es)) ∧ d.follow (next place p) ps = .ok a := by
  rw [follow]
  cases henter : d.enter place with
  | error o =>
      refine ⟨fun h => ?_, fun h => ?_⟩
      · cases h
      · rw [enter_eq_ok_iff.2 ⟨rfl, h.1⟩] at henter
        cases henter
  | ok place' =>
      obtain ⟨rfl, hes⟩ := enter_eq_ok_iff.1 henter
      simp only [hes, true_and, next]
      split_ifs <;> rfl

theorem follow_append_eq_ok_iff {a : Address} {ps qs : List String} : ∀ {place : Address},
    d.follow place (ps ++ qs) = .ok a ↔
      ∃ b, d.follow place ps = .ok b ∧ d.follow b qs = .ok a := by
  induction ps with
  | nil => simp [follow]
  | cons p ps ih =>
      intro place
      rw [List.cons_append]
      simp only [follow_cons_eq_ok_iff, ih, exists_and_left, and_assoc]

/-- Only the steps of a path count for where it leads. -/
theorem eq_foldl_of_follow {ps : List String} : ∀ {place a : Address},
    d.follow place ps = .ok a → a = (ps.filter fun p => p ≠ "" ∧ p ≠ ".").foldl next place := by
  induction ps with
  | nil =>
      intro place a h
      exact (Except.ok.inj h).symm
  | cons p ps ih =>
      intro place a h
      have hrest := ih (follow_cons_eq_ok_iff.1 h).2
      by_cases hpiece : p ≠ "" ∧ p ≠ "."
      · rw [List.filter_cons_of_pos (by simpa using hpiece), List.foldl_cons]
        exact hrest
      · have hskip : p = "" ∨ p = "." := by simpa only [ne_eq, not_and_or, not_not] using hpiece
        rw [List.filter_cons_of_neg (by simpa using hpiece)]
        rwa [next, if_pos hskip] at hrest

theorem address_eq_ok_iff {path : String} {a : Address} :
    d.address path = .ok a ↔ path ≠ "" ∧ d.follow (d.start path) (Path.pieces path) = .ok a := by
  rw [address]
  by_cases h : path = ""
  · subst h
    simp
  · simp [h]

/-- A path that ends in a name leads to a place of that name. -/
theorem exists_of_name {path n : String} {a : Address} (h : d.address path = .ok a)
    (hn : Path.name? path = some n) : ∃ above, a = above ++ [n] := by
  obtain ⟨hlast, hup⟩ := Option.filter_eq_some_iff.1 hn
  obtain ⟨steps, hsteps⟩ := List.getLast?_eq_some_iff.1 hlast
  have hmem : n ∈ Path.steps path := hsteps ▸ List.mem_append_right _ List.mem_cons_self
  have hpiece : ¬ (n = "" ∨ n = ".") := by
    simpa using (List.mem_filter.1 hmem).2
  refine ⟨steps.foldl next (d.start path), ?_⟩
  rw [eq_foldl_of_follow (address_eq_ok_iff.1 h).2]
  change (Path.steps path).foldl next _ = _
  rw [hsteps, List.foldl_append, List.foldl_cons, List.foldl_nil, next, if_neg hpiece,
    if_neg (of_decide_eq_true hup)]

/-- The last piece of a path, if no slash follows it. -/
theorem lastPiece?_eq_some_iff {path : String} {above : List String} {name : String} :
    lastPiece? path = some (above, name, false) ↔
      Path.pieces path = above ++ [name] ∧ name ≠ "" := by
  rw [lastPiece?]
  constructor
  · intro h
    obtain ⟨p, hlast, heq⟩ := Option.map_eq_some_iff.1 h
    simp only [Prod.mk.injEq, decide_eq_false_iff_not, Nat.not_lt] at heq
    obtain ⟨habove, rfl, hlength⟩ := heq
    obtain ⟨above', hkept⟩ := List.getLast?_eq_some_iff.1 hlast
    rw [hkept, List.dropLast_concat] at habove
    subst habove
    have hbegins : ((Path.pieces path).reverse.dropWhile (· = "")).reverse <+: Path.pieces path :=
      List.reverse_suffix.1 (by simpa using List.dropWhile_suffix _)
    have hhead := List.head?_dropWhile_not (fun q => decide (q = "")) (Path.pieces path).reverse
    rw [List.getLast?_reverse] at hlast
    rw [hlast] at hhead
    rw [hbegins.eq_of_length_le hlength] at hkept
    exact ⟨hkept, of_decide_eq_false hhead⟩
  · rintro ⟨hpieces, hname⟩
    have hkept : ((Path.pieces path).reverse.dropWhile (· = "")).reverse = above ++ [name] := by
      rw [hpieces, List.reverse_append, List.reverse_singleton, List.singleton_append,
        List.dropWhile_cons_of_neg (by simpa using hname), List.reverse_cons, List.reverse_reverse]
    rw [hkept, hpieces]
    simp

/-- A path to write to: it ends in a name, which is free in a directory. -/
structure Receives (d : Disk) (path : String) (place : Address) (name : String) : Prop where
  ne_empty : path ≠ ""
  leads : ∃ above, Path.pieces path = above ++ [name] ∧ d.follow (d.start path) above = .ok place
  isName : ¬ (name = "" ∨ name = "." ∨ name = "..")
  admits : d.root.Admits place name

theorem target_eq_ok_iff {path : String} {a : Address} :
    d.target path = .ok a ↔ ∃ place name, d.Receives path place name ∧ place ++ [name] = a := by
  rw [target]
  constructor
  · intro h
    split at h
    · cases h
    · rename_i hempty
      split at h
      · cases h
      · rename_i above name slash hpiece
        obtain ⟨place, hfollow, h⟩ := bind_eq_ok_iff.1 h
        obtain ⟨place', henter, h⟩ := bind_eq_ok_iff.1 h
        obtain ⟨rfl, hparent⟩ := enter_eq_ok_iff.1 henter
        split at h
        · cases h
        · rename_i hdots
          simp only [not_or, Bool.not_eq_true] at hdots
          obtain ⟨hdot, hup, hslash⟩ := hdots
          have hfree : place ++ [name] = a ∧
              ∀ es, d.root.find? (place ++ [name]) ≠ some (directory es) := by
            rcases hfound : d.root.find? (place ++ [name]) with _ | content | es <;>
              rw [hfound] at h <;> cases h <;> simp
          obtain ⟨ha, hfree⟩ := hfree
          rw [hslash] at hpiece
          obtain ⟨hpieces, hname⟩ := lastPiece?_eq_some_iff.1 hpiece
          exact ⟨place, name, ⟨by simpa using hempty, ⟨above, hpieces, hfollow⟩,
            by simp [hname, hdot, hup], ⟨hparent, hfree⟩⟩, ha⟩
  · rintro ⟨place, name, ⟨hpath, ⟨above, hpieces, hfollow⟩, hname, hadmits⟩, rfl⟩
    obtain ⟨hempty, hdots⟩ := not_or.1 hname
    have hdots' : ¬ (name = "." ∨ name = ".." ∨ false = true) := by simpa using hdots
    rw [lastPiece?_eq_some_iff.2 ⟨hpieces, hempty⟩, if_neg (by simpa using hpath)]
    simp only [hfollow, ok_bind, enter_eq_ok_iff.2 ⟨rfl, hadmits.parent⟩, if_neg hdots']
    rcases hfound : d.root.find? (place ++ [name]) with _ | content | es
    · rfl
    · rfl
    · exact absurd hfound (hadmits.free es)

section Receives

variable {path name : String} {place : Address}

theorem Receives.name?_eq (h : d.Receives path place name) : Path.name? path = some name := by
  obtain ⟨above, hpieces, -⟩ := h.leads
  have hname := h.isName
  simp only [not_or] at hname
  have hlast : [name].filter (fun p => p ≠ "" ∧ p ≠ ".") = [name] := by simp [hname]
  rw [Path.name?, Path.steps, hpieces, List.filter_append, hlast, List.getLast?_concat]
  simp [hname]

theorem Receives.address_eq (h : d.Receives path place name) :
    d.address path = .ok (place ++ [name]) := by
  obtain ⟨above, hpieces, hfollow⟩ := h.leads
  have hname := h.isName
  simp only [not_or] at hname
  have hlast : d.follow place [name] = .ok (place ++ [name]) := by
    refine follow_cons_eq_ok_iff.2 ⟨h.admits.parent, ?_⟩
    simp [next, hname, follow]
  rw [address_eq_ok_iff, hpieces]
  exact ⟨h.ne_empty, follow_append_eq_ok_iff.2 ⟨place, hfollow, hlast⟩⟩

end Receives

/-! ### Writes -/

/-- A disk with a file put at an address. -/
def withFile (d : Disk) (a : Address) (content : ByteArray) : Disk :=
  ⟨d.root.put content a, d.here⟩

theorem write_eq_ok_iff {path text : String} :
    d.write path text = .ok d' ↔
      ∃ place name, d.Receives path place name ∧ d' = d.withFile (place ++ [name]) text.toUTF8 := by
  have hmap : d.write path text = .ok d' ↔
      ∃ a, d.target path = .ok a ∧ d.withFile a text.toUTF8 = d' := by
    rw [write]
    cases d.target path <;> simp [Except.map, withFile]
  rw [hmap]
  constructor
  · rintro ⟨a, htarget, rfl⟩
    obtain ⟨place, name, h, rfl⟩ := target_eq_ok_iff.1 htarget
    exact ⟨place, name, h, rfl⟩
  · rintro ⟨place, name, h, rfl⟩
    exact ⟨_, target_eq_ok_iff.2 ⟨place, name, h, rfl⟩, rfl⟩

section WithFile

variable {place : Address} {name : String} (h : d.root.Admits place name) (content : ByteArray)

include h

theorem directory_withFile_iff {a : Address} :
    (∃ es, (d.withFile (place ++ [name]) content).root.find? a = some (directory es)) ↔
      ∃ es, d.root.find? a = some (directory es) := by
  by_cases ha : a = place ++ [name]
  · subst ha
    simp [withFile, h.free]
  · exact (alike_put h ha content).directory_iff

theorem follow_withFile_eq_ok_iff {ps : List String} : ∀ {b a : Address},
    (d.withFile (place ++ [name]) content).follow b ps = .ok a ↔ d.follow b ps = .ok a := by
  induction ps with
  | nil => exact Iff.rfl
  | cons p ps ih =>
      intro b a
      rw [follow_cons_eq_ok_iff, follow_cons_eq_ok_iff, directory_withFile_iff h, ih]

theorem address_withFile_eq_ok_iff {path : String} {a : Address} :
    (d.withFile (place ++ [name]) content).address path = .ok a ↔ d.address path = .ok a := by
  rw [address_eq_ok_iff, address_eq_ok_iff, follow_withFile_eq_ok_iff h]
  rfl

theorem admits_withFile : (d.withFile (place ++ [name]) content).root.Admits place name := by
  refine ⟨(directory_withFile_iff h content).2 h.parent, fun es hes => ?_⟩
  simp [withFile] at hes

/-- A path that does not lead to the file has what it had. -/
theorem alike_look_withFile {path : String} (hpath : d.address path ≠ .ok (place ++ [name])) :
    Alike (d.look path) ((d.withFile (place ++ [name]) content).look path) := by
  have haddress := @address_withFile_eq_ok_iff d place name h content path
  rw [look, look]
  cases hd : d.address path with
  | ok a =>
      rw [haddress.2 hd]
      exact alike_put h (fun ha => hpath (ha ▸ hd)) content
  | error o =>
      cases hd' : (d.withFile (place ++ [name]) content).address path with
      | ok a => exact absurd ((haddress.1 hd').symm.trans hd) nofun
      | error o' => exact .same none

end WithFile

section Write

variable {path text : String} (h : d.write path text = .ok d')

include h

/-- What was written is at its path. -/
theorem look_write_self : d'.look path = some (.file text.toUTF8) := by
  obtain ⟨place, name, hreceives, rfl⟩ := write_eq_ok_iff.1 h
  have haddress := (address_withFile_eq_ok_iff hreceives.admits text.toUTF8).2 hreceives.address_eq
  rw [look, haddress]
  exact find?_put_self _ _ _

theorem contentAt?_write_self : d'.contentAt? path = some text.toUTF8 := by
  rw [contentAt?, look_write_self h]
  rfl

/-- Other paths have what they had, unless they lead to the file that was written, and then they
end in its name. -/
theorem look_write (other : String) :
    Alike (d.look other) (d'.look other) ∨
      d'.look other = some (.file text.toUTF8) ∧
        ∀ n, Path.name? other = some n → Path.name? path = some n := by
  obtain ⟨place, name, hreceives, rfl⟩ := write_eq_ok_iff.1 h
  by_cases haddress : d.address other = .ok (place ++ [name])
  · refine .inr ⟨?_, fun n hn => ?_⟩
    · rw [look, (address_withFile_eq_ok_iff hreceives.admits text.toUTF8).2 haddress]
      exact find?_put_self _ _ _
    · obtain ⟨above, habove⟩ := exists_of_name haddress hn
      rw [hreceives.name?_eq, (List.append_inj' habove rfl).2 |> List.singleton_inj.1]
  · exact .inl (alike_look_withFile hreceives.admits text.toUTF8 haddress)

/-- Writing over what was written is writing at once. -/
theorem write_write (text' : String) : d'.write path text' = d.write path text' := by
  obtain ⟨place, name, hreceives, rfl⟩ := write_eq_ok_iff.1 h
  have hagain : (d.withFile (place ++ [name]) text.toUTF8).Receives path place name := by
    obtain ⟨above, hpieces, hfollow⟩ := hreceives.leads
    exact ⟨hreceives.ne_empty,
      ⟨above, hpieces, (follow_withFile_eq_ok_iff hreceives.admits _).2 hfollow⟩,
      hreceives.isName, admits_withFile hreceives.admits _⟩
  rw [write_eq_ok_iff.2 ⟨place, name, hagain, rfl⟩, write_eq_ok_iff.2 ⟨place, name, hreceives, rfl⟩,
    withFile, withFile, withFile, put_put]

end Write

end Disk

end Files

end DeviceTwin
