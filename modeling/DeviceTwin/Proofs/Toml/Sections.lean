import DeviceTwin.Proofs.Toml.Reading
import Mathlib.Data.List.Nodup

/-!
# Documents of sections are read back

What is written of sections is read as the tables that they are (`ofText?_written`), if their
names and the keys in each of them are different and need no quotes: the text is cut into the
headers and pairs of the sections, and each of them adds to the end of what was built so far.
-/

namespace DeviceTwin.Toml

open DeviceTwin.Text

/-- A section whose keys are different and need no quotes. -/
structure Section.IsPlain (x : Section) : Prop where
  name : IsBareKey x.name
  keys : ∀ e ∈ x.entries, IsBareKey e.1
  nodup : (x.entries.map Prod.fst).Nodup

namespace Section

def statements (x : Section) : List Statement :=
  .header [x.name] :: x.entries.map fun e => .pair [e.1] e.2.value

/-- The table that a section is. -/
def content (x : Section) : String × Value :=
  (x.name, .table (x.entries.map fun e => (e.1, e.2.value)))

/-! ### The text -/

theorem reads_pairs {entries : List (String × Plain)} (h : ∀ e ∈ entries, IsBareKey e.1) :
    Reads (String.join (entries.map fun e => e.1 ++ " = " ++ e.2.written ++ "\n")).toList
      (entries.map fun e => .pair [e.1] e.2.value) := by
  induction entries with
  | nil => exact .nil
  | cons e entries ih =>
      obtain ⟨he, hrest⟩ := List.forall_mem_cons.1 h
      have hline : (e.1 ++ " = " ++ e.2.written ++ "\n").toList =
          e.1.toList ++ ' ' :: '=' :: ' ' :: (e.2.written.toList ++ ['\n']) := by
        simp
      rw [List.map_cons, String.join_cons, String.toList_append, hline]
      exact (Reads.pair he e.2).append (ih hrest)

theorem IsPlain.reads {x : Section} (h : x.IsPlain) : Reads x.written.toList x.statements := by
  have htext : x.written.toList = '[' :: (x.name.toList ++ [']', '\n']) ++
      (String.join (x.entries.map fun e => e.1 ++ " = " ++ e.2.written ++ "\n")).toList := by
    simp [written]
  rw [htext]
  exact (Reads.header h.name).append (reads_pairs h.keys)

end Section

theorem reads_written {sections : List Section} (h : ∀ x ∈ sections, x.IsPlain) :
    Reads (written sections).toList (sections.flatMap Section.statements) := by
  induction sections with
  | nil => exact .nil
  | cons x sections ih =>
      obtain ⟨hx, hrest⟩ := List.forall_mem_cons.1 h
      cases sections with
      | nil =>
          rw [List.flatMap_cons, List.flatMap_nil, List.append_nil]
          exact hx.reads
      | cons y sections =>
          have htext : (written (x :: y :: sections)).toList =
              x.written.toList ++ (['\n'] ++ (written (y :: sections)).toList) := by
            change (x.written ++ "\n" ++ written (y :: sections)).toList = _
            simp
          rw [htext, List.flatMap_cons]
          exact hx.reads.append (Reads.empty.append (ih hrest))

/-! ### The tables -/

namespace Parts

variable {key : String} {parts : Parts}

theorem get?_of_not_mem (h : key ∉ parts.map Prod.fst) : parts.get? key = none := by
  induction parts with
  | nil => rfl
  | cons p ps ih =>
      obtain ⟨hp, hps⟩ := not_or.1 (mt List.mem_cons.2 h)
      rw [get?, lookupEntry_cons, if_neg (Ne.symm hp)]
      exact ih hps

theorem set_append (h : key ∉ parts.map Prod.fst) (part : Part) (more : Parts) :
    set key part (parts ++ more) = parts ++ set key part more := by
  induction parts with
  | nil => rfl
  | cons p ps ih =>
      obtain ⟨hp, hps⟩ := not_or.1 (mt List.mem_cons.2 h)
      rw [List.cons_append, set, if_neg (Ne.symm hp), ih hps]
      rfl

theorem set_of_not_mem (h : key ∉ parts.map Prod.fst) (part : Part) :
    set key part parts = parts ++ [(key, part)] := by
  have happend := set_append h part []
  rwa [List.append_nil] at happend

theorem get?_append_self (h : key ∉ parts.map Prod.fst) (part : Part) :
    get? (parts ++ [(key, part)]) key = some part := by
  rw [← set_of_not_mem h part, get?_set_self]

theorem set_append_self (h : key ∉ parts.map Prod.fst) (part part' : Part) :
    set key part' (parts ++ [(key, part)]) = parts ++ [(key, part')] := by
  rw [set_append h, set, if_pos rfl]

end Parts

namespace Section

def values (entries : List (String × Plain)) : Parts :=
  entries.map fun e => (e.1, .value e.2.value)

def part (x : Section) : String × Part :=
  (x.name, .table .headed (values x.entries))

end Section

namespace Building

/-- A header of a new name begins a table. -/
theorem add_header {parts : Parts} {name : String} (h : name ∉ parts.map Prod.fst)
    (path : List String) :
    Building.add ⟨parts, path⟩ (.header [name]) =
      some ⟨parts ++ [(name, .table .headed [])], [name]⟩ := by
  have hopen : Parts.openTable? name parts = some (parts ++ [(name, .table .headed [])]) := by
    rw [Parts.openTable?, Parts.get?_of_not_mem h, Parts.set_of_not_mem h]
  change Option.bind (Parts.openTable? name parts) _ = _
  rw [hopen]
  rfl

/-- A pair of a new key adds a value to the table that was begun last. -/
theorem add_pair {parts sub : Parts} {name key : String} (h : name ∉ parts.map Prod.fst)
    (hkey : key ∉ sub.map Prod.fst) (v : Value) :
    Building.add ⟨parts ++ [(name, .table .headed sub)], [name]⟩ (.pair [key] v) =
      some ⟨parts ++ [(name, .table .headed (sub ++ [(key, .value v)]))], [name]⟩ := by
  have hput : putDotted [key] v sub = some (sub ++ [(key, .value v)]) := by
    change Parts.put v key [] sub = _
    rw [Parts.put, Parts.get?_of_not_mem hkey, Parts.set_of_not_mem hkey]
  have hwithin : Parts.within (putDotted [key] v) [name] (parts ++ [(name, .table .headed sub)]) =
      some (parts ++ [(name, .table .headed (sub ++ [(key, .value v)]))]) := by
    rw [Parts.within, Parts.get?_append_self h]
    simp only [Parts.within, hput, Option.map_some, Parts.set_append_self h]
  change Option.bind (Parts.within _ [name] _) _ = _
  rw [hwithin]
  rfl

theorem foldlM_pairs {parts : Parts} {name : String} (h : name ∉ parts.map Prod.fst)
    (entries : List (String × Plain)) :
    ∀ {sub : Parts}, (sub.map Prod.fst ++ entries.map Prod.fst).Nodup →
      (entries.map fun e => Statement.pair [e.1] e.2.value).foldlM Building.add
          ⟨parts ++ [(name, .table .headed sub)], [name]⟩ =
        some ⟨parts ++ [(name, .table .headed (sub ++ Section.values entries))], [name]⟩ := by
  induction entries with
  | nil =>
      intro sub _
      rw [Section.values, List.map_nil, List.map_nil, List.append_nil]
      rfl
  | cons e entries ih =>
      intro sub hnodup
      have hkey : e.1 ∉ sub.map Prod.fst := fun h =>
        List.disjoint_of_nodup_append hnodup h (List.mem_cons_self)
      have hrest : ((sub ++ [(e.1, Part.value e.2.value)]).map Prod.fst ++
          entries.map Prod.fst).Nodup := by
        simpa using hnodup
      rw [List.map_cons, List.foldlM_cons, add_pair h hkey]
      change List.foldlM _ _ _ = _
      rw [ih hrest, List.append_assoc]
      rfl

end Building

/-- Sections of new names are added as the tables that they are. -/
theorem foldlM_sections (sections : List Section) :
    ∀ {parts : Parts} {path : List String}, (∀ x ∈ sections, x.IsPlain) →
      (parts.map Prod.fst ++ sections.map Section.name).Nodup →
      ∃ path', (sections.flatMap Section.statements).foldlM Building.add ⟨parts, path⟩ =
        some ⟨parts ++ sections.map Section.part, path'⟩ := by
  induction sections with
  | nil =>
      intro parts path _ _
      exact ⟨path, by rw [List.map_nil, List.append_nil]; rfl⟩
  | cons x sections ih =>
      intro parts path h hnodup
      obtain ⟨hx, hrest⟩ := List.forall_mem_cons.1 h
      have hname : x.name ∉ parts.map Prod.fst := fun h =>
        List.disjoint_of_nodup_append hnodup h List.mem_cons_self
      have hnodup' : ((parts ++ [x.part]).map Prod.fst ++ sections.map Section.name).Nodup := by
        simpa [Section.part] using hnodup
      have hkeys : (([] : Parts).map Prod.fst ++ x.entries.map Prod.fst).Nodup := by
        simpa using hx.nodup
      obtain ⟨path', hfold⟩ := @ih _ [x.name] hrest hnodup'
      refine ⟨path', ?_⟩
      rw [List.flatMap_cons, Section.statements, List.cons_append, List.foldlM_cons,
        Building.add_header hname]
      change List.foldlM _ _ (_ ++ _) = _
      rw [List.foldlM_append, Building.foldlM_pairs hname x.entries hkeys, List.nil_append]
      change List.foldlM _ (Building.mk (parts ++ [x.part]) _) _ = _
      rw [hfold, List.append_assoc]
      rfl

namespace Section

theorem values_values (entries : List (String × Plain)) :
    Parts.values (values entries) = entries.map fun e => (e.1, e.2.value) := by
  induction entries with
  | nil => rfl
  | cons e entries ih =>
      rw [values, List.map_cons, List.map_cons, ← ih]
      rfl

theorem values_part (sections : List Section) :
    Parts.values (sections.map part) = sections.map content := by
  induction sections with
  | nil => rfl
  | cons x sections ih =>
      rw [List.map_cons, List.map_cons, ← ih, content, ← values_values]
      rfl

end Section

theorem withoutMark_written (sections : List Section) :
    withoutMark (written sections).toList = (written sections).toList := by
  have hhead (x : Section) (s : List Char) :
      withoutMark (x.written.toList ++ s) = x.written.toList ++ s := by
    simp [Section.written, withoutMark]
  cases sections with
  | nil => rfl
  | cons x sections =>
      cases sections with
      | nil =>
          change withoutMark x.written.toList = x.written.toList
          simpa using hhead x []
      | cons y sections =>
          change withoutMark (x.written ++ "\n" ++ written (y :: sections)).toList =
            (x.written ++ "\n" ++ written (y :: sections)).toList
          rw [String.append_assoc, String.toList_append, hhead]

/-- A written document is read as the tables that its sections are. -/
theorem ofText?_written {sections : List Section} (h : ∀ x ∈ sections, x.IsPlain)
    (hnodup : (sections.map Section.name).Nodup) :
    ofText? (written sections).toList = some (sections.map Section.content) := by
  obtain ⟨path, hbuild⟩ := @foldlM_sections sections [] [] h hnodup
  rw [ofText?, withoutMark_written, (reads_written h).statements_eq, Option.bind_some, build,
    hbuild, Option.map_some, List.nil_append, Section.values_part]

end DeviceTwin.Toml
