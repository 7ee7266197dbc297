import DeviceTwin.Proofs.Text.Names
import DeviceTwin.Text.Table

/-!
# Laws of tables

A table has one value under each of its keys, so looking a key up finds just the entries of
the table (`Table.get?_eq_some_iff`), and a table that was filled from a list has nothing that
was not in the list. What comes out of a hash table is what is in it, in some order.
-/

namespace DeviceTwin.Text

theorem lookupEntry_eq_some_iff {α : Type} {key : String} {value : α}
    {entries : List (String × α)} (h : (entries.map Prod.fst).Nodup) :
    lookupEntry key entries = some value ↔ (key, value) ∈ entries := by
  induction entries with
  | nil => simp
  | cons e es ih =>
      obtain ⟨hnew, hes⟩ := List.nodup_cons.1 h
      rw [lookupEntry_cons, List.mem_cons]
      split_ifs with hkey
      · subst hkey
        refine ⟨fun heq => .inl (by rw [← Option.some.inj heq]), fun hmem => ?_⟩
        rcases hmem with heq | hmem
        · rw [← heq]
        · exact absurd (List.mem_map_of_mem hmem) hnew
      · rw [ih hes]
        exact ⟨.inr, fun hmem => hmem.resolve_left fun heq => hkey (heq ▸ rfl)⟩

theorem Rising.nodup {α : Type} {entries : List (String × α)} (h : Rising entries) :
    (entries.map Prod.fst).Nodup := by
  refine List.pairwise_map.2 (List.Pairwise.imp (fun {a b} hlt heq => ?_) h)
  exact String.lt_irrefl b.1 (heq ▸ hlt)

namespace Table

variable {α : Type}

theorem get?_eq_some_iff {t : Table α} {key : String} {value : α} :
    t.get? key = some value ↔ (key, value) ∈ t.entries :=
  lookupEntry_eq_some_iff t.rising.nodup

theorem mem_of_mem_ofList {entries : List (String × α)} {e : String × α}
    (h : e ∈ (ofList entries).entries) : e ∈ entries := by
  have hsub : ∀ e ∈ (ofList entries).entries, e ∈ entries :=
    List.foldlRecOn entries _ (motive := fun t : Table α => ∀ e ∈ t.entries, e ∈ entries)
      (fun _ he => absurd he List.not_mem_nil) fun t ht f hf e he => by
        rcases mem_insertEntry he with rfl | he
        · exact hf
        · exact ht e he
  exact hsub e h

end Table

/-- A hash set has the names that were put into it. -/
theorem mem_hashedNames [HashOrder] {n : String} {address names : List String} :
    n ∈ hashedNames address names ↔ n ∈ names := by
  rw [hashedNames, ((HashOrder.perm _ _).map Prod.fst).mem_iff, List.map_map]
  simp [Function.comp_def]

end DeviceTwin.Text
