import DeviceTwin.Proofs.Model.Form.Growth

/-!
# What was read is read again

A description that was read from a text is written, in either layout, to a text that is read
as the same description again, as long as its schemas are nested at most 41 deep; deeper ones
are refused (`Model.rereads_unless_nested_too_deep`). There is no other limit, if the reals in
the description come back from their texts: null never becomes the target of a goal, and what
else is written stays within the brackets of the text.

The limit is met by descriptions that can be read. In `Model.bare n` there are `n + 1` object
schemas nested in each other, and its text `Model.bareText n` leaves out whatever may be left
out, so that 42 of them can be read and not be written.
-/

namespace DeviceTwin

open DeviceTwin.Json

theorem Goal.target_ne_null {b : ℕ} {g : Goal} (h : Goal.record.read.Gives b g) :
    g.target ≠ some .null := by
  obtain ⟨b, ⟨_, _, _, target, ⟨⟩⟩, -, ⟨-, -, -, htarget, -⟩, rfl⟩ := Record.gives_parts h
  rcases htarget with habsent | hread
  · obtain rfl := Option.some.inj habsent
    exact nofun
  · exact Reader.ne_null_of_optional_free hread

namespace Model

/-! ### Descriptions that were read -/

theorem gives_of_ofText [RealReader] {text : String} {m : Model} (h : ofText text = .ok m) :
    record.read.Gives depthLimit m :=
  ⟨_, _, Context.reach_ofText_le _, (Reader.readText_eq_ok_iff.1 h).1⟩

theorem target_ne_null_of_gives {b : ℕ} {m : Model} (h : record.read.Gives b m) :
    ∀ g ∈ m.goals, g.target ≠ some .null := by
  obtain ⟨b, vs, -, hgiven, rfl⟩ := Record.gives_parts h
  obtain ⟨-, -, -, -, -, -, -, -, -, -, -, -, -, -, -, hgoals, -⟩ := hgiven
  intro g hg
  obtain ⟨b, hread⟩ := Reader.gives_items hgoals g hg
  exact Goal.target_ne_null hread

end Model

/-! ### Descriptions that say as little as they may -/

namespace SchemaRef

/-- So many object schemas around an empty one, each the only field of the one around it. -/
def bare : ℕ → SchemaRef
  | 0 => .object ⟨none, ObjectSchema.defaultKind, none, []⟩
  | n + 1 => .object ⟨none, ObjectSchema.defaultKind, none, [⟨"f", bare n⟩]⟩

/-- The shortest form that is read as `bare n`. -/
def bareJson : ℕ → Json
  | 0 => .object []
  | n + 1 => .object [("fields", .list [.object [("name", .text "f"), ("schema", bareJson n)]])]

theorem nesting_bare (n : ℕ) : (bare n).nesting = n + 1 := by
  induction n with
  | zero => rfl
  | succ n ih => rw [bare, nesting, objectNesting, fieldsNesting, fieldsNesting, ih, Nat.max_zero]

theorem height_bareJson (n : ℕ) : (bareJson n).height = 3 * n + 1 := by
  induction n with
  | zero => rfl
  | succ n ih =>
      simp only [bareJson, Json.height, Json.entriesHeight, Json.itemsHeight, ih]
      omega

theorem bareJson_wide [RealReader] (n : ℕ) : (bareJson n).Wide := by
  induction n with
  | zero => trivial
  | succ n ih => exact ⟨⟨⟨trivial, ih, trivial⟩, trivial⟩, trivial⟩

/-- A codec for `m` levels reads every bare schema that has no more. -/
theorem codecWithin_reads_bare {n m : ℕ} (h : n < m) :
    (codecWithin m).read.Reads (bareJson n) (bare n) := by
  induction n generalizing m with
  | zero =>
      obtain ⟨k, rfl⟩ : ∃ k, m = k + 1 := ⟨m - 1, by omega⟩
      have hobject : Slots.Spelled (ObjectSchema.recordOf (codecWithin k)).fields
          (none, ObjectSchema.defaultKind, none, [], ()) [] :=
        .omitted rfl (.omitted rfl (.omitted rfl (.omitted rfl .nil)))
      exact codecWithin_reads_object
        (Record.reads_of_spelled (ObjectSchema.nodup_keys _) hobject)
  | succ n ih =>
      obtain ⟨k, rfl⟩ : ∃ k, m = k + 2 := ⟨m - 2, by omega⟩
      have hfield : Slots.Spelled (SchemaField.record (codecWithin (k + 1))).fields
          ("f", bare n, ()) [("name", .text "f"), ("schema", bareJson n)] :=
        .given (Reader.string_reads "f") (Reader.refuses_of_height_eq_zero rfl)
          (.given (ih (by omega)) (codecWithin_refuses k _) .nil)
      have hreads := Record.reads_of_spelled (SchemaField.nodup_keys _) hfield
      have hrefuses := Record.refuses_of_spelled (SchemaField.nodup_keys _) hfield
      have hobject : Slots.Spelled (ObjectSchema.recordOf (codecWithin (k + 1))).fields
          (none, ObjectSchema.defaultKind, none, [⟨"f", bare n⟩], ())
          [("fields", .list [.object [("name", .text "f"), ("schema", bareJson n)]])] :=
        .omitted rfl (.omitted rfl (.omitted rfl
          (.given (Reader.list_reads_singleton hreads)
            (Reader.list_refuses_singleton hreads hrefuses) .nil)))
      exact codecWithin_reads_object
        (Record.reads_of_spelled (ObjectSchema.nodup_keys _) hobject)

theorem codec_reads_bare (n : ℕ) : codec.read.Reads (bareJson n) (bare n) :=
  codec_reads (codecWithin_reads_bare (by rw [height_bareJson]; omega))

end SchemaRef

namespace Model

/-- A description with one property, of the schema `SchemaRef.bare n`. -/
def bare (n : ℕ) : Model :=
  (Model.new "dtmi:deep;1" "Deep" "Deep").add
    (.properties [⟨"p", SchemaRef.bare n, none, none, none, false⟩])

/-- The shortest form that is read as `bare n`. -/
def bareJson (n : ℕ) : Json :=
  .object [("@context", .text standardContext), ("@id", .text "dtmi:deep;1"),
    ("@type", .text interfaceKind), ("displayName", .text "Deep"), ("description", .text "Deep"),
    ("properties", .list [.object [("name", .text "p"), ("schema", SchemaRef.bareJson n)]])]

def bareText (n : ℕ) : String :=
  (bareJson n).compactText

theorem record_reads_bare (n : ℕ) : record.read.Reads (bareJson n) (bare n) := by
  have hproperty : Slots.Spelled Property.record.fields
      ("p", SchemaRef.bare n, none, none, none, false, ())
      [("name", .text "p"), ("schema", SchemaRef.bareJson n)] :=
    .given (Reader.string_reads "p") (Reader.refuses_of_height_eq_zero rfl)
      (.given (SchemaRef.codec_reads_bare n) (SchemaRef.codec_refuses _)
        (.omitted rfl (.omitted rfl (.omitted rfl (.omitted rfl .nil)))))
  have hreads := Record.reads_of_spelled (r := Property.record) (by decide) hproperty
  have hrefuses := Record.refuses_of_spelled (r := Property.record) (by decide) hproperty
  have htext : ∀ s, Reader.string.Refuses (.text s) := fun _ =>
    Reader.refuses_of_height_eq_zero rfl
  have hmodel : Slots.Spelled record.fields (record.parts (bare n))
      [("@context", .text standardContext), ("@id", .text "dtmi:deep;1"),
        ("@type", .text interfaceKind), ("displayName", .text "Deep"),
        ("description", .text "Deep"),
        ("properties",
          .list [.object [("name", .text "p"), ("schema", SchemaRef.bareJson n)]])] := by
    iterate 5 refine .given (Reader.string_reads _) (htext _) ?_
    iterate 2 refine .omitted rfl ?_
    refine .given (Reader.list_reads_singleton hreads)
      (Reader.list_refuses_singleton hreads hrefuses) ?_
    iterate 9 refine .omitted rfl ?_
    exact .nil
  exact Record.reads_of_spelled (by decide) hmodel

/-- The text of `bare n` opens `3 * n + 4` brackets at once. -/
theorem ofText_bareText [RealReader] {n : ℕ} (h : n ≤ 41) : ofText (bareText n) = .ok (bare n) := by
  have hwide : (bareJson n).Wide :=
    ⟨trivial, trivial, trivial, trivial, trivial,
      ⟨⟨trivial, SchemaRef.bareJson_wide n, trivial⟩, trivial⟩, trivial⟩
  have hheight : (bareJson n).height = 3 * n + 4 := by
    simp only [bareJson, Json.height, Json.entriesHeight, Json.itemsHeight,
      SchemaRef.height_bareJson]
    omega
  refine (record_reads_bare n).readText Layout.compact_isPlain hwide ?_
  rw [hheight, depthLimit]
  omega

/-! ### Reading what was written of what was read -/

/-- A schema in which more than 41 object schemas are nested is written too deep to be read. -/
theorem ofText_toText_tooDeep [RealReader] (format : OutputFormat) {m : Model}
    (hreals : ∀ x ∈ (record.write m).reals, RealReader.Keeps x)
    (hgoals : ∀ g ∈ m.goals, g.target ≠ some .null) {s : SchemaRef} (hs : s ∈ m.schemaRefs)
    (hdeep : 41 < s.nesting) : TooDeep (ofText (m.toText format.layout)) :=
  (restores hgoals).refuses.readText format.layout_isPlain (wide_write hgoals hreals)
    (limit_lt_height_write hs hdeep)

/-- A description that was read, and whose reals come back from their texts, is read again from
its own text, unless more than 41 object schemas are nested in one of its schemas; then the
text is refused for its depth. -/
theorem rereads_unless_nested_too_deep [RealReader] (format : OutputFormat) {text : String}
    {m : Model} (h : ofText text = .ok m)
    (hreals : ∀ x ∈ (record.write m).reals, RealReader.Keeps x) :
    ((∀ s ∈ m.schemaRefs, s.nesting ≤ 41) → ofText (m.toText format.layout) = .ok m) ∧
      ((∃ s ∈ m.schemaRefs, 41 < s.nesting) → TooDeep (ofText (m.toText format.layout))) := by
  have hgives := gives_of_ofText h
  have hgoals := target_ne_null_of_gives hgives
  constructor
  · intro hnesting
    exact (restores hgoals).reads.readText format.layout_isPlain (wide_write hgoals hreals)
      (height_write_le hgives hnesting)
  · rintro ⟨s, hs, hdeep⟩
    exact ofText_toText_tooDeep format hreals hgoals hs hdeep

open scoped Concrete

/-- With 41 object schemas a bare description is read again, and with one more it is not. -/
theorem rereads_unless_nested_too_deep_bare :
    RealReader.ReadsBack ∧ (ofText (bareText 40) = .ok (bare 40) ∧
        ofText ((bare 40).toText OutputFormat.pretty.layout) = .ok (bare 40)) ∧
      ofText (bareText 41) = .ok (bare 41) ∧
        TooDeep (ofText ((bare 41).toText OutputFormat.compact.layout)) := by
  have hkeeps : RealReader.ReadsBack := Concrete.nearestReal_readsBack
  have hread40 := ofText_bareText (n := 40) (by decide)
  have hread41 := ofText_bareText (n := 41) (by decide)
  have hshallow : ∀ s ∈ (bare 40).schemaRefs, s.nesting ≤ 41 :=
    List.forall_mem_singleton.2 (SchemaRef.nesting_bare 40).le
  have hdeep : ∃ s ∈ (bare 41).schemaRefs, 41 < s.nesting :=
    ⟨_, List.mem_singleton_self _, (SchemaRef.nesting_bare 41).ge⟩
  exact ⟨hkeeps,
    ⟨hread40, (rereads_unless_nested_too_deep .pretty hread40 fun x _ => hkeeps x).1 hshallow⟩,
    hread41, (rereads_unless_nested_too_deep .compact hread41 fun x _ => hkeeps x).2 hdeep⟩

/-- Not every description that was read is read again, even if every real comes back from its
text: the bare one with 42 object schemas is not. -/
theorem not_every_text_rereads :
    ¬ (RealReader.ReadsBack → ∀ (format : OutputFormat) (text : String) (m : Model),
      ofText text = .ok m → ofText (m.toText format.layout) = .ok m) := by
  intro hall
  have hkeeps : RealReader.ReadsBack := Concrete.nearestReal_readsBack
  have hdeep : TooDeep (ofText ((bare 41).toText OutputFormat.compact.layout)) :=
    ofText_toText_tooDeep .compact (fun x _ => hkeeps x) (fun _ hg => absurd hg List.not_mem_nil)
      (List.mem_singleton_self (SchemaRef.bare 41)) (SchemaRef.nesting_bare 41).ge
  have hread := ofText_bareText (n := 41) (by decide)
  exact hdeep.ne_ok _ (hall hkeeps .compact (bareText 41) (bare 41) hread)

end Model

end DeviceTwin
