import DeviceTwin.Proofs.Model.Form.Positional

/-!
# A trigger is one choice

A value chooses a trigger if it is an object with one member, whose key names the kind of the
trigger and whose value is a text (`Spelling.Chooses`). All other values miss, and `Spelling.Misses`
lists them. A trigger is read from the values that choose it and from no others, in a text of its
own as in a transition, and a description with a transition whose trigger misses is refused.
-/

namespace DeviceTwin

open DeviceTwin.Json DeviceTwin.Json.Spelling

/-! ### Values that choose -/

namespace Trigger

/-- The key that stands for the kind of a trigger. -/
def key : Trigger → String
  | command _ => "command"
  | event _ => "event"
  | condition _ => "condition"

/-- The name of a command or an event, or the text of a condition. -/
def words : Trigger → String
  | command name => name
  | event name => name
  | condition expression => expression

theorem exists_words (t : Trigger) (words : String) :
    ∃ t' : Trigger, t'.key = t.key ∧ t'.words = words := by
  cases t with
  | command => exact ⟨command words, rfl, rfl⟩
  | event => exact ⟨event words, rfl, rfl⟩
  | condition => exact ⟨condition words, rfl, rfl⟩

theorem get?_key (t : Trigger) :
    ∃ f, choice.get? t.key = some (.text f) ∧ f t.words = t := by
  cases t with
  | command | event | condition => exact ⟨_, by rfl, rfl⟩

/-- All variants carry a text, under the key of what they make of it. -/
theorem of_get? {name : String} {p : Payload Trigger} (h : choice.get? name = some p) :
    ∃ f, p = .text f ∧ ∀ s, (f s).key = name ∧ (f s).words = s := by
  obtain ⟨e, he, rfl⟩ := Option.map_eq_some_iff.1 h
  obtain rfl : e.1 = name := by simpa using List.find?_some he
  have hmem := List.mem_of_find?_eq_some he
  simp only [choice, List.mem_cons, List.not_mem_nil, or_false] at hmem
  rcases hmem with rfl | rfl | rfl
  · exact ⟨command, rfl, fun _ => ⟨rfl, rfl⟩⟩
  · exact ⟨event, rfl, fun _ => ⟨rfl, rfl⟩⟩
  · exact ⟨condition, rfl, fun _ => ⟨rfl, rfl⟩⟩

/-- A bare name is no trigger, not even the name of a variant. -/
theorem bare_ne_ok (ps : List Quoted.Part) (t : Trigger) :
    (known (Quoted.Part.named ps) >>= fun name => choice.ofName name []) ≠ .ok t := by
  intro h
  obtain ⟨name, -, h⟩ := bind_eq_ok_iff.1 h
  obtain ⟨p, hp, h⟩ := bind_eq_ok_iff.1 h
  obtain ⟨f, rfl, -⟩ := of_get? (Choice.find_eq_ok_iff.1 hp)
  exact nomatch h

end Trigger

namespace Json.Spelling

/-- The value is a string that names these words. -/
inductive Tells : Spelling → String → Prop
  | text {before behind : Blanks} {ps : List Quoted.Part} {words : String}
      (h : Quoted.Part.named ps = some words) : Tells (.scalar before (.text ps) behind) words

/-- An object with one member that has the key of the trigger and tells its words. -/
inductive Chooses : Spelling → Trigger → Prop
  | only {before gap behind : Blanks} {k : KeySpelling} {τ : Spelling} {t : Trigger}
      (hkey : k.name = some t.key) (hwords : τ.Tells t.words) :
      Chooses (.object before gap [(k, τ)] behind) t

/-- The values that choose no trigger. -/
inductive Misses : Spelling → Prop
  | scalar (before : Blanks) (token : Token) (behind : Blanks) :
      Misses (.scalar before token behind)
  | list (before gap : Blanks) (items : List Spelling) (behind : Blanks) :
      Misses (.list before gap items behind)
  | empty (before gap behind : Blanks) : Misses (.object before gap [] behind)
  | several (before gap behind : Blanks) (first second : Member) (others : List Member) :
      Misses (.object before gap (first :: second :: others) behind)
  | unknownKey (before gap behind : Blanks) {k : KeySpelling} (τ : Spelling)
      (h : ∀ t : Trigger, k.name ≠ some t.key) : Misses (.object before gap [(k, τ)] behind)
  | noText (before gap behind : Blanks) (k : KeySpelling) {τ : Spelling}
      (h : ∀ words, ¬ τ.Tells words) : Misses (.object before gap [(k, τ)] behind)

theorem string_document_iff [RealReader] {c : Context} {τ : Spelling} {s : String} :
    Reader.string c τ.document = .ok s ↔ τ.Tells s := by
  cases τ with
  | scalar before token behind =>
      cases token with
      | text ps =>
          refine known_eq_ok_iff.trans ⟨fun h => .text h, ?_⟩
          rintro ⟨h⟩
          exact h
      | null | boolean | number => exact iff_of_false error_ne_ok nofun
  | list | object => exact iff_of_false error_ne_ok nofun

theorem misses_iff {τ : Spelling} : τ.Misses ↔ ∀ t, ¬ τ.Chooses t := by
  constructor
  · intro h t ht
    cases ht with
    | only hkey hwords =>
        cases h with
        | unknownKey _ _ _ _ h => exact h t hkey
        | noText _ _ _ _ h => exact h _ hwords
  · intro h
    cases τ with
    | scalar before token behind => exact .scalar before token behind
    | list before gap items behind => exact .list before gap items behind
    | object before gap members behind =>
        rcases members with _ | ⟨⟨k, τ⟩, _ | ⟨second, others⟩⟩
        · exact .empty before gap behind
        · by_cases hkey : ∃ t : Trigger, k.name = some t.key
          · obtain ⟨t, hkey⟩ := hkey
            refine .noText before gap behind k fun words hwords => ?_
            obtain ⟨t', hkey', rfl⟩ := t.exists_words words
            exact h t' (.only (hkey' ▸ hkey) hwords)
          · exact .unknownKey before gap behind τ (not_exists.1 hkey)
        · exact .several before gap behind (k, τ) second others

end Json.Spelling

/-! ### Reading -/

namespace Trigger

variable {c : Context} {τ : Spelling} {t : Trigger}

theorem chooses_object_iff {before gap behind : Blanks} {k : KeySpelling} {ms : List Member} :
    (Spelling.object before gap ((k, τ) :: ms) behind).Chooses t ↔
      (k.name = some t.key ∧ τ.Tells t.words) ∧ ms = [] := by
  constructor
  · rintro ⟨hkey, hwords⟩
    exact ⟨⟨hkey, hwords⟩, rfl⟩
  · rintro ⟨⟨hkey, hwords⟩, rfl⟩
    exact .only hkey hwords

variable [RealReader]

theorem picks_iff {k : KeySpelling} :
    choice.Picks c k.key τ.document t ↔ k.name = some t.key ∧ τ.Tells t.words := by
  constructor
  · rintro ⟨name, p, hname, hp, h⟩
    obtain ⟨f, rfl, hf⟩ := of_get? hp
    obtain ⟨s, hs, h⟩ := bind_eq_ok_iff.1 h
    obtain rfl := Except.ok.inj h
    rw [(hf s).1, (hf s).2]
    exact ⟨text_key_eq_ok_iff.1 hname, string_document_iff.1 hs⟩
  · rintro ⟨hkey, hwords⟩
    obtain ⟨f, hget, hf⟩ := t.get?_key
    refine ⟨t.key, .text f, text_key_eq_ok_iff.2 hkey, hget, bind_eq_ok_iff.2 ⟨t.words, ?_, ?_⟩⟩
    · exact string_document_iff.2 hwords
    · rw [hf]
      rfl

theorem membersDocument_eq_close_iff {ms : List Member} :
    (∃ stop, membersDocument ms = .close stop) ↔ ms = [] := by
  cases ms with
  | nil => exact iff_of_true ⟨[], rfl⟩ rfl
  | cons => exact iff_of_false nofun (List.cons_ne_nil _ _)

theorem readMember_iff {before gap behind : Blanks} {ms : List Member} :
    choice.readMember c (membersDocument ms) = .ok t ↔
      (Spelling.object before gap ms behind).Chooses t := by
  cases ms with
  | nil => exact iff_of_false error_ne_ok nofun
  | cons m ms =>
      rw [membersDocument, Choice.readMember_eq_ok_iff, picks_iff, membersDocument_eq_close_iff,
        chooses_object_iff]

theorem scalar_ne_ok (token : Token) :
    choice.readText c (.scalar [] [] token.value) ≠ .ok t ∧
      choice.readWhole c (.scalar [] [] token.value) ≠ .ok t := by
  cases token with
  | text ps => exact ⟨bare_ne_ok ps t, bare_ne_ok ps t⟩
  | null | boolean | number => exact ⟨error_ne_ok, error_ne_ok⟩

theorem readText_document_iff :
    choice.readText c τ.document = .ok t ↔ (∃ c', c.enter [] = .ok c') ∧ τ.Chooses t := by
  cases τ with
  | scalar before token behind => exact iff_of_false (scalar_ne_ok token).1 nofun
  | list => exact iff_of_false error_ne_ok nofun
  | object before gap ms behind =>
      refine bind_eq_ok_iff.trans (Iff.trans ?_ exists_and_right)
      exact exists_congr fun c' => and_congr_right fun _ => readMember_iff

theorem readWhole_document_iff : choice.readWhole c τ.document = .ok t ↔ τ.Chooses t := by
  cases τ with
  | scalar before token behind => exact iff_of_false (scalar_ne_ok token).2 nofun
  | list => exact iff_of_false error_ne_ok nofun
  | object before gap ms behind =>
      cases ms with
      | nil => exact iff_of_false error_ne_ok nofun
      | cons m ms =>
          rw [document, membersDocument, Choice.readWhole_eq_ok_iff, picks_iff,
            membersDocument_eq_close_iff, chooses_object_iff]

/-- A trigger is read from the values that choose it, if there is room for their brace. -/
theorem read_document_iff :
    codec.read c τ.document = .ok t ↔ (∃ c', c.enter [] = .ok c') ∧ τ.Chooses t := by
  change choice.read c τ.document = .ok t ↔ _
  rw [Choice.read]
  split_ifs with hsource
  · exact readText_document_iff
  · -- Only a text runs out of room.
    have hfits : c.Fits 1 := fun htext => absurd htext hsource
    obtain ⟨c', henter, -⟩ := hfits.enter []
    rw [readWhole_document_iff, and_iff_right ⟨c', henter⟩]

/-- A text is read as a trigger if its value chooses one. -/
theorem readText_iff {text : String} (h : τ.Spells text) :
    codec.read.readText text = .ok t ↔ τ.Chooses t := by
  have hroom : ∃ c', Context.ofText.enter [] = .ok c' := ⟨_, rfl⟩
  have hread : codec.read.readText text = .ok t ↔ codec.read .ofText τ.document = .ok t :=
    h.readText_eq_ok_iff choice.read_placeless
  exact (hread.trans read_document_iff).trans (and_iff_right hroom)

end Trigger

/-! ### Inside of a description -/

namespace Transition

/-- A transition with a value for its trigger, by key or by position. -/
inductive HoldsTrigger (τ : Spelling) : Spelling → Prop
  | byKey {before gap behind : Blanks} (as bs : List Member) {k : KeySpelling}
      (hkey : k.name = some "trigger") :
      HoldsTrigger τ (.object before gap (as ++ (k, τ) :: bs) behind)
  | byPosition {before gap behind : Blanks} (source target : Spelling) (others : List Spelling) :
      HoldsTrigger τ (.list before gap (source :: target :: τ :: others) behind)

variable {τ ρ : Spelling}

theorem HoldsTrigger.isNested (h : HoldsTrigger τ ρ) : ρ.IsNested := by
  cases h with
  | byKey | byPosition => trivial

variable [RealReader]

/-- The trigger of a transition that is read is the one that its value chooses. -/
theorem HoldsTrigger.chooses (h : HoldsTrigger τ ρ) {c : Context} {t : Transition}
    (hread : record.read c ρ.document = .ok t) : τ.Chooses t.trigger := by
  have htrigger : ∃ c', Trigger.codec.read c' τ.document = .ok t.trigger := by
    cases h with
    | byKey as bs hkey =>
        obtain ⟨c', -, ⟨source, target, trigger, action, ⟨⟩⟩, hvs, rfl⟩ :=
          Record.read_object_eq_ok_iff.1 hread
        obtain ⟨-, -, hgets, -⟩ := hvs
        rw [without_membersDocument, without_membersDocument, under_membersDocument,
          under_filter_of_ne (by decide), under_filter_of_ne (by decide),
          under_append_cons_self hkey] at hgets
        exact ⟨c', (Field.gets_append_cons_iff.1 hgets).2.2⟩
    | byPosition source target others =>
        obtain ⟨c', -, ⟨source, target, trigger, action, ⟨⟩⟩, hvs, rfl⟩ :=
          Record.read_list_eq_ok_iff.1 hread
        obtain ⟨-, -, hread, -⟩ := hvs
        exact ⟨c', hread⟩
  obtain ⟨c', hread⟩ := htrigger
  exact (Trigger.read_document_iff.1 hread).2

/-- A description with a transition whose trigger misses is refused. -/
theorem HoldsTrigger.ofText_ne_ok (h : HoldsTrigger τ ρ) (hτ : τ.Misses)
    {D : Spelling → Spelling} (hD : Around record.read Model.record.read D) {text : String}
    (htext : (D ρ).Spells text) (m : Model) : Model.ofText text ≠ .ok m := by
  have hrefused : ∀ c t, record.read c ρ.document ≠ .ok t := fun c t hread =>
    misses_iff.1 hτ t.trigger (h.chooses hread)
  intro hm
  exact hD.ne_ok h.isNested hrefused .ofText m
    ((htext.readText_eq_ok_iff Model.record_placeless).1 hm)

end Transition

namespace Trigger

/-- A text is read as a trigger exactly if it is JSON for an object with one member that has the
key of the trigger and tells its words. Every other value is one of those that miss, and a value
that misses is refused in a text of its own and, for the trigger of a transition, by the
transition and by each description around it. A transition that is read has the trigger that its
value chooses.

The words are those of a string that names a Unicode text. A string with half of a surrogate pair
on its own names none, although it is well-formed JSON: no trigger could hold it, and a value with
such a string for its words is among those that miss (`Spelling.Misses.noText`). -/
theorem read_from_one_choice [RealReader] :
    (∀ text t, codec.read.readText text = .ok t ↔
      ∃ τ : Spelling, τ.Spells text ∧ τ.Chooses t) ∧
    ∀ τ : Spelling,
      (τ.Misses ↔ ∀ t, ¬ τ.Chooses t) ∧
      (∀ text, τ.Spells text →
        (∀ t, codec.read.readText text = .ok t ↔ τ.Chooses t) ∧
        (τ.Misses ↔ ∀ t, codec.read.readText text ≠ .ok t)) ∧
      ∀ ρ, Transition.HoldsTrigger τ ρ →
        (∀ c t, Transition.record.read c ρ.document = .ok t → τ.Chooses t.trigger) ∧
        (τ.Misses →
          (∀ c t, Transition.record.read c ρ.document ≠ .ok t) ∧
          ∀ D text, Around Transition.record.read Model.record.read D → (D ρ).Spells text →
            ∀ m, Model.ofText text ≠ .ok m) := by
  refine ⟨fun text t => ⟨fun h => ?_, ?_⟩, fun τ => ⟨misses_iff, fun text htext => ?_, ?_⟩⟩
  · obtain ⟨τ, hτ⟩ := exists_spells h
    exact ⟨τ, hτ, (readText_iff hτ).1 h⟩
  · rintro ⟨τ, hτ, h⟩
    exact (readText_iff hτ).2 h
  · refine ⟨fun t => readText_iff htext, misses_iff.trans (forall_congr' fun t => ?_)⟩
    exact not_congr (readText_iff htext).symm
  · intro ρ hρ
    refine ⟨fun c t hread => hρ.chooses hread, fun hτ => ⟨fun c t hread => ?_, ?_⟩⟩
    · exact misses_iff.1 hτ t.trigger (hρ.chooses hread)
    · exact fun D text hD htext => hρ.ofText_ne_ok hτ hD htext

open scoped Concrete

def noItems : Spelling :=
  .list .none .none [] .none

/-- A description of a door by position, with one transition that is yet to be filled in. -/
def aroundTransition (ρ : Spelling) : Spelling :=
  .list .none .none
    [.plain "urn" (by decide), .plain "dtmi:door;1" (by decide), .plain "Interface" (by decide),
      .plain "Door" (by decide), .plain "Opens" (by decide), .scalar .none .null .none, noItems,
      noItems, noItems, noItems, noItems, noItems,
      .list .none .none [.plain "shut" (by decide), noItems, .list .none .none [ρ] .none] .none]
    .none

theorem around_aroundTransition :
    Around Transition.record.read Model.record.read aroundTransition := by
  refine .position (.optional "stateMachine" StateMachine.record.codec)
    [_, _, _, _, _, _, _, _, _, _, _, _] [] rfl (.optional ?_)
  refine .position (.withDefault "transitions" [] Transition.record.codec.list) [_, _] [] rfl ?_
  exact .item [] [] .here

/-- A transition by key, by the members of its trigger. -/
def opening (ms : List Member) : Spelling :=
  .object .none .none
    [(.plain "from" (by decide), .plain "shut" (by decide)),
      (.plain "trigger" (by decide), .object .none .none ms .none),
      (.plain "to" (by decide), .plain "ajar" (by decide))] .none

def doorText (trigger : String) : String :=
  "[\"urn\",\"dtmi:door;1\",\"Interface\",\"Door\",\"Opens\",null,[],[],[],[],[],[]," ++
    "[\"shut\",[],[\x7b\"from\":\"shut\",\"trigger\":" ++ trigger ++ ",\"to\":\"ajar\"\x7d]]]"

def byEvent : Member :=
  (.plain "event" (by decide), .plain "push" (by decide))

def byCommand : Member :=
  (.plain "command" (by decide), .plain "open" (by decide))

theorem only_byEvent_chooses :
    (Spelling.object .none .none [byEvent] .none).Chooses (.event "push") :=
  .only (by decide) (.text (by decide))

/-- An event opens the door, but not an event and a command at once. -/
theorem read_from_one_choice_door :
    codec.read.readText "\x7b\"event\":\"push\"\x7d" = .ok (.event "push") ∧
      (∃ m, Model.ofText (doorText "\x7b\"event\":\"push\"\x7d") = .ok m) ∧
      ∀ m, Model.ofText (doorText "\x7b\"event\":\"push\",\"command\":\"open\"\x7d") ≠
        .ok m := by
  obtain ⟨hread, hvalues⟩ := read_from_one_choice
  refine ⟨(hread _ _).2 ⟨_, spells_of_eq (by decide +kernel), only_byEvent_chooses⟩, ?_, ?_⟩
  · have hdoor : (aroundTransition (opening [byEvent])).Spells
        (doorText "\x7b\"event\":\"push\"\x7d") := spells_of_eq (by decide +kernel)
    exact ⟨_, (hdoor.readText_eq_ok_iff Model.record_placeless).2 (by rfl)⟩
  · have hdoor : (aroundTransition (opening [byEvent, byCommand])).Spells
        (doorText "\x7b\"event\":\"push\",\"command\":\"open\"\x7d") :=
      spells_of_eq (by decide +kernel)
    have hmisses : (Spelling.object .none .none [byEvent, byCommand] .none).Misses :=
      .several _ _ _ byEvent byCommand []
    have htrigger : Transition.HoldsTrigger _ (opening [byEvent, byCommand]) :=
      .byKey [_] [_] (by decide)
    exact (((hvalues _).2.2 _ htrigger).2 hmisses).2 aroundTransition _ around_aroundTransition
      hdoor

end Trigger

end DeviceTwin
