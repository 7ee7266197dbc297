import DeviceTwin.Model.Basic
import Mathlib.Logic.Basic

/-!
# Descriptions built from parts

A description is built by adding parts to the empty interface, one after another. There are two
kinds of parts: a list goes behind what its collection holds already (`Collection.items_add`),
and a machine or physics takes the place of the one before (`stateMachine_add`, `physics_add`).
So what a whole run leaves in a collection is the lists for this collection one behind the other
(`items_addAll`), and of the machines and the physics the last one remains (`last_addAll`).

`Collection` names the nine lists, so that what holds of each of them is said once.
-/

namespace DeviceTwin

namespace Model

/-! ### The lists of a description -/

/-- The lists that a description holds. -/
inductive Collection where
  | schemas
  | properties
  | telemetry
  | commands
  | events
  | relationships
  | rules
  | goals
  | aiModels

namespace Collection

abbrev Item : Collection → Type
  | schemas => ObjectSchema
  | properties => Property
  | telemetry => Telemetry
  | commands => Command
  | events => Event
  | relationships => Relationship
  | rules => Rule
  | goals => Goal
  | aiModels => AiModel

/-- What a description holds in a collection. -/
def items : (c : Collection) → Model → List c.Item
  | schemas, m => m.schemas
  | properties, m => m.properties
  | telemetry, m => m.telemetry
  | commands, m => m.commands
  | events, m => m.events
  | relationships, m => m.relationships
  | rules, m => m.rules
  | goals, m => m.goals
  | aiModels, m => m.aiModels

/-- The part that brings a list to a collection. -/
def part : (c : Collection) → List c.Item → Part
  | schemas, xs => .schemas xs
  | properties, xs => .properties xs
  | telemetry, xs => .telemetry xs
  | commands, xs => .commands xs
  | events, xs => .events xs
  | relationships, xs => .relationships xs
  | rules, xs => .rules xs
  | goals, xs => .goals xs
  | aiModels, xs => .aiModels xs

/-- What a part brings to a collection: its list, if it is for this collection. -/
def given : (c : Collection) → Part → List c.Item
  | schemas, .schemas xs => xs
  | properties, .properties xs => xs
  | telemetry, .telemetry xs => xs
  | commands, .commands xs => xs
  | events, .events xs => xs
  | relationships, .relationships xs => xs
  | rules, .rules xs => xs
  | goals, .goals xs => xs
  | aiModels, .aiModels xs => xs
  | _, _ => []

variable (c : Collection)

/-- A part adds to its own collection and leaves the others alone. -/
theorem items_add (m : Model) (p : Part) : c.items (m.add p) = c.items m ++ c.given p := by
  cases c <;> cases p
  case schemas.schemas | properties.properties | telemetry.telemetry | commands.commands |
      events.events | relationships.relationships | rules.rules | goals.goals |
      aiModels.aiModels => rfl
  -- in all other cases the part brings nothing to the collection
  all_goals exact (List.append_nil _).symm

/-- Two lists added to one collection are as one list added to it. -/
theorem add_part_add_part (m : Model) (xs ys : List c.Item) :
    (m.add (c.part xs)).add (c.part ys) = m.add (c.part (xs ++ ys)) := by
  cases c <;> simp only [part, add, List.append_assoc]

theorem items_new (id displayName description : String) :
    c.items (new id displayName description) = [] := by
  cases c <;> rfl

end Collection

/-! ### What is not in a list -/

/-- The texts at the root of a description. No part changes them. -/
def root (m : Model) : String × String × String × String × String × Option String :=
  (m.context, m.id, m.kind, m.displayName, m.description, m.versionInfo)

namespace Part

def machine? : Part → Option StateMachine
  | .stateMachine machine => some machine
  | _ => none

def physics? : Part → Option Physics
  | .physics p => some p
  | _ => none

end Part

theorem root_add (m : Model) (p : Part) : (m.add p).root = m.root := by
  cases p <;> rfl

theorem stateMachine_add (m : Model) (p : Part) :
    (m.add p).stateMachine = p.machine?.or m.stateMachine := by
  cases p <;> rfl

theorem physics_add (m : Model) (p : Part) : (m.add p).physics = p.physics?.or m.physics := by
  cases p <;> rfl

/-- A description is its root, its lists, its machine and its physics. -/
theorem eq_iff_items {m m' : Model} :
    m = m' ↔ m.root = m'.root ∧ (∀ c : Collection, c.items m = c.items m') ∧
      m.stateMachine = m'.stateMachine ∧ m.physics = m'.physics := by
  constructor
  · rintro rfl
    exact ⟨rfl, fun _ => rfl, rfl, rfl⟩
  · rintro ⟨hroot, hitems, hmachine, hphysics⟩
    simp only [root, Prod.mk.injEq] at hroot
    obtain ⟨hcontext, hid, hkind, hname, hdescription, hversion⟩ := hroot
    cases m
    cases m'
    rw [mk.injEq]
    exact ⟨hcontext, hid, hkind, hname, hdescription, hversion, hitems .schemas,
      hitems .properties, hitems .telemetry, hitems .commands, hitems .events,
      hitems .relationships, hmachine, hphysics, hitems .rules, hitems .goals, hitems .aiModels⟩

/-! ### Runs -/

theorem addAll_cons (m : Model) (p : Part) (parts : List Part) :
    m.addAll (p :: parts) = (m.add p).addAll parts :=
  rfl

theorem root_addAll (m : Model) (parts : List Part) : (m.addAll parts).root = m.root := by
  induction parts generalizing m with
  | nil => rfl
  | cons p parts ih => rw [addAll_cons, ih, root_add]

theorem items_addAll (c : Collection) (m : Model) (parts : List Part) :
    c.items (m.addAll parts) = c.items m ++ parts.flatMap c.given := by
  induction parts generalizing m with
  | nil => exact (List.append_nil _).symm
  | cons p parts ih => rw [addAll_cons, ih, c.items_add, List.flatMap_cons, List.append_assoc]

/-- A value that is replaced by every part that brings one is in the end the last one brought, or
the value from before the run if none was brought. -/
theorem last_addAll {α : Type} {held : Model → Option α} {given : Part → Option α}
    (hadd : ∀ m p, held (m.add p) = (given p).or (held m)) (m : Model) (parts : List Part) :
    held (m.addAll parts) = (parts.filterMap given).getLast?.or (held m) := by
  induction parts generalizing m with
  | nil => rfl
  | cons p parts ih =>
      rw [addAll_cons, ih, hadd, ← Option.or_assoc]
      -- what the first part brings counts only if no later part brings a value
      cases hp : given p with
      | none => rw [List.filterMap_cons_none hp, Option.or_none]
      | some a =>
          rw [List.filterMap_cons_some hp, List.getLast?_cons]
          cases (parts.filterMap given).getLast? <;> rfl

/-- Two runs bring the same: to each collection the same items in the same order, in however many
lists, and the same machine and physics in the end. -/
structure SameParts (parts parts' : List Part) : Prop where
  given : ∀ c : Collection, parts.flatMap c.given = parts'.flatMap c.given
  machine : (parts.filterMap Part.machine?).getLast? = (parts'.filterMap Part.machine?).getLast?
  physics : (parts.filterMap Part.physics?).getLast? = (parts'.filterMap Part.physics?).getLast?

section New

variable (id displayName description : String) (parts : List Part)

theorem items_addAll_new (c : Collection) :
    c.items ((new id displayName description).addAll parts) = parts.flatMap c.given := by
  rw [items_addAll, c.items_new, List.nil_append]

theorem stateMachine_addAll_new :
    ((new id displayName description).addAll parts).stateMachine =
      (parts.filterMap Part.machine?).getLast? := by
  rw [last_addAll stateMachine_add]
  exact Option.or_none

theorem physics_addAll_new :
    ((new id displayName description).addAll parts).physics =
      (parts.filterMap Part.physics?).getLast? := by
  rw [last_addAll physics_add]
  exact Option.or_none

theorem addAll_new_eq_iff {parts' : List Part} :
    (new id displayName description).addAll parts =
        (new id displayName description).addAll parts' ↔
      SameParts parts parts' := by
  rw [eq_iff_items]
  simp only [root_addAll, items_addAll_new, stateMachine_addAll_new, physics_addAll_new, true_and]
  exact ⟨fun ⟨hgiven, hmachine, hphysics⟩ => ⟨hgiven, hmachine, hphysics⟩,
    fun h => ⟨h.given, h.machine, h.physics⟩⟩

/-- **Building a description.** After any run of parts on a new description its root is as it
was, each collection holds the lists brought to it one behind the other, whatever was brought to
the others in between, and the last machine and the last physics remain, if there were any. So two
runs give the same description exactly if they bring the same, and a list brought to a collection
that has items already comes behind them. -/
theorem built_from_parts :
    ((new id displayName description).addAll parts).root =
      (standardContext, id, interfaceKind, displayName, description, none) ∧
    (∀ c : Collection,
      c.items ((new id displayName description).addAll parts) = parts.flatMap c.given) ∧
    ((new id displayName description).addAll parts).stateMachine =
      (parts.filterMap Part.machine?).getLast? ∧
    ((new id displayName description).addAll parts).physics =
      (parts.filterMap Part.physics?).getLast? ∧
    (∀ parts', (new id displayName description).addAll parts =
        (new id displayName description).addAll parts' ↔
      SameParts parts parts') ∧
    ∀ (c : Collection) (xs ys : List c.Item),
      (((new id displayName description).addAll parts).add (c.part xs)).add (c.part ys) =
        ((new id displayName description).addAll parts).add (c.part (xs ++ ys)) :=
  ⟨root_addAll _ parts, items_addAll_new id displayName description parts,
    stateMachine_addAll_new id displayName description parts,
    physics_addAll_new id displayName description parts,
    fun _ => addAll_new_eq_iff id displayName description parts,
    fun c => c.add_part_add_part _⟩

end New

/-- Events and machines that take turns. -/
example (first second : StateMachine) :
    let m := (new "dtmi:demo:bell;1" "Bell" "Rings").addAll
      [.events [.new "rung"], .stateMachine first, .goals [.new "silence"],
        .events [.new "muted", .new "rung"], .stateMachine second]
    m.eventNames = ["rung", "muted", "rung"] ∧ m.stateMachine = some second :=
  ⟨rfl, rfl⟩

end Model

end DeviceTwin
