import DeviceTwin.Command.Configuration
import DeviceTwin.Command.Inspection
import DeviceTwin.Proofs.Settings.Finding

/-!
# What a run leaves on the disk

Two commands have a file to write: drawing the graph of a description, if a target is named, and
writing the default settings. All others only look (`Inspection.readOnly_perform`). A run with a
target ends with 0 exactly if there is a text for it and the target can be written, and then the
text stands there and nothing else is touched; a run that ends otherwise leaves the disk as it was
(`Exports`). The target may be any file, also the description that is drawn or a file with
settings: both have been read before.
-/

namespace DeviceTwin

open DeviceTwin.Files DeviceTwin.Files.Entry

/-- One disk is the other with a text put into the file at a path: the file is made or holds the
text instead of what it held, and at every other address is found what was found there. -/
structure Files.Disk.Gains (d : Disk) (path text : String) (d' : Disk) : Prop where
  here : d'.here = d.here
  place : ∃ a, d.target path = .ok a ∧ d'.root.find? a = some (.file text.toUTF8) ∧
    ∀ b, b ≠ a → Alike (d.root.find? b) (d'.root.find? b)
  look : d'.look path = some (.file text.toUTF8)

theorem Files.Disk.gains_of_write {d d' : Disk} {path text : String}
    (h : d.write path text = .ok d') : d.Gains path text d' := by
  have hlook := look_write_self h
  obtain ⟨place, name, hreceives, rfl⟩ := write_eq_ok_iff.1 h
  exact ⟨rfl, ⟨place ++ [name], target_eq_ok_iff.2 ⟨place, name, hreceives, rfl⟩,
    find?_put_self _ _ _, fun _ hb => alike_put hreceives.admits hb _⟩, hlook⟩

/-- A run that is to put a text of some kind into the file at a path. It ends with 0 exactly if
there is such a text and nothing is in the way of the file, and only then changes the disk. -/
structure Exports (d : Disk) (target : String) (Wanted : String → Prop)
    (ended : Outcome × Disk) : Prop where
  code_eq_zero_iff : ended.1.code = 0 ↔ (∃ text, Wanted text) ∧ ∃ a, d.target target = .ok a
  saved : ended.1.code = 0 → ∃ text, Wanted text ∧ d.Gains target text ended.2
  unchanged : ended.1.code ≠ 0 → ended.2 = d

namespace Exports

variable {d : Disk} {target : String} {Wanted : String → Prop}

theorem of_not_wanted (h : ∀ text, ¬ Wanted text) (message : String) :
    Exports d target Wanted (.fault message, d) where
  code_eq_zero_iff := iff_of_false Nat.one_ne_zero fun ⟨⟨text, htext⟩, _⟩ => h text htext
  saved := fun hcode => absurd hcode Nat.one_ne_zero
  unchanged := fun _ => rfl

/-- To save a wanted text, and to end well if and only if that was possible. -/
theorem save {text : String} (htext : Wanted text)
    {next : Except Obstacle Unit → Plan Outcome} {lines : List String}
    (hok : next (.ok ()) = .done (.success lines))
    (herror : ∀ o, ∃ message, next (.error o) = .done (.fault message)) :
    Exports d target Wanted ((Plan.save target text >>= next).run d) := by
  rw [Plan.save, Plan.write_bind, Plan.run]
  cases htarget : d.target target with
  | ok a =>
      have hwrite : d.write target text = .ok { d with root := d.root.put text.toUTF8 a } := by
        rw [Disk.write, htarget]
        rfl
      simp only [hwrite, Plan.done_bind, hok, Plan.run_done]
      exact ⟨iff_of_true rfl ⟨⟨text, htext⟩, a, htarget⟩,
        fun _ => ⟨text, htext, Disk.gains_of_write hwrite⟩, fun hcode => absurd rfl hcode⟩
  | error o =>
      have hwrite : d.write target text = .error o := by
        rw [Disk.write, htarget]
        rfl
      obtain ⟨message, hmessage⟩ := herror o
      simp only [hwrite, Plan.done_bind, hmessage, Plan.run_done]
      refine ⟨iff_of_false Nat.one_ne_zero ?_, fun hcode => absurd hcode Nat.one_ne_zero,
        fun _ => rfl⟩
      rintro ⟨-, a, ha⟩
      cases htarget.symm.trans ha

end Exports

/-! ### Descriptions -/

section Descriptions

variable [Json.RealReader]

theorem Model.readOnly_load (path : String) : (Model.load path).ReadOnly :=
  (Plan.readOnly_entry path).bind fun _ => .done _

theorem Inspection.readOnly_withModel {path : String} {next : Model → Plan Outcome}
    (h : ∀ m, (next m).ReadOnly) : (withModel path next).ReadOnly := by
  refine (Model.readOnly_load path).bind fun loaded => ?_
  cases loaded with
  | ok m => exact h m
  | error f => exact .done _

variable [Text.HashOrder] [Suggestion.Matcher]

theorem Verdict.readOnly_onPaths (s : Settings) (paths : List String) :
    (onPaths s paths).ReadOnly := by
  induction paths with
  | nil => exact .done _
  | cons path paths ih => exact (Plan.readOnly_entry path).bind fun _ => ih.bind fun _ => .done _

namespace Inspection

/-- Whatever has no target only looks. -/
theorem readOnly_perform (s : Settings) {i : Inspection}
    (h : ∀ path target, i ≠ .graph path (some target)) : (i.perform s).ReadOnly := by
  cases i with
  | validate paths => exact (Verdict.readOnly_onPaths s paths).bind fun _ => .done _
  | statistics path asJson => exact readOnly_withModel fun _ => .done _
  | unused path asJson => exact readOnly_withModel fun _ => .done _
  | identifiers ids => exact .done _
  | graph path target =>
      cases target with
      | some target => exact absurd rfl (h path target)
      | none =>
          refine readOnly_withModel fun m => ?_
          cases m.stateMachine with
          | none => exact .done _
          | some machine => exact .done _

variable [Settings.FormReader]

/-- The text of the graph of the description at a path, drawn with what the disk holds. Settings
are needed, though they have no part in the graph. -/
def Draws (env : Environment) (config : Option String) (d : Disk) (path text : String) : Prop :=
  (∃ s, ((Settings.load env config).run d).1 = .ok s) ∧
    ∃ m machine, ((Model.load path).run d).1 = .ok m ∧ m.stateMachine = some machine ∧
      text = (StateGraph.ofMachine machine).toDot

variable {env : Environment} {args : List String} {config : Option String} {d : Disk}

theorem run_disk_eq {i : Inspection} (hargs : parse args = some (config, i))
    (h : ∀ path target, i ≠ .graph path (some target)) : ((run env args).run d).2 = d := by
  refine Plan.run_disk_of_readOnly ?_ d
  rw [run, hargs]
  refine (Settings.readOnly_load env config).bind fun loaded => ?_
  cases loaded with
  | ok s => exact readOnly_perform s h
  | error f => exact .done _

/-- Drawing into a file, with everything that may be in the way of it. -/
theorem exports_graph {path target : String}
    (hargs : parse args = some (config, .graph path (some target))) :
    Exports d target (Draws env config d path) ((run env args).run d) := by
  simp only [run, hargs, Plan.run_bind_of_readOnly (Settings.readOnly_load env config)]
  cases hload : ((Settings.load env config).run d).1 with
  | error f =>
      refine .of_not_wanted ?_ _
      rintro text ⟨⟨s, hs⟩, -⟩
      cases hload.symm.trans hs
  | ok s =>
      simp only [perform, withModel, Plan.run_bind_of_readOnly (Model.readOnly_load path)]
      cases hmodel : ((Model.load path).run d).1 with
      | error f =>
          refine .of_not_wanted ?_ _
          rintro text ⟨-, m, machine, hm, -⟩
          cases hmodel.symm.trans hm
      | ok m =>
          cases hmachine : m.stateMachine with
          | none =>
              simp only [hmachine, Plan.pure_eq, Plan.run_done]
              refine .of_not_wanted ?_ _
              rintro text ⟨-, m', machine, hm, hmachine', -⟩
              obtain rfl := Except.ok.inj (hmodel.symm.trans hm)
              cases hmachine.symm.trans hmachine'
          | some machine =>
              simp only [hmachine, drawn]
              have hdraws : Draws env config d path (StateGraph.ofMachine machine).toDot :=
                ⟨⟨s, hload⟩, m, machine, hmodel, hmachine, rfl⟩
              exact .save hdraws rfl fun _ => ⟨_, rfl⟩

end Inspection

end Descriptions

/-! ### Settings -/

namespace Configuration

variable [Json.RealReader] [Text.HashOrder] [Settings.FormReader] {env : Environment} {d : Disk}

theorem readOnly_perform {c : Configuration} (h : ∀ target, c ≠ .init target) :
    (c.perform env).ReadOnly := by
  cases c with
  | «show» config form =>
      refine (Settings.readOnly_load env config).bind fun loaded => ?_
      cases loaded <;> exact .done _
  | init target => exact absurd rfl (h target)
  | validate config =>
      refine (Settings.readOnly_load env config).bind fun loaded => ?_
      cases loaded <;> exact .done _

theorem exports_init (target : String) :
    Exports d target (· = Settings.standard.written) (((init target).perform env).run d) := by
  simp only [perform, Settings.save]
  apply Exports.save
  case htext => exact rfl
  case hok => exact rfl
  case herror => exact fun o => ⟨_, rfl⟩

end Configuration

/-! ### Runs -/

/-- **What a run leaves on the disk**, for any arguments, environment and disk. Drawing into a
file and writing the default settings end with 0 exactly if everything that they need can be read
and the target can be written. Then the target holds the graph of the description as it was read,
or the default settings, and every other file is as it was. With another exit code nothing has
changed, and nothing ever changes by any other command, or by arguments that make none. -/
theorem runs_change_only_their_target [Json.RealReader] [Text.HashOrder] [Settings.FormReader]
    [Suggestion.Matcher] (env : Environment) (args : List String) (d : Disk) :
    (match Inspection.parse args with
      | some (config, .graph path (some target)) =>
        Exports d target (Inspection.Draws env config d path) ((Inspection.run env args).run d)
      | _ => ((Inspection.run env args).run d).2 = d) ∧
    (match Configuration.parse args with
      | some (.init target) =>
        Exports d target (· = Settings.standard.written) ((Configuration.run env args).run d)
      | _ => ((Configuration.run env args).run d).2 = d) := by
  constructor
  · split
    case h_1 config path target hargs => exact Inspection.exports_graph hargs
    case h_2 other =>
      cases hargs : Inspection.parse args with
      | none =>
          rw [Inspection.run, hargs]
          rfl
      | some i =>
          refine Inspection.run_disk_eq hargs fun path target hi => ?_
          exact other i.1 path target (hargs.trans (congrArg some (Prod.ext rfl hi)))
  · rw [Configuration.run]
    split
    case h_1 target hargs =>
      rw [hargs]
      exact Configuration.exports_init target
    case h_2 other =>
      cases hargs : Configuration.parse args with
      | none => rfl
      | some c =>
          refine Plan.run_disk_of_readOnly (Configuration.readOnly_perform fun target hc => ?_) d
          exact other target (hargs.trans (congrArg some hc))

end DeviceTwin
