import DeviceTwin.Model.Machine

/-!
# Physics, rules, goals and learned models

Of these records only the event that a rule raises refers to another part of the
description.
-/

namespace DeviceTwin

structure Physics where
  kind : String
  parameters : Text.Table Number.Double
  equations : List String
  deriving DecidableEq

namespace Physics

def new (kind : String) : Physics :=
  ⟨kind, .empty, []⟩

def withParameter (name : String) (value : Number.Double) (p : Physics) : Physics :=
  { p with parameters := p.parameters.insert name value }

end Physics

structure Rule where
  name : String
  condition : String
  action : Action
  priority : Option Int32
  deriving DecidableEq

def Rule.new (name condition : String) (action : Action) : Rule :=
  ⟨name, condition, action, none⟩

structure Goal where
  name : String
  description : Option String
  metric : Option String
  target : Option FreeValue
  deriving DecidableEq

def Goal.new (name : String) : Goal :=
  ⟨name, none, none, none⟩

structure AiModel where
  name : String
  kind : String
  inputs : List String
  outputs : List String
  endpoint : Option String
  deriving DecidableEq

def AiModel.new (name kind : String) : AiModel :=
  ⟨name, kind, [], [], none⟩

end DeviceTwin
