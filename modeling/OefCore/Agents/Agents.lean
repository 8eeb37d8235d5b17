import Mathlib.Logic.Function.Basic
import Mathlib.Tactic.Common

/-
  The registry of the agents that are logged in, by public
  key.

  Main declarations:
    * `Agent`
    * `Agents.add`, `Agents.remove`, `Agents.find`
-/

namespace OefCore

/- An agent, with the endpoint that its messages go to. -/
structure Agent (E : Type) where
  key : String
  endpoint : E
  deriving DecidableEq, Repr

structure Agents (E : Type) where
  agents : String → Option (Agent E)

namespace Agents

variable {E : Type}

def construct : Agents E where
  agents := fun _ => none

/- An agent that is there under the key is replaced. -/
def add
    (self : Agents E)
    (key : String)
    (endpoint : E) : Agents E where
  agents :=
    Function.update self.agents key
      (some { key := key, endpoint := endpoint })

def remove
    (self : Agents E)
    (key : String) : Agents E where
  agents := Function.update self.agents key none

def find
    (self : Agents E)
    (key : String) : Option (Agent E) :=
  self.agents key

@[simp]
theorem find_construct (key : String) :
    (construct : Agents E).find key = none :=
  rfl

@[simp]
theorem find_add_self
    (self : Agents E)
    (key : String)
    (endpoint : E) :
    (self.add key endpoint).find key =
      some { key := key, endpoint := endpoint } :=
  Function.update_self key _ self.agents

@[simp]
theorem find_add_of_ne
    (self : Agents E)
    {key other : String}
    (hNe : other ≠ key)
    (endpoint : E) :
    (self.add key endpoint).find other = self.find other :=
  Function.update_of_ne hNe _ self.agents

@[simp]
theorem find_remove_self
    (self : Agents E)
    (key : String) :
    (self.remove key).find key = none :=
  Function.update_self key _ self.agents

@[simp]
theorem find_remove_of_ne
    (self : Agents E)
    {key other : String}
    (hNe : other ≠ key) :
    (self.remove key).find other = self.find other :=
  Function.update_of_ne hNe _ self.agents

end Agents

end OefCore
