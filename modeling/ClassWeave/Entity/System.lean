/-!
# The life of a system

A system takes part in every step of the world once it is set up and as long as it is enabled.  What
it does in a step is up to its hooks; the order in which they are called is not.

* `SystemHooks` : what a system does, and how it decides whether to take part: `begin`,
  `process_system`, `end` and `check_processing`.
* `SystemHooks.step` : one step of the world, `process`.
-/

namespace ClassWeave

/-- A system between two calls: its flags and all that its hooks remember. -/
structure SystemState (σ : Type) where
  /-- Whether the system may take part in steps. -/
  enabled : Bool := true
  /-- Whether the system has been set up. -/
  ready : Bool := false
  /-- What the hooks remember. -/
  memory : σ
  deriving DecidableEq, Repr

namespace SystemState

variable {σ : Type} (s : SystemState σ)

/-- The system after it has been set up. -/
def setUp : SystemState σ := { s with ready := true }

/-- The system enabled or disabled, as `enabled` tells. -/
def setEnabled (enabled : Bool) : SystemState σ := { s with enabled }

/-- A system takes part in steps when it is set up and enabled. -/
def takesPart : Bool := s.ready && s.enabled

end SystemState

/-- What a system does in a step. -/
structure SystemHooks (σ : Type) where
  /-- Called before the work of a step. -/
  before : SystemState σ → SystemState σ := id
  /-- The work of a step. -/
  work : SystemState σ → SystemState σ
  /-- Called after the work of a step. -/
  after : SystemState σ → SystemState σ := id
  /-- Whether the system takes part in a step. -/
  gate : SystemState σ → Bool := SystemState.takesPart

namespace SystemHooks

variable {σ : Type} (h : SystemHooks σ)

/-- One step: if the gate allows it, what comes before the work, the work and what comes after. -/
def step (s : SystemState σ) : SystemState σ :=
  if h.gate s then h.after (h.work (h.before s)) else s

end SystemHooks

end ClassWeave
