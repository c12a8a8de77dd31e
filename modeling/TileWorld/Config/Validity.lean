import TileWorld.Config.Basic
import TileWorld.Decimal.Layout

/-!
Which configurations can be run. `Valid` states the conditions; `validate` names the first one that
is violated, together with the value at fault.
-/

namespace TileWorld.Config

inductive Violation where
  | zeroDimension (field : Field) (value : UInt32)
  | noInitialEntities
  | solidProbability (value : Float)
  | timestep (value : Float)
  | nonFinite (field : Field) (value : Float)
deriving DecidableEq

def Violation.message : Violation → String
  | zeroDimension f v => s!"{f.name} must be positive, got {v}"
  | noInitialEntities => "initial_entities must be positive"
  | solidProbability v =>
    s!"solid_probability must lie in [0, 1], got {Decimal.plain.text v}"
  | timestep v => s!"dt must be finite and positive, got {Decimal.plain.text v}"
  | nonFinite f v => s!"{f.name} must be finite, got {Decimal.plain.text v}"

structure Valid (c : Config) : Prop where
  width : c.width > 0
  height : c.height > 0
  initialEntities : c.initialEntities > 0
  solidProbability : 0 ≤ c.solidProbability ∧ c.solidProbability ≤ 1
  timestep : c.dt.isFinite ∧ c.dt > 0
  gravity : c.gravity.isFinite
  friction : c.friction.isFinite

def validate (c : Config) : Except Violation Unit :=
  if c.width = 0 then .error (.zeroDimension .width c.width)
  else if c.height = 0 then .error (.zeroDimension .height c.height)
  else if c.initialEntities = 0 then .error .noInitialEntities
  else if ¬ (0 ≤ c.solidProbability ∧ c.solidProbability ≤ 1) then
    .error (.solidProbability c.solidProbability)
  else if ¬ c.dt.isFinite ∨ c.dt ≤ 0 then .error (.timestep c.dt)
  else if ¬ c.gravity.isFinite then .error (.nonFinite .gravity c.gravity)
  else if ¬ c.friction.isFinite then .error (.nonFinite .friction c.friction)
  else .ok ()

end TileWorld.Config
