import TileWorld.Simulation.Basic
import TileWorld.Config.Json

/-!
What is reported of a run, and how.
-/

namespace TileWorld

def checksumText (x : Float) : String :=
  String.ofList (Decimal.fixedChars 6 x)

inductive Timing where
  | unmeasured
  | seconds (elapsed : Float)

namespace Timing

def elapsed : Timing → Json.Value
  | unmeasured => .natural 0
  | seconds t => .real t

def framesPerSecond (frames : Nat) : Timing → Json.Value
  | unmeasured => .natural 0
  | seconds t => .real (if t > 0 then frames.toFloat / t else 0)

end Timing

structure Summary where
  seed : UInt32
  frames : Nat
  initialEntities : UInt32
  spawnPerFrame : UInt32
  width : UInt32
  height : UInt32
  checksum : Float
  active : Nat
  peakActive : Nat
  totalSpawned : Nat
  totalDropped : Nat

/-- The summary of the frames made so far. The size is that of the grid in use. -/
def Simulation.summary (s : Simulation) : Summary where
  seed := s.config.seed
  frames := s.frame
  initialEntities := s.config.initialEntities
  spawnPerFrame := s.config.spawnPerFrame
  width := s.map.width.toUInt32
  height := s.map.height.toUInt32
  checksum := s.checksum
  active := s.activeCount
  peakActive := s.peakActive
  totalSpawned := s.totalSpawned
  totalDropped := s.totalDropped

namespace Summary

def checksumText (s : Summary) : String := TileWorld.checksumText s.checksum

def toJson (t : Timing) (s : Summary) : Json.Value :=
  .object [
    ("seed", .natural s.seed.toNat),
    ("frames", .natural s.frames),
    ("initial_entities", .natural s.initialEntities.toNat),
    ("spawn_per_frame", .natural s.spawnPerFrame.toNat),
    ("width", .natural s.width.toNat),
    ("height", .natural s.height.toNat),
    ("checksum", .real s.checksum),
    ("checksum_text", .text s.checksumText),
    ("active", .natural s.active),
    ("peak_active", .natural s.peakActive),
    ("total_spawned", .natural s.totalSpawned),
    ("total_dropped", .natural s.totalDropped),
    ("elapsed_secs", t.elapsed),
    ("frames_per_second", t.framesPerSecond s.frames)]

end Summary

end TileWorld
