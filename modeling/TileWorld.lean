import TileWorld.Main
import TileWorld.Proofs.Command.Verify
import TileWorld.Proofs.Config.Document
import TileWorld.Proofs.Config.RoundTrip
import TileWorld.Proofs.Entity.Spawn
import TileWorld.Proofs.Generator.Period
import TileWorld.Proofs.Generator.Saved
import TileWorld.Proofs.Motion.Rooms
import TileWorld.Proofs.Population.Cursors
import TileWorld.Proofs.Simulation.Bounds
import TileWorld.Proofs.Simulation.Census
import TileWorld.Proofs.Simulation.Checksum
import TileWorld.Proofs.Simulation.Cohort
import TileWorld.Proofs.Simulation.Construction
import TileWorld.Proofs.Simulation.Draws
import TileWorld.Proofs.Simulation.Frozen
import TileWorld.Proofs.Simulation.Grid
import TileWorld.Proofs.Simulation.Grounded
import TileWorld.Proofs.Simulation.Ledger
import TileWorld.Proofs.Simulation.Lifetime
import TileWorld.Proofs.Simulation.Segments
import TileWorld.Proofs.Simulation.Speed
import TileWorld.Proofs.Simulation.Standing
import TileWorld.Proofs.TileMap.Coupling
import TileWorld.Proofs.TileMap.Refusal
import TileWorld.Tile.Json
