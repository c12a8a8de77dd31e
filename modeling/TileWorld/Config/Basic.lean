/-!
The parameters of a run and their defaults. A parameter is named by a `Field`, which fixes the type
of its values, so that a configuration file and command line options are both lists of assignments.
-/

namespace TileWorld

structure Config where
  frames : UInt32 := 3600
  initialEntities : UInt32 := 300
  spawnPerFrame : UInt32 := 3
  width : UInt32 := 128
  height : UInt32 := 72
  seed : UInt32 := 123456789
  /-- The length of a frame in seconds. -/
  dt : Float := 1 / 60
  gravity : Float := 18
  friction : Float := 8
  /-- The chance that a cell of the grid is solid. -/
  solidProbability : Float := 0.18
deriving DecidableEq

namespace Config

instance : Inhabited Config := ⟨{}⟩

/-- Equality of values as numbers: the two zeros are equal, and a NaN differs from itself. -/
instance : BEq Config where
  beq a b :=
    a.frames == b.frames && a.initialEntities == b.initialEntities &&
    a.spawnPerFrame == b.spawnPerFrame && a.width == b.width && a.height == b.height &&
    a.seed == b.seed && a.dt == b.dt && a.gravity == b.gravity && a.friction == b.friction &&
    a.solidProbability == b.solidProbability

inductive Kind where
  | count
  | real
deriving DecidableEq

abbrev Kind.Value : Kind → Type
  | count => UInt32
  | real => Float

inductive Field where
  | frames
  | initialEntities
  | spawnPerFrame
  | width
  | height
  | seed
  | dt
  | gravity
  | friction
  | solidProbability
deriving DecidableEq

namespace Field

/-- Every field, in the order in which a configuration is written. -/
def all : List Field :=
  [frames, initialEntities, spawnPerFrame, width, height, seed, dt, gravity, friction,
    solidProbability]

theorem mem_all (f : Field) : f ∈ all := by cases f <;> decide

def kind : Field → Kind
  | frames | initialEntities | spawnPerFrame | width | height | seed => .count
  | dt | gravity | friction | solidProbability => .real

abbrev Value (f : Field) : Type := f.kind.Value

def name : Field → String
  | frames => "frames"
  | initialEntities => "initial_entities"
  | spawnPerFrame => "spawn_per_frame"
  | width => "width"
  | height => "height"
  | seed => "seed"
  | dt => "dt"
  | gravity => "gravity"
  | friction => "friction"
  | solidProbability => "solid_probability"

def ofName? (s : String) : Option Field :=
  all.find? (·.name == s)

end Field

def get (c : Config) : (f : Field) → f.Value
  | .frames => c.frames
  | .initialEntities => c.initialEntities
  | .spawnPerFrame => c.spawnPerFrame
  | .width => c.width
  | .height => c.height
  | .seed => c.seed
  | .dt => c.dt
  | .gravity => c.gravity
  | .friction => c.friction
  | .solidProbability => c.solidProbability

def set (c : Config) : (f : Field) → f.Value → Config
  | .frames, v => { c with frames := v }
  | .initialEntities, v => { c with initialEntities := v }
  | .spawnPerFrame, v => { c with spawnPerFrame := v }
  | .width, v => { c with width := v }
  | .height, v => { c with height := v }
  | .seed, v => { c with seed := v }
  | .dt, v => { c with dt := v }
  | .gravity, v => { c with gravity := v }
  | .friction, v => { c with friction := v }
  | .solidProbability, v => { c with solidProbability := v }

structure Assignment where
  field : Field
  value : field.Value

/-- The configuration with the assignments made from left to right. -/
def overlay (c : Config) (as : List Assignment) : Config :=
  as.foldl (fun c a => c.set a.field a.value) c

@[simp] theorem get_set (c : Config) (f : Field) (v : f.Value) : (c.set f v).get f = v := by
  cases f <;> rfl

theorem get_set_of_ne (c : Config) {f f' : Field} (v : f.Value) (h : f' ≠ f) :
    (c.set f v).get f' = c.get f' := by
  cases f <;> cases f' <;> first | rfl | exact absurd rfl h

theorem ext_get {a b : Config} (h : ∀ f, a.get f = b.get f) : a = b := by
  cases a
  cases b
  simp only [mk.injEq]
  exact ⟨h .frames, h .initialEntities, h .spawnPerFrame, h .width, h .height, h .seed, h .dt,
    h .gravity, h .friction, h .solidProbability⟩

end Config

end TileWorld
