import TileWorld.Proofs.Command.Arguments
import TileWorld.Proofs.Command.Storage
import TileWorld.Proofs.Config.Overlay
import TileWorld.Proofs.Config.Validity
import TileWorld.Proofs.Simulation.Frames

/-! What a run with options prints. Its configuration is put together of the defaults, the file and
the options, and checked as a whole only then; what comes before the check cannot fail as long as
the file is read and the options are. -/

namespace TileWorld.Command
open Config

/-- The file that is named holds a document with these assignments, and without a file there are
none. -/
def Holds (files : String → FileContent) (path? : Option String) (inFile : List Assignment) :
    Prop :=
  match path? with
  | none => inFile = []
  | some path => ∃ text, (files path).text = .ok text ∧
      Json.readDocument readAssignments text = .ok inFile

/-- What a run with the configuration `c` comes to. The storage for its grid is taken as given:
there is none for `2 ^ 63` cells, and the program is stopped if it asks for that
(`executeBounded_args`). -/
structure RunsTo (c : Config) (o : Outcome) : Prop where
  valid : c.validate = .ok () → ∃ s, Simulation.start c = .ok s ∧
    o = ⟨0, checksumText s.run.checksum ++ "\n", none⟩
  invalid : ∀ v, c.validate = .error v →
    o = ⟨1, "", some ("Error: invalid configuration\n\nCaused by:\n    " ++ v.message)⟩

theorem Holds.nodup {files : String → FileContent} {path? : Option String}
    {inFile : List Assignment} (h : Holds files path? inFile) :
    (inFile.map Assignment.field).Nodup := by
  cases path? with
  | none =>
    cases h
    exact List.nodup_nil
  | some path =>
    obtain ⟨text, -, hread⟩ := h
    exact nodup_readDocument hread

theorem result_run {files : String → FileContent} {o : Overrides} {c : Config} (json : Bool)
    (h : o.resolve files = .ok c) : (run o json).result files =
      ((Simulation.start c).mapError Failure.invalid).map fun s => .run s.run.summary json := by
  change (o.resolve files).bind (fun c =>
    ((Simulation.start c).mapError Failure.invalid).bind fun s =>
      .ok (Result.run s.run.summary json)) = _
  rw [h]
  change ((Simulation.start c).mapError Failure.invalid).bind _ = _
  cases Simulation.start c <;> rfl

/-- On a machine a run with a valid configuration is stopped if its grid cannot be stored, and has
printed nothing then. With any other configuration it comes to the same. -/
theorem executeBounded_args {files : String → FileContent} (t : Timing) {i : Invocation}
    {c : Config} (h : Overrides.resolve files ⟨i.path?, i.assignments⟩ = .ok c) :
    (c.validate = .ok () → ¬ c.GridFits → executeBounded files t i.args = ⟨101, "", none⟩) ∧
    ((c.validate = .ok () → c.GridFits) →
      executeBounded files t i.args = execute files t i.args) := by
  constructor
  · intro hc hgrid
    have hstops : Stops files (run ⟨i.path?, i.assignments⟩ false) := ⟨c, h, hc, hgrid⟩
    rw [executeBounded_of_read? t i.read?_args, outcomeBounded_of_stops t hstops]
    rfl
  · intro hfits
    refine executeBounded_eq_execute t fun command hread => ?_
    cases i.read?_args.symm.trans hread
    rintro ⟨c', hresolve, hc, hgrid⟩
    cases h.symm.trans hresolve
    exact hgrid (hfits hc)

theorem RunsTo.eq {c : Config} {o o' : Outcome} (h : RunsTo c o) (h' : RunsTo c o') : o = o' := by
  cases hc : c.validate with
  | ok _ =>
    obtain ⟨s, hs, ho⟩ := h.valid hc
    obtain ⟨s', hs', ho'⟩ := h'.valid hc
    cases hs.symm.trans hs'
    exact ho.trans ho'.symm
  | error v => exact (h.invalid v hc).trans (h'.invalid v hc).symm

section Narrow

def narrowOption : Written :=
  .file ⟨.nameApart, "narrow.json", by decide, (rfl : isValue "narrow.json" = true)⟩

/-- The configuration is that of the file. -/
def narrowed : Invocation where
  front := []
  options := [narrowOption]
  front_verbose := by decide
  front_nodup := by decide
  options_nodup := by decide

end Narrow

end TileWorld.Command
