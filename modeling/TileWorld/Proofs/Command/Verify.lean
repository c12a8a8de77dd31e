import TileWorld.Proofs.Command.Transcript
import TileWorld.Proofs.Except
import TileWorld.Proofs.Json.Numeral

/-! What a comparison of runs prints, and that a run with the same options prints the same checksum,
as a line or within its summary. -/

namespace TileWorld.Command
open Config Printing

theorem readNat?_digits (n : Nat) : Decimal.readNat? (Decimal.digits n) = some n := by
  have hdigits : (!(Decimal.digits n).isEmpty && (Decimal.digits n).all Char.isDigit) = true := by
    rw [Bool.and_eq_true, List.all_eq_true, Bool.not_eq_true', List.isEmpty_eq_false_iff]
    exact ⟨Nat.toDigits_ne_nil, fun c hc => Json.isDigit_of_mem_digits hc⟩
  rw [Decimal.readNat?, if_pos hdigits, Decimal.digits, Nat.ofDigitChars_ten_toDigits]

theorem readRuns?_toString {n : Nat} (hn : n < UInt64.size) : readRuns? (toString n) = some n := by
  have hchars : (toString n).toList = Decimal.digits n := String.toList_ofList
  rw [readRuns?, hchars]
  split
  · next cs hplus =>
    have hmem : '+' ∈ Decimal.digits n := hplus ▸ List.mem_cons_self
    exact absurd (Json.isDigit_of_mem_digits hmem) (by decide)
  · rw [readNat?_digits, Option.bind_eq_bind, Option.bind_some, if_pos hn]
    rfl

namespace Invocation
variable (i : Invocation)

def overrides : Overrides := ⟨i.path?, i.assignments⟩

/-- The same options behind another subcommand and one more option. -/
def argsOf (subcommand extra : String) : List String :=
  i.front.flatMap Written.args ++ subcommand :: extra :: i.options.flatMap Written.args

def jsonArgs : List String := i.argsOf "run" "--json"

def verifyArgs (n : Nat) : List String := i.argsOf "verify" ("--runs=" ++ toString n)

theorem readAllOptions_extra {o : Opt} (ho : o = .json ∨ o = .runs) {v extra : String}
    (h : readOption? (.verbose :: o :: configOptions) extra = some (some ([⟨o, v⟩], none))) :
    readAllOptions (.verbose :: o :: configOptions) (extra :: i.options.flatMap Written.args) =
      some (⟨o, v⟩ :: i.options.map Written.given) := by
  have hfresh : o ∉ i.options.map (·.given.opt) := by
    intro hmem
    obtain ⟨w, -, hw⟩ := List.mem_map.1 hmem
    rcases ho with rfl | rfl <;> cases w <;> cases hw
  have hknown : .verbose :: configOptions ⊆ .verbose :: o :: configOptions :=
    ((List.sublist_cons_self _ _).cons_cons _).subset
  have hnodup : ((⟨o, v⟩ :: i.options.map Written.given).map Given.opt).Nodup := by
    rw [List.map_cons, List.map_map]
    exact List.nodup_cons.2 ⟨hfresh, i.options_nodup⟩
  rw [readAllOptions, readDistinct, readOptions_closed _ h, i.readOptions_options hknown]
  simp only [Option.map_some, Option.bind_eq_bind, Option.bind_some, if_pos hnodup]
  rfl

theorem read?_jsonArgs : read? i.jsonArgs = some (.run i.overrides true) := by
  have hjson : readOption? (.verbose :: .json :: configOptions) "--json" =
      some (some ([⟨.json, ""⟩], none)) := readOption?_end (o := .json) (by decide) rfl
  rw [read?, jsonArgs, argsOf, i.readDistinct_front readOption?_run, Option.bind_eq_bind,
    Option.bind_some]
  change readRun ("--json" :: i.options.flatMap Written.args) = _
  rw [readRun, i.readAllOptions_extra (.inl rfl) hjson, Option.bind_eq_bind, Option.bind_some]
  change (Overrides.read? (i.options.map Written.given)).bind _ = _
  rw [overrides_read?]
  rfl

theorem read?_verifyArgs {n : Nat} (hn : n < UInt64.size) :
    read? (i.verifyArgs n) = some (.verify i.overrides n) := by
  have hverify : readOption? [.verbose] "verify" = none := by
    have hletters : "verify".toList = ['v', 'e', 'r', 'i', 'f', 'y'] := rfl
    rw [readOption?, hletters]
    rfl
  have hruns : readOption? (.verbose :: .runs :: configOptions) ("--runs=" ++ toString n) =
      some (some ([⟨.runs, toString n⟩], none)) := by
    apply readOption?_value (o := .runs) (by decide) rfl
    rw [String.toList_append]
    rfl
  rw [read?, verifyArgs, argsOf, i.readDistinct_front hverify, Option.bind_eq_bind,
    Option.bind_some]
  change readVerify (("--runs=" ++ toString n) :: i.options.flatMap Written.args) = _
  rw [readVerify, i.readAllOptions_extra (.inr rfl) hruns, Option.bind_eq_bind, Option.bind_some]
  change (readRuns? (toString n)).bind (fun runs =>
    (Overrides.read? (i.options.map Written.given)).bind fun o =>
      some (Command.verify o runs)) = _
  rw [readRuns?_toString hn, overrides_read?]
  rfl

end Invocation

/-- What the commands come to for the same configuration `c`, whose runs end with the checksum that
`text` writes. -/
structure Agrees (files : String → FileContent) (o : Overrides) (c : Config) (text : String) :
    Prop where
  verify : ∀ t args n, read? args = some (.verify o n) → 1 ≤ n → n < 2 ^ 60 →
    executeBounded files t args = ⟨0, lines (heading c n ::
      ((List.range n).map fun i => s!"Run {i + 1}: {text}") ++ ["Match: OK"]), none⟩
  plain : ∀ t args, read? args = some (.run o false) →
    executeBounded files t args = ⟨0, lines [text], none⟩
  json : ∀ t args, read? args = some (.run o true) → ∃ members,
    executeBounded files t args = ⟨0, lines [(Json.Value.object members).pretty], none⟩ ∧
      members.lookup "checksum_text" = some (.text text)

theorem runLines_replicate (n : Nat) (x : Float) : runLines (List.replicate n x) =
    (List.range n).map fun i => s!"Run {i + 1}: {checksumText x}" := by
  apply List.ext_getElem
  · rw [runLines, List.length_mapIdx, List.length_replicate, List.length_map, List.length_range]
  · intro i _ _
    simp only [runLines, List.getElem_mapIdx, List.getElem_replicate, List.getElem_map,
      List.getElem_range]

section
variable {files : String → FileContent} {o : Overrides} {c : Config}

theorem executeBounded_of_result (t : Timing) {args : List String} {command : Command} {r : Result}
    (hread : read? args = some command) (hstops : ¬ Stops files command)
    (hresult : command.result files = .ok r) : executeBounded files t args = r.outcome t := by
  rw [executeBounded_of_read? t hread, outcomeBounded_of_not_stops t hstops, outcome, hresult]

theorem agrees_of_start {s : Simulation} (h : o.resolve files = .ok c) (hc : c.validate = .ok ())
    (hgrid : c.GridFits) (hs : Simulation.start c = .ok s) :
    Agrees files o c (checksumText s.run.checksum) := by
  have hstops (json : Bool) : ¬ Stops files (run o json) := by
    rintro ⟨c', h', -, hgrid'⟩
    cases h.symm.trans h'
    exact hgrid' hgrid
  have hrun (json : Bool) : (run o json).result files = .ok (.run s.run.summary json) := by
    rw [result_run json h, hs]
    rfl
  refine ⟨?_, ?_, ?_⟩
  · intro t args n hread hn hroom
    have hstops : ¬ Stops files (Command.verify o n) := by
      rintro ⟨-, c', h', -, hlong | hgrid'⟩
      · omega
      · cases h.symm.trans h'
        exact hgrid' hgrid
    have hverify : (Command.verify o n).result files =
        .ok (.verify c ⟨n, List.replicate n s.run.checksum, true⟩) := by
      rw [result_verify (by omega) h, Config.verify_eq hc hs]
      rfl
    rw [executeBounded_of_result t hread hstops hverify, ← runLines_replicate]
    rfl
  · intro t args hread
    exact executeBounded_of_result t hread (hstops false) (hrun false)
  · intro t args hread
    exact ⟨_, executeBounded_of_result t hread (hstops true) (hrun true), rfl⟩

end

theorem isDeterministic_of_verify {c : Config} {n : Nat} {r : DeterminismReport}
    (h : c.verify n = .ok r) : r.isDeterministic = true := by
  cases hc : c.validate with
  | error v =>
    rw [Config.verify, hc] at h
    cases h
  | ok _ =>
    rw [Config.verify_eq hc (Simulation.start_eq hc)] at h
    cases h
    rfl

/-- What has been worked out when a command comes to a result. -/
theorem result_cases {files : String → FileContent} {command : Command} {r : Result}
    (h : command.result files = .ok r) :
    r = .info ∨ (∃ s : Simulation, ∃ json, r = .run s.run.summary json) ∨
      ∃ c runs report, Config.verify c runs = .ok report ∧ r = .verify c report := by
  cases command with
  | info =>
    cases h
    exact Or.inl rfl
  | run o json =>
    rw [result] at h
    obtain ⟨c, -, h⟩ := bind_eq_ok_iff.1 h
    obtain ⟨s, -, h⟩ := bind_eq_ok_iff.1 h
    cases h
    exact Or.inr (Or.inl ⟨s, json, rfl⟩)
  | verify o runs =>
    by_cases hruns : runs = 0
    · subst hruns
      cases h
    rw [result, if_neg hruns] at h
    obtain ⟨c, -, h⟩ := bind_eq_ok_iff.1 h
    obtain ⟨report, hreport, h⟩ := bind_eq_ok_iff.1 h
    cases h
    exact Or.inr (Or.inr ⟨c, runs, report, mapError_eq_ok_iff.1 hreport, rfl⟩)

/-- Whatever is worked out beforehand is printed without a failure. -/
theorem exit_of_result {files : String → FileContent} {command : Command} {r : Result}
    (t : Timing) (h : command.result files = .ok r) : (r.outcome t).exit = 0 := by
  obtain rfl | ⟨s, json, rfl⟩ | ⟨c, runs, report, hreport, rfl⟩ := result_cases h
  · rfl
  · rfl
  · have hsame : (Result.verify c report).outcome t =
        ⟨0, lines (reportLines c report ++ ["Match: OK"]), none⟩ :=
      if_pos (isDeterministic_of_verify hreport)
    rw [hsame]

theorem executeBounded_eq (files : String → FileContent) (t : Timing) (args : List String) :
    executeBounded files t args = match read? args with
      | none => refused
      | some command => outcomeAfter [] (perform files t command) := by
  rw [executeBounded]
  cases read? args with
  | none => rfl
  | some command => exact (outcomeAfter_perform files t command).symm

/-- The command that the arguments name is a comparison that is stopped, so that its heading stands
alone. -/
def HeadingAlone (files : String → FileContent) (t : Timing) (args : List String) : Prop :=
  ∃ o n c, read? args = some (.verify o n) ∧ 1 ≤ n ∧ o.resolve files = .ok c ∧
    c.validate = .ok () ∧ (2 ^ 60 ≤ n ∨ ¬ c.GridFits) ∧
    executeBounded files t args = ⟨101, lines [heading c n], none⟩

theorem stdout_eq_empty {files : String → FileContent} {t : Timing} {args : List String}
    (h : (executeBounded files t args).exit ≠ 0) :
    (executeBounded files t args).stdout = "" ∨ HeadingAlone files t args := by
  cases hread : read? args with
  | none =>
    rw [executeBounded, hread]
    exact .inl rfl
  | some command =>
    have houtcome : executeBounded files t args = command.outcomeBounded files t :=
      executeBounded_of_read? t hread
    by_cases hstops : Stops files command
    · rw [outcomeBounded_of_stops t hstops, stopped] at houtcome
      cases command with
      | info => exact hstops.elim
      | run o json =>
        rw [houtcome]
        exact .inl rfl
      | verify o n =>
        obtain ⟨hn, c, hresolve, hc, hroom⟩ := hstops
        rw [announced, hresolve] at houtcome
        exact .inr ⟨o, n, c, hread, Nat.pos_of_ne_zero hn, hresolve, hc, hroom, houtcome⟩
    · rw [outcomeBounded_of_not_stops t hstops, outcome] at houtcome
      cases hresult : command.result files with
      | ok r =>
        rw [hresult] at houtcome
        rw [houtcome] at h
        exact absurd (exit_of_result t hresult) h
      | error f =>
        rw [hresult] at houtcome
        rw [houtcome]
        exact .inl rfl

/-- A comparison of runs prints the checksum that a run prints, once for each, and that they match,
were it a NaN, provided that the cells of the grid and the checksums can be stored. A command that
fails has printed nothing, because a comparison, which begins to print before its runs are made,
does not fail then. It can be stopped, and only then does its heading stand alone. -/
theorem verify_agrees_with_run :
    (∀ (files : String → FileContent) (o : Overrides) (c : Config), o.resolve files = .ok c →
      c.validate = .ok () → c.GridFits → ∃ s, (Simulation.start? c).run = some (.ok s) ∧
        Agrees files o c (checksumText s.run.checksum)) ∧
    (∀ (i : Invocation) (n : Nat), n < UInt64.size →
      read? i.args = some (.run i.overrides false) ∧
      read? i.jsonArgs = some (.run i.overrides true) ∧
      read? (i.verifyArgs n) = some (.verify i.overrides n)) ∧
    (∀ (c : Config) (n : Nat) (r : DeterminismReport), (c.verify? n).run = some (.ok r) →
      r.isDeterministic = true) ∧
    ∀ (files : String → FileContent) (t : Timing) (args : List String),
      (executeBounded files t args = match read? args with
        | none => refused
        | some command => outcomeAfter [] (perform files t command)) ∧
      ((executeBounded files t args).exit ≠ 0 →
        (executeBounded files t args).stdout = "" ∨ HeadingAlone files t args) := by
  refine ⟨?_, ?_, ?_, ?_⟩
  · intro files o c hresolve hc hgrid
    have hs := Simulation.start_eq hc
    refine ⟨_, ?_, agrees_of_start hresolve hc hgrid hs⟩
    rw [← hs]
    exact (stopsIf_start? c).goesOn fun hP => hP.2 hgrid
  · intro i n hn
    exact ⟨i.read?_args, i.read?_jsonArgs, i.read?_verifyArgs hn⟩
  · intro c n r h
    exact isDeterministic_of_verify ((stopsIf_verify? c n).run_eq_some_iff.1 h).1
  · exact fun files t args => ⟨executeBounded_eq files t args, stdout_eq_empty⟩

section Overflow

def soloText : String :=
  "\x7b\"frames\":1,\"initial_entities\":1,\"spawn_per_frame\":0,\"width\":1,\"height\":1," ++
    "\"seed\":3945590710\x7d"

def soloFiles (_ : String) : FileContent := .bytes soloText.toUTF8

theorem readFloat?_overlong : Decimal.readFloat? "1e308".toList = some 1e308 := by decide +kernel

/-- The one frame is so long that its products leave the range of floats. -/
def overlong : Invocation where
  front := [.verbose false]
  options :=
    [.flag ⟨.dt, "1e308", (1e308 : Float), readFloat?_overlong⟩,
      .file ⟨.name, "solo.json", by decide, trivial⟩]
  front_verbose := by decide
  front_nodup := by decide
  options_nodup := by decide

def overlongConfig : Config :=
  { frames := 1, initialEntities := 1, spawnPerFrame := 0, width := 1, height := 1,
    seed := 3945590710, dt := 1e308 }

theorem overlong_agrees :
    overlong.overrides.resolve soloFiles = .ok overlongConfig ∧
    overlongConfig.validate = .ok () ∧ overlongConfig.GridFits ∧
    Agrees soloFiles overlong.overrides overlongConfig "NaN" ∧
    read? (overlong.verifyArgs 3) = some (.verify overlong.overrides 3) ∧
    executeBounded soloFiles .unmeasured (overlong.verifyArgs 3) =
      ⟨0, "Determinism check: seed=3945590710, frames=1, runs=3\nRun 1: NaN\nRun 2: NaN\n" ++
        "Run 3: NaN\nMatch: OK\n", none⟩ ∧
    (∃ r, (overlongConfig.verify? 3).run = some (.ok r) ∧ r.isDeterministic = true) ∧
    (executeBounded soloFiles .unmeasured ["verify", "--runs=0"]).exit = 1 ∧
    (executeBounded soloFiles .unmeasured ["verify", "--runs=0"]).stdout = "" := by
  have hresolve : overlong.overrides.resolve soloFiles = .ok overlongConfig := by decide +kernel
  have hc : overlongConfig.validate = .ok () := by decide +kernel
  have hgrid : overlongConfig.GridFits := by decide
  obtain ⟨hagree, hread, hsame, hsilent⟩ := verify_agrees_with_run
  obtain ⟨s, hs, hagree⟩ := hagree soloFiles overlong.overrides overlongConfig hresolve hc hgrid
  have hs := ((stopsIf_start? overlongConfig).run_eq_some_iff.1 hs).1
  have htext : (Simulation.start overlongConfig).map (fun s => checksumText s.run.checksum) =
      .ok "NaN" := by decide +kernel
  rw [hs] at htext
  have htext : checksumText s.run.checksum = "NaN" := Except.ok.inj htext
  rw [htext] at hagree
  have hverify := (hread overlong 3 (by decide)).2.2
  have hreport : (overlongConfig.verify? 3).run =
      some (.ok ⟨3, List.replicate 3 s.run.checksum, true⟩) := by
    rw [← Config.verify_eq hc hs]
    exact (stopsIf_verify? overlongConfig 3).goesOn (by decide +kernel)
  have hexit : (executeBounded soloFiles .unmeasured ["verify", "--runs=0"]).exit = 1 := by
    decide +kernel
  have hsilent := (hsilent soloFiles .unmeasured ["verify", "--runs=0"]).2 (by rw [hexit]; decide)
  have hnothing : (executeBounded soloFiles .unmeasured ["verify", "--runs=0"]).stdout = "" := by
    rcases hsilent with hempty | ⟨_, _, _, _, _, _, _, _, houtcome⟩
    · exact hempty
    · rw [houtcome] at hexit
      cases hexit
  exact ⟨hresolve, hc, hgrid, hagree, hverify,
    hagree.verify .unmeasured _ 3 hverify (by decide) (by decide),
    ⟨_, hreport, hsame _ 3 _ hreport⟩, hexit, hnothing⟩

end Overflow

section Overrun

def noFiles (_ : String) : FileContent := .missing

theorem readCount?_zero : readCount? "0" = some 0 := by decide

def noFrames : Written := .flag ⟨.frames, "0", (0 : UInt32), readCount?_zero⟩

/-- No mark stands in front, as in `narrowed`. -/
def still : Invocation := { narrowed with
  options := [noFrames]
  options_nodup := by decide }

/-- The grid is as large as can be asked for. -/
def boundless : Invocation := { narrowed with
  options := [noFrames,
    .flag ⟨.width, "4294967295", (4294967295 : UInt32),
      (by decide : readCount? "4294967295" = some 4294967295)⟩,
    .flag ⟨.height, "4294967295", (4294967295 : UInt32),
      (by decide : readCount? "4294967295" = some 4294967295)⟩]
  options_nodup := by decide }

/-- The commands are in order, and yet they neither end well nor print nothing: there are too many
runs in the one and too many cells in the other. -/
theorem overrun_stops :
    (still.overrides.resolve noFiles = .ok { frames := 0 } ∧
      ({ frames := 0 } : Config).validate = .ok () ∧
      read? (still.verifyArgs (2 ^ 60)) = some (.verify still.overrides (2 ^ 60)) ∧
      executeBounded noFiles .unmeasured (still.verifyArgs (2 ^ 60)) =
        ⟨101, "Determinism check: seed=123456789, frames=0, runs=1152921504606846976\n", none⟩) ∧
    boundless.overrides.resolve noFiles = .ok vast ∧ vast.validate = .ok () ∧
      read? (boundless.verifyArgs 1) = some (.verify boundless.overrides 1) ∧
      executeBounded noFiles .unmeasured (boundless.verifyArgs 1) =
        ⟨101, "Determinism check: seed=123456789, frames=0, runs=1\n", none⟩ := by
  have hruns := still.read?_verifyArgs (n := 2 ^ 60) (by decide)
  have hrunsStop : Stops noFiles (.verify still.overrides (2 ^ 60)) :=
    ⟨by decide, { frames := 0 }, rfl, rfl, .inl (Nat.le_refl _)⟩
  have hcells := boundless.read?_verifyArgs (n := 1) (by decide)
  have hcellsStop : Stops noFiles (.verify boundless.overrides 1) :=
    ⟨by decide, vast, rfl, rfl, .inr (by decide)⟩
  refine ⟨⟨rfl, rfl, hruns, ?_⟩, rfl, rfl, hcells, ?_⟩
  · rw [executeBounded_of_read? .unmeasured hruns,
      outcomeBounded_of_stops .unmeasured hrunsStop]
    decide +kernel
  · rw [executeBounded_of_read? .unmeasured hcells,
      outcomeBounded_of_stops .unmeasured hcellsStop]
    decide +kernel

end Overrun

end TileWorld.Command
