import Mathlib.Data.List.Nodup
import Mathlib.Data.List.TakeWhile
import TileWorld.Command.Arguments

/-! Arguments as they may be written for a run, and what is read of them: the same options with the
same values, in every order. A run may be given the values of fields and the path of a file. -/

namespace TileWorld.Command

namespace Opt

def all : List Opt := [verbose, json, config, runs] ++ Config.Field.all.map field

theorem mem_all (o : Opt) : o ∈ all := by
  cases o with
  | field f => exact List.mem_append_right _ (List.mem_map_of_mem f.mem_all)
  | _ => simp [all]

/-- The names can be told apart, and where each of them ends. -/
theorem names : (all.map name).Nodup ∧ ∀ o ∈ all, o.name.toList ≠ [] ∧ '=' ∉ o.name.toList := by
  decide +kernel

theorem name_injective {o o' : Opt} (h : o.name = o'.name) : o = o' :=
  List.inj_on_of_nodup_map names.1 (mem_all o) (mem_all o') h

theorem name_ne_empty (o : Opt) : o.name.toList ≠ [] := (names.2 o (mem_all o)).1

theorem equals_not_mem_name (o : Opt) : '=' ∉ o.name.toList := (names.2 o (mem_all o)).2

theorem letter_injective {o o' : Opt} {c : Char} (h : o.letter? = some c)
    (h' : o'.letter? = some c) : o = o' := by
  cases o <;> cases o' <;> grind [letter?]

end Opt

/-- What is read behind the letter of an option that takes a value. -/
def behindLetter (o : Opt) : List Char → Option (List Given × Option Opt)
  | [] => some ([], some o)
  | '=' :: v => some ([⟨o, String.ofList v⟩], none)
  | v => some ([⟨o, String.ofList v⟩], none)

theorem behindLetter_of_head?_ne {o : Opt} {v : List Char} (hv : v ≠ []) (h : v.head? ≠ some '=') :
    behindLetter o v = some ([⟨o, String.ofList v⟩], none) := by
  unfold behindLetter
  split
  · exact absurd rfl hv
  · exact absurd rfl h
  · rfl

section
variable {known : List Opt} {o : Opt} (ho : o ∈ known)
include ho

theorem find?_name : known.find? (·.name == o.name) = some o := by
  cases hfind : known.find? (·.name == o.name) with
  | none => exact absurd (beq_self_eq_true _) (List.find?_eq_none.1 hfind o ho)
  | some o' =>
    have hname := List.find?_some hfind
    rw [Opt.name_injective (beq_iff_eq.1 hname)]

theorem find?_letter {c : Char} (hc : o.letter? = some c) :
    known.find? (·.letter? = some c) = some o := by
  cases hfind : known.find? (·.letter? = some c) with
  | none => exact absurd (decide_eq_true hc) (List.find?_eq_none.1 hfind o ho)
  | some o' =>
    have hletter := List.find?_some hfind
    rw [Opt.letter_injective (of_decide_eq_true hletter) hc]

theorem readName_value (hvalue : o.takesValue = true) (v : List Char) :
    readName known (o.name.toList ++ '=' :: v) = some ([⟨o, String.ofList v⟩], none) := by
  have hname : ∀ c ∈ o.name.toList, decide (c ≠ '=') = true :=
    fun c hc => decide_eq_true (ne_of_mem_of_not_mem hc o.equals_not_mem_name)
  have htake : (o.name.toList ++ '=' :: v).takeWhile (· ≠ '=') = o.name.toList := by
    rw [List.takeWhile_append_of_pos hname, List.takeWhile_cons_of_neg (by decide), List.append_nil]
  have hdrop : (o.name.toList ++ '=' :: v).dropWhile (· ≠ '=') = '=' :: v := by
    rw [List.dropWhile_append_of_pos hname, List.dropWhile_cons_of_neg (by decide)]
  rw [readName, htake, hdrop, String.ofList_toList, find?_name ho, Option.bind_eq_bind,
    Option.bind_some, hvalue]
  rfl

theorem readName_end : readName known o.name.toList =
    some (if o.takesValue then ([], some o) else ([⟨o, ""⟩], none)) := by
  have hname : ∀ c ∈ o.name.toList, decide (c ≠ '=') = true :=
    fun c hc => decide_eq_true (ne_of_mem_of_not_mem hc o.equals_not_mem_name)
  have htake : o.name.toList.takeWhile (· ≠ '=') = o.name.toList :=
    List.takeWhile_eq_self_iff.2 hname
  have hdrop : o.name.toList.dropWhile (· ≠ '=') = [] := List.dropWhile_eq_nil_iff.2 hname
  rw [readName, htake, hdrop, String.ofList_toList, find?_name ho, Option.bind_eq_bind,
    Option.bind_some]
  cases o.takesValue <;> rfl

theorem readLetters_value {c : Char} (hc : o.letter? = some c) (hvalue : o.takesValue = true)
    (cs : List Char) : readLetters known (c :: cs) = behindLetter o cs := by
  rw [readLetters, find?_letter ho hc, Option.bind_eq_bind, Option.bind_some, if_pos hvalue]
  rfl

theorem readLetters_end {c : Char} (hc : o.letter? = some c) (hvalue : o.takesValue = false) :
    readLetters known [c] = some ([⟨o, ""⟩], none) := by
  rw [readLetters, find?_letter ho hc, Option.bind_eq_bind, Option.bind_some, hvalue]
  rfl

end

section
variable {known : List Opt} {arg : String}

theorem readOption?_name {c : Char} {cs : List Char} (h : arg.toList = '-' :: '-' :: c :: cs) :
    readOption? known arg = some (readName known (c :: cs)) := by
  rw [readOption?, h]
  rfl

theorem readOption?_letter {c : Char} {cs : List Char} (h : arg.toList = '-' :: c :: cs)
    (hc : c ≠ '-') : readOption? known arg = some (readLetters known (c :: cs)) := by
  rw [readOption?, h]
  split <;> simp_all

theorem readOptions_closed {given : Given} (args : List String)
    (h : readOption? known arg = some (some ([given], none))) :
    readOptions known (arg :: args) =
      (readOptions known args).map fun r => (given :: r.1, r.2) := by
  rw [readOptions, h]
  cases readOptions known args <;> rfl

theorem readOptions_open {o : Opt} {v : String} (args : List String)
    (h : readOption? known arg = some (some ([], some o))) (hv : isValue v = true) :
    readOptions known (arg :: v :: args) =
      (readOptions known args).map fun r => (⟨o, v⟩ :: r.1, r.2) := by
  rw [readOptions, h]
  simp only [Option.bind_eq_bind, Option.bind_some, hv, if_true]
  cases readOptions known args <;> rfl

end

/-- A field's option, with the value that its text stands for. -/
structure Flag where
  field : Config.Field
  text : String
  value : field.Value
  readable : readValue? field.kind text = some value

def Flag.arg (f : Flag) : String := "--" ++ (Opt.field f.field).name ++ "=" ++ f.text

/-- How the option with the path of a file may be written. -/
inductive Spelling where
  | name
  | nameApart
  | letter
  | letterEquals
  | letterApart

namespace Spelling

def args (path : String) : Spelling → List String
  | name => ["--config=" ++ path]
  | nameApart => ["--config", path]
  | letter => ["-c" ++ path]
  | letterEquals => ["-c=" ++ path]
  | letterApart => ["-c", path]

/-- Whether a path can be told from what else might stand in its place. -/
def Allows (path : String) : Spelling → Prop
  | name | letterEquals => True
  | nameApart | letterApart => isValue path = true
  | letter => path.toList.head? ≠ some '='

end Spelling

structure FileOption where
  spelling : Spelling
  path : String
  nonempty : path ≠ ""
  allowed : spelling.Allows path

inductive Written where
  | verbose (long : Bool)
  | file (f : FileOption)
  | flag (f : Flag)

namespace Written

def given : Written → Given
  | verbose _ => ⟨.verbose, ""⟩
  | file f => ⟨.config, f.path⟩
  | flag f => ⟨.field f.field, f.text⟩

def args : Written → List String
  | verbose long => [if long then "--verbose" else "-v"]
  | file f => f.spelling.args f.path
  | flag f => [f.arg]

def path? : Written → Option String
  | file f => some f.path
  | verbose _ | flag _ => none

def assignment? : Written → Option Config.Assignment
  | flag f => some ⟨f.field, f.value⟩
  | verbose _ | file _ => none

end Written

section
variable {known : List Opt} {arg : String}

theorem readOption?_value {o : Opt} (ho : o ∈ known) (hvalue : o.takesValue = true) {v : String}
    (h : arg.toList = '-' :: '-' :: (o.name.toList ++ '=' :: v.toList)) :
    readOption? known arg = some (some ([⟨o, v⟩], none)) := by
  obtain ⟨c, cs, hname⟩ := List.exists_cons_of_ne_nil o.name_ne_empty
  have hread := readName_value ho hvalue v.toList
  rw [hname, List.cons_append] at h hread
  rw [readOption?_name h, hread, String.ofList_toList]

theorem readOption?_end {o : Opt} (ho : o ∈ known) (h : arg.toList = '-' :: '-' :: o.name.toList) :
    readOption? known arg =
      some (some (if o.takesValue then ([], some o) else ([⟨o, ""⟩], none))) := by
  obtain ⟨c, cs, hname⟩ := List.exists_cons_of_ne_nil o.name_ne_empty
  have hread := readName_end ho
  rw [hname] at h hread
  rw [readOption?_name h, hread]

theorem readOption?_verbose (h : .verbose ∈ known) (long : Bool) :
    readOption? known (if long then "--verbose" else "-v") =
      some (some ([⟨.verbose, ""⟩], none)) := by
  cases long with
  | true => exact readOption?_end h rfl
  | false =>
    have hletter : "-v".toList = ['-', 'v'] := rfl
    exact (readOption?_letter hletter (by decide)).trans (congrArg some (readLetters_end h rfl rfl))

theorem readOption?_flag (f : Flag) (h : .field f.field ∈ known) :
    readOption? known f.arg = some (some ([⟨.field f.field, f.text⟩], none)) := by
  apply readOption?_value h rfl
  simp [Flag.arg]

/-- What is read of the option with a path, whichever way it is written. -/
theorem readOptions_file (f : FileOption) (h : .config ∈ known) (args : List String) :
    readOptions known (f.spelling.args f.path ++ args) =
      (readOptions known args).map fun r => (⟨.config, f.path⟩ :: r.1, r.2) := by
  obtain ⟨spelling, path, hpath, hallowed⟩ := f
  have hletter : "-c".toList = ['-', 'c'] := rfl
  have hread := readLetters_value h (c := 'c') rfl rfl
  cases spelling with
  | name =>
    have hname : "--config=".toList = '-' :: '-' :: (Opt.config.name.toList ++ ['=']) := rfl
    refine readOptions_closed args (readOption?_value h rfl ?_)
    rw [String.toList_append, hname]
    simp
  | nameApart => exact readOptions_open args (readOption?_end h rfl) hallowed
  | letter =>
    have harg : ("-c" ++ path).toList = '-' :: 'c' :: path.toList := by
      rw [String.toList_append, hletter]
      rfl
    have hchars : path.toList ≠ [] := by simpa using hpath
    refine readOptions_closed args ((readOption?_letter harg (by decide)).trans ?_)
    rw [hread, behindLetter_of_head?_ne hchars hallowed, String.ofList_toList]
  | letterEquals =>
    have hequals : "-c=".toList = ['-', 'c', '='] := rfl
    have harg : ("-c=" ++ path).toList = '-' :: 'c' :: '=' :: path.toList := by
      rw [String.toList_append, hequals]
      rfl
    refine readOptions_closed args ((readOption?_letter harg (by decide)).trans ?_)
    rw [hread, behindLetter, String.ofList_toList]
  | letterApart =>
    exact readOptions_open args
      ((readOption?_letter hletter (by decide)).trans (congrArg some (hread []))) hallowed

theorem readOptions_written (w : Written) (h : w.given.opt ∈ known) (args : List String) :
    readOptions known (w.args ++ args) =
      (readOptions known args).map fun r => (w.given :: r.1, r.2) := by
  cases w with
  | verbose long => exact readOptions_closed args (readOption?_verbose h long)
  | file f => exact readOptions_file f h args
  | flag f => exact readOptions_closed args (readOption?_flag f h)

theorem readOptions_flatMap {ws : List Written} (h : ∀ w ∈ ws, w.given.opt ∈ known)
    {rest : List String} (hrest : readOptions known rest = some ([], rest)) :
    readOptions known (ws.flatMap Written.args ++ rest) = some (ws.map Written.given, rest) := by
  induction ws with
  | nil => exact hrest
  | cons w ws ih =>
    obtain ⟨hw, hws⟩ := List.forall_mem_cons.1 h
    rw [List.flatMap_cons, List.append_assoc, readOptions_written w hw, ih hws]
    rfl

theorem readDistinct_flatMap {ws : List Written} (h : ∀ w ∈ ws, w.given.opt ∈ known)
    (hnodup : (ws.map (·.given.opt)).Nodup) {rest : List String}
    (hrest : readOptions known rest = some ([], rest)) :
    readDistinct known (ws.flatMap Written.args ++ rest) = some (ws.map Written.given, rest) := by
  have hnodup' : ((ws.map Written.given).map Given.opt).Nodup := by rwa [List.map_map]
  rw [readDistinct, readOptions_flatMap h hrest, Option.bind_eq_bind, Option.bind_some]
  exact if_pos hnodup'

end

/-- What is read of the options is the path of the file and the assignments in their order. -/
theorem overrides_read? (ws : List Written) : Overrides.read? (ws.map Written.given) =
    some ⟨ws.findSome? Written.path?, ws.filterMap Written.assignment?⟩ := by
  induction ws with
  | nil => rfl
  | cons w ws ih =>
    cases w with
    | verbose long => exact ih
    | file f =>
      have hpath : readPath? f.path = some f.path := if_neg (by simpa using f.nonempty)
      change (readPath? f.path).bind (fun path => (Overrides.read? (ws.map Written.given)).bind
        fun o => some { o with path := some path }) = _
      rw [hpath, ih]
      rfl
    | flag f =>
      change (readValue? f.field.kind f.text).bind (fun value =>
        (Overrides.read? (ws.map Written.given)).bind fun o =>
          some { o with assignments := ⟨f.field, value⟩ :: o.assignments }) = _
      rw [f.readable, ih]
      rfl

/-- The arguments of a run that gives no more than its checksum, as they may be written. -/
structure Invocation where
  front : List Written
  options : List Written
  front_verbose : ∀ w ∈ front, w.given.opt = .verbose
  front_nodup : (front.map (·.given.opt)).Nodup
  options_nodup : (options.map (·.given.opt)).Nodup

namespace Invocation
variable (i : Invocation)

def args : List String :=
  i.front.flatMap Written.args ++ "run" :: i.options.flatMap Written.args

def path? : Option String := i.options.findSome? Written.path?

def assignments : List Config.Assignment := i.options.filterMap Written.assignment?

/-- The marks in front of a subcommand are read apart from what stands behind it. -/
theorem readDistinct_front {subcommand : String} (h : readOption? [.verbose] subcommand = none)
    (rest : List String) :
    readDistinct [.verbose] (i.front.flatMap Written.args ++ subcommand :: rest) =
      some (i.front.map Written.given, subcommand :: rest) := by
  apply readDistinct_flatMap _ i.front_nodup
  · rw [readOptions, h]
    rfl
  · intro w hw
    rw [i.front_verbose w hw]
    exact List.mem_cons_self

theorem readOption?_run : readOption? [.verbose] "run" = none := by
  have hletters : "run".toList = ['r', 'u', 'n'] := rfl
  rw [readOption?, hletters]
  rfl

theorem opt_mem_known (w : Written) : w.given.opt ∈ .verbose :: configOptions := by
  cases w with
  | verbose long => exact List.mem_cons_self
  | file f => exact List.mem_cons_of_mem _ List.mem_cons_self
  | flag f =>
    exact List.mem_cons_of_mem _ (List.mem_cons_of_mem _ (List.mem_map_of_mem f.field.mem_all))

theorem readOptions_options {known : List Opt} (h : .verbose :: configOptions ⊆ known) :
    readOptions known (i.options.flatMap Written.args) = some (i.options.map Written.given, []) := by
  have hoptions : ∀ w ∈ i.options, w.given.opt ∈ known := fun w _ => h (opt_mem_known w)
  have hend : readOptions known [] = some ([], []) := rfl
  have hread := readOptions_flatMap hoptions hend
  rwa [List.append_nil] at hread

theorem readAllOptions_options :
    readAllOptions (.verbose :: .json :: configOptions) (i.options.flatMap Written.args) =
      some (i.options.map Written.given) := by
  have hnodup : ((i.options.map Written.given).map Given.opt).Nodup := by
    rw [List.map_map]
    exact i.options_nodup
  have hknown : .verbose :: configOptions ⊆ .verbose :: .json :: configOptions :=
    ((List.sublist_cons_self _ _).cons_cons _).subset
  rw [readAllOptions, readDistinct, i.readOptions_options hknown]
  simp only [Option.bind_eq_bind, Option.bind_some, if_pos hnodup]
  rfl

theorem find?_json : find? (i.options.map Written.given) .json = none := by
  rw [find?, Option.map_eq_none_iff, List.find?_eq_none]
  intro given hgiven
  obtain ⟨w, -, rfl⟩ := List.mem_map.1 hgiven
  rw [decide_eq_true_eq]
  cases w <;> exact nofun

theorem read?_args : read? i.args = some (.run ⟨i.path?, i.assignments⟩ false) := by
  rw [read?, args, i.readDistinct_front readOption?_run, Option.bind_eq_bind, Option.bind_some]
  change readRun (i.options.flatMap Written.args) = _
  rw [readRun, readAllOptions_options, Option.bind_eq_bind, Option.bind_some, overrides_read?,
    find?_json]
  rfl

end Invocation

end TileWorld.Command
