import TileWorld.Decimal.Reading
import TileWorld.Proofs.Config.Member
import TileWorld.Proofs.Json.Accuracy

/-! Configuration documents as they may be written, with their members in any order. The first member
that is at fault decides what becomes of a document, whatever is written behind it. -/

namespace TileWorld.Config
open Json

/-- The beginning of a document, with members for different fields. -/
structure Draft where
  before : Blanks
  lead : Blanks
  members : List Member
  distinct : (members.map Member.field).Nodup

namespace Draft
variable (d : Draft)

def fields : List Field := d.members.map Member.field

def assignments : List Assignment := d.members.map Member.assignment

/-- The document that ends here. -/
def closed (after : Blanks) : String :=
  String.ofList (d.before.chars ++ '\x7b' :: (d.lead.chars ++
    (List.intercalate [','] (d.members.map Member.chars) ++ '\x7d' :: after.chars)))

/-- The document that goes on with `cs` where another member should stand. -/
def extended (cs : List Char) : String :=
  String.ofList (d.before.chars ++ '\x7b' :: (d.lead.chars ++
    List.intercalate [','] (d.members.map Member.chars ++ [cs])))

theorem map_field_assignments : d.assignments.map Assignment.field = d.fields := List.map_map

theorem distinct_assignments : (d.assignments.map Assignment.field).Nodup := by
  rw [d.map_field_assignments]
  exact d.distinct

/-- Behind the good members, there is still a member to be read. -/
theorem readMembers_members (more : List (List Char)) {rest : List Char}
    (hrest : EndsNumber (separated false more ++ rest)) :
    ∃ n, readMembers readMember []
        (d.lead.chars ++ (List.intercalate [','] (d.members.map Member.chars ++ more) ++ rest)) =
      readMembersUpTo readMember (n + 1) d.members.isEmpty d.assignments
        (separated d.members.isEmpty more ++ rest) := by
  have hnonempty : ∀ p ∈ d.members.map Member.chars, p ≠ [] := by
    simp [Member.chars, Key.chars]
  have hlength := length_le_separated hnonempty true more
  rw [List.length_map] at hlength
  rw [readMembers, readMembersUpTo_blanks, ← separated_true]
  simp only [List.length_append]
  obtain ⟨n, hn⟩ := Nat.exists_eq_add_of_le hlength
  refine ⟨d.lead.chars.length + n + rest.length, ?_⟩
  have hfuel : d.lead.chars.length + ((separated true (d.members.map Member.chars ++ more)).length +
      rest.length) + 1 = d.members.length + (d.lead.chars.length + n + rest.length + 1) := by
    omega
  rw [hfuel, readMembersUpTo_members ⟨d.distinct, fun _ h => absurd h List.not_mem_nil⟩ _ true
    more hrest]
  rfl

theorem readAssignments_object (cs : List Char) :
    readAssignments (d.before.chars ++ '\x7b' :: cs) = readMembers readMember [] cs := by
  rw [readAssignments, readRecord, skipBlank_blanks, skipBlank_cons (by decide)]
  rfl

theorem ofJson_closed (after : Blanks) :
    ofJson (d.closed after) = .ok (({} : Config).overlay d.assignments) := by
  have hend : EndsNumber (separated false [] ++ '\x7d' :: after.chars) :=
    endsNumber_cons _ (by decide)
  have hblank : skipBlank after.chars = [] := by
    have hskip := skipBlank_append after.blank []
    rwa [List.append_nil] at hskip
  obtain ⟨n, hmembers⟩ := d.readMembers_members [] hend
  have hclose : nextKey? d.members.isEmpty (separated d.members.isEmpty [] ++ '\x7d' :: after.chars) =
      .ok (none, after.chars) := nextKey?_close none after.chars d.members.isEmpty
  rw [List.append_nil, readMembersUpTo, hclose] at hmembers
  have hread : readDocument readAssignments (d.closed after) = .ok d.assignments := by
    rw [readDocument, closed, String.toList_ofList, readAssignments_object, hmembers]
    change (if (skipBlank after.chars).isEmpty then _ else _) = _
    rw [hblank]
    rfl
  rw [ofJson, hread]
  rfl

theorem ofJson_extended {k : Key} {cs : List Char} {e : Error}
    (h : readMember d.assignments k.text cs = .error e) :
    ofJson (d.extended (k.chars ++ cs)) = .error e := by
  have hend := endsNumber_separated (k.chars ++ cs) [] []
  obtain ⟨n, hmembers⟩ := d.readMembers_members [k.chars ++ cs] hend
  have hkey : separated d.members.isEmpty [k.chars ++ cs] ++ [] =
      (if d.members.isEmpty then k.chars else ',' :: k.chars) ++ cs := by
    cases d.members.isEmpty <;> simp [separated]
  rw [List.append_nil, hkey, readMembersUpTo, nextKey?_key] at hmembers
  simp only [bind, Except.bind, h] at hmembers
  rw [ofJson, readDocument, extended, String.toList_ofList, readAssignments_object, hmembers]
  rfl

theorem readMember_unknown {key : String} (h : ∀ f : Field, key ≠ f.name) (done : List Assignment)
    (cs : List Char) : readMember done key cs =
      .error (.mismatched (.unknownField key (Field.all.map Field.name))) := by
  have hname : Field.ofName? key = none := by
    rw [Field.ofName?, List.find?_eq_none]
    intro f _ heq
    exact h f (beq_iff_eq.1 heq).symm
  rw [readMember, hname]

theorem readMember_duplicate {f : Field} (h : f ∈ d.fields) (cs : List Char) :
    readMember d.assignments f.name cs = .error (.mismatched (.duplicateField f.name)) := by
  rw [← d.map_field_assignments] at h
  obtain ⟨a, ha, rfl⟩ := List.mem_map.1 h
  have hdone : d.assignments.any (·.field = a.field) = true :=
    List.any_eq_true.2 ⟨a, ha, decide_eq_true rfl⟩
  rw [readMember, Field.ofName?_name]
  exact if_pos hdone

theorem readMember_unreadable {f : Field} (hf : f ∉ d.fields) {e : Entry}
    (h : f.kind.valueOf? e.literal = none) {rest : List Char} (hrest : EndsNumber rest) :
    readMember d.assignments f.name (e.chars ++ rest) = .error (f.kind.fault e.literal) := by
  have hnew : d.assignments.any (·.field = f) = false := by
    rw [List.any_eq_false]
    rintro a ha hfield
    rw [← of_decide_eq_true hfield, ← d.map_field_assignments] at hf
    exact hf (List.mem_map_of_mem ha)
  rw [readMember_entry hnew e hrest, h]

theorem overlay_eq_of_same {d d' : Draft} (h : ∀ a, a ∈ d.assignments ↔ a ∈ d'.assignments) :
    ({} : Config).overlay d.assignments = ({} : Config).overlay d'.assignments := by
  have hnone : (([] : List Assignment).map Assignment.field).Nodup := List.nodup_nil
  have hlayered := layered_overlay hnone d.distinct_assignments
  have hlayered' := layered_overlay d'.distinct_assignments hnone
  exact hlayered.eq_of_same hlayered' fun a => (h a).symm

/-- What becomes of a document that begins in this way. -/
structure Read : Prop where
  closed : ∀ after, ∃ c, ofJson (d.closed after) = .ok c ∧
    (∀ m ∈ d.members, c.get m.field = m.value) ∧ ∀ f, f ∉ d.fields → c.get f = ({} : Config).get f
  order : ∀ (d' : Draft) (after after' : Blanks), (∀ a, a ∈ d.assignments ↔ a ∈ d'.assignments) →
    ofJson (d.closed after) = ofJson (d'.closed after')
  empty : d.members = [] → ∀ after, ofJson (d.closed after) = .ok {}
  unknown : ∀ (k : Key) (cs : List Char), (∀ f : Field, k.text ≠ f.name) →
    ofJson (d.extended (k.chars ++ cs)) =
      .error (.mismatched (.unknownField k.text (Field.all.map Field.name)))
  duplicate : ∀ (k : Key) (f : Field) (cs : List Char), k.text = f.name → f ∈ d.fields →
    ofJson (d.extended (k.chars ++ cs)) = .error (.mismatched (.duplicateField f.name))
  unreadable : ∀ (k : Key) (f : Field) (e : Entry) (cs : List Char), k.text = f.name →
    f ∉ d.fields → f.kind.valueOf? e.literal = none → EndsNumber cs →
      ofJson (d.extended (k.chars ++ (e.chars ++ cs))) = .error (f.kind.fault e.literal)

theorem read : d.Read where
  closed after := by
    refine ⟨_, d.ofJson_closed after, ?_, ?_⟩
    · intro m hm
      exact get_overlay_of_mem d.distinct_assignments
        (List.mem_map_of_mem (f := Member.assignment) hm)
    · intro f hf
      rw [← d.map_field_assignments] at hf
      exact get_overlay_of_not_mem hf
  order d' after after' h := by
    rw [d.ofJson_closed, d'.ofJson_closed, overlay_eq_of_same h]
  empty h after := by
    rw [d.ofJson_closed, assignments, h]
    rfl
  unknown k cs h := d.ofJson_extended (readMember_unknown h d.assignments cs)
  duplicate k f cs hname hf := by
    apply d.ofJson_extended
    rw [hname]
    exact d.readMember_duplicate hf cs
  unreadable k f e cs hname hf hvalue hcs := by
    apply d.ofJson_extended
    rw [hname]
    exact d.readMember_unreadable hf hvalue hcs

end Draft

/-- Which numbers give a value, and which one. -/
structure Numbers (l : Literal) : Prop where
  count : l.count? = if l.negative = false ∧ l.fraction = [] ∧ l.exponent = none ∧
      l.numeral.wholePart < UInt32.size then some l.numeral.wholePart.toUInt32 else none
  real : l.size ≤ (2 ^ 53 - 7 / 2) * 2 ^ (971 : ℤ) → ∃ x, l.real? = some x
  near : 10 ^ (-307 : ℤ) ≤ l.size → l.size ≤ (2 ^ 53 - 7 / 2) * 2 ^ (971 : ℤ) →
    ∃ x q, l.real? = some x ∧ Binary.value? x = some (if l.negative then -q else q) ∧
      Binary.Near 6 q l.size
  exact : l.numeral.significand < 2 ^ 64 →
    ReadsExactly ⟨l.numeral.significand, l.numeral.lastExponent⟩ →
      ∃ x, l.real? = some x ∧ Binary.value? x = some (Binary.nearest l.value)

theorem numbers (l : Literal) : Numbers l where
  count := rfl
  real := l.exists_real?
  near := l.near_real?
  exact := l.value?_real?

/-- A document gives the fields that it names their values and leaves the others as they are by
default, in whatever order it names them. With a key that is unknown or comes again, or a number
that gives no value, it is refused. A float comes within six roundings of its number, and is the one
nearest to it if there are few digits; only next to the end of the range of floats there may be none. -/
theorem ofJson_overlays (d : Draft) (l : Literal) : d.Read ∧ Numbers l := ⟨d.read, numbers l⟩

section Example

def noBlanks : Blanks := ⟨[], nofun⟩

def lineBreak : Blanks := ⟨['\r', '\n', '\t', ' '], List.all_eq_true.1 rfl⟩

theorem Field.plain_name (f : Field) : ∀ c ∈ f.name.toList, Plain c := by
  have hplain : f.name.toList.all (fun c => decide (Plain c)) = true := by cases f <;> rfl
  exact fun c hc => of_decide_eq_true (List.all_eq_true.1 hplain c hc)

/-- The name of a field as it stands. -/
def Field.key (f : Field) : Key := ⟨noBlanks, f.name.toList.pmap .plain f.plain_name⟩

theorem Field.text_key (f : Field) : f.key.text = f.name := Piece.text_plain _

/-- The number `25E-2`. -/
def quarter : Literal where
  negative := false
  whole := ['2', '5']
  fraction := []
  exponent := some ⟨true, some true, ['2'], by decide, List.all_eq_true.1 rfl⟩
  proper := ⟨List.all_eq_true.1 rfl, List.all_eq_true.1 rfl, by decide, by decide⟩

def seven : Literal where
  negative := false
  whole := ['7']
  fraction := []
  exponent := none
  proper := ⟨List.all_eq_true.1 rfl, List.all_eq_true.1 rfl, by decide, by decide⟩

def quarterDt : Member where
  key := ⟨lineBreak, [.unit '0' '0' '6' '4' 0x64 (by decide) (by decide) (by decide),
    .plain 't' (by decide)]⟩
  field := .dt
  named := by decide +kernel
  entry := ⟨noBlanks, lineBreak, quarter⟩
  value := (0.25 : Float)
  readable := (by decide +kernel : quarter.real? = some 0.25)
  trail := noBlanks

def sevenSeed : Member where
  key := Field.seed.key
  field := .seed
  named := Field.seed.text_key
  entry := ⟨lineBreak, noBlanks, seven⟩
  value := (7 : UInt32)
  readable := (by decide : seven.count? = some 7)
  trail := lineBreak

def slow : Draft := ⟨lineBreak, noBlanks, [quarterDt, sevenSeed], by decide⟩

def slowSwapped : Draft := ⟨noBlanks, lineBreak, [sevenSeed, quarterDt], by decide⟩

/-- The number `-5`, which is no count. -/
def minusFive : Literal where
  negative := true
  whole := ['5']
  fraction := []
  exponent := none
  proper := ⟨List.all_eq_true.1 rfl, List.all_eq_true.1 rfl, by decide, by decide⟩

def speedKey : Key := ⟨noBlanks, "speed".toList.pmap .plain (fun c hc =>
  of_decide_eq_true (List.all_eq_true.1 (rfl : "speed".toList.all (fun c => decide (Plain c)) = true)
    c hc))⟩

theorem slow_overlays :
    slow.closed noBlanks = "\r\n\t \x7b\r\n\t \"\\u0064t\":\r\n\t 25E-2,\"seed\"\r\n\t :7\r\n\t \x7d" ∧
    ofJson (slow.closed noBlanks) = .ok { dt := 0.25, seed := 7 } ∧
    ofJson (slowSwapped.closed lineBreak) = .ok { dt := 0.25, seed := 7 } ∧
    ofJson (slow.extended (speedKey.chars ++ [':'])) =
      .error (.mismatched (.unknownField "speed" (Field.all.map Field.name))) ∧
    ofJson (slow.extended (Field.seed.key.chars ++ [':', '8', '\x7d'])) =
      .error (.mismatched (.duplicateField "seed")) ∧
    ofJson (slow.extended (Field.width.key.chars ++
      ((⟨noBlanks, noBlanks, minusFive⟩ : Entry).chars ++ ['\x7d']))) =
      .error (.mismatched (.invalidValue (.integer (-5)) "u32")) ∧
    (∃ x, minusFive.real? = some x) ∧
    (∃ x q, minusFive.real? = some x ∧ Binary.value? x = some (-q) ∧
      Binary.Near 6 q minusFive.size) ∧
    (∃ x, quarter.real? = some x ∧ Binary.value? x = some (Binary.nearest quarter.value)) := by
  obtain ⟨hread, hnegative⟩ := ofJson_overlays slow minusFive
  have hquarter := (ofJson_overlays slow quarter).2
  have hclosed : ofJson (slow.closed noBlanks) = .ok { dt := 0.25, seed := 7 } := by
    obtain ⟨c, hc, hvalues, hdefaults⟩ := hread.closed noBlanks
    rw [hc]
    refine congrArg Except.ok (ext_get fun f => ?_)
    cases f with
    | dt => exact hvalues quarterDt List.mem_cons_self
    | seed => exact hvalues sevenSeed (List.mem_cons_of_mem _ List.mem_cons_self)
    | _ => exact hdefaults _ (by decide)
  have hswapped : ∀ a, a ∈ slow.assignments ↔ a ∈ slowSwapped.assignments :=
    fun a => (List.Perm.swap _ _ []).mem_iff
  have hunknown : ∀ f : Field, speedKey.text ≠ f.name := by
    intro f
    cases f <;> decide +kernel
  have hexact : ReadsExactly ⟨quarter.numeral.significand, quarter.numeral.lastExponent⟩ :=
    readsExactly_of_eq (n := 25) (k := 0) (by decide) (by norm_num) (by decide)
  have hfive : minusFive.size = (5 : ℕ) := minusFive.size_of_isWhole rfl
  have hlow : (10 : ℚ) ^ (-307 : ℤ) ≤ minusFive.size := by
    rw [hfive]
    exact (zpow_le_one_of_nonpos₀ (by norm_num) (by norm_num)).trans (by norm_num)
  have hhigh : minusFive.size ≤ (2 ^ 53 - 7 / 2) * 2 ^ (971 : ℤ) :=
    (Literal.size_le (by decide) (by decide)).trans pow_152_le
  refine ⟨by decide +kernel, hclosed, ?_, ?_, ?_, ?_, ?_, ?_, ?_⟩
  · rw [← hread.order slowSwapped noBlanks lineBreak hswapped]
    exact hclosed
  · exact hread.unknown speedKey _ hunknown
  · exact hread.duplicate Field.seed.key .seed _ Field.seed.text_key (by decide)
  · have hends : EndsNumber ['\x7d'] := endsNumber_cons [] (by decide)
    exact hread.unreadable Field.width.key .width ⟨noBlanks, noBlanks, minusFive⟩ _
      Field.width.text_key (by decide) (by decide) hends
  · exact hnegative.real hhigh
  · exact hnegative.near hlow hhigh
  · exact hquarter.exact (by decide) hexact

/-- The number `1.797693134862315708e308`. -/
def nearLargest : Literal where
  negative := false
  whole := ['1']
  fraction := "797693134862315708".toList
  exponent := some ⟨false, none, ['3', '0', '8'], by decide, List.all_eq_true.1 rfl⟩
  proper := ⟨List.all_eq_true.1 rfl, List.all_eq_true.1 rfl, by decide, by decide⟩

/-- A number just below the largest float is refused in a document, because its digits and the power
of ten are rounded up before they are multiplied. As an option it gives the largest float. -/
theorem ofJson_nearLargest :
    String.ofList nearLargest.chars = "1.797693134862315708e308" ∧
    nearLargest.value ≤ (2 ^ 53 - 1 : ℕ) * 2 ^ (971 : ℤ) ∧
    ofJson "\x7b\"gravity\":1.797693134862315708e308\x7d" = .error (.malformed .numberOutOfRange) ∧
    Decimal.readFloat? nearLargest.chars = some (.ofBits 0x7fefffffffffffff) := by
  refine ⟨by decide +kernel, ?_, by decide +kernel, by decide +kernel⟩
  have hsignificand : nearLargest.numeral.significand = 1797693134862315708 := by decide +kernel
  have hexponent : nearLargest.numeral.lastExponent = (290 : ℕ) := by decide +kernel
  have hvalue : nearLargest.value = (1797693134862315708 * 10 ^ 290 : ℕ) := by
    change nearLargest.size = _
    rw [Literal.size, hsignificand, hexponent, zpow_natCast]
    rw [Nat.cast_mul, Nat.cast_pow, Nat.cast_ofNat, Nat.cast_ofNat]
  have hnat : 1797693134862315708 * 10 ^ 290 ≤ (2 ^ 53 - 1) * 2 ^ 971 := by decide +kernel
  rw [hvalue]
  exact_mod_cast hnat

end Example

end TileWorld.Config
