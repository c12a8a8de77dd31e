import TileWorld.Config.Json
import TileWorld.Proofs.Json.Members

/-! Configurations that are put together from assignments. An assignment decides its own field and
no other, so as long as no field is assigned twice their order does not matter. A file does not
assign a field twice. -/

namespace TileWorld.Config
open Json

section
variable {c : Config} {as : List Assignment}

theorem get_overlay_of_not_mem {f : Field} (h : f ∉ as.map Assignment.field) :
    (c.overlay as).get f = c.get f := by
  induction as generalizing c with
  | nil => rfl
  | cons a as ih =>
    rw [List.map_cons, List.mem_cons, not_or] at h
    exact (ih h.2).trans (get_set_of_ne c a.value h.1)

theorem get_overlay_of_mem (hdistinct : (as.map Assignment.field).Nodup) {a : Assignment}
    (ha : a ∈ as) : (c.overlay as).get a.field = a.value := by
  induction as generalizing c with
  | nil => cases ha
  | cons b as ih =>
    obtain ⟨hb, hdistinct⟩ := List.nodup_cons.1 hdistinct
    rcases List.mem_cons.1 ha with rfl | ha
    · exact (get_overlay_of_not_mem hb).trans (get_set c a.field a.value)
    · exact ih hdistinct ha

end

/-- What becomes of the values for a configuration: of those that are given for a field, the one by
option counts, then the one in the file, and then the default. -/
structure Layered (inFile byOption : List Assignment) (c : Config) : Prop where
  option : ∀ a ∈ byOption, c.get a.field = a.value
  file : ∀ a ∈ inFile, a.field ∉ byOption.map Assignment.field → c.get a.field = a.value
  default : ∀ f, f ∉ byOption.map Assignment.field → f ∉ inFile.map Assignment.field →
    c.get f = ({} : Config).get f

section
variable {inFile byOption : List Assignment}

theorem layered_overlay (hfile : (inFile.map Assignment.field).Nodup)
    (hoption : (byOption.map Assignment.field).Nodup) :
    Layered inFile byOption ((({} : Config).overlay inFile).overlay byOption) where
  option _ ha := get_overlay_of_mem hoption ha
  file _ ha hnot := (get_overlay_of_not_mem hnot).trans (get_overlay_of_mem hfile ha)
  default _ hnot hnot' := (get_overlay_of_not_mem hnot).trans (get_overlay_of_not_mem hnot')

/-- Values that are all given by option, or all in a file, make the same configuration. -/
theorem Layered.eq_of_same {c c' : Config} (h : c.Layered [] byOption) (h' : c'.Layered inFile [])
    (hsame : ∀ a, a ∈ inFile ↔ a ∈ byOption) : c = c' := by
  apply ext_get
  intro f
  by_cases hf : f ∈ byOption.map Assignment.field
  · obtain ⟨a, ha, rfl⟩ := List.mem_map.1 hf
    exact (h.option a ha).trans (h'.file a ((hsame a).2 ha) List.not_mem_nil).symm
  · have hf' : f ∉ inFile.map Assignment.field := by
      rintro hmem
      obtain ⟨a, ha, rfl⟩ := List.mem_map.1 hmem
      exact hf (List.mem_map_of_mem ((hsame a).1 ha))
    exact (h.default f hf List.not_mem_nil).trans (h'.default f List.not_mem_nil hf').symm

end

theorem Field.ofName?_name (f : Field) : Field.ofName? f.name = some f := by
  cases f <;> rfl

section
variable {done : List Assignment} {f : Field} {fs : List Field}
  (hdone : ∀ a ∈ done, a.field ∉ f :: fs)
include hdone

theorem any_field_eq_false : done.any (·.field = f) = false := by
  rw [List.any_eq_false]
  intro a ha
  rw [decide_eq_true_eq]
  rintro rfl
  exact hdone a ha List.mem_cons_self

theorem field_not_mem_of_append (hf : f ∉ fs) {v : f.Value} :
    ∀ a ∈ done ++ [⟨f, v⟩], a.field ∉ fs := by
  intro a ha
  rcases List.mem_append.1 ha with ha | ha
  · exact fun hmem => hdone a ha (List.mem_cons_of_mem _ hmem)
  · rw [List.mem_singleton.1 ha]
    exact hf

end

theorem field_of_read {f : Field} {a : Assignment} {cs rest : List Char}
    (h : Assignment.read f cs = .ok (a, rest)) : a.field = f := by
  unfold Assignment.read at h
  cases hread : f.kind.read cs with
  | error e =>
    rw [hread] at h
    cases h
  | ok v =>
    rw [hread] at h
    cases h
    rfl

/-- The fields that are assigned so far differ, and the next one is none of them. -/
theorem nodup_readMember {done as : List Assignment} {key : String} {cs rest : List Char}
    (h : readMember done key cs = .ok (as, rest)) (hdone : (done.map Assignment.field).Nodup) :
    (as.map Assignment.field).Nodup := by
  unfold readMember at h
  cases hname : Field.ofName? key with
  | none =>
    rw [hname] at h
    cases h
  | some f =>
    rw [hname] at h
    dsimp only at h
    split at h
    · cases h
    · next hnew =>
      obtain ⟨behind, -, h⟩ := exists_of_bind h
      obtain ⟨⟨a, behind⟩, hread, hdone'⟩ := exists_of_bind h
      cases hdone'
      rw [List.map_append, List.map_singleton, List.nodup_append, field_of_read hread]
      refine ⟨hdone, List.nodup_cons.2 ⟨List.not_mem_nil, List.nodup_nil⟩, ?_⟩
      intro f' hf' g hg heq
      obtain ⟨b, hb, rfl⟩ := List.mem_map.1 hf'
      rw [List.mem_singleton.1 hg] at heq
      exact hnew (List.any_eq_true.2 ⟨b, hb, decide_eq_true heq⟩)

theorem sublist_readItems {fields : List Field} {first : Bool} {as : List Assignment}
    {cs rest : List Char} (h : readItems fields first cs = .ok (as, rest)) :
    (as.map Assignment.field).Sublist fields := by
  induction fields generalizing first as cs with
  | nil =>
    obtain ⟨behind, -, h⟩ := exists_of_bind h
    cases h
    exact List.nil_sublist []
  | cons f fields ih =>
    rw [readItems] at h
    obtain ⟨item, -, h⟩ := exists_of_bind h
    cases item with
    | none =>
      obtain ⟨behind, -, h⟩ := exists_of_bind h
      cases h
      exact List.nil_sublist _
    | some item =>
      obtain ⟨⟨a, behind⟩, hread, h⟩ := exists_of_bind h
      obtain ⟨⟨as', behind'⟩, hmore, h⟩ := exists_of_bind h
      cases h
      rw [List.map_cons, field_of_read hread]
      exact (ih hmore).cons_cons f

theorem nodup_readDocument {text : String} {as : List Assignment}
    (h : readDocument readAssignments text = .ok as) : (as.map Assignment.field).Nodup := by
  obtain ⟨⟨as', rest⟩, hread, h⟩ := exists_of_bind h
  dsimp only at h
  split at h
  · cases h
    unfold readAssignments readRecord at hread
    split at hread
    · cases hread
    · exact (sublist_readItems hread).nodup (by decide)
    · apply readMembersUpTo_keeps (P := fun as => (as.map Assignment.field).Nodup) _ hread
        List.nodup_nil
      intro s key cs s' rest hmember
      exact nodup_readMember hmember
    · cases hread
  · cases h

end TileWorld.Config
