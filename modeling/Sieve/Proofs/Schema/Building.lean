import Mathlib.Data.List.Basic
import Sieve.Proofs.Outcome
import Sieve.Schema.Basic

/-! Which fields make up a schema: those with sound definitions and names that are all different, in
any order. The schema has these fields and no others. -/
namespace Sieve

theorem Ordered.eq_of_mem_iff {fs gs : List (String × FieldDefinition)} (first : Ordered fs)
    (second : Ordered gs) (same : ∀ f, f ∈ fs ↔ f ∈ gs) : fs = gs := by
  have distinct {hs : List (String × FieldDefinition)} (ordered : Ordered hs) : hs.Nodup := by
    apply List.Pairwise.imp _ ordered
    rintro f _ before rfl
    exact String.lt_irrefl _ before
  have perm : fs.Perm gs :=
    (List.perm_ext_iff_of_nodup (distinct first) (distinct second)).mpr same
  apply perm.eq_of_pairwise _ first second
  intro f g _ _ before behind
  exact absurd (String.lt_trans before behind) (String.lt_irrefl _)

namespace Schema

theorem eq_of_mem_iff {s t : Schema} (resource : s.resource = t.resource)
    (fields : ∀ f, f ∈ s.fields ↔ f ∈ t.fields) : s = t := by
  have same := s.ordered.eq_of_mem_iff t.ordered fields
  cases s
  cases t
  cases resource
  cases same
  rfl

theorem nodup_names (s : Schema) : (s.fields.map Prod.fst).Nodup := by
  refine List.pairwise_map.mpr (s.ordered.imp fun before same => ?_)
  exact String.lt_irrefl _ (same ▸ before)

theorem exists_add {s : Schema} {name : String} {definition : FieldDefinition}
    (sound : definition.isSound = true) (fresh : ∀ f ∈ s.fields, f.1 ≠ name) :
    ∃ t, s.add name definition = .ok t := by
  unfold add
  split
  next e faulty =>
    rw [(definition.fault?_eq_none_iff name).mpr sound] at faulty
    cases faulty
  next =>
    rw [dif_pos fresh]
    exact ⟨_, rfl⟩

theorem add_eq_ok {s t : Schema} {name : String} {definition : FieldDefinition}
    (added : s.add name definition = .ok t) :
    definition.isSound = true ∧ (∀ f ∈ s.fields, f.1 ≠ name) ∧ t.resource = s.resource ∧
      ∀ f, f ∈ t.fields ↔ f = (name, definition) ∨ f ∈ s.fields := by
  unfold add at added
  split at added
  next => cases added
  next sound =>
    split at added
    next fresh =>
      cases added
      exact ⟨(definition.fault?_eq_none_iff name).mp sound, fresh, rfl, fun _ => mem_insertField⟩
    next => cases added

theorem foldlM_add_eq_ok {fields : List (String × FieldDefinition)} {s t : Schema}
    (added : fields.foldlM (fun s f => s.add f.1 f.2) s = .ok t) :
    (∀ f ∈ fields, f.2.isSound = true ∧ ∀ g ∈ s.fields, g.1 ≠ f.1) ∧
      (fields.map Prod.fst).Nodup ∧ t.resource = s.resource ∧
      ∀ f, f ∈ t.fields ↔ f ∈ s.fields ∨ f ∈ fields := by
  induction fields generalizing s with
  | nil =>
    rw [List.foldlM_nil] at added
    cases added
    simp
  | cons f rest ih =>
    rw [List.foldlM_cons, bind_eq_ok] at added
    obtain ⟨next, added, later⟩ := added
    obtain ⟨sound, fresh, resource, fields⟩ := add_eq_ok added
    obtain ⟨each, distinct, resource', fields'⟩ := ih later
    refine ⟨List.forall_mem_cons.mpr ⟨⟨sound, fresh⟩, fun g inRest => ?_⟩, ?_,
      resource'.trans resource, fun g => ?_⟩
    · obtain ⟨sound, apart⟩ := each g inRest
      exact ⟨sound, fun h inFields => apart h ((fields h).mpr (.inr inFields))⟩
    · refine List.nodup_cons.mpr ⟨fun repeated => ?_, distinct⟩
      obtain ⟨g, inRest, same⟩ := List.mem_map.mp repeated
      exact (each g inRest).2 f ((fields f).mpr (.inl rfl)) same.symm
    · rw [fields', fields, List.mem_cons]
      grind

theorem exists_foldlM_add {fields : List (String × FieldDefinition)} {s : Schema}
    (each : ∀ f ∈ fields, f.2.isSound = true ∧ ∀ g ∈ s.fields, g.1 ≠ f.1)
    (distinct : (fields.map Prod.fst).Nodup) :
    ∃ t, fields.foldlM (fun s f => s.add f.1 f.2) s = .ok t := by
  induction fields generalizing s with
  | nil => exact ⟨s, rfl⟩
  | cons f rest ih =>
    obtain ⟨⟨sound, fresh⟩, each⟩ := List.forall_mem_cons.mp each
    obtain ⟨unrepeated, distinct⟩ := List.nodup_cons.mp distinct
    obtain ⟨next, added⟩ := exists_add sound fresh
    obtain ⟨_, _, _, fields⟩ := add_eq_ok added
    have later : ∀ g ∈ rest, g.2.isSound = true ∧ ∀ h ∈ next.fields, h.1 ≠ g.1 := by
      refine fun g inRest => ⟨(each g inRest).1, fun h inFields => ?_⟩
      rcases (fields h).mp inFields with rfl | before
      · exact fun same => unrepeated (List.mem_map.mpr ⟨g, inRest, same.symm⟩)
      · exact (each g inRest).2 h before
    obtain ⟨t, built⟩ := ih later distinct
    exact ⟨t, by rw [List.foldlM_cons, added]; exact built⟩

/-- There is a schema of these fields just if their definitions are sound and their names different. -/
theorem exists_build_iff {resource : String} {fields : List (String × FieldDefinition)} :
    (∃ s, build resource fields = .ok s) ↔
      (∀ f ∈ fields, f.2.isSound = true) ∧ (fields.map Prod.fst).Nodup := by
  constructor
  · rintro ⟨s, built⟩
    obtain ⟨each, distinct, _⟩ := foldlM_add_eq_ok built
    exact ⟨fun f member => (each f member).1, distinct⟩
  · rintro ⟨sound, distinct⟩
    exact exists_foldlM_add (fun f member => ⟨sound f member, nofun⟩) distinct

theorem build_eq_ok_iff {resource : String} {fields : List (String × FieldDefinition)}
    {s : Schema} :
    build resource fields = .ok s ↔
      (∀ f ∈ fields, f.2.isSound = true) ∧ (fields.map Prod.fst).Nodup ∧
        s.resource = resource ∧ ∀ f, f ∈ s.fields ↔ f ∈ fields := by
  have made {t : Schema} (built : build resource fields = .ok t) :
      t.resource = resource ∧ ∀ f, f ∈ t.fields ↔ f ∈ fields := by
    obtain ⟨_, _, resource, fields⟩ := foldlM_add_eq_ok built
    exact ⟨resource, fun f => by simpa [empty] using fields f⟩
  constructor
  · intro built
    obtain ⟨sound, distinct⟩ := exists_build_iff.mp ⟨s, built⟩
    exact ⟨sound, distinct, made built⟩
  · rintro ⟨sound, distinct, sameResource, sameFields⟩
    obtain ⟨t, built⟩ := exists_build_iff.mpr ⟨sound, distinct⟩
    obtain ⟨resource, fields⟩ := made built
    have same : t = s := eq_of_mem_iff (resource.trans sameResource.symm)
      fun f => (fields f).trans (sameFields f).symm
    exact same ▸ built

end Schema
end Sieve
