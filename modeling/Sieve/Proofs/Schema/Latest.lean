import Mathlib.Data.List.Induction
import Sieve.Schema.Document

/-! Entries with the same name. A document keeps the last of them, and sorts what it keeps. -/
namespace Sieve.SchemaDocument

variable {entries : List (String × FieldEntry)}

/-- The entries without those whose name is written again later. -/
def latest : List (String × FieldEntry) → List (String × FieldEntry)
  | [] => []
  | e :: rest => if e.1 ∈ rest.map Prod.fst then latest rest else e :: latest rest

theorem latest_subset (entries : List (String × FieldEntry)) : latest entries ⊆ entries := by
  induction entries with
  | nil => exact List.nil_subset []
  | cons e rest ih =>
    rw [latest]
    split
    · exact List.subset_cons_of_subset e ih
    · exact List.cons_subset_cons e ih

theorem nodup_latest (entries : List (String × FieldEntry)) :
    ((latest entries).map Prod.fst).Nodup := by
  induction entries with
  | nil => exact List.nodup_nil
  | cons e rest ih =>
    rw [latest]
    split
    next => exact ih
    next last =>
      refine List.nodup_cons.mpr ⟨fun again => last ?_, ih⟩
      exact List.map_subset Prod.fst (latest_subset rest) again

theorem latest_of_nodup (distinct : (entries.map Prod.fst).Nodup) : latest entries = entries := by
  induction entries with
  | nil => rfl
  | cons e rest ih =>
    obtain ⟨last, distinct⟩ := List.nodup_cons.mp distinct
    rw [latest, if_neg last, ih distinct]

theorem mem_latest_concat {e f : String × FieldEntry} :
    f ∈ latest (entries ++ [e]) ↔ f = e ∨ f ∈ latest entries ∧ f.1 ≠ e.1 := by
  induction entries with
  | nil => simp [latest]
  | cons g rest ih =>
    have written : g.1 ∈ (rest ++ [e]).map Prod.fst ↔ g.1 ∈ rest.map Prod.fst ∨ g.1 = e.1 := by
      simp
    rw [List.cons_append, latest, latest]
    by_cases again : g.1 ∈ rest.map Prod.fst
    · rw [if_pos (written.mpr (.inl again)), if_pos again, ih]
    · by_cases same : g.1 = e.1
      · rw [if_pos (written.mpr (.inr same)), if_neg again, ih, List.mem_cons]
        grind
      · rw [if_neg (by simp [again, same]), if_neg again, List.mem_cons, ih, List.mem_cons]
        grind

def Sorted (entries : List (String × FieldEntry)) : Prop :=
  entries.Pairwise fun e f => e.1 < f.1

theorem mem_putEntry {name : String} {entry : FieldEntry} (sorted : Sorted entries)
    {f : String × FieldEntry} :
    f ∈ putEntry name entry entries ↔ f = (name, entry) ∨ f ∈ entries ∧ f.1 ≠ name := by
  induction entries with
  | nil => simp [putEntry]
  | cons e rest ih =>
    obtain ⟨first, sorted⟩ := List.pairwise_cons.mp sorted
    rw [putEntry]
    split
    next before =>
      have apart : ∀ g ∈ e :: rest, g.1 ≠ name := by
        refine List.forall_mem_cons.mpr ⟨?_, fun g inRest => ?_⟩
        · exact fun same => String.lt_irrefl _ (same ▸ before)
        · exact fun same => String.lt_irrefl _ (same ▸ String.lt_trans before (first g inRest))
      rw [List.mem_cons]
      grind
    next =>
      split
      next same =>
        have apart : ∀ g ∈ rest, g.1 ≠ name := by
          intro g inRest again
          have behind := first g inRest
          rw [again, same] at behind
          exact String.lt_irrefl _ behind
        rw [List.mem_cons, List.mem_cons]
        grind
      next other =>
        rw [List.mem_cons, ih sorted, List.mem_cons]
        grind

theorem Sorted.putEntry (sorted : Sorted entries) (name : String) (entry : FieldEntry) :
    Sorted (putEntry name entry entries) := by
  induction entries with
  | nil => exact List.pairwise_singleton _ _
  | cons e rest ih =>
    obtain ⟨first, inOrder⟩ := List.pairwise_cons.mp sorted
    rw [SchemaDocument.putEntry]
    split
    next before =>
      refine List.pairwise_cons.mpr ⟨List.forall_mem_cons.mpr ⟨before, fun g inRest => ?_⟩, sorted⟩
      exact String.lt_trans before (first g inRest)
    next notBefore =>
      split
      next same => exact List.pairwise_cons.mpr ⟨fun g inRest => same ▸ first g inRest, inOrder⟩
      next other =>
        have after : e.1 < name := Std.lt_of_le_of_ne (String.not_lt.mp notBefore) (Ne.symm other)
        refine List.pairwise_cons.mpr ⟨fun g put => ?_, ih inOrder⟩
        rcases (mem_putEntry inOrder).mp put with rfl | ⟨inRest, _⟩
        · exact after
        · exact first g inRest

theorem sortEntries_concat (e : String × FieldEntry) :
    sortEntries (entries ++ [e]) = putEntry e.1 e.2 (sortEntries entries) := by
  rw [sortEntries, List.foldl_append]
  rfl

theorem sorted_sortEntries (entries : List (String × FieldEntry)) :
    Sorted (sortEntries entries) := by
  induction entries using List.reverseRecOn with
  | nil => exact .nil
  | append_singleton entries e ih =>
    rw [sortEntries_concat]
    exact ih.putEntry e.1 e.2

theorem nodup_sortEntries (entries : List (String × FieldEntry)) :
    ((sortEntries entries).map Prod.fst).Nodup := by
  refine List.pairwise_map.mpr ((sorted_sortEntries entries).imp fun before same => ?_)
  exact String.lt_irrefl _ (same ▸ before)

/-- Sorting keeps the last entry of each name. -/
theorem mem_sortEntries {f : String × FieldEntry} :
    f ∈ sortEntries entries ↔ f ∈ latest entries := by
  induction entries using List.reverseRecOn with
  | nil => exact Iff.rfl
  | append_singleton entries e ih =>
    rw [sortEntries_concat, mem_putEntry (sorted_sortEntries entries), mem_latest_concat, ih]

end Sieve.SchemaDocument
