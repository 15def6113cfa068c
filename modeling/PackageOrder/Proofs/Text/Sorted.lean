/-
PackageOrder.Proofs.Text.Sorted — sets of texts stand in increasing order, and
the first member with a property is the least one.

`SortedSet.Increasing` is kept by `insert`, so it holds of every set that is made
from a list or by a union. Lists in an increasing order are equal when they have
the same members (`eq_of_increasing_keys`), whatever they were made from.
-/
import PackageOrder.Text.Sorted

namespace PackageOrder.Text

/-- Lists whose keys increase are equal when they have the same members. -/
theorem eq_of_increasing_keys {α : Type} {key : α → String} {one other : List α}
    (hone : one.Pairwise fun a b => key a < key b)
    (hother : other.Pairwise fun a b => key a < key b)
    (hmem : ∀ a, a ∈ one ↔ a ∈ other) : one = other := by
  have hnodup : ∀ {items : List α}, items.Pairwise (fun a b => key a < key b) → items.Nodup := by
    intro items h
    refine List.Pairwise.imp ?_ h
    rintro a _ hlt rfl
    exact String.lt_irrefl _ hlt
  have hperm := (List.perm_ext_iff_of_nodup (hnodup hone) (hnodup hother)).mpr hmem
  exact hperm.eq_of_pairwise (fun _ _ _ _ hab hba => absurd hba (String.lt_asymm hab)) hone hother

namespace SortedSet

/-- Every member stands before the greater ones; there is none twice. -/
def Increasing (set : SortedSet) : Prop :=
  set.Pairwise (· < ·)

theorem Increasing.nodup {set : SortedSet} (h : set.Increasing) : set.Nodup := by
  refine List.Pairwise.imp ?_ h
  rintro text _ hlt rfl
  exact String.lt_irrefl text hlt

theorem increasing_insert {set : SortedSet} (h : set.Increasing) (text : String) :
    (set.insert text).Increasing := by
  induction set with
  | nil => exact List.pairwise_singleton _ _
  | cons first rest ih =>
    obtain ⟨hfirst, hrest⟩ := List.pairwise_cons.mp h
    rw [insert]
    split
    · exact h
    · rename_i hne
      split
      · rename_i hlt
        refine List.pairwise_cons.mpr ⟨?_, h⟩
        intro other hother
        rcases List.mem_cons.mp hother with rfl | hother
        · exact hlt
        · exact String.lt_trans hlt (hfirst other hother)
      · rename_i hlt
        refine List.pairwise_cons.mpr ⟨?_, ih hrest⟩
        intro other hother
        rcases mem_insert.mp hother with rfl | hother
        · rcases String.le_total first other with hle | hle
          · exact String.not_le.mp fun hge => hne (String.le_antisymm hge hle)
          · exact absurd (String.not_le.mp fun hge => hne (String.le_antisymm hle hge)) hlt
        · exact hfirst other hother

theorem increasing_foldl_insert (texts : List String) :
    ∀ set : SortedSet, set.Increasing → Increasing (texts.foldl insert set) := by
  induction texts with
  | nil => exact fun _ h => h
  | cons text texts ih => exact fun set h => ih _ (increasing_insert h text)

theorem increasing_ofList (texts : List String) : (ofList texts).Increasing :=
  increasing_foldl_insert texts [] List.Pairwise.nil

theorem increasing_union {one : SortedSet} (h : one.Increasing) (other : SortedSet) :
    (one.union other).Increasing :=
  increasing_foldl_insert other one h

theorem mem_ofList {texts : List String} {text : String} : text ∈ ofList texts ↔ text ∈ texts := by
  rw [show ofList texts = union [] texts from rfl, mem_union]
  simp

/-- The first member with a property is the least one with it. -/
theorem find?_eq_some_iff_least {set : SortedSet} (h : set.Increasing) (p : String → Bool)
    (text : String) :
    set.find? p = some text
      ↔ (text ∈ set ∧ p text = true) ∧ ∀ other ∈ set, p other = true → text ≤ other := by
  induction set with
  | nil => simp
  | cons first rest ih =>
    obtain ⟨hfirst, hrest⟩ := List.pairwise_cons.mp h
    cases hp : p first with
    | true =>
      rw [List.find?_cons_of_pos hp]
      constructor
      · intro heq
        cases heq
        refine ⟨⟨List.mem_cons_self .., hp⟩, ?_⟩
        intro other hother _
        rcases List.mem_cons.mp hother with rfl | hother
        · exact String.le_refl _
        · exact String.not_lt.mp (String.lt_asymm (hfirst other hother))
      · rintro ⟨⟨hmem, _⟩, hleast⟩
        rcases List.mem_cons.mp hmem with rfl | hmem
        · rfl
        · have hle := hleast first (List.mem_cons_self ..) hp
          exact absurd (hfirst text hmem) (String.not_lt.mpr hle)
    | false =>
      rw [List.find?_cons_of_neg (by simp [hp]), ih hrest]
      constructor
      · rintro ⟨⟨hmem, hpt⟩, hleast⟩
        refine ⟨⟨List.mem_cons_of_mem _ hmem, hpt⟩, ?_⟩
        intro other hother hpo
        rcases List.mem_cons.mp hother with rfl | hother
        · rw [hp] at hpo; cases hpo
        · exact hleast other hother hpo
      · rintro ⟨⟨hmem, hpt⟩, hleast⟩
        refine ⟨⟨?_, hpt⟩, fun other hother => hleast other (List.mem_cons_of_mem _ hother)⟩
        rcases List.mem_cons.mp hmem with rfl | hmem
        · rw [hp] at hpt; cases hpt
        · exact hmem

end SortedSet

end PackageOrder.Text
