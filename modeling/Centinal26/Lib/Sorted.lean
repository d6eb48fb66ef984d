/-
Sorting by a key: where the key tells the members of a list apart, every order of it is sorted
alike; and members of one key keep the order they came in.
-/
import Mathlib.Data.List.Sort

namespace Lib

variable {α β : Type} [LinearOrder β] (key : α → β)

instance key_total : Std.Total fun a b : α => key a ≤ key b :=
  ⟨fun a b => le_total (key a) (key b)⟩

instance key_trans : IsTrans α fun a b => key a ≤ key b :=
  ⟨fun _ _ _ hab hbc => le_trans hab hbc⟩

def sortedBy (l : List α) : List α := l.insertionSort fun a b => key a ≤ key b

theorem sortedBy_perm (l : List α) : (sortedBy key l).Perm l := List.perm_insertionSort _ l

@[simp] theorem mem_sortedBy {l : List α} {a : α} : a ∈ sortedBy key l ↔ a ∈ l :=
  List.mem_insertionSort _

theorem sortedBy_eq_of_perm {l l' : List α} (h : l.Perm l')
    (hinj : ∀ a ∈ l, ∀ b ∈ l, key a = key b → a = b) : sortedBy key l = sortedBy key l' := by
  have hperm : (sortedBy key l).Perm (sortedBy key l') :=
    (sortedBy_perm key l).trans (h.trans (sortedBy_perm key l').symm)
  refine List.Perm.eq_of_pairwise ?_ (List.pairwise_insertionSort _ l)
    (List.pairwise_insertionSort _ l') hperm
  intro a b ha hb hab hba
  exact hinj a ((mem_sortedBy key).mp ha) b (h.mem_iff.mpr ((mem_sortedBy key).mp hb))
    (le_antisymm hab hba)

theorem sortedBy_filter (l : List α) {k : β} {p : α → Bool} (hp : ∀ a, p a = true → key a = k) :
    (sortedBy key l).filter p = l.filter p := by
  have hkeys : ∀ a ∈ l.filter p, key a = k := fun a ha => hp a (List.mem_filter.mp ha).2
  have hpairwise : (l.filter p).Pairwise fun a b => key a ≤ key b :=
    List.pairwise_of_forall_mem_list fun a ha b hb =>
      le_of_eq ((hkeys a ha).trans (hkeys b hb).symm)
  have hsub := (List.sublist_insertionSort hpairwise List.filter_sublist).filter p
  simp only [List.filter_filter, Bool.and_self] at hsub
  exact (hsub.eq_of_length ((sortedBy_perm key l).filter _).length_eq.symm).symm

end Lib
