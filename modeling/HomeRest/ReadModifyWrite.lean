import Mathlib.Algebra.BigOperators.Group.Finset.Basic
import Mathlib.Algebra.Order.BigOperators.Group.Finset
import Mathlib.Data.List.Nodup
import Mathlib.Tactic

/-! Cells that are read, and written in a later step.
What is written may go back to a value that others have replaced, so updates can be lost. But
who writes a cell once at most is counted once at most: every value comes from the first one by
some of the writers, one after the other. -/
namespace ReadModifyWrite

variable {ι κ V : Type}

def after (act : ι → κ → V → V) (n : κ) (v : V) (order : List ι) : V :=
  order.foldl (fun v i => act i n v) v

/-- The value comes from the first one by some of the writers, each of them once and this one
last. -/
def Chained (act : ι → κ → V → V) (v₀ : κ → V) (wrote : ι → κ → Prop) (n : κ) (last : Option ι)
    (v : V) : Prop :=
  ∃ order : List ι, order.Nodup ∧ (∀ i ∈ order, wrote i n) ∧ order.getLast? = last ∧
    v = after act n (v₀ n) order

section Chain

variable {act : ι → κ → V → V} {v₀ : κ → V} {wrote wrote' : ι → κ → Prop} {n : κ} {v : V} {i : ι}
  {last : Option ι}

theorem Chained.start : Chained act v₀ wrote n none (v₀ n) := ⟨[],List.nodup_nil,by simp,rfl,rfl⟩

theorem Chained.mono (h : Chained act v₀ wrote n last v) (hw : ∀ i, wrote i n → wrote' i n) :
    Chained act v₀ wrote' n last v := by
  obtain ⟨order,hnodup,hall,hlast,hv⟩ := h
  exact ⟨order,hnodup,fun i hi => hw i (hall i hi),hlast,hv⟩

/-- The first write of a cell by a writer, on any value that it has read before. -/
theorem Chained.write (h : Chained act v₀ wrote n last v) (hi : ¬ wrote i n)
    (hw : ∀ j, wrote j n → wrote' j n) (hi' : wrote' i n) :
    Chained act v₀ wrote' n (some i) (act i n v) := by
  obtain ⟨order,hnodup,hall,-,hv⟩ := h
  have hnew : i ∉ order := fun hmem => hi (hall i hmem)
  refine ⟨order ++ [i],?_,?_,List.getLast?_concat,?_⟩
  · exact List.Nodup.append hnodup (List.nodup_singleton i) (by simpa using hnew)
  · intro j hj
    rcases List.mem_append.mp hj with hj | hj
    · exact hw j (hall j hj)
    · rw [List.mem_singleton.mp hj]
      exact hi'
  · rw [hv,after,after,List.foldl_append]
    rfl

theorem Chained.iff (h : Chained act v₀ wrote n last v) {p : V → Prop}
    (hp : ∀ i v, p (act i n v) ↔ p v) : p v ↔ p (v₀ n) := by
  obtain ⟨order,-,-,-,rfl⟩ := h
  generalize v₀ n = v
  induction order generalizing v with
  | nil => exact Iff.rfl
  | cons i order ih => exact (ih (act i n v)).trans (hp i v)

end Chain

section Sums

variable [Fintype ι] {A : Type} [AddCommGroup A] [LinearOrder A] [IsOrderedAddMonoid A]
  (δ : ι → A) {order : List ι}

theorem sum_le_gains (h : order.Nodup) : (order.map δ).sum ≤ ∑ i, max (δ i) 0 := by
  classical
  rw [← List.sum_toFinset δ h]
  calc ∑ i ∈ order.toFinset, δ i ≤ ∑ i ∈ order.toFinset, max (δ i) 0 :=
        Finset.sum_le_sum fun i _ => le_max_left _ _
    _ ≤ ∑ i, max (δ i) 0 :=
        Finset.sum_le_sum_of_subset_of_nonneg (Finset.subset_univ _) fun i _ _ => le_max_right _ _

theorem losses_le_sum (h : order.Nodup) : ∑ i, min (δ i) 0 ≤ (order.map δ).sum := by
  classical
  have hgains := sum_le_gains (fun i => -δ i) h
  have hneg : ∀ i, max (-δ i) 0 = -min (δ i) 0 := by
    intro i
    rw [← neg_zero,max_neg_neg,neg_zero]
  rw [← List.sum_toFinset _ h] at hgains ⊢
  simp only [hneg,Finset.sum_neg_distrib] at hgains
  exact neg_le_neg_iff.mp hgains

end Sums

end ReadModifyWrite
