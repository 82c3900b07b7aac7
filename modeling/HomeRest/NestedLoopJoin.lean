import Mathlib.Data.List.Nodup
import Mathlib.Tactic

/-! Joins by nested loops.
A row of the left side appears once for each partner that it finds on the right side. -/
namespace NestedLoopJoin

variable {α β κ : Type}

/-- The pairs that satisfy the join condition, left rows first. -/
def join (on : α → β → Bool) (xs : List α) (ys : List β) : List (α × β) :=
  xs.flatMap fun x => (ys.filter (on x)).map fun y => (x,y)

section Join

variable {on : α → β → Bool} {xs : List α} {ys : List β}

theorem mem_join {p : α × β} : p ∈ join on xs ys ↔ p.1 ∈ xs ∧ p.2 ∈ ys ∧ on p.1 p.2 = true := by
  obtain ⟨x,y⟩ := p
  simp only [join,List.mem_flatMap,List.mem_map,List.mem_filter,Prod.mk.injEq]
  constructor
  · rintro ⟨x',hx',y',⟨hy',hon⟩,rfl,rfl⟩
    exact ⟨hx',hy',hon⟩
  · rintro ⟨hx,hy,hon⟩
    exact ⟨x,hx,y,⟨hy,hon⟩,rfl,rfl⟩

theorem join_filter_left (q : α → Bool) :
    (join on xs ys).filter (fun p => q p.1) = join on (xs.filter q) ys := by
  induction xs with
  | nil => rfl
  | cons x xs ih =>
    have hrow : ∀ p ∈ (ys.filter (on x)).map fun y => (x,y), q p.1 = q x := by
      intro p hp
      obtain ⟨y,-,rfl⟩ := List.mem_map.mp hp
      rfl
    simp only [join,List.flatMap_cons,List.filter_append,List.filter_cons] at ih ⊢
    rw [ih,List.filter_congr hrow]
    by_cases hq : q x = true
    · simp only [hq,List.filter_true,ite_true,List.flatMap_cons]
    · simp only [hq,List.filter_false,Bool.false_eq_true,ite_false,List.nil_append]

variable [DecidableEq κ] (key : α → κ)

theorem count_join_absent {k : κ} (h : ∀ x ∈ xs, key x ≠ k) :
    ((join on xs ys).map fun p => key p.1).count k = 0 := by
  apply List.count_eq_zero_of_not_mem
  intro hk
  obtain ⟨p,hp,hpk⟩ := List.mem_map.mp hk
  exact h p.1 (mem_join.mp hp).1 hpk

/-- The multiplicity of a left row is the number of its partners. -/
theorem count_join (hnodup : (xs.map key).Nodup) {x : α} (hx : x ∈ xs) :
    ((join on xs ys).map fun p => key p.1).count (key x) = ys.countP (on x) := by
  induction xs with
  | nil => cases hx
  | cons z xs ih =>
    obtain ⟨hz,hxs⟩ := List.nodup_cons.mp hnodup
    have hsplit : ((join on (z :: xs) ys).map fun p => key p.1).count (key x) =
        ((ys.filter (on z)).map fun _ => key z).count (key x) +
          ((join on xs ys).map fun p => key p.1).count (key x) := by
      simp [join,List.count_append,Function.comp_def]
    rw [hsplit]
    rcases List.mem_cons.mp hx with rfl | hx
    · have habsent : ∀ x' ∈ xs, key x' ≠ key x :=
        fun x' hx' he => hz (List.mem_map.mpr ⟨x',hx',he⟩)
      rw [count_join_absent key habsent,List.map_const',List.count_replicate_self,
        List.countP_eq_length_filter,add_zero]
    · have hne : key z ≠ key x := fun he => hz (List.mem_map.mpr ⟨x,hx,he.symm⟩)
      rw [ih hxs hx,List.map_const',List.count_replicate,if_neg (by simpa using hne),zero_add]

end Join
end NestedLoopJoin
