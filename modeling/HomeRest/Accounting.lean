import Mathlib.Algebra.BigOperators.Group.List.Basic
import Mathlib.Algebra.Order.BigOperators.Group.List
import Mathlib.Algebra.Order.Group.Defs
import Mathlib.Tactic.Abel

/-! Movements of money between accounts.
A list of movements is covered when every source has the amount at its turn. What a covered
list moves can be moved back, and a movement can be split into parts. -/
namespace Accounting

variable {ι M : Type}

structure Movement (ι M : Type) where
  source : ι
  target : ι
  amount : M

def Movement.back (m : Movement ι M) : Movement ι M := ⟨m.target,m.source,m.amount⟩

def undo (ms : List (Movement ι M)) : List (Movement ι M) := (ms.map Movement.back).reverse

theorem undo_cons (m : Movement ι M) (ms : List (Movement ι M)) :
    undo (m :: ms) = undo ms ++ [m.back] := by
  simp [undo]

variable [DecidableEq ι] [AddCommGroup M]

/-- What a movement adds to each account. -/
def Movement.net (m : Movement ι M) (i : ι) : M :=
  (if m.target = i then m.amount else 0) - if m.source = i then m.amount else 0

def nets (ms : List (Movement ι M)) (i : ι) : M := (ms.map fun m => m.net i).sum

section Net

variable {m : Movement ι M} {ms ms' : List (Movement ι M)} {i : ι}

@[simp] theorem nets_nil : nets ([] : List (Movement ι M)) = 0 := rfl

@[simp] theorem nets_cons (m : Movement ι M) (ms : List (Movement ι M)) :
    nets (m :: ms) = m.net + nets ms := by
  funext i
  simp [nets]

theorem nets_append (ms ms' : List (Movement ι M)) : nets (ms ++ ms') = nets ms + nets ms' := by
  funext i
  simp [nets]

@[simp] theorem back_net (m : Movement ι M) : m.back.net = -m.net := by
  funext i
  exact (neg_sub _ _).symm

theorem nets_undo (ms : List (Movement ι M)) : nets (undo ms) = -nets ms := by
  induction ms with
  | nil => simp [undo]
  | cons m ms ih =>
    rw [undo_cons,nets_append,ih,nets_cons,nets_cons,back_net,nets_nil]
    abel

theorem net_source (h : m.source ≠ m.target) : m.net m.source = -m.amount := by
  simp [Movement.net,h.symm]

theorem net_target (h : m.source ≠ m.target) : m.net m.target = m.amount := by
  simp [Movement.net,h]

theorem nets_parts (a b : ι) (xs : List M) :
    nets (xs.map fun x => ⟨a,b,x⟩) = (⟨a,b,xs.sum⟩ : Movement ι M).net := by
  funext i
  induction xs with
  | nil => simp [Movement.net]
  | cons x xs ih =>
    rw [List.map_cons,nets_cons,Pi.add_apply,ih]
    simp only [Movement.net,List.sum_cons]
    split_ifs <;> abel

end Net

variable [LinearOrder M]

/-- Every source has the amount at its turn. -/
def Covered (balance : ι → M) : List (Movement ι M) → Prop
  | [] => True
  | m :: ms => m.amount ≤ balance m.source ∧ Covered (balance+m.net) ms

instance Covered.decidable (balance : ι → M) :
    (ms : List (Movement ι M)) → Decidable (Covered balance ms)
  | [] => inferInstanceAs (Decidable True)
  | m :: ms =>
    have : Decidable (Covered (balance+m.net) ms) := Covered.decidable _ ms
    inferInstanceAs (Decidable (_ ∧ _))

section Covered

variable {balance : ι → M} {ms ms' : List (Movement ι M)}

theorem covered_append :
    Covered balance (ms ++ ms') ↔ Covered balance ms ∧ Covered (balance+nets ms) ms' := by
  induction ms generalizing balance with
  | nil => simp [Covered]
  | cons m ms ih =>
    simp only [List.cons_append,Covered,ih,nets_cons,add_assoc,and_assoc]

theorem covered_singleton {m : Movement ι M} : Covered balance [m] ↔ m.amount ≤ balance m.source := by
  simp [Covered]

theorem covered_iff : Covered balance ms ↔
    ∀ before m after, ms = before ++ m :: after → m.amount ≤ balance m.source + nets before m.source := by
  constructor
  · rintro h before m after rfl
    exact (covered_append.mp h).2.1
  · intro h
    induction ms generalizing balance with
    | nil => exact trivial
    | cons m ms ih =>
      refine ⟨by simpa using h [] m ms rfl,ih fun before m' after hms => ?_⟩
      have hturn := h (m :: before) m' after (by rw [hms,List.cons_append])
      rwa [nets_cons,Pi.add_apply,← add_assoc] at hturn

variable [IsOrderedAddMonoid M]

theorem covered_nonneg {m : Movement ι M} (hm : m.amount ≤ balance m.source)
    (h0 : 0 ≤ m.amount) {i : ι} (hi : 0 ≤ balance i) : 0 ≤ (balance+m.net) i := by
  simp only [Pi.add_apply,Movement.net]
  by_cases hs : m.source = i
  · subst hs
    rw [if_pos rfl,add_sub_assoc']
    have hrest : 0 ≤ balance m.source - m.amount := sub_nonneg.mpr hm
    split_ifs
    · simpa using hi
    · simpa using hrest
  · rw [if_neg hs,sub_zero]
    split_ifs
    · exact add_nonneg hi h0
    · simpa using hi

/-- What was moved can be moved back. -/
theorem Covered.undo (h : Covered balance ms)
    (hms : ∀ m ∈ ms, m.source ≠ m.target ∧ 0 ≤ m.amount ∧ 0 ≤ balance m.target) :
    Covered (balance+nets ms) (undo ms) := by
  induction ms generalizing balance with
  | nil => exact trivial
  | cons m ms ih =>
    obtain ⟨hm,hrest⟩ := h
    obtain ⟨hne,h0,htarget⟩ := hms m (by simp)
    have hback := ih hrest fun m' hm' => by
      obtain ⟨hne',h0',htarget'⟩ := hms m' (by simp [hm'])
      exact ⟨hne',h0',covered_nonneg hm h0 htarget'⟩
    rw [undo_cons,covered_append,nets_cons,← add_assoc]
    refine ⟨hback,?_⟩
    rw [nets_undo,add_neg_cancel_right,covered_singleton]
    simpa [Movement.back,net_target hne] using htarget

theorem covered_parts {a b : ι} (hab : a ≠ b) {xs : List M} (hxs : ∀ x ∈ xs, 0 ≤ x) (hne : xs ≠ []) :
    Covered balance (xs.map fun x => ⟨a,b,x⟩) ↔ xs.sum ≤ balance a := by
  induction xs generalizing balance with
  | nil => exact absurd rfl hne
  | cons x xs ih =>
    have hnet : (balance+(⟨a,b,x⟩ : Movement ι M).net) a = balance a-x := by
      rw [Pi.add_apply,net_source hab,sub_eq_add_neg]
    have hrest : ∀ y ∈ xs, 0 ≤ y := fun y hy => hxs y (by simp [hy])
    rw [List.map_cons,Covered,List.sum_cons]
    cases xs with
    | nil => simp [Covered]
    | cons y ys =>
      rw [ih hrest (by simp),hnet,le_sub_iff_add_le']
      have hsum : 0 ≤ (y :: ys).sum := List.sum_nonneg hrest
      exact and_iff_right_of_imp fun h => (le_add_of_nonneg_right hsum).trans h

end Covered

end Accounting
