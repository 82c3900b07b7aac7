import Mathlib.Data.List.Nodup
import Mathlib.Order.Lattice
import Mathlib.Tactic

/-! Sorted sets whose membership is decided by a key.
An element whose key is already present is not added, as in a `ConcurrentSkipListSet`
ordered by a `compareTo` that looks at one field. -/
namespace SkipListSet

variable {α κ : Type} [LinearOrder κ] (k : α → κ)

/-- The elements in increasing order of their keys. -/
def add (x : α) : List α → List α
  | [] => [x]
  | y :: ys =>
    if k x < k y then x :: y :: ys
    else if k y < k x then y :: add x ys
    else y :: ys

def addAll (s xs : List α) : List α := xs.foldl (fun s x => add k x s) s

variable {k}

@[simp] theorem addAll_nil (s : List α) : addAll k s [] = s := rfl
@[simp] theorem addAll_cons (s : List α) (x : α) (xs : List α) :
    addAll k s (x :: xs) = addAll k (add k x s) xs := rfl

theorem mem_add {x y : α} {s : List α} (h : y ∈ add k x s) : y = x ∨ y ∈ s := by
  induction s with
  | nil => simpa [add] using h
  | cons z zs ih =>
    simp only [add] at h
    split_ifs at h
    · simpa using h
    · rcases List.mem_cons.mp h with rfl | h
      · simp
      · rcases ih h with rfl | h <;> simp [*]
    · exact .inr h

theorem mem_addAll {y : α} {s xs : List α} (h : y ∈ addAll k s xs) : y ∈ s ∨ y ∈ xs := by
  induction xs generalizing s with
  | nil => exact .inl h
  | cons x xs ih =>
    rcases ih h with h | h
    · rcases mem_add h with rfl | h <;> simp [*]
    · simp [h]

theorem add_ne_nil (x : α) (s : List α) : add k x s ≠ [] := by
  cases s with
  | nil => simp [add]
  | cons y ys => simp only [add]; split_ifs <;> simp

theorem addAll_ne_nil {s xs : List α} (h : s ≠ [] ∨ xs ≠ []) : addAll k s xs ≠ [] := by
  induction xs generalizing s with
  | nil => simpa using h
  | cons x xs ih => exact ih (.inl (add_ne_nil x s))

theorem add_perm {x : α} {s : List α} (h : k x ∉ s.map k) : (add k x s).Perm (x :: s) := by
  induction s with
  | nil => rfl
  | cons y ys ih =>
    simp only [List.map_cons,List.mem_cons,not_or] at h
    simp only [add]
    split_ifs with h₁ h₂
    · rfl
    · exact ((ih h.2).cons y).trans (List.Perm.swap x y ys)
    · exact absurd (le_antisymm (not_lt.mp h₂) (not_lt.mp h₁)) h.1

theorem add_sorted {x : α} {s : List α} (h : (s.map k).Pairwise (· < ·)) :
    ((add k x s).map k).Pairwise (· < ·) := by
  induction s with
  | nil => simp [add]
  | cons y ys ih =>
    simp only [List.map_cons,List.pairwise_cons,List.mem_map] at h
    simp only [add]
    split_ifs with h₁ h₂
    · simp only [List.map_cons,List.pairwise_cons,List.mem_cons,List.mem_map]
      refine ⟨?_,by simpa using h⟩
      rintro m (rfl | ⟨z,hz,rfl⟩)
      · exact h₁
      · exact h₁.trans (h.1 _ ⟨z,hz,rfl⟩)
    · simp only [List.map_cons,List.pairwise_cons,List.mem_map]
      refine ⟨?_,ih h.2⟩
      rintro m ⟨z,hz,rfl⟩
      rcases mem_add hz with rfl | hz
      · exact h₂
      · exact h.1 _ ⟨z,hz,rfl⟩
    · simpa using h

/-- A key that is present blocks the element. -/
theorem add_present {x : α} {s : List α} (hs : (s.map k).Pairwise (· < ·))
    (h : k x ∈ s.map k) : add k x s = s := by
  induction s with
  | nil => simp at h
  | cons y ys ih =>
    simp only [List.map_cons,List.pairwise_cons] at hs
    rcases List.mem_cons.mp h with he | h
    · simp [add,he]
    · have hlt : k y < k x := hs.1 _ h
      simp [add,hlt,not_lt.mpr hlt.le,ih hs.2 h]

theorem addAll_perm {s xs : List α} (h : ((s ++ xs).map k).Nodup) :
    (addAll k s xs).Perm (s ++ xs) := by
  induction xs generalizing s with
  | nil => simp
  | cons x xs ih =>
    have hmid : (s ++ x :: xs).Perm (x :: (s ++ xs)) := List.perm_middle
    have hn : (((x :: s) ++ xs).map k).Nodup := ((hmid.map k).nodup_iff).mp h
    have hx : k x ∉ s.map k := fun hm => by
      simp only [List.cons_append,List.map_cons,List.nodup_cons,List.map_append] at hn
      exact hn.1 (List.mem_append_left _ hm)
    have hp : (add k x s ++ xs).Perm (x :: (s ++ xs)) := (add_perm hx).append_right xs
    exact (ih (((hp.map k).nodup_iff).mpr hn)).trans (hp.trans hmid.symm)

theorem addAll_length_le (s xs : List α) : (addAll k s xs).length ≤ s.length + xs.length := by
  induction xs generalizing s with
  | nil => simp
  | cons x xs ih =>
    have hadd : (add k x s).length ≤ s.length+1 := by
      induction s with
      | nil => simp [add]
      | cons y ys ihs =>
        simp only [add]
        split_ifs <;> simp
        omega
    have h := ih (add k x s)
    simp only [addAll_cons,List.length_cons]
    omega

theorem addAll_length_lt {s xs : List α} (hs : (s.map k).Pairwise (· < ·))
    (h : ¬ ((s ++ xs).map k).Nodup) : (addAll k s xs).length < s.length + xs.length := by
  induction xs generalizing s with
  | nil =>
    have hn : (s.map k).Nodup := hs.imp fun hlt => ne_of_lt hlt
    exact absurd (by simpa using hn) h
  | cons x xs ih =>
    by_cases hx : k x ∈ s.map k
    · have hle := addAll_length_le (k := k) s xs
      simp only [addAll_cons,add_present hs hx,List.length_cons]
      omega
    · have hp : (add k x s ++ xs).Perm (s ++ x :: xs) :=
        ((add_perm hx).append_right xs).trans List.perm_middle.symm
      have hlt := ih (add_sorted hs) (fun hn => h (((hp.map k).nodup_iff).mp hn))
      have hlen : (add k x s).length = s.length+1 := by simpa using (add_perm hx).length_eq
      simp only [addAll_cons,List.length_cons]
      omega

/-- Filling an empty set keeps every element exactly when no two share a key. -/
theorem addAll_perm_iff (xs : List α) :
    (addAll k [] xs).Perm xs ↔ (xs.map k).Nodup := by
  constructor
  · intro hp
    by_contra hn
    have hlt := addAll_length_lt (s := []) (by simp) (by simpa using hn)
    have heq := hp.length_eq
    simp only [List.length_nil] at hlt
    omega
  · intro hn
    simpa using addAll_perm (s := []) (by simpa using hn)

theorem head_addAll_mem {xs : List α} {x : α} (h : (addAll k [] xs).head? = some x) : x ∈ xs := by
  have hm := mem_addAll (List.mem_of_head? h)
  simpa using hm

theorem head_addAll_isSome {xs : List α} (h : xs ≠ []) :
    ∃ x, (addAll k [] xs).head? = some x := by
  have hne := addAll_ne_nil (k := k) (s := []) (.inr h)
  cases hs : addAll k [] xs with
  | nil => exact absurd hs hne
  | cons x ys => exact ⟨x,rfl⟩

theorem keys_add {x : α} {s : List α} (hs : (s.map k).Pairwise (· < ·)) (d : κ) :
    d ∈ (add k x s).map k ↔ d = k x ∨ d ∈ s.map k := by
  by_cases hx : k x ∈ s.map k
  · rw [add_present hs hx]
    constructor
    · exact .inr
    · rintro (rfl | hd)
      · exact hx
      · exact hd
  · rw [((add_perm hx).map k).mem_iff,List.map_cons,List.mem_cons]

theorem addAll_sorted {s xs : List α} (hs : (s.map k).Pairwise (· < ·)) :
    ((addAll k s xs).map k).Pairwise (· < ·) := by
  induction xs generalizing s with
  | nil => exact hs
  | cons x xs ih => exact ih (add_sorted hs)

theorem keys_addAll {s xs : List α} (hs : (s.map k).Pairwise (· < ·)) (d : κ) :
    d ∈ (addAll k s xs).map k ↔ d ∈ s.map k ∨ d ∈ xs.map k := by
  induction xs generalizing s with
  | nil => simp
  | cons x xs ih =>
    rw [addAll_cons,ih (add_sorted hs),keys_add hs,List.map_cons,List.mem_cons]
    tauto

section Related

variable {β : Type} {k' : β → κ} {R : α → β → Prop}

theorem add_related (hR : ∀ x y, R x y → k x = k' y) {x : α} {y : β} (h : R x y) {s : List α}
    {s' : List β} (hs : List.Forall₂ R s s') : List.Forall₂ R (add k x s) (add k' y s') := by
  induction hs with
  | nil => exact .cons h .nil
  | cons hz hrest ih =>
    simp only [add,hR _ _ h,hR _ _ hz]
    split_ifs
    · exact .cons h (.cons hz hrest)
    · exact .cons hz ih
    · exact .cons hz hrest

theorem addAll_related (hR : ∀ x y, R x y → k x = k' y) {xs : List α} {ys : List β}
    (h : List.Forall₂ R xs ys) {s : List α} {s' : List β} (hs : List.Forall₂ R s s') :
    List.Forall₂ R (addAll k s xs) (addAll k' s' ys) := by
  induction h generalizing s s' with
  | nil => exact hs
  | cons hxy _ ih => exact ih (add_related hR hxy hs)

end Related

end SkipListSet
