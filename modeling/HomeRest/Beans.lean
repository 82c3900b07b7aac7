import Mathlib.Data.List.Nodup
import Mathlib.Tactic

/-! Objects written member by member from their getters and read back through setters.
A setter that takes what its getter returned, and leaves the other getters alone, makes
the order of the members irrelevant. -/
namespace Beans

/-- A property that is written. -/
structure Getter (α V : Type) where
  name : String
  get : α → V

/-- A property that is also read; its setter may refuse a value. -/
structure Property (α V ε : Type) extends Getter α V where
  set : V → α → Except ε α

abbrev Members (V : Type) := List (String × V)

variable {α V ε : Type}

def write (getters : List (Getter α V)) (a : α) : Members V := getters.map fun g => (g.name,g.get a)

section Read

variable (properties : List (Property α V ε)) (unknown : String → ε)

def getters : List (Getter α V) := properties.map Property.toGetter

def assign (a : α) (member : String × V) : Except ε α :=
  match properties.find? fun p => p.name == member.1 with
  | some p => p.set member.2 a
  | none => .error (unknown member.1)

def read (fresh : α) (members : Members V) : Except ε α :=
  members.foldlM (assign properties unknown) fresh

/-- The setter takes the value, and moves no other getter. -/
def Takes (p : Property α V ε) (v : V) : Prop :=
  ∀ a, ∃ a', p.set v a = .ok a' ∧ p.get a' = v ∧
    ∀ q ∈ properties, q.name ≠ p.name → q.get a' = q.get a

variable {properties unknown}

theorem mem_write {member : String × V} {a : α} :
    member ∈ write (getters properties) a ↔ ∃ p ∈ properties, (p.name,p.get a) = member := by
  simp [write,getters]

theorem names_write (a : α) :
    (write (getters properties) a).map Prod.fst = properties.map fun p => p.name := by
  simp [write,getters,Function.comp_def]

theorem assign_property (hn : (properties.map fun p => p.name).Nodup) {p : Property α V ε}
    (hp : p ∈ properties) (v : V) (a : α) : assign properties unknown a (p.name,v) = p.set v a := by
  unfold assign
  cases hq : properties.find? fun q => q.name == p.name with
  | none => simpa using List.find?_eq_none.mp hq p hp
  | some q =>
    have hname : q.name = p.name := by simpa using List.find?_some hq
    rw [List.inj_on_of_nodup_map hn (List.mem_of_find?_eq_some hq) hp hname]

/-- Members of an object, in any order and selection, set what they name and nothing else. -/
theorem read_members (hn : (properties.map fun p => p.name).Nodup) {a : α}
    (ht : ∀ p ∈ properties, Takes properties p (p.get a)) (members : Members V)
    (hm : ∀ member ∈ members, ∃ p ∈ properties, (p.name,p.get a) = member)
    (hd : (members.map Prod.fst).Nodup) (fresh : α) :
    ∃ a', read properties unknown fresh members = .ok a' ∧ ∀ p ∈ properties,
      p.get a' = if p.name ∈ members.map Prod.fst then p.get a else p.get fresh := by
  induction members generalizing fresh with
  | nil => exact ⟨fresh,rfl,by simp⟩
  | cons member members ih =>
    obtain ⟨p,hp,rfl⟩ := hm member (by simp)
    obtain ⟨hnot,hrest⟩ := List.nodup_cons.mp hd
    obtain ⟨b,hb,hget,hothers⟩ := ht p hp fresh
    obtain ⟨a',ha',hall⟩ := ih (fun m h => hm m (by simp [h])) hrest b
    refine ⟨a',?_,?_⟩
    · rw [read,List.foldlM_cons,assign_property hn hp,hb]
      exact ha'
    · intro q hq
      rw [hall q hq]
      by_cases hname : q.name = p.name
      · cases List.inj_on_of_nodup_map hn hq hp hname
        rw [if_neg hnot,hget]
        simp
      · rw [hothers q hq hname]
        exact if_congr (by simp [hname]) rfl rfl

/-- Whatever the order of its members, an object is read back getter by getter. -/
theorem read_write (hn : (properties.map fun p => p.name).Nodup) {a : α}
    (ht : ∀ p ∈ properties, Takes properties p (p.get a)) {members : Members V}
    (hm : members.Perm (write (getters properties) a)) (fresh : α) :
    ∃ a', read properties unknown fresh members = .ok a' ∧
      ∀ p ∈ properties, p.get a' = p.get a := by
  have hnames : (members.map Prod.fst).Perm (properties.map fun p => p.name) := by
    rw [← names_write a]
    exact hm.map _
  have hmembers : ∀ member ∈ members, ∃ p ∈ properties, (p.name,p.get a) = member :=
    fun member h => mem_write.mp (hm.mem_iff.mp h)
  obtain ⟨a',ha',hall⟩ : ∃ a', read properties unknown fresh members = .ok a' ∧ _ :=
    read_members hn ht members hmembers (hnames.nodup_iff.mpr hn) fresh
  refine ⟨a',ha',?_⟩
  intro p hp
  rw [hall p hp,if_pos (hnames.mem_iff.mpr (List.mem_map_of_mem hp))]

end Read
end Beans
