import HomeRest.Entity
import HomeRest.RelyGuarantee

/-! `HibernateSessionUtils`: one session factory for all calls.
The factory is built by the first call that finds none, without a lock. Calls one after the
other keep at most one registry alive; calls at the same time can build several, but a call
whose own steps work always comes back with a factory. -/
namespace HomeRest

open AtomicProgram

/-- A factory, named by the registry that it was built on. -/
structure SessionFactory where
  registry : ℕ
  deriving DecidableEq

/-- The static fields, and what became of the registries: they are numbered as they are built. -/
structure HibernateSessionUtils where
  registry : Option ℕ := none
  sessionFactory : Option SessionFactory := none
  built : ℕ := 0
  destroyed : List ℕ := []
  deriving DecidableEq

/-- Reads and writes of the static fields, and the steps of Hibernate that may throw. -/
inductive SessionStep
  | readSessionFactory
  | writeSessionFactory (factory : SessionFactory)
  | readRegistry
  | writeRegistry (registry : ℕ)
  | configure (fault : Option Throwable)
  | buildSessionFactory (fault : Option Throwable) (registry : ℕ)
  | destroy (registry : ℕ)

abbrev SessionStep.Answer : SessionStep → Type
  | .readSessionFactory => Option SessionFactory
  | .readRegistry => Option ℕ
  | .configure _ => ℕ
  | .buildSessionFactory _ _ => SessionFactory
  | .writeSessionFactory _ | .writeRegistry _ | .destroy _ => Unit

abbrev SessionCode := Program SessionStep SessionStep.Answer Throwable

namespace HibernateSessionUtils

def attempt {α : Type} (fault : Option Throwable) (a : α) (s' s : HibernateSessionUtils) :
    Except Throwable α × HibernateSessionUtils :=
  match fault with
  | none => (.ok a,s')
  | some e => (.error e,s)

@[simp] theorem attempt_none {α : Type} (a : α) (s' s : HibernateSessionUtils) :
    attempt none a s' s = (.ok a,s') := rfl
@[simp] theorem attempt_some {α : Type} (e : Throwable) (a : α) (s' s : HibernateSessionUtils) :
    attempt (some e) a s' s = (.error e,s) := rfl

def serve : Server SessionStep SessionStep.Answer Throwable HibernateSessionUtils
  | .readSessionFactory, s => (.ok s.sessionFactory,s)
  | .writeSessionFactory factory, s => (.ok (),{s with sessionFactory := some factory})
  | .readRegistry, s => (.ok s.registry,s)
  | .writeRegistry registry, s => (.ok (),{s with registry := some registry})
  | .configure fault, s => attempt fault s.built {s with built := s.built+1} s
  | .buildSessionFactory fault registry, s => attempt fault ⟨registry⟩ s s
  | .destroy registry, s => (.ok (),{s with destroyed := registry :: s.destroyed})

/-- What the steps of one call meet. -/
structure Meets where
  configure : Option Throwable
  build : Option Throwable
  deriving DecidableEq

def Meets.Works (m : Meets) : Prop := m.configure = none ∧ m.build = none

instance : DecidablePred Meets.Works := fun _ => inferInstanceAs (Decidable (_ ∧ _))

/-- `if (registry != null) destroy(registry)`, with both of its reads. The field never becomes
null again, so the second read finds a registry, maybe another one. -/
def destroyRegistry : SessionCode Unit := do
  match ← Program.perform SessionStep.readRegistry with
  | none => return ()
  | some first =>
    let registry ← Program.perform SessionStep.readRegistry
    Program.perform (SessionStep.destroy (registry.getD first))

def build (m : Meets) : SessionCode Unit := do
  let first ← Program.perform (SessionStep.configure m.configure)
  Program.perform (SessionStep.writeRegistry first)
  let registry ← Program.perform SessionStep.readRegistry
  let factory ← Program.perform (SessionStep.buildSessionFactory m.build (registry.getD first))
  Program.perform (SessionStep.writeSessionFactory factory)

def getSessionFactory (m : Meets) : SessionCode (Option SessionFactory) := do
  match ← Program.perform SessionStep.readSessionFactory with
  | some _ => Program.perform SessionStep.readSessionFactory
  | none =>
    Program.handle (build m) fun _ => destroyRegistry
    Program.perform SessionStep.readSessionFactory

def shutdown : SessionCode Unit := destroyRegistry

/-! ### Calls one after the other -/

inductive Use
  | getSessionFactory (m : Meets)
  | shutdown
  deriving DecidableEq

def Use.run : Use → HibernateSessionUtils → HibernateSessionUtils
  | .getSessionFactory m, s => ((HibernateSessionUtils.getSessionFactory m).run serve s).2
  | .shutdown, s => (HibernateSessionUtils.shutdown.run serve s).2

def after (uses : List Use) (s : HibernateSessionUtils) : HibernateSessionUtils :=
  uses.foldl (fun s use => use.run s) s

def Alive (s : HibernateSessionUtils) (registry : ℕ) : Prop :=
  registry < s.built ∧ registry ∉ s.destroyed

/-- A registry is alive under the published factory only. -/
structure Tidy (s : HibernateSessionUtils) : Prop where
  alive : ∀ r, s.Alive r → s.sessionFactory = some ⟨r⟩
  published : ∀ f, s.sessionFactory = some f → s.registry = some f.registry
  numbered : ∀ r, s.registry = some r → r < s.built
  past : ∀ r ∈ s.destroyed, r < s.built

section Turns

variable {s : HibernateSessionUtils} {m : Meets}

theorem destroyRegistry_run (s : HibernateSessionUtils) : destroyRegistry.run serve s =
    (.ok (),{s with destroyed := s.registry.toList ++ s.destroyed}) := by
  obtain ⟨registry,sessionFactory,built,destroyed⟩ := s
  cases registry <;> rfl

theorem getSessionFactory_published {f : SessionFactory} (h : s.sessionFactory = some f) :
    (getSessionFactory m).run serve s = (.ok (some f),s) := by
  simp [getSessionFactory,Program.run_cont,serve,h]

theorem getSessionFactory_builds (h : s.sessionFactory = none) (hm : m.Works) :
    (getSessionFactory m).run serve s = (.ok (some ⟨s.built⟩),{s with
      registry := some s.built
      sessionFactory := some ⟨s.built⟩
      built := s.built+1}) := by
  obtain ⟨hc,hb⟩ := hm
  simp [getSessionFactory,build,Program.handle,Program.run_cont,serve,h,hc,hb]

/-- A call that fails destroys the registry that it finds: its own, or an old one. -/
theorem getSessionFactory_fails (h : s.sessionFactory = none) (hm : ¬ m.Works) :
    ∃ registry built, (getSessionFactory m).run serve s = (.ok none,{s with
        registry := registry
        built := built
        destroyed := registry.toList ++ s.destroyed}) ∧
      (registry = s.registry ∧ built = s.built ∨ registry = some s.built ∧ built = s.built+1) := by
  cases hc : m.configure with
  | some e =>
    refine ⟨s.registry,s.built,?_,.inl ⟨rfl,rfl⟩⟩
    simp [getSessionFactory,build,Program.handle,Program.run_cont,serve,h,hc,destroyRegistry_run]
  | none =>
    cases hb : m.build with
    | some e =>
      refine ⟨some s.built,s.built+1,?_,.inr ⟨rfl,rfl⟩⟩
      simp [getSessionFactory,build,Program.handle,Program.run_cont,serve,h,hc,hb,destroyRegistry_run]
    | none => exact absurd ⟨hc,hb⟩ hm

theorem Tidy.past_iff (h : s.Tidy) (hf : s.sessionFactory = none) (r : ℕ) :
    r ∈ s.destroyed ↔ r < s.built := by
  refine ⟨h.past r,fun hr => ?_⟩
  by_contra hrd
  cases hf.symm.trans (h.alive r ⟨hr,hrd⟩)

theorem Tidy.works {m : Meets} (h : s.Tidy) (hf : s.sessionFactory = none) (hm : m.Works) :
    ((Use.getSessionFactory m).run s).Tidy := by
  rw [Use.run,getSessionFactory_builds hf hm]
  refine ⟨?_,?_,?_,?_⟩
  · rintro r ⟨hr,hrd⟩
    rw [h.past_iff hf] at hrd
    have hlast : r = s.built := by
      simp only at hr
      omega
    rw [hlast]
  · rintro f ⟨⟩
    rfl
  · rintro r ⟨⟩
    exact Nat.lt_succ_self _
  · exact fun r hr => Nat.lt_succ_of_lt (h.past r hr)

theorem Tidy.fails {m : Meets} (h : s.Tidy) (hf : s.sessionFactory = none) (hm : ¬ m.Works) :
    ((Use.getSessionFactory m).run s).Tidy := by
  obtain ⟨registry,built,hrun,hcase⟩ := getSessionFactory_fails hf hm
  have hregistry : ∀ r, registry = some r → r < built := by
    rcases hcase with ⟨rfl,rfl⟩ | ⟨rfl,rfl⟩
    · exact h.numbered
    · rintro r ⟨⟩
      exact Nat.lt_succ_self _
  have hmem : ∀ r, r ∈ registry.toList ++ s.destroyed ↔ registry = some r ∨ r < s.built := by
    intro r
    rw [List.mem_append,Option.mem_toList,h.past_iff hf]
  rw [Use.run,hrun]
  refine ⟨?_,?_,hregistry,?_⟩
  · rintro r ⟨hr,hrd⟩
    rw [hmem] at hrd
    rcases hcase with ⟨rfl,rfl⟩ | ⟨rfl,rfl⟩
    · exact absurd (.inr hr) hrd
    · simp only [Option.some.injEq] at hr hrd
      omega
  · intro f hf'
    cases hf.symm.trans hf'
  · intro r hrd
    rcases (hmem r).mp hrd with hr | hr
    · exact hregistry r hr
    · rcases hcase with ⟨rfl,rfl⟩ | ⟨rfl,rfl⟩
      · exact hr
      · exact Nat.lt_succ_of_lt hr

theorem Tidy.destroyed (h : s.Tidy) : (Use.shutdown.run s).Tidy := by
  rw [Use.run,shutdown,destroyRegistry_run]
  refine ⟨?_,h.published,h.numbered,?_⟩
  · rintro r ⟨hr,hrd⟩
    exact h.alive r ⟨hr,fun hmem => hrd (List.mem_append_right _ hmem)⟩
  · intro r hr
    rcases List.mem_append.mp hr with hr | hr
    · exact h.numbered r (Option.mem_toList.mp hr)
    · exact h.past r hr

theorem Tidy.step (h : s.Tidy) (use : Use) : (use.run s).Tidy := by
  cases use with
  | getSessionFactory m =>
    cases hf : s.sessionFactory with
    | some f =>
      rw [Use.run,getSessionFactory_published hf]
      exact h
    | none =>
      by_cases hm : m.Works
      · exact h.works hf hm
      · exact h.fails hf hm
  | shutdown => exact h.destroyed

theorem Tidy.after (h : s.Tidy) (uses : List Use) : (after uses s).Tidy := by
  induction uses generalizing s with
  | nil => exact h
  | cons use uses ih => exact ih (h.step use)

end Turns

/-! ### Calls at the same time -/

/-- What every step does to the fields; in a quiet run no call fails. -/
structure Moves (quiet : Prop) (s s' : HibernateSessionUtils) : Prop where
  published : s.sessionFactory ≠ none → s'.sessionFactory ≠ none
  kept : quiet → s'.destroyed = s.destroyed

section Together

variable {quiet : Prop} {m : Meets}

theorem moves_serve (op : SessionStep) (h : quiet → ∀ registry, op ≠ .destroy registry)
    (s : HibernateSessionUtils) : Moves quiet s (serve op s).2 := by
  cases op with
  | readSessionFactory => exact ⟨id,fun _ => rfl⟩
  | writeSessionFactory factory => exact ⟨fun _ => by simp [serve],fun _ => rfl⟩
  | readRegistry => exact ⟨id,fun _ => rfl⟩
  | writeRegistry registry => exact ⟨id,fun _ => rfl⟩
  | configure fault => cases fault <;> exact ⟨id,fun _ => rfl⟩
  | buildSessionFactory fault registry => cases fault <;> exact ⟨id,fun _ => rfl⟩
  | destroy registry => exact ⟨id,fun hq => absurd rfl (h hq registry)⟩

theorem stable_true : Stable (Moves quiet) fun _ => True := fun _ _ _ _ => trivial

theorem stable_published : Stable (Moves quiet) fun s => s.sessionFactory ≠ none :=
  fun _ _ hs hR => hR.published hs

theorem guarantees_step {β : Type} {op : SessionStep} {Q : Except Throwable β → HibernateSessionUtils → Prop}
    {f : op.Answer → SessionCode β} {h : Throwable → SessionCode β}
    (hop : quiet → ∀ registry, op ≠ .destroy registry)
    (hok : ∀ a, Guarantees serve (Moves quiet) Q (fun _ => True) (f a))
    (herror : ∀ s e, (serve op s).1 = .error e → Guarantees serve (Moves quiet) Q (fun _ => True) (h e)) :
    Guarantees serve (Moves quiet) Q (fun _ => True) ((Program.perform op).cont f h) := by
  apply guarantees_perform
  intro s _
  exact ⟨moves_serve op hop s,_,stable_true,trivial,fun a _ => hok a,fun e he => herror s e he⟩

def Attempted (m : Meets) : Except Throwable Unit → HibernateSessionUtils → Prop
  | .ok _, s => s.sessionFactory ≠ none
  | .error _, _ => ¬ m.Works

theorem build_guarantees (m : Meets) :
    Guarantees serve (Moves quiet) (Attempted m) (fun _ => True) (build m) := by
  have hlast : ∀ factory, Guarantees serve (Moves quiet) (Attempted m) (fun _ => True)
      (Program.perform (SessionStep.writeSessionFactory factory)) := by
    intro factory s _
    exact ⟨moves_serve _ (by simp) s,_,stable_published,by simp [serve],fun _ hs => hs⟩
  unfold build
  apply guarantees_step (by simp)
  · intro first
    apply guarantees_step (by simp)
    · intro _
      apply guarantees_step (by simp)
      · intro registry
        apply guarantees_step (by simp)
        · exact hlast
        · intro s e he _ _ hworks
          simp [serve,hworks.2] at he
      · intro s e he
        cases he
    · intro s e he
      cases he
  · intro s e he _ _ hworks
    simp [serve,hworks.1] at he

def Handled (m : Meets) (r : Except Throwable Unit) (s : HibernateSessionUtils) : Prop :=
  r = .ok () ∧ (m.Works → s.sessionFactory ≠ none)

theorem destroyRegistry_guarantees (hq : quiet → m.Works) :
    Guarantees serve (Moves quiet) (Handled m) (fun _ => ¬ m.Works) destroyRegistry := by
  by_cases hm : m.Works
  · exact fun _ hnot => absurd hm hnot
  have hdone : ∀ s, Handled m (.ok ()) s := fun _ => ⟨rfl,fun h => absurd h hm⟩
  have hdestroy : Guarantees serve (Moves quiet) (Handled m) (fun _ => True) destroyRegistry := by
    unfold destroyRegistry
    apply guarantees_step (by simp)
    · intro registry
      cases registry with
      | none => exact fun s _ => hdone s
      | some first =>
        apply guarantees_step (by simp)
        · intro registry s _
          exact ⟨moves_serve _ (fun h => absurd (hq h) hm) s,_,stable_true,trivial,
            fun s _ => hdone s⟩
        · intro s e he
          cases he
    · intro s e he
      cases he
  exact hdestroy.weaken fun _ _ => trivial

theorem getSessionFactory_guarantees (hq : quiet → m.Works) :
    Guarantees serve (Moves quiet) (fun r _ => ∃ found, r = .ok found ∧ (m.Works → found ≠ none))
      (fun _ => True) (getSessionFactory m) := by
  have hread : Guarantees serve (Moves quiet)
      (fun r _ => ∃ found, r = .ok found ∧ (m.Works → found ≠ none))
      (fun s => m.Works → s.sessionFactory ≠ none) (Program.perform SessionStep.readSessionFactory) := by
    intro s hs
    exact ⟨moves_serve _ (by simp) s,_,stable_true,trivial,fun _ _ => ⟨_,rfl,hs⟩⟩
  have hhandled : Guarantees serve (Moves quiet) (Handled m) (fun _ => True)
      (Program.handle (build m) fun _ => destroyRegistry) := by
    apply (build_guarantees m).cont
    · exact fun _ s hs => ⟨rfl,fun _ => hs⟩
    · exact fun _ => destroyRegistry_guarantees hq
  unfold getSessionFactory
  apply guarantees_perform
  intro s _
  refine ⟨moves_serve _ (by simp) s,?_⟩
  cases hf : s.sessionFactory with
  | some f =>
    refine ⟨_,stable_published,by simp [serve,hf],?_,by simp [serve]⟩
    intro found hfound
    cases (show s.sessionFactory = found from Except.ok.inj hfound)
    rw [hf]
    exact hread.weaken fun _ hs _ => hs
  | none =>
    refine ⟨_,stable_true,trivial,?_,by simp [serve]⟩
    intro found hfound
    cases (show s.sessionFactory = found from Except.ok.inj hfound)
    rw [hf]
    apply hhandled.cont
    · exact fun _ => hread.weaken fun _ hs => hs.2
    · rintro e s ⟨⟨⟩,-⟩

end Together

end HibernateSessionUtils

open HibernateSessionUtils in
/-- Calls at the same time, in any interleaving. No call throws, a call whose steps work comes
back with a factory, and if no call fails no registry is destroyed. -/
theorem sessions_together {ι : Type} [DecidableEq ι] (meets : ι → Meets) (s : HibernateSessionUtils)
    (schedule : List ι) :
    (∀ i r, ((Config.start s fun i => getSessionFactory (meets i)).runs serve schedule).thread i =
      .ofExcept r → ∃ found, r = .ok found ∧ ((meets i).Works → found ≠ none)) ∧
    ((∀ i, (meets i).Works) →
      ((Config.start s fun i => getSessionFactory (meets i)).runs serve schedule).shared.destroyed =
        s.destroyed) := by
  have hrelies : Relies serve (Moves (∀ i, (meets i).Works))
      (fun i r _ => ∃ found, r = .ok found ∧ ((meets i).Works → found ≠ none)) (fun _ _ => True)
      (Config.start s fun i => getSessionFactory (meets i)) :=
    ⟨fun _ => stable_true,fun _ => trivial,fun i => getSessionFactory_guarantees fun h => h i⟩
  have hkept : Stable (Moves (∀ i, (meets i).Works))
      fun s' => (∀ i, (meets i).Works) → s'.destroyed = s.destroyed :=
    fun _ _ hs hR hq => (hR.kept hq).trans (hs hq)
  obtain ⟨hdestroyed,houtcome⟩ := runs_guaranteed hkept hrelies (fun _ => rfl) schedule
  exact ⟨houtcome,hdestroyed⟩

open HibernateSessionUtils in
/-- Without a lock a call that fails can destroy the registry of the factory that another call
has published. -/
example : ((Config.start {} fun i : Bool => getSessionFactory ⟨none,if i then none else
    some .nullPointer⟩).runs serve ([false,false,false,true,true,true,true,true,true] ++
      List.replicate 5 false)).shared =
    {registry := some 1,sessionFactory := some ⟨1⟩,built := 2,destroyed := [1]} := by
  decide +kernel

end HomeRest
