import HomeRest.Program

/-! Interleavings of programs that share the state of a server.
A schedule names the thread of each step; a step answers one call. What a thread may do is
described by phases: `Follows` says that a program keeps to the transitions between
phases, whatever the others do to the state between its calls. -/
namespace AtomicProgram

variable {Op : Type} {Ans : Op → Type} {ε α β σ φ ι : Type}

/-- The shared state, what is left of each thread, and the calls answered so far, the
latest first. -/
structure Config (Op : Type) (Ans : Op → Type) (ε α σ ι : Type) where
  shared : σ
  thread : ι → Program Op Ans ε α
  history : List (ι × Op)

namespace Config

variable [DecidableEq ι] (serve : Server Op Ans ε σ)

def start (s : σ) (thread : ι → Program Op Ans ε α) : Config Op Ans ε α σ ι := ⟨s,thread,[]⟩

def step (c : Config Op Ans ε α σ ι) (i : ι) : Config Op Ans ε α σ ι :=
  match c.thread i with
  | .call op next =>
    ⟨(serve op c.shared).2,Function.update c.thread i (next (serve op c.shared).1),(i,op) :: c.history⟩
  | _ => c

def runs (c : Config Op Ans ε α σ ι) (schedule : List ι) : Config Op Ans ε α σ ι :=
  schedule.foldl (step serve) c

def Finished (c : Config Op Ans ε α σ ι) : Prop := ∀ i, (c.thread i).Done

@[simp] theorem runs_cons (c : Config Op Ans ε α σ ι) (i : ι) (schedule : List ι) :
    c.runs serve (i :: schedule) = (c.step serve i).runs serve schedule := rfl

theorem step_cases (c : Config Op Ans ε α σ ι) (i : ι) :
    (∃ op next, c.thread i = .call op next ∧ c.step serve i =
      ⟨(serve op c.shared).2,Function.update c.thread i (next (serve op c.shared).1),
        (i,op) :: c.history⟩) ∨ c.step serve i = c := by
  cases h : c.thread i with
  | ret a => exact .inr (by simp only [step,h])
  | raise e => exact .inr (by simp only [step,h])
  | call op next => exact .inl ⟨op,next,rfl,by simp only [step,h]⟩

theorem runs_invariant {I : σ → Prop} (hserve : ∀ op s, I s → I (serve op s).2)
    (c : Config Op Ans ε α σ ι) (h : I c.shared) (schedule : List ι) :
    I (c.runs serve schedule).shared := by
  induction schedule generalizing c with
  | nil => exact h
  | cons i schedule ih =>
    rw [runs_cons]
    apply ih
    rcases step_cases serve c i with ⟨op,next,-,hs⟩ | hs
    · rw [hs]
      exact hserve op _ h
    · rw [hs]
      exact h

/-- Every call along the schedule is made in a state that its guard allows. -/
def Obeys (guard : Op → σ → Prop) : Config Op Ans ε α σ ι → List ι → Prop
  | _, [] => True
  | c, i :: schedule => (∀ op next, c.thread i = .call op next → guard op c.shared) ∧
      Obeys guard (c.step serve i) schedule

/-- The rule for guarded calls: if the guard says which calls keep a property, then it holds
in every state on the way exactly when the schedule obeys the guard. -/
theorem runs_guarded {I : σ → Prop} {guard : Op → σ → Prop}
    (hserve : ∀ op s, I s → (I (serve op s).2 ↔ guard op s)) (c : Config Op Ans ε α σ ι)
    (h : I c.shared) (schedule : List ι) :
    (∀ before, before <+: schedule → I (c.runs serve before).shared) ↔
      c.Obeys serve guard schedule := by
  induction schedule generalizing c with
  | nil =>
    simp only [Obeys,iff_true]
    intro before hbefore
    rw [List.prefix_nil.mp hbefore]
    exact h
  | cons i schedule ih =>
    have hstep : I (c.step serve i).shared ↔
        ∀ op next, c.thread i = .call op next → guard op c.shared := by
      cases hthread : c.thread i with
      | ret a => simp only [step,hthread,h,reduceCtorEq,false_imp_iff,implies_true]
      | raise e => simp only [step,hthread,h,reduceCtorEq,false_imp_iff,implies_true]
      | call op next =>
        simp only [step,hthread]
        rw [hserve op _ h]
        constructor
        · rintro hg op' next' ⟨⟩
          exact hg
        · exact fun hg => hg op next rfl
    constructor
    · intro hall
      have hi : I (c.step serve i).shared := hall [i] (by simp)
      refine ⟨hstep.mp hi,(ih _ hi).mp ?_⟩
      intro before hbefore
      exact hall (i :: before) (List.prefix_cons_inj i |>.mpr hbefore)
    · rintro ⟨hg,hobeys⟩ before hbefore
      have hi := hstep.mpr hg
      cases before with
      | nil => exact h
      | cons j before =>
        obtain ⟨rfl,hrest⟩ := List.cons_prefix_cons.mp hbefore
        exact (ih _ hi).mpr hobeys before hrest

theorem history_suffix (c : Config Op Ans ε α σ ι) (schedule : List ι) :
    c.history <:+ (c.runs serve schedule).history := by
  induction schedule generalizing c with
  | nil => exact List.suffix_rfl
  | cons i schedule ih =>
    rw [runs_cons]
    refine List.IsSuffix.trans ?_ (ih _)
    rcases step_cases serve c i with ⟨op,next,-,hs⟩ | hs
    · rw [hs]
      exact List.suffix_cons _ _
    · rw [hs]

end Config

section Follows

variable (serve : Server Op Ans ε σ) (J : σ → Prop) (Step : φ → Op → σ → φ → Prop)

/-- From a phase, the program takes steps of the automaton on every state that satisfies
`J`, and ends in a phase that `Q` allows for its outcome. -/
def Follows (Q : Except ε α → φ → Prop) : φ → Program Op Ans ε α → Prop
  | ph, .ret a => Q (.ok a) ph
  | ph, .raise e => Q (.error e) ph
  | ph, .call op next => ∀ s, J s → ∃ ph', Step ph op s ph' ∧ Follows Q ph' (next (serve op s).1)

variable {serve J Step} {Q : Except ε α → φ → Prop} {R : Except ε β → φ → Prop} {ph : φ}

@[simp] theorem follows_ret {a : α} : Follows serve J Step Q ph (.ret a) ↔ Q (.ok a) ph := Iff.rfl
@[simp] theorem follows_raise {e : ε} :
    Follows serve J Step Q ph (.raise e) ↔ Q (.error e) ph := Iff.rfl
theorem Follows.cont {p : Program Op Ans ε α} {f : α → Program Op Ans ε β}
    {h : ε → Program Op Ans ε β} (hp : Follows serve J Step Q ph p)
    (hf : ∀ a ph', Q (.ok a) ph' → Follows serve J Step R ph' (f a))
    (hh : ∀ e ph', Q (.error e) ph' → Follows serve J Step R ph' (h e)) :
    Follows serve J Step R ph (p.cont f h) := by
  induction p generalizing ph with
  | ret a => exact hf a ph hp
  | raise e => exact hh e ph hp
  | call op next ih =>
    intro s hs
    obtain ⟨ph',hstep,hnext⟩ := hp s hs
    exact ⟨ph',hstep,ih _ hnext⟩

theorem Follows.imp {Q' : Except ε α → φ → Prop} {p : Program Op Ans ε α}
    (hp : Follows serve J Step Q ph p) (h : ∀ r ph', Q r ph' → Q' r ph') :
    Follows serve J Step Q' ph p := by
  induction p generalizing ph with
  | ret a => exact h _ _ hp
  | raise e => exact h _ _ hp
  | call op next ih =>
    intro s hs
    obtain ⟨ph',hstep,hnext⟩ := hp s hs
    exact ⟨ph',hstep,ih _ hnext⟩

theorem Follows.allow {Step' : φ → Op → σ → φ → Prop} {p : Program Op Ans ε α}
    (hp : Follows serve J Step Q ph p) (h : ∀ ph op s ph', Step ph op s ph' → Step' ph op s ph') :
    Follows serve J Step' Q ph p := by
  induction p generalizing ph with
  | ret a => exact hp
  | raise e => exact hp
  | call op next ih =>
    intro s hs
    obtain ⟨ph',hstep,hnext⟩ := hp s hs
    exact ⟨ph',h _ _ _ _ hstep,ih _ hnext⟩

theorem follows_ofExcept {x : Except ε α} :
    Follows serve J Step Q ph (Program.ofExcept x) ↔ Q x ph := by
  cases x <;> rfl

theorem follows_perform {op : Op} {f : Ans op → Program Op Ans ε β} {h : ε → Program Op Ans ε β}
    (H : ∀ s, J s → ∃ ph', Step ph op s ph' ∧
      (∀ a, (serve op s).1 = .ok a → Follows serve J Step R ph' (f a)) ∧
      (∀ e, (serve op s).1 = .error e → Follows serve J Step R ph' (h e))) :
    Follows serve J Step R ph ((Program.perform op).cont f h) := by
  rw [Program.perform_cont]
  intro s hs
  obtain ⟨ph',hstep,hok,herror⟩ := H s hs
  refine ⟨ph',hstep,?_⟩
  cases hans : (serve op s).1 with
  | ok a => exact hok a hans
  | error e => exact herror e hans

theorem Follows.done {p : Program Op Ans ε α} (h : Follows serve J Step Q ph p) (hd : p.Done) :
    ∃ r, Q r ph := by
  cases p with
  | ret a => exact ⟨_,h⟩
  | raise e => exact ⟨_,h⟩
  | call op next => exact hd.elim

end Follows

section Rule

variable [DecidableEq ι] (serve : Server Op Ans ε σ) {J : σ → Prop}
  (Step : ι → φ → Op → σ → φ → Prop) {Q : ι → Except ε α → φ → Prop}
  {I : List (ι × Op) → σ → (ι → φ) → Prop} {P : List (ι × Op) → Prop}

/-- The rule for interleavings: an invariant of history, state and phases that every
transition of every thread keeps holds in every state reached. `P` restricts the histories
that are looked at. -/
theorem runs_follow (hJ : ∀ history s ph, I history s ph → J s)
    (hP : ∀ event history, P (event :: history) → P history)
    (hI : ∀ history s ph i op ph', I history s ph → Step i (ph i) op s ph' → P ((i,op) :: history) →
      I ((i,op) :: history) (serve op s).2 (Function.update ph i ph'))
    (c : Config Op Ans ε α σ ι) (ph : ι → φ) (hc : I c.history c.shared ph)
    (hfollow : ∀ i, Follows serve J (Step i) (Q i) (ph i) (c.thread i)) (schedule : List ι)
    (hclean : P (c.runs serve schedule).history) :
    ∃ ph', I (c.runs serve schedule).history (c.runs serve schedule).shared ph' ∧
      ∀ i, Follows serve J (Step i) (Q i) (ph' i) ((c.runs serve schedule).thread i) := by
  induction schedule generalizing c ph with
  | nil => exact ⟨ph,hc,hfollow⟩
  | cons i schedule ih =>
    rw [Config.runs_cons] at hclean ⊢
    rcases Config.step_cases serve c i with ⟨op,next,hthread,hs⟩ | hs
    · have hi := hfollow i
      rw [hthread] at hi
      obtain ⟨ph',hstep,hnext⟩ := hi c.shared (hJ _ _ _ hc)
      have hclean' : P ((i,op) :: c.history) := by
        have hsuffix : (i,op) :: c.history <:+ ((c.step serve i).runs serve schedule).history := by
          have h := Config.history_suffix serve (c.step serve i) schedule
          rwa [hs] at h ⊢
        obtain ⟨later,hlater⟩ := hsuffix
        rw [← hlater] at hclean
        clear hlater ih hnext hstep hi hs hthread
        induction later with
        | nil => exact hclean
        | cons event later ihl => exact ihl (hP _ _ hclean)
      refine ih (c.step serve i) (Function.update ph i ph') ?_ ?_ hclean
      · rw [hs]
        exact hI _ _ _ i op ph' hc hstep hclean'
      · intro j
        rw [hs]
        by_cases hji : j = i
        · subst hji
          simpa using hnext
        · simpa [Function.update_of_ne hji] using hfollow j
    · rw [hs] at hclean ⊢
      exact ih c ph hc hfollow hclean

end Rule
end AtomicProgram
