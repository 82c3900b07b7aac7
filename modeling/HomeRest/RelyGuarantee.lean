import HomeRest.Interleaving

/-! What a thread may rely on while the others go on.
All threads move the state along one relation. What a thread has learnt of the state stays
true if the relation keeps it, and so can be used at every later call. -/
namespace AtomicProgram

variable {Op : Type} {Ans : Op → Type} {ε α β σ ι : Type}

def Stable (R : σ → σ → Prop) (K : σ → Prop) : Prop := ∀ s s', K s → R s s' → K s'

/-- What is known at a call may be used at it; the call moves the state along the relation,
and what is known afterwards is stable. `Q` holds at the end. -/
def Guarantees (serve : Server Op Ans ε σ) (R : σ → σ → Prop) (Q : Except ε α → σ → Prop) :
    (σ → Prop) → Program Op Ans ε α → Prop
  | K, .ret a => ∀ s, K s → Q (.ok a) s
  | K, .raise e => ∀ s, K s → Q (.error e) s
  | K, .call op next => ∀ s, K s → R s (serve op s).2 ∧
      ∃ K', Stable R K' ∧ K' (serve op s).2 ∧ Guarantees serve R Q K' (next (serve op s).1)

section Rules

variable {serve : Server Op Ans ε σ} {R : σ → σ → Prop} {Q : Except ε α → σ → Prop}
  {Q' : Except ε β → σ → Prop} {K K' : σ → Prop} {p : Program Op Ans ε α}

theorem Guarantees.weaken (h : Guarantees serve R Q K p) (hK : ∀ s, K' s → K s) :
    Guarantees serve R Q K' p := by
  cases p with
  | ret a => exact fun s hs => h s (hK s hs)
  | raise e => exact fun s hs => h s (hK s hs)
  | call op next => exact fun s hs => h s (hK s hs)

theorem Guarantees.cont {f : α → Program Op Ans ε β} {h : ε → Program Op Ans ε β}
    (hp : Guarantees serve R Q K p) (hf : ∀ a, Guarantees serve R Q' (Q (.ok a)) (f a))
    (hh : ∀ e, Guarantees serve R Q' (Q (.error e)) (h e)) :
    Guarantees serve R Q' K (p.cont f h) := by
  induction p generalizing K with
  | ret a => exact (hf a).weaken hp
  | raise e => exact (hh e).weaken hp
  | call op next ih =>
    intro s hs
    obtain ⟨hR,K',hstable,hK',hnext⟩ := hp s hs
    exact ⟨hR,K',hstable,hK',ih _ hnext⟩

theorem guarantees_perform {op : Op} {f : Ans op → Program Op Ans ε β} {h : ε → Program Op Ans ε β}
    (H : ∀ s, K s → R s (serve op s).2 ∧ ∃ K', Stable R K' ∧ K' (serve op s).2 ∧
      (∀ a, (serve op s).1 = .ok a → Guarantees serve R Q' K' (f a)) ∧
      (∀ e, (serve op s).1 = .error e → Guarantees serve R Q' K' (h e))) :
    Guarantees serve R Q' K ((Program.perform op).cont f h) := by
  rw [Program.perform_cont]
  intro s hs
  obtain ⟨hR,K',hstable,hK',hok,herror⟩ := H s hs
  refine ⟨hR,K',hstable,hK',?_⟩
  cases hans : (serve op s).1 with
  | ok a => exact hok a hans
  | error e => exact herror e hans

end Rules

section Runs

variable [DecidableEq ι] {serve : Server Op Ans ε σ} {R : σ → σ → Prop}
  {Q : ι → Except ε α → σ → Prop}

/-- What each thread knows is true now, and carries it to its end. -/
structure Relies (serve : Server Op Ans ε σ) (R : σ → σ → Prop) (Q : ι → Except ε α → σ → Prop)
    (K : ι → σ → Prop) (c : Config Op Ans ε α σ ι) : Prop where
  stable : ∀ i, Stable R (K i)
  known : ∀ i, K i c.shared
  guarantees : ∀ i, Guarantees serve R (Q i) (K i) (c.thread i)

theorem Relies.step {K : ι → σ → Prop} {c : Config Op Ans ε α σ ι} (h : Relies serve R Q K c)
    (i : ι) : ∃ K', Relies serve R Q K' (c.step serve i) := by
  rcases Config.step_cases serve c i with ⟨op,next,hthread,hs⟩ | hs
  · have hi := h.guarantees i
    rw [hthread] at hi
    obtain ⟨hR,Ki,hstable,hknown,hnext⟩ := hi c.shared (h.known i)
    refine ⟨Function.update K i Ki,?_⟩
    rw [hs]
    constructor
    · intro j
      by_cases hji : j = i
      · subst hji
        simpa using hstable
      · simpa [Function.update_of_ne hji] using h.stable j
    · intro j
      by_cases hji : j = i
      · subst hji
        simpa using hknown
      · simpa [Function.update_of_ne hji] using h.stable j _ _ (h.known j) hR
    · intro j
      by_cases hji : j = i
      · subst hji
        simpa using hnext
      · simpa [Function.update_of_ne hji] using h.guarantees j
  · rw [hs]
    exact ⟨K,h⟩

/-- The rule for interleavings: stable assertions stay true, and every thread that has ended
has what it guarantees. -/
theorem runs_guaranteed {K₀ : σ → Prop} (hstable : Stable R K₀) {K : ι → σ → Prop}
    {c : Config Op Ans ε α σ ι} (h : Relies serve R Q K c) (h₀ : K₀ c.shared) (schedule : List ι) :
    K₀ (c.runs serve schedule).shared ∧ ∀ i r, (c.runs serve schedule).thread i = .ofExcept r →
      Q i r (c.runs serve schedule).shared := by
  induction schedule generalizing K c with
  | nil =>
    refine ⟨h₀,fun i r hr => ?_⟩
    have hi := h.guarantees i
    rw [show c.thread i = .ofExcept r from hr] at hi
    cases r with
    | ok a => exact hi _ (h.known i)
    | error e => exact hi _ (h.known i)
  | cons j schedule ih =>
    obtain ⟨K',hstep⟩ := h.step j
    refine ih hstep ?_
    rcases Config.step_cases serve c j with ⟨op,next,hthread,hs⟩ | hs
    · have hj := h.guarantees j
      rw [hthread] at hj
      rw [hs]
      exact hstable _ _ h₀ (hj c.shared (h.known j)).1
    · rw [hs]
      exact h₀

end Runs

end AtomicProgram
