import HomeRest.Interleaving

/-! Programs that end after a number of their own calls.
The bound holds on every path, also on answers that no server gives. A thread that gets as
many turns has then ended, whatever the other threads do in between. -/
namespace AtomicProgram

variable {Op : Type} {Ans : Op → Type} {ε α β σ ι : Type}

/-- No path through the program has more than this many calls. -/
def Within : ℕ → Program Op Ans ε α → Prop
  | _, .ret _ => True
  | _, .raise _ => True
  | 0, .call _ _ => False
  | n+1, .call _ next => ∀ r, Within n (next r)

variable {n m : ℕ} {p : Program Op Ans ε α}

@[simp] theorem within_ret (n : ℕ) (a : α) : Within n (.ret a : Program Op Ans ε α) := by
  cases n <;> exact trivial
@[simp] theorem within_raise (n : ℕ) (e : ε) : Within n (.raise e : Program Op Ans ε α) := by
  cases n <;> exact trivial
@[simp] theorem within_ofExcept (n : ℕ) (x : Except ε α) :
    Within n (.ofExcept x : Program Op Ans ε α) := by
  cases x <;> simp

theorem within_call {op : Op} {next : Except ε (Ans op) → Program Op Ans ε α} :
    Within (n+1) (.call op next) ↔ ∀ r, Within n (next r) := Iff.rfl

theorem within_zero : Within 0 p ↔ p.Done := by
  cases p <;> rfl

theorem Within.mono (h : Within n p) (hnm : n ≤ m) : Within m p := by
  induction p generalizing n m with
  | ret a => simp
  | raise e => simp
  | call op next ih =>
    cases n with
    | zero => exact h.elim
    | succ n =>
      obtain ⟨m,rfl⟩ := Nat.exists_eq_add_of_lt hnm
      exact fun r => ih r (h r) (by omega)

theorem Within.cont {f : α → Program Op Ans ε β} {h : ε → Program Op Ans ε β} (hp : Within n p)
    (hf : ∀ a, Within m (f a)) (hh : ∀ e, Within m (h e)) : Within (n+m) (p.cont f h) := by
  induction p generalizing n with
  | ret a => exact (hf a).mono (by omega)
  | raise e => exact (hh e).mono (by omega)
  | call op next ih =>
    cases n with
    | zero => exact hp.elim
    | succ n =>
      rw [Program.call_cont,Nat.succ_add]
      exact fun r => ih r (hp r)

theorem Within.andThen {f : α → Program Op Ans ε β} (hp : Within n p) (hf : ∀ a, Within m (f a)) :
    Within (n+m) (p.cont f .raise) :=
  hp.cont hf fun _ => within_raise _ _

theorem Within.free {f : α → Program Op Ans ε β} (hp : Within 0 p) (hf : ∀ a, Within m (f a)) :
    Within m (p.cont f .raise) := by
  simpa using hp.andThen hf

theorem within_perform (op : Op) : Within 1 (.perform op : Program Op Ans ε (Ans op)) := by
  intro r
  cases r <;> simp

variable [DecidableEq ι] {serve : Server Op Ans ε σ}

theorem Within.step {c : Config Op Ans ε α σ ι} {i : ι} (h : Within (n+1) (c.thread i)) :
    Within n ((c.step serve i).thread i) := by
  cases hc : c.thread i with
  | ret a => simp [Config.step,hc]
  | raise e => simp [Config.step,hc]
  | call op next =>
    rw [hc,within_call] at h
    simpa [Config.step,hc] using h _

theorem step_thread_ne (c : Config Op Ans ε α σ ι) {i j : ι} (h : j ≠ i) :
    (c.step serve i).thread j = c.thread j := by
  rcases Config.step_cases serve c i with ⟨op,next,-,hs⟩ | hs
  · rw [hs]
    exact Function.update_of_ne h _ _
  · rw [hs]

/-- The rule of progress: threads that get the turns they need have ended. -/
theorem runs_finished (c : Config Op Ans ε α σ ι) (schedule : List ι)
    (h : ∀ i, Within (schedule.count i) (c.thread i)) : (c.runs serve schedule).Finished := by
  induction schedule generalizing c with
  | nil => exact fun i => within_zero.mp (h i)
  | cons i schedule ih =>
    rw [Config.runs_cons]
    apply ih
    intro j
    have hj := h j
    by_cases hji : j = i
    · subst hji
      rw [List.count_cons_self] at hj
      exact hj.step
    · rw [step_thread_ne c hji]
      rwa [List.count_cons_of_ne (Ne.symm hji)] at hj

end AtomicProgram
