import HomeRest.Interleaving

/-! Programs that keep to their part of the state.
A view is what a group of threads works on. The calls of the group see nothing else and move
nothing else in it, and the calls of the others leave it alone. Whatever the schedule, the
group then does what it does alone on its view. The same holds of programs run alone. -/
namespace AtomicProgram

variable {Op : Type} {Ans : Op → Type} {ε α β σ τ ι : Type}

/-- In all states that meet the invariant, calls of the group act on the view, and calls of the
others do not touch it. -/
structure View (serve : Server Op Ans ε σ) (serve' : Server Op Ans ε τ) (view : σ → τ)
    (I : σ → Prop) (own other : Op → Prop) : Prop where
  answers : ∀ op s, I s → own op → (serve op s).1 = (serve' op (view s)).1
  moves : ∀ op s, I s → own op → view (serve op s).2 = (serve' op (view s)).2
  keeps : ∀ op s, I s → other op → view (serve op s).2 = view s
  invOwn : ∀ op s, I s → own op → I (serve op s).2
  invOther : ∀ op s, I s → other op → I (serve op s).2

/-- Every call that the program can come to is of this kind. -/
def Issues (serve : Server Op Ans ε σ) (kind : Op → Prop) (p : Program Op Ans ε α) : Prop :=
  Follows serve (fun _ => True) (fun (_ : Unit) op _ _ => kind op) (fun _ _ => True) () p

section Issues

variable {serve : Server Op Ans ε σ} {kind kind' : Op → Prop} {p : Program Op Ans ε α}

theorem issues_call {op : Op} {next : Except ε (Ans op) → Program Op Ans ε α} :
    Issues serve kind (.call op next) ↔
      ∀ s, kind op ∧ Issues serve kind (next (serve op s).1) := by
  constructor
  · intro h s
    obtain ⟨_,hop,hnext⟩ := h s trivial
    exact ⟨hop,hnext⟩
  · exact fun h s _ => ⟨(),h s⟩

theorem Issues.imp (h : Issues serve kind p) (hk : ∀ op, kind op → kind' op) :
    Issues serve kind' p := by
  induction p with
  | ret a => exact trivial
  | raise e => exact trivial
  | call op next ih =>
    rw [issues_call] at h ⊢
    exact fun s => ⟨hk op (h s).1,ih _ (h s).2⟩

theorem Issues.silent {f : α → Program Op Ans ε β} {h : ε → Program Op Ans ε β}
    (hp : Issues serve kind p) (hf : ∀ a, (f a).Done) (hh : ∀ e, (h e).Done) :
    Issues serve kind (p.cont f h) := by
  have hdone : ∀ q : Program Op Ans ε β, q.Done → Issues serve kind q := by
    rintro (a | e | ⟨op,next⟩) hq
    · exact trivial
    · exact trivial
    · exact hq.elim
  exact Follows.cont hp (fun a _ _ => hdone _ (hf a)) fun e _ _ => hdone _ (hh e)

theorem Issues.run_keeps {I : σ → Prop} (hp : Issues serve kind p)
    (hkeeps : ∀ op s, I s → kind op → I (serve op s).2) {s : σ} (h : I s) : I (p.run serve s).2 := by
  induction p generalizing s with
  | ret a => exact h
  | raise e => exact h
  | call op next ih =>
    obtain ⟨hop,hnext⟩ := issues_call.mp hp s
    exact ih _ hnext (hkeeps op s h hop)

theorem issues_perform {op : Op} (h : kind op) : Issues serve kind (.perform op) := by
  refine issues_call.mpr fun s => ⟨h,?_⟩
  cases (serve op s).1 <;> exact trivial

end Issues

variable {serve : Server Op Ans ε σ} {serve' : Server Op Ans ε τ} {view : σ → τ} {I : σ → Prop}
  {own other : Op → Prop}

section Alone

variable {p : Program Op Ans ε α}

theorem View.run_own (hv : View serve serve' view I own other) (hp : Issues serve own p) {s : σ}
    (hs : I s) :
    (p.run serve s).1 = (p.run serve' (view s)).1 ∧
      view (p.run serve s).2 = (p.run serve' (view s)).2 := by
  induction p generalizing s with
  | ret a => exact ⟨rfl,rfl⟩
  | raise e => exact ⟨rfl,rfl⟩
  | call op next ih =>
    obtain ⟨hop,hnext⟩ := issues_call.mp hp s
    have h := ih _ hnext (hv.invOwn op s hs hop)
    rw [hv.answers op s hs hop,hv.moves op s hs hop] at h
    simp only [Program.run_call]
    rw [hv.answers op s hs hop]
    exact h

theorem View.run_other (hv : View serve serve' view I own other) (hp : Issues serve other p) {s : σ}
    (hs : I s) : view (p.run serve s).2 = view s := by
  induction p generalizing s with
  | ret a => rfl
  | raise e => rfl
  | call op next ih =>
    obtain ⟨hop,hnext⟩ := issues_call.mp hp s
    rw [Program.run_call,ih _ hnext (hv.invOther op s hs hop),hv.keeps op s hs hop]

end Alone

section Runs

variable [DecidableEq ι] {mine : ι → Bool}

/-- The second configuration is what the group sees of the first one. -/
structure Sees (view : σ → τ) (I : σ → Prop) (mine : ι → Bool) (c : Config Op Ans ε α σ ι)
    (c' : Config Op Ans ε α τ ι) : Prop where
  inv : I c.shared
  shared : c'.shared = view c.shared
  thread : ∀ i, mine i = true → c'.thread i = c.thread i

def Separated (serve : Server Op Ans ε σ) (own other : Op → Prop) (mine : ι → Bool)
    (c : Config Op Ans ε α σ ι) : Prop :=
  ∀ i, Issues serve (if mine i then own else other) (c.thread i)

theorem Separated.step {c : Config Op Ans ε α σ ι} (h : Separated serve own other mine c) (i : ι) :
    Separated serve own other mine (c.step serve i) := by
  intro j
  rcases Config.step_cases serve c i with ⟨op,next,hthread,hs⟩ | hs
  · rw [hs]
    by_cases hji : j = i
    · subst hji
      have hj := h j
      rw [hthread] at hj
      simpa using (issues_call.mp hj c.shared).2
    · simpa [Function.update_of_ne hji] using h j
  · rw [hs]
    exact h j

theorem Sees.step_own (hv : View serve serve' view I own other) {c : Config Op Ans ε α σ ι}
    {c' : Config Op Ans ε α τ ι} (h : Sees view I mine c c') (hsep : Separated serve own other mine c)
    {i : ι} (hi : mine i = true) : Sees view I mine (c.step serve i) (c'.step serve' i) := by
  have hown := hsep i
  have hthread := h.thread i hi
  rw [if_pos hi] at hown
  cases hc : c.thread i with
  | ret a => simpa only [Config.step,hthread,hc] using h
  | raise e => simpa only [Config.step,hthread,hc] using h
  | call op next =>
    rw [hc] at hown
    have hop := (issues_call.mp hown c.shared).1
    simp only [Config.step,hthread,hc]
    refine ⟨hv.invOwn op _ h.inv hop,?_,?_⟩
    · simp only [h.shared]
      exact (hv.moves op c.shared h.inv hop).symm
    · intro j hj
      by_cases hji : j = i
      · subst hji
        simp only [Function.update_self,h.shared]
        rw [hv.answers op c.shared h.inv hop]
      · simpa only [Function.update_of_ne hji] using h.thread j hj

theorem Sees.step_other (hv : View serve serve' view I own other) {c : Config Op Ans ε α σ ι}
    {c' : Config Op Ans ε α τ ι} (h : Sees view I mine c c') (hsep : Separated serve own other mine c)
    {i : ι} (hi : mine i = false) : Sees view I mine (c.step serve i) c' := by
  rcases Config.step_cases serve c i with ⟨op,next,hthread,hs⟩ | hs
  · have hother := hsep i
    rw [hthread,hi] at hother
    have hop : other op := (issues_call.mp hother c.shared).1
    rw [hs]
    refine ⟨hv.invOther op _ h.inv hop,h.shared.trans (hv.keeps op c.shared h.inv hop).symm,?_⟩
    intro j hj
    have hji : j ≠ i := by
      rintro rfl
      simp [hi] at hj
    simpa only [Function.update_of_ne hji] using h.thread j hj
  · rw [hs]
    exact h

/-- The rule for kinds of calls: what every call of a kind keeps is kept by any interleaving of
programs that issue no other calls. -/
theorem runs_issued {kind : Op → Prop} {I : σ → Prop}
    (hkeeps : ∀ op s, kind op → I s → I (serve op s).2) (c : Config Op Ans ε α σ ι)
    (hkind : ∀ i, Issues serve kind (c.thread i)) (h : I c.shared) (schedule : List ι) :
    I (c.runs serve schedule).shared := by
  induction schedule generalizing c with
  | nil => exact h
  | cons i schedule ih =>
    have hsep : Separated serve kind kind (fun _ => true) c := hkind
    have hnext : ∀ j, Issues serve kind ((c.step serve i).thread j) := hsep.step i
    refine ih _ hnext ?_
    rcases Config.step_cases serve c i with ⟨op,next,hthread,hs⟩ | hs
    · have hi := hkind i
      rw [hthread,issues_call] at hi
      rw [hs]
      exact hkeeps op _ (hi c.shared).1 h
    · rw [hs]
      exact h

/-- The rule of separation: leave the steps of the others out of the schedule, and the group
sees the same. -/
theorem runs_separated (hv : View serve serve' view I own other) (c : Config Op Ans ε α σ ι)
    (c' : Config Op Ans ε α τ ι) (h : Sees view I mine c c') (hsep : Separated serve own other mine c)
    (schedule : List ι) :
    Sees view I mine (c.runs serve schedule) (c'.runs serve' (schedule.filter mine)) := by
  induction schedule generalizing c c' with
  | nil => exact h
  | cons i schedule ih =>
    by_cases hi : mine i = true
    · rw [List.filter_cons_of_pos hi]
      exact ih _ _ (h.step_own hv hsep hi) (hsep.step i)
    · rw [List.filter_cons_of_neg hi]
      exact ih _ _ (h.step_other hv hsep (by simpa using hi)) (hsep.step i)

variable (serve serve') in
theorem done_run {p : Program Op Ans ε α} (h : p.Done) (s : σ) (t : τ) :
    p.run serve s = ((p.run serve' t).1,s) := by
  rcases p with a | e | ⟨op,next⟩
  · rfl
  · rfl
  · exact h.elim

variable (serve) in
theorem runs_replicate (c : Config Op Ans ε α σ ι) (i : ι) (turns : ℕ) :
    ((c.runs serve (List.replicate turns i)).thread i).run serve
        (c.runs serve (List.replicate turns i)).shared = (c.thread i).run serve c.shared := by
  induction turns generalizing c with
  | zero => rfl
  | succ turns ih =>
    rw [List.replicate_succ,Config.runs_cons,ih]
    cases hc : c.thread i with
    | ret a => simp [Config.step,hc]
    | raise e => simp [Config.step,hc]
    | call op next => simp [Config.step,hc]

end Runs

section Serial

def serially (serve : Server Op Ans ε σ) (thread : ι → Program Op Ans ε α) (order : List ι) (s : σ) :
    σ :=
  order.foldl (fun s i => ((thread i).run serve s).2) s

variable {thread : ι → Program Op Ans ε α} {i : ι}

theorem serially_other (hv : View serve serve' view I own other) {order : List ι}
    (h : ∀ j ∈ order, Issues serve other (thread j)) {s : σ} (hs : I s) :
    view (serially serve thread order s) = view s ∧ I (serially serve thread order s) := by
  induction order generalizing s with
  | nil => exact ⟨rfl,hs⟩
  | cons j order ih =>
    have hj := h j (by simp)
    obtain ⟨hview,hinv⟩ := ih (fun k hk => h k (by simp [hk])) (hj.run_keeps hv.invOther hs)
    exact ⟨hview.trans (hv.run_other hj hs),hinv⟩

theorem serially_own (hv : View serve serve' view I own other) (hi : Issues serve own (thread i))
    (hother : ∀ j, j ≠ i → Issues serve other (thread j)) {order : List ι} (hnodup : order.Nodup)
    (hmem : i ∈ order) {s : σ} (hs : I s) :
    view (serially serve thread order s) = ((thread i).run serve' (view s)).2 := by
  obtain ⟨before,after,rfl⟩ := List.append_of_mem hmem
  have hdisj := List.nodup_append.mp hnodup
  have hbefore : ∀ j ∈ before, Issues serve other (thread j) :=
    fun j hj => hother j (hdisj.2.2 j hj i (by simp))
  have hafter : ∀ j ∈ after, Issues serve other (thread j) := by
    intro j hj
    apply hother
    rintro rfl
    exact (List.nodup_cons.mp hdisj.2.1).1 hj
  have hsplit : serially serve thread (before ++ i :: after) s =
      serially serve thread after ((thread i).run serve (serially serve thread before s)).2 := by
    simp only [serially,List.foldl_append,List.foldl_cons]
  obtain ⟨hview,hinv⟩ := serially_other hv hbefore hs
  rw [hsplit,(serially_other hv hafter (hi.run_keeps hv.invOwn hinv)).1,(hv.run_own hi hinv).2,hview]

end Serial

theorem finished_own [DecidableEq ι] (hv : View serve serve' view I own other)
    (c : Config Op Ans ε α σ ι) (hinv : I c.shared) {i : ι}
    (hi : Issues serve own (c.thread i)) (hother : ∀ j, j ≠ i → Issues serve other (c.thread j))
    {schedule : List ι} (hdone : (c.runs serve schedule).Finished) (s : σ) :
    view (c.runs serve schedule).shared = ((c.thread i).run serve' (view c.shared)).2 ∧
      ((c.runs serve schedule).thread i).run serve s =
        (((c.thread i).run serve' (view c.shared)).1,s) := by
  have hsep : Separated serve own other (fun j => decide (j = i)) c := by
    intro j
    by_cases hji : j = i
    · subst hji
      simpa using hi
    · simpa [hji] using hother j hji
  set c' : Config Op Ans ε α τ ι := ⟨view c.shared,c.thread,[]⟩ with hc'
  have hsees := runs_separated hv c c' ⟨hinv,rfl,fun _ _ => rfl⟩ hsep schedule
  rw [List.filter_eq] at hsees
  have hthread := hsees.thread i (by simp)
  have hrest := runs_replicate serve' c' i (schedule.count i)
  rw [hthread,done_run serve' serve (hdone i) _ s] at hrest
  constructor
  · rw [← hsees.shared]
    exact congrArg Prod.snd hrest
  · rw [done_run serve serve (hdone i) s s]
    exact congrArg (fun r => (r.1,s)) hrest

end AtomicProgram
