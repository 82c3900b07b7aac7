import Mathlib.Data.List.Nodup
import Mathlib.Logic.Function.Basic
import Mathlib.Tactic

/-! Transfers between two cells without a lock.
A transfer reads its source and its target, computes both new values and writes them one
after the other. A write is stale when another transfer has written the cell since the
writer last read it. Runs without stale writes are serializable: the order is that of the
first writes, and a refused transfer stands where its source had the value that it read. -/
namespace UnlockedTransfer

variable {ι κ V : Type}

/-- `take` gives the new value of the source, if the transfer goes through. -/
structure Transfer (κ V : Type) where
  source : κ
  target : κ
  take : V → Option V
  put : V → V

inductive Phase (V : Type)
  | idle
  | taking (b : V)
  | ready (b d : V)
  | half (d : V)
  | done
  | refused

def Phase.Settled : Phase V → Prop
  | .idle | .done | .refused => True
  | _ => False

def Phase.Decided : Phase V → Prop
  | .half _ | .done | .refused => True
  | _ => False

def Phase.Ended : Phase V → Prop
  | .done | .refused => True
  | _ => False

structure State (ι κ V : Type) where
  cell : κ → V
  phase : ι → Phase V
  stale : ι → κ → Prop

def fresh (stale : ι → κ → Prop) (i : ι) (n : κ) : ι → κ → Prop :=
  fun j m => stale j m ∧ ¬ (j = i ∧ m = n)

def spoil (stale : ι → κ → Prop) (i : ι) (n : κ) : ι → κ → Prop :=
  fun j m => stale j m ∨ j ≠ i ∧ m = n

variable [DecidableEq κ]

/-- The steps of runs without stale writes. -/
inductive Step [DecidableEq ι] (x : ι → Transfer κ V) (s : State ι κ V) : State ι κ V → Prop
  | look (i : ι) (n : κ) (hi : (s.phase i).Settled) :
    Step x s {s with stale := fresh s.stale i n}
  | take (i : ι) {b : V} (hi : s.phase i = .idle) (h : (x i).take (s.cell (x i).source) = some b) :
    Step x s ⟨s.cell,Function.update s.phase i (.taking (s.cell (x i).source)),
      fresh s.stale i (x i).source⟩
  | refuse (i : ι) (hi : s.phase i = .idle) (h : (x i).take (s.cell (x i).source) = none) :
    Step x s ⟨s.cell,Function.update s.phase i .refused,fresh s.stale i (x i).source⟩
  | read (i : ι) {b : V} (hi : s.phase i = .taking b) :
    Step x s ⟨s.cell,Function.update s.phase i (.ready b (s.cell (x i).target)),
      fresh s.stale i (x i).target⟩
  | pay (i : ι) {b d b' : V} (hi : s.phase i = .ready b d) (hfresh : ¬ s.stale i (x i).source)
    (h : (x i).take b = some b') :
    Step x s ⟨Function.update s.cell (x i).source b',Function.update s.phase i (.half d),
      spoil s.stale i (x i).source⟩
  | give (i : ι) {d : V} (hi : s.phase i = .half d) (hfresh : ¬ s.stale i (x i).target) :
    Step x s ⟨Function.update s.cell (x i).target ((x i).put d),Function.update s.phase i .done,
      spoil s.stale i (x i).target⟩

def Transfer.apply (x : Transfer κ V) (v : κ → V) : κ → V :=
  match x.take (v x.source) with
  | none => v
  | some b => Function.update (Function.update v x.source b) x.target (x.put (v x.target))

def serial (x : ι → Transfer κ V) (v : κ → V) (order : List ι) : κ → V :=
  order.foldl (fun v i => (x i).apply v) v

/-- What was read is still there, unless it is stale. -/
def Trusts (y : Transfer κ V) (stale : κ → Prop) (cell : κ → V) : Phase V → Prop
  | .taking b => stale y.source ∨ cell y.source = b
  | .ready b d => (stale y.source ∨ cell y.source = b) ∧ (stale y.target ∨ cell y.target = d)
  | .half d => stale y.target ∨ cell y.target = d
  | _ => True

/-- A second write that is going to be stale. -/
def Doomed (x : ι → Transfer κ V) (s : State ι κ V) : Prop :=
  (∃ i d, s.phase i = .half d ∧ s.stale i (x i).target) ∨
    ∃ i j d e, i ≠ j ∧ s.phase i = .half d ∧ s.phase j = .half e ∧ (x i).target = (x j).target

/-- The order explains the cells: those that wait for a second write are behind by it. -/
structure Explains (x : ι → Transfer κ V) (v : κ → V) (s : State ι κ V) (order : List ι) : Prop where
  nodup : order.Nodup
  decided : ∀ i, i ∈ order ↔ (s.phase i).Decided
  waiting : ∀ i d, s.phase i = .half d →
    serial x v order (x i).target = (x i).put (s.cell (x i).target)
  others : ∀ n, (∀ i d, s.phase i = .half d → (x i).target ≠ n) → serial x v order n = s.cell n
  earlier : ∀ n, ∃ before, before <+: order ∧ serial x v before n = s.cell n

structure Inv (x : ι → Transfer κ V) (v : κ → V) (s : State ι κ V) : Prop where
  reliable : ∀ i, Trusts (x i) (s.stale i) s.cell (s.phase i)
  serializable : Doomed x s ∨ ∃ order, Explains x v s order

section Serial

variable {x : ι → Transfer κ V} {v : κ → V}

theorem serial_append (before after : List ι) :
    serial x v (before ++ after) = serial x (serial x v before) after := List.foldl_append
theorem serial_concat (before : List ι) (i : ι) :
    serial x v (before ++ [i]) = (x i).apply (serial x v before) := by
  rw [serial_append]
  rfl

theorem Transfer.apply_none {y : Transfer κ V} (h : y.take (v y.source) = none) : y.apply v = v := by
  simp only [Transfer.apply,h]

theorem Transfer.apply_some {y : Transfer κ V} {b : V} (h : y.take (v y.source) = some b) :
    y.apply v = Function.update (Function.update v y.source b) y.target (y.put (v y.target)) := by
  simp only [Transfer.apply,h]

/-- A transfer that is refused at its place can be left out. -/
theorem serial_insert {before after : List ι} {k : ι}
    (h : (x k).take (serial x v before (x k).source) = none) :
    serial x v (before ++ k :: after) = serial x v (before ++ after) := by
  have hk : (x k).apply (serial x v before) = serial x v before := Transfer.apply_none h
  rw [serial_append,serial_append]
  show serial x ((x k).apply (serial x v before)) after = _
  rw [hk]

theorem prefix_insert {before after p : List ι} {k : ι} (hp : p <+: before ++ after)
    (h : (x k).take (serial x v before (x k).source) = none) :
    ∃ q, q <+: before ++ k :: after ∧ serial x v q = serial x v p := by
  rcases List.prefix_or_prefix_of_prefix hp (List.prefix_append before after) with hpb | ⟨r,hr⟩
  · exact ⟨p,hpb.trans (List.prefix_append _ _),rfl⟩
  · subst hr
    have hr' : r <+: after := (List.prefix_append_right_inj before).mp hp
    refine ⟨before ++ k :: r,?_,serial_insert h⟩
    exact (List.prefix_append_right_inj before).mpr (List.cons_prefix_cons.mpr ⟨rfl,hr'⟩)

end Serial

section Reliable

variable {y : Transfer κ V} {stale stale' : κ → Prop} {cell cell' : κ → V} {ph : Phase V}

omit [DecidableEq κ] in
theorem Trusts.change (h : Trusts y stale cell ph) (hstale : ∀ n, stale n → stale' n)
    (hcell : ∀ n, stale' n ∨ cell' n = cell n) : Trusts y stale' cell' ph := by
  have hkeep : ∀ n b, stale n ∨ cell n = b → stale' n ∨ cell' n = b := by
    rintro n b (hn | hn)
    · exact .inl (hstale n hn)
    · exact (hcell n).imp_right fun hc => hc.trans hn
  cases ph with
  | taking b => exact hkeep _ _ h
  | ready b d => exact ⟨hkeep _ _ h.1,hkeep _ _ h.2⟩
  | half d => exact hkeep _ _ h
  | idle => exact trivial
  | done => exact trivial
  | refused => exact trivial

omit [DecidableEq κ] in
theorem fresh_other {stale : ι → κ → Prop} {i j : ι} (h : j ≠ i) (n : κ) :
    fresh stale i n j = stale j := by
  funext m
  simp [fresh,h]

end Reliable

variable [DecidableEq ι] {x : ι → Transfer κ V} {v : κ → V} {s s' : State ι κ V}

theorem reliable_step (hne : ∀ i, (x i).source ≠ (x i).target)
    (h : ∀ i, Trusts (x i) (s.stale i) s.cell (s.phase i)) (hstep : Step x s s') :
    ∀ i, Trusts (x i) (s'.stale i) s'.cell (s'.phase i) := by
  intro j
  cases hstep with
  | look i n hi =>
    by_cases hji : j = i
    · subst hji
      revert hi
      cases s.phase j <;> simp [Phase.Settled,Trusts]
    · simpa only [fresh_other hji] using h j
  | take i hi ht =>
    by_cases hji : j = i
    · subst hji
      simp [Trusts]
    · simpa only [fresh_other hji,Function.update_of_ne hji] using h j
  | refuse i hi ht =>
    by_cases hji : j = i
    · subst hji
      simp [Trusts]
    · simpa only [fresh_other hji,Function.update_of_ne hji] using h j
  | read i hi =>
    by_cases hji : j = i
    · subst hji
      have hj := h j
      rw [hi] at hj
      have hsource : fresh s.stale j (x j).target j (x j).source ∨ s.cell (x j).source = _ :=
        hj.imp_left fun hst => ⟨hst,fun he => hne j he.2⟩
      simpa [Trusts] using hsource
    · simpa only [fresh_other hji,Function.update_of_ne hji] using h j
  | pay i hi hfresh ht =>
    by_cases hji : j = i
    · subst hji
      have hj := h j
      rw [hi] at hj
      have htarget : spoil s.stale j (x j).source j (x j).target ∨ s.cell (x j).target = _ :=
        hj.2.imp_left Or.inl
      simpa [Trusts,Function.update_of_ne (hne j).symm] using htarget
    · simp only [Function.update_of_ne hji]
      apply (h j).change
      · exact fun n hn => .inl hn
      · intro n
        by_cases hn : n = (x i).source
        · exact .inl (.inr ⟨hji,hn⟩)
        · exact .inr (Function.update_of_ne hn _ _)
  | give i hi hfresh =>
    by_cases hji : j = i
    · subst hji
      simp [Trusts]
    · simp only [Function.update_of_ne hji]
      apply (h j).change
      · exact fun n hn => .inl hn
      · intro n
        by_cases hn : n = (x i).target
        · exact .inl (.inr ⟨hji,hn⟩)
        · exact .inr (Function.update_of_ne hn _ _)

theorem half_update {phase : ι → Phase V} {i j : ι} {ph : Phase V} {d : V} (hji : j ≠ i)
    (h : phase j = .half d) : Function.update phase i ph j = .half d := by
  rw [Function.update_of_ne hji,h]

theorem doomed_step (h : Doomed x s) (hstep : Step x s s') : Doomed x s' := by
  -- a step of a transfer that is not half way keeps both reasons
  have hkeep : ∀ i ph stale' cell', (∀ d, s.phase i ≠ .half d) →
      (∀ j n, j ≠ i → s.stale j n → stale' j n) →
      Doomed x ⟨cell',Function.update s.phase i ph,stale'⟩ := by
    intro i ph stale' cell' hi hstale
    have hother : ∀ j d, s.phase j = .half d → j ≠ i := by
      rintro j d hj rfl
      exact hi d hj
    rcases h with ⟨j,d,hj,hst⟩ | ⟨j,k,d,e,hjk,hj,hk,htarget⟩
    · have hji := hother j d hj
      exact .inl ⟨j,d,half_update hji hj,hstale j _ hji hst⟩
    · exact .inr ⟨j,k,d,e,hjk,half_update (hother j d hj) hj,half_update (hother k e hk) hk,htarget⟩
  cases hstep with
  | look i n hi =>
    have hhalf : ∀ d, s.phase i ≠ .half d := by
      intro d hd
      rw [hd] at hi
      exact hi
    have hd := hkeep i (s.phase i) (fresh s.stale i n) s.cell hhalf
      fun j m hji hst => ⟨hst,fun he => hji he.1⟩
    rwa [Function.update_eq_self] at hd
  | take i hi ht =>
    exact hkeep i _ _ _ (by simp [hi]) fun j m hji hst => ⟨hst,fun he => hji he.1⟩
  | refuse i hi ht =>
    exact hkeep i _ _ _ (by simp [hi]) fun j m hji hst => ⟨hst,fun he => hji he.1⟩
  | read i hi =>
    exact hkeep i _ _ _ (by simp [hi]) fun j m hji hst => ⟨hst,fun he => hji he.1⟩
  | pay i hi hfresh ht =>
    exact hkeep i _ _ _ (by simp [hi]) fun j m _ hst => .inl hst
  | give i hi hfresh =>
    rcases h with ⟨j,d,hj,hst⟩ | ⟨j,k,d,e,hjk,hj,hk,htarget⟩
    · have hji : j ≠ i := by
        rintro rfl
        exact hfresh hst
      exact .inl ⟨j,d,half_update hji hj,.inl hst⟩
    · by_cases hji : j = i
      · subst hji
        exact .inl ⟨k,e,half_update hjk.symm hk,.inr ⟨hjk.symm,htarget.symm⟩⟩
      · by_cases hki : k = i
        · subst hki
          exact .inl ⟨j,d,half_update hjk hj,.inr ⟨hjk,htarget⟩⟩
        · exact .inr ⟨j,k,d,e,hjk,half_update hji hj,half_update hki hk,htarget⟩

section Explain

variable {order : List ι}

omit [DecidableEq ι] in
theorem Explains.same (h : Explains x v s order) (hcell : s'.cell = s.cell)
    (hhalf : ∀ i d, s'.phase i = .half d ↔ s.phase i = .half d)
    (hdecided : ∀ i, (s'.phase i).Decided ↔ (s.phase i).Decided) : Explains x v s' order where
  nodup := h.nodup
  decided i := (h.decided i).trans (hdecided i).symm
  waiting i d hi := by rw [hcell]; exact h.waiting i d ((hhalf i d).mp hi)
  others n hn := by rw [hcell]; exact h.others n fun i d hi => hn i d ((hhalf i d).mpr hi)
  earlier n := by rw [hcell]; exact h.earlier n

theorem Explains.undecided (h : Explains x v s order) {i : ι} {ph : Phase V}
    {stale' : ι → κ → Prop} (hi : ¬ (s.phase i).Decided) (hph : ¬ ph.Decided) :
    Explains x v ⟨s.cell,Function.update s.phase i ph,stale'⟩ order := by
  refine Explains.same h ?_ ?_ ?_
  · rfl
  · intro j d
    by_cases hji : j = i
    · subst hji
      simp only [Function.update_self]
      constructor
      · rintro rfl
        exact absurd trivial hph
      · intro hd
        rw [hd] at hi
        exact absurd trivial hi
    · simp only [Function.update_of_ne hji]
  · intro j
    by_cases hji : j = i
    · subst hji
      simp only [Function.update_self]
      exact iff_of_false hph hi
    · simp only [Function.update_of_ne hji]

/-- A refused transfer is put where its source had the value that it read. -/
theorem Explains.refused (h : Explains x v s order) {i : ι} {stale' : ι → κ → Prop}
    (hi : s.phase i = .idle) (ht : (x i).take (s.cell (x i).source) = none) :
    ∃ order', Explains x v ⟨s.cell,Function.update s.phase i .refused,stale'⟩ order' := by
  obtain ⟨before,⟨after,horder⟩,hbefore⟩ := h.earlier (x i).source
  have htake : (x i).take (serial x v before (x i).source) = none := by rw [hbefore,ht]
  have hserial : serial x v (before ++ i :: after) = serial x v order := by
    rw [serial_insert htake,horder]
  have hnew : i ∉ order := by
    rw [h.decided i,hi]
    exact id
  have hperm : (before ++ i :: after).Perm (i :: order) := by
    rw [← horder]
    exact List.perm_middle
  have hhalf : ∀ j d, Function.update s.phase i .refused j = .half d ↔ s.phase j = .half d := by
    intro j d
    by_cases hji : j = i
    · subst hji
      simp [hi]
    · rw [Function.update_of_ne hji]
  refine ⟨before ++ i :: after,?_,?_,?_,?_,?_⟩
  · exact hperm.nodup_iff.mpr (List.nodup_cons.mpr ⟨hnew,h.nodup⟩)
  · intro j
    rw [hperm.mem_iff,List.mem_cons]
    by_cases hji : j = i
    · subst hji
      simp [Phase.Decided]
    · simp only [hji,false_or,Function.update_of_ne hji]
      exact h.decided j
  · intro j d hj
    rw [hserial]
    exact h.waiting j d ((hhalf j d).mp hj)
  · intro n hn
    rw [hserial]
    exact h.others n fun j d hj => hn j d ((hhalf j d).mpr hj)
  · intro n
    obtain ⟨p,hp,hpn⟩ := h.earlier n
    rw [← horder] at hp
    obtain ⟨q,hq,hqp⟩ := prefix_insert hp htake
    exact ⟨q,hq,by rw [hqp,hpn]⟩

theorem not_awaited {i j : ι} {b d b' e : V} (hi : s.phase i = .ready b d)
    (hsafe : ¬ Doomed x ⟨Function.update s.cell (x i).source b',Function.update s.phase i (.half d),
      spoil s.stale i (x i).source⟩) (hj : s.phase j = .half e) :
    j ≠ i ∧ (x j).target ≠ (x i).source ∧ (x j).target ≠ (x i).target := by
  have hji : j ≠ i := by
    rintro rfl
    simp [hi] at hj
  refine ⟨hji,?_,?_⟩
  · exact fun he => hsafe (.inl ⟨j,e,half_update hji hj,.inr ⟨hji,he⟩⟩)
  · exact fun he => hsafe (.inr ⟨j,i,e,d,hji,half_update hji hj,by simp,he⟩)

omit [DecidableEq ι] in
theorem Explains.serial_paid (h : Explains x v s order) {i : ι} {b b' : V}
    (hsource : ∀ j e, s.phase j = .half e → (x j).target ≠ (x i).source)
    (htarget : ∀ j e, s.phase j = .half e → (x j).target ≠ (x i).target)
    (hb : s.cell (x i).source = b) (ht : (x i).take b = some b') :
    serial x v (order ++ [i]) = Function.update (Function.update (serial x v order)
      (x i).source b') (x i).target ((x i).put (s.cell (x i).target)) := by
  have hs : serial x v order (x i).source = b := (h.others _ hsource).trans hb
  have hg : serial x v order (x i).target = s.cell (x i).target := h.others _ htarget
  have htake : (x i).take (serial x v order (x i).source) = some b' := by rw [hs,ht]
  rw [serial_concat,Transfer.apply_some htake,hg]

/-- The first write puts the transfer at the end of the order. -/
theorem Explains.paid (hne : ∀ i, (x i).source ≠ (x i).target) (h : Explains x v s order) {i : ι}
    {b d b' : V} (hi : s.phase i = .ready b d) (hb : s.cell (x i).source = b)
    (ht : (x i).take b = some b')
    (hsafe : ¬ Doomed x ⟨Function.update s.cell (x i).source b',Function.update s.phase i (.half d),
      spoil s.stale i (x i).source⟩) :
    Explains x v ⟨Function.update s.cell (x i).source b',Function.update s.phase i (.half d),
      spoil s.stale i (x i).source⟩ (order ++ [i]) := by
  have hfree : ∀ j e, s.phase j = .half e → j ≠ i ∧ (x j).target ≠ (x i).source ∧
      (x j).target ≠ (x i).target := fun j e hj => not_awaited hi hsafe hj
  have hserial := h.serial_paid (fun j e hj => (hfree j e hj).2.1) (fun j e hj => (hfree j e hj).2.2)
    hb ht
  refine ⟨?_,?_,?_,?_,?_⟩
  · have hnew : i ∉ order := by
      rw [h.decided i,hi]
      exact id
    exact List.nodup_append.mpr ⟨h.nodup,List.nodup_singleton i,fun a ha b hb => by
      rw [List.mem_singleton] at hb
      rintro rfl
      exact hnew (hb ▸ ha)⟩
  · intro j
    rw [List.mem_append,List.mem_singleton]
    by_cases hji : j = i
    · subst hji
      simp [Phase.Decided]
    · simp only [hji,or_false,Function.update_of_ne hji]
      exact h.decided j
  · intro j e hj
    rw [hserial]
    by_cases hji : j = i
    · subst hji
      simp only [Function.update_self,Function.update_of_ne (hne j).symm]
    · have hj' : s.phase j = .half e := by simpa [Function.update_of_ne hji] using hj
      obtain ⟨-,h₁,h₂⟩ := hfree j e hj'
      simp only [Function.update_of_ne h₁,Function.update_of_ne h₂]
      exact h.waiting j e hj'
  · intro n hn
    have hni : n ≠ (x i).target := fun he => hn i d (by simp) he.symm
    rw [hserial,Function.update_of_ne hni]
    by_cases hns : n = (x i).source
    · subst hns
      simp
    · simp only [Function.update_of_ne hns]
      exact h.others n fun j e hj => hn j e (half_update (hfree j e hj).1 hj)
  · intro n
    by_cases hns : n = (x i).source
    · subst hns
      refine ⟨order ++ [i],List.prefix_rfl,?_⟩
      rw [hserial,Function.update_of_ne (hne i)]
      simp
    · simp only [Function.update_of_ne hns]
      obtain ⟨p,hp,hpn⟩ := h.earlier n
      exact ⟨p,hp.trans (List.prefix_append _ _),hpn⟩

theorem Explains.given (h : Explains x v s order) {i : ι} {d : V} (hi : s.phase i = .half d)
    (hd : s.cell (x i).target = d)
    (hsafe : ¬ Doomed x ⟨Function.update s.cell (x i).target ((x i).put d),
      Function.update s.phase i .done,spoil s.stale i (x i).target⟩) :
    Explains x v ⟨Function.update s.cell (x i).target ((x i).put d),
      Function.update s.phase i .done,spoil s.stale i (x i).target⟩ order := by
  have hother : ∀ j e, j ≠ i → s.phase j = .half e → (x j).target ≠ (x i).target :=
    fun j e hji hj he => hsafe (.inl ⟨j,e,half_update hji hj,.inr ⟨hji,he⟩⟩)
  have hback : ∀ j e, Function.update s.phase i .done j = .half e → j ≠ i ∧ s.phase j = .half e := by
    intro j e hj
    by_cases hji : j = i
    · subst hji
      simp at hj
    · exact ⟨hji,by simpa [Function.update_of_ne hji] using hj⟩
  have hpaid : serial x v order (x i).target = (x i).put d := by rw [h.waiting i d hi,hd]
  refine ⟨h.nodup,?_,?_,?_,?_⟩
  · intro j
    rw [h.decided j]
    by_cases hji : j = i
    · subst hji
      simp [hi,Phase.Decided]
    · simp only [Function.update_of_ne hji]
  · intro j e hj
    obtain ⟨hji,hj'⟩ := hback j e hj
    simp only [Function.update_of_ne (hother j e hji hj')]
    exact h.waiting j e hj'
  · intro n hn
    by_cases hni : n = (x i).target
    · subst hni
      simpa using hpaid
    · simp only [Function.update_of_ne hni]
      apply h.others n
      intro j e hj
      by_cases hji : j = i
      · subst hji
        exact fun he => hni he.symm
      · exact hn j e (half_update hji hj)
  · intro n
    by_cases hni : n = (x i).target
    · subst hni
      exact ⟨order,List.prefix_rfl,by simpa using hpaid⟩
    · simp only [Function.update_of_ne hni]
      exact h.earlier n

end Explain

theorem Inv.step (hne : ∀ i, (x i).source ≠ (x i).target) (h : Inv x v s) (hstep : Step x s s') :
    Inv x v s' := by
  refine ⟨reliable_step hne h.reliable hstep,?_⟩
  rcases h.serializable with hdoom | ⟨order,horder⟩
  · exact .inl (doomed_step hdoom hstep)
  by_cases hsafe : Doomed x s'
  · exact .inl hsafe
  right
  cases hstep with
  | look i n hi => exact ⟨order,horder.same rfl (fun _ _ => Iff.rfl) fun _ => Iff.rfl⟩
  | take i hi ht => exact ⟨order,horder.undecided (by rw [hi]; exact id) id⟩
  | refuse i hi ht => exact horder.refused hi ht
  | read i hi => exact ⟨order,horder.undecided (by rw [hi]; exact id) id⟩
  | pay i hi hfresh ht =>
    have htrust := h.reliable i
    rw [hi] at htrust
    exact ⟨order ++ [i],horder.paid hne hi (htrust.1.resolve_left hfresh) ht hsafe⟩
  | give i hi hfresh =>
    have htrust := h.reliable i
    rw [hi] at htrust
    exact ⟨order,horder.given hi (htrust.resolve_left hfresh) hsafe⟩

omit [DecidableEq ι] in
theorem serial_refused {order : List ι} (h : ∀ i ∈ order, ∀ b, (x i).take b = none) :
    serial x v order = v := by
  induction order with
  | nil => rfl
  | cons i order ih =>
    show serial x ((x i).apply v) order = v
    rw [Transfer.apply_none (h i (by simp) _)]
    exact ih fun j hj => h j (by simp [hj])

omit [DecidableEq ι] in
open Classical in
theorem Inv.start [Fintype ι] (hinit : ∀ i, s.phase i = .idle ∨
    s.phase i = .refused ∧ ∀ b, (x i).take b = none) : Inv x s.cell s := by
  have hhalf : ∀ i d, s.phase i ≠ .half d := by
    intro i d hi
    rcases hinit i with h | ⟨h,-⟩ <;> simp [h] at hi
  let order := (Finset.univ.filter fun i => (s.phase i).Decided).toList
  have hmem : ∀ i, i ∈ order ↔ (s.phase i).Decided := by simp [order]
  have hserial : serial x s.cell order = s.cell := by
    apply serial_refused
    intro i hi b
    rcases hinit i with h | ⟨-,h⟩
    · rw [hmem i,h] at hi
      exact hi.elim
    · exact h b
  refine ⟨?_,.inr ⟨order,?_,hmem,?_,?_,?_⟩⟩
  · intro i
    rcases hinit i with h | ⟨h,-⟩ <;> rw [h] <;> exact trivial
  · exact Finset.nodup_toList _
  · exact fun i d hi => absurd hi (hhalf i d)
  · exact fun n _ => congrFun hserial n
  · exact fun n => ⟨order,List.prefix_rfl,congrFun hserial n⟩

omit [DecidableEq ι] in
/-- Once all transfers have ended, the cells are those of the transfers one after the other. -/
theorem Inv.serializes (h : Inv x v s) (hend : ∀ i, (s.phase i).Ended) :
    ∃ order : List ι, order.Nodup ∧ (∀ i, i ∈ order) ∧ serial x v order = s.cell := by
  have hhalf : ∀ i d, s.phase i ≠ .half d := by
    intro i d hi
    have he := hend i
    rw [hi] at he
    exact he
  rcases h.serializable with (⟨i,d,hi,-⟩ | ⟨i,j,d,e,-,hi,-⟩) | ⟨order,horder⟩
  · exact absurd hi (hhalf i d)
  · exact absurd hi (hhalf i d)
  · refine ⟨order,horder.nodup,fun i => (horder.decided i).mpr ?_,?_⟩
    · have he := hend i
      revert he
      cases s.phase i <;> simp [Phase.Ended,Phase.Decided]
    · funext n
      exact horder.others n fun i d hi => absurd hi (hhalf i d)

end UnlockedTransfer
