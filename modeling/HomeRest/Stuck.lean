import HomeRest.InProcess
import HomeRest.WrittenOnce

/-! Accounts that stay in process.
A call marks its accounts as outgoing and incoming when it writes them, and its close step
takes the marks away, also those of others. Whatever else fails, an account that is left in
process was last written by a call whose own close step did not come about. -/
namespace HomeRest

open AtomicProgram

variable {L : Libs} {ι : Type} {db : Database}

/-- The close step failed, or the functor of the close step lost its lock. -/
def LeavesOpen (env : Env) : Prop :=
  (env.occasion .close).fault ≠ none ∨ env.cleared .transactionsLock = true

def MarkStep (t : BankTransaction L) (ahead : Bool) (op : StoreCall L) (T : Table) (ahead' : Bool) :
    Prop :=
  CloseStep t ahead op T ahead' ∨
    ∃ occasion, op = .closeTransaction occasion t ∧ occasion.fault ≠ none ∧ ahead' = ahead

def starts (env : Env) (t : BankTransaction L) : Bool :=
  decide t.CreditOrDebit && !env.cleared .wrapperLock

theorem process_markStep (env : Env) (t : BankTransaction L) :
    Follows (serve db) (fun _ => True) (MarkStep t) (fun _ ahead => ahead = true → LeavesOpen env)
      (starts env t) (processTransaction env t) := by
  by_cases hc : t.CreditOrDebit
  · cases hl : env.cleared .wrapperLock with
    | true =>
      apply process_follows (Q := fun _ => False) hc
      · exact fun _ => by simp [starts,hl]
      · intro hl'
        simp [hl] at hl'
      · exact fun _ _ hfalse => hfalse.elim
      · exact fun _ _ hfalse => hfalse.elim
    | false =>
      have hstarts : starts env t = true := by simp [starts,hc,hl]
      rw [hstarts]
      apply process_follows (Q := fun ahead => ahead = true) hc
      · intro hl'
        simp [hl] at hl'
      · intro _
        apply consume_follows
        · exact fun _ _ => .inl rfl
        · exact fun _ _ => .inl rfl
        · exact fun _ => rfl
        · intro x y T T' _ _ _ _ _ _ _
          exact transactLoop_follows hc (fun _ _ _ _ => .inl rfl)
            (fun pass account => (fire_closeStep hc pass account).allow fun _ _ _ _ => .inl) [x,y] 0 x y
      · rintro ahead T rfl -
        by_cases hf : (env.occasion .close).fault = none
        · exact ⟨false,.inl ⟨hf,rfl,rfl⟩,by simp⟩
        · exact ⟨true,.inr ⟨_,rfl,hf,rfl⟩,fun _ => .inl hf⟩
      · exact fun hcl _ _ _ => .inr hcl
  · obtain ⟨r,hr⟩ := processTransaction_other env hc
    rw [hr,follows_ofExcept]
    simp [starts,hc]

section Owner

variable {transaction : ι → BankTransaction L} {history : List (ι × StoreCall L)} {T : Table}
  {ahead : ι → Bool}

/-- Every account in process was last written by a call of its own that has still to close. -/
def Owned (transaction : ι → BankTransaction L) (history : List (ι × StoreCall L)) (T : Table)
    (ahead : ι → Bool) : Prop :=
  ∀ r ∈ T, r.InProcess → ∃ i, ahead i = true ∧ lastWriter history r.accountNumber = some i ∧
    Touches (transaction i) r.accountNumber

theorem Owned.later (h : Owned transaction history T ahead) (i : ι) {op : StoreCall L}
    (hop : ∀ n, lastWriter ((i,op) :: history) n = lastWriter history n) :
    Owned transaction ((i,op) :: history) T ahead := by
  intro r hr hproc
  obtain ⟨j,hj,hlast,htouch⟩ := h r hr hproc
  exact ⟨j,hj,(hop _).trans hlast,htouch⟩

theorem Touches.some {t : BankTransaction L} {n : Option String} (h : Touches t n) :
    ∃ k, n = some k := by
  rcases h with h | h
  · obtain ⟨k,hk,-⟩ := sqlEq_iff.mp h
    exact ⟨k,hk⟩
  · obtain ⟨k,hk,-⟩ := sqlEq_iff.mp h
    exact ⟨k,hk⟩

theorem owned_update (h : Owned transaction history T ahead) {i : ι} {occasion : Occasion}
    {a : BankAccount L} (hf : occasion.fault = none) (hi : ahead i = true)
    (ha : a.accountNumber = (transaction i).transactionFrom ∨
      a.accountNumber = (transaction i).transactionTo) :
    Owned transaction ((i,.updateAccount occasion a) :: history)
      (sqlUpdateAccountsByNumber db a T) ahead := by
  intro r hr hproc
  obtain ⟨q,hq,rfl⟩ := List.mem_map.mp hr
  by_cases hn : sqlEq q.accountNumber a.accountNumber = true
  · simp only [hn,ite_true,updatedRow_number]
    obtain ⟨k,hk,hak⟩ := sqlEq_iff.mp hn
    refine ⟨i,hi,by simp [lastWriter,hf,hk,hak],?_⟩
    rcases ha with ha | ha
    · exact .inl (ha ▸ hn)
    · exact .inr (ha ▸ hn)
  · simp only [hn,Bool.false_eq_true,ite_false] at hproc ⊢
    obtain ⟨j,hj,hlast,htouch⟩ := h q hq hproc
    obtain ⟨k,hk⟩ := htouch.some
    have hother : a.accountNumber ≠ q.accountNumber :=
      fun heq => hn (sqlEq_iff.mpr ⟨k,hk,heq.trans hk⟩)
    exact ⟨j,hj,by simpa [lastWriter,hother] using hlast,htouch⟩

variable [DecidableEq ι]

theorem owned_close (h : Owned transaction history T ahead) (i : ι) (d : Millis) :
    Owned transaction history (sqlUpdateAccountsInTransaction (transaction i).transactionFrom
      (transaction i).transactionTo d T) (Function.update ahead i false) := by
  intro r hr hproc
  obtain ⟨q,hq,rfl⟩ := List.mem_map.mp hr
  by_cases hn : (sqlEq q.accountNumber (transaction i).transactionFrom ||
      sqlEq q.accountNumber (transaction i).transactionTo) = true
  · simp [hn,Row.InProcess,closedRow] at hproc
  · simp only [hn,Bool.false_eq_true,ite_false] at hproc ⊢
    obtain ⟨j,hj,hlast,htouch⟩ := h q hq hproc
    have hji : j ≠ i := by
      rintro rfl
      exact hn (Bool.or_eq_true _ _ ▸ htouch)
    exact ⟨j,by rw [Function.update_of_ne hji]; exact hj,hlast,htouch⟩

theorem owned_step (h : Owned transaction history T ahead) {i : ι} {op : StoreCall L} {ahead' : Bool}
    (hstep : MarkStep (transaction i) (ahead i) op T ahead') :
    Owned transaction ((i,op) :: history) (serve db op T).2 (Function.update ahead i ahead') := by
  rcases hstep with hstep | ⟨occasion,rfl,hf,rfl⟩
  · cases op with
    | getAccountByNumber occasion n =>
      have heq : ahead' = ahead i := hstep
      rw [heq,Function.update_eq_self]
      exact h.later i fun _ => rfl
    | updateAccount occasion a =>
      obtain ⟨hi,rfl,ha⟩ := hstep
      rw [← hi,Function.update_eq_self]
      simp only [serve_updateAccount,Occasion.commits]
      split_ifs with hf
      · exact owned_update h hf hi ha
      · exact h.later i fun _ => by simp [lastWriter,hf]
    | putAccount occasion a => exact hstep.elim
    | closeTransaction occasion t' =>
      obtain ⟨hf,rfl,rfl⟩ := hstep
      simp only [serve_closeTransaction,Occasion.commits_none hf]
      exact owned_close (h.later i fun _ => rfl) i _
  · rw [Function.update_eq_self]
    simp only [serve_closeTransaction,Occasion.commits,if_neg hf]
    exact h.later i fun _ => rfl

end Owner

/-- Once all calls have ended, whatever failed, an account in process was last written by a
call whose close step failed, or did not come about. -/
theorem inProcess_leftOpen [DecidableEq ι] (db : Database) (T : Table) (hT : NoneInProcess T)
    (env : ι → Env) (transaction : ι → BankTransaction L) (schedule : List ι)
    (hdone : ((processing T env transaction).runs (serve db) schedule).Finished) :
    ∀ r ∈ ((processing T env transaction).runs (serve db) schedule).shared, r.InProcess →
      ∃ i, lastWriter ((processing T env transaction).runs (serve db) schedule).history
        r.accountNumber = some i ∧ LeavesOpen (env i) := by
  have hfollow : ∀ i, Follows (serve db) (fun _ => True) (MarkStep (transaction i))
      (fun (_ : Except Throwable Unit) ahead => ahead = true → LeavesOpen (env i))
      (starts (env i) (transaction i)) (Call.processTransaction (env i) (transaction i)).program := by
    intro i
    apply (process_markStep (env i) (transaction i)).cont
    · exact fun _ _ h => h
    · exact fun _ _ h => h
  obtain ⟨ahead,howned,hend⟩ := runs_follow (serve db) (fun i => MarkStep (transaction i))
    (J := fun _ => True) (Q := fun i _ ahead => ahead = true → LeavesOpen (env i))
    (I := fun history T ahead => Owned transaction history T ahead) (P := fun _ => True)
    (fun _ _ _ _ => trivial) (fun _ _ _ => trivial)
    (fun _ _ _ _ _ _ h hstep _ => owned_step h hstep) (processing T env transaction)
    (fun i => starts (env i) (transaction i)) (fun r hr hproc => absurd hproc (hT r hr)) hfollow
    schedule trivial
  intro r hr hproc
  obtain ⟨i,hi,hlast,-⟩ := howned r hr hproc
  obtain ⟨_,hopen⟩ := (hend i).done (hdone i)
  exact ⟨i,hlast,hopen hi⟩

namespace Sample

def inOrder : List Bool := List.replicate 9 true ++ List.replicate 9 false

def unclosed (closes : Bool) : Env :=
  env 100 fun site => if site = .close && !closes then some outOfRange else none

end Sample

open Sample in
/-- The call that comes second leaves its from account outgoing. -/
theorem inProcess_leftOpen_sample :
    ∃ i, lastWriter ((processing twoRows unclosed fun _ => thirty).runs (serve database)
      inOrder).history (some iban₁) = some i ∧ LeavesOpen (unclosed i) := by
  have hrow : ∃ r ∈ ((processing twoRows unclosed fun _ => thirty).runs (serve database)
      inOrder).shared, r.InProcess ∧ r.accountNumber = some iban₁ := by decide +kernel
  obtain ⟨r,hr,hproc,hn⟩ := hrow
  rw [← hn]
  exact inProcess_leftOpen database twoRows (by decide +kernel) unclosed (fun _ => thirty)
    inOrder (fun i => by cases i <;> decide +kernel) r hr hproc

end HomeRest
