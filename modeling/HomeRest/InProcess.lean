import HomeRest.NonNegative
import HomeRest.ProcessFollows

/-! Accounts in process, status 10 or 20.
While calls run, accounts pass through these; a call that marks an account has its close
step still ahead, and that step stamps both of its accounts. -/
namespace HomeRest

open AtomicProgram

variable {L : Libs}

/-- Outgoing or incoming. -/
def Row.InProcess (r : Row) : Prop := r.accountStatus = some 10 ∨ r.accountStatus = some 20

instance (r : Row) : Decidable r.InProcess := inferInstanceAs (Decidable (_ ∨ _))

def NoneInProcess (T : Table) : Prop := ∀ r ∈ T, ¬ r.InProcess

instance : DecidablePred NoneInProcess :=
  fun T => inferInstanceAs (Decidable (∀ r ∈ T, ¬ r.InProcess))

def Touches (t : BankTransaction L) (n : Option String) : Prop :=
  sqlEq n t.transactionFrom = true ∨ sqlEq n t.transactionTo = true

/-- What a call may do: look up, write one of its two accounts as long as its close step is
ahead (`true`), and close both of them. -/
def CloseStep (t : BankTransaction L) : Bool → StoreCall L → Table → Bool → Prop
  | ahead, .getAccountByNumber _ _, _, ahead' => ahead' = ahead
  | ahead, .updateAccount _ a, _, ahead' => ahead = true ∧ ahead' = true ∧
    (a.accountNumber = t.transactionFrom ∨ a.accountNumber = t.transactionTo)
  | _, .putAccount _ _, _, _ => False
  | _, .closeTransaction occasion t', _, ahead' => occasion.fault = none ∧ t' = t ∧ ahead' = false

section Follow

variable {db : Database} {env : Env} {t : BankTransaction L}

theorem fire_closeStep (hc : t.CreditOrDebit) (pass : ℕ) (account : BankAccount L) :
    Follows (serve db) (fun _ => True) (CloseStep t) (fun _ ahead => ahead = true) true
      (fire env t pass account) := by
  rw [fire_eq,Program.handle]
  apply Follows.cont (Q := fun _ ahead => ahead = true)
  · apply follows_lookup fun a ha => ⟨_,outgoing_unset ha⟩
    intro T _
    refine ⟨true,rfl,?_,fun _ _ => rfl⟩
    intro a bf ha hbf
    apply follows_lookup fun c hn => ⟨_,incoming_unset hn⟩
    intro T' _
    refine ⟨true,rfl,?_,fun _ _ => rfl⟩
    intro c bt hcr hbt
    obtain ⟨hac,b,x,-,-,-,hsf⟩ := outgoing_sound hc hbf
    obtain ⟨hcc,d,x',-,-,hst⟩ := incoming_sound hc hbt
    rw [writeSides_eq env pass (hsf.complete hac) (hst.complete hcc)]
    apply follows_perform
    intro T₁ _
    refine ⟨true,⟨rfl,rfl,.inl (hsf.number.trans ha.number.1)⟩,?_,fun _ _ => rfl⟩
    intro _ _
    apply follows_perform
    intro T₂ _
    exact ⟨true,⟨rfl,rfl,.inr (hst.number.trans hcr.number.1)⟩,fun _ _ => rfl,fun _ _ => rfl⟩
  · rintro sides ahead rfl
    exact rfl
  · rintro e ahead rfl
    exact rfl

theorem process_closeStep (hs : env.Sound) (hu : env.Uncleared) (hc : t.CreditOrDebit) :
    Follows (serve db) (fun _ => True) (CloseStep t) (fun _ ahead => ahead = false) true
      (processTransaction env t) := by
  apply process_follows (Q := fun ahead => ahead = true) hc
  · intro hl
    simp [hu .wrapperLock] at hl
  · intro _
    apply consume_follows
    · exact fun T _ => rfl
    · exact fun T _ => rfl
    · exact fun _ => rfl
    · intro x y T T' _ _ _ _ _ _ _
      exact transactLoop_follows hc (fun _ _ _ _ => rfl)
        (fun pass account => fire_closeStep hc pass account) [x,y] 0 x y
  · rintro ahead T rfl -
    exact ⟨false,⟨hs .close,rfl,rfl⟩,rfl⟩
  · intro hl
    simp [hu .transactionsLock] at hl

end Follow

section Invariant

variable {ι : Type} {db : Database} {transaction : ι → BankTransaction L}

/-- Every account in process has a call that will close it. -/
def Responsible (transaction : ι → BankTransaction L) (T : Table) (ahead : ι → Bool) : Prop :=
  ∀ r ∈ T, r.InProcess → ∃ i, ahead i = true ∧ Touches (transaction i) r.accountNumber

theorem responsible_update {T : Table} {ahead : ι → Bool} {i : ι} {a : BankAccount L}
    (h : Responsible transaction T ahead) (hi : ahead i = true)
    (ha : a.accountNumber = (transaction i).transactionFrom ∨
      a.accountNumber = (transaction i).transactionTo) :
    Responsible transaction (sqlUpdateAccountsByNumber db a T) ahead := by
  intro r hr hproc
  obtain ⟨q,hq,rfl⟩ := List.mem_map.mp hr
  by_cases hn : sqlEq q.accountNumber a.accountNumber = true
  · simp only [hn,ite_true,updatedRow_number]
    refine ⟨i,hi,?_⟩
    rcases ha with ha | ha
    · exact .inl (ha ▸ hn)
    · exact .inr (ha ▸ hn)
  · simp only [hn,Bool.false_eq_true,ite_false] at hproc ⊢
    exact h q hq hproc

/-- The close step of a call leaves none of its accounts in process. -/
theorem responsible_close [DecidableEq ι] {T : Table} {ahead : ι → Bool} (i : ι) (d : Millis)
    (h : Responsible transaction T ahead) :
    Responsible transaction (sqlUpdateAccountsInTransaction (transaction i).transactionFrom
      (transaction i).transactionTo d T) (Function.update ahead i false) := by
  intro r hr hproc
  obtain ⟨q,hq,rfl⟩ := List.mem_map.mp hr
  by_cases hn : (sqlEq q.accountNumber (transaction i).transactionFrom ||
      sqlEq q.accountNumber (transaction i).transactionTo) = true
  · simp [hn,Row.InProcess,closedRow] at hproc
  · simp only [hn,Bool.false_eq_true,ite_false] at hproc ⊢
    obtain ⟨j,hj,htouch⟩ := h q hq hproc
    have hji : j ≠ i := by
      rintro rfl
      apply hn
      rw [Bool.or_eq_true]
      exact htouch
    exact ⟨j,by rw [Function.update_of_ne hji]; exact hj,htouch⟩

theorem responsible_step [DecidableEq ι] (T : Table) (ahead : ι → Bool) (i : ι) (op : StoreCall L)
    (ahead' : Bool) (h : Responsible transaction T ahead)
    (hstep : CloseStep (transaction i) (ahead i) op T ahead') :
    Responsible transaction (serve db op T).2 (Function.update ahead i ahead') := by
  cases op with
  | getAccountByNumber occasion n =>
    have heq : ahead' = ahead i := hstep
    rw [heq,Function.update_eq_self]
    exact h
  | updateAccount occasion a =>
    obtain ⟨hi,rfl,ha⟩ := hstep
    rw [← hi,Function.update_eq_self,serve_updateAccount]
    simp only [Occasion.commits]
    split_ifs
    · exact responsible_update h hi ha
    · exact h
  | putAccount occasion a => exact hstep.elim
  | closeTransaction occasion t' =>
    obtain ⟨hf,rfl,rfl⟩ := hstep
    rw [serve_closeTransaction]
    simp only [Occasion.commits_none hf]
    exact responsible_close i _ h

end Invariant

/-- Once all calls have returned, no account is left in process. -/
theorem none_inProcess {db : Database} {ι : Type} [DecidableEq ι] (T : Table)
    (hT : NoneInProcess T) (env : ι → Env) (transaction : ι → BankTransaction L)
    (hs : ∀ i, (env i).Sound) (hu : ∀ i, (env i).Uncleared) (hc : ∀ i, (transaction i).CreditOrDebit)
    (schedule : List ι)
    (hdone : ((startCalls T fun i => .processTransaction (env i) (transaction i)).runs (serve db)
      schedule).Finished) :
    NoneInProcess ((startCalls T fun i => .processTransaction (env i) (transaction i)).runs
      (serve db) schedule).shared := by
  have hfollow : ∀ i, Follows (serve db) (fun _ => True) (CloseStep (transaction i))
      (fun (_ : Except Throwable Unit) ahead => ahead = false) true
      (Call.processTransaction (env i) (transaction i)).program := by
    intro i
    apply (process_closeStep (hs i) (hu i) (hc i)).cont
    · rintro slot ahead rfl
      exact rfl
    · rintro e ahead rfl
      exact rfl
  obtain ⟨ahead,hresp,hend⟩ := runs_follow (serve db)
    (fun i => CloseStep (transaction i)) (J := fun _ => True) (Q := fun _ _ ahead => ahead = false)
    (I := fun _ T ahead => Responsible transaction T ahead) (P := fun _ => True)
    (fun _ _ _ _ => trivial) (fun _ _ _ => trivial)
    (fun _ T ahead i op ahead' h hstep _ => responsible_step T ahead i op ahead' h hstep)
    (startCalls T fun i => .processTransaction (env i) (transaction i)) (fun _ => true)
    (fun r hr hproc => absurd hproc (hT r hr)) hfollow schedule trivial
  intro r hr hproc
  obtain ⟨i,hi,-⟩ := hresp r hr hproc
  obtain ⟨_,hfalse⟩ := (hend i).done (hdone i)
  rw [hi] at hfalse
  cases hfalse

namespace Sample

def inTurn : List Bool :=
  [false,true,false,true,false,true,false,true,false,true,false,true,false,true,false,true,false,true]

def creditOrDebit (debit : Bool) : BankTransaction libs :=
  transfer (if debit then -1 else 1) 30000 iban₁ iban₂

end Sample

open Sample in
theorem none_inProcess_sample :
    NoneInProcess ((startCalls twoRows fun i => .processTransaction (env 100 fun _ => none)
      (creditOrDebit i)).runs (serve database) inTurn).shared :=
  none_inProcess twoRows (by decide +kernel) (fun _ => env 100 fun _ => none) creditOrDebit
    (fun _ => env_sound 100) (fun _ => env_uncleared 100 _)
    (fun i => by cases i; exacts [.inl rfl,.inr rfl]) inTurn
    (fun i => by cases i <;> decide +kernel)

end HomeRest
