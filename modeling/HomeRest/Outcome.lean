import HomeRest.ProcessRun
import HomeRest.Setters

/-! What a caller of `processTransaction` learns.
The slot of the closing functor is copied over whatever the transfer functor reported, so
the caller learns how the close step went. A transaction of another type than credit and
debit gets no answer at all. -/
namespace HomeRest

open AtomicProgram

variable {L : Libs} (db : Database)

/-- One pass of the loop goes well: it visits `visited`, and ends with the accounts `a'`
and `c'` as from and to. -/
inductive Pass (env : Env) (t : BankTransaction L) (pass : ℕ) (visited : Option String)
    (a c : BankAccount L) (T : Table) : BankAccount L → BankAccount L → Table → Prop
  | fires {a' c' : BankAccount L} {x b d : ℚ} (guard : currencyGuard a c t = .ok ())
      (reads : ∃ v : BankAccount L, Reads (env.occasion (.loop pass)) visited T v)
      (h : Fires t visited) (covers : Covers env pass t T x b d a' c')
      (returns : BothReturn env pass) :
      Pass env t pass visited a c T a' c' (delivered db env pass t x b d T)
  | skips (guard : currencyGuard a c t = .ok ())
      (reads : ∃ v : BankAccount L, Reads (env.occasion (.loop pass)) visited T v)
      (h : ¬ Fires t visited) : Pass env t pass visited a c T a c T

def Passes (env : Env) (t : BankTransaction L) :
    ℕ → List (Option String) → BankAccount L → BankAccount L → Table → Prop
  | _, [], _, _, _ => True
  | pass, visited :: rest, a, c, T => ∃ a' c' T', Pass db env t pass visited a c T a' c' T' ∧
      Passes env t (pass+1) rest a' c' T'

def Completes (env : Env) (t : BankTransaction L) (T : Table) : Prop :=
  ∃ x y, Admits env t T x y ∧ Passes db env t 0 [t.transactionFrom,t.transactionTo] x y T

section Loop

variable {env : Env} {t : BankTransaction L}

/-- The two accounts of a transaction, and a collection drawn from them. -/
structure Visits (t : BankTransaction L) (n m : String) (collection : List (BankAccount L)) : Prop where
  kind : t.CreditOrDebit
  transactionFrom : t.transactionFrom = some n
  transactionTo : t.transactionTo = some m
  numbers : ∀ z ∈ collection, z.accountNumber = some n ∨ z.accountNumber = some m

theorem Visits.different {n m : String} {z : BankAccount L} {rest : List (BankAccount L)}
    (h : Visits t n m (z :: rest)) (hf : ¬ Fires t z.accountNumber) : n ≠ m := by
  rintro rfl
  have hz : z.accountNumber = some n := by simpa using h.numbers z (by simp)
  rcases h.kind with hk | hk
  · exact hf (.inl ⟨hk,h.transactionFrom.trans hz.symm⟩)
  · exact hf (.inr ⟨hk,h.transactionTo.trans hz.symm⟩)

section Pass

variable {db} {pass : ℕ} {visited : Option String} {a c a' c' : BankAccount L} {T T' : Table}

theorem Pass.guard (h : Pass db env t pass visited a c T a' c' T') :
    currencyGuard a c t = .ok () := by
  cases h with
  | fires guard => exact guard
  | skips guard => exact guard

theorem Pass.reads (h : Pass db env t pass visited a c T a' c' T') :
    ∃ v : BankAccount L, Reads (env.occasion (.loop pass)) visited T v := by
  cases h with
  | fires guard reads => exact reads
  | skips guard reads => exact reads

theorem Pass.delivers (h : Pass db env t pass visited a c T a' c' T') (hf : Fires t visited) :
    ∃ x b d, Covers env pass t T x b d a' c' ∧ BothReturn env pass ∧
      T' = delivered db env pass t x b d T := by
  cases h with
  | fires guard reads hf' covers returns => exact ⟨_,_,_,covers,returns,rfl⟩
  | skips guard reads hf' => exact absurd hf hf'

theorem Pass.stays (h : Pass db env t pass visited a c T a' c' T') (hf : ¬ Fires t visited) :
    a' = a ∧ c' = c ∧ T' = T := by
  cases h with
  | fires guard reads hf' => exact absurd hf' hf
  | skips => exact ⟨rfl,rfl,rfl⟩

end Pass

/-- The loop returns exactly when its passes go well. -/
theorem transactLoop_returns {n m : String} {collection : List (BankAccount L)} :
    Visits t n m collection → ∀ pass balanceFrom balanceTo a c T,
      currencyGuard balanceFrom balanceTo t = currencyGuard a c t →
      ((∃ list T', (transactLoop env t pass collection balanceFrom balanceTo).run (serve db) T =
        (.ok list,T')) ↔
      Passes db env t pass (collection.map BankAccount.accountNumber) a c T) := by
  induction collection with
  | nil =>
    intro _ pass balanceFrom balanceTo a c T _
    simp [transactLoop,Passes]
  | cons z rest ih =>
    intro h pass balanceFrom balanceTo a c T hsame
    have hrest : Visits t n m rest :=
      ⟨h.kind,h.transactionFrom,h.transactionTo,fun z' hz' => h.numbers z' (by simp [hz'])⟩
    have hthrows : ∀ {e T'} {p : Code L (List (BankAccount L))}, p.run (serve db) T = (.error e,T') →
        ¬ ∃ list T', p.run (serve db) T = (.ok list,T') := by
      rintro e T' p he ⟨list,T₁,hrun⟩
      cases he.symm.trans hrun
    simp only [List.map_cons,Passes]
    by_cases hr : ∃ v : BankAccount L, Reads (env.occasion (.loop pass)) z.accountNumber T v
    · obtain ⟨v,hv⟩ := hr
      have hvz : v.accountNumber = z.accountNumber := hv.number.1
      rw [pass_reads db rfl hv]
      cases hg : currencyGuard a c t with
      | error e =>
        rw [visit_guard (hsame.trans hg)]
        apply iff_of_false (hthrows rfl)
        rintro ⟨a',c',T',hp,-⟩
        cases hg.symm.trans hp.guard
      | ok u =>
        by_cases hf : Fires t z.accountNumber
        · rw [visit_fires (hsame.trans hg) hv.complete (by rwa [hvz])]
          rcases fire_cases db h.kind v with ⟨x,b,d,a',c',bf,bt,hcov,hw,hsf,hst,hfire⟩ | ⟨hno,e,T',hfire⟩
          · have hguard := currencyGuard_side (t := t) hsf.currency hst.currency hsf.number hst.number
            rw [Program.run_cont_ok (serve db) hfire,ih hrest (pass+1) bf bt a' c' _ hguard]
            constructor
            · intro hps
              exact ⟨a',c',_,.fires hg ⟨v,hv⟩ hf hcov hw,hps⟩
            · rintro ⟨a₁,c₁,T₁,hp,hps⟩
              obtain ⟨x₁,b₁,d₁,hcov₁,-,rfl⟩ := hp.delivers hf
              obtain ⟨rfl,rfl,rfl,rfl,rfl⟩ := hcov.unique hcov₁
              exact hps
          · apply iff_of_false (hthrows (Program.run_cont_error (serve db) hfire))
            rintro ⟨a₁,c₁,T₁,hp,-⟩
            obtain ⟨x,b,d,hcov,hw,-⟩ := hp.delivers hf
            exact hno ⟨x,b,d,a₁,c₁,hcov,hw⟩
        · obtain ⟨v',hv'⟩ := hv.complete.number
          rw [visit_skip (hsame.trans hg) h.kind hv' h.transactionFrom h.transactionTo (h.different hf)
            (by rwa [hvz]),ih hrest (pass+1) balanceFrom balanceTo a c T hsame]
          constructor
          · intro hps
            exact ⟨a,c,T,.skips hg ⟨v,hv⟩ hf,hps⟩
          · rintro ⟨a₁,c₁,T₁,hp,hps⟩
            obtain ⟨rfl,rfl,rfl⟩ := hp.stays hf
            exact hps
    · obtain ⟨e,he⟩ : ∃ e, (transactLoop env t pass (z :: rest) balanceFrom balanceTo).run (serve db) T =
        (.error e,T) := pass_unread db h.kind hr
      apply iff_of_false (hthrows he)
      rintro ⟨a',c',T',hp,-⟩
      exact hr hp.reads

theorem consume_completes (hc : t.CreditOrDebit) {T : Table} :
    (∃ result T', (FunctorBiConsumeService4Accounts.consume env t).run (serve db) T =
      (.ok (some result),T')) ↔ Completes db env t T := by
  by_cases hadm : ∃ x y, Admits env t T x y
  · obtain ⟨x,y,hadm⟩ := hadm
    obtain ⟨hx,n,hn⟩ := hadm.readsFrom.number
    obtain ⟨hy,m,hm⟩ := hadm.readsTo.number
    have hvisits : Visits t n m [x,y] := ⟨hc,hn,hm,by simp [hx,hy,hn,hm]⟩
    have hconsume : (∃ result T', (FunctorBiConsumeService4Accounts.consume env t).run (serve db) T =
        (.ok (some result),T')) ↔
        ∃ list T', (transactLoop env t 0 [x,y] x y).run (serve db) T = (.ok list,T') := by
      rw [consume_admitted db hadm]
      simp [Program.run_bind_ok,transactInAccounts]
    rw [hconsume,transactLoop_returns db hvisits 0 x y x y T rfl]
    constructor
    · intro hps
      exact ⟨x,y,hadm,by simpa [hx,hy] using hps⟩
    · rintro ⟨x',y',hadm',hps⟩
      cases hadm.readsFrom.2.symm.trans hadm'.readsFrom.2
      cases hadm.readsTo.2.symm.trans hadm'.readsTo.2
      simpa [hx,hy] using hps
  · obtain ⟨r,hr,hne⟩ := consume_refused db hadm
    constructor
    · rintro ⟨result,T',hrun⟩
      cases hr.symm.trans hrun
      exact absurd rfl (hne result)
    · rintro ⟨x,y,h,-⟩
      exact absurd ⟨x,y,h⟩ hadm

end Loop

section Slot

variable {env : Env} {t : BankTransaction L} {T : Table}

def closeSlot (env : Env) : Throwable :=
  match (env.occasion .close).written with
  | .ok _ => .blank
  | .error e => e

theorem accounts_accept_returns (hu : env.Uncleared) :
    ∃ slot T', (FunctorBiConsumeService4Accounts.accept env t).run (serve db) T = (.ok slot,T') := by
  rw [FunctorBiConsumeService4Accounts.accept,Program.run_cont]
  cases (FunctorBiConsumeService4Accounts.consume env t).run (serve db) T with
  | mk r T' =>
    cases r with
    | ok result => exact ⟨.blank,T',rfl⟩
    | error e => exact ⟨e,T',by simp [lockGet,hu .accountsUnlock]⟩

theorem transactions_accept_returns (hu : env.Uncleared) :
    ∃ T', (FunctorBiConsumeService4Transactions.accept env t).run (serve db) T =
      (.ok (closeSlot env),T') := by
  cases hw : (env.occasion .close).written <;>
    simp [FunctorBiConsumeService4Transactions.accept,Program.handle,lockGet,hu .transactionsLock,
      hu .transactionsUnlock,Program.run_cont,hw,closeSlot]

theorem process_outcome (hc : t.CreditOrDebit) (hu : env.Uncleared) :
    (process db env t T).1 = .ok (some (closeSlot env)) := by
  obtain ⟨slot,T₁,h₁⟩ : ∃ slot T₁, (FunctorBiConsumeService4Accounts.accept env t).run (serve db) T =
    (.ok slot,T₁) := accounts_accept_returns db hu
  obtain ⟨T₂,h₂⟩ : ∃ T₂, (FunctorBiConsumeService4Transactions.accept env t).run (serve db) T₁ =
    (.ok (closeSlot env),T₂) := transactions_accept_returns db hu
  simp [process,processTransaction_eq hc,wrapper_eq,hu .wrapperLock,Program.handle,
    ConcurrencyAccess.runFunctors,ConcurrencyAccess.adopt,hu .accountsException,
    hu .accountsExceptionAgain,hu .transactionsException,hu .transactionsExceptionAgain,
    Program.run_cont,h₁,h₂]

/-- The close step throws, and the exception has a message. -/
def CloseComplains (env : Env) : Prop :=
  ∃ e, (env.occasion .close).fault = some e ∧ e.cls ≠ .constraintViolation ∧
    e.message.isNotBlank = true

theorem closeSlot_isNotBlank : (closeSlot env).message.isNotBlank = true ↔ CloseComplains env := by
  cases hf : (env.occasion .close).fault with
  | none => simp [closeSlot,CloseComplains,Occasion.written,hf]
  | some e =>
    by_cases hcv : e.cls = .constraintViolation <;>
      simp [closeSlot,CloseComplains,Occasion.written,hf,hcv]

/-- The outcome is the true one when the close step complains exactly of the transfers
that do not complete. -/
theorem processTransaction_outcome (hc : t.CreditOrDebit) (hu : env.Uncleared) :
    ((∃ e, (process db env t T).1 = .ok (some e) ∧ e.message.isNotBlank = true) ↔
      ¬ ∃ result T', (FunctorBiConsumeService4Accounts.consume env t).run (serve db) T =
        (.ok (some result),T')) ↔
    (CloseComplains env ↔ ¬ Completes db env t T) := by
  rw [consume_completes db hc,process_outcome db hc hu]
  simp only [Except.ok.injEq,Option.some.injEq,exists_eq_left',closeSlot_isNotBlank]

end Slot

open Sample in
theorem processTransaction_outcome_sample :
    ((∃ e, (process database (env 100 fun _ => none) (transfer 1 30000 iban₁ iban₂)
        twoRows).1 = .ok (some e) ∧ e.message.isNotBlank = true) ↔
      ¬ ∃ result T', (FunctorBiConsumeService4Accounts.consume (env 100 fun _ => none)
        (transfer 1 30000 iban₁ iban₂)).run (serve database) twoRows =
          (.ok (some result),T')) ↔
    (CloseComplains (env 100 fun _ => none) ↔
      ¬ Completes database (env 100 fun _ => none) (transfer 1 30000 iban₁ iban₂) twoRows) :=
  processTransaction_outcome database (.inl rfl) (env_uncleared 100 _)

open Sample in
/-- A transfer of more than the from account holds throws, and the outcome is blank. -/
theorem processTransaction_outcome_lost :
    (process database (env 100 fun _ => none) (transfer 1 300000 iban₁ iban₂)
      twoRows).1 = .ok (some .blank) ∧
    Throwable.blank.message.isNotBlank = false ∧
    ¬ ∃ result T', (FunctorBiConsumeService4Accounts.consume (env 100 fun _ => none)
      (transfer 1 300000 iban₁ iban₂)).run (serve database) twoRows =
        (.ok (some result),T') := by
  refine ⟨process_outcome database (.inl rfl) (env_uncleared 100 _),Throwable.message_blank,?_⟩
  have hfail : ((FunctorBiConsumeService4Accounts.consume (env 100 fun _ => none)
      (transfer 1 300000 iban₁ iban₂)).run (serve database) twoRows).1.isOk = false := by
    decide +kernel
  rintro ⟨result,T',hrun⟩
  rw [hrun] at hfail
  cases hfail

section Answer

variable {env : Env} {t : BankTransaction L} {T : Table}

theorem process_unstarted (ht : t.transactionType ≠ none) (hc : ¬ t.CreditOrDebit) :
    process db env t T = (.error .nullPointer,T) := by
  obtain ⟨k,hk⟩ := Option.ne_none_iff_exists'.mp ht
  have hcredit : k ≠ 1 := fun h => hc (.inl (by rw [hk,h]))
  have hdebit : k ≠ -1 := fun h => hc (.inr (by rw [hk,h]))
  simp [process,processTransaction,Program.handle,BankTransaction.isDebit,BankTransaction.isCredit,
    hk,hcredit,hdebit]

/-- Whatever steps fail, a call answers exactly for credit and debit. -/
theorem processTransaction_answers (hb : Built t) (hu : env.Uncleared) :
    (∃ e, (process db env t T).1 = .ok (some e)) ↔ t.CreditOrDebit := by
  constructor
  · rintro ⟨e,he⟩
    by_contra hc
    rw [process_unstarted db hb.typed hc] at he
    cases he
  · exact fun hc => ⟨closeSlot env,process_outcome db hc hu⟩

end Answer

open Sample in
theorem processTransaction_answers_sample :
    (∃ e, (process database (env 100 fun _ => some outOfRange)
      (.new 9 100 : BankTransaction libs) twoRows).1 = .ok (some e)) ↔
    (.new 9 100 : BankTransaction libs).CreditOrDebit :=
  processTransaction_answers database (.new 9 100) (env_uncleared 100 _)

namespace Sample

def neutral : BankTransaction libs := BankTransaction.setTransactionType (some 0) (.new 9 100)

end Sample

open Sample in
/-- It gets an exception thrown at its caller. -/
theorem processTransaction_answers_not :
    Built neutral ∧ (env 100 fun _ => none).Uncleared ∧
    (process database (env 100 fun _ => none) neutral twoRows).1 = .error .nullPointer ∧
    ¬ ∃ e, (process database (env 100 fun _ => none) neutral twoRows).1 = .ok (some e) := by
  have hthrown : (process database (env 100 fun _ => none) neutral twoRows).1 =
      .error .nullPointer := by decide +kernel
  refine ⟨.set (.setTransactionType (some 0)) (.new 9 100),env_uncleared 100 _,hthrown,?_⟩
  rintro ⟨e,he⟩
  cases hthrown.symm.trans he

end HomeRest
