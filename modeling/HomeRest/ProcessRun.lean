import HomeRest.TransferRun

/-! One call of `processTransaction` on a database that nothing else uses.
The transfer functor either turns the call away before `transactInAccounts`, or ends as
`transactInAccounts` does; the closing functor then runs in any case. -/
namespace HomeRest

open AtomicProgram

variable {L : Libs} (db : Database)

section Consume

/-- The transfer functor gets to `transactInAccounts` with these two accounts. -/
structure Admits (env : Env) (t : BankTransaction L) (T : Table) (x y : BankAccount L) : Prop where
  lock : env.cleared .accountsLock = false
  readsFrom : Reads (env.occasion .lookupFrom) t.transactionFrom T x
  readsTo : Reads (env.occasion .lookupTo) t.transactionTo T y
  notBlankFrom : isNotBlank x.accountNumber = true
  notBlankTo : isNotBlank y.accountNumber = true

variable {env : Env} {t : BankTransaction L} {T : Table} {x y : BankAccount L}

theorem consume_admitted (h : Admits env t T x y) :
    (FunctorBiConsumeService4Accounts.consume env t).run (serve db) T =
      ((transactInAccounts env t [x,y]).cont (fun result => .ret (some result)) .raise).run
        (serve db) T := by
  simp only [FunctorBiConsumeService4Accounts.consume,lockGet,h.lock,Bool.false_eq_true,ite_false,
    Program.bind_def,Program.ret_cont,Program.run_cont,callGetAccountByNumber_run,h.readsFrom.2,
    h.readsTo.2,h.notBlankFrom,h.notBlankTo,ite_true,logAccount_complete h.readsFrom.complete,
    logAccount_complete h.readsTo.complete,Program.pure_def,Program.run_ret]

/-- A lookup throws, or returns an account: one with a number that is not blank is stored. -/
theorem lookup_found (occasion : Occasion) (n : Option String) (T : Table) :
    (∃ e, (getAccountByNumber occasion n T : Except Throwable (Option (BankAccount L))) = .error e) ∨
    ∃ a : BankAccount L, getAccountByNumber occasion n T = .ok (some a) ∧
      (isNotBlank a.accountNumber = true → Reads occasion n T a) := by
  rcases getAccountByNumber_cases (L := L) occasion n T with ⟨a,ha⟩ | he | ⟨a,ha,hn,-⟩
  · exact .inr ⟨a,ha.2,fun _ => ha⟩
  · exact .inl he
  · exact .inr ⟨a,ha,fun h => by simp [hn,isNotBlank] at h⟩

theorem consume_refused (h : ¬ ∃ x y, Admits env t T x y) :
    ∃ r, (FunctorBiConsumeService4Accounts.consume env t).run (serve db) T = (r,T) ∧
      ∀ result, r ≠ .ok (some result) := by
  by_cases hl : env.cleared .accountsLock = true
  · exact ⟨.error .nullPointer,
      by simp [FunctorBiConsumeService4Accounts.consume,lockGet,hl],by simp⟩
  rcases lookup_found (L := L) (env.occasion .lookupFrom) t.transactionFrom T
    with ⟨e,he⟩ | ⟨x,hx,hxr⟩
  · exact ⟨.error e,by simp [FunctorBiConsumeService4Accounts.consume,lockGet,hl,Program.run_cont,he],
      by simp⟩
  rcases lookup_found (L := L) (env.occasion .lookupTo) t.transactionTo T
    with ⟨e,he⟩ | ⟨y,hy,hyr⟩
  · refine ⟨.error e,?_,by simp⟩
    by_cases hbx : isNotBlank x.accountNumber = true
    · simp [FunctorBiConsumeService4Accounts.consume,lockGet,hl,Program.run_cont,hx,hbx,
        logAccount_complete (hxr hbx).complete,he]
    · simp [FunctorBiConsumeService4Accounts.consume,lockGet,hl,Program.run_cont,hx,hbx,he]
  by_cases hbx : isNotBlank x.accountNumber = true
  · have hby : ¬ isNotBlank y.accountNumber = true := fun hby =>
      h ⟨x,y,by simpa using hl,hxr hbx,hyr hby,hbx,hby⟩
    exact ⟨.ok none,by simp [FunctorBiConsumeService4Accounts.consume,lockGet,hl,Program.run_cont,hx,
      hbx,logAccount_complete (hxr hbx).complete,hy,hby],by simp⟩
  · by_cases hby : isNotBlank y.accountNumber = true
    · exact ⟨.ok none,by simp [FunctorBiConsumeService4Accounts.consume,lockGet,hl,Program.run_cont,hx,
        hbx,logAccount_complete (hyr hby).complete,hy,hby],by simp⟩
    · exact ⟨.ok none,by simp [FunctorBiConsumeService4Accounts.consume,lockGet,hl,Program.run_cont,hx,
        hbx,hy,hby],by simp⟩

end Consume

section Close

@[simp] theorem callCloseTransaction_run (env : Env) (t : BankTransaction L) (T : Table) :
    (callCloseTransaction env t).run (serve db) T =
      ((env.occasion .close).written,(env.occasion .close).commits
        (sqlUpdateAccountsInTransaction t.transactionFrom t.transactionTo (env.occasion .close).now)
        T) :=
  (Program.run_perform (serve db) (.closeTransaction (env.occasion .close) t) T).trans
    (serve_closeTransaction db _ t T)

def Env.Closes (env : Env) : Prop :=
  env.cleared .wrapperLock = false ∧ env.cleared .transactionsLock = false

instance (env : Env) : Decidable env.Closes := inferInstanceAs (Decidable (_ ∧ _))

def closed (env : Env) (t : BankTransaction L) (T : Table) : Table :=
  if env.Closes then
    (env.occasion .close).commits
      (sqlUpdateAccountsInTransaction t.transactionFrom t.transactionTo (env.occasion .close).now) T
  else T

def transferred (env : Env) (t : BankTransaction L) (T : Table) : Table :=
  if env.cleared .wrapperLock = false then
    ((FunctorBiConsumeService4Accounts.consume env t).run (serve db) T).2
  else T

end Close

section Functors

variable (env : Env) (t : BankTransaction L) (T : Table)

theorem accounts_accept_run :
    ∃ r, (FunctorBiConsumeService4Accounts.accept env t).run (serve db) T =
      (r,((FunctorBiConsumeService4Accounts.consume env t).run (serve db) T).2) := by
  rw [FunctorBiConsumeService4Accounts.accept,Program.run_cont]
  cases hrun : (FunctorBiConsumeService4Accounts.consume env t).run (serve db) T with
  | mk r T' =>
    cases r with
    | ok result => exact ⟨.ok .blank,rfl⟩
    | error e =>
      by_cases hl : env.cleared .accountsUnlock = true
      · exact ⟨.error .nullPointer,by simp [lockGet,hl]⟩
      · exact ⟨.ok e,by simp [lockGet,hl]⟩

theorem transactions_accept_run :
    ∃ r, (FunctorBiConsumeService4Transactions.accept env t).run (serve db) T =
      (r,if env.cleared .transactionsLock = false then
        (env.occasion .close).commits (sqlUpdateAccountsInTransaction t.transactionFrom
          t.transactionTo (env.occasion .close).now) T else T) := by
  by_cases hl : env.cleared .transactionsLock = true
  · by_cases hu : env.cleared .transactionsUnlock = true
    · exact ⟨.error .nullPointer,
        by simp [FunctorBiConsumeService4Transactions.accept,Program.handle,lockGet,hl,hu]⟩
    · exact ⟨.ok .nullPointer,
        by simp [FunctorBiConsumeService4Transactions.accept,Program.handle,lockGet,hl,hu]⟩
  · cases hw : (env.occasion .close).written with
    | ok b =>
      exact ⟨.ok .blank,by simp [FunctorBiConsumeService4Transactions.accept,Program.handle,lockGet,
        hl,Program.run_cont,hw]⟩
    | error e =>
      by_cases hu : env.cleared .transactionsUnlock = true
      · exact ⟨.error .nullPointer,by simp [FunctorBiConsumeService4Transactions.accept,
          Program.handle,lockGet,hl,hu,Program.run_cont,hw]⟩
      · exact ⟨.ok e,by simp [FunctorBiConsumeService4Transactions.accept,Program.handle,lockGet,hl,
          hu,Program.run_cont,hw]⟩

theorem adopt_run (get getAgain : WeakGet) (slot : Throwable) (exception : Option Throwable) :
    ∃ r, (ConcurrencyAccess.adopt env get getAgain slot exception : Code L _).run (serve db) T =
      (r,T) := by
  unfold ConcurrencyAccess.adopt
  split_ifs
  · exact ⟨_,rfl⟩
  · cases exception <;> exact ⟨_,rfl⟩
  · cases exception <;> exact ⟨_,rfl⟩

theorem functor_run {T T' : Table} {accept : Code L Throwable} {r : Except Throwable Throwable}
    (h : accept.run (serve db) T = (r,T')) (get getAgain : WeakGet) (exception kept : Option Throwable) :
    ∃ out, (Program.handle (accept.cont
        (fun slot => ConcurrencyAccess.adopt env get getAgain slot exception) .raise)
      fun _ => .ret kept).run (serve db) T = (.ok out,T') := by
  rw [Program.handle,Program.cont_cont,Program.run_cont,h]
  cases r with
  | error e => exact ⟨kept,rfl⟩
  | ok slot =>
    obtain ⟨r',hr'⟩ := adopt_run (L := L) db env T' get getAgain slot exception
    simp only [Program.run_cont,hr']
    cases r' with
    | error e => exact ⟨kept,rfl⟩
    | ok out => exact ⟨out,rfl⟩

theorem runFunctors_run :
    ∃ out, (ConcurrencyAccess.runFunctors env t).run (serve db) T =
      (.ok out,if env.cleared .transactionsLock = false then
        (env.occasion .close).commits (sqlUpdateAccountsInTransaction t.transactionFrom
          t.transactionTo (env.occasion .close).now)
          ((FunctorBiConsumeService4Accounts.consume env t).run (serve db) T).2
        else ((FunctorBiConsumeService4Accounts.consume env t).run (serve db) T).2) := by
  obtain ⟨r,hr⟩ := accounts_accept_run db env t T
  obtain ⟨exception,h₁⟩ := functor_run db env hr .accountsException .accountsExceptionAgain
    (some .blank) (some .blank)
  obtain ⟨r',hr'⟩ := transactions_accept_run db env t
    ((FunctorBiConsumeService4Accounts.consume env t).run (serve db) T).2
  obtain ⟨out,h₂⟩ := functor_run db env hr' .transactionsException .transactionsExceptionAgain
    exception exception
  refine ⟨out,?_⟩
  simp only [ConcurrencyAccess.runFunctors,Program.bind_def]
  rw [Program.run_cont_ok (serve db) h₁,h₂]

end Functors

theorem processTransaction_eq {env : Env} {t : BankTransaction L} (hc : t.CreditOrDebit) :
    processTransaction env t =
      (ConcurrencyAccess.run env t).cont .ret fun e => .ret (some e) := by
  have hkind : ∃ b₁ b₂, t.isDebit = .ok b₁ ∧ t.isCredit = .ok b₂ ∧ (b₁ = true ∨ b₂ = true) := by
    rcases hc with hk | hk
    · exact ⟨false,true,by simp [BankTransaction.isDebit,hk],by simp [BankTransaction.isCredit,hk],
        .inr rfl⟩
    · exact ⟨true,false,by simp [BankTransaction.isDebit,hk],by simp [BankTransaction.isCredit,hk],
        .inl rfl⟩
  obtain ⟨b₁,b₂,h₁,h₂,hb⟩ := hkind
  simp [processTransaction,Program.handle,h₁,h₂,hb,Program.cont_cont]

theorem wrapper_eq (env : Env) (t : BankTransaction L) :
    ConcurrencyAccess.run env t =
      if env.cleared .wrapperLock = true then
        .ret (some (.caused .exception .null .blank))
      else (ConcurrencyAccess.runFunctors env t).handle
        fun e => .ret (some (.caused .exception e.message .blank)) := by
  obtain ⟨copy,hcopy⟩ := t.toStringCopy_ok (env.occasion .lookupFrom).now
  by_cases hl : env.cleared .wrapperLock = true
  · simp [ConcurrencyAccess.run,Program.handle,hcopy,Except.map,lockGet,hl,Throwable.nullPointer,
      Throwable.message]
  · simp [ConcurrencyAccess.run,Program.handle,hcopy,Except.map,lockGet,hl]

/-- A credit or a debit returns a slot, with both functors done one after the other. -/
theorem process_run (env : Env) {t : BankTransaction L} (hc : t.CreditOrDebit) (T : Table) :
    ∃ out, process db env t T = (.ok out,closed env t (transferred db env t T)) := by
  rw [process,processTransaction_eq hc,wrapper_eq]
  by_cases hl : env.cleared .wrapperLock = true
  · exact ⟨_,by simp [hl,closed,transferred,Env.Closes]; rfl⟩
  · obtain ⟨out,hout⟩ := runFunctors_run db env t T
    exact ⟨out,by simp [hl,Program.handle,Program.run_cont,hout,closed,transferred,Env.Closes]⟩

end HomeRest
