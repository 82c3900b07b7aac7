import HomeRest.CreditDebit
import HomeRest.Outcome

/-! Weak references and the garbage collector.
The locks and the recorded exceptions are reachable through weak references only, so each
`get` of one call may find its referent cleared. What is cleared decides which functors
run and which outcome is kept. -/
namespace HomeRest

open AtomicProgram

/-- Which of the `get` calls find nothing. -/
abbrev Clearing := WeakGet → Bool

namespace Clearing

variable (c : Clearing)

def Transfers : Prop := c .wrapperLock = false ∧ c .accountsLock = false

def Closes : Prop := c .wrapperLock = false ∧ c .transactionsLock = false

/-- The closing functor dies in its handler, and its slot is not read. -/
def CloseDies : Prop := c .transactionsLock = true ∧ c .transactionsUnlock = true

/-- What the transfer throws gets into the slot of the wrapper and stays there. -/
def Reports : Prop :=
  c.Transfers ∧ c .accountsUnlock = false ∧ c .accountsException = false ∧
    c .accountsExceptionAgain = false ∧ (c .transactionsException = true ∨ c.CloseDies)

/-- An exception is there when it is compared with null, and gone when it is copied. -/
def LosesSlot : Prop :=
  c .wrapperLock = false ∧
    (¬ (c .accountsLock = true ∧ c .accountsUnlock = true) ∧ c .accountsException = false ∧
        c .accountsExceptionAgain = true ∨
      ¬ c.CloseDies ∧ c .transactionsException = false ∧ c .transactionsExceptionAgain = true)

instance : Decidable c.Transfers := inferInstanceAs (Decidable (_ ∧ _))
instance : Decidable c.Closes := inferInstanceAs (Decidable (_ ∧ _))
instance : Decidable c.CloseDies := inferInstanceAs (Decidable (_ ∧ _))
instance : Decidable c.Reports := inferInstanceAs (Decidable (_ ∧ _ ∧ _ ∧ _ ∧ (_ ∨ _)))
instance : Decidable c.LosesSlot := inferInstanceAs (Decidable (_ ∧ (_ ∨ _)))

/-- Both clearings let the same functors run, and the same outcome through. -/
structure SameCourse (c c' : Clearing) : Prop where
  transfers : c.Transfers ↔ c'.Transfers
  closes : c.Closes ↔ c'.Closes
  reports : c.Reports ↔ c'.Reports
  keeps : ¬ c.LosesSlot
  keeps' : ¬ c'.LosesSlot

end Clearing

variable {L : Libs} (db : Database)

section Course

variable {occasion : Site → Occasion} {c c' : Clearing} {t : BankTransaction L} {T : Table}

theorem transactLoop_clearing (collection : List (BankAccount L)) :
    ∀ pass balanceFrom balanceTo,
      transactLoop ⟨occasion,c⟩ t pass collection balanceFrom balanceTo =
        transactLoop ⟨occasion,c'⟩ t pass collection balanceFrom balanceTo := by
  induction collection with
  | nil => exact fun _ _ _ => rfl
  | cons z rest ih =>
    intro pass balanceFrom balanceTo
    simp only [transactLoop,ih (pass+1)]
    rfl

theorem transactInAccounts_clearing (collection : List (BankAccount L)) :
    transactInAccounts ⟨occasion,c⟩ t collection = transactInAccounts ⟨occasion,c'⟩ t collection := by
  unfold transactInAccounts
  split
  · exact transactLoop_clearing _ _ _ _
  · rfl

theorem consume_unlocked (hc : c .accountsLock = false) :
    (FunctorBiConsumeService4Accounts.consume ⟨occasion,c⟩ t).run (serve db) T =
      (FunctorBiConsumeService4Accounts.consume ⟨occasion,fun _ => false⟩ t).run (serve db) T := by
  simp only [FunctorBiConsumeService4Accounts.consume,lockGet,hc,Bool.false_eq_true,ite_false,
    Program.bind_def,Program.ret_cont,Program.run_cont,callGetAccountByNumber_run]
  rcases lookup_found (L := L) (occasion .lookupFrom) t.transactionFrom T with ⟨e,he⟩ | ⟨x,hx,-⟩
  · simp only [he]
  · have htransact : ∀ collection : List (BankAccount L), transactInAccounts ⟨occasion,c⟩ t collection =
        transactInAccounts ⟨occasion,fun _ => false⟩ t collection := transactInAccounts_clearing
    simp only [hx,htransact]
    rfl

end Course

/-! ### The slot of the wrapper -/

def kept (c : Clearing) (get getAgain : WeakGet) (accepted : Except Throwable Throwable)
    (exception : Option Throwable) : Option Throwable :=
  match accepted with
  | .error _ => exception
  | .ok slot =>
    if c get then exception
    else if exception = none then none
    else if c getAgain then none else some slot

def accountsAccepted {α : Type} (c : Clearing) (r : Except Throwable α) : Except Throwable Throwable :=
  match r with
  | .ok _ => .ok .blank
  | .error e => if c .accountsUnlock then .error .nullPointer else .ok e

def transactionsAccepted (c : Clearing) : Except Throwable Throwable :=
  if c .transactionsLock then
    if c .transactionsUnlock then .error .nullPointer else .ok .nullPointer
  else .ok .blank

def wrapperSlot {α : Type} (c : Clearing) (r : Except Throwable α) : Option Throwable :=
  kept c .transactionsException .transactionsExceptionAgain (transactionsAccepted c)
    (kept c .accountsException .accountsExceptionAgain (accountsAccepted c r) (some .blank))

section Slot

variable (env : Env) (t : BankTransaction L) {T T' : Table}

theorem functor_kept {accept : Code L Throwable} {r : Except Throwable Throwable}
    (h : accept.run (serve db) T = (r,T')) (get getAgain : WeakGet) (exception : Option Throwable) :
    (Program.handle (accept.cont
        (fun slot => ConcurrencyAccess.adopt env get getAgain slot exception) .raise)
      fun _ => .ret exception).run (serve db) T =
        (.ok (kept env.cleared get getAgain r exception),T') := by
  rw [Program.handle,Program.cont_cont,Program.run_cont,h]
  cases r with
  | error e => rfl
  | ok slot =>
    by_cases hget : env.cleared get = true
    · simp [ConcurrencyAccess.adopt,kept,hget]
    · cases exception <;> simp [ConcurrencyAccess.adopt,kept,hget]

theorem accounts_accepted (T : Table) :
    (FunctorBiConsumeService4Accounts.accept env t).run (serve db) T =
      (accountsAccepted env.cleared ((FunctorBiConsumeService4Accounts.consume env t).run (serve db) T).1,
        ((FunctorBiConsumeService4Accounts.consume env t).run (serve db) T).2) := by
  rw [FunctorBiConsumeService4Accounts.accept,Program.run_cont]
  cases (FunctorBiConsumeService4Accounts.consume env t).run (serve db) T with
  | mk r T' =>
    cases r with
    | ok result => rfl
    | error e => by_cases hl : env.cleared .accountsUnlock = true <;> simp [lockGet,accountsAccepted,hl]

variable {env}

theorem transactions_accepted (hs : env.Sound) (T : Table) :
    ∃ T', (FunctorBiConsumeService4Transactions.accept env t).run (serve db) T =
      (transactionsAccepted env.cleared,T') := by
  have hw : (env.occasion .close).written = .ok true := Occasion.written_none (hs .close)
  by_cases hl : env.cleared .transactionsLock = true
  · by_cases hu : env.cleared .transactionsUnlock = true <;>
      simp [FunctorBiConsumeService4Transactions.accept,Program.handle,lockGet,transactionsAccepted,hl,hu]
  · simp [FunctorBiConsumeService4Transactions.accept,Program.handle,lockGet,transactionsAccepted,hl,
      Program.run_cont,hw]

variable {t}

/-- What a caller gets, if the wrapper has its lock. -/
theorem process_slot (hs : env.Sound) (hc : t.CreditOrDebit) (hw : env.cleared .wrapperLock = false) :
    (process db env t T).1 = .ok (wrapperSlot env.cleared
      ((FunctorBiConsumeService4Accounts.consume env t).run (serve db) T).1) := by
  have h₁ := functor_kept db env (accounts_accepted db env t T) .accountsException
    .accountsExceptionAgain (some .blank)
  obtain ⟨T₂,h₂⟩ := transactions_accepted db t hs
    ((FunctorBiConsumeService4Accounts.consume env t).run (serve db) T).2
  have h₃ := functor_kept db env h₂ .transactionsException .transactionsExceptionAgain
    (kept env.cleared .accountsException .accountsExceptionAgain (accountsAccepted env.cleared
      ((FunctorBiConsumeService4Accounts.consume env t).run (serve db) T).1) (some .blank))
  rw [process,processTransaction_eq hc,wrapper_eq,if_neg (by simp [hw])]
  simp only [ConcurrencyAccess.runFunctors,Program.bind_def,Program.handle] at h₁ h₃ ⊢
  rw [Program.cont_cont,Program.cont_cont,Program.run_cont_ok (serve db) h₁,
    Program.run_cont_ok (serve db) h₃]
  rfl

theorem process_locked (hc : t.CreditOrDebit) (hw : env.cleared .wrapperLock = true) :
    process db env t T = (.ok (some (.caused .exception .null .blank)),T) := by
  rw [process,processTransaction_eq hc,wrapper_eq,if_pos hw]
  rfl

end Slot

section Outcome

variable {α : Type} {c c' : Clearing} {r : Except Throwable α}

theorem kept_none {get getAgain : WeakGet} {accepted : Except Throwable Throwable}
    {exception : Option Throwable} : kept c get getAgain accepted exception = none ↔
      exception = none ∨
        accepted.isOk = true ∧ c get = false ∧ c getAgain = true := by
  cases accepted with
  | error e => simp [kept,Except.isOk,Except.toBool]
  | ok slot =>
    by_cases he : exception = none
    · simp [kept,he]
    · by_cases hg : c get = true <;> by_cases ha : c getAgain = true <;>
        simp [kept,he,hg,ha,Except.isOk,Except.toBool]

/-- A blank slot is copied over what was there before. -/
theorem kept_notBlank {get getAgain : WeakGet} {accepted : Except Throwable Throwable}
    {exception : Option Throwable} :
    (∃ e, kept c get getAgain accepted exception = some e ∧ e.message.isNotBlank = true) ↔
      ((accepted.isOk = false ∨ c get = true) ∧
        ∃ e, exception = some e ∧ e.message.isNotBlank = true) ∨
      (c get = false ∧ c getAgain = false ∧ exception ≠ none ∧
        ∃ e, accepted = .ok e ∧ e.message.isNotBlank = true) := by
  cases accepted with
  | error e => simp [kept,Except.isOk,Except.toBool]
  | ok slot =>
    cases exception with
    | none => by_cases hg : c get = true <;> simp [kept,hg]
    | some e =>
      by_cases hg : c get = true <;> by_cases ha : c getAgain = true <;>
        simp [kept,hg,ha,Except.isOk,Except.toBool]

theorem accountsAccepted_isOk : (accountsAccepted c r).isOk = true ↔
    ¬ (r.isOk = false ∧ c .accountsUnlock = true) := by
  cases r with
  | ok a => simp [accountsAccepted,Except.isOk,Except.toBool]
  | error e =>
    by_cases hu : c .accountsUnlock = true <;>
      simp [accountsAccepted,hu,Except.isOk,Except.toBool]

theorem accountsAccepted_notBlank :
    (∃ e, accountsAccepted c r = .ok e ∧ e.message.isNotBlank = true) ↔
      c .accountsUnlock = false ∧ ∃ e, r = .error e ∧ e.message.isNotBlank = true := by
  cases r with
  | ok a => simp [accountsAccepted]
  | error e => by_cases hu : c .accountsUnlock = true <;> simp [accountsAccepted,hu]

theorem transactionsAccepted_isOk : (transactionsAccepted c).isOk = true ↔ ¬ c.CloseDies := by
  by_cases hl : c .transactionsLock = true <;> by_cases hu : c .transactionsUnlock = true <;>
    simp [transactionsAccepted,Clearing.CloseDies,hl,hu,Except.isOk,Except.toBool]

theorem transactionsAccepted_blank (e : Throwable) (he : transactionsAccepted c = .ok e) :
    e.message.isNotBlank = false := by
  unfold transactionsAccepted at he
  split_ifs at he
  · cases he
    decide
  · cases he
    exact Throwable.message_blank

theorem wrapperSlot_none : wrapperSlot c r = none ↔
    (¬ (r.isOk = false ∧ c .accountsUnlock = true) ∧ c .accountsException = false ∧
        c .accountsExceptionAgain = true) ∨
      ¬ c.CloseDies ∧ c .transactionsException = false ∧ c .transactionsExceptionAgain = true := by
  rw [wrapperSlot,kept_none,kept_none,accountsAccepted_isOk,transactionsAccepted_isOk]
  simp

theorem wrapperSlot_notBlank :
    (∃ e, wrapperSlot c r = some e ∧ e.message.isNotBlank = true) ↔
      (c .accountsUnlock = false ∧ c .accountsException = false ∧ c .accountsExceptionAgain = false ∧
        (c .transactionsException = true ∨ c.CloseDies)) ∧
      ∃ e, r = .error e ∧ e.message.isNotBlank = true := by
  have hclose : ¬ ∃ e, transactionsAccepted c = .ok e ∧ e.message.isNotBlank = true := by
    rintro ⟨e,he,hn⟩
    simp [transactionsAccepted_blank e he] at hn
  have hdies : (transactionsAccepted c).isOk = false ↔ c.CloseDies := by
    rw [← Bool.not_eq_true,transactionsAccepted_isOk,not_not]
  rw [wrapperSlot,kept_notBlank,kept_notBlank,accountsAccepted_notBlank,hdies]
  simp only [hclose,and_false,or_false,Option.some.injEq,exists_eq_left',Throwable.message_blank,
    Bool.false_eq_true,ne_eq,reduceCtorEq,not_false_eq_true,true_and,false_or]
  tauto

end Outcome

section Agree

variable {occasion : Site → Occasion} {c c' : Clearing} {t : BankTransaction L} {T : Table}

theorem process_table (hc : t.CreditOrDebit) :
    (process db ⟨occasion,c⟩ t T).2 =
      (fun U => if c.Closes then (occasion .close).commits (sqlUpdateAccountsInTransaction
        t.transactionFrom t.transactionTo (occasion .close).now) U else U)
      (if c.Transfers then
        ((FunctorBiConsumeService4Accounts.consume ⟨occasion,fun _ => false⟩ t).run (serve db) T).2
      else T) := by
  have htransferred : transferred db ⟨occasion,c⟩ t T = if c.Transfers then
      ((FunctorBiConsumeService4Accounts.consume ⟨occasion,fun _ => false⟩ t).run (serve db) T).2
      else T := by
    by_cases hw : c .wrapperLock = false
    · by_cases hl : c .accountsLock = false
      · rw [transferred,if_pos hw,if_pos ⟨hw,hl⟩,consume_unlocked db hl]
      · rw [transferred,if_pos hw,if_neg fun h => hl h.2]
        simp [FunctorBiConsumeService4Accounts.consume,lockGet,hl]
    · rw [transferred,if_neg hw,if_neg fun h => hw h.1]
  obtain ⟨out,hrun⟩ := process_run db ⟨occasion,c⟩ hc T
  rw [hrun,htransferred]
  rfl

theorem consume_locked (hl : c .accountsLock = true) :
    ((FunctorBiConsumeService4Accounts.consume ⟨occasion,c⟩ t).run (serve db) T).1 =
      .error .nullPointer := by
  simp [FunctorBiConsumeService4Accounts.consume,lockGet,hl]

theorem process_keeps (hs : ∀ site, (occasion site).fault = none) (hc : t.CreditOrDebit)
    (h : ¬ c.LosesSlot) : ∃ e, (process db ⟨occasion,c⟩ t T).1 = .ok (some e) := by
  have hsound : Env.Sound ⟨occasion,c⟩ := hs
  by_cases hw : c .wrapperLock = false
  · rw [process_slot db hsound hc hw]
    cases hslot : wrapperSlot c
      ((FunctorBiConsumeService4Accounts.consume ⟨occasion,c⟩ t).run (serve db) T).1 with
    | some e => exact ⟨e,rfl⟩
    | none =>
      rw [wrapperSlot_none] at hslot
      refine absurd ⟨hw,hslot.imp_left fun hr => ⟨?_,hr.2⟩⟩ h
      rintro ⟨hl,hu⟩
      exact hr.1 ⟨by rw [consume_locked db hl]; rfl,hu⟩
  · exact ⟨_,by rw [process_locked db hc (by simpa using hw)]⟩

theorem process_loses (hs : ∀ site, (occasion site).fault = none) (hc : t.CreditOrDebit)
    (h : c.LosesSlot) (hok : ((FunctorBiConsumeService4Accounts.consume ⟨occasion,fun _ => false⟩
      t).run (serve db) T).1.isOk = true) : (process db ⟨occasion,c⟩ t T).1 = .ok none := by
  have hsound : Env.Sound ⟨occasion,c⟩ := hs
  rw [process_slot db hsound hc h.1,Except.ok.injEq,wrapperSlot_none]
  refine h.2.imp_left fun hr => ⟨?_,hr.2⟩
  rintro ⟨hfail,hu⟩
  by_cases hl : c .accountsLock = false
  · rw [consume_unlocked db hl,hok] at hfail
    cases hfail
  · exact hr.1 ⟨by simpa using hl,hu⟩

theorem process_reports (hs : ∀ site, (occasion site).fault = none) (hc : t.CreditOrDebit) :
    (∃ e, (process db ⟨occasion,c⟩ t T).1 = .ok (some e) ∧ e.message.isNotBlank = true) ↔
      c.Reports ∧ ∃ e, ((FunctorBiConsumeService4Accounts.consume ⟨occasion,fun _ => false⟩ t).run
        (serve db) T).1 = .error e ∧ e.message.isNotBlank = true := by
  have hsound : Env.Sound ⟨occasion,c⟩ := hs
  by_cases hw : c .wrapperLock = false
  · rw [process_slot db hsound hc hw]
    simp only [Except.ok.injEq,wrapperSlot_notBlank]
    by_cases hl : c .accountsLock = false
    · rw [consume_unlocked db hl]
      simp only [Clearing.Reports,Clearing.Transfers,hw,hl,and_self,true_and]
    · have hl' : c .accountsLock = true := by simpa using hl
      rw [consume_locked db hl']
      simp [Clearing.Reports,Clearing.Transfers,hl',Throwable.nullPointer,Throwable.message,
        Message.isNotBlank]
  · rw [process_locked db hc (by simpa using hw)]
    simp [Clearing.Reports,Clearing.Transfers,hw,Throwable.message,Message.isNotBlank]

/-- Same balances and statuses, and messages that are both blank or both not. -/
def Agree (db : Database) (occasion : Site → Occasion) (c c' : Clearing) (t : BankTransaction L)
    (T : Table) : Prop :=
  Alike (process db ⟨occasion,c⟩ t T).2 (process db ⟨occasion,c'⟩ t T).2 ∧
    ∃ e e', (process db ⟨occasion,c⟩ t T).1 = .ok (some e) ∧
      (process db ⟨occasion,c'⟩ t T).1 = .ok (some e') ∧
      e.message.isNotBlank = e'.message.isNotBlank

theorem SameCourse.agree (h : Clearing.SameCourse c c') (hs : ∀ site, (occasion site).fault = none)
    (hc : t.CreditOrDebit) : Agree db occasion c c' t T := by
  constructor
  · rw [process_table db hc,process_table db hc]
    simp only [h.transfers,h.closes]
    rfl
  · obtain ⟨e,he⟩ := process_keeps db hs hc h.keeps (T := T)
    obtain ⟨e',he'⟩ := process_keeps db hs hc h.keeps' (T := T)
    refine ⟨e,e',he,he',?_⟩
    have hreport := process_reports db hs hc (c := c) (T := T)
    have hreport' := process_reports db hs hc (c := c') (T := T)
    rw [he] at hreport
    rw [he',← h.reports,← hreport] at hreport'
    simp only [Except.ok.injEq,Option.some.injEq,exists_eq_left'] at hreport'
    exact (Bool.eq_iff_iff.mpr hreport').symm

end Agree

instance (T T' : Table) : Decidable (Alike T T') := inferInstanceAs (Decidable (_ = _))

theorem Alike.map_eq {α : Type} {f : Row → α} (hf : ∀ r : Row, f r.undated = f r) {T T' : Table}
    (h : Alike T T') : T.map f = T'.map f := by
  have hmap : ∀ U : Table, U.map f = (U.map Row.undated).map f := by
    intro U
    rw [List.map_map]
    exact List.map_congr_left fun r _ => (hf r).symm
  rw [hmap,hmap T',h]

namespace Sample

def covered : BankTransaction libs := transfer 1 30000 iban₁ iban₂
def uncovered : BankTransaction libs := transfer 1 300000 iban₁ iban₂

end Sample

section Tell

open Sample

variable {c c' : Clearing}

theorem covered_balances (c : Clearing) :
    (process database ⟨(env 100 fun _ => none).occasion,c⟩ covered twoRows).2.map Row.currentBalance =
      if c.Transfers then [some 70,some 35] else [some 100,some 5] := by
  rw [process_table database (.inl rfl)]
  by_cases ht : c.Transfers <;> by_cases hd : c.Closes <;> simp only [ht,hd,ite_true,ite_false] <;>
    decide +kernel

theorem uncovered_statuses (c : Clearing) :
    (process database ⟨(env 100 fun _ => none).occasion,c⟩ uncovered twoRows).2.map Row.accountStatus =
      if c.Closes then [some 60,some 60] else [none,none] := by
  rw [process_table database (.inl rfl)]
  by_cases ht : c.Transfers <;> by_cases hd : c.Closes <;> simp only [ht,hd,ite_true,ite_false] <;>
    decide +kernel

theorem Agree.transfers
    (h : Agree database (env 100 fun _ => none).occasion c c' covered twoRows) :
    c.Transfers ↔ c'.Transfers := by
  have hb := h.1.map_eq (f := Row.currentBalance) fun _ => rfl
  rw [covered_balances,covered_balances] at hb
  by_cases ht : c.Transfers <;> by_cases ht' : c'.Transfers <;> simp_all

theorem Agree.closes
    (h : Agree database (env 100 fun _ => none).occasion c c' uncovered twoRows) :
    c.Closes ↔ c'.Closes := by
  have hs := h.1.map_eq (f := Row.accountStatus) fun _ => rfl
  rw [uncovered_statuses,uncovered_statuses] at hs
  by_cases hd : c.Closes <;> by_cases hd' : c'.Closes <;> simp_all

theorem Agree.keeps (h : Agree database (env 100 fun _ => none).occasion c c' covered twoRows) :
    ¬ c.LosesSlot ∧ ¬ c'.LosesSlot := by
  obtain ⟨-,e,e',he,he',-⟩ := h
  have hlost : ∀ {c : Clearing} {e : Throwable}, (process database ⟨(env 100 fun _ => none).occasion,c⟩
      covered twoRows).1 = .ok (some e) → ¬ c.LosesSlot := by
    intro c e he hl
    have hnone := process_loses database (c := c) (env_sound 100) (t := covered) (T := twoRows)
      (.inl rfl) hl (by decide +kernel)
    cases he.symm.trans hnone
  exact ⟨hlost he,hlost he'⟩

theorem Agree.reports
    (h : Agree database (env 100 fun _ => none).occasion c c' uncovered twoRows) :
    c.Reports ↔ c'.Reports := by
  obtain ⟨-,e,e',he,he',hsame⟩ := h
  have hthrows : ∃ e, ((FunctorBiConsumeService4Accounts.consume
      ⟨(env 100 fun _ => none).occasion,fun _ => false⟩ uncovered).run (serve database) twoRows).1 =
        .error e ∧ e.message.isNotBlank = true :=
    ⟨.caused .bankTransactionProcessing (.text ("Account " ++ iban₁ ++ " update failed. "))
      (.caused .bankTransactionProcessing (.decimal (-200) " is negative.") (.plain .currencyAmount
        (.text "Current implementation does not allow negative amounts. Rollbacked. "))),
      by decide +kernel⟩
  have hreport : ∀ {c : Clearing} {e : Throwable},
      (process database ⟨(env 100 fun _ => none).occasion,c⟩ uncovered twoRows).1 = .ok (some e) →
        (e.message.isNotBlank = true ↔ c.Reports) := by
    intro c e he
    have hr := process_reports database (c := c) (env_sound 100) (t := uncovered) (T := twoRows) (.inl rfl)
    rw [he,and_iff_left hthrows] at hr
    simpa using hr
  rw [← hreport he,← hreport he',hsame]

end Tell

/-- Two clearings give the same result for every table and every credit or debit exactly
when they let the same functors run and the same outcome through. -/
theorem processTransaction_clearing (c c' : Clearing) :
    (∀ (L : Libs) (db : Database) (occasion : Site → Occasion) (t : BankTransaction L) (T : Table),
      (∀ site, (occasion site).fault = none) → t.CreditOrDebit → Agree db occasion c c' t T) ↔
    Clearing.SameCourse c c' := by
  constructor
  · intro h
    have hcovered := h Sample.libs Sample.database (Sample.env 100 fun _ => none).occasion
      Sample.covered Sample.twoRows (Sample.env_sound 100) (.inl rfl)
    have huncovered := h Sample.libs Sample.database (Sample.env 100 fun _ => none).occasion
      Sample.uncovered Sample.twoRows (Sample.env_sound 100) (.inl rfl)
    exact ⟨hcovered.transfers,huncovered.closes,huncovered.reports,hcovered.keeps.1,hcovered.keeps.2⟩
  · intro h L db occasion t T hs hc
    exact SameCourse.agree db h hs hc

open Sample in
/-- The wrapper loses its lock in one of two calls: 30 move in the other one only, and both
callers get a blank message. -/
theorem processTransaction_clearing_differs :
    (env 100 fun _ => none).Sound ∧ (transfer 1 30000 iban₁ iban₂).CreditOrDebit ∧
    ¬ Agree database (env 100 fun _ => none).occasion (fun _ => false)
      (fun get => get = .wrapperLock) (transfer 1 30000 iban₁ iban₂) twoRows := by
  refine ⟨env_sound 100,.inl rfl,?_⟩
  rintro ⟨hT,-⟩
  revert hT
  decide +kernel

end HomeRest
