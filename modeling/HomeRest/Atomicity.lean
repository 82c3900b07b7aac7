import HomeRest.TransferRun

/-! Is a transfer all or nothing?
The debit and the credit are committed one after the other. A step that fails in between,
or in the pass that a credit still makes after both, leaves a part behind. -/
namespace HomeRest

open AtomicProgram

variable {L : Libs}

def Table.balances (T : Table) : List (Option ℚ) := T.map Row.currentBalance

theorem book_balances {db : Database} {n : Option String} {status : ℤ} {v : ℚ} {now : Millis}
    {T : Table} : (book db n status v now T).balances = T.balances ↔
      ∀ r ∈ sqlGetAccountsByNumber n T, r.currentBalance = some (db.decimal v) := by
  induction T with
  | nil => simp [Table.balances,book,updateWhere,sqlGetAccountsByNumber]
  | cons r T ih =>
    simp only [Table.balances,book,updateWhere,sqlGetAccountsByNumber,List.map_cons,
      List.cons.injEq,List.filter_cons] at ih ⊢
    by_cases hr : sqlEq r.accountNumber n = true
    · simp only [hr,ite_true,bookedRow_balance,List.forall_mem_cons,ih]
      exact and_congr_left fun _ => eq_comm
    · simp only [hr,Bool.false_eq_true,ite_false,true_and,ih]

theorem book_book_balances {db : Database} {n m : Option String} (hnm : n ≠ m) {s s' : ℤ} {v v' : ℚ}
    {now now' : Millis} {T : Table} :
    (book db m s' v' now' (book db n s v now T)).balances = T.balances ↔
      (book db n s v now T).balances = T.balances ∧ (book db m s' v' now' T).balances = T.balances := by
  induction T with
  | nil => simp [Table.balances,book,updateWhere]
  | cons r T ih =>
    simp only [Table.balances,book,updateWhere,List.map_cons,List.cons.injEq] at ih ⊢
    have hne : ¬ (sqlEq r.accountNumber n = true ∧ sqlEq r.accountNumber m = true) := by
      rintro ⟨hn,hm⟩
      obtain ⟨k,hk,hkn⟩ := sqlEq_iff.mp hn
      obtain ⟨k',hk',hkm⟩ := sqlEq_iff.mp hm
      exact hnm (hkn.trans (hk.symm.trans (hk'.trans hkm.symm)))
    rw [ih]
    by_cases hn : sqlEq r.accountNumber n = true
    · have hm : ¬ sqlEq r.accountNumber m = true := fun hm => hne ⟨hn,hm⟩
      simp only [hn,hm,ite_true,bookedRow_number,Bool.false_eq_true,ite_false,true_and]
      tauto
    · simp only [hn,Bool.false_eq_true,ite_false,true_and]
      tauto

section

variable (db : Database) (env : Env) (t : BankTransaction L) (T : Table)

def DebitShows (p b : ℚ) : Prop :=
  (env.occasion (.updateFrom (firingPass t))).fault = none ∧
    ∃ r ∈ sqlGetAccountsByNumber t.transactionFrom T, r.currentBalance ≠ some (db.decimal (b-p))

def CreditShows (p d : ℚ) : Prop :=
  (env.occasion (.updateTo (firingPass t))).fault = none ∧
    ∃ r ∈ sqlGetAccountsByNumber t.transactionTo T, r.currentBalance ≠ some (db.decimal (d+p))

/-- The transfer gets to its writes, and a step fails after a write that shows. -/
def FailsHalfway (x y : BankAccount L) : Prop :=
  Reaches env t x y T ∧ ∃ p b d a c, Covers env (firingPass t) t T p b d a c ∧
    (¬ BothReturn env (firingPass t) ∧ DebitShows db env t T p b ∨
      BothReturn env (firingPass t) ∧ ¬ Finishes env t a c ∧
        (DebitShows db env t T p b ∨ CreditShows db env t T p d))

variable {db env t T} {p b d : ℚ}

theorem debited_balances :
    (debited db env (firingPass t) t p b T).balances = T.balances ↔ ¬ DebitShows db env t T p b := by
  by_cases hf : (env.occasion (.updateFrom (firingPass t))).fault = none
  · simp [debited,DebitShows,Occasion.commits,hf,book_balances]
  · simp [debited,DebitShows,Occasion.commits,hf]

theorem delivered_balances (hnm : t.transactionFrom ≠ t.transactionTo) :
    (delivered db env (firingPass t) t p b d T).balances = T.balances ↔
      ¬ (DebitShows db env t T p b ∨ CreditShows db env t T p d) := by
  by_cases hf : (env.occasion (.updateFrom (firingPass t))).fault = none <;>
    by_cases ht : (env.occasion (.updateTo (firingPass t))).fault = none <;>
      simp [delivered,debited,DebitShows,CreditShows,Occasion.commits,hf,ht,
        book_book_balances hnm,book_balances]

/-- A transfer that throws has changed no balance, unless it fails halfway. -/
theorem transactInAccounts_allOrNothing {n m : String} {x y : BankAccount L}
    (h : Between t n m x y) :
    (∀ e T', (transactInAccounts env t [x,y]).run (serve db) T = (.error e,T') →
      T'.balances = T.balances) ↔ ¬ FailsHalfway db env t T x y := by
  have hnm : t.transactionFrom ≠ t.transactionTo := by
    rw [h.transactionFrom,h.transactionTo]
    exact fun he => h.different (Option.some.inj he)
  constructor
  · rintro hall ⟨hr,p,b,d,a,c,hcov,⟨hw,hshow⟩ | ⟨hw,hfin,hshow⟩⟩
    · obtain ⟨e,he⟩ := h.torn_run db hr hcov hw
      exact debited_balances.mp (hall e _ he) hshow
    · obtain ⟨e,he⟩ := (h.delivered_run db hr hcov hw).2 hfin
      exact (delivered_balances hnm).mp (hall e _ he) hshow
  · intro hhalf e T' hrun
    by_cases hr : Reaches env t x y T
    · by_cases hcov : ∃ p b d a c, Covers env (firingPass t) t T p b d a c
      · obtain ⟨p,b,d,a,c,hcov⟩ := hcov
        by_cases hw : BothReturn env (firingPass t)
        · by_cases hfin : Finishes env t a c
          · obtain ⟨list,hok⟩ := (h.delivered_run db hr hcov hw).1 hfin
            cases hrun.symm.trans hok
          · obtain ⟨e',he⟩ := (h.delivered_run db hr hcov hw).2 hfin
            cases hrun.symm.trans he
            exact (delivered_balances hnm).mpr fun hshow =>
              hhalf ⟨hr,p,b,d,a,c,hcov,.inr ⟨hw,hfin,hshow⟩⟩
        · obtain ⟨e',he⟩ := h.torn_run db hr hcov hw
          cases hrun.symm.trans he
          exact debited_balances.mpr fun hshow => hhalf ⟨hr,p,b,d,a,c,hcov,.inl ⟨hw,hshow⟩⟩
      · obtain ⟨e',he⟩ := h.uncovered_run db hcov
        cases hrun.symm.trans he
        rfl
    · obtain ⟨e',he⟩ := h.unreached_run db hr
      cases hrun.symm.trans he
      rfl

end

namespace Sample

def fromAccount : BankAccount libs := account 1 iban₁ 100 (by decide)
def toAccount : BankAccount libs := account 2 iban₂ 5 (by decide)

theorem between : Between (transfer 1 30000 iban₁ iban₂) iban₁ iban₂ fromAccount toAccount :=
  ⟨.inl rfl,rfl,rfl,by decide,rfl,rfl⟩

end Sample

open Sample in
theorem transactInAccounts_allOrNothing_sample :
    (∀ e T', (transactInAccounts (env 100 fun _ => none) (transfer 1 30000 iban₁ iban₂)
      [fromAccount,toAccount]).run (serve database) twoRows = (.error e,T') →
      T'.balances = twoRows.balances) ↔
    ¬ FailsHalfway database (env 100 fun _ => none) (transfer 1 30000 iban₁ iban₂) twoRows
      fromAccount toAccount :=
  transactInAccounts_allOrNothing between

open Sample in
/-- The second write does not fit the column: the debit stays. -/
theorem transactInAccounts_torn :
    ∃ e T', (transactInAccounts
        (env 100 fun site => if site = .updateTo 0 then some outOfRange else none)
        (transfer 1 30000 iban₁ iban₂) [fromAccount,toAccount]).run (serve database) twoRows =
      (.error e,T') ∧ T'.balances ≠ twoRows.balances := by
  have hfail : ((transactInAccounts
      (env 100 fun site => if site = .updateTo 0 then some outOfRange else none)
      (transfer 1 30000 iban₁ iban₂) [fromAccount,toAccount]).run (serve database)
      twoRows).1.isOk = false := by decide +kernel
  obtain ⟨e,he⟩ := Program.failed_eq hfail
  exact ⟨e,_,he,by decide +kernel⟩

end HomeRest
