import HomeRest.ProcessRun

/-! What a rejected transfer leaves behind.
The transfer functor writes nothing then. The closing functor still stamps both accounts. -/
namespace HomeRest

open AtomicProgram

variable {L : Libs}

/-- The reasons for which a transfer is rejected. -/
inductive Rejected (t : BankTransaction L) (T : Table) : Prop
  | unknownFrom (h : sqlGetAccountsByNumber t.transactionFrom T = [])
  | unknownTo (h : sqlGetAccountsByNumber t.transactionTo T = [])
  | currency (h : ∀ r ∈ sqlGetAccountsByNumber t.transactionFrom T,
      ∀ s ∈ sqlGetAccountsByNumber t.transactionTo T,
        ¬ ∃ c, r.currencyUnit = some c ∧ s.currencyUnit = some c ∧ t.currencyUnit = some c)
  | amount (h : t.transactionAmount = none)
  | funds (h : ∀ r ∈ sqlGetAccountsByNumber t.transactionFrom T, ∀ x b,
      t.transactionAmount = some x → r.currentBalance = some b → b < x)

section Loop

variable (db : Database) {env : Env} {t : BankTransaction L} {T : Table}

theorem loop_uncovered (hc : t.CreditOrDebit)
    (h : ∀ pass, ¬ ∃ x b d a c, Covers env pass t T x b d a c) (collection : List (BankAccount L)) :
    ∀ pass balanceFrom balanceTo,
      ((transactLoop env t pass collection balanceFrom balanceTo).run (serve db) T).2 = T := by
  induction collection with
  | nil => intro pass balanceFrom balanceTo; rfl
  | cons z rest ih =>
    intro pass balanceFrom balanceTo
    by_cases hr : ∃ account : BankAccount L,
      Reads (env.occasion (.loop pass)) z.accountNumber T account
    · obtain ⟨account,hr⟩ := hr
      rw [pass_reads db rfl hr]
      rcases visit_cases rest balanceFrom balanceTo hr.complete with ⟨e,he⟩ | ⟨-,he⟩ | he
      · rw [he,Program.run_raise]
      · obtain ⟨e,hfire⟩ := fire_uncovered db hc account (h pass)
        rw [he,Program.run_cont_error (serve db) hfire,Program.run_raise]
      · rw [he]
        exact ih (pass+1) balanceFrom balanceTo
    · have hrun : ∃ e, (transactLoop env t pass (z :: rest) balanceFrom balanceTo).run (serve db) T =
        (.error e,T) := pass_unread db hc hr
      obtain ⟨e,he⟩ := hrun
      rw [he]

theorem consume_rejected (hc : t.CreditOrDebit) (h : Rejected t T) :
    ((FunctorBiConsumeService4Accounts.consume env t).run (serve db) T).2 = T := by
  by_cases hadm : ∃ x y, Admits env t T x y
  · obtain ⟨x,y,hadm⟩ := hadm
    have hkeep : ((transactInAccounts env t [x,y]).run (serve db) T).2 = T →
        ((FunctorBiConsumeService4Accounts.consume env t).run (serve db) T).2 = T := by
      intro hT
      rw [consume_admitted db hadm,Program.run_cont]
      cases hrun : (transactInAccounts env t [x,y]).run (serve db) T with
      | mk r T' =>
        rw [hrun] at hT
        cases r <;> exact hT
    apply hkeep
    obtain ⟨r,hr,-,hcr⟩ := hadm.readsFrom.row
    obtain ⟨s,hs,-,hcs⟩ := hadm.readsTo.row
    cases h with
    | unknownFrom h => simp [h] at hr
    | unknownTo h => simp [h] at hs
    | currency h =>
      have hg : ∃ e, currencyGuard x y t = .error e := by
        cases hg : currencyGuard x y t with
        | error e => exact ⟨e,rfl⟩
        | ok u =>
          obtain ⟨c,hx,hy,ht⟩ := currencyGuard_ok.mp hg
          exact absurd ⟨c,hcr.currency.symm.trans hx,hcs.currency.symm.trans hy,ht⟩ (h r hr s hs)
      obtain ⟨e,he⟩ := hg
      obtain ⟨e',he'⟩ : ∃ e, (transactInAccounts env t [x,y]).run (serve db) T = (.error e,T) :=
        pass_guard db hc he
      rw [he']
    | amount h =>
      refine loop_uncovered db hc (fun pass hcov => ?_) [x,y] 0 x y
      obtain ⟨p,b,d,a,c,hcov⟩ := hcov
      cases h.symm.trans hcov.amount
    | funds h =>
      refine loop_uncovered db hc (fun pass hcov => ?_) [x,y] 0 x y
      obtain ⟨p,b,d,a,c,hcov⟩ := hcov
      obtain ⟨r',hr',-,hca⟩ := hcov.readsFrom.row
      have hlt := h r' hr' p b hcov.amount (hca.balance.symm.trans hcov.balanceFrom)
      exact absurd hcov.enough (not_le.mpr hlt)
  · obtain ⟨r,hr,-⟩ := consume_refused db hadm
    rw [hr]

end Loop

section Close

variable {f g : Option String} {d : Millis} {T : Table}

theorem closedRow_eq {r : Row} :
    closedRow d r = r ↔ r.accountStatus = some 60 ∧ r.dateUpdated = some d := by
  cases r
  simp only [closedRow,Row.mk.injEq,true_and]
  exact and_congr eq_comm eq_comm

theorem close_eq_self : sqlUpdateAccountsInTransaction f g d T = T ↔
    ∀ r ∈ T, (sqlEq r.accountNumber f || sqlEq r.accountNumber g) = true →
      r.accountStatus = some 60 ∧ r.dateUpdated = some d := by
  induction T with
  | nil => simp [sqlUpdateAccountsInTransaction]
  | cons r T ih =>
    simp only [sqlUpdateAccountsInTransaction,List.map_cons,List.cons.injEq,List.forall_mem_cons] at ih ⊢
    rw [ih]
    apply and_congr_left
    intro _
    by_cases hr : (sqlEq r.accountNumber f || sqlEq r.accountNumber g) = true
    · simp only [hr,ite_true,closedRow_eq,true_imp_iff]
    · simp only [hr,Bool.false_eq_true,ite_false,false_imp_iff]

/-- The rows of both accounts are closed already, with the time that the clock of the
close step shows. -/
def AlreadyClosed (env : Env) (t : BankTransaction L) (T : Table) : Prop :=
  ∀ r ∈ T, (sqlEq r.accountNumber t.transactionFrom || sqlEq r.accountNumber t.transactionTo) = true →
    r.accountStatus = some 60 ∧ r.dateUpdated = some (env.occasion .close).now

/-- A rejected transfer leaves no trace exactly when the stamp of the closing functor, which
runs unless its lock is gone, is there already. -/
theorem processTransaction_rejected (db : Database) {env : Env} (hs : env.Sound)
    {t : BankTransaction L} (hc : t.CreditOrDebit) (h : Rejected t T) :
    (process db env t T).2 = T ↔ ¬ env.Closes ∨ AlreadyClosed env t T := by
  obtain ⟨out,hout⟩ := process_run db env hc T
  have htr : transferred db env t T = T := by
    simp only [transferred]
    split_ifs
    · exact consume_rejected db hc h
    · rfl
  rw [hout,htr]
  by_cases hcl : env.Closes
  · simp only [closed,hcl,ite_true,Occasion.commits_none (hs _),close_eq_self,AlreadyClosed,
      not_true_eq_false,false_or]
  · simp only [closed,hcl,ite_false,not_false_eq_true,true_or]

end Close

namespace Sample

theorem rejected : Rejected (transfer 1 300000 iban₁ iban₂) twoRows := by
  refine .funds fun r hr x b hx hb => ?_
  have hrow : r = row 1 iban₁ 100 := by
    simpa [transfer,twoRows_from] using hr
  have hx300 : ((300000 : ℕ) : ℚ)/1000 = x := Option.some.inj hx
  have hb100 : 100 = b := by
    rw [hrow] at hb
    exact Option.some.inj hb
  rw [← hx300,← hb100]
  norm_num

end Sample

open Sample in
theorem processTransaction_rejected_sample :
    (process database (env 100 fun _ => none) (transfer 1 300000 iban₁ iban₂)
      twoRows).2 = twoRows ↔
    ¬ (env 100 fun _ => none).Closes ∨
      AlreadyClosed (env 100 fun _ => none) (transfer 1 300000 iban₁ iban₂) twoRows :=
  processTransaction_rejected database (env_sound 100) (.inl rfl) rejected

open Sample in
/-- A transfer of more than the from account holds is rejected, and both rows are stamped. -/
theorem processTransaction_rejected_stamps :
    Rejected (transfer 1 300000 iban₁ iban₂) twoRows ∧
    (process database (env 100 fun _ => none) (transfer 1 300000 iban₁ iban₂)
      twoRows).2 ≠ twoRows :=
  ⟨rejected,by decide +kernel⟩

end HomeRest
