import HomeRest.Atomicity
import HomeRest.Ledger

/-! What the currency guard protects.
In the pass that moves money the guard compares the currencies of the objects that the
caller handed in, while the money moves between the stored rows. The rows are compared only
in a pass after that. -/
namespace HomeRest

open AtomicProgram

variable {L : Libs}

def Differs (db : Database) (n : Option String) (v : ℚ) (T : Table) : Prop :=
  ∃ r ∈ sqlGetAccountsByNumber n T, r.currentBalance ≠ some (db.decimal v)

/-- The stored rows can be moved, and a balance changes by that. -/
def Movable (db : Database) (env : Env) (t : BankTransaction L) (pass : ℕ) (T : Table) : Prop :=
  ∃ p b d a c, Covers env pass t T p b d a c ∧
    (Differs db t.transactionFrom (b-p) T ∨ Differs db t.transactionTo (d+p) T)

def StoredCurrency (t : BankTransaction L) (T : Table) : Prop :=
  ∀ r ∈ T, (sqlEq r.accountNumber t.transactionFrom || sqlEq r.accountNumber t.transactionTo) = true →
    r.currencyUnit = t.currencyUnit

instance (t : BankTransaction L) (T : Table) : Decidable (StoredCurrency t T) :=
  inferInstanceAs (Decidable (∀ r ∈ T, _ → _))

section Guard

variable {db : Database} {env : Env} {t : BankTransaction L} {n m : String} {u v : BankAccount L}
  {T : Table}

theorem Partners.sides_ne (h : Partners t n m u v) : t.transactionFrom ≠ t.transactionTo := by
  rw [h.transactionFrom,h.transactionTo]
  exact fun he => h.different (Option.some.inj he)

theorem delivered_changes (hs : env.Sound) (hne : t.transactionFrom ≠ t.transactionTo) (pass : ℕ)
    (p b d : ℚ) : (delivered db env pass t p b d T).balances ≠ T.balances ↔
      Differs db t.transactionFrom (b-p) T ∨ Differs db t.transactionTo (d+p) T := by
  rw [delivered_sound hs,ne_eq,book_book_balances hne,book_balances,book_balances]
  simp only [Differs,not_and_or,not_forall,exists_prop]

/-- A balance changes exactly when the objects pass the guard and the rows can be moved. -/
theorem Partners.changes_iff (h : Partners t n m u v) (hs : env.Sound) :
    ((transactInAccounts env t [u,v]).run (serve db) T).2.balances ≠ T.balances ↔
      currencyGuard u v t = .ok () ∧ Movable db env t (passOf t u) T := by
  by_cases hg : currencyGuard u v t = .ok ()
  · by_cases hcov : ∃ p b d a c, Covers env (passOf t u) t T p b d a c
    · obtain ⟨p,b,d,a,c,hcov⟩ := hcov
      obtain ⟨hu,hv⟩ := h.readable hcov
      obtain ⟨bf,bt,-,-,hok,hlate⟩ := h.delivered_run db ⟨hg,hu.reads (hs _),fun _ => hv.reads (hs _)⟩
        hcov (hs.bothReturn _)
      have htable : ((transactInAccounts env t [u,v]).run (serve db) T).2 =
          delivered db env (passOf t u) t p b d T := by
        by_cases hother : VisitsOther env t u a c
        · rw [hok hother]
        · obtain ⟨e,he⟩ := hlate hother
          rw [he]
      rw [htable,delivered_changes hs h.sides_ne]
      constructor
      · exact fun hdiff => ⟨hg,p,b,d,a,c,hcov,hdiff⟩
      · rintro ⟨-,p',b',d',a',c',hcov',hdiff⟩
        obtain ⟨rfl,rfl,rfl,-,-⟩ := hcov.unique hcov'
        exact hdiff
    · obtain ⟨e,he⟩ := h.uncovered_run db hcov
      rw [he]
      exact iff_of_false (fun hne => hne rfl) fun ⟨_,p,b,d,a,c,hcov',_⟩ => hcov ⟨p,b,d,a,c,hcov'⟩
  · obtain ⟨e,he⟩ := h.unarrived_run db fun harr : Arrives env t u v T => hg harr.guard
    rw [he]
    exact iff_of_false (fun hne => hne rfl) fun hm => hg hm.1

/-- A changed balance means stored rows in the currency of the transaction exactly when the
objects of the caller do not pretend so for rows that can be moved. -/
theorem currencyGuard_protects (db : Database) (h : Partners t n m u v) (hs : env.Sound) (T : Table) :
    (((transactInAccounts env t [u,v]).run (serve db) T).2.balances ≠ T.balances →
      StoredCurrency t T) ↔
    ¬ (currencyGuard u v t = .ok () ∧ Movable db env t (passOf t u) T ∧ ¬ StoredCurrency t T) := by
  rw [h.changes_iff hs]
  tauto

end Guard

namespace Sample

def dollarRows : Table := [{row 1 iban₁ 100 with currencyUnit := some "USD"},row 2 iban₂ 5]

theorem partners : Partners (transfer (-1) 30000 iban₁ iban₂) iban₁ iban₂ fromAccount toAccount :=
  ⟨.inr rfl,rfl,rfl,by decide,.inl ⟨rfl,rfl⟩⟩

end Sample

open Sample in
theorem currencyGuard_protects_sample :
    (((transactInAccounts (env 100 fun _ => none) (transfer (-1) 30000 iban₁ iban₂)
      [fromAccount,toAccount]).run (serve database) dollarRows).2.balances ≠ dollarRows.balances →
      StoredCurrency (transfer (-1) 30000 iban₁ iban₂) dollarRows) ↔
    ¬ (currencyGuard fromAccount toAccount (transfer (-1) 30000 iban₁ iban₂) = .ok () ∧
      Movable database (env 100 fun _ => none) (transfer (-1) 30000 iban₁ iban₂)
        (passOf (transfer (-1) 30000 iban₁ iban₂) fromAccount) dollarRows ∧
      ¬ StoredCurrency (transfer (-1) 30000 iban₁ iban₂) dollarRows) :=
  currencyGuard_protects database partners (env_sound 100) dollarRows

open Sample in
/-- Two objects in euro move 30 dollars to an account in euro. -/
theorem currencyGuard_blind :
    Partners (transfer (-1) 30000 iban₁ iban₂) iban₁ iban₂ fromAccount toAccount ∧
    (env 100 fun _ => none).Sound ∧
    ¬ (((transactInAccounts (env 100 fun _ => none) (transfer (-1) 30000 iban₁ iban₂)
      [fromAccount,toAccount]).run (serve database) dollarRows).2.balances ≠ dollarRows.balances →
      StoredCurrency (transfer (-1) 30000 iban₁ iban₂) dollarRows) := by
  refine ⟨partners,env_sound 100,?_⟩
  decide +kernel

end HomeRest
