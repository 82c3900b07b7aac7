import HomeRest.TransactionListing

/-! Is a write that reports success written?
The four write operations share one skeleton: an update of no row is a success, a
`ConstraintViolationException` that gets to the handler is swallowed, and true is all that
they ever return. -/
namespace HomeRest

variable {L : Libs}

structure Tables where
  accounts : Table
  transactions : TransactionTable

inductive WriteOperation (L : Libs)
  | putAccount (account : BankAccount L)
  | updateAccount (account : BankAccount L)
  | putTransaction (transaction : BankTransaction L)
  | closeTransaction (transaction : BankTransaction L)

/-- The rows of the number are there, and each has the values. -/
def Stands (n : Option String) (values : Row → Prop) (T : Table) : Prop :=
  sqlGetAccountsByNumber n T ≠ [] ∧ ∀ r ∈ sqlGetAccountsByNumber n T, values r

namespace WriteOperation

variable (db : Database) (occasion : Occasion)

def run : WriteOperation L → Tables → Except Throwable Bool × Tables
  | .putAccount a, S =>
    let out := HomeRest.putAccount db occasion a S.accounts
    (out.1,{S with accounts := out.2})
  | .updateAccount a, S =>
    let out := HomeRest.updateAccount db occasion a S.accounts
    (out.1,{S with accounts := out.2})
  | .putTransaction t, S =>
    let out := HomeRest.putTransaction db occasion t S.transactions
    (out.1,{S with transactions := out.2})
  | .closeTransaction t, S =>
    let out := HomeRest.closeTransaction occasion t S.accounts
    (out.1,{S with accounts := out.2})

def Written : WriteOperation L → Tables → Prop
  | .putAccount a, S => savedRow db occasion a ∈ S.accounts
  | .updateAccount a, S => Stands a.accountNumber (fun r => r.accountStatus = a.accountStatus ∧
      r.dateUpdated = some a.updateAt ∧ r.currentBalance = a.currentBalance.map db.decimal) S.accounts
  | .putTransaction t, S => savedTransactionRow db occasion t ∈ S.transactions.rows
  | .closeTransaction t, S => ∀ n, n = t.transactionFrom ∨ n = t.transactionTo →
      Stands n (fun r => r.accountStatus = some 60 ∧ r.dateUpdated = some occasion.now) S.accounts

def Allowed : WriteOperation L → Tables → Prop
  | .putAccount a, S => db.accepts (savedRow db occasion a) S.accounts = true
  | .putTransaction _, S =>
    occasion.randomId ∉ S.transactions.rows.map TransactionRow.transactionId
  | _, _ => True

def FindsRows : WriteOperation L → Tables → Prop
  | .updateAccount a, S => sqlGetAccountsByNumber a.accountNumber S.accounts ≠ []
  | .closeTransaction t, S => sqlGetAccountsByNumber t.transactionFrom S.accounts ≠ [] ∧
      sqlGetAccountsByNumber t.transactionTo S.accounts ≠ []
  | _, _ => True

end WriteOperation

/-- The handler swallows a violation: one that the step meets, or a refused insert, if that
is thrown as one. -/
def Occasion.Swallows (occasion : Occasion) (db : Database) (allowed : Prop) : Prop :=
  (∃ e ∈ occasion.fault, e.cls = .constraintViolation) ∨
    occasion.fault = none ∧ ¬ allowed ∧ db.refusal.cls = .constraintViolation

section Skeleton

variable {σ : Type} {db : Database} {occasion : Occasion} {write : σ → Except Throwable σ} {s : σ}

/-- The skeleton reports the truth if a swallowed violation finds the write in place, and an
allowed statement its rows. -/
theorem commitWrite_reports (written : σ → Prop) (allowed finds : Prop)
    (hallowed : allowed → ∃ s', write s = .ok s' ∧ (written s' ↔ finds))
    (hrefused : ¬ allowed → write s = .error db.refusal) :
    ((commitWrite occasion write s).1 = .ok true → written (commitWrite occasion write s).2) ↔
      (occasion.Swallows db allowed → written s) ∧ (occasion.fault = none → allowed → finds) := by
  cases hf : occasion.fault with
  | some e =>
    by_cases hc : e.cls = .constraintViolation
    · simp [commitWrite,Occasion.Swallows,hf,hc]
    · simp [commitWrite,Occasion.Swallows,hf,hc]
  | none =>
    by_cases ha : allowed
    · obtain ⟨s',hw,hfinds⟩ := hallowed ha
      simp [commitWrite,Occasion.Swallows,hf,hw,ha,hfinds]
    · have hw := hrefused ha
      by_cases hc : db.refusal.cls = .constraintViolation
      · simp [commitWrite,Occasion.Swallows,hf,hw,ha,hc]
      · simp [commitWrite,Occasion.Swallows,hf,hw,ha,hc]

end Skeleton

section Statements

variable {db : Database} {occasion : Occasion} {T : Table}

theorem stands_updateWhere {n : Option String} {set : Row → Row} {values : Row → Prop}
    (hset : ∀ r, (set r).accountNumber = r.accountNumber) (hvalues : ∀ r, values (set r)) :
    Stands n values (updateWhere n set T) ↔ sqlGetAccountsByNumber n T ≠ [] := by
  simp only [Stands,sqlGet_updateWhere_self hset,ne_eq,List.map_eq_nil_iff,List.forall_mem_map]
  exact and_iff_left fun r _ => hvalues r

theorem stands_close {f g : Option String} {d : Millis} :
    (∀ n, n = f ∨ n = g → Stands n (fun r => r.accountStatus = some 60 ∧ r.dateUpdated = some d)
      (sqlUpdateAccountsInTransaction f g d T)) ↔
    sqlGetAccountsByNumber f T ≠ [] ∧ sqlGetAccountsByNumber g T ≠ [] := by
  have hone : ∀ n, n = f ∨ n = g → (Stands n (fun r => r.accountStatus = some 60 ∧
      r.dateUpdated = some d) (sqlUpdateAccountsInTransaction f g d T) ↔
        sqlGetAccountsByNumber n T ≠ []) := by
    intro n hn
    rw [Stands,sqlGet_close]
    simp only [sqlUpdateAccountsInTransaction,ne_eq,List.map_eq_nil_iff,List.forall_mem_map]
    apply and_iff_left
    intro r hr
    obtain ⟨-,k,hk,hkn⟩ := mem_sqlGet.mp hr
    have hrow : (sqlEq r.accountNumber f || sqlEq r.accountNumber g) = true := by
      rw [Bool.or_eq_true]
      exact hn.imp (fun h => sqlEq_iff.mpr ⟨k,hk,h.symm.trans hkn⟩)
        fun h => sqlEq_iff.mpr ⟨k,hk,h.symm.trans hkn⟩
    rw [if_pos hrow]
    exact ⟨rfl,rfl⟩
  constructor
  · exact fun h => ⟨(hone f (.inl rfl)).mp (h f (.inl rfl)),(hone g (.inr rfl)).mp (h g (.inr rfl))⟩
  · rintro ⟨hf,hg⟩ n hn
    rw [hone n hn]
    rcases hn with rfl | rfl
    · exact hf
    · exact hg

theorem putAccount_reported (a : BankAccount L) (T : Table) :
    ((putAccount db occasion a T).1 = .ok true →
      savedRow db occasion a ∈ (putAccount db occasion a T).2) ↔
    (occasion.Swallows db (db.accepts (savedRow db occasion a) T = true) →
      savedRow db occasion a ∈ T) ∧
    (occasion.fault = none → db.accepts (savedRow db occasion a) T = true → True) := by
  apply commitWrite_reports fun T => savedRow db occasion a ∈ T
  · intro h
    exact ⟨T ++ [savedRow db occasion a],by simp [h],by simp⟩
  · intro h
    simp [h]

theorem updateAccount_reported (a : BankAccount L) (T : Table) :
    ((updateAccount db occasion a T).1 = .ok true →
      Stands a.accountNumber (fun r => r.accountStatus = a.accountStatus ∧
        r.dateUpdated = some a.updateAt ∧ r.currentBalance = a.currentBalance.map db.decimal)
        (updateAccount db occasion a T).2) ↔
    (occasion.Swallows db True → Stands a.accountNumber (fun r => r.accountStatus = a.accountStatus ∧
      r.dateUpdated = some a.updateAt ∧ r.currentBalance = a.currentBalance.map db.decimal) T) ∧
    (occasion.fault = none → True → sqlGetAccountsByNumber a.accountNumber T ≠ []) := by
  apply commitWrite_reports (Stands a.accountNumber _)
  · exact fun _ => ⟨_,rfl,stands_updateWhere (updatedRow_number db a) fun _ => ⟨rfl,rfl,rfl⟩⟩
  · exact fun h => absurd trivial h

theorem putTransaction_reported (t : BankTransaction L) (U : TransactionTable) :
    ((putTransaction db occasion t U).1 = .ok true →
      savedTransactionRow db occasion t ∈ (putTransaction db occasion t U).2.rows) ↔
    (occasion.Swallows db (occasion.randomId ∉ U.rows.map TransactionRow.transactionId) →
      savedTransactionRow db occasion t ∈ U.rows) ∧
    (occasion.fault = none → occasion.randomId ∉ U.rows.map TransactionRow.transactionId →
      True) := by
  apply commitWrite_reports fun U : TransactionTable => savedTransactionRow db occasion t ∈ U.rows
  · intro h
    obtain ⟨V,hV,hrows⟩ := TransactionTable.insert_fresh db (savedTransactionRow db occasion t) h
    exact ⟨V,hV,by simp [hrows]⟩
  · intro h
    exact TransactionTable.insert_known db (not_not.mp h)

variable (db) in
theorem closeTransaction_reported (t : BankTransaction L) (T : Table) :
    ((closeTransaction occasion t T).1 = .ok true →
      ∀ n, n = t.transactionFrom ∨ n = t.transactionTo → Stands n (fun r =>
        r.accountStatus = some 60 ∧ r.dateUpdated = some occasion.now) (closeTransaction occasion t T).2) ↔
    (occasion.Swallows db True → ∀ n, n = t.transactionFrom ∨ n = t.transactionTo →
      Stands n (fun r => r.accountStatus = some 60 ∧ r.dateUpdated = some occasion.now) T) ∧
    (occasion.fault = none → True → sqlGetAccountsByNumber t.transactionFrom T ≠ [] ∧
      sqlGetAccountsByNumber t.transactionTo T ≠ []) := by
  apply commitWrite_reports fun T => ∀ n, n = t.transactionFrom ∨ n = t.transactionTo →
    Stands n (fun r => r.accountStatus = some 60 ∧ r.dateUpdated = some occasion.now) T
  · exact fun _ => ⟨_,rfl,stands_close⟩
  · exact fun h => absurd trivial h

end Statements

/-- A write that reports success is written exactly when no violation is swallowed, unless the
values are there anyway, and a statement that goes through finds its rows. -/
theorem write_reported (db : Database) (occasion : Occasion) (op : WriteOperation L) (S : Tables) :
    ((op.run db occasion S).1 = .ok true → op.Written db occasion (op.run db occasion S).2) ↔
      (occasion.Swallows db (op.Allowed db occasion S) → op.Written db occasion S) ∧
      (occasion.fault = none → op.Allowed db occasion S → op.FindsRows S) := by
  cases op with
  | putAccount a => exact putAccount_reported a S.accounts
  | updateAccount a => exact updateAccount_reported a S.accounts
  | putTransaction t => exact putTransaction_reported t S.transactions
  | closeTransaction t => exact closeTransaction_reported db t S.accounts

namespace Sample

def unstored : WriteOperation libs := .updateAccount (account 0 iban₃ 5 valid₃)

end Sample

open Sample in
/-- No row is changed, and true is returned. -/
theorem write_unreported :
    ¬ ((unstored.run database ⟨none,100,3⟩ ⟨twoRows,oneTransaction⟩).1 = .ok true →
      unstored.Written database ⟨none,100,3⟩
        (unstored.run database ⟨none,100,3⟩ ⟨twoRows,oneTransaction⟩).2) := by
  intro h
  obtain ⟨hrows,-⟩ : Stands (some iban₃) _ _ := h (by decide +kernel)
  exact hrows (by decide +kernel)

end HomeRest
