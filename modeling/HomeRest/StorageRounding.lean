import HomeRest.Conservation
import HomeRest.HalfUp

/-! A transfer whose balances go to a column with two fraction digits.
Both new balances are computed on the unrounded amount, and the column rounds each of them
on its own. -/
namespace HomeRest

open AtomicProgram

variable {L : Libs}

/-- The database with a `decimal(19,2)` column, which refuses a row with more than 17 digits
before the point; an update that does not fit is a step that fails. -/
def Database.twoDigits (db : Database) : Database where
  decimal := HalfUp.toScale 2
  decimal_nonneg _ h := HalfUp.toScale_nonneg 2 h
  accepts row T := (row.currentBalance.all fun b => decide (|b| < 10^17)) && db.accepts row T
  refusal := db.refusal

theorem Database.twoDigits_accepts {db : Database} {row : Row} {T : Table} :
    db.twoDigits.accepts row T = true ↔
      (∀ b ∈ row.currentBalance, |b| < 10^17) ∧ db.accepts row T = true := by
  cases hb : row.currentBalance <;> simp [Database.twoDigits,hb]

def storedBalance (n : Option String) (T : Table) : ℚ :=
  ((sqlGetAccountsByNumber n T).map fun r => r.currentBalance.getD 0).sum

def Cents (b : ℚ) : Prop := ∃ m : ℤ, b = m/10^2

/-- The transfer is started, `transactInAccounts` returns and both of its writes are made. -/
structure Succeeds (db : Database) (env : Env) (t : BankTransaction L) (T : Table) : Prop where
  started : env.cleared .wrapperLock = false
  returned : ∃ result T₁, (FunctorBiConsumeService4Accounts.consume env t).run (serve db) T =
    (.ok (some result),T₁)
  writtenFrom : (env.occasion (.updateFrom (firingPass t))).fault = none
  writtenTo : (env.occasion (.updateTo (firingPass t))).fault = none

section Stored

variable {n m : Option String} {T : Table} {r : Row}

theorem storedBalance_single (h : sqlGetAccountsByNumber n T = [r]) :
    storedBalance n T = r.currentBalance.getD 0 := by
  simp [storedBalance,h]

theorem storedBalance_closed (env : Env) (t : BankTransaction L) (n : Option String) (T : Table) :
    storedBalance n (closed env t T) = storedBalance n T := by
  simp only [closed,Occasion.commits]
  split_ifs
  · have hmoney : ∀ d r, (closedRow d r).currentBalance.getD 0 = r.currentBalance.getD 0 :=
      fun _ _ => rfl
    rw [storedBalance,sqlGet_close,map_close hmoney]
    rfl
  · rfl
  · rfl

end Stored

section Rounding

variable {db : Database} {env : Env} {t : BankTransaction L} {T : Table} {r s : Row}

theorem Succeeds.stored (h : Succeeds db env t T) (hc : t.CreditOrDebit)
    (hne : t.transactionFrom ≠ t.transactionTo)
    (hr : sqlGetAccountsByNumber t.transactionFrom T = [r])
    (hs : sqlGetAccountsByNumber t.transactionTo T = [s]) :
    ∃ x b d, t.transactionAmount = some x ∧ r.currentBalance = some b ∧ s.currentBalance = some d ∧
      0 ≤ b-x ∧ 0 ≤ d+x ∧
      storedBalance t.transactionFrom (process db env t T).2 = db.decimal (b-x) ∧
      storedBalance t.transactionTo (process db env t T).2 = db.decimal (d+x) := by
  obtain ⟨result,T₁,hrun⟩ := h.returned
  have hadm : ∃ a c, Admits env t T a c := by
    by_contra hadm
    obtain ⟨out,hout,hno⟩ := consume_refused db hadm
    cases hrun.symm.trans hout
    exact hno result rfl
  obtain ⟨a,c,hadm⟩ := hadm
  obtain ⟨n,m,hb⟩ := between_of_reads hc hne hadm.readsFrom hadm.readsTo
  rw [consume_admitted db hadm,Program.run_bind_ok] at hrun
  obtain ⟨list,T₂,htr,hret⟩ := hrun
  cases hret
  obtain ⟨x,b,d,a',c',hcov,rfl⟩ := hb.returns_delivered db htr
  have hrb : r.currentBalance = some b := (hcov.readsFrom.single hr).2.balance.symm.trans hcov.balanceFrom
  have hsd : s.currentBalance = some d := (hcov.readsTo.single hs).2.balance.symm.trans hcov.balanceTo
  have hx0 : 0 ≤ x := t.amount_nonneg x hcov.amount
  have hd0 : 0 ≤ d := c'.balance_nonneg d hcov.balanceTo
  refine ⟨x,b,d,hcov.amount,hrb,hsd,by linarith [hcov.enough],by linarith,?_⟩
  obtain ⟨out,hp⟩ := process_run db env hc T
  have htable : transferred db env t T = book db t.transactionTo 20 (d+x)
      (env.occasion (.balanceTo (firingPass t))).now
      (book db t.transactionFrom 10 (b-x) (env.occasion (.balanceFrom (firingPass t))).now T) := by
    rw [transferred,if_pos h.started,consume_admitted db hadm,Program.run_cont_ok (serve db) htr]
    simp only [Program.run_ret,delivered,debited,Occasion.commits_none h.writtenFrom,
      Occasion.commits_none h.writtenTo]
  rw [hp,htable,storedBalance_closed,storedBalance_closed]
  constructor
  · rw [storedBalance_single (r := bookedRow db 10 (b-x) (env.occasion (.balanceFrom (firingPass t))).now r)]
    · rfl
    · rw [book,sqlGet_updateWhere_ne (bookedRow_number _ _ _ _) (Ne.symm hne),book,
        sqlGet_updateWhere_self (bookedRow_number _ _ _ _),hr]
      rfl
  · rw [storedBalance_single (r := bookedRow db 20 (d+x) (env.occasion (.balanceTo (firingPass t))).now s)]
    · rfl
    · rw [book,sqlGet_updateWhere_self (bookedRow_number _ _ _ _),book,
        sqlGet_updateWhere_ne (bookedRow_number _ _ _ _) hne,hs]
      rfl

/-- Rounding makes no money and loses none exactly when the amount does not end in half
a cent. -/
theorem processTransaction_rounding (hc : t.CreditOrDebit)
    (hne : t.transactionFrom ≠ t.transactionTo)
    (hr : sqlGetAccountsByNumber t.transactionFrom T = [r])
    (hs : sqlGetAccountsByNumber t.transactionTo T = [s])
    (hrc : ∀ b, r.currentBalance = some b → Cents b) (hsc : ∀ d, s.currentBalance = some d → Cents d)
    (h : Succeeds db.twoDigits env t T) :
    storedBalance t.transactionFrom (process db.twoDigits env t T).2 +
        storedBalance t.transactionTo (process db.twoDigits env t T).2 =
      storedBalance t.transactionFrom T + storedBalance t.transactionTo T ↔
    ∀ x, t.transactionAmount = some x → Int.fract (100*x) ≠ 1/2 := by
  obtain ⟨x,b,d,hx,hb,hd,hbx,hdx,hfrom,hto⟩ := h.stored hc hne hr hs
  obtain ⟨m,hm⟩ := hrc b hb
  obtain ⟨n,hn⟩ := hsc d hd
  have hsplit : db.twoDigits.decimal (b-x) + db.twoDigits.decimal (d+x) =
      b+d ↔ Int.fract (10^2*x) ≠ 1/2 := HalfUp.toScale_split 2 hm hn hbx hdx
  rw [hfrom,hto,storedBalance_single hr,storedBalance_single hs,hb,hd,Option.getD_some,
    Option.getD_some,hsplit,hx]
  have hscale : (10 : ℚ)^2*x = 100*x := by ring
  rw [hscale]
  simp only [Option.some.injEq,forall_eq']

end Rounding

namespace Sample

def cents : Database := database.twoDigits

theorem returned_eq {α : Type} {x : Except Throwable (Option α) × Table}
    (h : x.1.toOption.join.isSome = true) : ∃ a T, x = (.ok (some a),T) := by
  obtain ⟨r,T⟩ := x
  rcases r with e | _ | a
  · simp [Except.toOption] at h
  · simp [Except.toOption] at h
  · exact ⟨a,T,rfl⟩

theorem row_cents (accountId : UUID) (number : String) (m : ℤ) :
    ∀ b, (row accountId number m).currentBalance = some b → Cents b := by
  rintro b hb
  cases hb
  exact ⟨100*m,by push_cast; ring⟩

theorem succeeds : Succeeds cents (env 100 fun _ => none) (transfer 1 30000 iban₁ iban₂)
    twoRows :=
  ⟨rfl,returned_eq (by decide +kernel),rfl,rfl⟩

end Sample

open Sample in
theorem processTransaction_rounding_sample :
    storedBalance (some iban₁) (process cents (env 100 fun _ => none)
        (transfer 1 30000 iban₁ iban₂) twoRows).2 +
      storedBalance (some iban₂) (process cents (env 100 fun _ => none)
        (transfer 1 30000 iban₁ iban₂) twoRows).2 =
      storedBalance (some iban₁) twoRows + storedBalance (some iban₂) twoRows ↔
    ∀ x, (transfer 1 30000 iban₁ iban₂).transactionAmount = some x →
      Int.fract (100*x) ≠ 1/2 :=
  processTransaction_rounding (.inl rfl) (by decide) twoRows_from twoRows_to
    (row_cents 1 iban₁ 100) (row_cents 2 iban₂ 5) succeeds

open Sample in
/-- A transfer of half a cent makes a cent. -/
theorem processTransaction_rounding_halfCent :
    Succeeds cents (env 100 fun _ => none) (transfer 1 5 iban₁ iban₂) twoRows ∧
    storedBalance (some iban₁) (process cents (env 100 fun _ => none)
        (transfer 1 5 iban₁ iban₂) twoRows).2 +
      storedBalance (some iban₂) (process cents (env 100 fun _ => none)
        (transfer 1 5 iban₁ iban₂) twoRows).2 ≠
      storedBalance (some iban₁) twoRows + storedBalance (some iban₂) twoRows :=
  ⟨⟨rfl,returned_eq (by decide +kernel),rfl,rfl⟩,by decide +kernel⟩

end HomeRest
