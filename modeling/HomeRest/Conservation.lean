import HomeRest.Ledger
import Mathlib.Algebra.BigOperators.Group.List.Basic

/-! Where the money goes.
On a store that keeps what is written, runs of transfers between different accounts conserve
the money of every currency. A column with two fraction digits rounds both sides of a
transfer on its own, and conserves money up to amounts that end in half a cent. -/
namespace HomeRest

open AtomicProgram

variable {L : Libs}

/-- The stored money in one currency. -/
def total (currency : String) (T : Table) : ℚ :=
  ((T.filter fun r => r.currencyUnit = some currency).map fun r => r.currentBalance.getD 0).sum

def Row.money (currency : String) (r : Row) : ℚ :=
  if r.currencyUnit = some currency then r.currentBalance.getD 0 else 0

theorem total_eq (currency : String) (T : Table) :
    total currency T = (T.map (Row.money currency)).sum := by
  induction T with
  | nil => rfl
  | cons r T ih =>
    simp only [total,List.filter_cons,List.map_cons,List.sum_cons,Row.money] at ih ⊢
    by_cases hr : r.currencyUnit = some currency
    · simp [hr,ih]
    · simp [hr,ih]

theorem total_cons (currency : String) (r : Row) (T : Table) :
    total currency (r :: T) = r.money currency + total currency T := by
  simp only [total_eq,List.map_cons,List.sum_cons]

section Total

variable {db : Database} {n : Option String} {status : ℤ} {v b : ℚ} {now : Millis} {T : Table}
  {r : Row}

theorem book_absent (h : sqlGetAccountsByNumber n T = []) : book db n status v now T = T := by
  have hrow : ∀ r ∈ T, (if sqlEq r.accountNumber n then bookedRow db status v now r else r) = r := by
    intro r hr
    have hne := List.filter_eq_nil_iff.mp h r hr
    rw [if_neg hne]
  simpa [book,updateWhere] using List.map_congr_left hrow

theorem total_book (currency : String) (hT : sqlGetAccountsByNumber n T = [r])
    (hb : r.currentBalance = some b) :
    total currency (book db n status v now T) =
      total currency T + if r.currencyUnit = some currency then db.decimal v - b else 0 := by
  induction T with
  | nil => simp [sqlGetAccountsByNumber] at hT
  | cons q T ih =>
    simp only [sqlGetAccountsByNumber,List.filter_cons] at hT ih
    by_cases hq : sqlEq q.accountNumber n = true
    · simp only [hq,ite_true,List.cons.injEq] at hT
      obtain ⟨rfl,hrest⟩ := hT
      have hbook : book db n status v now (q :: T) = bookedRow db status v now q :: T := by
        have htail : book db n status v now T = T := book_absent hrest
        simp only [book,updateWhere,List.map_cons,hq,ite_true] at htail ⊢
        rw [htail]
      rw [hbook,total_cons,total_cons]
      by_cases hcur : q.currencyUnit = some currency
      · simp only [Row.money,bookedRow_currency,bookedRow_balance,hcur,hb,ite_true,Option.getD_some]
        ring
      · simp only [Row.money,bookedRow_currency,hcur,ite_false,add_zero]
    · simp only [hq,Bool.false_eq_true,ite_false] at hT
      have hbook : book db n status v now (q :: T) = q :: book db n status v now T := by
        simp only [book,updateWhere,List.map_cons,hq,Bool.false_eq_true,ite_false]
      rw [hbook,total_cons,total_cons,ih hT]
      ring

theorem total_close (currency : String) (f g : Option String) (d : Millis) (T : Table) :
    total currency (sqlUpdateAccountsInTransaction f g d T) = total currency T := by
  have hmoney : ∀ d r, Row.money currency (closedRow d r) = Row.money currency r := fun _ _ => rfl
  rw [total_eq,total_eq,map_close hmoney]

end Total

section Closed

variable (env : Env) (t : BankTransaction L)

theorem total_closed (currency : String) (T : Table) :
    total currency (closed env t T) = total currency T := by
  simp only [closed,Occasion.commits]
  split_ifs
  · exact total_close currency _ _ _ T
  · rfl
  · rfl

theorem identities_closed (T : Table) : (closed env t T).identities = T.identities := by
  simp only [closed,Occasion.commits]
  split_ifs
  · exact identities_close _ _ _ T
  · rfl
  · rfl

end Closed

section Run

variable (db : Database)

def processAll (calls : List (Env × BankTransaction L)) (T : Table) : Table :=
  calls.foldl (fun T call => (process db call.1 call.2 T).2) T

/-- A credit or a debit between two numbers, with no failing store step. -/
structure Ordinary (env : Env) (t : BankTransaction L) : Prop where
  sound : env.Sound
  kind : t.CreditOrDebit
  different : t.transactionFrom ≠ t.transactionTo

variable {db} {env : Env} {t : BankTransaction L} {T : Table}

/-- The from account gives what the to account gets, in one currency, if the column keeps both
new balances. -/
theorem transferred_conserves_exact (hexact : ∀ r s x b d, Accepted env t T r s x b d →
      db.decimal (b-x) = b-x ∧ db.decimal (d+x) = d+x) (hu : UniqueNumbers T) (h : Ordinary env t) :
    (∀ currency, total currency (transferred db env t T) = total currency T) ∧
      (transferred db env t T).identities = T.identities := by
  by_cases hl : env.cleared .wrapperLock = false
  · simp only [transferred,hl,ite_true]
    by_cases hacc : ∃ r s x b d, Accepted env t T r s x b d
    · obtain ⟨r,s,x,b,d,hacc⟩ := hacc
      obtain ⟨hfrom,hinto⟩ := hexact r s x b d hacc
      obtain ⟨result,hrun⟩ := consume_accepted db h.sound h.kind h.different hacc
      rw [hrun]
      simp only [delivered_sound h.sound]
      constructor
      · intro currency
        have hto : sqlGetAccountsByNumber t.transactionTo (book db t.transactionFrom 10 (b-x)
            (env.occasion (.balanceFrom (firingPass t))).now T) = [s] := by
          rw [book,sqlGet_updateWhere_ne (bookedRow_number _ _ _ _) h.different]
          exact hacc.rowTo
        rw [total_book currency hto hacc.balanceTo,total_book currency hacc.rowFrom hacc.balanceFrom,
          hfrom,hinto]
        obtain ⟨u,hr,hs,-⟩ := hacc.currency
        rw [hr,hs]
        split_ifs <;> ring
      · rw [identities_book,identities_book]
    · obtain ⟨out,hrun,-⟩ := consume_unaccepted db hu h.kind h.different hacc
      rw [hrun]
      exact ⟨fun _ => rfl,rfl⟩
  · rw [transferred,if_neg hl]
    exact ⟨fun _ => rfl,rfl⟩

theorem transferred_conserves (hexact : ∀ x, db.decimal x = x) (hu : UniqueNumbers T)
    (h : Ordinary env t) :
    (∀ currency, total currency (transferred db env t T) = total currency T) ∧
      (transferred db env t T).identities = T.identities :=
  transferred_conserves_exact (fun _ _ _ _ _ _ => ⟨hexact _,hexact _⟩) hu h

theorem process_conserves (hexact : ∀ x, db.decimal x = x) (hu : UniqueNumbers T)
    (h : Ordinary env t) :
    (∀ currency, total currency (process db env t T).2 = total currency T) ∧
      (process db env t T).2.identities = T.identities := by
  obtain ⟨out,hrun⟩ := process_run db env h.kind T
  obtain ⟨htotal,hid⟩ := transferred_conserves (T := T) hexact hu h
  rw [hrun]
  exact ⟨fun currency => (total_closed env t currency _).trans (htotal currency),
    (identities_closed env t _).trans hid⟩

/-- Money is conserved in every currency over runs of any length. -/
theorem processAll_conserves (hexact : ∀ x, db.decimal x = x) (T : Table) (hu : UniqueNumbers T)
    (calls : List (Env × BankTransaction L)) (h : ∀ call ∈ calls, Ordinary call.1 call.2) :
    (∀ currency, total currency (processAll db calls T) = total currency T) ∧
      (processAll db calls T).identities = T.identities := by
  induction calls generalizing T with
  | nil => exact ⟨fun _ => rfl,rfl⟩
  | cons call calls ih =>
    obtain ⟨htotal,hid⟩ := process_conserves hexact hu (h call (by simp))
    have hu' : UniqueNumbers (process db call.1 call.2 T).2 := hu.of_identities hid
    obtain ⟨htotal',hid'⟩ := ih _ hu' fun call' hcall' => h call' (by simp [hcall'])
    exact ⟨fun currency => (htotal' currency).trans (htotal currency),hid'.trans hid⟩

end Run

open Sample in
/-- Credits, debits and rejections between the two accounts, one after the other. -/
theorem processAll_conserves_sample :
    (∀ currency, total currency (processAll database
        [(env 100 fun _ => none,transfer 1 30000 iban₁ iban₂),
         (env 200 fun _ => none,transfer (-1) 300000 iban₂ iban₁),
         (env 300 fun _ => none,transfer (-1) 35000 iban₂ iban₁)] twoRows) =
      total currency twoRows) ∧
    (processAll database
        [(env 100 fun _ => none,transfer 1 30000 iban₁ iban₂),
         (env 200 fun _ => none,transfer (-1) 300000 iban₂ iban₁),
         (env 300 fun _ => none,transfer (-1) 35000 iban₂ iban₁)] twoRows).identities =
      twoRows.identities := by
  apply processAll_conserves (fun _ => rfl) twoRows (by decide +kernel)
  intro call hcall
  simp only [List.mem_cons,List.not_mem_nil,or_false] at hcall
  rcases hcall with rfl | rfl | rfl
  · exact ⟨env_sound 100,.inl rfl,by decide +kernel⟩
  · exact ⟨env_sound 200,.inr rfl,by decide +kernel⟩
  · exact ⟨env_sound 300,.inr rfl,by decide +kernel⟩

end HomeRest
