import HomeRest.Interleaving
import HomeRest.StorageRounding

/-! Calls that run at the same time, and the sign of what they store.
A call may use balances that are long out of date, but every balance it hands to the store
went through the setter of its account. -/
namespace HomeRest

open AtomicProgram

variable {L : Libs}

/-- The calls that write accounts. -/
inductive Call (L : Libs)
  | processTransaction (env : Env) (t : BankTransaction L)
  | putAccount (occasion : Occasion) (account : BankAccount L)

def Call.program : Call L → Code L Unit
  | .processTransaction env t => (HomeRest.processTransaction env t).cont (fun _ => .ret ()) .raise
  | .putAccount occasion account =>
    (Program.perform (StoreCall.putAccount occasion account)).cont (fun _ => .ret ()) .raise

abbrev Calls (L : Libs) (ι : Type) := Config (StoreCall L) StoreCall.Answer Throwable Unit Table ι

def startCalls {ι : Type} (T : Table) (calls : ι → Call L) : Calls L ι :=
  Config.start T fun i => (calls i).program

def NonNegative (T : Table) : Prop := ∀ r ∈ T, ∀ b ∈ r.currentBalance, 0 ≤ b

instance : DecidablePred NonNegative :=
  fun T => inferInstanceAs (Decidable (∀ r ∈ T, ∀ b ∈ r.currentBalance, 0 ≤ b))

section Steps

variable {db : Database} {T : Table}

theorem commitWrite_keeps {I : Table → Prop} {occasion : Occasion} {write : Table → Except Throwable Table}
    (h : I T) (hwrite : ∀ T', write T = .ok T' → I T') : I (commitWrite occasion write T).2 := by
  simp only [commitWrite]
  cases occasion.fault with
  | some e =>
    simp only
    split_ifs <;> exact h
  | none =>
    cases hw : write T with
    | ok T' => exact hwrite T' hw
    | error e =>
      simp only
      split_ifs <;> exact h

theorem nonNegative_written (a : BankAccount L) :
    ∀ b, a.currentBalance.map db.decimal = some b → 0 ≤ b := by
  intro b hb
  obtain ⟨b',hb',rfl⟩ := Option.map_eq_some_iff.mp hb
  exact db.decimal_nonneg b' (a.balance_nonneg b' hb')

theorem nonNegative_update (h : NonNegative T) (a : BankAccount L) :
    NonNegative (sqlUpdateAccountsByNumber db a T) := by
  intro r hr b hb
  obtain ⟨q,hq,rfl⟩ := List.mem_map.mp hr
  by_cases hn : sqlEq q.accountNumber a.accountNumber = true
  · simp only [hn,ite_true,updatedRow] at hb
    exact nonNegative_written a b hb
  · simp only [hn,Bool.false_eq_true,ite_false] at hb
    exact h q hq b hb

theorem nonNegative_close (h : NonNegative T) (f g : Option String) (d : Millis) :
    NonNegative (sqlUpdateAccountsInTransaction f g d T) := by
  intro r hr b hb
  obtain ⟨q,hq,rfl⟩ := List.mem_map.mp hr
  apply h q hq b
  split_ifs at hb <;> exact hb

theorem nonNegative_put (h : NonNegative T) (occasion : Occasion) (a : BankAccount L) :
    NonNegative (T ++ [savedRow db occasion a]) := by
  intro r hr b hb
  rcases List.mem_append.mp hr with hr | hr
  · exact h r hr b hb
  · rw [List.mem_singleton] at hr
    subst hr
    exact nonNegative_written a b hb

theorem serve_nonNegative (op : StoreCall L) (T : Table) (h : NonNegative T) :
    NonNegative (serve db op T).2 := by
  cases op with
  | getAccountByNumber occasion n => exact h
  | updateAccount occasion a =>
    apply commitWrite_keeps h
    rintro T' ⟨⟩
    exact nonNegative_update h a
  | putAccount occasion a =>
    apply commitWrite_keeps h
    intro T' hT'
    simp only at hT'
    split_ifs at hT'
    cases hT'
    exact nonNegative_put h occasion a
  | closeTransaction occasion t =>
    apply commitWrite_keeps h
    rintro T' ⟨⟩
    exact nonNegative_close h _ _ _

end Steps

/-- No stored balance is ever negative, whatever calls run at the same time, in whatever
order their steps come and whichever of these fail. -/
theorem balances_nonNegative (db : Database) {ι : Type} [DecidableEq ι] (T : Table)
    (h : NonNegative T) (calls : ι → Call L) (schedule : List ι) :
    NonNegative ((startCalls T calls).runs (serve db.twoDigits) schedule).shared :=
  Config.runs_invariant _ serve_nonNegative _ h schedule

open Sample in
/-- Two transfers out of one account, with all their reads before their writes. -/
theorem balances_nonNegative_sample :
    NonNegative ((startCalls twoRows fun late : Bool => Call.processTransaction
      (env 100 fun _ => none) (transfer (if late then 1 else -1) 100000 iban₁ iban₂)).runs
        (serve cents) [true,false,true,false,true,false,true,false,true,false,true,false]).shared :=
  balances_nonNegative database twoRows (by decide +kernel) _ _

end HomeRest
