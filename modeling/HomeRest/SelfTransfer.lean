import HomeRest.Atomicity
import HomeRest.Ledger

/-! A transfer from an account to itself.
The alternative for one account stands after the alternatives for credit and debit, and one
of these fires in the first pass already. Both sides are read before either is written, so
the write of the to side wins. -/
namespace HomeRest

open AtomicProgram

variable {L : Libs}

/-- The collection of a transfer from a stored account to itself, as the functor reads it. -/
structure SelfTransfer (t : BankTransaction L) (n : String) (p : ℚ) (A : Row) (x y : BankAccount L)
    (T : Table) : Prop where
  kind : t.CreditOrDebit
  transactionFrom : t.transactionFrom = some n
  transactionTo : t.transactionTo = some n
  amount : t.transactionAmount = some p
  stored : A ∈ T
  currency : t.currencyUnit = A.currencyUnit
  first : ∃ occasion, Reads occasion (some n) T x ∧ Carries occasion.now A x
  second : ∃ occasion, Reads occasion (some n) T y ∧ Carries occasion.now A y

section Dated

variable {n : Option String} {T : Table} {occasion occasion' : Occasion} {a a' : BankAccount L}

theorem Reads.list (h : Reads occasion n T a) : ∃ list : List (BankAccount L),
    ((sqlGetAccountsByNumber n T).take 50).mapM (hydrate occasion.now) = .ok list ∧
      (SkipListSet.addAll BankAccount.updateAt [] list).head? = some a := by
  obtain ⟨hf,hget⟩ := h
  cases hl : ((sqlGetAccountsByNumber n T).take 50).mapM (hydrate (L := L) occasion.now) with
  | error e => simp [getAccountByNumber,hf,hl,bind,Except.bind,mapM_hydrate_error hl] at hget
  | ok list =>
    refine ⟨list,rfl,?_⟩
    cases hh : (SkipListSet.addAll BankAccount.updateAt [] list).head? with
    | none => simp [getAccountByNumber,hf,hl,hh,bind,Except.bind,noMatchingRecord,Throwable.cls] at hget
    | some first => simpa [getAccountByNumber,hf,hl,hh,bind,Except.bind] using hget

theorem hydrate_dated {r : Row} {now now' : Millis} (hd : r.dateUpdated ≠ none)
    (h : hydrate now r = .ok a) (h' : hydrate now' r = .ok a') : a = a' := by
  have hc := (hydrate_ok h).2
  have hc' := (hydrate_ok h').2
  obtain ⟨d,hd⟩ := Option.ne_none_iff_exists'.mp hd
  have hat : a.updateAt = a'.updateAt := by
    rw [hc.updateAt,hc'.updateAt,hd]
    rfl
  have hid : a.id = a'.id := hc.id.trans hc'.id.symm
  have hbalance : a.currentBalance = a'.currentBalance := hc.balance.trans hc'.balance.symm
  have hstatus : a.accountStatus = a'.accountStatus := hc.status.trans hc'.status.symm
  have hnumber : a.accountNumber = a'.accountNumber := hc.number.trans hc'.number.symm
  have hcurrency : a.currencyUnit = a'.currencyUnit := hc.currency.trans hc'.currency.symm
  exact BankAccount.ext hid hbalance hstatus hnumber hcurrency hat

theorem forall₂_functional {α β : Type} {R R' : α → β → Prop} {rows : List α} {xs xs' : List β}
    (h : List.Forall₂ R rows xs) (h' : List.Forall₂ R' rows xs')
    (heq : ∀ r ∈ rows, ∀ b b', R r b → R' r b' → b = b') : xs = xs' := by
  induction h generalizing xs' with
  | nil =>
    cases h'
    rfl
  | cons hr _ ih =>
    cases h' with
    | cons hr' hrest =>
      rw [heq _ (by simp) _ _ hr hr',ih hrest fun q hq => heq q (by simp [hq])]

theorem Reads.dated (hd : ∀ r ∈ sqlGetAccountsByNumber n T, r.dateUpdated ≠ none)
    (h : Reads occasion n T a) (h' : Reads occasion' n T a') : a = a' := by
  obtain ⟨list,hlist,hhead⟩ := h.list
  obtain ⟨list',hlist',hhead'⟩ := h'.list
  have hsame : list = list' := by
    refine forall₂_functional (mapM_ok.mp hlist) (mapM_ok.mp hlist') ?_
    intro r hr b b' hb hb'
    exact hydrate_dated (hd r (List.mem_of_mem_take hr)) hb hb'
  rw [hsame,hhead'] at hhead
  exact (Option.some.inj hhead).symm

end Dated

section Fire

variable {db : Database} {env : Env} {t : BankTransaction L} {pass : ℕ} {T T' : Table}

/-- Whatever goes wrong in a block comes out as one exception. -/
theorem fire_error {account : BankAccount L} {e : Throwable}
    (h : (fire env t pass account).run (serve db) T = (.error e,T')) :
    e.cls = .bankTransactionProcessing := by
  rw [fire_eq,Program.handle,Program.run_cont] at h
  split at h
  · simp at h
  · simp only [Program.run_raise,Prod.mk.injEq,Except.error.injEq] at h
    rw [← h.1]
    rfl

theorem dated_book {n : Option String} {status : ℤ} {v : ℚ} {now : Millis} :
    ∀ r ∈ sqlGetAccountsByNumber n (book db n status v now T), r.dateUpdated ≠ none := by
  intro r hr
  rw [book,sqlGet_updateWhere_self (bookedRow_number db status v now)] at hr
  obtain ⟨q,-,rfl⟩ := List.mem_map.mp hr
  simp [bookedRow]

end Fire

namespace SelfTransfer

variable {db : Database} {env : Env} {t : BankTransaction L} {n : String} {p : ℚ} {A : Row}
  {x y : BankAccount L} {T : Table} (h : SelfTransfer t n p A x y T)

include h

theorem fires : Fires t (some n) := by
  rcases h.kind with hk | hk
  · exact .inl ⟨hk,h.transactionFrom⟩
  · exact .inr ⟨hk,h.transactionTo⟩

theorem readable : Readable L (some n) T := by
  obtain ⟨_,hx,-⟩ := h.first
  exact hx.readable

theorem guard {a c : BankAccount L} (ha : a.currencyUnit = A.currencyUnit)
    (hc : c.currencyUnit = A.currencyUnit) : currencyGuard a c t = .ok () := by
  obtain ⟨_,hx,hcx⟩ := h.first
  obtain ⟨u,hu⟩ := hx.complete.currency
  have hA : A.currencyUnit = some u := hcx.currency.symm.trans hu
  exact currencyGuard_ok.mpr ⟨u,ha.trans hA,hc.trans hA,h.currency.trans hA⟩

theorem pass_run (hs : env.Sound) {pass : ℕ} {U : Table} (hU : Readable L (some n) U)
    {z bf bt : BankAccount L} (hz : z.accountNumber = some n) (hg : currencyGuard bf bt t = .ok ())
    (rest : List (BankAccount L)) :
    ∃ account, (transactLoop env t pass (z :: rest) bf bt).run (serve db) U =
      ((fire env t pass account).cont
        (fun sides => transactLoop env t (pass+1) rest sides.1 sides.2) .raise).run (serve db) U := by
  obtain ⟨account,ha⟩ := hU.reads (hs (.loop pass))
  refine ⟨account,?_⟩
  rw [pass_reads db hz ha,visit_fires hg ha.complete (by rw [ha.number.1]; exact h.fires)]

theorem covers (hs : env.Sound) (pass : ℕ) {U : Table} {a : BankAccount L} {b : ℚ}
    (ha : Reads (env.occasion (.branchFrom pass)) (some n) U a) (hb : a.currentBalance = some b)
    (hpb : p ≤ b) : ∃ d c, Covers env pass t U p b d a c := by
  obtain ⟨c,hc⟩ := ha.readable.reads (hs (.branchTo pass))
  obtain ⟨d,hd⟩ := hc.complete.balance
  exact ⟨d,c,h.amount,h.transactionFrom ▸ ha,hb,hpb,h.transactionTo ▸ hc,hd⟩

theorem last_throws (hs : env.Sound) {pass : ℕ} {U U' : Table} (hU : Readable L (some n) U)
    {z bf bt : BankAccount L} (hz : z.accountNumber = some n) {e : Throwable}
    (hrun : (transactLoop env t pass [z] bf bt).run (serve db) U = (.error e,U')) : U' = U := by
  by_cases hg : currencyGuard bf bt t = .ok ()
  · obtain ⟨account,hpass⟩ := h.pass_run hs hU hz hg []
    rcases fire_cases db h.kind account with ⟨q,b,d,a,c,bf',bt',-,-,-,-,hfire⟩ | ⟨hno,-⟩
    · rw [hpass,Program.run_cont_ok (serve db) hfire] at hrun
      cases hrun
    · obtain ⟨e',he⟩ := fire_uncovered db h.kind account fun ⟨q,b,d,a,c,hcov⟩ =>
        hno ⟨q,b,d,a,c,hcov,hs.bothReturn pass⟩
      rw [hpass,Program.run_cont_error (serve db) he,Program.run_raise] at hrun
      cases hrun
      rfl
  · obtain ⟨e',he⟩ := not_ok_guard hg
    obtain ⟨e'',hrun'⟩ : ∃ e, (transactLoop env t pass [z] bf bt).run (serve db) U = (.error e,U) :=
      pass_guard db h.kind he
    cases hrun.symm.trans hrun'
    rfl

theorem not_refused (hs : env.Sound) {b d : ℚ} {a c : BankAccount L}
    (hcov : Covers env 0 t T p b d a c) (e : Throwable) :
    (transactInAccounts env t [x,y]).run (serve db) T ≠ (.error e,T) := by
  intro hrun
  obtain ⟨o,hx,hcx⟩ := h.first
  obtain ⟨o',hy,hcy⟩ := h.second
  have hfrom : Reads (env.occasion (.branchFrom 0)) (some n) T a := h.transactionFrom ▸ hcov.readsFrom
  have hto : Reads (env.occasion (.branchTo 0)) (some n) T c := h.transactionTo ▸ hcov.readsTo
  obtain ⟨account,hpass⟩ :=
    h.pass_run hs h.readable hx.number.1 (h.guard hcx.currency hcy.currency) [y]
  obtain ⟨bf,bt,hsf,hst,hfire⟩ := fire_delivers db h.kind account hcov (hs.bothReturn 0)
  have hloop : (transactInAccounts env t [x,y]).run (serve db) T =
      (transactLoop env t 1 [y] bf bt).run (serve db) (delivered db env 0 t p b d T) :=
    hpass.trans (Program.run_cont_ok (serve db) hfire)
  rw [hloop] at hrun
  have hsame : delivered db env 0 t p b d T = T :=
    (h.last_throws hs (Partners.readable_delivered db hcov h.readable) hy.number.1 hrun).symm
  rw [hsame] at hrun
  -- Nothing has changed, so every row has a date and all lookups find one account.
  have hdated : ∀ r ∈ sqlGetAccountsByNumber (some n) T, r.dateUpdated ≠ none := by
    rw [← hsame,delivered_sound hs,h.transactionTo]
    exact dated_book
  have hxa : x = a := hx.dated hdated hfrom
  have hxc : x = c := hx.dated hdated hto
  have hg : currencyGuard bf bt t = .ok () := by
    apply h.guard
    · rw [hsf.currency,← hxa,hcx.currency]
    · rw [hst.currency,← hxc,hcx.currency]
  obtain ⟨a',ha'⟩ := h.readable.reads (hs (.branchFrom 1))
  have haa' : a = a' := hfrom.dated hdated ha'
  obtain ⟨d',c',hcov'⟩ := h.covers hs 1 ha' (haa' ▸ hcov.balanceFrom) hcov.enough
  obtain ⟨account',hpass'⟩ := h.pass_run hs h.readable hy.number.1 hg []
  obtain ⟨bf',bt',-,-,hfire'⟩ := fire_delivers db h.kind account' hcov' (hs.bothReturn 1)
  rw [hpass',Program.run_cont_ok (serve db) hfire'] at hrun
  cases hrun

end SelfTransfer

/-- A transfer from an account to itself is refused exactly when the balance that the first
pass finds is below the amount. -/
theorem selfTransfer_refused (db : Database) {env : Env} (hs : env.Sound) {t : BankTransaction L}
    {n : String} {p : ℚ} {A : Row} {x y : BankAccount L} {T : Table}
    (h : SelfTransfer t n p A x y T) :
    (∃ e, (transactInAccounts env t [x,y]).run (serve db) T = (.error e,T) ∧
      e.cls = .bankTransactionProcessing) ↔
    ∀ (a : BankAccount L) (b : ℚ), Reads (env.occasion (.branchFrom 0)) (some n) T a →
      a.currentBalance = some b → b < p := by
  constructor
  · rintro ⟨e,hrun,-⟩ a b ha hb
    by_contra hlt
    obtain ⟨d,c,hcov⟩ := h.covers hs 0 ha hb (not_lt.mp hlt)
    exact h.not_refused hs hcov e hrun
  · intro hpoor
    obtain ⟨o,hx,hcx⟩ := h.first
    obtain ⟨o',hy,hcy⟩ := h.second
    have hno : ¬ ∃ q b d a c, Covers env 0 t T q b d a c := by
      rintro ⟨q,b,d,a,c,hcov⟩
      cases h.amount.symm.trans hcov.amount
      exact absurd hcov.enough (not_le.mpr (hpoor a b (h.transactionFrom ▸ hcov.readsFrom)
        hcov.balanceFrom))
    obtain ⟨account,hpass⟩ :=
      h.pass_run hs h.readable hx.number.1 (h.guard hcx.currency hcy.currency) [y]
    obtain ⟨e,he⟩ := fire_uncovered db h.kind account hno
    have hloop : (transactInAccounts env t [x,y]).run (serve db) T = (.error e,T) :=
      hpass.trans (Program.run_cont_error (serve db) he)
    exact ⟨e,hloop,fire_error he⟩

namespace Sample

def oneRow : Table := [row 1 iban₁ 100]

theorem selfTransfer : SelfTransfer (transfer 1 30000 iban₁ iban₁) iban₁ 30 (row 1 iban₁ 100)
    fromAccount fromAccount oneRow where
  kind := .inl rfl
  transactionFrom := rfl
  transactionTo := rfl
  amount := by decide +kernel
  stored := by decide +kernel
  currency := rfl
  first := ⟨⟨none,100,0⟩,⟨rfl,by decide +kernel⟩,rfl,by decide +kernel,rfl,rfl,rfl,rfl⟩
  second := ⟨⟨none,100,0⟩,⟨rfl,by decide +kernel⟩,rfl,by decide +kernel,rfl,rfl,rfl,rfl⟩

end Sample

open Sample in
theorem selfTransfer_refused_sample :
    (∃ e, (transactInAccounts (env 100 fun _ => none) (transfer 1 30000 iban₁ iban₁)
      [fromAccount,fromAccount]).run (serve database) oneRow = (.error e,oneRow) ∧
        e.cls = .bankTransactionProcessing) ↔
    ∀ (a : BankAccount libs) (b : ℚ),
      Reads ((env 100 fun _ => none).occasion (.branchFrom 0)) (some iban₁) oneRow a →
        a.currentBalance = some b → b < 30 :=
  selfTransfer_refused database (env_sound 100) selfTransfer

open Sample in
/-- A transfer of 30 from an account to itself is made, twice. -/
theorem selfTransfer_creates :
    SelfTransfer (transfer 1 30000 iban₁ iban₁) iban₁ 30 (row 1 iban₁ 100) fromAccount fromAccount
      oneRow ∧ (env 100 fun _ => none).Sound ∧
    ((transactInAccounts (env 100 fun _ => none) (transfer 1 30000 iban₁ iban₁)
      [fromAccount,fromAccount]).run (serve database) oneRow).2.balances = [some 160] ∧
    ¬ ∃ e, (transactInAccounts (env 100 fun _ => none) (transfer 1 30000 iban₁ iban₁)
      [fromAccount,fromAccount]).run (serve database) oneRow = (.error e,oneRow) ∧
        e.cls = .bankTransactionProcessing := by
  have hbalances : ((transactInAccounts (env 100 fun _ => none) (transfer 1 30000 iban₁ iban₁)
      [fromAccount,fromAccount]).run (serve database) oneRow).2.balances = [some 160] := by
    decide +kernel
  refine ⟨selfTransfer,env_sound 100,hbalances,?_⟩
  rintro ⟨e,hrun,-⟩
  rw [hrun] at hbalances
  exact absurd hbalances (show oneRow.balances ≠ [some 160] by decide +kernel)

end HomeRest
