import HomeRest.Atomicity
import HomeRest.Holdings

/-! What `transactInAccounts` does between two stored accounts, to the last column.
The collection holds both rows as just read, in either order; the pass in which money moves
depends on that order and on the type, the result on neither. -/
namespace HomeRest

open AtomicProgram

variable {L : Libs}

/-- A row before and after a transfer of an amount: the from row and the to row change in
status, date and balance, and no other row changes. -/
structure Moved (t : BankTransaction L) (amount : ℚ) (r r' : Row) : Prop where
  identity : r'.identity = r.identity
  outgoing : r.accountNumber = t.transactionFrom →
    r'.accountStatus = some 10 ∧ r'.currentBalance = r.currentBalance.map fun b => b-amount
  incoming : r.accountNumber = t.transactionTo →
    r'.accountStatus = some 20 ∧ r'.currentBalance = r.currentBalance.map fun b => b+amount
  other : r.accountNumber ≠ t.transactionFrom → r.accountNumber ≠ t.transactionTo → r' = r

/-- The account shows the number, the balance and the status of the one row under a number. -/
def Mirrors (T : Table) (n : Option String) (a : BankAccount L) : Prop :=
  a.accountNumber = n ∧ ∃ r, sqlGetAccountsByNumber n T = [r] ∧
    a.currentBalance = r.currentBalance ∧ a.accountStatus = r.accountStatus

/-- A transfer between two stored accounts, with their rows as just read. -/
structure ReadyToMove (t : BankTransaction L) (T : Table) (r s : Row) (p b : ℚ) (x y : BankAccount L) :
    Prop where
  kind : t.CreditOrDebit
  amount : t.transactionAmount = some p
  unique : UniqueNumbers T
  acceptable : ∀ q ∈ T, q.Acceptable L
  storedFrom : r ∈ T
  storedTo : s ∈ T
  numberFrom : r.accountNumber = t.transactionFrom
  numberTo : s.accountNumber = t.transactionTo
  different : t.transactionFrom ≠ t.transactionTo
  balance : r.currentBalance = some b
  readFrom : ∃ now, hydrate now r = .ok x
  readTo : ∃ now, hydrate now s = .ok y

namespace ReadyToMove

variable {db : Database} {env : Env} {t : BankTransaction L} {T : Table} {r s : Row} {p b : ℚ}
  {x y : BankAccount L}

theorem rowFrom (h : ReadyToMove t T r s p b x y) :
    sqlGetAccountsByNumber t.transactionFrom T = [r] := by
  obtain ⟨n,hn,-⟩ := (h.acceptable r h.storedFrom).number
  rw [← h.numberFrom,hn]
  exact h.unique.sqlGet_mem h.storedFrom hn

theorem rowTo (h : ReadyToMove t T r s p b x y) :
    sqlGetAccountsByNumber t.transactionTo T = [s] := by
  obtain ⟨m,hm,-⟩ := (h.acceptable s h.storedTo).number
  rw [← h.numberTo,hm]
  exact h.unique.sqlGet_mem h.storedTo hm

theorem carries (h : ReadyToMove t T r s p b x y) :
    (∃ now, Carries now r x) ∧ ∃ now, Carries now s y := by
  obtain ⟨now,hx⟩ := h.readFrom
  obtain ⟨now',hy⟩ := h.readTo
  exact ⟨⟨now,(hydrate_ok hx).2⟩,⟨now',(hydrate_ok hy).2⟩⟩

theorem partners (h : ReadyToMove t T r s p b x y) :
    ∃ n m, Partners t n m x y ∧ Partners t n m y x := by
  obtain ⟨⟨_,hx⟩,⟨_,hy⟩⟩ := h.carries
  obtain ⟨n,hn,-⟩ := (h.acceptable r h.storedFrom).number
  obtain ⟨m,hm,-⟩ := (h.acceptable s h.storedTo).number
  have hfrom : t.transactionFrom = some n := h.numberFrom.symm.trans hn
  have hto : t.transactionTo = some m := h.numberTo.symm.trans hm
  have hnm : n ≠ m := fun he => h.different (by rw [hfrom,hto,he])
  exact ⟨n,m,⟨h.kind,hfrom,hto,hnm,.inl ⟨hx.number.trans hn,hy.number.trans hm⟩⟩,
    ⟨h.kind,hfrom,hto,hnm,.inr ⟨hy.number.trans hm,hx.number.trans hn⟩⟩⟩

theorem reads (h : ReadyToMove t T r s p b x y) (hs : env.Sound) (site site' : Site) :
    ∃ a c : BankAccount L, Reads (env.occasion site) t.transactionFrom T a ∧
      Carries (env.occasion site).now r a ∧ Reads (env.occasion site') t.transactionTo T c ∧
      Carries (env.occasion site').now s c := by
  obtain ⟨a,ha⟩ := ((readable_single h.rowFrom).mpr (h.acceptable r h.storedFrom)).reads (hs site)
  obtain ⟨c,hc⟩ := ((readable_single h.rowTo).mpr (h.acceptable s h.storedTo)).reads (hs site')
  exact ⟨a,c,ha,(ha.single h.rowFrom).2,hc,(hc.single h.rowTo).2⟩

theorem guard_iff (h : ReadyToMove t T r s p b x y) {a c : BankAccount L} {now now' : Millis}
    (ha : Carries now r a) (hc : Carries now' s c) :
    currencyGuard a c t = .ok () ↔ r.currencyUnit = s.currencyUnit ∧
      r.currencyUnit = t.currencyUnit := by
  rw [currencyGuard_ok,ha.currency,hc.currency]
  obtain ⟨u,hu,-⟩ := (h.acceptable r h.storedFrom).currency
  rw [hu]
  constructor
  · rintro ⟨w,hw,hsw,htw⟩
    exact ⟨hw.trans hsw.symm,hw.trans htw.symm⟩
  · rintro ⟨hsu,htu⟩
    exact ⟨u,rfl,hsu.symm,htu.symm⟩

theorem guard_swap {a c : BankAccount L} :
    currencyGuard a c t = .ok () ↔ currencyGuard c a t = .ok () := by
  simp only [currencyGuard_ok]
  exact exists_congr fun u => and_left_comm

theorem covers (h : ReadyToMove t T r s p b x y) (hs : env.Sound) (hpb : p ≤ b) (pass : ℕ) :
    ∃ a c d now now', Covers env pass t T p b d a c ∧ Carries now r a ∧ Carries now' s c ∧
      s.currentBalance = some d := by
  obtain ⟨a,c,ha,har,hc,hcs⟩ := h.reads hs (.branchFrom pass) (.branchTo pass)
  obtain ⟨d,hd,-⟩ := (h.acceptable s h.storedTo).balance
  exact ⟨a,c,d,_,_,⟨h.amount,ha,har.balance.trans h.balance,hpb,hc,hcs.balance.trans hd⟩,har,hcs,hd⟩

theorem moved (h : ReadyToMove t T r s p b x y) (hexact : ∀ z, db.decimal z = z) {d : ℚ}
    (hd : s.currentBalance = some d) (now now' : Millis) :
    List.Forall₂ (Moved t p) T
      (book db t.transactionTo 20 (d+p) now' (book db t.transactionFrom 10 (b-p) now T)) := by
  have hrow : ∀ q ∈ T, ∀ k, sqlEq q.accountNumber k = true ↔ q.accountNumber = k := by
    intro q hq k
    obtain ⟨n,hn,-⟩ := (h.acceptable q hq).number
    rw [sqlEq_iff,hn]
    exact ⟨fun ⟨_,hn',hk⟩ => hn'.trans hk.symm,fun hk => ⟨n,rfl,hk.symm⟩⟩
  have hfrom : ∀ q ∈ T, q.accountNumber = t.transactionFrom → q.currentBalance = some b := by
    intro q hq hn
    have hmem : q ∈ sqlGetAccountsByNumber t.transactionFrom T :=
      List.mem_filter.mpr ⟨hq,(hrow q hq _).mpr hn⟩
    rw [h.rowFrom,List.mem_singleton] at hmem
    rw [hmem,h.balance]
  have hto : ∀ q ∈ T, q.accountNumber = t.transactionTo → q.currentBalance = some d := by
    intro q hq hn
    have hmem : q ∈ sqlGetAccountsByNumber t.transactionTo T :=
      List.mem_filter.mpr ⟨hq,(hrow q hq _).mpr hn⟩
    rw [h.rowTo,List.mem_singleton] at hmem
    rw [hmem,hd]
  simp only [book,updateWhere,List.map_map]
  rw [List.forall₂_map_right_iff,List.forall₂_same]
  intro q hq
  simp only [Function.comp_apply]
  by_cases hn : q.accountNumber = t.transactionFrom
  · have hm : q.accountNumber ≠ t.transactionTo := fun hm => h.different (hn.symm.trans hm)
    have hqn := (hrow q hq _).mpr hn
    have hqm : ¬ sqlEq q.accountNumber t.transactionTo = true := fun he => hm ((hrow q hq _).mp he)
    simp only [hqn,ite_true,bookedRow_number,hqm,Bool.false_eq_true,ite_false]
    refine ⟨rfl,fun _ => ⟨rfl,?_⟩,fun he => absurd he hm,fun he => absurd hn he⟩
    simp [hfrom q hq hn,hexact]
  · have hqn : ¬ sqlEq q.accountNumber t.transactionFrom = true := fun he => hn ((hrow q hq _).mp he)
    by_cases hm : q.accountNumber = t.transactionTo
    · have hqm := (hrow q hq _).mpr hm
      simp only [hqn,Bool.false_eq_true,ite_false,hqm,ite_true]
      refine ⟨rfl,fun he => absurd he hn,fun _ => ⟨rfl,?_⟩,fun _ he => absurd hm he⟩
      simp [hto q hq hm,hexact]
    · have hqm : ¬ sqlEq q.accountNumber t.transactionTo = true := fun he => hm ((hrow q hq _).mp he)
      simp only [hqn,Bool.false_eq_true,ite_false,hqm]
      exact ⟨rfl,fun he => absurd he hn,fun he => absurd he hm,fun _ _ => rfl⟩

section Run

variable (h : ReadyToMove t T r s p b x y)

def LetsThrough (t : BankTransaction L) (r s : Row) (p b : ℚ) : Prop :=
  (r.currencyUnit = s.currencyUnit ∧ r.currencyUnit = t.currencyUnit) ∧ p ≤ b

include h

theorem run_through (hexact : ∀ z, db.decimal z = z) (hs : env.Sound) (hlet : LetsThrough t r s p b)
    {n m : String} {u v : BankAccount L} (hp : Partners t n m u v)
    (hg : currencyGuard u v t = .ok ()) :
    ∃ bf bt T', (transactInAccounts env t [u,v]).run (serve db) T = (.ok [bf,bt],T') ∧
      List.Forall₂ (Moved t p) T T' ∧ Mirrors T' t.transactionFrom bf ∧
      Mirrors T' t.transactionTo bt := by
  obtain ⟨a,c,d,_,_,hcov,har,hcs,hd⟩ := h.covers hs hlet.2 (passOf t u)
  obtain ⟨hu,hv⟩ := hp.readable hcov
  have harr : Arrives env t u v T := ⟨hg,hu.reads (hs _),fun _ => hv.reads (hs _)⟩
  obtain ⟨bf,bt,hsf,hst,hok,-⟩ := hp.delivered_run db harr hcov (hs.bothReturn _)
  refine ⟨bf,bt,_,hok fun _ => ⟨hs _,(h.guard_iff har hcs).mpr hlet.1⟩,?_,?_,?_⟩
  · rw [delivered_sound hs]
    exact h.moved hexact hd _ _
  · refine ⟨hsf.number.trans (har.number.trans h.numberFrom),
      bookedRow db 10 (b-p) (env.occasion (.balanceFrom (passOf t u))).now r,?_,?_,hsf.status⟩
    · rw [delivered_sound hs,book,sqlGet_updateWhere_ne (bookedRow_number _ _ _ _) h.different.symm,
        book,sqlGet_updateWhere_self (bookedRow_number _ _ _ _),h.rowFrom,List.map_singleton]
    · rw [hsf.balance,bookedRow_balance,hexact]
  · refine ⟨hst.number.trans (hcs.number.trans h.numberTo),
      bookedRow db 20 (d+p) (env.occasion (.balanceTo (passOf t u))).now s,?_,?_,hst.status⟩
    · rw [delivered_sound hs,book,sqlGet_updateWhere_self (bookedRow_number _ _ _ _),book,
        sqlGet_updateWhere_ne (bookedRow_number _ _ _ _) h.different,h.rowTo,List.map_singleton]
    · rw [hst.balance,bookedRow_balance,hexact]

theorem run_stopped (db : Database) (env : Env) (hlet : ¬ LetsThrough t r s p b) {n m : String} {u v : BankAccount L}
    (hp : Partners t n m u v) (hg : currencyGuard u v t = .ok () →
      r.currencyUnit = s.currencyUnit ∧ r.currencyUnit = t.currencyUnit) :
    ∃ e, (transactInAccounts env t [u,v]).run (serve db) T = (.error e,T) := by
  by_cases hcur : currencyGuard u v t = .ok ()
  · apply hp.uncovered_run db
    rintro ⟨p',b',d,a,c,hcov⟩
    have har := (hcov.readsFrom.single h.rowFrom).2
    cases h.amount.symm.trans hcov.amount
    cases h.balance.symm.trans (har.balance.symm.trans hcov.balanceFrom)
    exact hlet ⟨hg hcur,hcov.enough⟩
  · exact hp.unarrived_run db fun harr => hcur harr.guard

end Run

end ReadyToMove

/-- The call returns exactly when the currencies agree and the from balance covers the amount;
then the rows have moved and the accounts it returns mirror them. If it throws, the table is
the one before. -/
theorem transactInAccounts_spec {db : Database} (hexact : ∀ z, db.decimal z = z) {env : Env}
    (hs : env.Sound) {t : BankTransaction L} {T : Table} {r s : Row} {p b : ℚ} {x y : BankAccount L}
    (h : ReadyToMove t T r s p b x y) (collection : List (BankAccount L))
    (hcol : collection = [x,y] ∨ collection = [y,x]) :
    ((∃ list T', (transactInAccounts env t collection).run (serve db) T = (.ok list,T')) ↔
      (r.currencyUnit = s.currencyUnit ∧ r.currencyUnit = t.currencyUnit) ∧ p ≤ b) ∧
    (∀ list T', (transactInAccounts env t collection).run (serve db) T = (.ok list,T') →
      List.Forall₂ (Moved t p) T T' ∧ ∃ balanceFrom balanceTo, list = [balanceFrom,balanceTo] ∧
        Mirrors T' t.transactionFrom balanceFrom ∧ Mirrors T' t.transactionTo balanceTo) ∧
    ∀ e T', (transactInAccounts env t collection).run (serve db) T = (.error e,T') → T' = T := by
  obtain ⟨⟨now,hx⟩,⟨now',hy⟩⟩ := h.carries
  obtain ⟨n,m,hxy,hyx⟩ := h.partners
  have hguard := h.guard_iff hx hy
  have hboth : ∃ u v, collection = [u,v] ∧ Partners t n m u v ∧ (currencyGuard u v t = .ok () ↔
      r.currencyUnit = s.currencyUnit ∧ r.currencyUnit = t.currencyUnit) := by
    rcases hcol with rfl | rfl
    · exact ⟨x,y,rfl,hxy,hguard⟩
    · exact ⟨y,x,rfl,hyx,ReadyToMove.guard_swap.trans hguard⟩
  obtain ⟨u,v,rfl,hp,hg⟩ := hboth
  by_cases hlet : ReadyToMove.LetsThrough t r s p b
  · obtain ⟨bf,bt,T',hrun,hmoved,hfrom,hto⟩ := h.run_through hexact hs hlet hp (hg.mpr hlet.1)
    refine ⟨iff_of_true ⟨_,_,hrun⟩ hlet,?_,?_⟩
    · intro list T'' hrun'
      cases hrun.symm.trans hrun'
      exact ⟨hmoved,bf,bt,rfl,hfrom,hto⟩
    · intro e T'' hrun'
      cases hrun.symm.trans hrun'
  · obtain ⟨e,hrun⟩ := h.run_stopped db env hlet hp hg.mp
    refine ⟨iff_of_false ?_ hlet,?_,?_⟩
    · rintro ⟨list,T',hrun'⟩
      cases hrun.symm.trans hrun'
    · intro list T' hrun'
      cases hrun.symm.trans hrun'
    · intro e' T' hrun'
      cases hrun.symm.trans hrun'
      rfl

namespace Sample

theorem readyToMove : ReadyToMove (transfer 1 30000 iban₁ iban₂) twoRows (row 1 iban₁ 100)
    (row 2 iban₂ 5) 30 100 fromAccount toAccount where
  kind := .inl rfl
  amount := by decide +kernel
  unique := by decide +kernel
  acceptable := by
    simp only [twoRows,List.forall_mem_cons,List.not_mem_nil,false_imp_iff,implies_true,and_true]
    exact ⟨⟨⟨100,rfl,by norm_num⟩,⟨iban₁,rfl,by decide +kernel⟩,"EUR",rfl,by decide +kernel⟩,
      ⟨5,rfl,by norm_num⟩,⟨iban₂,rfl,by decide +kernel⟩,"EUR",rfl,by decide +kernel⟩
  storedFrom := by decide +kernel
  storedTo := by decide +kernel
  numberFrom := rfl
  numberTo := rfl
  different := by decide +kernel
  balance := rfl
  readFrom := ⟨100,by decide +kernel⟩
  readTo := ⟨100,by decide +kernel⟩

end Sample

open Sample in
/-- A credit whose collection starts with the to account. -/
theorem transactInAccounts_spec_sample :
    ((∃ list T', (transactInAccounts (env 100 fun _ => none) (transfer 1 30000 iban₁ iban₂)
        [toAccount,fromAccount]).run (serve database) twoRows = (.ok list,T')) ↔
      ((row 1 iban₁ 100).currencyUnit = (row 2 iban₂ 5).currencyUnit ∧
        (row 1 iban₁ 100).currencyUnit = (transfer 1 30000 iban₁ iban₂).currencyUnit) ∧
        (30 : ℚ) ≤ 100) ∧
    (∀ list T', (transactInAccounts (env 100 fun _ => none) (transfer 1 30000 iban₁ iban₂)
        [toAccount,fromAccount]).run (serve database) twoRows = (.ok list,T') →
      List.Forall₂ (Moved (transfer 1 30000 iban₁ iban₂) 30) twoRows T' ∧
        ∃ balanceFrom balanceTo, list = [balanceFrom,balanceTo] ∧
          Mirrors T' (some iban₁) balanceFrom ∧ Mirrors T' (some iban₂) balanceTo) ∧
    ∀ e T', (transactInAccounts (env 100 fun _ => none) (transfer 1 30000 iban₁ iban₂)
      [toAccount,fromAccount]).run (serve database) twoRows = (.error e,T') → T' = twoRows :=
  transactInAccounts_spec (fun _ => rfl) (env_sound 100) readyToMove _ (.inr rfl)

end HomeRest
