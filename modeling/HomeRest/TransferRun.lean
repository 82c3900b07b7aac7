import HomeRest.TransferSteps

/-! One call of `transactInAccounts` on a database that nothing else uses.
What decides its outcome is what its lookups return, whether the from balance covers the
amount, and which of its steps fail. -/
namespace HomeRest

open AtomicProgram

variable {L : Libs} (db : Database) (env : Env)

section Calls

@[simp] theorem callGetAccountByNumber_run (site : Site) (n : Option String) (T : Table) :
    (callGetAccountByNumber env site n : Code L _).run (serve db) T =
      (getAccountByNumber (env.occasion site) n T,T) :=
  Program.run_perform (serve db) (.getAccountByNumber (env.occasion site) n) T

@[simp] theorem callUpdateAccount_run (site : Site) (a : BankAccount L) (T : Table) :
    (callUpdateAccount env site a).run (serve db) T =
      ((env.occasion site).written,
        (env.occasion site).commits (sqlUpdateAccountsByNumber db a) T) :=
  (Program.run_perform (serve db) (.updateAccount (env.occasion site) a) T).trans
    (serve_updateAccount db _ a T)

theorem lookup_run {α β : Type} (site : Site) (n : Option String) (T : Table)
    (compute : Option (BankAccount L) → Except Throwable α) (next : α → Code L β) :
    ((callGetAccountByNumber env site n).cont
      (fun found => (Program.ofExcept (compute found)).cont next .raise) .raise).run (serve db) T =
    match getAccountByNumber (env.occasion site) n T >>= compute with
    | .ok a => (next a).run (serve db) T
    | .error e => (.error e,T) := by
  rw [Program.run_cont,callGetAccountByNumber_run]
  cases getAccountByNumber (env.occasion site) n T with
  | error e => rfl
  | ok found =>
    simp only [bind,Except.bind,Program.run_cont,Program.run_ofExcept]
    cases compute found <;> rfl

/-- A lookup followed by a computation that fails on the blank account goes wrong, or finds
a row and succeeds on it. -/
theorem lookup_cases {α : Type} (occasion : Occasion) (n : Option String) (T : Table)
    (compute : Option (BankAccount L) → Except Throwable α)
    (hunset : ∀ a : BankAccount L, a.accountNumber = none → ∃ e, compute (some a) = .error e) :
    (∃ e, (getAccountByNumber occasion n T >>= compute) = .error e) ∨
    ∃ a r, Reads occasion n T a ∧ compute (some a) = .ok r ∧
      (getAccountByNumber occasion n T >>= compute) = .ok r := by
  rcases getAccountByNumber_cases (L := L) occasion n T with ⟨a,ha⟩ | ⟨e,he⟩ | ⟨a,ha,hn,-⟩
  · cases hr : compute (some a) with
    | error e => exact .inl ⟨e,by simp [ha.2,bind,Except.bind,hr]⟩
    | ok r => exact .inr ⟨a,r,ha,hr,by simp [ha.2,bind,Except.bind,hr]⟩
  · exact .inl ⟨e,by simp [he,bind,Except.bind]⟩
  · obtain ⟨e,he⟩ := hunset a hn
    exact .inl ⟨e,by simp [ha,bind,Except.bind,he]⟩

end Calls

/-- What a firing pass needs: an amount, both rows, and a from balance that covers it. -/
structure Covers (env : Env) (pass : ℕ) (t : BankTransaction L) (T : Table) (x b d : ℚ)
    (a c : BankAccount L) : Prop where
  amount : t.transactionAmount = some x
  readsFrom : Reads (env.occasion (.branchFrom pass)) t.transactionFrom T a
  balanceFrom : a.currentBalance = some b
  enough : x ≤ b
  readsTo : Reads (env.occasion (.branchTo pass)) t.transactionTo T c
  balanceTo : c.currentBalance = some d

def debited (pass : ℕ) (t : BankTransaction L) (x b : ℚ) (T : Table) : Table :=
  (env.occasion (.updateFrom pass)).commits
    (book db t.transactionFrom 10 (b-x) (env.occasion (.balanceFrom pass)).now) T

def delivered (pass : ℕ) (t : BankTransaction L) (x b d : ℚ) (T : Table) : Table :=
  (env.occasion (.updateTo pass)).commits
    (book db t.transactionTo 20 (d+x) (env.occasion (.balanceTo pass)).now)
    (debited db env pass t x b T)

def BothReturn (pass : ℕ) : Prop :=
  (env.occasion (.updateFrom pass)).Returns ∧ (env.occasion (.updateTo pass)).Returns

section Fire

variable {env} {t : BankTransaction L} {pass : ℕ} {T : Table}

theorem fire_run_error {account : BankAccount L} {e : Throwable} {T' : Table}
    (h : ((callGetAccountByNumber env (.branchFrom pass) t.transactionFrom).cont (fun foundFrom =>
        (Program.ofExcept (outgoing env t pass foundFrom)).cont (fun balanceFrom =>
          (callGetAccountByNumber env (.branchTo pass) t.transactionTo).cont (fun foundTo =>
            (Program.ofExcept (incoming env t pass foundTo)).cont
              (writeSides env pass balanceFrom) .raise) .raise) .raise) .raise).run (serve db) T =
      (.error e,T')) :
    (fire env t pass account).run (serve db) T = (.error (updateFailed account e),T') := by
  rw [fire_eq,Program.handle,Program.run_cont_error (serve db) h]
  rfl

theorem fire_uncovered (hc : t.CreditOrDebit) (account : BankAccount L)
    (h : ¬ ∃ x b d a c, Covers env pass t T x b d a c) :
    ∃ e, (fire env t pass account).run (serve db) T = (.error e,T) := by
  rcases lookup_cases (env.occasion (.branchFrom pass)) t.transactionFrom T
    (outgoing env t pass) (fun a ha => ⟨_,outgoing_unset ha⟩)
    with ⟨e,he⟩ | ⟨a,bf,ha,hbf,hrun⟩
  · exact ⟨_,fire_run_error db (by rw [lookup_run,he])⟩
  rcases lookup_cases (env.occasion (.branchTo pass)) t.transactionTo T
    (incoming env t pass) (fun a ha => ⟨_,incoming_unset ha⟩)
    with ⟨e,he⟩ | ⟨c,bt,hcr,hbt,-⟩
  · exact ⟨_,fire_run_error (e := e) db (by rw [lookup_run,hrun]; simp only [lookup_run,he])⟩
  obtain ⟨-,b,x,hb,hx,hxb,-⟩ := outgoing_sound hc hbf
  obtain ⟨-,d,x',hd,hx',-⟩ := incoming_sound hc hbt
  exact absurd ⟨x,b,d,a,c,hx,ha,hb,hxb,hcr,hd⟩ h

variable {x b d : ℚ} {a c : BankAccount L}

theorem Covers.sides (hc : t.CreditOrDebit) (h : Covers env pass t T x b d a c) :
    ∃ bf bt, outgoing env t pass (some a) = .ok bf ∧ incoming env t pass (some c) = .ok bt ∧
      Side (env.occasion (.balanceFrom pass)).now 10 (b-x) a bf ∧
      Side (env.occasion (.balanceTo pass)).now 20 (d+x) c bt := by
  obtain ⟨bf,hbf⟩ := outgoing_total hc h.readsFrom.complete h.balanceFrom h.amount h.enough
  obtain ⟨bt,hbt⟩ := incoming_total hc h.readsTo.complete h.amount
  obtain ⟨-,b',x',hb',hx',-,hsf⟩ := outgoing_sound hc hbf
  obtain ⟨-,d',x'',hd',hx'',hst⟩ := incoming_sound hc hbt
  cases h.balanceFrom.symm.trans hb'
  cases h.amount.symm.trans hx'
  cases h.amount.symm.trans hx''
  cases h.balanceTo.symm.trans hd'
  exact ⟨bf,bt,hbf,hbt,hsf,hst⟩

theorem Side.written {now : Millis} {status : ℤ} {balance : ℚ} {side : BankAccount L}
    {occasion : Occasion} {n : Option String} (h : Side now status balance a side)
    (hr : Reads occasion n T a) :
    sqlUpdateAccountsByNumber db side = book db n status balance now := by
  funext U
  rw [sqlUpdate_eq_book db h.balance h.status,h.number,hr.number.1,h.updateAt]

theorem fire_covered (hc : t.CreditOrDebit) (account : BankAccount L)
    (h : Covers env pass t T x b d a c) :
    ∃ bf bt, Side (env.occasion (.balanceFrom pass)).now 10 (b-x) a bf ∧
      Side (env.occasion (.balanceTo pass)).now 20 (d+x) c bt ∧
      (fire env t pass account).run (serve db) T =
        match (env.occasion (.updateFrom pass)).written,(env.occasion (.updateTo pass)).written with
        | .ok _,.ok _ => (.ok (bf,bt),delivered db env pass t x b d T)
        | .ok _,.error e => (.error (updateFailed account e),delivered db env pass t x b d T)
        | .error e,_ => (.error (updateFailed account e),debited db env pass t x b T) := by
  obtain ⟨bf,bt,hbf,hbt,hsf,hst⟩ := h.sides hc
  refine ⟨bf,bt,hsf,hst,?_⟩
  have hf : (getAccountByNumber (env.occasion (.branchFrom pass)) t.transactionFrom T >>=
      outgoing env t pass) = .ok bf := by simp [h.readsFrom.2,bind,Except.bind,hbf]
  have ht : (getAccountByNumber (env.occasion (.branchTo pass)) t.transactionTo T >>=
      incoming env t pass) = .ok bt := by simp [h.readsTo.2,bind,Except.bind,hbt]
  rw [fire_eq,Program.handle,Program.run_cont,lookup_run,hf]
  simp only [lookup_run,ht]
  rw [writeSides_eq env pass (hsf.complete h.readsFrom.complete) (hst.complete h.readsTo.complete)]
  simp only [Program.run_cont,callUpdateAccount_run,hsf.written db h.readsFrom,
    hst.written db h.readsTo,debited,delivered]
  cases (env.occasion (.updateFrom pass)).written with
  | error e => rfl
  | ok r => cases (env.occasion (.updateTo pass)).written <;> rfl

theorem fire_delivers (hc : t.CreditOrDebit) (account : BankAccount L)
    (h : Covers env pass t T x b d a c) (hw : BothReturn env pass) :
    ∃ bf bt, Side (env.occasion (.balanceFrom pass)).now 10 (b-x) a bf ∧
      Side (env.occasion (.balanceTo pass)).now 20 (d+x) c bt ∧
      (fire env t pass account).run (serve db) T = (.ok (bf,bt),delivered db env pass t x b d T) := by
  obtain ⟨bf,bt,hsf,hst,hrun⟩ := fire_covered db hc account h
  refine ⟨bf,bt,hsf,hst,?_⟩
  simpa only [Occasion.written_ok hw.1,Occasion.written_ok hw.2] using hrun

theorem fire_torn (hc : t.CreditOrDebit) (account : BankAccount L)
    (h : Covers env pass t T x b d a c) (hw : ¬ BothReturn env pass) :
    ∃ e, (fire env t pass account).run (serve db) T = (.error e,debited db env pass t x b T) := by
  obtain ⟨bf,bt,-,-,hrun⟩ := fire_covered db hc account h
  by_cases hf : (env.occasion (.updateFrom pass)).Returns
  · have ht : ¬ (env.occasion (.updateTo pass)).Returns := fun ht => hw ⟨hf,ht⟩
    obtain ⟨⟨e,he⟩,-⟩ := Occasion.written_error ht id T
    have hcm := (Occasion.written_error ht
      (book db t.transactionTo 20 (d+x) (env.occasion (.balanceTo pass)).now)
      (debited db env pass t x b T)).2
    refine ⟨updateFailed account e,?_⟩
    simpa only [Occasion.written_ok hf,he,delivered,hcm] using hrun
  · obtain ⟨⟨e,he⟩,-⟩ := Occasion.written_error hf id T
    refine ⟨updateFailed account e,?_⟩
    rw [hrun,he]

/-- The block returns with both accounts written, or throws. -/
theorem fire_cases (hc : t.CreditOrDebit) (account : BankAccount L) :
    (∃ x b d a c bf bt, Covers env pass t T x b d a c ∧ BothReturn env pass ∧
      Side (env.occasion (.balanceFrom pass)).now 10 (b-x) a bf ∧
      Side (env.occasion (.balanceTo pass)).now 20 (d+x) c bt ∧
      (fire env t pass account).run (serve db) T = (.ok (bf,bt),delivered db env pass t x b d T)) ∨
    (¬ ∃ x b d a c, Covers env pass t T x b d a c ∧ BothReturn env pass) ∧
      ∃ e T', (fire env t pass account).run (serve db) T = (.error e,T') := by
  by_cases hcov : ∃ x b d a c, Covers env pass t T x b d a c
  · obtain ⟨x,b,d,a,c,hcov⟩ := hcov
    by_cases hw : BothReturn env pass
    · obtain ⟨bf,bt,hsf,hst,hrun⟩ := fire_delivers db hc account hcov hw
      exact .inl ⟨x,b,d,a,c,bf,bt,hcov,hw,hsf,hst,hrun⟩
    · obtain ⟨e,he⟩ := fire_torn db hc account hcov hw
      exact .inr ⟨fun ⟨_,_,_,_,_,_,hw'⟩ => hw hw',e,_,he⟩
  · obtain ⟨e,he⟩ := fire_uncovered db hc account hcov
    exact .inr ⟨fun ⟨x,b,d,a,c,hcov',_⟩ => hcov ⟨x,b,d,a,c,hcov'⟩,e,T,he⟩

theorem Covers.unique {p' b' d' : ℚ} {a' c' : BankAccount L}
    (h : Covers env pass t T x b d a c) (h' : Covers env pass t T p' b' d' a' c') :
    p' = x ∧ b' = b ∧ d' = d ∧ a' = a ∧ c' = c := by
  have ha : a' = a := by simpa using h'.readsFrom.2.symm.trans h.readsFrom.2
  have hc : c' = c := by simpa using h'.readsTo.2.symm.trans h.readsTo.2
  subst ha hc
  refine ⟨?_,?_,?_,rfl,rfl⟩
  · simpa using h'.amount.symm.trans h.amount
  · simpa using h'.balanceFrom.symm.trans h.balanceFrom
  · simpa using h'.balanceTo.symm.trans h.balanceTo

end Fire

section Pass

variable {env} {t : BankTransaction L} {pass : ℕ} {T : Table} {rest : List (BankAccount L)}
  {z balanceFrom balanceTo account : BankAccount L}

theorem pass_reads {n : Option String} (hz : z.accountNumber = n)
    (h : Reads (env.occasion (.loop pass)) n T account) :
    (transactLoop env t pass (z :: rest) balanceFrom balanceTo).run (serve db) T =
      (visit env t pass rest balanceFrom balanceTo account).run (serve db) T := by
  subst hz
  rw [transactLoop_cons,lookup_run,h.2]
  rfl

theorem pass_unread (hc : t.CreditOrDebit)
    (h : ¬ ∃ account : BankAccount L, Reads (env.occasion (.loop pass)) z.accountNumber T account) :
    ∃ e, (transactLoop env t pass (z :: rest) balanceFrom balanceTo).run (serve db) T =
      (.error e,T) := by
  rw [transactLoop_cons,lookup_run]
  rcases getAccountByNumber_cases (L := L) (env.occasion (.loop pass)) z.accountNumber T
    with hr | ⟨e,he⟩ | ⟨a,ha,hn,-⟩
  · exact absurd hr h
  · exact ⟨e,by simp [he,bind,Except.bind]⟩
  · obtain ⟨e,he⟩ : ∃ e, visit env t pass rest balanceFrom balanceTo a = .raise e :=
      visit_unset hc hn
    exact ⟨e,by simp [ha,optionalGet,bind,Except.bind,he]⟩

theorem pass_guard (hc : t.CreditOrDebit) {e : Throwable}
    (hg : currencyGuard balanceFrom balanceTo t = .error e) :
    ∃ e, (transactLoop env t pass (z :: rest) balanceFrom balanceTo).run (serve db) T =
      (.error e,T) := by
  by_cases h : ∃ account : BankAccount L, Reads (env.occasion (.loop pass)) z.accountNumber T account
  · obtain ⟨account,ha⟩ := h
    exact ⟨e,by rw [pass_reads db rfl ha,visit_guard hg,Program.run_raise]⟩
  · exact pass_unread db hc h

end Pass

theorem currencyGuard_side {t : BankTransaction L} {a c bf bt : BankAccount L}
    (hf : bf.currencyUnit = a.currencyUnit) (ht : bt.currencyUnit = c.currencyUnit)
    (hfn : bf.accountNumber = a.accountNumber) (htn : bt.accountNumber = c.accountNumber) :
    currencyGuard bf bt t = currencyGuard a c t := by
  simp only [currencyGuard,hf,ht,hfn,htn]

section TwoAccounts

variable {env} {t : BankTransaction L} {n m : String} {u v x y : BankAccount L} {T : Table}

/-- Two objects under the numbers of a transaction between two accounts, in either order. -/
structure Partners (t : BankTransaction L) (n m : String) (u v : BankAccount L) : Prop where
  kind : t.CreditOrDebit
  transactionFrom : t.transactionFrom = some n
  transactionTo : t.transactionTo = some m
  different : n ≠ m
  numbers : u.accountNumber = some n ∧ v.accountNumber = some m ∨
    u.accountNumber = some m ∧ v.accountNumber = some n

def passOf (t : BankTransaction L) (u : BankAccount L) : ℕ :=
  if Fires t u.accountNumber then 0 else 1

/-- The loop gets to the block of that pass. -/
structure Arrives (env : Env) (t : BankTransaction L) (u v : BankAccount L) (T : Table) : Prop where
  guard : currencyGuard u v t = .ok ()
  first : ∃ a : BankAccount L, Reads (env.occasion (.loop 0)) u.accountNumber T a
  second : ¬ Fires t u.accountNumber →
    ∃ a : BankAccount L, Reads (env.occasion (.loop 1)) v.accountNumber T a

def VisitsOther (env : Env) (t : BankTransaction L) (u a c : BankAccount L) : Prop :=
  Fires t u.accountNumber → (env.occasion (.loop 1)).fault = none ∧ currencyGuard a c t = .ok ()

def afterwards (env : Env) (t : BankTransaction L) (u v : BankAccount L)
    (sides : BankAccount L × BankAccount L) : Code L (List (BankAccount L)) :=
  if Fires t u.accountNumber then transactLoop env t 1 [v] sides.1 sides.2
  else .ret [sides.1,sides.2]

namespace Partners

/-- Money moves in exactly one of the passes. -/
theorem fires_once (h : Partners t n m u v) :
    Fires t v.accountNumber ↔ ¬ Fires t u.accountNumber := by
  have hmn : m ≠ n := h.different.symm
  rcases h.kind with hk | hk <;> rcases h.numbers with ⟨hu,hv⟩ | ⟨hu,hv⟩ <;>
    simp [Fires,h.transactionFrom,h.transactionTo,hk,hu,hv,h.different,hmn]

theorem numbered (h : Partners t n m u v) :
    (∃ k, u.accountNumber = some k) ∧ ∃ k, v.accountNumber = some k := by
  rcases h.numbers with ⟨hu,hv⟩ | ⟨hu,hv⟩
  · exact ⟨⟨n,hu⟩,⟨m,hv⟩⟩
  · exact ⟨⟨m,hu⟩,⟨n,hv⟩⟩

theorem skips (h : Partners t n m u v) {a z bf bt : BankAccount L} {pass : ℕ}
    {rest : List (BankAccount L)} (hz : z = u ∨ z = v)
    (ha : Reads (env.occasion (.loop pass)) z.accountNumber T a) (hg : currencyGuard bf bt t = .ok ())
    (hf : ¬ Fires t z.accountNumber) :
    (transactLoop env t pass (z :: rest) bf bt).run (serve db) T =
      (transactLoop env t (pass+1) rest bf bt).run (serve db) T := by
  obtain ⟨k,hk⟩ : ∃ k, z.accountNumber = some k := by
    rcases hz with rfl | rfl
    · exact h.numbered.1
    · exact h.numbered.2
  have han := ha.number.1
  rw [pass_reads db rfl ha,visit_skip hg h.kind (han.trans hk) h.transactionFrom h.transactionTo
    h.different (by rwa [han])]

theorem arrived_run (h : Partners t n m u v) (hr : Arrives env t u v T) :
    ∃ account, (transactInAccounts env t [u,v]).run (serve db) T =
      ((fire env t (passOf t u) account).cont (afterwards env t u v) .raise).run (serve db) T := by
  obtain ⟨hg,⟨a,ha⟩,hs⟩ := hr
  by_cases hf : Fires t u.accountNumber
  · have hafter : afterwards env t u v = fun sides => transactLoop env t 1 [v] sides.1 sides.2 := by
      funext sides
      simp only [afterwards,hf,ite_true]
    have hloop : (transactInAccounts env t [u,v]).run (serve db) T =
        (visit env t 0 [v] u v a).run (serve db) T := pass_reads db rfl ha
    refine ⟨a,?_⟩
    rw [hloop,visit_fires hg ha.complete (by rwa [ha.number.1]),hafter]
    simp only [passOf,hf,ite_true]
  · obtain ⟨c,hc⟩ := hs hf
    have hafter : afterwards env t u v = fun sides => .ret [sides.1,sides.2] := by
      funext sides
      simp only [afterwards,hf,ite_false]
    have hloop : (transactInAccounts env t [u,v]).run (serve db) T =
        (transactLoop env t 1 [v] u v).run (serve db) T := h.skips db (.inl rfl) ha hg hf
    refine ⟨c,?_⟩
    rw [hloop,pass_reads db rfl hc,
      visit_fires hg hc.complete (by rw [hc.number.1]; exact h.fires_once.mpr hf),hafter]
    simp only [passOf,hf,ite_false]
    rfl

theorem unarrived_run (h : Partners t n m u v) (hr : ¬ Arrives env t u v T) :
    ∃ e, (transactInAccounts env t [u,v]).run (serve db) T = (.error e,T) := by
  cases hg : currencyGuard u v t with
  | error e => exact pass_guard db h.kind hg
  | ok o =>
    by_cases hfirst : ∃ a : BankAccount L, Reads (env.occasion (.loop 0)) u.accountNumber T a
    · obtain ⟨a,ha⟩ := hfirst
      obtain ⟨hf,hunread⟩ := Classical.not_imp.mp fun hs => hr ⟨hg,⟨a,ha⟩,hs⟩
      have hloop : (transactInAccounts env t [u,v]).run (serve db) T =
          (transactLoop env t 1 [v] u v).run (serve db) T := h.skips db (.inl rfl) ha hg hf
      rw [hloop]
      exact pass_unread db h.kind hunread
    · exact pass_unread db h.kind hfirst

theorem uncovered_run (h : Partners t n m u v)
    (hcov : ¬ ∃ p b d a c, Covers env (passOf t u) t T p b d a c) :
    ∃ e, (transactInAccounts env t [u,v]).run (serve db) T = (.error e,T) := by
  by_cases hr : Arrives env t u v T
  · obtain ⟨account,hrun⟩ := h.arrived_run db hr
    obtain ⟨e,he⟩ := fire_uncovered db h.kind account hcov
    exact ⟨e,by rw [hrun,Program.run_cont_error (serve db) he,Program.run_raise]⟩
  · exact h.unarrived_run db hr

variable {p b d : ℚ} {a c : BankAccount L}

theorem torn_run (h : Partners t n m u v) (hr : Arrives env t u v T)
    (hcov : Covers env (passOf t u) t T p b d a c) (hw : ¬ BothReturn env (passOf t u)) :
    ∃ e, (transactInAccounts env t [u,v]).run (serve db) T =
      (.error e,debited db env (passOf t u) t p b T) := by
  obtain ⟨account,hrun⟩ := h.arrived_run db hr
  obtain ⟨e,he⟩ := fire_torn db h.kind account hcov hw
  exact ⟨e,by rw [hrun,Program.run_cont_error (serve db) he,Program.run_raise]⟩

theorem readable_delivered {pass : ℕ} (hcov : Covers env pass t T p b d a c) {k : Option String}
    (hk : Readable L k T) : Readable L k (delivered db env pass t p b d T) := by
  have hp0 : 0 ≤ p := t.amount_nonneg p hcov.amount
  have hb0 : 0 ≤ b-p := by linarith [hcov.enough]
  have hd0 : 0 ≤ d+p := by linarith [c.balance_nonneg d hcov.balanceTo]
  have hdeb : Readable L k (debited db env pass t p b T) := by
    simp only [debited,Occasion.commits]
    split_ifs
    · exact hk.book db hb0 _
    · exact hk
  simp only [delivered,Occasion.commits]
  split_ifs
  · exact hdeb.book db hd0 _
  · exact hdeb

theorem readable (h : Partners t n m u v) {pass : ℕ} (hcov : Covers env pass t T p b d a c) :
    Readable L u.accountNumber T ∧ Readable L v.accountNumber T := by
  have hfrom := hcov.readsFrom.readable
  have hto := hcov.readsTo.readable
  rw [h.transactionFrom] at hfrom
  rw [h.transactionTo] at hto
  rcases h.numbers with ⟨hu,hv⟩ | ⟨hu,hv⟩ <;> rw [hu,hv]
  · exact ⟨hfrom,hto⟩
  · exact ⟨hto,hfrom⟩

theorem afterwards_run (h : Partners t n m u v) (hcov : Covers env (passOf t u) t T p b d a c)
    {sides : BankAccount L × BankAccount L} (hsides : currencyGuard sides.1 sides.2 t =
      currencyGuard a c t) :
    (VisitsOther env t u a c → (afterwards env t u v sides).run (serve db)
      (delivered db env (passOf t u) t p b d T) =
        (.ok [sides.1,sides.2],delivered db env (passOf t u) t p b d T)) ∧
    (¬ VisitsOther env t u a c → ∃ e, (afterwards env t u v sides).run (serve db)
      (delivered db env (passOf t u) t p b d T) =
        (.error e,delivered db env (passOf t u) t p b d T)) := by
  by_cases hfire : Fires t u.accountNumber
  · have hread := readable_delivered db hcov (h.readable hcov).2
    have hskip : ¬ Fires t v.accountNumber := fun hv => h.fires_once.mp hv hfire
    simp only [afterwards,hfire,ite_true]
    constructor
    · intro hfin
      obtain ⟨hf,hg⟩ := hfin hfire
      obtain ⟨w,hw⟩ := hread.reads hf
      rw [h.skips db (.inr rfl) hw (hsides.trans hg) hskip]
      rfl
    · intro hfin
      cases hg : currencyGuard a c t with
      | error e => exact pass_guard db h.kind (hsides.trans hg)
      | ok o =>
        have hf : (env.occasion (.loop 1)).fault ≠ none := fun hf => hfin fun _ => ⟨hf,hg⟩
        exact pass_unread db h.kind fun ⟨w,hw⟩ => hf hw.1
  · simp only [afterwards,hfire,ite_false]
    constructor
    · intro _
      rfl
    · intro hfin
      exact absurd (fun hf => absurd hf hfire) hfin

theorem delivered_run (h : Partners t n m u v) (hr : Arrives env t u v T)
    (hcov : Covers env (passOf t u) t T p b d a c) (hw : BothReturn env (passOf t u)) :
    ∃ bf bt, Side (env.occasion (.balanceFrom (passOf t u))).now 10 (b-p) a bf ∧
      Side (env.occasion (.balanceTo (passOf t u))).now 20 (d+p) c bt ∧
      (VisitsOther env t u a c → (transactInAccounts env t [u,v]).run (serve db) T =
        (.ok [bf,bt],delivered db env (passOf t u) t p b d T)) ∧
      (¬ VisitsOther env t u a c → ∃ e, (transactInAccounts env t [u,v]).run (serve db) T =
        (.error e,delivered db env (passOf t u) t p b d T)) := by
  obtain ⟨account,hrun⟩ := h.arrived_run db hr
  obtain ⟨bf,bt,hsf,hst,hfire⟩ := fire_delivers db h.kind account hcov hw
  have hg : currencyGuard bf bt t = currencyGuard a c t :=
    currencyGuard_side hsf.currency hst.currency hsf.number hst.number
  refine ⟨bf,bt,hsf,hst,?_⟩
  rw [hrun,Program.run_cont_ok (serve db) hfire]
  exact h.afterwards_run db hcov hg

end Partners

def firingPass (t : BankTransaction L) : ℕ := if t.transactionType = some 1 then 0 else 1

/-- The loop gets to the block of the firing pass. -/
structure Reaches (env : Env) (t : BankTransaction L) (x y : BankAccount L) (T : Table) : Prop where
  guard : currencyGuard x y t = .ok ()
  first : ∃ a : BankAccount L, Reads (env.occasion (.loop 0)) t.transactionFrom T a
  second : t.transactionType ≠ some 1 →
    ∃ a : BankAccount L, Reads (env.occasion (.loop 1)) t.transactionTo T a

def Finishes (env : Env) (t : BankTransaction L) (a c : BankAccount L) : Prop :=
  t.transactionType = some 1 →
    (env.occasion (.loop 1)).fault = none ∧ currencyGuard a c t = .ok ()

structure Between (t : BankTransaction L) (n m : String) (x y : BankAccount L) : Prop where
  kind : t.CreditOrDebit
  transactionFrom : t.transactionFrom = some n
  transactionTo : t.transactionTo = some m
  different : n ≠ m
  numberFrom : x.accountNumber = some n
  numberTo : y.accountNumber = some m

namespace Between

theorem fires_from (h : Between t n m x y) : Fires t (some n) ↔ t.transactionType = some 1 := by
  simp [Fires,h.transactionFrom,h.transactionTo,h.different.symm]

theorem fires_to (h : Between t n m x y) : Fires t (some m) ↔ t.transactionType ≠ some 1 := by
  rcases h.kind with hk | hk <;>
    simp [Fires,h.transactionFrom,h.transactionTo,h.different,hk]

/-! The collection of the functor is one of the two orders. -/

theorem partners (h : Between t n m x y) : Partners t n m x y :=
  ⟨h.kind,h.transactionFrom,h.transactionTo,h.different,.inl ⟨h.numberFrom,h.numberTo⟩⟩

theorem fires (h : Between t n m x y) : Fires t x.accountNumber ↔ t.transactionType = some 1 := by
  rw [h.numberFrom]
  exact h.fires_from

theorem passOf_eq (h : Between t n m x y) : passOf t x = firingPass t := by
  simp only [passOf,firingPass,h.fires]

theorem arrives_iff (h : Between t n m x y) : Arrives env t x y T ↔ Reaches env t x y T := by
  have hx : x.accountNumber = t.transactionFrom := h.numberFrom.trans h.transactionFrom.symm
  have hy : y.accountNumber = t.transactionTo := h.numberTo.trans h.transactionTo.symm
  constructor
  · rintro ⟨hg,hfirst,hsecond⟩
    rw [h.fires] at hsecond
    exact ⟨hg,hx ▸ hfirst,hy ▸ hsecond⟩
  · rintro ⟨hg,hfirst,hsecond⟩
    refine ⟨hg,hx ▸ hfirst,?_⟩
    rw [h.fires]
    exact hy ▸ hsecond

theorem visitsOther_iff (h : Between t n m x y) {a c : BankAccount L} :
    VisitsOther env t x a c ↔ Finishes env t a c := by
  simp only [VisitsOther,Finishes,h.fires]

theorem unreached_run (h : Between t n m x y) (hr : ¬ Reaches env t x y T) :
    ∃ e, (transactInAccounts env t [x,y]).run (serve db) T = (.error e,T) :=
  h.partners.unarrived_run db fun ha => hr (h.arrives_iff.mp ha)

theorem uncovered_run (h : Between t n m x y)
    (hcov : ¬ ∃ p b d a c, Covers env (firingPass t) t T p b d a c) :
    ∃ e, (transactInAccounts env t [x,y]).run (serve db) T = (.error e,T) := by
  rw [← h.passOf_eq] at hcov
  exact h.partners.uncovered_run db hcov

variable {p b d : ℚ} {a c : BankAccount L}

theorem torn_run (h : Between t n m x y) (hr : Reaches env t x y T)
    (hcov : Covers env (firingPass t) t T p b d a c) (hw : ¬ BothReturn env (firingPass t)) :
    ∃ e, (transactInAccounts env t [x,y]).run (serve db) T =
      (.error e,debited db env (firingPass t) t p b T) := by
  rw [← h.passOf_eq] at hcov hw ⊢
  exact h.partners.torn_run db (h.arrives_iff.mpr hr) hcov hw

theorem delivered_run (h : Between t n m x y) (hr : Reaches env t x y T)
    (hcov : Covers env (firingPass t) t T p b d a c) (hw : BothReturn env (firingPass t)) :
    (Finishes env t a c → ∃ list, (transactInAccounts env t [x,y]).run (serve db) T =
      (.ok list,delivered db env (firingPass t) t p b d T)) ∧
    (¬ Finishes env t a c → ∃ e, (transactInAccounts env t [x,y]).run (serve db) T =
      (.error e,delivered db env (firingPass t) t p b d T)) := by
  rw [← h.passOf_eq] at hcov hw ⊢
  rw [← h.visitsOther_iff]
  obtain ⟨bf,bt,-,-,hok,hlate⟩ := h.partners.delivered_run db (h.arrives_iff.mpr hr) hcov hw
  exact ⟨fun hfin => ⟨_,hok hfin⟩,hlate⟩

/-- A transfer that returns was covered, and both of its writes returned. -/
theorem returns_delivered (h : Between t n m x y) {list : List (BankAccount L)} {T' : Table}
    (hrun : (transactInAccounts env t [x,y]).run (serve db) T = (.ok list,T')) :
    ∃ p b d a c, Covers env (firingPass t) t T p b d a c ∧
      T' = delivered db env (firingPass t) t p b d T := by
  by_cases hr : Reaches env t x y T
  · by_cases hcov : ∃ p b d a c, Covers env (firingPass t) t T p b d a c
    · obtain ⟨p,b,d,a,c,hcov⟩ := hcov
      refine ⟨p,b,d,a,c,hcov,?_⟩
      by_cases hw : BothReturn env (firingPass t)
      · obtain ⟨hfin,hlate⟩ := h.delivered_run db hr hcov hw
        by_cases hf : Finishes env t a c
        · obtain ⟨list',hok⟩ := hfin hf
          cases hrun.symm.trans hok
          rfl
        · obtain ⟨e,he⟩ := hlate hf
          cases hrun.symm.trans he
      · obtain ⟨e,he⟩ := h.torn_run db hr hcov hw
        cases hrun.symm.trans he
    · obtain ⟨e,he⟩ := h.uncovered_run db hcov
      cases hrun.symm.trans he
  · obtain ⟨e,he⟩ := h.unreached_run db hr
    cases hrun.symm.trans he

end Between
end TwoAccounts

end HomeRest
