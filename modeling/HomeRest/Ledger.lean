import HomeRest.Rejection

/-! Tables under the unique key on `account_number`.
A lookup then finds one row, and a call without failing steps is decided by the rows. -/
namespace HomeRest

open AtomicProgram

variable {L : Libs}

/-- The unique key; it lets any number of NULLs in. -/
def UniqueNumbers (T : Table) : Prop :=
  T.Pairwise fun r s => sqlEq r.accountNumber s.accountNumber = false

instance (T : Table) : Decidable (UniqueNumbers T) :=
  inferInstanceAs (Decidable (List.Pairwise _ T))

def Row.identity (r : Row) : UUID × Option String × Option String :=
  (r.accountId,r.accountNumber,r.currencyUnit)

def Table.identities (T : Table) : List (UUID × Option String × Option String) :=
  T.map Row.identity

section Unique

variable {T T' : Table} {n : Option String} {r : Row}

theorem UniqueNumbers.cases (h : UniqueNumbers T) (n : Option String) :
    sqlGetAccountsByNumber n T = [] ∨ ∃ r, sqlGetAccountsByNumber n T = [r] := by
  induction T with
  | nil => exact .inl rfl
  | cons r T ih =>
    obtain ⟨hr,hT⟩ := List.pairwise_cons.mp h
    simp only [sqlGetAccountsByNumber,List.filter_cons] at ih ⊢
    by_cases hrn : sqlEq r.accountNumber n = true
    · right
      refine ⟨r,?_⟩
      simp only [hrn,ite_true,List.cons.injEq,true_and]
      apply List.filter_eq_nil_iff.mpr
      intro s hs hsn
      obtain ⟨k,hk,hkn⟩ := sqlEq_iff.mp hrn
      obtain ⟨k',hk',hkn'⟩ := sqlEq_iff.mp hsn
      have hrs := hr s hs
      rw [hk,hk',← hkn,hkn'] at hrs
      simp at hrs
    · simpa only [hrn,Bool.false_eq_true,ite_false] using ih hT

theorem UniqueNumbers.of_identities (h : UniqueNumbers T) (he : T'.identities = T.identities) :
    UniqueNumbers T' := by
  have hmap : ∀ U : Table, UniqueNumbers U ↔
      U.identities.Pairwise fun p q => sqlEq p.2.1 q.2.1 = false := by
    intro U
    rw [Table.identities,List.pairwise_map]
    rfl
  rw [hmap,he]
  exact (hmap T).mp h

theorem identities_updateWhere {set : Row → Row} (hset : ∀ r, (set r).identity = r.identity)
    (n : Option String) (T : Table) : (updateWhere n set T).identities = T.identities := by
  simp only [Table.identities,updateWhere,List.map_map]
  apply List.map_congr_left
  intro r _
  simp only [Function.comp_apply]
  split_ifs
  · exact hset r
  · rfl

theorem identities_book (db : Database) (n : Option String) (status : ℤ) (v : ℚ) (now : Millis)
    (T : Table) : (book db n status v now T).identities = T.identities := by
  have hset : ∀ r, (bookedRow db status v now r).identity = r.identity := fun _ => rfl
  exact identities_updateWhere hset n T

theorem identities_close (f g : Option String) (d : Millis) (T : Table) :
    (sqlUpdateAccountsInTransaction f g d T).identities = T.identities :=
  map_close (fun _ _ => rfl) f g d T

theorem readable_single (h : sqlGetAccountsByNumber n T = [r]) :
    Readable L n T ↔ r.Acceptable L := by
  simp [Readable,h]

theorem Reads.single {occasion : Occasion} {a : BankAccount L} (h : Reads occasion n T a)
    (hT : sqlGetAccountsByNumber n T = [r]) : r.Acceptable L ∧ Carries occasion.now r a := by
  obtain ⟨r',hr',hacc,hc⟩ := h.row
  rw [hT,List.mem_singleton] at hr'
  subst hr'
  exact ⟨hacc,hc⟩

theorem UniqueNumbers.reads_single (hu : UniqueNumbers T) {occasion : Occasion} {a : BankAccount L}
    (h : Reads occasion n T a) : ∃ r, sqlGetAccountsByNumber n T = [r] ∧ r.Acceptable L ∧
      Carries occasion.now r a := by
  rcases hu.cases n with hnil | ⟨r,hr⟩
  · exact absurd hnil h.readable.1
  · exact ⟨r,hr,h.single hr⟩

end Unique

/-- The rows let the transfer through. -/
structure Accepted (env : Env) (t : BankTransaction L) (T : Table) (r s : Row) (x b d : ℚ) :
    Prop where
  lock : env.cleared .accountsLock = false
  rowFrom : sqlGetAccountsByNumber t.transactionFrom T = [r]
  rowTo : sqlGetAccountsByNumber t.transactionTo T = [s]
  acceptableFrom : r.Acceptable L
  acceptableTo : s.Acceptable L
  notBlankFrom : isNotBlank r.accountNumber = true
  notBlankTo : isNotBlank s.accountNumber = true
  currency : ∃ u, r.currencyUnit = some u ∧ s.currencyUnit = some u ∧ t.currencyUnit = some u
  amount : t.transactionAmount = some x
  balanceFrom : r.currentBalance = some b
  balanceTo : s.currentBalance = some d
  enough : x ≤ b

section Decided

variable {db : Database} {env : Env} {t : BankTransaction L} {T : Table} {r s : Row} {x b d : ℚ}

theorem Env.Sound.bothReturn (hs : env.Sound) (pass : ℕ) : BothReturn env pass :=
  ⟨Occasion.returns_none (hs _),Occasion.returns_none (hs _)⟩

theorem delivered_sound (hs : env.Sound) (pass : ℕ) (T : Table) :
    delivered db env pass t x b d T =
      book db t.transactionTo 20 (d+x) (env.occasion (.balanceTo pass)).now
        (book db t.transactionFrom 10 (b-x) (env.occasion (.balanceFrom pass)).now T) := by
  simp only [delivered,debited,Occasion.commits_none (hs _)]

theorem Accepted.reads (h : Accepted env t T r s x b d) (hs : env.Sound) (site site' : Site) :
    ∃ a c : BankAccount L, Reads (env.occasion site) t.transactionFrom T a ∧
      Carries (env.occasion site).now r a ∧ Reads (env.occasion site') t.transactionTo T c ∧
      Carries (env.occasion site').now s c := by
  obtain ⟨a,ha⟩ := ((readable_single h.rowFrom).mpr h.acceptableFrom).reads (hs site)
  obtain ⟨c,hc⟩ := ((readable_single h.rowTo).mpr h.acceptableTo).reads (hs site')
  exact ⟨a,c,ha,(ha.single h.rowFrom).2,hc,(hc.single h.rowTo).2⟩

theorem Accepted.admits (h : Accepted env t T r s x b d) (hs : env.Sound) :
    ∃ a c, Admits env t T a c ∧ currencyGuard a c t = .ok () := by
  obtain ⟨a,c,ha,har,hc,hcs⟩ := h.reads hs .lookupFrom .lookupTo
  obtain ⟨u,hr,hs',ht⟩ := h.currency
  exact ⟨a,c,⟨h.lock,ha,hc,by rw [har.number]; exact h.notBlankFrom,
    by rw [hcs.number]; exact h.notBlankTo⟩,
    currencyGuard_ok.mpr ⟨u,har.currency.trans hr,hcs.currency.trans hs',ht⟩⟩

theorem Accepted.covers (h : Accepted env t T r s x b d) (hs : env.Sound) (pass : ℕ) :
    ∃ a c, Covers env pass t T x b d a c ∧ currencyGuard a c t = .ok () := by
  obtain ⟨a,c,ha,har,hc,hcs⟩ := h.reads hs (.branchFrom pass) (.branchTo pass)
  obtain ⟨u,hr,hs',ht⟩ := h.currency
  exact ⟨a,c,⟨h.amount,ha,har.balance.trans h.balanceFrom,h.enough,hc,hcs.balance.trans h.balanceTo⟩,
    currencyGuard_ok.mpr ⟨u,har.currency.trans hr,hcs.currency.trans hs',ht⟩⟩

theorem between_of_reads (hc : t.CreditOrDebit) (hne : t.transactionFrom ≠ t.transactionTo)
    {T' : Table} {occasion occasion' : Occasion} {a c : BankAccount L}
    (ha : Reads occasion t.transactionFrom T a) (hcr : Reads occasion' t.transactionTo T' c) :
    ∃ n m, Between t n m a c := by
  obtain ⟨ha,n,hn⟩ := ha.number
  obtain ⟨hcn,m,hm⟩ := hcr.number
  exact ⟨n,m,hc,hn,hm,fun he => hne (by rw [hn,hm,he]),ha.trans hn,hcn.trans hm⟩

/-- An accepted transfer between two accounts moves the amount. -/
theorem consume_accepted (db : Database) (hs : env.Sound) (hc : t.CreditOrDebit)
    (hne : t.transactionFrom ≠ t.transactionTo) (h : Accepted env t T r s x b d) :
    ∃ result, (FunctorBiConsumeService4Accounts.consume env t).run (serve db) T =
      (.ok (some result),delivered db env (firingPass t) t x b d T) := by
  obtain ⟨a,c,hadm,hg⟩ := h.admits hs
  obtain ⟨n,m,hb⟩ := between_of_reads hc hne hadm.readsFrom hadm.readsTo
  obtain ⟨a',c',hcov,hg'⟩ := h.covers hs (firingPass t)
  have hreach : Reaches env t a c T := by
    obtain ⟨v,w,hv,-,hw,-⟩ := h.reads hs (.loop 0) (.loop 1)
    exact ⟨hg,⟨v,hv⟩,fun _ => ⟨w,hw⟩⟩
  obtain ⟨list,hrun⟩ := (hb.delivered_run db hreach hcov (hs.bothReturn _)).1 fun _ => ⟨hs _,hg'⟩
  refine ⟨list,?_⟩
  rw [consume_admitted db hadm,Program.run_cont_ok (serve db) hrun]
  rfl

/-- Any other transfer between two accounts writes nothing. -/
theorem consume_unaccepted (db : Database) (hu : UniqueNumbers T) (hc : t.CreditOrDebit)
    (hne : t.transactionFrom ≠ t.transactionTo) (h : ¬ ∃ r s x b d, Accepted env t T r s x b d) :
    ∃ out, (FunctorBiConsumeService4Accounts.consume env t).run (serve db) T = (out,T) ∧
      ∀ result, out ≠ .ok (some result) := by
  by_cases hadm : ∃ a c, Admits env t T a c
  · obtain ⟨a,c,hadm⟩ := hadm
    obtain ⟨n,m,hb⟩ := between_of_reads hc hne hadm.readsFrom hadm.readsTo
    have hfail : ∃ e, (transactInAccounts env t [a,c]).run (serve db) T = (.error e,T) := by
      by_cases hreach : Reaches env t a c T
      · apply hb.uncovered_run db
        rintro ⟨x,b,d,a',c',hcov⟩
        apply h
        obtain ⟨r,hr,hracc,har⟩ := hu.reads_single hadm.readsFrom
        obtain ⟨s,hs',hsacc,hcs⟩ := hu.reads_single hadm.readsTo
        have ha' := (hcov.readsFrom.single hr).2
        have hc' := (hcov.readsTo.single hs').2
        obtain ⟨u,hau,hcu,htu⟩ := currencyGuard_ok.mp hreach.guard
        exact ⟨r,s,x,b,d,hadm.lock,hr,hs',hracc,hsacc,by rw [← har.number]; exact hadm.notBlankFrom,
          by rw [← hcs.number]; exact hadm.notBlankTo,
          ⟨u,har.currency.symm.trans hau,hcs.currency.symm.trans hcu,htu⟩,hcov.amount,
          ha'.balance.symm.trans hcov.balanceFrom,hc'.balance.symm.trans hcov.balanceTo,hcov.enough⟩
      · exact hb.unreached_run db hreach
    obtain ⟨e,he⟩ := hfail
    exact ⟨.error e,by rw [consume_admitted db hadm,Program.run_cont_error (serve db) he]; rfl,
      by simp⟩
  · exact consume_refused db hadm

end Decided

end HomeRest
