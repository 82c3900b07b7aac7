import HomeRest.Ledger

/-! The credit branch against the debit branch.
They fire in different passes and compute with opposite signs. Under the unique key their
runs stay alike: the tables differ in dates only. -/
namespace HomeRest

open AtomicProgram

variable {L : Libs}

def Row.undated (r : Row) : Row := {r with dateUpdated := none}

/-- The tables agree row by row, up to the dates. -/
def Alike (T T' : Table) : Prop := T.map Row.undated = T'.map Row.undated

section Alike

variable {T T' : Table} {n : Option String}

theorem Alike.symm (h : Alike T T') : Alike T' T := Eq.symm h

theorem Alike.map {f f' : Row → Row} (g : Row → Row) (hf : ∀ r, (f r).undated = g r.undated)
    (hf' : ∀ r, (f' r).undated = g r.undated) (h : Alike T T') : Alike (T.map f) (T'.map f') := by
  have hboth : ∀ (U : Table) (e : Row → Row), (∀ r, (e r).undated = g r.undated) →
      (U.map e).map Row.undated = (U.map Row.undated).map g := by
    intro U e he
    simp only [List.map_map]
    apply List.map_congr_left
    intro r _
    exact he r
  rw [Alike,hboth T f hf,hboth T' f' hf',h]

theorem Alike.sqlGet (h : Alike T T') (n : Option String) :
    Alike (sqlGetAccountsByNumber n T) (sqlGetAccountsByNumber n T') := by
  have hnum : ∀ r : Row, r.undated.accountNumber = r.accountNumber := fun _ => rfl
  rw [Alike,← sqlGet_map hnum,← sqlGet_map hnum,h]

theorem Alike.identities (h : Alike T T') : T.identities = T'.identities := by
  have hid : ∀ U : Table, U.identities = (U.map Row.undated).map Row.identity := by
    intro U
    rw [Table.identities,List.map_map]
    rfl
  rw [hid,hid,h]

theorem Alike.book (db : Database) (n : Option String) (status : ℤ) (v : ℚ) (now now' : Millis)
    (h : Alike T T') : Alike (book db n status v now T) (book db n status v now' T') := by
  have hrow : ∀ now r, Row.undated (if sqlEq r.accountNumber n then bookedRow db status v now r else r) =
      (fun q : Row => if sqlEq q.accountNumber n then Row.undated (bookedRow db status v 0 q) else q)
        r.undated := by
    intro now r
    by_cases hr : sqlEq r.accountNumber n = true <;> simp [Row.undated,bookedRow,hr]
  exact h.map (fun q : Row => if sqlEq q.accountNumber n then Row.undated (bookedRow db status v 0 q)
    else q) (hrow now) (hrow now')

theorem Alike.close (f g : Option String) (d d' : Millis) (h : Alike T T') :
    Alike (sqlUpdateAccountsInTransaction f g d T) (sqlUpdateAccountsInTransaction f g d' T') := by
  have hrow : ∀ d r, Row.undated (if sqlEq r.accountNumber f || sqlEq r.accountNumber g then
      closedRow d r else r) =
      (fun q : Row => if sqlEq q.accountNumber f || sqlEq q.accountNumber g then
        Row.undated (closedRow 0 q) else q) r.undated := by
    intro d r
    by_cases hr : (sqlEq r.accountNumber f || sqlEq r.accountNumber g) = true <;>
      simp [Row.undated,closedRow,hr]
  exact h.map (fun q : Row => if sqlEq q.accountNumber f || sqlEq q.accountNumber g then
    Row.undated (closedRow 0 q) else q) (hrow d) (hrow d')

structure SameMoney (a a' : BankAccount L) : Prop where
  balance : a'.currentBalance = a.currentBalance
  number : a'.accountNumber = a.accountNumber
  currency : a'.currencyUnit = a.currencyUnit

theorem Alike.reads (h : Alike T T') (hu : UniqueNumbers T) {occasion occasion' : Occasion}
    {a : BankAccount L} (hr : Reads occasion n T a) (hf : occasion'.fault = none) :
    ∃ a', Reads occasion' n T' a' ∧ SameMoney a a' := by
  obtain ⟨r,hrT,hacc,hc⟩ := hu.reads_single hr
  have hget := h.sqlGet n
  rw [hrT,Alike,List.map_singleton] at hget
  obtain ⟨r',hrT',hrr⟩ := List.map_eq_singleton_iff.mp hget.symm
  have hrow : r'.currentBalance = r.currentBalance ∧ r'.accountNumber = r.accountNumber ∧
      r'.currencyUnit = r.currencyUnit := by
    cases r
    cases r'
    simp only [Row.undated,Row.mk.injEq,and_true] at hrr
    exact ⟨hrr.2.1,hrr.2.2.2.1,hrr.2.2.2.2⟩
  obtain ⟨hb,hn,hcur⟩ := hrow
  have hacc' : r'.Acceptable L :=
    ⟨by rw [hb]; exact hacc.balance,by rw [hn]; exact hacc.number,by rw [hcur]; exact hacc.currency⟩
  obtain ⟨a',ha'⟩ := ((readable_single hrT').mpr hacc').reads hf
  have hc' := (ha'.single hrT').2
  exact ⟨a',ha',⟨hc'.balance.trans (hb.trans hc.balance.symm),
    hc'.number.trans (hn.trans hc.number.symm),hc'.currency.trans (hcur.trans hc.currency.symm)⟩⟩

end Alike

def SameEnd {α : Type} (p q : Except Throwable α × Table) : Prop :=
  (p.1.isOk = q.1.isOk) ∧ Alike p.2 q.2

/-- Two transactions that differ in their types at most. -/
structure SameOrder (t t' : BankTransaction L) : Prop where
  transactionFrom : t'.transactionFrom = t.transactionFrom
  transactionTo : t'.transactionTo = t.transactionTo
  amount : t'.transactionAmount = t.transactionAmount
  currency : t'.currencyUnit = t.currencyUnit

theorem SameOrder.symm {t t' : BankTransaction L} (h : SameOrder t t') : SameOrder t' t :=
  ⟨h.transactionFrom.symm,h.transactionTo.symm,h.amount.symm,h.currency.symm⟩

theorem SameOrder.guard {t t' : BankTransaction L} (h : SameOrder t t') {a c a' c' : BankAccount L}
    (ha : SameMoney a a') (hc : SameMoney c c') (hg : currencyGuard a c t = .ok ()) :
    currencyGuard a' c' t' = .ok () := by
  obtain ⟨u,hau,hcu,htu⟩ := currencyGuard_ok.mp hg
  exact currencyGuard_ok.mpr ⟨u,ha.currency.trans hau,hc.currency.trans hcu,h.currency.trans htu⟩

theorem SameMoney.symm {a a' : BankAccount L} (h : SameMoney a a') : SameMoney a' a :=
  ⟨h.balance.symm,h.number.symm,h.currency.symm⟩

section Block

variable (db : Database) {env env' : Env} {t t' : BankTransaction L} {pass pass' : ℕ} {T T' : Table}

theorem Alike.covers (h : Alike T T') (hu : UniqueNumbers T) (hs' : env'.Sound)
    (ho : SameOrder t t') {x b d : ℚ} {a c : BankAccount L} (hcov : Covers env pass t T x b d a c) :
    ∃ a' c', Covers env' pass' t' T' x b d a' c' ∧ SameMoney a a' ∧ SameMoney c c' := by
  obtain ⟨a',ha',haa⟩ := h.reads hu hcov.readsFrom (hs' (.branchFrom pass'))
  obtain ⟨c',hc',hcc⟩ := h.reads hu hcov.readsTo (hs' (.branchTo pass'))
  refine ⟨a',c',⟨ho.amount.trans hcov.amount,?_,haa.balance.trans hcov.balanceFrom,hcov.enough,?_,
    hcc.balance.trans hcov.balanceTo⟩,haa,hcc⟩
  · rw [ho.transactionFrom]
    exact ha'
  · rw [ho.transactionTo]
    exact hc'

theorem Alike.delivered (h : Alike T T') (hs : env.Sound) (hs' : env'.Sound) (ho : SameOrder t t')
    (x b d : ℚ) : Alike (delivered db env pass t x b d T) (delivered db env' pass' t' x b d T') := by
  rw [delivered_sound hs,delivered_sound hs',ho.transactionFrom,ho.transactionTo]
  exact (h.book db _ _ _ _ _).book db _ _ _ _ _

theorem unique_delivered (hs : env.Sound) (hu : UniqueNumbers T) (x b d : ℚ) :
    UniqueNumbers (delivered db env pass t x b d T) := by
  apply hu.of_identities
  rw [delivered_sound hs,identities_book,identities_book]

theorem fires_self (hc : t.CreditOrDebit) (hself : t.transactionFrom = t.transactionTo) :
    Fires t t.transactionFrom := by
  rcases hc with hk | hk
  · exact .inl ⟨hk,rfl⟩
  · exact .inr ⟨hk,hself.symm⟩

theorem Side.sameMoney {now now' : Millis} {status : ℤ} {v : ℚ} {a a' side side' : BankAccount L}
    (h : Side now status v a side) (h' : Side now' status v a' side') (ha : SameMoney a a') :
    SameMoney side side' :=
  ⟨h'.balance.trans h.balance.symm,h'.number.trans (ha.number.trans h.number.symm),
    h'.currency.trans (ha.currency.trans h.currency.symm)⟩

/-- The blocks that fire: both deliver, or both throw and write nothing. -/
theorem fire_alike (hs : env.Sound) (hs' : env'.Sound) (ho : SameOrder t t') (hc : t.CreditOrDebit)
    (hc' : t'.CreditOrDebit) (hT : Alike T T') (hu : UniqueNumbers T) (v v' : BankAccount L) :
    (∃ f g f' g' T₁ T₁', (fire env t pass v).run (serve db) T = (.ok (f,g),T₁) ∧
      (fire env' t' pass' v').run (serve db) T' = (.ok (f',g'),T₁') ∧
      SameMoney f f' ∧ SameMoney g g' ∧ Alike T₁ T₁' ∧ UniqueNumbers T₁) ∨
    ∃ e e', (fire env t pass v).run (serve db) T = (.error e,T) ∧
      (fire env' t' pass' v').run (serve db) T' = (.error e',T') := by
  have hu' : UniqueNumbers T' := hu.of_identities hT.identities.symm
  by_cases hcov : ∃ x b d a c, Covers env pass t T x b d a c
  · obtain ⟨x,b,d,a,c,hcov⟩ := hcov
    obtain ⟨a',c',hcov',ha,hcc⟩ : ∃ a' c', Covers env' pass' t' T' x b d a' c' ∧
      SameMoney a a' ∧ SameMoney c c' := hT.covers hu hs' ho hcov
    obtain ⟨f,g,hf,hg,hrun⟩ := fire_delivers db hc v hcov (hs.bothReturn pass)
    obtain ⟨f',g',hf',hg',hrun'⟩ := fire_delivers db hc' v' hcov' (hs'.bothReturn pass')
    exact .inl ⟨f,g,f',g',_,_,hrun,hrun',hf.sameMoney hf' ha,hg.sameMoney hg' hcc,
      hT.delivered db hs hs' ho x b d,unique_delivered db hs hu x b d⟩
  · have hcov' : ¬ ∃ x b d a c, Covers env' pass' t' T' x b d a c := by
      rintro ⟨x,b,d,a,c,hcov'⟩
      obtain ⟨a',c',hback,-⟩ : ∃ a' c', Covers env pass t T x b d a' c' ∧
        SameMoney a a' ∧ SameMoney c c' := hT.symm.covers hu' hs ho.symm hcov'
      exact hcov ⟨x,b,d,a',c',hback⟩
    obtain ⟨e,he⟩ := fire_uncovered db hc v hcov
    obtain ⟨e',he'⟩ := fire_uncovered db hc' v' hcov'
    exact .inr ⟨e,e',he,he'⟩

theorem loop_alike (hs : env.Sound) (hs' : env'.Sound) (ho : SameOrder t t') (hc : t.CreditOrDebit)
    (hc' : t'.CreditOrDebit) (hself : t.transactionFrom = t.transactionTo)
    {collection : List (BankAccount L)} : ∀ collection' : List (BankAccount L),
    (∀ z ∈ collection, z.accountNumber = t.transactionFrom) →
    (∀ z ∈ collection', z.accountNumber = t.transactionFrom) →
    collection.length = collection'.length → ∀ pass pass' bf bt bf' bt' T T',
      SameMoney bf bf' → SameMoney bt bt' → Alike T T' → UniqueNumbers T →
      SameEnd ((transactLoop env t pass collection bf bt).run (serve db) T)
        ((transactLoop env' t' pass' collection' bf' bt').run (serve db) T') := by
  induction collection with
  | nil =>
    intro collection' _ _ hlen pass pass' bf bt bf' bt' T T' _ _ hT _
    obtain rfl := List.eq_nil_of_length_eq_zero hlen.symm
    exact ⟨rfl,hT⟩
  | cons z rest ih =>
    intro collection' hz hz' hlen pass pass' bf bt bf' bt' T T' hbf hbt hT hu
    obtain _ | ⟨z',rest'⟩ := collection'
    · simp at hlen
    have hzn : z.accountNumber = t.transactionFrom := hz z (by simp)
    have hzn' : z'.accountNumber = t.transactionFrom := hz' z' (by simp)
    have hu' : UniqueNumbers T' := hu.of_identities hT.identities.symm
    have hfires' : Fires t' t.transactionFrom := by
      have hself' : t'.transactionFrom = t'.transactionTo := by
        rw [ho.transactionFrom,ho.transactionTo,hself]
      have hf := fires_self hc' hself'
      rwa [ho.transactionFrom] at hf
    by_cases hr : ∃ v : BankAccount L, Reads (env.occasion (.loop pass)) t.transactionFrom T v
    · obtain ⟨v,hv⟩ := hr
      obtain ⟨v',hv',-⟩ := hT.reads hu hv (hs' (.loop pass'))
      rw [pass_reads db hzn hv,pass_reads db hzn' hv']
      by_cases hg : currencyGuard bf bt t = .ok ()
      · have hg' := ho.guard hbf hbt hg
        rw [visit_fires hg hv.complete (by rw [hv.number.1]; exact fires_self hc hself),
          visit_fires hg' hv'.complete (by rw [hv'.number.1]; exact hfires')]
        rcases fire_alike db hs hs' ho hc hc' hT hu v v'
          with ⟨f,g,f',g',T₁,T₁',hrun,hrun',hf,hg,hT₁,hu₁⟩ | ⟨e,e',he,he'⟩
        · rw [Program.run_cont_ok (serve db) hrun,Program.run_cont_ok (serve db) hrun']
          exact ih rest' (fun y hy => hz y (by simp [hy])) (fun y hy => hz' y (by simp [hy]))
            (by simpa using hlen) _ _ _ _ _ _ _ _ hf hg hT₁ hu₁
        · rw [Program.run_cont_error (serve db) he,Program.run_cont_error (serve db) he']
          exact ⟨rfl,hT⟩
      · have hg' : ¬ currencyGuard bf' bt' t' = .ok () := fun hg' =>
          hg (ho.symm.guard hbf.symm hbt.symm hg')
        obtain ⟨e,he⟩ := not_ok_guard hg
        obtain ⟨e',he'⟩ := not_ok_guard hg'
        rw [visit_guard he,visit_guard he']
        exact ⟨rfl,hT⟩
    · have hr' : ¬ ∃ v : BankAccount L, Reads (env'.occasion (.loop pass')) z'.accountNumber T' v := by
        rw [hzn']
        rintro ⟨v',hv'⟩
        obtain ⟨v,hv,-⟩ := hT.symm.reads hu' hv' (hs (.loop pass))
        exact hr ⟨v,hv⟩
      obtain ⟨e,he⟩ : ∃ e, (transactLoop env t pass (z :: rest) bf bt).run (serve db) T = (.error e,T) :=
        pass_unread db hc (by rwa [hzn])
      obtain ⟨e',he'⟩ : ∃ e, (transactLoop env' t' pass' (z' :: rest') bf' bt').run (serve db) T' =
        (.error e,T') := pass_unread db hc' hr'
      rw [he,he']
      exact ⟨rfl,hT⟩

end Block

section Call

variable (db : Database) {env env' : Env} {t t' : BankTransaction L} {T : Table}

/-- The transfer functor came back from `transactInAccounts`. -/
def Transacted (env : Env) (t : BankTransaction L) (T : Table) : Prop :=
  ∃ result T₁, (FunctorBiConsumeService4Accounts.consume env t).run (serve db) T =
    (.ok (some result),T₁)

theorem Admits.alike (hu : UniqueNumbers T) (hs' : env'.Sound)
    (hcl : env'.cleared .accountsLock = env.cleared .accountsLock) (ho : SameOrder t t')
    {x y : BankAccount L} (h : Admits env t T x y) :
    ∃ x' y', Admits env' t' T x' y' ∧ SameMoney x x' ∧ SameMoney y y' := by
  have hT : Alike T T := rfl
  obtain ⟨x',hx',hxx⟩ := hT.reads hu h.readsFrom (hs' .lookupFrom)
  obtain ⟨y',hy',hyy⟩ := hT.reads hu h.readsTo (hs' .lookupTo)
  refine ⟨x',y',⟨hcl.trans h.lock,?_,?_,?_,?_⟩,hxx,hyy⟩
  · rwa [ho.transactionFrom]
  · rwa [ho.transactionTo]
  · rw [hxx.number]
    exact h.notBlankFrom
  · rw [hyy.number]
    exact h.notBlankTo

theorem Accepted.other (hcl : env'.cleared .accountsLock = env.cleared .accountsLock)
    (ho : SameOrder t t') {r s : Row} {x b d : ℚ} (h : Accepted env t T r s x b d) :
    Accepted env' t' T r s x b d where
  lock := hcl.trans h.lock
  rowFrom := by rw [ho.transactionFrom]; exact h.rowFrom
  rowTo := by rw [ho.transactionTo]; exact h.rowTo
  acceptableFrom := h.acceptableFrom
  acceptableTo := h.acceptableTo
  notBlankFrom := h.notBlankFrom
  notBlankTo := h.notBlankTo
  currency := by rw [ho.currency]; exact h.currency
  amount := ho.amount.trans h.amount
  balanceFrom := h.balanceFrom
  balanceTo := h.balanceTo
  enough := h.enough

theorem consume_agree_between (hu : UniqueNumbers T) (hs : env.Sound) (hs' : env'.Sound)
    (hcl : env'.cleared .accountsLock = env.cleared .accountsLock) (ho : SameOrder t t')
    (hc : t.CreditOrDebit) (hc' : t'.CreditOrDebit) (hne : t.transactionFrom ≠ t.transactionTo) :
    (Transacted db env t T ↔ Transacted db env' t' T) ∧
      Alike ((FunctorBiConsumeService4Accounts.consume env t).run (serve db) T).2
        ((FunctorBiConsumeService4Accounts.consume env' t').run (serve db) T).2 := by
  have hne' : t'.transactionFrom ≠ t'.transactionTo := by
    rw [ho.transactionFrom,ho.transactionTo]
    exact hne
  by_cases hacc : ∃ r s x b d, Accepted env t T r s x b d
  · obtain ⟨r,s,x,b,d,hacc⟩ := hacc
    obtain ⟨result,hrun⟩ := consume_accepted db hs hc hne hacc
    obtain ⟨result',hrun'⟩ := consume_accepted db hs' hc' hne' (hacc.other hcl ho)
    rw [Transacted,Transacted,hrun,hrun']
    have hT : Alike T T := rfl
    exact ⟨⟨fun _ => ⟨_,_,rfl⟩,fun _ => ⟨_,_,rfl⟩⟩,hT.delivered db hs hs' ho x b d⟩
  · have hacc' : ¬ ∃ r s x b d, Accepted env' t' T r s x b d := by
      rintro ⟨r,s,x,b,d,hacc'⟩
      exact hacc ⟨r,s,x,b,d,hacc'.other hcl.symm ho.symm⟩
    obtain ⟨out,hrun,hno⟩ := consume_unaccepted db hu hc hne hacc
    obtain ⟨out',hrun',hno'⟩ := consume_unaccepted db hu hc' hne' hacc'
    rw [Transacted,Transacted,hrun,hrun']
    refine ⟨⟨?_,?_⟩,rfl⟩
    · rintro ⟨result,T₁,he⟩
      exact absurd (congrArg Prod.fst he) (hno result)
    · rintro ⟨result,T₁,he⟩
      exact absurd (congrArg Prod.fst he) (hno' result)

theorem consume_agree_self (hu : UniqueNumbers T) (hs : env.Sound) (hs' : env'.Sound)
    (hcl : env'.cleared .accountsLock = env.cleared .accountsLock) (ho : SameOrder t t')
    (hc : t.CreditOrDebit) (hc' : t'.CreditOrDebit) (hself : t.transactionFrom = t.transactionTo) :
    (Transacted db env t T ↔ Transacted db env' t' T) ∧
      Alike ((FunctorBiConsumeService4Accounts.consume env t).run (serve db) T).2
        ((FunctorBiConsumeService4Accounts.consume env' t').run (serve db) T).2 := by
  by_cases hadm : ∃ x y, Admits env t T x y
  · obtain ⟨x,y,hadm⟩ := hadm
    obtain ⟨x',y',hadm',hxx,hyy⟩ := hadm.alike hu hs' hcl ho
    have hx := hadm.readsFrom.number.1
    have hy := hadm.readsTo.number.1.trans hself.symm
    have hxy : ∀ z ∈ [x,y], z.accountNumber = t.transactionFrom := by simp [hx,hy]
    have hxy' : ∀ z ∈ [x',y'], z.accountNumber = t.transactionFrom := by
      simp [hxx.number,hyy.number,hx,hy]
    obtain ⟨hok,htab⟩ := loop_alike db hs hs' ho hc hc' hself [x',y'] hxy hxy' rfl 0 0 x y x' y' T T
      hxx hyy rfl hu
    rw [Transacted,Transacted,consume_admitted db hadm,consume_admitted db hadm']
    simp only [transactInAccounts,Program.run_cont]
    cases hrun : (transactLoop env t 0 [x,y] x y).run (serve db) T with
    | mk r T₁ =>
      cases hrun' : (transactLoop env' t' 0 [x',y'] x' y').run (serve db) T with
      | mk r' T₂ =>
        rw [hrun,hrun'] at hok htab
        cases r <;> cases r' <;> simp_all [Except.isOk,Except.toBool]
  · have hadm' : ¬ ∃ x y, Admits env' t' T x y := by
      rintro ⟨x,y,hadm'⟩
      obtain ⟨x',y',h,-⟩ := hadm'.alike hu hs hcl.symm ho.symm
      exact hadm ⟨x',y',h⟩
    obtain ⟨out,hrun,hno⟩ := consume_refused db hadm
    obtain ⟨out',hrun',hno'⟩ := consume_refused db hadm'
    rw [Transacted,Transacted,hrun,hrun']
    refine ⟨⟨?_,?_⟩,rfl⟩
    · rintro ⟨result,T₁,he⟩
      exact absurd (congrArg Prod.fst he) (hno result)
    · rintro ⟨result,T₁,he⟩
      exact absurd (congrArg Prod.fst he) (hno' result)

theorem closed_alike {T' : Table} (hs : env.Sound) (hs' : env'.Sound)
    (hcl : env'.cleared = env.cleared) (ho : SameOrder t t') (h : Alike T T') :
    Alike (closed env t T) (closed env' t' T') := by
  simp only [closed,Env.Closes,hcl,Occasion.commits_none (hs _),Occasion.commits_none (hs' _),
    ho.transactionFrom,ho.transactionTo]
  split_ifs
  · exact h.close _ _ _ _
  · exact h

/-- The credit and the debit of one order succeed together, and leave the same balances
and statuses. -/
theorem credit_debit_agree (hu : UniqueNumbers T) (hs : env.Sound) (hs' : env'.Sound)
    (hcl : env'.cleared = env.cleared) (t : BankTransaction L) :
    (Transacted db env t.setCreditTransaction T ↔ Transacted db env' t.setDebitTransaction T) ∧
      Alike (process db env t.setCreditTransaction T).2 (process db env' t.setDebitTransaction T).2 := by
  have ho : SameOrder t.setCreditTransaction t.setDebitTransaction := ⟨rfl,rfl,rfl,rfl⟩
  have hc : t.setCreditTransaction.CreditOrDebit := .inl rfl
  have hc' : t.setDebitTransaction.CreditOrDebit := .inr rfl
  have hlock : env'.cleared .accountsLock = env.cleared .accountsLock := congrFun hcl _
  have hagree : (Transacted db env t.setCreditTransaction T ↔
      Transacted db env' t.setDebitTransaction T) ∧
      Alike ((FunctorBiConsumeService4Accounts.consume env t.setCreditTransaction).run (serve db) T).2
        ((FunctorBiConsumeService4Accounts.consume env' t.setDebitTransaction).run (serve db) T).2 := by
    by_cases hself : t.setCreditTransaction.transactionFrom = t.setCreditTransaction.transactionTo
    · exact consume_agree_self db hu hs hs' hlock ho hc hc' hself
    · exact consume_agree_between db hu hs hs' hlock ho hc hc' hself
  refine ⟨hagree.1,?_⟩
  obtain ⟨out,hrun⟩ := process_run db env hc T
  obtain ⟨out',hrun'⟩ := process_run db env' hc' T
  rw [hrun,hrun']
  apply closed_alike hs hs' hcl ho
  simp only [transferred,hcl]
  split_ifs
  · exact hagree.2
  · rfl

end Call

open Sample in
theorem credit_debit_agree_sample :
    (Transacted database (env 100 fun _ => none)
        (transfer 1 30000 iban₁ iban₂).setCreditTransaction twoRows ↔
      Transacted database (env 200 fun _ => none)
        (transfer 1 30000 iban₁ iban₂).setDebitTransaction twoRows) ∧
    Alike (process database (env 100 fun _ => none)
        (transfer 1 30000 iban₁ iban₂).setCreditTransaction twoRows).2
      (process database (env 200 fun _ => none)
        (transfer 1 30000 iban₁ iban₂).setDebitTransaction twoRows).2 :=
  credit_debit_agree database (by decide +kernel) (env_sound 100) (env_sound 200) rfl _

end HomeRest
