import HomeRest.Reordering
import HomeRest.TransactionListing

/-! `TransactionServiceImpl4Test`: to read the transactions is to process them.
Every element of a listing goes through the transfer functor, and nothing records that a
transaction has been there before. -/
namespace HomeRest

open AtomicProgram

variable {L : Libs}

namespace TransactionServiceImpl4Test

/-- `ConcurrencyAccess.run()` of the test service. Its `AccountServiceImpl4Test` looks
accounts up as `AccountServiceImpl` does, and routes `transactInAccounts` to it. -/
def ConcurrencyAccess.run (env : Env) (t : BankTransaction L) : Code L Unit :=
  Program.handle (do
    Program.ofExcept ((t.toStringCopy (env.occasion .lookupFrom).now).map fun _ => ())
    lockGet env .wrapperLock
    Program.ofExcept ((t.toStringCopy (env.occasion .lookupFrom).now).map fun _ => ())
    Program.handle (do
      let _ ← FunctorBiConsumeService4Accounts.accept env t
      return ())
      fun _ => .ret ())
    fun _ => .ret ()

/-- The returned `new Throwable()` says nothing and is dropped by the only caller. -/
def processTransaction (env : Env) (t : BankTransaction L) : Code L Unit :=
  ConcurrencyAccess.run env t

end TransactionServiceImpl4Test

abbrev Visit (L : Libs) := Env × BankTransaction L

/-- What one call of the listing meets, and each element that it processes. -/
structure Reading where
  listing : Listing
  env : ℕ → Env

def Reading.visits (o : Reading) (S : TransactionTable) (T : Table) : List (Visit L) :=
  match o.listing.list S T with
  | .ok list => list.zipIdx.map fun element => (o.env element.2,element.1)
  | .error _ => []

def visited (db : Database) (visit : Visit L) (T : Table) : Table :=
  ((TransactionServiceImpl4Test.processTransaction visit.1 visit.2).run (serve db) T).2

def visitAll (db : Database) (visits : List (Visit L)) (T : Table) : Table :=
  visits.foldl (fun T visit => visited db visit T) T

/-- `TransactionServiceImpl4Test.getAllTransactions`. -/
def TransactionServiceImpl4Test.getAllTransactions (db : Database) (o : Reading)
    (S : TransactionTable) (T : Table) :
    Except Throwable (Option (List (BankTransaction L))) × Table :=
  match o.listing.list S T with
  | .error _ => (o.listing.recover none,T)
  | .ok list =>
    let T' := visitAll db (list.zipIdx.map fun element => (o.env element.2,element.1)) T
    match o.listing.commitFault with
    | some _ => (o.listing.recover (some list),T')
    | none => (.ok (some list),T')

section Calls

variable (db : Database) (S : TransactionTable)

def allVisits : List Reading → Table → List (Visit L)
  | [], _ => []
  | o :: readings, T => o.visits S T ++ allVisits readings (visitAll db (o.visits S T : List (Visit L)) T)

def readAll (L : Libs) (readings : List Reading) (T : Table) : Table :=
  readings.foldl (fun T o =>
    (TransactionServiceImpl4Test.getAllTransactions (L := L) db o S T).2) T

def Made (visit : Visit L) (T : Table) : Prop :=
  visit.1.cleared .wrapperLock = false ∧ Transacted db visit.1 visit.2 T

instance (visit : Visit L) (T : Table) : Decidable (Made db visit T) :=
  inferInstanceAs (Decidable (_ ∧ _))

def completions : List (Visit L) → Table → List (Option UUID)
  | [], _ => []
  | visit :: visits, T =>
    if Made db visit T then visit.2.id :: completions visits (visited db visit T)
    else completions visits (visited db visit T)

/-- The element is turned away: a lock is gone, or the from account holds too little. -/
def Blocked (visit : Visit L) (T : Table) : Prop :=
  visit.1.cleared .wrapperLock = true ∨ visit.1.cleared .accountsLock = true ∨
    visit.2.CreditOrDebit ∧ ∃ b x, held T visit.2.transactionFrom = some b ∧
      visit.2.transactionAmount = some x ∧ b < x

/-- Nothing turns the element away: its accounts fit, and cover the amount if it moves money. -/
def GetsThrough (visit : Visit L) (T : Table) : Prop :=
  Admissible visit.1 visit.2 T ∧
    (visit.2.CreditOrDebit → ∃ b x, held T visit.2.transactionFrom = some b ∧
      visit.2.transactionAmount = some x ∧ x ≤ b)

/-- Whenever a transaction comes again after it got through, it is turned away. -/
def TurnedAway : (Option UUID → Prop) → List (Visit L) → Table → Prop
  | _, [], _ => True
  | through, visit :: visits, T => (through visit.2.id → Blocked visit T) ∧
      TurnedAway (fun i => i = visit.2.id ∧ GetsThrough visit T ∨ through i) visits
        (visited db visit T)

theorem visitAll_append (xs ys : List (Visit L)) (T : Table) :
    visitAll db (xs ++ ys) T = visitAll db ys (visitAll db xs T) := List.foldl_append

theorem getAllTransactions_table (o : Reading) (T : Table) :
    (TransactionServiceImpl4Test.getAllTransactions (L := L) db o S T).2 =
      visitAll db (o.visits S T : List (Visit L)) T := by
  unfold TransactionServiceImpl4Test.getAllTransactions Reading.visits
  cases o.listing.list (L := L) S T with
  | error e => rfl
  | ok list => cases o.listing.commitFault <;> rfl

theorem readAll_eq (readings : List Reading) (T : Table) :
    readAll db S L readings T = visitAll db (allVisits db S readings T : List (Visit L)) T := by
  induction readings generalizing T with
  | nil => rfl
  | cons o readings ih =>
    rw [allVisits,visitAll_append,← ih]
    simp only [readAll,List.foldl_cons,getAllTransactions_table]

end Calls

section Visit

variable {db : Database} {visit : Visit L} {T : Table}

theorem visited_eq : visited db visit T = transferred db visit.1 visit.2 T := by
  obtain ⟨copy,hcopy⟩ := visit.2.toStringCopy_ok (visit.1.occasion .lookupFrom).now
  obtain ⟨r,hr⟩ := accounts_accept_run db visit.1 visit.2 T
  by_cases hl : visit.1.cleared .wrapperLock = true
  · simp [visited,TransactionServiceImpl4Test.processTransaction,
      TransactionServiceImpl4Test.ConcurrencyAccess.run,Program.handle,hcopy,Except.map,lockGet,hl,
      transferred]
  · cases r <;> simp [visited,TransactionServiceImpl4Test.processTransaction,
      TransactionServiceImpl4Test.ConcurrencyAccess.run,Program.handle,hcopy,Except.map,lockGet,hl,
      transferred,Program.run_cont,hr]

end Visit

structure Listed (t : BankTransaction L) : Prop where
  different : t.transactionFrom ≠ t.transactionTo
  amount : ∃ x, t.transactionAmount = some x
  type : ∃ k, t.transactionType = some k

/-! ### Types that are neither credit nor debit: the passes go by -/

section Other

variable {db : Database} {env : Env} {t : BankTransaction L} {T : Table} {x y : BankAccount L}

theorem chooseBranch_other (hl : Listed t) (hc : ¬ t.CreditOrDebit) {n m : String}
    (hn : t.transactionFrom = some n) (hm : t.transactionTo = some m) (account : BankAccount L) :
    chooseBranch t account = .ok .skip := by
  obtain ⟨k,hk⟩ := hl.type
  have hcredit : k ≠ 1 := fun h => hc (.inl (by rw [hk,h]))
  have hdebit : k ≠ -1 := fun h => hc (.inr (by rw [hk,h]))
  have hnm : n ≠ m := fun h => hl.different (by rw [hn,hm,h])
  simp [chooseBranch,BankTransaction.isCredit,BankTransaction.isDebit,hk,hcredit,hdebit,hn,hm,hnm,
    contentEquals,bind,Except.bind,pure,Except.pure]

theorem transact_other (hs : env.Sound) (hl : Listed t) (hc : ¬ t.CreditOrDebit)
    (h : Admits env t T x y) :
    (transactInAccounts env t [x,y]).run (serve db) T =
      ((currencyGuard x y t).map fun _ => [x,y],T) := by
  obtain ⟨hx,n,hn⟩ := h.readsFrom.number
  obtain ⟨hy,m,hm⟩ := h.readsTo.number
  obtain ⟨a,ha⟩ := h.readsFrom.readable.reads (hs (.loop 0))
  obtain ⟨c,hcr⟩ := h.readsTo.readable.reads (hs (.loop 1))
  have hfirst : (transactInAccounts env t [x,y]).run (serve db) T =
      (visit env t 0 [y] x y a).run (serve db) T := pass_reads db hx ha
  rw [hfirst]
  cases hg : currencyGuard x y t with
  | error e =>
    rw [visit_guard hg]
    rfl
  | ok u =>
    have hpass : ∀ pass rest account, visit env t pass rest x y account =
        transactLoop env t (pass+1) rest x y := by
      intro pass rest account
      simp [visit,hg,chooseBranch_other hl hc hn hm]
    rw [hpass,pass_reads db hy hcr,hpass]
    rfl

theorem consume_other (hs : env.Sound) (hl : Listed t) (hc : ¬ t.CreditOrDebit) :
    ((FunctorBiConsumeService4Accounts.consume env t).run (serve db) T).2 = T ∧
      (Transacted db env t T ↔ ∃ x y, Admits env t T x y ∧ currencyGuard x y t = .ok ()) := by
  by_cases hadm : ∃ x y, Admits env t T x y
  · obtain ⟨x,y,hadm⟩ := hadm
    have hunique : ∀ x' y', Admits env t T x' y' → x' = x ∧ y' = y := by
      intro x' y' h'
      exact ⟨by simpa using h'.readsFrom.2.symm.trans hadm.readsFrom.2,
        by simpa using h'.readsTo.2.symm.trans hadm.readsTo.2⟩
    rw [Transacted,consume_admitted db hadm,Program.run_cont,transact_other hs hl hc hadm]
    cases hg : currencyGuard x y t with
    | error e =>
      refine ⟨rfl,iff_of_false (by simp [Except.map]) ?_⟩
      rintro ⟨x',y',h',hg'⟩
      obtain ⟨rfl,rfl⟩ := hunique x' y' h'
      cases hg.symm.trans hg'
    | ok u => exact ⟨rfl,iff_of_true ⟨_,_,rfl⟩ ⟨x,y,hadm,hg⟩⟩
  · obtain ⟨r,hr,hno⟩ := consume_refused db hadm
    rw [Transacted,hr]
    refine ⟨rfl,iff_of_false ?_ ?_⟩
    · rintro ⟨result,T₁,he⟩
      exact hno result (congrArg Prod.fst he)
    · rintro ⟨x,y,h,-⟩
      exact hadm ⟨x,y,h⟩

end Other

section Made

variable {db : Database} {visit : Visit L} {T : Table}

theorem made_iff (hu : UniqueNumbers T) (hs : visit.1.Sound) (hl : Listed visit.2) :
    Made db visit T ↔ GetsThrough visit T := by
  obtain ⟨env,t⟩ := visit
  by_cases hc : t.CreditOrDebit
  · have ho : Ordinary env t := ⟨hs,hc,hl.different⟩
    constructor
    · rintro ⟨hw,htr⟩
      obtain ⟨r,s,x,b,d,hacc⟩ := htr.accepted hu ho
      exact ⟨hacc.admissible hw,fun _ => ⟨b,x,(held_single hacc.rowFrom).trans hacc.balanceFrom,
        hacc.amount,hacc.enough⟩⟩
    · rintro ⟨hadm,hcov⟩
      obtain ⟨b,x,hb,hx,hxb⟩ := hcov hc
      obtain ⟨r,s,d,hacc⟩ := hadm.accepted hx hb hxb
      obtain ⟨result,hrun⟩ := consume_accepted db hs hc hl.different hacc
      exact ⟨hadm.wrapper,result,_,hrun⟩
  · constructor
    · rintro ⟨hw,htr⟩
      obtain ⟨x,y,hadm,hg⟩ := (consume_other hs hl hc).2.mp htr
      obtain ⟨u,hx,hy,ht⟩ := currencyGuard_ok.mp hg
      exact ⟨⟨hw,hadm.lock,fits_of_reads hu hadm.readsFrom hadm.notBlankFrom (hx.trans ht.symm),
        fits_of_reads hu hadm.readsTo hadm.notBlankTo (hy.trans ht.symm),hl.amount⟩,
        fun h => absurd h hc⟩
    · rintro ⟨hadm,-⟩
      obtain ⟨x,hx⟩ := hadm.fitsFrom.reads (hs .lookupFrom)
      obtain ⟨y,hy⟩ := hadm.fitsTo.reads (hs .lookupTo)
      obtain ⟨-,hxc,hxn⟩ := hadm.fitsFrom.read hx
      obtain ⟨-,hyc,hyn⟩ := hadm.fitsTo.read hy
      obtain ⟨u,hu'⟩ := hadm.fitsFrom.currency
      exact ⟨hadm.wrapper,(consume_other hs hl hc).2.mpr ⟨x,y,⟨hadm.lock,hx,hy,hxn,hyn⟩,
        currencyGuard_ok.mpr ⟨u,hxc.trans hu',hyc.trans hu',hu'⟩⟩⟩

theorem akin_visited (hu : UniqueNumbers T) (hs : visit.1.Sound) (hl : Listed visit.2) :
    Akin L T (visited db visit T) := by
  rw [visited_eq]
  by_cases hc : visit.2.CreditOrDebit
  · exact (transferred_applies db hu ⟨hs,hc,hl.different⟩).1
  · rw [transferred,(consume_other hs hl hc).1,ite_self]
    exact Akin.refl T

theorem blocked_iff (hu : UniqueNumbers T) (hs : visit.1.Sound) (hl : Listed visit.2)
    (hfrom : Fits visit.2 visit.2.transactionFrom T) (hto : Fits visit.2 visit.2.transactionTo T) :
    Blocked visit T ↔ ¬ Made db visit T := by
  obtain ⟨b,hb⟩ := hfrom.held
  obtain ⟨x,hx⟩ := hl.amount
  have hadm : Admissible visit.1 visit.2 T ↔
      visit.1.cleared .wrapperLock = false ∧ visit.1.cleared .accountsLock = false :=
    ⟨fun h => ⟨h.wrapper,h.lock⟩,fun h => ⟨h.1,h.2,hfrom,hto,hl.amount⟩⟩
  have hless : (∃ b' x', held T visit.2.transactionFrom = some b' ∧
      visit.2.transactionAmount = some x' ∧ b' < x') ↔ b < x := by simp [hb,hx]
  have henough : (∃ b' x', held T visit.2.transactionFrom = some b' ∧
      visit.2.transactionAmount = some x' ∧ x' ≤ b') ↔ ¬ b < x := by simp [hb,hx]
  rw [made_iff hu hs hl,GetsThrough,Blocked,hadm,hless,henough]
  cases visit.1.cleared .wrapperLock <;> cases visit.1.cleared .accountsLock <;> simp

end Made

section Run

variable {db : Database} {S : TransactionTable} {T T' : Table}

def OfRow (r : TransactionRow) (t : BankTransaction L) : Prop := ∃ now, CarriesTransaction now r t

structure FromTable (S : TransactionTable) (visit : Visit L) : Prop where
  sound : visit.1.Sound
  row : ∃ r ∈ S.rows, OfRow r visit.2 ∧ r.transactionFrom ≠ r.transactionTo

theorem FromTable.listed {visit : Visit L} (h : FromTable S visit) : Listed visit.2 := by
  obtain ⟨r,-,⟨now,hr⟩,hne⟩ := h.row
  exact ⟨by rwa [hr.transactionFrom,hr.transactionTo],⟨_,hr.amount⟩,⟨_,hr.type⟩⟩

def RowFits (L : Libs) (r : TransactionRow) (T : Table) : Prop :=
  ∀ t : BankTransaction L, OfRow r t → Fits t t.transactionFrom T ∧ Fits t t.transactionTo T

theorem RowFits.akin {r : TransactionRow} (h : RowFits L r T) (hT : Akin L T T') :
    RowFits L r T' :=
  fun t ht => ⟨(h t ht).1.akin hT,(h t ht).2.akin hT⟩

theorem RowFits.of_admissible {env : Env} {t : BankTransaction L} {r : TransactionRow}
    (h : Admissible env t T) (ht : OfRow r t) : RowFits L r T := by
  obtain ⟨now,ht⟩ := ht
  rintro t' ⟨now',ht'⟩
  have hcur : t'.currencyUnit = t.currencyUnit := ht'.currency.trans ht.currency.symm
  have hf : t'.transactionFrom = t.transactionFrom := ht'.transactionFrom.trans ht.transactionFrom.symm
  have hto : t'.transactionTo = t.transactionTo := ht'.transactionTo.trans ht.transactionTo.symm
  rw [hf,hto]
  simp only [Fits,hcur]
  exact ⟨h.fitsFrom,h.fitsTo⟩

/-- What carries the induction is that what got through fits. -/
theorem turnedAway_iff (visits : List (Visit L)) :
    ∀ (through : Option UUID → Prop) (T : Table), UniqueNumbers T → (∀ visit ∈ visits, FromTable S visit) →
      (∀ r ∈ S.rows, through (some r.transactionId) → RowFits L r T) →
      (((completions db visits T).Nodup ∧ ∀ i ∈ completions db visits T, ¬ through i) ↔
        TurnedAway db through visits T) := by
  induction visits with
  | nil => simp [completions,TurnedAway]
  | cons visit visits ih =>
    intro through T hu hv hthrough
    have hfrom : FromTable S visit := hv visit (by simp)
    obtain ⟨r,hr,hrow,-⟩ := hfrom.row
    have hid : visit.2.id = some r.transactionId := hrow.choose_spec.id
    have hakin : Akin L T (visited db visit T) := akin_visited hu hfrom.sound hfrom.listed
    have hu' := hu.of_identities hakin.identities
    have hv' : ∀ visit ∈ visits, FromTable S visit := fun v hvm => hv v (by simp [hvm])
    have hmade : Made db visit T ↔ GetsThrough visit T := made_iff hu hfrom.sound hfrom.listed
    have hblocked : through visit.2.id → (Blocked visit T ↔ ¬ Made db visit T) := by
      intro hm
      obtain ⟨hff,hft⟩ := hthrough r hr (hid ▸ hm) visit.2 hrow
      exact blocked_iff hu hfrom.sound hfrom.listed hff hft
    have hfits : ∀ r' ∈ S.rows,
        (some r'.transactionId = visit.2.id ∧ GetsThrough visit T ∨ through (some r'.transactionId)) →
          RowFits L r' (visited db visit T) := by
      intro r' hr' hm
      rcases hm with ⟨he,hg⟩ | hm
      · cases S.row_eq hr' hr (Option.some.inj (he.trans hid))
        exact (RowFits.of_admissible hg.1 hrow).akin hakin
      · exact (hthrough r' hr' hm).akin hakin
    rw [TurnedAway,← ih _ _ hu' hv' hfits]
    by_cases hM : Made db visit T
    · have hg : GetsThrough visit T := hmade.mp hM
      simp only [completions,hM,ite_true,List.nodup_cons,List.forall_mem_cons,hg,and_true,not_or]
      constructor
      · rintro ⟨⟨hnot,hnodup⟩,hm,hrest⟩
        exact ⟨fun h => absurd h hm,hnodup,fun i hi => ⟨fun he => hnot (he ▸ hi),hrest i hi⟩⟩
      · rintro ⟨hb,hnodup,hrest⟩
        exact ⟨⟨fun h => (hrest _ h).1 rfl,hnodup⟩,fun hm => (hblocked hm).mp (hb hm) hM,
          fun i hi => (hrest i hi).2⟩
    · have hg : ¬ GetsThrough visit T := fun h => hM (hmade.mpr h)
      simp only [completions,hM,ite_false,hg,and_false,false_or]
      exact ⟨fun h => ⟨fun hm => (hblocked hm).mpr hM,h⟩,fun h => h.2⟩

theorem Reading.fromTable {o : Reading} (hs : ∀ i, (o.env i).Sound) :
    ∀ visit ∈ (o.visits S T : List (Visit L)), FromTable S visit := by
  intro visit hvisit
  unfold Reading.visits at hvisit
  cases hlist : o.listing.list (L := L) S T with
  | error e => simp [hlist] at hvisit
  | ok list =>
    simp only [hlist,List.mem_map] at hvisit
    obtain ⟨element,hmem,rfl⟩ := hvisit
    unfold Listing.list at hlist
    cases hq : o.listing.queryFault with
    | some e => simp [hq] at hlist
    | none =>
      simp only [hq] at hlist
      have hlisted : element.1 ∈ list := (List.mem_zipIdx' hmem).2 ▸ List.getElem_mem _
      obtain ⟨r,hr,hfilled⟩ := forall₂_mem_right (mapM_ok.mp hlist) hlisted
      have hquery : r ∈ sqlGetAccountsInTransaction S.rows T :=
        (o.listing.plan.perm _).mem_iff.mp (List.mem_of_mem_take hr)
      obtain ⟨hS,hw⟩ := mem_wanted hquery
      exact ⟨hs _,r,hS,⟨_,(hydrateTransaction_ok hfilled).2⟩,hw.1⟩

theorem akin_visitAll (visits : List (Visit L)) (hu : UniqueNumbers T)
    (hv : ∀ visit ∈ visits, FromTable S visit) : Akin L T (visitAll db visits T) := by
  induction visits generalizing T with
  | nil => exact Akin.refl T
  | cons visit visits ih =>
    have hfrom : FromTable S visit := hv visit (by simp)
    have hakin : Akin L T (visited db visit T) := akin_visited hu hfrom.sound hfrom.listed
    exact hakin.trans (ih (hu.of_identities hakin.identities) fun v hvm => hv v (by simp [hvm]))

theorem allVisits_fromTable (readings : List Reading) (hs : ∀ o ∈ readings, ∀ i, (o.env i).Sound) :
    ∀ T, UniqueNumbers T → ∀ visit ∈ (allVisits db S readings T : List (Visit L)),
      FromTable S visit := by
  induction readings with
  | nil => simp [allVisits]
  | cons o readings ih =>
    intro T hu visit hvisit
    have ho := Reading.fromTable (L := L) (S := S) (T := T) (hs o (by simp))
    rcases List.mem_append.mp hvisit with hvisit | hvisit
    · exact ho visit hvisit
    · have hakin : Akin L T (visitAll db (o.visits S T) T) := akin_visitAll _ hu ho
      exact ih (fun o' ho' => hs o' (by simp [ho'])) _ (hu.of_identities hakin.identities) visit hvisit

theorem mem_completions {visits : List (Visit L)} {i : Option UUID} (h : i ∈ completions db visits T) :
    ∃ visit ∈ visits, visit.2.id = i := by
  induction visits generalizing T with
  | nil => cases h
  | cons visit visits ih =>
    have hrest : i ∈ completions db visits (visited db visit T) →
        ∃ v ∈ visit :: visits, v.2.id = i := by
      intro hi
      obtain ⟨v,hv,hvi⟩ := ih hi
      exact ⟨v,by simp [hv],hvi⟩
    rw [completions] at h
    split_ifs at h
    · rcases List.mem_cons.mp h with rfl | h
      · exact ⟨visit,by simp,rfl⟩
      · exact hrest h
    · exact hrest h

end Run

/-- Over any calls, each transaction is made at most once exactly when, whenever a
transaction that got through comes again, it is turned away. -/
theorem getAllTransactions_atMostOnce {db : Database} (S : TransactionTable) (T : Table)
    (hu : UniqueNumbers T) (readings : List Reading) (hs : ∀ o ∈ readings, ∀ i, (o.env i).Sound) :
    (∀ r ∈ S.rows, r.transactionFrom ≠ r.transactionTo →
      (completions db (allVisits db S readings T : List (Visit L)) T).count (some r.transactionId) ≤ 1) ↔
    TurnedAway db (fun _ => False) (allVisits db S readings T : List (Visit L)) T := by
  have hv : ∀ visit ∈ (allVisits db S readings T : List (Visit L)), FromTable S visit :=
    allVisits_fromTable readings hs T hu
  rw [← turnedAway_iff _ (fun _ => False) T hu hv (by simp),List.nodup_iff_count_le_one]
  constructor
  · intro h
    refine ⟨fun i => ?_,by simp⟩
    by_cases hi : i ∈ completions db (allVisits db S readings T : List (Visit L)) T
    · obtain ⟨visit,hvisit,rfl⟩ := mem_completions hi
      obtain ⟨r,hr,⟨now,hrow⟩,hne⟩ := (hv visit hvisit).row
      rw [hrow.id]
      exact h r hr hne
    · rw [List.count_eq_zero_of_not_mem hi]
      exact Nat.zero_le 1
  · intro h r _ _
    exact h.1 (some r.transactionId)

namespace Sample

def reading : Reading := ⟨listing,fun _ => env 100 fun _ => none⟩

end Sample

open Sample in
theorem getAllTransactions_atMostOnce_sample :
    (∀ r ∈ oneTransaction.rows, r.transactionFrom ≠ r.transactionTo →
      (completions database (allVisits database oneTransaction [reading,reading] twoRows :
        List (Visit libs)) twoRows).count (some r.transactionId) ≤ 1) ↔
    TurnedAway database (fun _ => False) (allVisits database oneTransaction [reading,reading] twoRows :
      List (Visit libs)) twoRows :=
  getAllTransactions_atMostOnce oneTransaction twoRows (by decide +kernel) [reading,reading]
    fun o ho i => by
      simp only [List.mem_cons,List.not_mem_nil,or_false,or_self] at ho
      subst ho
      exact env_sound 100

open Sample in
/-- A single call makes the one transfer of 30 twice. -/
theorem getAllTransactions_paysTwice :
    UniqueNumbers twoRows ∧ (∀ i, (reading.env i).Sound) ∧
    (readAll database oneTransaction libs [reading] twoRows).map Row.currentBalance =
      [some 40,some 65] ∧
    ¬ ∀ r ∈ oneTransaction.rows, r.transactionFrom ≠ r.transactionTo →
      (completions database (allVisits database oneTransaction [reading] twoRows :
        List (Visit libs)) twoRows).count (some r.transactionId) ≤ 1 := by
  refine ⟨by decide +kernel,fun _ => env_sound 100,by decide +kernel,?_⟩
  decide +kernel

end HomeRest
