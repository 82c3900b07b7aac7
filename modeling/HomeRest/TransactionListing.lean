import HomeRest.Ledger
import HomeRest.Transactions

/-! How often a listing names a transaction.
The query joins each transaction with its accounts, so a transaction appears once for each
of its accounts that is stored. -/
namespace HomeRest

open NestedLoopJoin

variable {L : Libs}

def Stored (n : Option String) (T : Table) : Prop := ∃ aa ∈ T, sqlEq aa.accountNumber n = true

instance (n : Option String) (T : Table) : Decidable (Stored n T) :=
  inferInstanceAs (Decidable (∃ aa ∈ T, _))

/-- The accounts of the transaction differ, and one of them is stored. -/
def Wanted (r : TransactionRow) (T : Table) : Prop :=
  r.transactionFrom ≠ r.transactionTo ∧ (Stored r.transactionFrom T ∨ Stored r.transactionTo T)

instance (r : TransactionRow) (T : Table) : Decidable (Wanted r T) :=
  inferInstanceAs (Decidable (_ ∧ (_ ∨ _)))

/-- How often the query names a transaction: once for each of its accounts that is stored. -/
def appearances (r : TransactionRow) (T : Table) : ℕ :=
  if sqlNe r.transactionTo r.transactionFrom = true then
    (if Stored r.transactionFrom T then 1 else 0) + (if Stored r.transactionTo T then 1 else 0)
  else 0

theorem TransactionTable.row_eq (S : TransactionTable) {r r' : TransactionRow} (hr : r ∈ S.rows)
    (hr' : r' ∈ S.rows) (h : r.transactionId = r'.transactionId) : r = r' :=
  List.inj_on_of_nodup_map S.primaryKey hr hr' h

section Count

variable {T : Table} {n m : Option String}

theorem stored_iff : Stored n T ↔ sqlGetAccountsByNumber n T ≠ [] := by
  simp [Stored,sqlGetAccountsByNumber,List.filter_eq_nil_iff]

theorem UniqueNumbers.stored_length (hu : UniqueNumbers T) :
    (sqlGetAccountsByNumber n T).length = if Stored n T then 1 else 0 := by
  rcases hu.cases n with h | ⟨r,h⟩
  · simp [stored_iff,h]
  · simp [stored_iff,h]

theorem countP_partners {r : TransactionRow}
    (hne : sqlNe r.transactionTo r.transactionFrom = true) (T : Table) :
    T.countP (isPartner r) = (sqlGetAccountsByNumber r.transactionFrom T).length +
      (sqlGetAccountsByNumber r.transactionTo T).length := by
  obtain ⟨m,n,hm,hn,hmn⟩ := sqlNe_iff.mp hne
  induction T with
  | nil => rfl
  | cons aa T ih =>
    simp only [List.countP_cons,sqlGetAccountsByNumber,List.filter_cons,isPartner,hm,hn] at ih ⊢
    rw [ih]
    cases ha : aa.accountNumber with
    | none => simp
    | some k =>
      by_cases hkn : k = n <;> by_cases hkm : k = m
      · exact absurd (hkm.symm.trans hkn) hmn
      · simp [hkn,Ne.symm hmn]
        omega
      · simp [hkm,hmn]
        omega
      · simp [hkn,hkm]

/-- The multiplicity of a stored transaction in the query. -/
theorem count_sqlGetAccountsInTransaction (S : TransactionTable) (T : Table) {r : TransactionRow}
    (hr : r ∈ S.rows) :
    ((sqlGetAccountsInTransaction S.rows T).map TransactionRow.transactionId).count r.transactionId =
      if sqlNe r.transactionTo r.transactionFrom = true then T.countP (isPartner r) else 0 := by
  rw [sqlGetAccountsInTransaction,
    join_filter_left fun tt : TransactionRow => sqlNe tt.transactionTo tt.transactionFrom,List.map_map]
  split_ifs with hne
  · apply count_join TransactionRow.transactionId
    · exact S.primaryKey.sublist ((List.filter_sublist).map _)
    · exact List.mem_filter.mpr ⟨hr,hne⟩
  · apply count_join_absent TransactionRow.transactionId
    intro x hx he
    obtain ⟨hxS,hxne⟩ := List.mem_filter.mp hx
    cases S.row_eq hxS hr he
    exact hne hxne

theorem UniqueNumbers.count_listed (hu : UniqueNumbers T) (S : TransactionTable) {r : TransactionRow}
    (hr : r ∈ S.rows) :
    ((sqlGetAccountsInTransaction S.rows T).map TransactionRow.transactionId).count r.transactionId =
      appearances r T := by
  rw [count_sqlGetAccountsInTransaction S T hr,appearances]
  by_cases hne : sqlNe r.transactionTo r.transactionFrom = true
  · rw [if_pos hne,if_pos hne,countP_partners hne,hu.stored_length,hu.stored_length]
  · rw [if_neg hne,if_neg hne]

theorem sqlNe_of_ne {x y : Option String} (hx : x ≠ none) (hy : y ≠ none) (h : x ≠ y) :
    sqlNe y x = true := by
  obtain ⟨n,rfl⟩ := Option.ne_none_iff_exists'.mp hx
  obtain ⟨m,rfl⟩ := Option.ne_none_iff_exists'.mp hy
  exact sqlNe_iff.mpr ⟨m,n,rfl,rfl,fun he => h (by rw [he])⟩

theorem appearances_wanted {r : TransactionRow} (hw : Wanted r T) : appearances r T = 1 ↔
    r.transactionFrom ≠ none ∧ r.transactionTo ≠ none ∧
      ¬ (Stored r.transactionFrom T ∧ Stored r.transactionTo T) := by
  by_cases hset : r.transactionFrom ≠ none ∧ r.transactionTo ≠ none
  · have hstored := hw.2
    rw [appearances,if_pos (sqlNe_of_ne hset.1 hset.2 hw.1)]
    by_cases hf : Stored r.transactionFrom T <;> by_cases ht : Stored r.transactionTo T <;>
      simp_all
  · have hne : ¬ sqlNe r.transactionTo r.transactionFrom = true := by
      intro hne
      obtain ⟨m,n,hm,hn,-⟩ := sqlNe_iff.mp hne
      exact hset ⟨by simp [hn],by simp [hm]⟩
    rw [appearances,if_neg hne]
    exact iff_of_false zero_ne_one fun h => hset ⟨h.1,h.2.1⟩

theorem appearances_unwanted {r : TransactionRow} (hw : ¬ Wanted r T) : appearances r T = 0 := by
  by_cases hne : sqlNe r.transactionTo r.transactionFrom = true
  · obtain ⟨m,n,hm,hn,hmn⟩ := sqlNe_iff.mp hne
    have hdiffer : r.transactionFrom ≠ r.transactionTo := by
      simpa [hm,hn] using Ne.symm hmn
    have hf : ¬ Stored r.transactionFrom T := fun hf => hw ⟨hdiffer,.inl hf⟩
    have ht : ¬ Stored r.transactionTo T := fun ht => hw ⟨hdiffer,.inr ht⟩
    simp [appearances,hf,ht]
  · rw [appearances,if_neg hne]

theorem mem_sqlGetAccountsInTransaction {S : List TransactionRow} {r : TransactionRow} :
    r ∈ sqlGetAccountsInTransaction S T ↔ r ∈ S ∧ sqlNe r.transactionTo r.transactionFrom = true ∧
      (Stored r.transactionFrom T ∨ Stored r.transactionTo T) := by
  simp only [sqlGetAccountsInTransaction,List.mem_map,List.mem_filter,mem_join,isPartner,Stored,
    Bool.or_eq_true]
  constructor
  · rintro ⟨⟨tt,aa⟩,⟨⟨htt,haa,hon⟩,hne⟩,rfl⟩
    exact ⟨htt,hne,hon.imp (fun h => ⟨aa,haa,h⟩) fun h => ⟨aa,haa,h⟩⟩
  · rintro ⟨hr,hne,⟨aa,haa,h⟩ | ⟨aa,haa,h⟩⟩
    · exact ⟨(r,aa),⟨⟨hr,haa,.inl h⟩,hne⟩,rfl⟩
    · exact ⟨(r,aa),⟨⟨hr,haa,.inr h⟩,hne⟩,rfl⟩

theorem mem_wanted {S : List TransactionRow} {r : TransactionRow}
    (h : r ∈ sqlGetAccountsInTransaction S T) : r ∈ S ∧ Wanted r T := by
  obtain ⟨hS,hne,hstored⟩ := mem_sqlGetAccountsInTransaction.mp h
  obtain ⟨m,n,hm,hn,hmn⟩ := sqlNe_iff.mp hne
  refine ⟨hS,?_,hstored⟩
  rw [hm,hn]
  simpa using Ne.symm hmn

end Count

section List

variable {o : Listing} {S : TransactionTable} {T : Table}

/-- The listing is there, and names each wanted transaction once and no other. -/
def ListsOnce (L : Libs) (o : Listing) (S : TransactionTable) (T : Table) : Prop :=
  ∃ list : List (BankTransaction L), getAllTransactions o S T = .ok (some list) ∧
    (∀ r ∈ S.rows, (list.map BankTransaction.id).count (some r.transactionId) =
      if Wanted r T then 1 else 0) ∧
    ∀ t ∈ list, ∃ r ∈ S.rows, CarriesTransaction (o.clock r.transactionId) r t

theorem listed_rows (h50 : (sqlGetAccountsInTransaction S.rows T).length ≤ 50)
    {list : List (BankTransaction L)} :
    getAllTransactions o S T = .ok (some list) ↔ o.Works ∧
      List.Forall₂ (fun tt t => hydrateTransaction (o.clock tt.transactionId) tt = .ok t)
        (o.plan.order (sqlGetAccountsInTransaction S.rows T)) list := by
  have htake : (o.plan.order (sqlGetAccountsInTransaction S.rows T)).take 50 =
      o.plan.order (sqlGetAccountsInTransaction S.rows T) := by
    apply List.take_of_length_le
    rw [(o.plan.perm _).length_eq]
    exact h50
  rw [getAllTransactions_ok,htake,mapM_ok]

theorem listed_ids {rows : List TransactionRow} {list : List (BankTransaction L)}
    (h : List.Forall₂ (fun tt t => hydrateTransaction (o.clock tt.transactionId) tt = .ok t) rows list) :
    list.map BankTransaction.id = (rows.map TransactionRow.transactionId).map some := by
  induction h with
  | nil => rfl
  | cons ht _ ih => rw [List.map_cons,List.map_cons,List.map_cons,ih,(hydrateTransaction_ok ht).2.id]

theorem listed_count (hu : UniqueNumbers T) {list : List (BankTransaction L)}
    (h : List.Forall₂ (fun tt t => hydrateTransaction (o.clock tt.transactionId) tt = .ok t)
      (o.plan.order (sqlGetAccountsInTransaction S.rows T)) list) {r : TransactionRow}
    (hr : r ∈ S.rows) :
    (list.map BankTransaction.id).count (some r.transactionId) = appearances r T := by
  rw [listed_ids h,List.count_map_of_injective _ _ (Option.some_injective _),
    ((o.plan.perm _).map _).count_eq]
  exact hu.count_listed S hr

theorem listed_total (hrows : ∀ r ∈ S.rows, Wanted r T → r.Acceptable L) :
    ∃ list : List (BankTransaction L), List.Forall₂ (fun tt t =>
      hydrateTransaction (o.clock tt.transactionId) tt = .ok t)
        (o.plan.order (sqlGetAccountsInTransaction S.rows T)) list := by
  have hfill : ∀ tt ∈ o.plan.order (sqlGetAccountsInTransaction S.rows T),
      ∃ t : BankTransaction L, hydrateTransaction (o.clock tt.transactionId) tt = .ok t := by
    intro tt htt
    obtain ⟨hS,hw⟩ := mem_wanted ((o.plan.perm _).mem_iff.mp htt)
    exact hydrateTransaction_acceptable (hrows tt hS hw) _
  obtain ⟨list,hok⟩ := mapM_total.mpr hfill
  exact ⟨list,mapM_ok.mp hok⟩

/-- Each wanted transaction is listed once exactly when none of them has both accounts
stored or one number missing, and each of them can be filled. -/
theorem getAllTransactions_once (S : TransactionTable) (T : Table) (hu : UniqueNumbers T)
    (h50 : (sqlGetAccountsInTransaction S.rows T).length ≤ 50) :
    ListsOnce L o S T ↔ o.Works ∧ ∀ r ∈ S.rows, Wanted r T →
      r.Acceptable L ∧ r.transactionFrom ≠ none ∧ r.transactionTo ≠ none ∧
        ¬ (Stored r.transactionFrom T ∧ Stored r.transactionTo T) := by
  constructor
  · rintro ⟨list,hget,honce,-⟩
    obtain ⟨hworks,hlist⟩ := (listed_rows h50).mp hget
    refine ⟨hworks,?_⟩
    intro r hr hw
    have hone := honce r hr
    rw [listed_count hu hlist hr,if_pos hw] at hone
    obtain ⟨hfrom,hto,hboth⟩ := (appearances_wanted hw).mp hone
    have hmem : r ∈ o.plan.order (sqlGetAccountsInTransaction S.rows T) :=
      (o.plan.perm _).mem_iff.mpr
        (mem_sqlGetAccountsInTransaction.mpr ⟨hr,sqlNe_of_ne hfrom hto hw.1,hw.2⟩)
    obtain ⟨t,-,ht⟩ := forall₂_mem_right hlist.flip hmem
    exact ⟨(hydrateTransaction_ok ht).1,hfrom,hto,hboth⟩
  · rintro ⟨hworks,hrows⟩
    obtain ⟨list,hlist⟩ := listed_total (o := o) fun r hr hw => (hrows r hr hw).1
    refine ⟨list,(listed_rows h50).mpr ⟨hworks,hlist⟩,?_,?_⟩
    · intro r hr
      rw [listed_count hu hlist hr]
      by_cases hw : Wanted r T
      · rw [if_pos hw]
        exact (appearances_wanted hw).mpr (hrows r hr hw).2
      · rw [if_neg hw]
        exact appearances_unwanted hw
    · intro t ht
      obtain ⟨tt,htt,hfilled⟩ := forall₂_mem_right hlist ht
      exact ⟨tt,(mem_wanted ((o.plan.perm _).mem_iff.mp htt)).1,(hydrateTransaction_ok hfilled).2⟩

end List

namespace Sample

def transactionRow (transactionId : UUID) (type : Int8) (thousandths : ℕ)
    (transactionFrom transactionTo : String) : TransactionRow where
  transactionId := transactionId
  transactionAmount := some ((thousandths : ℚ)/1000)
  transactionType := some type
  currencyUnit := some "EUR"
  transactionStatus := some 0
  transactionFrom := some transactionFrom
  transactionTo := some transactionTo
  transactionTime := some 50

def oneTransaction : TransactionTable where
  rows := [transactionRow 7 1 30000 iban₁ iban₂]
  primaryKey := by simp

def listing : Listing where
  plan := ⟨id,fun _ => List.Perm.refl _⟩
  clock _ := 100
  queryFault := none
  commitFault := none
  rollbackFault := none

end Sample

open Sample in
theorem getAllTransactions_once_sample :
    ListsOnce libs listing oneTransaction twoRows ↔ listing.Works ∧
      ∀ r ∈ oneTransaction.rows, Wanted r twoRows →
        r.Acceptable libs ∧ r.transactionFrom ≠ none ∧ r.transactionTo ≠ none ∧
          ¬ (Stored r.transactionFrom twoRows ∧ Stored r.transactionTo twoRows) :=
  getAllTransactions_once oneTransaction twoRows (by decide +kernel) (by decide +kernel)

open Sample in
/-- With both accounts stored, the transaction is listed twice. -/
theorem getAllTransactions_twice :
    UniqueNumbers twoRows ∧ (sqlGetAccountsInTransaction oneTransaction.rows twoRows).length ≤ 50 ∧
    ¬ ListsOnce libs listing oneTransaction twoRows := by
  refine ⟨by decide +kernel,by decide +kernel,?_⟩
  rintro ⟨list,hget,honce,-⟩
  have hids : ((getAllTransactions listing oneTransaction twoRows :
      Except Throwable (Option (List (BankTransaction libs)))).map
        (Option.map (List.map BankTransaction.id))) = .ok (some [some 7,some 7]) := by decide +kernel
  rw [hget] at hids
  have hlist : list.map BankTransaction.id = [some 7,some 7] := by simpa [Except.map] using hids
  have hone := honce (transactionRow 7 1 30000 iban₁ iban₂) (by simp [oneTransaction])
  rw [hlist] at hone
  revert hone
  decide +kernel

end HomeRest
