import HomeRest.Listing
import HomeRest.Requests
import HomeRest.SelfTransfer
import HomeRest.TransactionListing

/-! The pages of `/get/accounts`, `/get/transactions` and `/get/services`.
Each handler renders what its service finds and lays it out; an exception is printed to the
log and leaves the page without a listing. A listing is the list of its JSON objects. -/
namespace HomeRest

open AtomicProgram

variable {L : Libs}

namespace AccountHandler

/-- `getAllAccounts().toString()`: one rendering after the other. -/
def rendered (L : Libs) (J : Jackson) (o : AccountListing) (render : ℕ → Millis) (T : Table) :
    Except Throwable (List (Beans.Members Json)) := do
  let accounts : List (BankAccount L) ← getAllAccounts o T
  accounts.zipIdx.mapM fun a => a.1.toString J (render a.2)

def handle (L : Libs) (J : Jackson) (o : AccountListing) (render : ℕ → Millis) (T : Table) :
    Option (List (Beans.Members Json)) :=
  (rendered L J o render T).toOption

end AccountHandler

namespace TransactionHandler

def rendered (J : Jackson) (render : ℕ → Millis) (list : List (BankTransaction L)) :
    Except Throwable (List (Beans.Members Json)) :=
  list.zipIdx.mapM fun t => t.1.toString J (render t.2)

def handle (L : Libs) (J : Jackson) (o : Listing) (render : ℕ → Millis) (S : TransactionTable) (T : Table) :
    Option (List (Beans.Members Json)) :=
  match (getAllTransactions o S T : Except Throwable (Option (List (BankTransaction L)))) with
  | .ok (some list) => (rendered J render list).toOption
  | _ => none

end TransactionHandler

namespace AccountServiceHandler

def accountNumber : String := "LT473500069985948443"

/-- A blank account, after a failed cast, has no text. -/
def handle (L : Libs) (J : Jackson) (occasion : Occasion) (render : Millis) (T : Table) :
    Option (Beans.Members Json) :=
  match (getAccountByNumber occasion (some accountNumber) T :
      Except Throwable (Option (BankAccount L))) with
  | .ok (some bankAccount) => (bankAccount.toString J render).toOption
  | _ => none

end AccountServiceHandler

section Accounts

def Row.shown (J : Jackson) (now : Millis) (r : Row) : Beans.Members Json :=
  [("id",J.uuid.write r.accountId),("balance",J.decimal.nullable r.currentBalance),
    ("status",J.integer.nullable r.accountStatus),("accountNr",J.text.nullable r.accountNumber),
    ("updateAt",.string (J.timeStamp now)),("currencyUnit",J.text.nullable r.currencyUnit)]

variable {J : Jackson} {T : Table} {now now' : Millis} {r : Row} {a : BankAccount L}

theorem Carries.toString (h : Carries now r a) (hr : r.Acceptable L) (J : Jackson) (now' : Millis) :
    a.toString J now' = .ok (r.shown J now') := by
  obtain ⟨copy,hcopy⟩ := BankAccount.toStringCopy_ok (h.complete hr) now'
  have hc := BankAccount.toStringCopy_copied hcopy
  simp [BankAccount.toString,hcopy,Except.map,Beans.write,BankAccount.getters,Row.shown,hc.id,
    hc.balance,hc.status,hc.number,hc.currency,hc.updateAt,h.id,h.balance,h.status,h.number,h.currency]

/-- The stamp by which a row that is read counts. -/
def stampOf (clock : ℕ → Millis) (aa : Row × ℕ) : Millis := aa.1.dateUpdated.getD (clock aa.2)

theorem rendered_carried {rows : List (Row × ℕ)} {accounts : List (BankAccount L)}
    (h : List.Forall₂ (fun aa a => aa.1.Acceptable L ∧ ∃ now, Carries now aa.1 a) rows accounts)
    (J : Jackson) (render : ℕ → Millis) (k : ℕ) :
    ((accounts.zipIdx k).mapM fun a => a.1.toString J (render a.2)) =
      .ok ((rows.zipIdx k).map fun aa => aa.1.1.shown J (render aa.2)) := by
  induction h generalizing k with
  | nil => rfl
  | cons hr _ ih =>
    obtain ⟨hacc,now,hc⟩ := hr
    simp only [List.zipIdx_cons,List.mapM_cons,List.map_cons,hc.toString hacc,ih (k+1),bind,Except.bind,
      pure,Except.pure]

/-- The page shows one row for each stamp, in the order of the stamps, with the time of the
rendering in place of its own. -/
structure ShowsStamps (J : Jackson) (clock render : ℕ → Millis) (T : Table)
    (page : List (Beans.Members Json)) (rows : List (Row × ℕ)) : Prop where
  stored : ∀ aa ∈ rows, aa ∈ T.zipIdx
  sorted : (rows.map (stampOf clock)).Pairwise (· < ·)
  complete : ∀ aa ∈ T.zipIdx, stampOf clock aa ∈ rows.map (stampOf clock)
  shown : page = rows.zipIdx.map fun aa => aa.1.1.shown J (render aa.2)

def AccountListing.Reads (L : Libs) (o : AccountListing) (T : Table) : Prop :=
  o.openFault = none ∧ o.beginFault = none ∧ o.queryFault = none ∧ ∀ r ∈ T, r.Acceptable L

/-- An exception leaves `getAllAccounts`: there is no session to close, or a rollback throws. -/
def AccountListing.Throws (L : Libs) (o : AccountListing) (T : Table) : Prop :=
  o.openFault ≠ none ∨
    o.beginFault = none ∧ o.rollbackFault ≠ none ∧ (o.commitFault ≠ none ∨ ¬ o.Reads L T)

theorem AccountListing.list_ok {o : AccountListing} :
    (∃ list : List (BankAccount L), o.list T = .ok list) ↔
      o.queryFault = none ∧ ∀ r ∈ T, r.Acceptable L := by
  cases hquery : o.queryFault with
  | some e => simp [AccountListing.list,hquery]
  | none =>
    have hrows : (∀ r ∈ T, r.Acceptable L) ↔ ∀ aa ∈ T.zipIdx, aa.1.Acceptable L := by
      conv_lhs => rw [← List.zipIdx_map_fst 0 T]
      exact List.forall_mem_map
    simp only [AccountListing.list,hquery,true_and,mapM_total,hrows]
    apply forall₂_congr
    intro aa _
    constructor
    · rintro ⟨_,ha⟩
      exact (hydrate_ok ha).1
    · exact fun hacc => hydrate_acceptable hacc _

theorem getAllAccounts_cases (o : AccountListing) (T : Table) :
    (o.Throws L T ∧ ∃ e, (getAllAccounts o T : Except Throwable (List (BankAccount L))) = .error e) ∨
    ¬ o.Throws L T ∧ (o.Works ∧ o.Reads L T ∨
      ¬ o.Reads L T ∧ (getAllAccounts o T : Except Throwable (List (BankAccount L))) = .ok []) := by
  cases hopen : o.openFault with
  | some e => exact .inl ⟨.inl (by simp [hopen]),.nullPointer,by simp only [getAllAccounts,hopen]⟩
  | none =>
    cases hbegin : o.beginFault with
    | some e =>
      right
      simp [AccountListing.Throws,AccountListing.Reads,getAllAccounts,hopen,hbegin]
    | none =>
      have hreads : o.Reads L T ↔ ∃ list : List (BankAccount L), o.list T = .ok list := by
        rw [AccountListing.list_ok,AccountListing.Reads,hopen,hbegin]
        simp
      cases hlist : (o.list T : Except Throwable (List (BankAccount L))) with
      | error e =>
        have hnot : ¬ o.Reads L T := by simp [hreads,hlist]
        cases hrollback : o.rollbackFault <;>
          simp [AccountListing.Throws,AccountListing.recover,getAllAccounts,hopen,hbegin,hlist,hnot,
            hrollback]
      | ok list =>
        have hyes : o.Reads L T := hreads.mpr ⟨list,hlist⟩
        cases hcommit : o.commitFault <;> cases hrollback : o.rollbackFault <;>
          simp [AccountListing.Throws,AccountListing.Works,AccountListing.recover,getAllAccounts,
            hopen,hbegin,hlist,hyes,hyes.2.2.1,hcommit,hrollback]

theorem accountsPage_shows (J : Jackson) {o : AccountListing} (ho : o.Works) (render : ℕ → Millis)
    (h : ∀ r ∈ T, r.Acceptable L) :
    ∃ page rows, AccountHandler.handle L J o render T = some page ∧
      ShowsStamps J o.clock render T page rows := by
  obtain ⟨list,hlist,-,-⟩ := hydrate_all (L := L) o.clock (k := 0) h
  have hfilled : List.Forall₂ (fun (aa : Row × ℕ) (a : BankAccount L) =>
      (aa.1.Acceptable L ∧ ∃ now, Carries now aa.1 a) ∧ stampOf o.clock aa = a.updateAt)
      T.zipIdx list := by
    refine (mapM_ok.mp hlist).imp ?_
    intro aa a ha
    obtain ⟨hacc,hc⟩ := hydrate_ok ha
    exact ⟨⟨hacc,_,hc⟩,hc.updateAt.symm⟩
  have hrows : List.Forall₂ _ (SkipListSet.addAll (stampOf o.clock) [] T.zipIdx)
      (SkipListSet.addAll BankAccount.updateAt [] list) :=
    SkipListSet.addAll_related (fun _ _ hR => hR.2) hfilled .nil
  have hsorted : (([] : List (Row × ℕ)).map (stampOf o.clock)).Pairwise (· < ·) := .nil
  refine ⟨_,SkipListSet.addAll (stampOf o.clock) [] T.zipIdx,?_,?_,SkipListSet.addAll_sorted hsorted,
    ?_,rfl⟩
  · simp only [AccountHandler.handle,AccountHandler.rendered,getAllAccounts_works ho hlist,bind,
      Except.bind,rendered_carried (hrows.imp fun _ _ hR => hR.1) J render 0]
    rfl
  · intro aa haa
    simpa using SkipListSet.mem_addAll haa
  · intro aa haa
    rw [SkipListSet.keys_addAll hsorted]
    exact .inr (List.mem_map_of_mem haa)

theorem ShowsStamps.nil_iff {clock render : ℕ → Millis} {page : List (Beans.Members Json)}
    {rows : List (Row × ℕ)} (h : ShowsStamps J clock render T page rows) : page = [] ↔ T = [] := by
  have hrows : page = [] ↔ rows = [] := by simp [h.shown]
  rw [hrows]
  constructor
  · rintro rfl
    by_contra hT
    obtain ⟨r,T',rfl⟩ := List.exists_cons_of_ne_nil hT
    simpa using h.complete (r,0) (by simp [List.zipIdx_cons])
  · rintro rfl
    apply List.eq_nil_iff_forall_not_mem.mpr
    exact fun aa haa => by simpa using h.stored aa haa

/-- The first of the sorted set of rows, where a row that has no date counts from now. -/
def earliest (now : Millis) (rows : Table) : Option Row :=
  (SkipListSet.addAll (fun r : Row => r.dateUpdated.getD now) [] rows).head?

theorem Reads.earliest {occasion : Occasion} {n : Option String} (h : Reads occasion n T a) :
    ∃ r, HomeRest.earliest occasion.now ((sqlGetAccountsByNumber n T).take 50) = some r ∧
      r.Acceptable L ∧ Carries occasion.now r a := by
  obtain ⟨list,hlist,hfirst⟩ := h.list
  have hfilled : List.Forall₂ (fun (r : Row) (a : BankAccount L) =>
      (r.Acceptable L ∧ Carries occasion.now r a) ∧ r.dateUpdated.getD occasion.now = a.updateAt)
      ((sqlGetAccountsByNumber n T).take 50) list := by
    refine (mapM_ok.mp hlist).imp ?_
    intro r a ha
    obtain ⟨hacc,hc⟩ := hydrate_ok ha
    exact ⟨⟨hacc,hc⟩,hc.updateAt.symm⟩
  have hrows : List.Forall₂ _
      (SkipListSet.addAll (fun r : Row => r.dateUpdated.getD occasion.now) []
        ((sqlGetAccountsByNumber n T).take 50))
      (SkipListSet.addAll BankAccount.updateAt [] list) :=
    SkipListSet.addAll_related (fun _ _ hR => hR.2) hfilled .nil
  cases hx : SkipListSet.addAll (fun r : Row => r.dateUpdated.getD occasion.now) []
      ((sqlGetAccountsByNumber n T).take 50) with
  | nil =>
    rw [hx,List.forall₂_nil_left_iff] at hrows
    simp [hrows] at hfirst
  | cons r rest =>
    rw [hx,List.forall₂_cons_left_iff] at hrows
    obtain ⟨first,others,⟨hr,-⟩,-,hlist⟩ := hrows
    simp only [hlist,List.head?_cons,Option.some.injEq] at hfirst
    subst hfirst
    exact ⟨r,by rw [HomeRest.earliest,hx,List.head?_cons],hr⟩

/-- The page of one account shows the earliest of its rows, if the lookup works and all that it
reads can be read; otherwise there is no account on it. -/
theorem servicesPage_exact (J : Jackson) (occasion : Occasion) (render : Millis) (T : Table)
    (page : Beans.Members Json) :
    AccountServiceHandler.handle L J occasion render T = some page ↔ occasion.fault = none ∧
      (∀ r ∈ (sqlGetAccountsByNumber (some AccountServiceHandler.accountNumber) T).take 50,
        r.Acceptable L) ∧
      ∃ r, earliest occasion.now
          ((sqlGetAccountsByNumber (some AccountServiceHandler.accountNumber) T).take 50) = some r ∧
        page = r.shown J render := by
  constructor
  · intro h
    rcases getAccountByNumber_cases (L := L) occasion (some AccountServiceHandler.accountNumber) T with
      ⟨a,ha⟩ | ⟨e,he⟩ | ⟨a,ha,hblank,-⟩
    · obtain ⟨r,hr,hacc,hc⟩ := ha.earliest
      simp only [AccountServiceHandler.handle,ha.2,hc.toString hacc,Except.toOption,Option.some.injEq] at h
      exact ⟨ha.1,ha.readable.2,r,hr,h.symm⟩
    · simp only [AccountServiceHandler.handle,he,reduceCtorEq] at h
    · simp only [AccountServiceHandler.handle,ha,BankAccount.toString,
        BankAccount.toStringCopy_unset hblank,Except.map,Except.toOption,reduceCtorEq] at h
  · rintro ⟨hf,hacc,r,hr,rfl⟩
    have hrows : sqlGetAccountsByNumber (some AccountServiceHandler.accountNumber) T ≠ [] := by
      intro hnil
      simp [earliest,hnil] at hr
    obtain ⟨a,ha⟩ := Readable.reads ⟨hrows,hacc⟩ hf
    obtain ⟨r',hr',hacc',hc⟩ := ha.earliest
    cases hr.symm.trans hr'
    simp only [AccountServiceHandler.handle,ha.2,hc.toString hacc',Except.toOption]

end Accounts

section Transactions

variable {J : Jackson} {o : Listing} {S : TransactionTable} {T : Table}

/-- The data of a transaction, with a NULL amount as zero, a NULL type as debit and a NULL
time as the time of reading. -/
def TransactionRow.shown (J : Jackson) (now : Millis) (r : TransactionRow) : Beans.Members Json :=
  [("id",J.uuid.nullable (some r.transactionId)),
    ("transactionAmount",J.decimal.nullable (some (r.transactionAmount.getD 0))),
    ("transactionType",J.byte.nullable (some (r.transactionType.getD (-1)))),
    ("transactionTime",J.calendar.nullable (some (r.transactionTime.getD now))),
    ("currencyUnit",J.text.nullable r.currencyUnit),
    ("transactionStatus",J.integer.nullable r.transactionStatus),
    ("transactionFrom",J.text.nullable r.transactionFrom),
    ("transactionTo",J.text.nullable r.transactionTo)]

theorem CarriesTransaction.toString {now : Millis} {r : TransactionRow} {t : BankTransaction L}
    (h : CarriesTransaction now r t) (hr : r.Acceptable L) (J : Jackson) (now' : Millis) :
    t.toString J now' = .ok (r.shown J now) := by
  obtain ⟨c,hc,-⟩ := hr.currency
  have hfilled : t.Filled := by
    refine ⟨?_,?_,?_⟩
    · rw [h.amount]
      exact Option.some_ne_none _
    · rw [h.type]
      exact Option.some_ne_none _
    · rw [h.currency,hc]
      exact Option.some_ne_none _
  rw [t.toString_eq J now' now',BankTransaction.shown_of_filled hfilled]
  simp [Beans.write,Beans.getters,BankTransaction.properties,Scalar.property,TransactionRow.shown,h.id,
    h.amount,h.type,h.currency,h.status,h.transactionFrom,h.transactionTo,h.time]

def Listing.rows (o : Listing) (S : TransactionTable) (T : Table) : List TransactionRow :=
  (o.plan.order (sqlGetAccountsInTransaction S.rows T)).take 50

theorem rendered_filled {clock : UUID → Millis} {rows : List TransactionRow}
    {list : List (BankTransaction L)}
    (h : List.Forall₂ (fun r t => hydrateTransaction (clock r.transactionId) r = .ok t) rows list)
    (J : Jackson) (render : ℕ → Millis) (k : ℕ) :
    ((list.zipIdx k).mapM fun t => t.1.toString J (render t.2)) =
      .ok (rows.map fun r => r.shown J (clock r.transactionId)) := by
  induction h generalizing k with
  | nil => rfl
  | cons hr _ ih =>
    obtain ⟨hacc,hc⟩ := hydrateTransaction_ok hr
    simp only [List.zipIdx_cons,List.mapM_cons,List.map_cons,hc.toString hacc,ih (k+1),bind,Except.bind,
      pure,Except.pure]

/-- The page lists what the query yields, if that works and all of it can be read; otherwise
there is no listing. -/
theorem transactionsPage_exact (J : Jackson) (o : Listing) (render : ℕ → Millis) (S : TransactionTable)
    (T : Table) (page : List (Beans.Members Json)) :
    TransactionHandler.handle L J o render S T = some page ↔ o.Works ∧
      (∀ r ∈ o.rows S T, r.Acceptable L) ∧
      page = (o.rows S T).map fun r => r.shown J (o.clock r.transactionId) := by
  constructor
  · intro h
    simp only [TransactionHandler.handle] at h
    split at h
    · next list hlist =>
      obtain ⟨hworks,hfill⟩ := getAllTransactions_ok.mp hlist
      have hrows := mapM_ok.mp hfill
      rw [TransactionHandler.rendered,rendered_filled hrows J render 0] at h
      refine ⟨hworks,?_,(Option.some.inj h).symm⟩
      intro r hr
      obtain ⟨t,-,ht⟩ := forall₂_mem_right hrows.flip hr
      exact (hydrateTransaction_ok ht).1
    · cases h
  · rintro ⟨hworks,hacc,rfl⟩
    obtain ⟨list,hfill⟩ := mapM_total.mpr fun r hr =>
      hydrateTransaction_acceptable (hacc r hr) (o.clock r.transactionId)
    have hlist : getAllTransactions o S T = .ok (some list) := getAllTransactions_ok.mpr ⟨hworks,hfill⟩
    rw [TransactionHandler.handle,hlist]
    simp only [TransactionHandler.rendered,rendered_filled (mapM_ok.mp hfill) J render 0]
    rfl

end Transactions

/-- The page of accounts. There is no list on it exactly if an exception leaves the service; else
it shows one row for each time stamp if all rows can be read, and an empty list if not. -/
theorem accountsPage_exact (J : Jackson) (o : AccountListing) (render : ℕ → Millis) (T : Table) :
    (AccountHandler.handle L J o render T = none ↔ o.Throws L T) ∧
    (¬ o.Throws L T → o.Reads L T → ∃ page rows,
      AccountHandler.handle L J o render T = some page ∧ ShowsStamps J o.clock render T page rows) ∧
    (AccountHandler.handle L J o render T = some [] ↔
      ¬ o.Throws L T ∧ (¬ o.Reads L T ∨ T = [])) := by
  rcases getAllAccounts_cases (L := L) o T with ⟨hthrows,e,he⟩ | ⟨hthrows,⟨hworks,hreads⟩ | ⟨hreads,hget⟩⟩
  · have hnone : AccountHandler.handle L J o render T = none := by
      simp [AccountHandler.handle,AccountHandler.rendered,he,bind,Except.bind,Except.toOption]
    simp [hnone,hthrows]
  · obtain ⟨page,rows,hpage,hshows⟩ := accountsPage_shows J hworks render hreads.2.2.2
    refine ⟨by simp [hpage,hthrows],fun _ _ => ⟨page,rows,hpage,hshows⟩,?_⟩
    rw [hpage,Option.some.injEq,hshows.nil_iff]
    simp [hthrows,hreads]
  · have hblank : AccountHandler.handle L J o render T = some [] := by
      simp [AccountHandler.handle,AccountHandler.rendered,hget,bind,Except.bind,pure,Except.pure,
        Except.toOption]
    exact ⟨by simp [hblank,hthrows],fun _ h => absurd h hreads,by simp [hblank,hthrows,hreads]⟩

/-- No run of requests makes the page of accounts fail. -/
theorem requests_page {ι : Type} [DecidableEq ι] (db : Database) (W : Web) (T : Table)
    (h : ∀ r ∈ T, r.Acceptable L) (requests : ι → Request) (schedule : List ι)
    {o : AccountListing} (ho : o.Works) (render : ℕ → Millis) :
    ∃ page rows, AccountHandler.handle L W.jackson o render
        ((startRequests L W T requests).runs (serve db) schedule).shared = some page ∧
      ShowsStamps W.jackson o.clock render
        ((startRequests L W T requests).runs (serve db) schedule).shared page rows := by
  have hlater : T.Later L ((startRequests L W T requests).runs (serve db) schedule).shared :=
    requests_later W T requests schedule
  exact accountsPage_shows W.jackson ho render (hlater.readable h)

namespace Sample

def requests : Bool → Request
  | false => .transactions (fun _ => 200) 9 (env 100 fun _ => none) transferForm
  | true => .accounts (fun _ => 300) 8 ⟨none,300,7⟩ accountForm

end Sample

open Sample in
theorem requests_page_sample :
    ∃ page rows, AccountHandler.handle libs jackson (listed 500) (fun _ => 600)
        ((startRequests libs web twoRows requests).runs (serve database)
          [false,true,false,false]).shared = some page ∧
      ShowsStamps jackson (listed 500).clock (fun _ => 600)
        ((startRequests libs web twoRows requests).runs (serve database)
          [false,true,false,false]).shared page rows :=
  requests_page database web twoRows (by decide +kernel) requests _ (by decide) _

end HomeRest
