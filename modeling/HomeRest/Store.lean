import HomeRest.Entity
import HomeRest.Program
import HomeRest.SkipListSet

/-! The `bank_account` table and the service methods that read and write it.
Each of `getAccountByNumber`, `updateAccount`, `putAccount` and `closeTransaction` opens
its own session and commits, so each is one atomic step on the table. Hibernate fills
an entity through its setters (property access, in the order of the mapping). -/
namespace HomeRest

open AtomicProgram

structure Row where
  accountId : UUID
  currentBalance : Option ℚ
  accountStatus : Option ℤ
  accountNumber : Option String
  currencyUnit : Option String
  dateUpdated : Option Millis
  deriving DecidableEq

/-- The rows in the order in which a query without `ORDER BY` yields them. -/
abbrev Table := List Row

/-- What the database decides: the decimal that a column keeps of a written one, which
rows its constraints let in, and as what Hibernate throws a refused insert. -/
structure Database where
  decimal : ℚ → ℚ
  decimal_nonneg : ∀ x, 0 ≤ x → 0 ≤ decimal x
  accepts : Row → Table → Bool
  refusal : Throwable

/-- What one store step meets: the exception it fails with, if it fails, the clock and
the generator of random ids. A failing step leaves the table as it was. -/
structure Occasion where
  fault : Option Throwable
  now : Millis
  randomId : UUID

/-- `=` of SQL is not true of a NULL. -/
def sqlEq : Option String → Option String → Bool
  | some x, some y => x == y
  | _, _ => false

@[simp] theorem sqlEq_some (x y : String) : sqlEq (some x) (some y) = (x == y) := rfl
@[simp] theorem sqlEq_none_left (y : Option String) : sqlEq none y = false := by cases y <;> rfl
@[simp] theorem sqlEq_none_right (x : Option String) : sqlEq x none = false := by cases x <;> rfl

theorem sqlEq_iff {x y : Option String} : sqlEq x y = true ↔ ∃ n, x = some n ∧ y = some n := by
  cases x with
  | none => simp
  | some x =>
    cases y with
    | none => simp
    | some y => simpa using eq_comm

def sqlGetAccountsByNumber (accountNumber : Option String) (T : Table) : Table :=
  T.filter fun aa => sqlEq aa.accountNumber accountNumber

section Hydrate

variable {L : Libs}

/-- Hibernate wraps what a setter throws. -/
def inSetter (property : String) {α : Type} (x : Except Throwable α) : Except Throwable α :=
  x.mapError fun e => .caused .propertyAccess
    (.text ("Exception occurred inside setter of rev.gretty.homerest.entity.BankAccount." ++ property)) e

/-- Fill a new account from a row, in the order of `account.hbm.xml`. -/
def hydrate (now : Millis) (r : Row) : Except Throwable (BankAccount L) := do
  let a := (BankAccount.new r.accountId now).setId r.accountId
  let a ← inSetter "currentBalance" (a.setCurrentBalance r.currentBalance now)
  let a := a.setAccountStatus r.accountStatus
  let a ← inSetter "accountNumber" (a.setAccountNumber r.accountNumber)
  let a ← inSetter "currencyUnit" (a.setCurrencyUnit r.currencyUnit)
  return a.setUpdateAt r.dateUpdated now

/-- Every setter takes the row's value. -/
structure Row.Acceptable (L : Libs) (r : Row) : Prop where
  balance : ∃ b, r.currentBalance = some b ∧ 0 ≤ b
  number : ∃ n, r.accountNumber = some n ∧ L.validIban n = true
  currency : ∃ c, r.currencyUnit = some c ∧ L.currencyCode c = some c

structure Carries (now : Millis) (r : Row) (a : BankAccount L) : Prop where
  id : a.id = r.accountId
  balance : a.currentBalance = r.currentBalance
  status : a.accountStatus = r.accountStatus
  number : a.accountNumber = r.accountNumber
  currency : a.currencyUnit = r.currencyUnit
  updateAt : a.updateAt = r.dateUpdated.getD now

theorem inSetter_ok {property : String} {α : Type} {x : Except Throwable α} {a : α} :
    inSetter property x = .ok a ↔ x = .ok a := by
  cases x <;> simp [inSetter,Except.mapError]

theorem hydrate_ok {r : Row} {now : Millis} {a : BankAccount L} (h : hydrate now r = .ok a) :
    r.Acceptable L ∧ Carries now r a := by
  simp only [hydrate,bind_ok,inSetter_ok,pure,Except.pure,Except.ok.injEq] at h
  obtain ⟨a₁,h₁,a₂,h₂,a₃,h₃,rfl⟩ := h
  obtain ⟨hb,hbal₁,-,hid₁,hst₁,-,-⟩ := BankAccount.setCurrentBalance_ok h₁
  obtain ⟨hn,hnum₂,hid₂,hbal₂,hst₂,-,-⟩ := BankAccount.setAccountNumber_ok h₂
  obtain ⟨hc,hcur₃,hid₃,hbal₃,hst₃,hnum₃,-⟩ := BankAccount.setCurrencyUnit_ok h₃
  refine ⟨⟨hb,hn,hc⟩,?_,?_,?_,?_,hcur₃,rfl⟩
  · exact hid₃.trans (hid₂.trans hid₁)
  · exact hbal₃.trans (hbal₂.trans hbal₁)
  · exact hst₃.trans hst₂
  · exact hnum₃.trans hnum₂

theorem hydrate_acceptable {r : Row} (h : r.Acceptable L) (now : Millis) :
    ∃ a : BankAccount L, hydrate now r = .ok a := by
  obtain ⟨⟨b,hb,hb0⟩,⟨n,hn,hv⟩,⟨c,hc,hk⟩⟩ := h
  simp only [hydrate,bind_ok,inSetter_ok,hb,hn,hc,pure,Except.pure]
  obtain ⟨a₁,h₁⟩ := BankAccount.setCurrentBalance_nonneg hb0 now
    ((BankAccount.new r.accountId now : BankAccount L).setId r.accountId)
  obtain ⟨a₂,h₂⟩ := BankAccount.setAccountNumber_valid hv (a₁.setAccountStatus r.accountStatus)
  obtain ⟨a₃,h₃⟩ := BankAccount.setCurrencyUnit_known hk a₂
  exact ⟨_,a₁,h₁,a₂,h₂,a₃,h₃,rfl⟩

theorem bind_error {ε α β : Type} {x : Except ε α} {f : α → Except ε β} {e : ε} :
    (x >>= f) = .error e ↔ x = .error e ∨ ∃ a, x = .ok a ∧ f a = .error e := by
  cases x <;> simp [bind,Except.bind]

theorem inSetter_error {property : String} {α : Type} {x : Except Throwable α} {e : Throwable}
    (h : inSetter property x = .error e) : e.cls = .propertyAccess := by
  cases x with
  | ok a => simp [inSetter,Except.mapError] at h
  | error e' =>
    simp only [inSetter,Except.mapError,Except.error.injEq] at h
    subst h
    rfl

theorem hydrate_error {r : Row} {now : Millis} {e : Throwable}
    (h : (hydrate now r : Except Throwable (BankAccount L)) = .error e) : e.cls = .propertyAccess := by
  simp only [hydrate,bind_error,pure,Except.pure,reduceCtorEq,and_false,exists_false,or_false] at h
  rcases h with h | ⟨a,-,h | ⟨b,-,h⟩⟩
  · exact inSetter_error h
  · exact inSetter_error h
  · exact inSetter_error h

theorem mapM_hydrate_error {rows : Table} {now : Millis} {e : Throwable}
    (h : rows.mapM (hydrate (L := L) now) = .error e) : e.cls = .propertyAccess := by
  induction rows with
  | nil => simp [pure,Except.pure] at h
  | cons r rows ih =>
    simp only [List.mapM_cons,bind_error,pure,Except.pure,reduceCtorEq,and_false,exists_false,
      or_false] at h
    rcases h with h | ⟨a,-,h⟩
    · exact hydrate_error h
    · exact ih h

theorem Carries.complete {now : Millis} {r : Row} {a : BankAccount L} (h : Carries now r a)
    (hr : r.Acceptable L) : a.Complete := by
  obtain ⟨⟨b,hb,-⟩,⟨n,hn,-⟩,⟨c,hc,-⟩⟩ := hr
  exact ⟨⟨b,h.balance.trans hb⟩,⟨n,h.number.trans hn⟩,⟨c,h.currency.trans hc⟩⟩

end Hydrate

section Service

variable {L : Libs}

def noMatchingRecord : Throwable := .plain .bankAccountData (.text
  ("There should be only one unique UUID matching record. Check unique constraints for " ++
    "class rev.gretty.homerest.entity.BankAccount"))

/-- `AccountServiceImpl.getAccountByNumber`: a failed cast is swallowed and leaves the blank
account of the first line; every other exception is thrown on. Left out: a failed cast that
comes from the commit itself, and its flush of a NULL date that the setter has replaced. -/
def getAccountByNumber (occasion : Occasion) (accountIdNumber : Option String) (T : Table) :
    Except Throwable (Option (BankAccount L)) :=
  let bankAccount := BankAccount.new occasion.randomId occasion.now
  let attempt : Except Throwable (Option (BankAccount L)) :=
    match occasion.fault with
    | some e => .error e
    | none => do
      let list ← ((sqlGetAccountsByNumber accountIdNumber T).take 50).mapM (hydrate occasion.now)
      match (SkipListSet.addAll BankAccount.updateAt [] list).head? with
      | none => .error noMatchingRecord
      | some first => .ok (some first)
  match attempt with
  | .ok optionalBankAccount => .ok optionalBankAccount
  | .error e => if e.cls = .classCast then .ok (some bankAccount) else .error e

/-- What one listing of the accounts meets: the reading of the clock for each row, a failure
to open the session or to begin, one of the query, one of the commit, and what the rollback
throws after either. -/
structure AccountListing where
  clock : ℕ → Millis
  openFault : Option Throwable
  beginFault : Option Throwable
  queryFault : Option Throwable
  commitFault : Option Throwable
  rollbackFault : Option Throwable

namespace AccountListing

variable (o : AccountListing)

/-- `getResultList()`: the rows are filled one after the other. -/
def list (T : Table) : Except Throwable (List (BankAccount L)) :=
  match o.queryFault with
  | some e => .error e
  | none => T.zipIdx.mapM fun aa => hydrate (o.clock aa.2) aa.1

/-- The handler prints and rolls back; what was collected until then is returned. -/
def recover (concurrentReadList : List (BankAccount L)) : Except Throwable (List (BankAccount L)) :=
  match o.rollbackFault with
  | some e => .error e
  | none => .ok concurrentReadList

def Works : Prop := o.openFault = none ∧ o.beginFault = none ∧ o.queryFault = none ∧
  (o.commitFault = none ∨ o.rollbackFault = none)

instance : Decidable o.Works := inferInstanceAs (Decidable (_ ∧ _))

end AccountListing

/-- `AccountServiceImpl.getAllAccounts`: the accounts are collected in a sorted set. A session
that was not opened cannot be closed. -/
def getAllAccounts (o : AccountListing) (T : Table) : Except Throwable (List (BankAccount L)) :=
  match o.openFault with
  | some _ => .error .nullPointer
  | none =>
    match o.beginFault with
    | some _ => .ok []
    | none =>
      match o.list T with
      | .error _ => o.recover []
      | .ok list =>
        let concurrentReadList := SkipListSet.addAll BankAccount.updateAt [] list
        match o.commitFault with
        | some _ => o.recover concurrentReadList
        | none => .ok concurrentReadList

theorem getAllAccounts_works {o : AccountListing} (h : o.Works) {T : Table}
    {list : List (BankAccount L)}
    (hlist : T.zipIdx.mapM (fun aa => hydrate (o.clock aa.2) aa.1) = .ok list) :
    getAllAccounts o T = .ok (SkipListSet.addAll BankAccount.updateAt [] list) := by
  obtain ⟨hopen,hbegin,hquery,hend⟩ := h
  cases hc : o.commitFault with
  | none => simp [getAllAccounts,AccountListing.list,hopen,hbegin,hquery,hlist,hc]
  | some e =>
    have hr : o.rollbackFault = none := hend.resolve_left (by simp [hc])
    simp [getAllAccounts,AccountListing.list,AccountListing.recover,hopen,hbegin,hquery,hlist,hc,hr]

def Reads (occasion : Occasion) (n : Option String) (T : Table) (a : BankAccount L) : Prop :=
  occasion.fault = none ∧ getAccountByNumber occasion n T = .ok (some a)

/-- The rows that a lookup by number fills are there and acceptable. -/
def Readable (L : Libs) (n : Option String) (T : Table) : Prop :=
  sqlGetAccountsByNumber n T ≠ [] ∧ ∀ r ∈ (sqlGetAccountsByNumber n T).take 50, r.Acceptable L

theorem mem_sqlGet {n : Option String} {T : Table} {r : Row} :
    r ∈ sqlGetAccountsByNumber n T ↔ r ∈ T ∧ ∃ m, r.accountNumber = some m ∧ n = some m := by
  simp [sqlGetAccountsByNumber,List.mem_filter,sqlEq_iff]

theorem mapM_ok {α β : Type} {f : α → Except Throwable β} {xs : List α} {ys : List β} :
    xs.mapM f = .ok ys ↔ List.Forall₂ (fun x y => f x = .ok y) xs ys := by
  induction xs generalizing ys with
  | nil => cases ys <;> simp [pure,Except.pure]
  | cons x xs ih =>
    simp only [List.mapM_cons,bind_ok,pure,Except.pure,Except.ok.injEq,List.forall₂_cons_left_iff,ih]
    constructor
    · rintro ⟨y,hy,ys,hys,rfl⟩
      exact ⟨y,ys,hy,hys,rfl⟩
    · rintro ⟨y,ys,hy,hys,rfl⟩
      exact ⟨y,hy,ys,hys,rfl⟩

theorem forall₂_mem_right {α β : Type} {R : α → β → Prop} {xs : List α} {ys : List β}
    (h : List.Forall₂ R xs ys) {y : β} (hy : y ∈ ys) : ∃ x ∈ xs, R x y := by
  induction h with
  | nil => simp at hy
  | @cons x y' xs ys hr hrs ih =>
    rcases List.mem_cons.mp hy with rfl | hy
    · exact ⟨x,by simp,hr⟩
    · obtain ⟨z,hz,hzy⟩ := ih hy
      exact ⟨z,by simp [hz],hzy⟩

theorem mapM_total {α β : Type} {f : α → Except Throwable β} {xs : List α} :
    (∃ ys, xs.mapM f = .ok ys) ↔ ∀ x ∈ xs, ∃ y, f x = .ok y := by
  constructor
  · rintro ⟨ys,h⟩ x hx
    obtain ⟨y,-,hy⟩ := forall₂_mem_right (mapM_ok.mp h).flip hx
    exact ⟨y,hy⟩
  · intro h
    induction xs with
    | nil => exact ⟨[],rfl⟩
    | cons x xs ih =>
      obtain ⟨y,hy⟩ := h x (by simp)
      obtain ⟨ys,hys⟩ := ih fun x hx => h x (by simp [hx])
      exact ⟨y :: ys,mapM_ok.mpr (.cons hy (mapM_ok.mp hys))⟩

theorem mapM_hydrate_ok {now : Millis} {rows : Table} :
    (∃ list : List (BankAccount L), rows.mapM (hydrate now) = .ok list) ↔
      ∀ r ∈ rows, r.Acceptable L := by
  rw [mapM_total]
  apply forall₂_congr
  intro r _
  exact ⟨fun ⟨_,ha⟩ => (hydrate_ok ha).1,fun h => hydrate_acceptable h now⟩

/-- Without a failure a lookup finds one of the rows, or throws: there is none, or one of
them cannot be filled. -/
theorem getAccountByNumber_sound {occasion : Occasion} (hf : occasion.fault = none)
    (n : Option String) (T : Table) :
    (Readable L n T ∧ ∃ a : BankAccount L, getAccountByNumber occasion n T = .ok (some a) ∧
      ∃ r ∈ sqlGetAccountsByNumber n T, hydrate occasion.now r = .ok a) ∨
    (¬ Readable L n T ∧ ∃ e : Throwable,
      (getAccountByNumber occasion n T : Except Throwable (Option (BankAccount L))) = .error e) := by
  cases hl : ((sqlGetAccountsByNumber n T).take 50).mapM (hydrate (L := L) occasion.now) with
  | error e =>
    right
    refine ⟨fun hr => ?_,e,?_⟩
    · obtain ⟨list,h⟩ : ∃ list : List (BankAccount L),
          ((sqlGetAccountsByNumber n T).take 50).mapM (hydrate occasion.now) = .ok list :=
        mapM_hydrate_ok.mpr hr.2
      simp [h] at hl
    · simp [getAccountByNumber,hf,hl,bind,Except.bind,mapM_hydrate_error hl]
  | ok list =>
    have hacc := mapM_hydrate_ok.mp ⟨list,hl⟩
    by_cases hn : list = []
    · have hlen := (mapM_ok.mp hl).length_eq
      right
      subst hn
      refine ⟨fun hr => hr.1 (by simpa using hlen),noMatchingRecord,?_⟩
      simp [getAccountByNumber,hf,hl,bind,Except.bind,noMatchingRecord,Throwable.cls]
    · obtain ⟨a,ha⟩ := SkipListSet.head_addAll_isSome (k := BankAccount.updateAt) hn
      obtain ⟨r,hr,hra⟩ := forall₂_mem_right (mapM_ok.mp hl) (SkipListSet.head_addAll_mem ha)
      left
      refine ⟨⟨List.ne_nil_of_mem (List.mem_of_mem_take hr),hacc⟩,a,?_,r,List.mem_of_mem_take hr,hra⟩
      simp [getAccountByNumber,hf,hl,ha,bind,Except.bind]

theorem getAccountByNumber_cases (occasion : Occasion) (n : Option String) (T : Table) :
    (∃ a : BankAccount L, Reads occasion n T a) ∨
    (∃ e : Throwable,
      (getAccountByNumber occasion n T : Except Throwable (Option (BankAccount L))) = .error e) ∨
    ∃ a : BankAccount L, getAccountByNumber occasion n T = .ok (some a) ∧ a.accountNumber = none ∧
      occasion.fault ≠ none := by
  cases hf : occasion.fault with
  | none =>
    rcases getAccountByNumber_sound hf n T with ⟨-,a,ha,-⟩ | ⟨-,he⟩
    · exact .inl ⟨a,hf,ha⟩
    · exact .inr (.inl he)
  | some e =>
    by_cases hc : e.cls = .classCast
    · exact .inr (.inr ⟨BankAccount.new occasion.randomId occasion.now,
        by simp [getAccountByNumber,hf,hc],rfl,by simp⟩)
    · exact .inr (.inl ⟨e,by simp [getAccountByNumber,hf,hc]⟩)

theorem Reads.readable {occasion : Occasion} {n : Option String} {T : Table} {a : BankAccount L}
    (h : Reads occasion n T a) : Readable L n T := by
  rcases getAccountByNumber_sound h.1 n T with ⟨hr,-⟩ | ⟨-,e,he⟩
  · exact hr
  · cases he.symm.trans h.2

theorem Reads.row {occasion : Occasion} {n : Option String} {T : Table} {a : BankAccount L}
    (h : Reads occasion n T a) :
    ∃ r ∈ sqlGetAccountsByNumber n T, r.Acceptable L ∧ Carries occasion.now r a := by
  rcases getAccountByNumber_sound h.1 n T with ⟨-,a',ha',r,hr,hra⟩ | ⟨-,e,he⟩
  · cases ha'.symm.trans h.2
    exact ⟨r,hr,hydrate_ok hra⟩
  · cases he.symm.trans h.2

theorem Reads.complete {occasion : Occasion} {n : Option String} {T : Table} {a : BankAccount L}
    (h : Reads occasion n T a) : a.Complete := by
  obtain ⟨r,-,hacc,hc⟩ := h.row
  exact hc.complete hacc

theorem Reads.number {occasion : Occasion} {n : Option String} {T : Table} {a : BankAccount L}
    (h : Reads occasion n T a) : a.accountNumber = n ∧ ∃ m, n = some m := by
  obtain ⟨r,hr,-,hc⟩ := h.row
  obtain ⟨-,m,hm,hn⟩ := mem_sqlGet.mp hr
  exact ⟨hc.number.trans (hm.trans hn.symm),m,hn⟩

theorem Readable.reads {n : Option String} {T : Table} (h : Readable L n T) {occasion : Occasion}
    (hf : occasion.fault = none) : ∃ a : BankAccount L, Reads occasion n T a := by
  rcases getAccountByNumber_sound hf n T with ⟨-,a,ha,-⟩ | ⟨hn,-⟩
  · exact ⟨a,hf,ha⟩
  · exact absurd h hn

/-- The session skeleton of the writes: a violated constraint is logged and rolled back, and
the method still returns true; a `HibernateException` is thrown on after the rollback, and
anything else is not caught. -/
def commitWrite {σ : Type} (occasion : Occasion) (write : σ → Except Throwable σ) (T : σ) :
    Except Throwable Bool × σ :=
  let attempt : Except Throwable σ :=
    match occasion.fault with
    | some e => .error e
    | none => write T
  match attempt with
  | .ok T' => (.ok true,T')
  | .error e => if e.cls = .constraintViolation then (.ok true,T) else (.error e,T)

/-- The `SET` clause of `SQL_UPDATE_ACCOUNTS_BY_NUMBER`. -/
def updatedRow (db : Database) (a : BankAccount L) (aa : Row) : Row := {aa with
  accountStatus := a.accountStatus
  dateUpdated := some a.updateAt
  currentBalance := a.currentBalance.map db.decimal}

@[simp] theorem updatedRow_number (db : Database) (a : BankAccount L) (r : Row) :
    (updatedRow db a r).accountNumber = r.accountNumber := rfl

/-- `setMaxResults` limits queries, not updates. -/
def sqlUpdateAccountsByNumber (db : Database) (a : BankAccount L) (T : Table) : Table :=
  T.map fun aa => if sqlEq aa.accountNumber a.accountNumber then updatedRow db a aa else aa

def updateAccount (db : Database) (occasion : Occasion) (a : BankAccount L) (T : Table) :
    Except Throwable Bool × Table :=
  commitWrite occasion (fun T => .ok (sqlUpdateAccountsByNumber db a T)) T

def Occasion.written (occasion : Occasion) : Except Throwable Bool :=
  match occasion.fault with
  | none => .ok true
  | some e => if e.cls = .constraintViolation then .ok true else .error e

def Occasion.commits (occasion : Occasion) (write : Table → Table) (T : Table) : Table :=
  if occasion.fault = none then write T else T

theorem commitWrite_total (occasion : Occasion) (write : Table → Table) (T : Table) :
    commitWrite occasion (fun T => .ok (write T)) T = (occasion.written,occasion.commits write T) := by
  cases hf : occasion.fault with
  | none => simp [commitWrite,Occasion.written,Occasion.commits,hf]
  | some e => by_cases hc : e.cls = .constraintViolation <;>
      simp [commitWrite,Occasion.written,Occasion.commits,hf,hc]

theorem updateAccount_eq (db : Database) (occasion : Occasion) (a : BankAccount L) (T : Table) :
    updateAccount db occasion a T =
      (occasion.written,occasion.commits (sqlUpdateAccountsByNumber db a) T) :=
  commitWrite_total _ _ _

@[simp] theorem Occasion.written_none {occasion : Occasion} (hf : occasion.fault = none) :
    occasion.written = .ok true := by simp [Occasion.written,hf]
@[simp] theorem Occasion.commits_none {occasion : Occasion} (hf : occasion.fault = none)
    (write : Table → Table) (T : Table) : occasion.commits write T = write T := by
  simp [Occasion.commits,hf]

/-- The step does not throw: it works, or violates a constraint and rolls back. -/
def Occasion.Returns (occasion : Occasion) : Prop :=
  ∀ e ∈ occasion.fault, e.cls = .constraintViolation

instance (occasion : Occasion) : Decidable occasion.Returns :=
  match h : occasion.fault with
  | none => isTrue (by simp [Occasion.Returns,h])
  | some e => decidable_of_iff (e.cls = .constraintViolation) (by simp [Occasion.Returns,h])

theorem Occasion.returns_none {occasion : Occasion} (hf : occasion.fault = none) :
    occasion.Returns := by simp [Occasion.Returns,hf]

theorem Occasion.written_ok {occasion : Occasion} (h : occasion.Returns) :
    occasion.written = .ok true := by
  cases hf : occasion.fault with
  | none => exact Occasion.written_none hf
  | some e => simp [Occasion.written,hf,h e hf]

theorem Occasion.written_error {occasion : Occasion} (h : ¬ occasion.Returns)
    (write : Table → Table) (T : Table) :
    (∃ e, occasion.written = .error e) ∧ occasion.commits write T = T := by
  cases hf : occasion.fault with
  | none => exact absurd (Occasion.returns_none hf) h
  | some e =>
    have hc : e.cls ≠ .constraintViolation := fun hc => h fun e' he' => by simp_all
    simp [Occasion.written,Occasion.commits,hf,hc]

def updateWhere (n : Option String) (set : Row → Row) (T : Table) : Table :=
  T.map fun aa => if sqlEq aa.accountNumber n then set aa else aa

theorem sqlUpdateAccountsByNumber_eq (db : Database) (a : BankAccount L) (T : Table) :
    sqlUpdateAccountsByNumber db a T = updateWhere a.accountNumber (updatedRow db a) T := rfl

theorem sqlGet_map {f : Row → Row} (hf : ∀ r, (f r).accountNumber = r.accountNumber)
    (n : Option String) (T : Table) :
    sqlGetAccountsByNumber n (T.map f) = (sqlGetAccountsByNumber n T).map f := by
  have hcomp : ((fun aa : Row => sqlEq aa.accountNumber n) ∘ f) = fun aa => sqlEq aa.accountNumber n := by
    funext r
    simp only [Function.comp_apply,hf]
  rw [sqlGetAccountsByNumber,List.filter_map,hcomp]
  rfl

section UpdateWhere

variable {set : Row → Row} {n m : Option String}

theorem sqlGet_updateWhere (hset : ∀ r, (set r).accountNumber = r.accountNumber) (T : Table) :
    sqlGetAccountsByNumber n (updateWhere m set T) =
      (sqlGetAccountsByNumber n T).map fun aa => if sqlEq aa.accountNumber m then set aa else aa := by
  apply sqlGet_map
  intro r
  split_ifs
  · exact hset r
  · rfl

theorem sqlGet_updateWhere_ne (hset : ∀ r, (set r).accountNumber = r.accountNumber) (h : m ≠ n)
    (T : Table) :
    sqlGetAccountsByNumber n (updateWhere m set T) = sqlGetAccountsByNumber n T := by
  have hrow : ∀ r ∈ sqlGetAccountsByNumber n T,
      (if sqlEq r.accountNumber m then set r else r) = r := by
    intro r hr
    obtain ⟨-,k,hk,hkn⟩ := mem_sqlGet.mp hr
    have hne : ¬ sqlEq r.accountNumber m = true := by
      intro hm
      obtain ⟨k',hk',hkm⟩ := sqlEq_iff.mp hm
      exact h (hkm.trans (hk'.symm.trans (hk.trans hkn.symm)))
    rw [if_neg hne]
  rw [sqlGet_updateWhere hset,List.map_congr_left hrow,List.map_id']

theorem sqlGet_updateWhere_self (hset : ∀ r, (set r).accountNumber = r.accountNumber) (T : Table) :
    sqlGetAccountsByNumber n (updateWhere n set T) = (sqlGetAccountsByNumber n T).map set := by
  rw [sqlGet_updateWhere hset]
  apply List.map_congr_left
  intro r hr
  obtain ⟨-,k,hk,hkn⟩ := mem_sqlGet.mp hr
  have hn : sqlEq r.accountNumber n = true := sqlEq_iff.mpr ⟨k,hk,hkn⟩
  rw [if_pos hn]

theorem Readable.updateWhere (hset : ∀ r, (set r).accountNumber = r.accountNumber)
    (hacc : ∀ r, r.Acceptable L → (set r).Acceptable L) {T : Table} (h : Readable L n T) :
    Readable L n (updateWhere m set T) := by
  by_cases hn : m = n
  · subst hn
    simp only [Readable,sqlGet_updateWhere_self hset]
    refine ⟨by simpa using h.1,?_⟩
    intro r hr
    rw [← List.map_take] at hr
    obtain ⟨r',hr',rfl⟩ := List.mem_map.mp hr
    exact hacc r' (h.2 r' hr')
  · simpa only [Readable,sqlGet_updateWhere_ne hset hn] using h

end UpdateWhere

def bookedRow (db : Database) (status : ℤ) (balance : ℚ) (now : Millis) (aa : Row) : Row := {aa with
  accountStatus := some status
  dateUpdated := some now
  currentBalance := some (db.decimal balance)}

@[simp] theorem bookedRow_number (db : Database) (status : ℤ) (balance : ℚ) (now : Millis) (r : Row) :
    (bookedRow db status balance now r).accountNumber = r.accountNumber := rfl
@[simp] theorem bookedRow_currency (db : Database) (status : ℤ) (balance : ℚ) (now : Millis) (r : Row) :
    (bookedRow db status balance now r).currencyUnit = r.currencyUnit := rfl
@[simp] theorem bookedRow_balance (db : Database) (status : ℤ) (balance : ℚ) (now : Millis) (r : Row) :
    (bookedRow db status balance now r).currentBalance = some (db.decimal balance) := rfl

theorem bookedRow_acceptable (db : Database) {status : ℤ} {balance : ℚ} (h0 : 0 ≤ balance)
    (now : Millis) {r : Row} (hr : r.Acceptable L) : (bookedRow db status balance now r).Acceptable L :=
  ⟨⟨_,rfl,db.decimal_nonneg _ h0⟩,hr.number,hr.currency⟩

def book (db : Database) (n : Option String) (status : ℤ) (balance : ℚ) (now : Millis) (T : Table) :
    Table :=
  updateWhere n (bookedRow db status balance now) T

theorem Readable.book (db : Database) {n m : Option String} {status : ℤ} {balance : ℚ}
    (h0 : 0 ≤ balance) (now : Millis) {T : Table} (h : Readable L n T) :
    Readable L n (book db m status balance now T) :=
  h.updateWhere (bookedRow_number db status balance now) fun _ hr => bookedRow_acceptable db h0 now hr

theorem sqlUpdate_eq_book (db : Database) {a : BankAccount L} {status : ℤ} {balance : ℚ}
    (hb : a.currentBalance = some balance) (hs : a.accountStatus = some status) (T : Table) :
    sqlUpdateAccountsByNumber db a T = book db a.accountNumber status balance a.updateAt T := by
  have hset : updatedRow db a = bookedRow db status balance a.updateAt := by
    funext r
    simp [updatedRow,bookedRow,hb,hs]
  rw [sqlUpdateAccountsByNumber_eq,hset,book]

/-- The row that `session.save` inserts under a generated id. -/
def savedRow (db : Database) (occasion : Occasion) (a : BankAccount L) : Row where
  accountId := occasion.randomId
  currentBalance := a.currentBalance.map db.decimal
  accountStatus := a.accountStatus
  accountNumber := a.accountNumber
  currencyUnit := a.currencyUnit
  dateUpdated := some a.updateAt

def putAccount (db : Database) (occasion : Occasion) (a : BankAccount L) (T : Table) :
    Except Throwable Bool × Table :=
  commitWrite occasion (fun T =>
    let row := savedRow db occasion a
    if db.accepts row T then .ok (T ++ [row]) else .error db.refusal) T

/-- What an insert meets: its own failure, or the refusal of the constraints. -/
def Occasion.inserting (occasion : Occasion) (db : Database) (row : Row) (T : Table) : Occasion :=
  match occasion.fault with
  | some _ => occasion
  | none => if db.accepts row T then occasion else {occasion with fault := some db.refusal}

theorem Occasion.inserting_sound {occasion : Occasion} {db : Database} {row : Row} {T : Table} :
    (occasion.inserting db row T).fault = none ↔
      occasion.fault = none ∧ db.accepts row T = true := by
  cases hf : occasion.fault with
  | some e => simp [Occasion.inserting,hf]
  | none => by_cases hacc : db.accepts row T = true <;> simp [Occasion.inserting,hf,hacc]

theorem putAccount_eq (db : Database) (occasion : Occasion) (a : BankAccount L) (T : Table) :
    putAccount db occasion a T =
      ((occasion.inserting db (savedRow db occasion a) T).written,
        (occasion.inserting db (savedRow db occasion a) T).commits (·++[savedRow db occasion a]) T) := by
  rw [← commitWrite_total]
  cases hf : occasion.fault with
  | some e => simp [putAccount,commitWrite,Occasion.inserting,hf]
  | none =>
    by_cases hacc : db.accepts (savedRow db occasion a) T = true <;>
      simp [putAccount,commitWrite,Occasion.inserting,hf,hacc]

/-- The `SET` clause of `SQL_UPDATE_ACCOUNTS_IN_TRANSACTION`, for a finished transaction. -/
def closedRow (date_updated : Millis) (aa : Row) : Row := {aa with
  accountStatus := some 60
  dateUpdated := some date_updated}

def sqlUpdateAccountsInTransaction (from_acc to_acc : Option String) (date_updated : Millis)
    (T : Table) : Table :=
  T.map fun aa =>
    if sqlEq aa.accountNumber from_acc || sqlEq aa.accountNumber to_acc then closedRow date_updated aa
    else aa

theorem map_close {α : Type} {f : Row → α} (hf : ∀ d r, f (closedRow d r) = f r)
    (from_acc to_acc : Option String) (d : Millis) (T : Table) :
    (sqlUpdateAccountsInTransaction from_acc to_acc d T).map f = T.map f := by
  rw [sqlUpdateAccountsInTransaction,List.map_map]
  apply List.map_congr_left
  intro r _
  simp only [Function.comp_apply]
  split_ifs
  · exact hf d r
  · rfl

theorem sqlGet_close (n from_acc to_acc : Option String) (d : Millis) (T : Table) :
    sqlGetAccountsByNumber n (sqlUpdateAccountsInTransaction from_acc to_acc d T) =
      sqlUpdateAccountsInTransaction from_acc to_acc d (sqlGetAccountsByNumber n T) := by
  apply sqlGet_map
  intro r
  split_ifs <;> rfl

def closeTransaction (occasion : Occasion) (t : BankTransaction L) (T : Table) :
    Except Throwable Bool × Table :=
  commitWrite occasion (fun T =>
    .ok (sqlUpdateAccountsInTransaction t.transactionFrom t.transactionTo
      (BankAccount.new occasion.randomId occasion.now : BankAccount L).updateAt T)) T

end Service

/-- The store steps of a running call. -/
inductive StoreCall (L : Libs)
  | getAccountByNumber (occasion : Occasion) (number : Option String)
  | updateAccount (occasion : Occasion) (account : BankAccount L)
  | putAccount (occasion : Occasion) (account : BankAccount L)
  | closeTransaction (occasion : Occasion) (transaction : BankTransaction L)

def StoreCall.Answer {L : Libs} : StoreCall L → Type
  | .getAccountByNumber _ _ => Option (BankAccount L)
  | .updateAccount _ _ => Bool
  | .putAccount _ _ => Bool
  | .closeTransaction _ _ => Bool

def serve {L : Libs} (db : Database) : Server (StoreCall L) StoreCall.Answer Throwable Table
  | .getAccountByNumber occasion n, T => (HomeRest.getAccountByNumber occasion n T,T)
  | .updateAccount occasion a, T => HomeRest.updateAccount db occasion a T
  | .putAccount occasion a, T => HomeRest.putAccount db occasion a T
  | .closeTransaction occasion t, T => HomeRest.closeTransaction occasion t T

theorem serve_updateAccount {L : Libs} (db : Database) (occasion : Occasion) (a : BankAccount L)
    (T : Table) : serve db (.updateAccount occasion a) T =
      (occasion.written,occasion.commits (sqlUpdateAccountsByNumber db a) T) :=
  updateAccount_eq db occasion a T

theorem serve_closeTransaction {L : Libs} (db : Database) (occasion : Occasion)
    (t : BankTransaction L) (T : Table) : serve db (.closeTransaction occasion t) T =
      (occasion.written,occasion.commits
        (sqlUpdateAccountsInTransaction t.transactionFrom t.transactionTo occasion.now) T) :=
  commitWrite_total _ _ _

theorem serve_putAccount {L : Libs} (db : Database) (occasion : Occasion) (a : BankAccount L)
    (T : Table) : (serve db (.putAccount occasion a) T).2 =
      if occasion.fault = none ∧ db.accepts (savedRow db occasion a) T = true then
        T ++ [savedRow db occasion a] else T := by
  simp only [serve,putAccount_eq,Occasion.commits,Occasion.inserting_sound]

abbrev Code (L : Libs) (α : Type) := Program (StoreCall L) StoreCall.Answer Throwable α

end HomeRest
