import HomeRest.NestedLoopJoin
import HomeRest.Store

/-! The `bank_transaction` table and the service methods that read and write it.
`SQL_GET_ACCOUNTS_IN_TRANSACTION` joins it with the accounts, and Hibernate returns one
list element for each row of the join. -/
namespace HomeRest

open NestedLoopJoin

structure TransactionRow where
  transactionId : UUID
  transactionAmount : Option ℚ
  transactionType : Option Int8
  currencyUnit : Option String
  transactionStatus : Option ℤ
  transactionFrom : Option String
  transactionTo : Option String
  transactionTime : Option Millis
  deriving DecidableEq

/-- The rows under the primary key. -/
structure TransactionTable where
  rows : List TransactionRow
  primaryKey : (rows.map TransactionRow.transactionId).Nodup

/-- `!=` of SQL is not true of a NULL. -/
def sqlNe : Option String → Option String → Bool
  | some x, some y => x != y
  | _, _ => false

theorem sqlNe_iff {x y : Option String} :
    sqlNe x y = true ↔ ∃ n m, x = some n ∧ y = some m ∧ n ≠ m := by
  cases x <;> cases y <;> simp [sqlNe]

def isPartner (tt : TransactionRow) (aa : Row) : Bool :=
  sqlEq aa.accountNumber tt.transactionFrom || sqlEq aa.accountNumber tt.transactionTo

def sqlGetAccountsInTransaction (S : List TransactionRow) (T : Table) : List TransactionRow :=
  ((join isPartner S T).filter fun p => sqlNe p.1.transactionTo p.1.transactionFrom).map Prod.fst

section Hydrate

variable {L : Libs}

def inTransactionSetter (property : String) {α : Type} (x : Except Throwable α) : Except Throwable α :=
  x.mapError fun e => .caused .propertyAccess (.text
    ("Exception occurred inside setter of rev.gretty.homerest.entity.BankTransaction." ++ property)) e

def hydrateTransaction (now : Millis) (r : TransactionRow) : Except Throwable (BankTransaction L) := do
  let t := (BankTransaction.new r.transactionId now).setId (some r.transactionId)
  let t ← inTransactionSetter "transactionAmount" (t.setTransactionAmount r.transactionAmount)
  let t := t.setTransactionType r.transactionType
  let t ← inTransactionSetter "currencyUnit" (t.setCurrencyUnit r.currencyUnit)
  let t := (t.setTransactionStatus r.transactionStatus).setTransactionFrom r.transactionFrom
  let t := t.setTransactionTo r.transactionTo
  return t.setTransactionTime r.transactionTime now

structure TransactionRow.Acceptable (L : Libs) (r : TransactionRow) : Prop where
  amount : 0 ≤ r.transactionAmount.getD 0
  currency : ∃ c, r.currencyUnit = some c ∧ L.currencyCode c = some c

/-- The transaction carries the row; NULLs stand for zero, debit and the current time. -/
structure CarriesTransaction (now : Millis) (r : TransactionRow) (t : BankTransaction L) : Prop where
  id : t.id = some r.transactionId
  amount : t.transactionAmount = some (r.transactionAmount.getD 0)
  type : t.transactionType = some (r.transactionType.getD (-1))
  currency : t.currencyUnit = r.currencyUnit
  status : t.transactionStatus = r.transactionStatus
  transactionFrom : t.transactionFrom = r.transactionFrom
  transactionTo : t.transactionTo = r.transactionTo
  time : t.transactionTime = r.transactionTime.getD now

theorem inTransactionSetter_ok {property : String} {α : Type} {x : Except Throwable α} {a : α} :
    inTransactionSetter property x = .ok a ↔ x = .ok a := by
  cases x <;> simp [inTransactionSetter,Except.mapError]

theorem hydrateTransaction_ok {r : TransactionRow} {now : Millis} {t : BankTransaction L}
    (h : hydrateTransaction now r = .ok t) : r.Acceptable L ∧ CarriesTransaction now r t := by
  simp only [hydrateTransaction,bind_ok,inTransactionSetter_ok,pure,Except.pure,Except.ok.injEq] at h
  obtain ⟨t₁,h₁,t₂,h₂,rfl⟩ := h
  simp only [BankTransaction.setTransactionAmount] at h₁
  split at h₁
  · cases h₁
  · next ha =>
    cases h₁
    cases hc : r.currencyUnit with
    | none => simp [BankTransaction.setCurrencyUnit,hc] at h₂
    | some c =>
      simp only [hc,BankTransaction.setCurrencyUnit] at h₂
      split at h₂
      · cases h₂
      · next u hu =>
        have hcu : u = c := L.currencyCode_eq c u hu
        subst hcu
        cases h₂
        refine ⟨⟨not_lt.mp ha,u,hc,hu⟩,?_⟩
        cases hk : r.transactionType <;>
          exact ⟨rfl,rfl,by simp [hk]; rfl,hc.symm,rfl,rfl,rfl,rfl⟩

theorem hydrateTransaction_acceptable {r : TransactionRow} (h : r.Acceptable L) (now : Millis) :
    ∃ t : BankTransaction L, hydrateTransaction now r = .ok t := by
  obtain ⟨ha,c,hc,hk⟩ := h
  simp only [hydrateTransaction,bind_ok,inTransactionSetter_ok,pure,Except.pure,hc,
    BankTransaction.setTransactionAmount,not_lt.mpr ha,dite_false,Except.ok.injEq,exists_eq_left']
  exact ⟨_,_,BankTransaction.setCurrencyUnit_known _ hk,rfl⟩

end Hydrate

section Save

variable {L : Libs}

def savedTransactionRow (db : Database) (occasion : Occasion) (t : BankTransaction L) :
    TransactionRow where
  transactionId := occasion.randomId
  transactionAmount := t.transactionAmount.map db.decimal
  transactionType := t.transactionType
  currencyUnit := t.currencyUnit
  transactionStatus := t.transactionStatus
  transactionFrom := t.transactionFrom
  transactionTo := t.transactionTo
  transactionTime := some t.transactionTime

/-- Insert under the primary key; what other constraints refuse is a fault of the step. -/
def TransactionTable.insert (S : TransactionTable) (db : Database) (row : TransactionRow) :
    Except Throwable TransactionTable :=
  if h : row.transactionId ∈ S.rows.map TransactionRow.transactionId then .error db.refusal
  else .ok {
    rows := S.rows ++ [row]
    primaryKey := by
      simp only [List.map_append,List.map_cons,List.map_nil]
      exact List.Nodup.append S.primaryKey (List.nodup_singleton _) (by simpa using h)}

theorem TransactionTable.insert_fresh {S : TransactionTable} (db : Database) (row : TransactionRow)
    (h : row.transactionId ∉ S.rows.map TransactionRow.transactionId) :
    ∃ U, S.insert db row = .ok U ∧ U.rows = S.rows ++ [row] := by
  simp [TransactionTable.insert,h]

theorem TransactionTable.insert_known {S : TransactionTable} (db : Database) {row : TransactionRow}
    (h : row.transactionId ∈ S.rows.map TransactionRow.transactionId) :
    S.insert db row = .error db.refusal := by
  simp only [TransactionTable.insert,h,dite_true]

def putTransaction (db : Database) (occasion : Occasion) (t : BankTransaction L)
    (S : TransactionTable) : Except Throwable Bool × TransactionTable :=
  commitWrite occasion (fun S => S.insert db (savedTransactionRow db occasion t)) S

end Save

/-- In which order the database yields the rows of a join is its own affair. -/
structure Plan where
  order : List TransactionRow → List TransactionRow
  perm : ∀ rows, (order rows).Perm rows

/-- What one listing meets: the plan of its query, the time at which the entity of an id
is filled, a failure of the query, one of the commit, and what the rollback throws after
either. An entity is filled once for all rows with its id. -/
structure Listing where
  plan : Plan
  clock : UUID → Millis
  queryFault : Option Throwable
  commitFault : Option Throwable
  rollbackFault : Option Throwable

section Service

variable {L : Libs}

def Listing.list (o : Listing) (S : TransactionTable) (T : Table) :
    Except Throwable (List (BankTransaction L)) :=
  match o.queryFault with
  | some e => .error e
  | none => ((o.plan.order (sqlGetAccountsInTransaction S.rows T)).take 50).mapM fun tt =>
      hydrateTransaction (o.clock tt.transactionId) tt

/-- The handler of a listing logs and rolls back; what was listed until then is returned. -/
def Listing.recover (o : Listing) (listOfBankTranscations : Option (List (BankTransaction L))) :
    Except Throwable (Option (List (BankTransaction L))) :=
  match o.rollbackFault with
  | some e => .error e
  | none => .ok listOfBankTranscations

/-- `TransactionServiceImpl.getAllTransactions`; `none` is the null reference. -/
def getAllTransactions (o : Listing) (S : TransactionTable) (T : Table) :
    Except Throwable (Option (List (BankTransaction L))) :=
  match o.list S T with
  | .error _ => o.recover none
  | .ok list =>
    match o.commitFault with
    | some _ => o.recover (some list)
    | none => .ok (some list)

def Listing.Works (o : Listing) : Prop :=
  o.queryFault = none ∧ (o.commitFault = none ∨ o.rollbackFault = none)

instance (o : Listing) : Decidable o.Works := inferInstanceAs (Decidable (_ ∧ _))

theorem getAllTransactions_ok {o : Listing} {S : TransactionTable} {T : Table}
    {list : List (BankTransaction L)} :
    getAllTransactions o S T = .ok (some list) ↔ o.Works ∧
      ((o.plan.order (sqlGetAccountsInTransaction S.rows T)).take 50).mapM (fun tt =>
        hydrateTransaction (o.clock tt.transactionId) tt) = .ok list := by
  cases hq : o.queryFault with
  | some e =>
    cases hr : o.rollbackFault <;>
      simp [getAllTransactions,Listing.list,Listing.Works,Listing.recover,hq,hr]
  | none =>
    generalize hl : ((o.plan.order (sqlGetAccountsInTransaction S.rows T)).take 50).mapM (fun tt =>
      hydrateTransaction (L := L) (o.clock tt.transactionId) tt) = filled
    cases hc : o.commitFault <;> cases hr : o.rollbackFault <;> cases filled <;>
      simp [getAllTransactions,Listing.list,Listing.Works,Listing.recover,hq,hc,hr,hl]

end Service

end HomeRest
