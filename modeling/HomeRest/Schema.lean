import HomeRest.Ledger
import HomeRest.NonNegative

/-! The schema that Hibernate generates for `bank_account`.
A generated column is under a constraint only if the mapping declares it. The session
factory reads `account.hbm.xml` alone: neither the annotations of the entity nor the
migration scripts, which both make `account_number` a key. -/
namespace HomeRest

open AtomicProgram

variable {L : Libs}

inductive Column
  | accountId | currentBalance | accountStatus | accountNumber | currencyUnit | dateUpdated
  deriving DecidableEq

def Row.sameIn (column : Column) (r s : Row) : Bool :=
  match column with
  | .accountId => r.accountId == s.accountId
  | .currentBalance => r.currentBalance.isSome && r.currentBalance == s.currentBalance
  | .accountStatus => r.accountStatus.isSome && r.accountStatus == s.accountStatus
  | .accountNumber => sqlEq r.accountNumber s.accountNumber
  | .currencyUnit => sqlEq r.currencyUnit s.currencyUnit
  | .dateUpdated => r.dateUpdated.isSome && r.dateUpdated == s.dateUpdated

def Row.isNull (column : Column) (r : Row) : Bool :=
  match column with
  | .accountId => false
  | .currentBalance => r.currentBalance.isNone
  | .accountStatus => r.accountStatus.isNone
  | .accountNumber => r.accountNumber.isNone
  | .currencyUnit => r.currencyUnit.isNone
  | .dateUpdated => r.dateUpdated.isNone

structure Property where
  name : String
  column : Column
  unique : Bool
  notNull : Bool

/-- A mapped class: the column of the primary key, and the other properties. -/
structure Mapping where
  id : Column
  properties : List Property

/-- `account.hbm.xml`: no element says `unique` or `not-null`. -/
def accountMapping : Mapping where
  id := .accountId
  properties := [
    ⟨"currentBalance",.currentBalance,false,false⟩,
    ⟨"accountStatus",.accountStatus,false,false⟩,
    ⟨"accountNumber",.accountNumber,false,false⟩,
    ⟨"currencyUnit",.currencyUnit,false,false⟩,
    ⟨"updateAt",.dateUpdated,false,false⟩]

/-- What the `@Column` annotations of the entity say. -/
def annotatedMapping : Mapping where
  id := .accountId
  properties := [
    ⟨"currentBalance",.currentBalance,false,false⟩,
    ⟨"accountStatus",.accountStatus,false,false⟩,
    ⟨"accountNumber",.accountNumber,true,true⟩,
    ⟨"updateAt",.dateUpdated,false,false⟩,
    ⟨"currencyUnit",.currencyUnit,false,true⟩]

namespace Mapping

variable (m : Mapping)

def accepts (row : Row) (T : Table) : Bool :=
  (T.all fun r => !r.sameIn m.id row) && m.properties.all fun p =>
    (!p.unique || T.all fun r => !r.sameIn p.column row) && (!p.notNull || !row.isNull p.column)

def generate (db : Database) : Database := {db with accepts := m.accepts}

def DeclaresUnique (column : Column) : Prop :=
  ∃ p ∈ m.properties, p.column = column ∧ p.unique = true

theorem accepts_unique {column : Column} (h : m.DeclaresUnique column) {row : Row} {T : Table}
    (hacc : m.accepts row T = true) : ∀ r ∈ T, r.sameIn column row = false := by
  obtain ⟨p,hp,rfl,hunique⟩ := h
  simp only [accepts,Bool.and_eq_true,List.all_eq_true] at hacc
  have hcolumn := (hacc.2 p hp).1
  simpa [hunique] using hcolumn

end Mapping

theorem accountMapping_accepts (row : Row) (T : Table) :
    accountMapping.accepts row T = T.all fun r => !r.accountId == row.accountId := by
  simp [Mapping.accepts,accountMapping,Row.sameIn]

/-- A step that inserts a row inserts a number that no stored row has. -/
def BringsNewNumber (db : Database) : StoreCall L → Table → Prop
  | .putAccount occasion a, T =>
    occasion.fault = none → db.accepts (savedRow db occasion a) T = true →
      ∀ r ∈ T, sqlEq r.accountNumber a.accountNumber = false
  | _, _ => True

def changedRows (T T' : Table) : ℕ := (T.zip T').countP fun p => p.1 != p.2

section Steps

variable {db : Database} {T : Table}

theorem changedRows_map (f : Row → Row) (T : Table) :
    changedRows T (T.map f) = T.countP fun r => r != f r := by
  induction T with
  | nil => rfl
  | cons r T ih =>
    simp only [changedRows] at ih
    simp only [changedRows,List.map_cons,List.zip_cons_cons,List.countP_cons,ih]

theorem changedRows_update (a : BankAccount L) (T : Table) :
    changedRows T (sqlUpdateAccountsByNumber db a T) ≤
      (sqlGetAccountsByNumber a.accountNumber T).length := by
  rw [sqlUpdateAccountsByNumber,changedRows_map,sqlGetAccountsByNumber,← List.countP_eq_length_filter]
  apply List.countP_mono_left
  intro r _ hr
  by_contra hn
  simp [hn] at hr

/-- Under unique numbers, `updateAccount` changes at most one row. -/
theorem UniqueNumbers.updateAccount (hu : UniqueNumbers T) (occasion : Occasion) (a : BankAccount L) :
    changedRows T (updateAccount db occasion a T).2 ≤ 1 := by
  rw [updateAccount_eq]
  by_cases hf : occasion.fault = none
  · have hone : (sqlGetAccountsByNumber a.accountNumber T).length ≤ 1 := by
      rcases hu.cases a.accountNumber with h | ⟨r,h⟩ <;> simp [h]
    rw [Occasion.commits_none hf]
    exact (changedRows_update a T).trans hone
  · have hnone : changedRows T T = 0 := by simpa using changedRows_map id T
    simp [Occasion.commits,hf,hnone]

theorem identities_serve_update (occasion : Occasion) (a : BankAccount L) :
    (serve db (.updateAccount occasion a) T).2.identities = T.identities := by
  have hset : ∀ r, (updatedRow db a r).identity = r.identity := fun _ => rfl
  simp only [serve_updateAccount,Occasion.commits]
  split_ifs
  · rw [sqlUpdateAccountsByNumber_eq]
    exact identities_updateWhere hset _ T
  · rfl

theorem identities_serve_close (occasion : Occasion) (t : BankTransaction L) :
    (serve db (.closeTransaction occasion t) T).2.identities = T.identities := by
  simp only [serve_closeTransaction,Occasion.commits]
  split_ifs
  · exact identities_close _ _ _ T
  · rfl

theorem serve_uniqueNumbers (op : StoreCall L) (T : Table) (hu : UniqueNumbers T) :
    UniqueNumbers (serve db op T).2 ↔ BringsNewNumber db op T := by
  cases op with
  | getAccountByNumber occasion n => exact iff_of_true hu trivial
  | updateAccount occasion a =>
    exact iff_of_true (hu.of_identities (identities_serve_update occasion a)) trivial
  | closeTransaction occasion t =>
    exact iff_of_true (hu.of_identities (identities_serve_close occasion t)) trivial
  | putAccount occasion a =>
    rw [serve_putAccount,BringsNewNumber]
    split_ifs with h
    · have hpair : UniqueNumbers (T ++ [savedRow db occasion a]) ↔
          ∀ r ∈ T, sqlEq r.accountNumber a.accountNumber = false := by
        simp only [UniqueNumbers] at hu ⊢
        simp [List.pairwise_append,hu,savedRow]
      rw [hpair]
      exact ⟨fun hnew _ _ => hnew,fun hnew => hnew h.1 h.2⟩
    · exact iff_of_true hu fun hf hacc => absurd ⟨hf,hacc⟩ h

theorem bringsNewNumber_declared {m : Mapping} (h : m.DeclaresUnique .accountNumber)
    (op : StoreCall L) (T : Table) : BringsNewNumber (m.generate db) op T := by
  cases op with
  | putAccount occasion a => exact fun _ hacc r hr => m.accepts_unique h hacc r hr
  | _ => trivial

end Steps

section Run

variable {ι : Type} [DecidableEq ι]

def reached (db : Database) (calls : ι → Call L) (schedule : List ι) : Table :=
  ((startCalls [] calls).runs (serve db) schedule).shared

theorem uniqueNumbers_nil : UniqueNumbers [] := List.Pairwise.nil

/-- Had the mapping the constraint of the annotation, the numbers would stay unique. -/
theorem uniqueNumbers_declared (db : Database) {m : Mapping} (h : m.DeclaresUnique .accountNumber)
    (calls : ι → Call L) (schedule : List ι) :
    UniqueNumbers (reached (m.generate db) calls schedule) := by
  apply Config.runs_invariant (I := UniqueNumbers) _ _ _ uniqueNumbers_nil
  intro op T hu
  exact (serve_uniqueNumbers op T hu).mpr (bringsNewNumber_declared h op T)

example (db : Database) (calls : ι → Call L) (schedule : List ι) :
    UniqueNumbers (reached (annotatedMapping.generate db) calls schedule) :=
  uniqueNumbers_declared db ⟨⟨"accountNumber",.accountNumber,true,true⟩,by simp [annotatedMapping],
    rfl,rfl⟩ calls schedule

/-- From the empty table, the numbers stay unique, and every update within one row, exactly
as long as no account is inserted under a number that is there. -/
theorem accountNumbers_unique (db : Database) (calls : ι → Call L) (schedule : List ι) :
    (∀ before, before <+: schedule →
      UniqueNumbers (reached (accountMapping.generate db) calls before) ∧
      ∀ (occasion : Occasion) (a : BankAccount L),
        changedRows (reached (accountMapping.generate db) calls before)
          (updateAccount (accountMapping.generate db) occasion a
            (reached (accountMapping.generate db) calls before)).2 ≤ 1) ↔
    (startCalls [] calls).Obeys (serve (accountMapping.generate db))
      (BringsNewNumber (accountMapping.generate db)) schedule := by
  have hstep : ∀ (op : StoreCall L) (T : Table), UniqueNumbers T →
      (UniqueNumbers (serve (accountMapping.generate db) op T).2 ↔
        BringsNewNumber (accountMapping.generate db) op T) := serve_uniqueNumbers
  rw [← Config.runs_guarded _ hstep (startCalls [] calls) uniqueNumbers_nil schedule]
  constructor
  · exact fun h before hbefore => (h before hbefore).1
  · exact fun h before hbefore => ⟨h before hbefore,(h before hbefore).updateAccount⟩

end Run

namespace Sample

def sameNumber (late : Bool) : Call libs :=
  .putAccount ⟨none,100,if late then 2 else 1⟩
    (account 0 iban₁ (if late then 5 else 100) valid₁)

end Sample

open Sample in
/-- Both are inserted, and one update changes both. -/
theorem accountNumbers_collide :
    ¬ UniqueNumbers (reached (accountMapping.generate database) sameNumber [false,true]) ∧
    changedRows (reached (accountMapping.generate database) sameNumber [false,true])
      (updateAccount (accountMapping.generate database) ⟨none,200,0⟩
        (account 0 iban₁ 70 valid₁)
        (reached (accountMapping.generate database) sameNumber [false,true])).2 = 2 := by
  decide +kernel

end HomeRest
