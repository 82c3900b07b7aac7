import HomeRest.Transfer

/-! `TransactionServiceImpl.processTransaction`: the transfer functor, then the closing
functor, each with its own slot for an exception, inside a wrapper with a third slot. -/
namespace HomeRest

open AtomicProgram

variable {L : Libs}

def lockGet (env : Env) (get : WeakGet) : Code L Unit :=
  if env.cleared get then .raise .nullPointer else .ret ()

def callCloseTransaction (env : Env) (t : BankTransaction L) : Code L Bool :=
  Program.perform (StoreCall.closeTransaction (env.occasion .close) t)

namespace FunctorBiConsumeService4Accounts

/-- The `try` block of `accept`. The result, which the source drops, tells whether
`transactInAccounts` was reached and returned. -/
def consume (env : Env) (t : BankTransaction L) : Code L (Option (List (BankAccount L))) := do
  lockGet env .accountsLock
  match ← callGetAccountByNumber env .lookupFrom t.transactionFrom with
  | none =>
    lockGet env .accountsUnlock
    return none
  | some foundFrom =>
    let accountFrom ← if isNotBlank foundFrom.accountNumber then do
        logAccount (env.occasion .lookupFrom).now foundFrom
        pure (some foundFrom)
      else pure none
    match ← callGetAccountByNumber env .lookupTo t.transactionTo with
    | none => .raise (.plain .noSuchElement (.text "No value present"))
    | some accountTo =>
      if isNotBlank accountTo.accountNumber then
        match accountFrom with
        | some accountFrom =>
          let result ← transactInAccounts env t [accountFrom,accountTo]
          logAccount (env.occasion .lookupTo).now accountFrom
          logAccount (env.occasion .lookupTo).now accountTo
          return some result
        | none =>
          logAccount (env.occasion .lookupTo).now accountTo
          return none
      else return none

/-- Whatever is thrown ends in the slot; the result is the slot. -/
def accept (env : Env) (t : BankTransaction L) : Code L Throwable :=
  (consume env t).cont (fun _ => .ret .blank) fun e => do
    lockGet env .accountsUnlock
    return e

end FunctorBiConsumeService4Accounts

namespace FunctorBiConsumeService4Transactions

def accept (env : Env) (t : BankTransaction L) : Code L Throwable :=
  Program.handle (do
    lockGet env .transactionsLock
    let _ ← callCloseTransaction env t
    return .blank)
    fun e => do
      lockGet env .transactionsUnlock
      return e

end FunctorBiConsumeService4Transactions

namespace ConcurrencyAccess

/-- Copy the slot of a functor, held by a weak reference, over the slot of the wrapper. -/
def adopt (env : Env) (get getAgain : WeakGet) (slot : Throwable) (exception : Option Throwable) :
    Code L (Option Throwable) :=
  if env.cleared get then .ret exception
  else match exception with
    | none => .raise .nullPointer
    | some _ => .ret (if env.cleared getAgain then none else some slot)

/-- Both functors run, one after the other; a failure of either is only logged. -/
def runFunctors (env : Env) (t : BankTransaction L) : Code L (Option Throwable) := do
  let exception ← Program.handle (do
    let slot ← FunctorBiConsumeService4Accounts.accept env t
    adopt env .accountsException .accountsExceptionAgain slot (some .blank))
    fun _ => .ret (some .blank)
  Program.handle (do
    let slot ← FunctorBiConsumeService4Transactions.accept env t
    adopt env .transactionsException .transactionsExceptionAgain slot exception)
    fun _ => .ret exception

/-- `run()`; the result is the slot that `getException` reads. -/
def run (env : Env) (t : BankTransaction L) : Code L (Option Throwable) :=
  Program.handle (do
    Program.ofExcept ((t.toStringCopy (env.occasion .lookupFrom).now).map fun _ => ())
    lockGet env .wrapperLock
    runFunctors env t)
    fun e => .ret (some (.caused .exception e.message .blank))

end ConcurrencyAccess

/-- A transaction that is neither credit nor debit dereferences the missing wrapper. -/
def processTransaction (env : Env) (t : BankTransaction L) : Code L (Option Throwable) := do
  let returned ← Program.handle (do
    if (← Program.ofExcept t.isDebit) || (← Program.ofExcept t.isCredit) then
      let exception ← ConcurrencyAccess.run env t
      return some exception
    else return none)
    fun e => .ret (some (some e))
  match returned with
  | some exception => return exception
  | none => .raise .nullPointer

def process (db : Database) (env : Env) (t : BankTransaction L) (T : Table) :
    Except Throwable (Option Throwable) × Table :=
  (processTransaction env t).run (serve db) T

/-! ### Accounts of the migration scripts, for concrete runs -/

namespace Sample

/-- A column that keeps what is written, under the unique key on the account number. The
flush of the commit throws a violation wrapped. -/
def database : Database where
  decimal := id
  decimal_nonneg _ h := h
  accepts row T := T.all fun r => !sqlEq r.accountNumber row.accountNumber
  refusal := .caused .persistence
    (.text "org.hibernate.exception.ConstraintViolationException: could not execute statement")
    (.plain .constraintViolation (.text "could not execute statement"))

def row (accountId : UUID) (number : String) (balance : ℚ) : Row where
  accountId := accountId
  currentBalance := some balance
  accountStatus := none
  accountNumber := some number
  currencyUnit := some "EUR"
  dateUpdated := some accountId.toNat

def transfer (type : Int8) (thousandths : ℕ) (transactionFrom transactionTo : String) :
    BankTransaction libs where
  id := some 0
  transactionAmount := some ((thousandths : ℚ)/1000)
  transactionType := some type
  transactionTime := 0
  currencyUnit := some "EUR"
  transactionStatus := some 0
  transactionFrom := some transactionFrom
  transactionTo := some transactionTo
  amount_nonneg := by
    simp only [Option.mem_def,Option.some.injEq,forall_eq']
    positivity
  currency_known := euro_known

/-- The clock shows `now` at every step, and the given steps fail. -/
def env (now : Millis) (fault : Site → Option Throwable) : Env where
  occasion site := ⟨fault site,now,0⟩
  cleared _ := false

theorem env_sound (now : Millis) : (env now fun _ => none).Sound := fun _ => rfl
theorem env_uncleared (now : Millis) (fault : Site → Option Throwable) :
    (env now fault).Uncleared := fun _ => rfl

def twoRows : Table := [row 1 iban₁ 100,row 2 iban₂ 5]

theorem twoRows_from : sqlGetAccountsByNumber (some iban₁) twoRows = [row 1 iban₁ 100] := by
  decide +kernel
theorem twoRows_to : sqlGetAccountsByNumber (some iban₂) twoRows = [row 2 iban₂ 5] := by
  decide +kernel

def outOfRange : Throwable := .plain .hibernate (.text "could not execute statement")

end Sample

/-- A transfer to the account itself creates money. -/
example : (process Sample.database (Sample.env 100 fun _ => none)
    (Sample.transfer 1 30000 Sample.iban₁ Sample.iban₁) [Sample.row 1 Sample.iban₁ 100]).2.map
      Row.currentBalance = [some 160] := by decide +kernel

end HomeRest
