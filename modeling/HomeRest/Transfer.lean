import HomeRest.Store

/-! `AccountServiceImpl.transactInAccounts`.
The two accounts are visited one after the other; one of the passes reads both rows
again, computes both balances and writes both rows in two separate steps. -/
namespace HomeRest

open AtomicProgram

/-- The points of one `processTransaction` call that meet the store or the clock, in the
order of the source. The loop of `transactInAccounts` numbers its passes from 0. -/
inductive Site
  | lookupFrom | lookupTo
  | loop (pass : ℕ)
  | branchFrom (pass : ℕ) | stampFrom (pass : ℕ) | balanceFrom (pass : ℕ)
  | branchTo (pass : ℕ) | stampTo (pass : ℕ) | balanceTo (pass : ℕ)
  | updateFrom (pass : ℕ) | updateTo (pass : ℕ)
  | close
  deriving DecidableEq

/-- The `WeakReference.get()` calls of one `processTransaction` call. -/
inductive WeakGet
  | wrapperLock
  | accountsLock | accountsUnlock | accountsException | accountsExceptionAgain
  | transactionsLock | transactionsUnlock | transactionsException | transactionsExceptionAgain
  deriving DecidableEq

/-- What one call meets at run time. The locks are fresh objects and free, so acquiring
one succeeds; a cleared reference yields null. -/
structure Env where
  occasion : Site → Occasion
  cleared : WeakGet → Bool

/-- No store step of the call fails. -/
def Env.Sound (env : Env) : Prop := ∀ site, (env.occasion site).fault = none

/-- No weak reference of the call is cleared. -/
def Env.Uncleared (env : Env) : Prop := ∀ get, env.cleared get = false

section Java

variable {α : Type}

def contentEquals : Option String → Option String → Except Throwable Bool
  | some s, some t => .ok (s == t)
  | _, _ => .error .nullPointer

def optionalGet : Option α → Except Throwable α
  | some a => .ok a
  | none => .error (.plain .noSuchElement (.text "No value present"))

def nonNull : Option α → Except Throwable α
  | some a => .ok a
  | none => .error .nullPointer

def orNull : Option String → String
  | some s => s
  | none => "null"

end Java

variable {L : Libs}

def callGetAccountByNumber (env : Env) (site : Site) (number : Option String) :
    Code L (Option (BankAccount L)) :=
  Program.perform (StoreCall.getAccountByNumber (env.occasion site) number)

def callUpdateAccount (env : Env) (site : Site) (a : BankAccount L) : Code L Bool :=
  Program.perform (StoreCall.updateAccount (env.occasion site) a)

/-- A log line with the account in it calls `toString`, which may throw. -/
def logAccount (now : Millis) (a : BankAccount L) : Code L Unit :=
  Program.ofExcept ((a.toStringCopy now).map fun _ => ())

/-- The accounts and the transaction must be in one currency. The third argument of the
first `String.format` is the intended cause: it is not attached. -/
def currencyGuard (balanceFrom balanceTo : BankAccount L) (t : BankTransaction L) :
    Except Throwable Unit := do
  if ← contentEquals balanceFrom.currencyUnit balanceTo.currencyUnit then
    if ← contentEquals balanceFrom.currencyUnit t.currencyUnit then
      return ()
    else
      throw (.plain .bankTransactionProcessing (.text
        (" Bank transaction requested is in different Currency: " ++ orNull t.currencyUnit ++
          " and (" ++ orNull balanceFrom.currencyUnit ++ ")")))
  else
    throw (.caused .bankTransactionProcessing (.text
      (" Bank accounts are found in different Currency: " ++ orNull balanceFrom.accountNumber ++
        " (" ++ orNull balanceFrom.currencyUnit ++ ") and " ++ orNull balanceTo.accountNumber ++
        " (" ++ orNull balanceTo.currencyUnit ++ ")"))
      (.plain .currencyAmount (.text
        "Current implementation does not foreign currencies. Rollbacked.")))

inductive Branch
  | credit | debit | sameAccount | skip
  deriving DecidableEq

/-- The alternatives of a pass, tried in the order of the source. -/
def chooseBranch (t : BankTransaction L) (account : BankAccount L) : Except Throwable Branch := do
  let credit ← if ← t.isCredit then contentEquals t.transactionFrom account.accountNumber
    else pure false
  if credit then return .credit
  let debit ← if ← t.isDebit then contentEquals t.transactionTo account.accountNumber
    else pure false
  if debit then return .debit
  if ← contentEquals t.transactionFrom t.transactionTo then return .sameAccount
  return .skip

/-- `balance.add( amount.multiply( sign( type ) ) )`, refused below zero. -/
def newBalance (t : BankTransaction L) (account : BankAccount L) (sign : ℚ → ℚ)
    (complaint : String) : Except Throwable ℚ := do
  let balance ← nonNull account.currentBalance
  let amount ← nonNull t.transactionAmount
  let type ← nonNull t.transactionType
  let new := balance + amount * sign (type.toInt : ℚ)
  if new < 0 then
    throw (.caused .bankTransactionProcessing (.decimal new complaint)
      (.plain .currencyAmount (.text
        "Current implementation does not allow negative amounts. Rollbacked. ")))
  return new

/-- One side of a transfer: read the row again, mark it in process, set the new balance. -/
def readSide (env : Env) (t : BankTransaction L) (number : Option String) (status : ℤ)
    (read stamp balance : Site) (sign : ℚ → ℚ) (complaint : String) : Code L (BankAccount L) := do
  let side ← Program.ofExcept (optionalGet (← callGetAccountByNumber env read number))
  logAccount (env.occasion read).now side
  let side := (side.setAccountStatus (some status)).setUpdateAt none (env.occasion stamp).now
  let new ← Program.ofExcept (newBalance t side sign complaint)
  Program.ofExcept (side.setCurrentBalance (some new) (env.occasion balance).now)

/-- The `try` block of a branch. Status 10 is outgoing, 20 incoming. -/
def transferBlock (env : Env) (pass : ℕ) (t : BankTransaction L) (account : BankAccount L)
    (signFrom signTo : ℚ → ℚ) (complaintFrom complaintTo : String) :
    Code L (BankAccount L × BankAccount L) :=
  Program.handle (do
    let balanceFrom ← readSide env t t.transactionFrom 10 (.branchFrom pass) (.stampFrom pass)
      (.balanceFrom pass) signFrom complaintFrom
    let balanceTo ← readSide env t t.transactionTo 20 (.branchTo pass) (.stampTo pass)
      (.balanceTo pass) signTo complaintTo
    logAccount (env.occasion (.updateFrom pass)).now balanceFrom
    let _ ← callUpdateAccount env (.updateFrom pass) balanceFrom
    logAccount (env.occasion (.updateTo pass)).now balanceTo
    let _ ← callUpdateAccount env (.updateTo pass) balanceTo
    return (balanceFrom,balanceTo))
    fun e => .raise (.caused .bankTransactionProcessing (.text
      ("Account " ++ orNull account.accountNumber ++ " update failed. ")) e)

def creditBranch (env : Env) (pass : ℕ) (t : BankTransaction L) (account : BankAccount L) :
    Code L (BankAccount L × BankAccount L) := do
  logAccount (env.occasion (.loop pass)).now account
  transferBlock env pass t account (fun type => -type) (fun type => type)
    " is negative." " is a negative number"

def debitBranch (env : Env) (pass : ℕ) (t : BankTransaction L) (account : BankAccount L) :
    Code L (BankAccount L × BankAccount L) := do
  logAccount (env.occasion (.loop pass)).now account
  transferBlock env pass t account (fun type => type) (fun type => -type)
    " is a negative number." " is negative."

/-- The loop over the collection; `balanceFrom` and `balanceTo` are the local variables. -/
def transactLoop (env : Env) (t : BankTransaction L) :
    ℕ → List (BankAccount L) → BankAccount L → BankAccount L → Code L (List (BankAccount L))
  | _, [], balanceFrom, balanceTo => return [balanceFrom,balanceTo]
  | pass, forIteratedIDsOnly :: rest, balanceFrom, balanceTo => do
    let account ← Program.ofExcept (optionalGet
      (← callGetAccountByNumber env (.loop pass) forIteratedIDsOnly.accountNumber))
    Program.ofExcept (currencyGuard balanceFrom balanceTo t)
    match ← Program.ofExcept (chooseBranch t account) with
    | .credit =>
      let (balanceFrom,balanceTo) ← creditBranch env pass t account
      transactLoop env t (pass+1) rest balanceFrom balanceTo
    | .debit =>
      let (balanceFrom,balanceTo) ← debitBranch env pass t account
      transactLoop env t (pass+1) rest balanceFrom balanceTo
    | .sameAccount => .raise (.plain .bankTransactionProcessing (.text
        "There should be Currencies implemented for this transaction. Not in this MVP."))
    | .skip => transactLoop env t (pass+1) rest balanceFrom balanceTo

/-- The collection holds the account that is debited and the one that is credited. -/
def transactInAccounts (env : Env) (t : BankTransaction L) (collection : List (BankAccount L)) :
    Code L (List (BankAccount L)) :=
  match collection with
  | balanceFrom :: balanceTo :: _ => transactLoop env t 0 collection balanceFrom balanceTo
  | _ => .raise (.plain .indexOutOfBounds .null)

end HomeRest
