import Mathlib.Data.Rat.Defs
import Mathlib.Algebra.Order.Ring.Rat
import Mathlib.Tactic

/-! The entities and the exceptions they throw.
A `BigDecimal` is its numeric value: `add`, `multiply`, `negate` and `compareTo` are
exact and see nothing else. An unset reference is `none`. Every entity is filled by
its setters, so what a setter checks is a field of the structure. -/
namespace HomeRest

abbrev UUID := BitVec 128
abbrev Millis := ℤ

inductive ThrowableClass
  | exception | nullPointer | classCast | indexOutOfBounds | noSuchElement | runtime
  | hibernate | propertyAccess | constraintViolation | persistence
  | monetary | unknownCurrency | ibanFormat
  | currencyAmount | currencyCode | bankAccountData | bankTransactionData
  | bankTransactionProcessing | jsonMapping
  deriving DecidableEq

/-- `getMessage()`; a decimal at the front of a text is kept as its value. -/
inductive Message
  | null
  | text (s : String)
  | decimal (d : ℚ) (s : String)
  deriving DecidableEq

inductive Throwable
  | plain (cls : ThrowableClass) (message : Message)
  | caused (cls : ThrowableClass) (message : Message) (cause : Throwable)
  deriving DecidableEq

def isWhitespace (c : Char) : Bool :=
  c.toNat ∈ [0x9,0xA,0xB,0xC,0xD,0x1C,0x1D,0x1E,0x1F,0x20,0x1680,0x180E,0x2000,0x2001,0x2002,
    0x2003,0x2004,0x2005,0x2006,0x2008,0x2009,0x200A,0x2028,0x2029,0x205F,0x3000]

/-- `StringUtils.isNotBlank`; `none` is the null reference. -/
def isNotBlank : Option String → Bool
  | none => false
  | some s => s.toList.any fun c => !isWhitespace c

def Message.isNotBlank : Message → Bool
  | .null => false
  | .text s => HomeRest.isNotBlank (some s)
  | .decimal _ _ => true

theorem bind_ok {ε α β : Type} {x : Except ε α} {f : α → Except ε β} {b : β} :
    (x >>= f) = .ok b ↔ ∃ a, x = .ok a ∧ f a = .ok b := by
  cases x <;> simp [bind,Except.bind]

namespace Throwable

def cls : Throwable → ThrowableClass
  | .plain c _ => c
  | .caused c _ _ => c

def message : Throwable → Message
  | .plain _ m => m
  | .caused _ m _ => m

/-- `new Exception( "" )`, with which every outcome slot starts. -/
def blank : Throwable := .plain .exception (.text "")

def nullPointer : Throwable := .plain .nullPointer .null

@[simp] theorem message_blank : blank.message.isNotBlank = false := by decide

end Throwable

/-- The parts of iban4j and javax.money that the setters rely on. -/
structure Libs where
  /-- `IbanUtil.validate` returns. -/
  validIban : String → Bool
  /-- Otherwise the message of what it throws; the classes of iban4j are one. -/
  ibanMessage : Option String → String
  /-- `Monetary.getCurrency( c ).getCurrencyCode()`; `none` when it throws. -/
  currencyCode : String → Option String
  currencyCode_eq : ∀ c u, currencyCode c = some u → u = c
  /-- `Currency.getInstance( Locale.GERMANY )` is a currency of javax.money. -/
  euro : currencyCode "EUR" = some "EUR"

def Libs.invalidIban (L : Libs) (n : Option String) : Throwable :=
  .plain .ibanFormat (.text (L.ibanMessage n))

@[ext] structure BankAccount (L : Libs) where
  id : UUID
  currentBalance : Option ℚ
  accountStatus : Option ℤ
  accountNumber : Option String
  currencyUnit : Option String
  updateAt : Millis
  balance_nonneg : ∀ b ∈ currentBalance, 0 ≤ b
  number_valid : ∀ n ∈ accountNumber, L.validIban n = true
  currency_known : ∀ c ∈ currencyUnit, L.currencyCode c = some c
  deriving DecidableEq

namespace BankAccount

variable {L : Libs}

def new (randomId : UUID) (now : Millis) : BankAccount L where
  id := randomId
  currentBalance := none
  accountStatus := none
  accountNumber := none
  currencyUnit := none
  updateAt := now
  balance_nonneg := by simp
  number_valid := by simp
  currency_known := by simp

def setId (id : UUID) (a : BankAccount L) : BankAccount L := {a with id := id}

def setCurrencyUnit (currencyUnit : Option String) (a : BankAccount L) :
    Except Throwable (BankAccount L) :=
  match currencyUnit with
  | none => .error (.plain .currencyCode (.text "Currency code is not specified."))
  | some c =>
    match h : L.currencyCode c with
    | none => .error (.caused .currencyCode (.text "Currency code validation error.")
        (.plain .unknownCurrency (.text ("Unknown currency code: " ++ c))))
    | some u => .ok {a with
        currencyUnit := some u
        currency_known := by
          have hu := L.currencyCode_eq c u h
          subst hu
          simpa using h}

/-- Null stands for the current time. -/
def setUpdateAt (updateAt : Option Millis) (now : Millis) (a : BankAccount L) : BankAccount L :=
  {a with updateAt := updateAt.getD now}

/-- Setting the balance also resets the time stamp. -/
def setCurrentBalance (currentBalance : Option ℚ) (now : Millis) (a : BankAccount L) :
    Except Throwable (BankAccount L) :=
  match currentBalance with
  | none => .error (.plain .monetary
      (.text "Cannot create an MonetaryAmount instance: missing number."))
  | some b =>
    if h : b < 0 then
      .error (.plain .currencyAmount (.text
        "Current Overdraft implementation does not allow negative amounts. Rollbacked."))
    else .ok {a.setUpdateAt none now with
      currentBalance := some b
      balance_nonneg := by simpa using h}

def setAccountStatus (accountStatus : Option ℤ) (a : BankAccount L) : BankAccount L :=
  {a with accountStatus := accountStatus}

def setAccountNumber (accountNumber : Option String) (a : BankAccount L) :
    Except Throwable (BankAccount L) :=
  match accountNumber with
  | none => .error (L.invalidIban none)
  | some n =>
    if h : L.validIban n = true then .ok {a with
      accountNumber := some n
      number_valid := by simpa using h}
    else .error (L.invalidIban (some n))

/-- The fresh account that `toString` fills and hands to Jackson. -/
def toStringCopy (now : Millis) (a : BankAccount L) : Except Throwable (BankAccount L) := do
  let account : BankAccount L := new a.id now
  let account ← account.setAccountNumber a.accountNumber
  let account := account.setAccountStatus a.accountStatus
  let account ← account.setCurrencyUnit a.currencyUnit
  let account ← account.setCurrentBalance a.currentBalance now
  let account := account.setId a.id
  return account.setUpdateAt none now

structure Complete (a : BankAccount L) : Prop where
  balance : ∃ b, a.currentBalance = some b
  number : ∃ n, a.accountNumber = some n
  currency : ∃ c, a.currencyUnit = some c

theorem setCurrentBalance_ok {v : Option ℚ} {now : Millis} {a a' : BankAccount L}
    (h : a.setCurrentBalance v now = .ok a') :
    (∃ b, v = some b ∧ 0 ≤ b) ∧ a'.currentBalance = v ∧ a'.updateAt = now ∧ a'.id = a.id ∧
      a'.accountStatus = a.accountStatus ∧ a'.accountNumber = a.accountNumber ∧
      a'.currencyUnit = a.currencyUnit := by
  cases v with
  | none => simp [setCurrentBalance] at h
  | some b =>
    simp only [setCurrentBalance] at h
    split at h
    · cases h
    · next hb =>
      cases h
      exact ⟨⟨b,rfl,not_lt.mp hb⟩,rfl,rfl,rfl,rfl,rfl,rfl⟩

theorem setCurrentBalance_nonneg {b : ℚ} (hb : 0 ≤ b) (now : Millis) (a : BankAccount L) :
    ∃ a', a.setCurrentBalance (some b) now = .ok a' := by
  simp [setCurrentBalance,not_lt.mpr hb]

theorem setAccountNumber_ok {v : Option String} {a a' : BankAccount L}
    (h : a.setAccountNumber v = .ok a') :
    (∃ n, v = some n ∧ L.validIban n = true) ∧ a'.accountNumber = v ∧ a'.id = a.id ∧
      a'.currentBalance = a.currentBalance ∧ a'.accountStatus = a.accountStatus ∧
      a'.currencyUnit = a.currencyUnit ∧ a'.updateAt = a.updateAt := by
  cases v with
  | none => simp [setAccountNumber] at h
  | some n =>
    simp only [setAccountNumber] at h
    split at h
    · next hn =>
      cases h
      exact ⟨⟨n,rfl,hn⟩,rfl,rfl,rfl,rfl,rfl,rfl⟩
    · cases h

theorem setAccountNumber_valid {n : String} (hn : L.validIban n = true) (a : BankAccount L) :
    ∃ a', a.setAccountNumber (some n) = .ok a' := by
  simp [setAccountNumber,hn]

theorem setCurrencyUnit_ok {v : Option String} {a a' : BankAccount L}
    (h : a.setCurrencyUnit v = .ok a') :
    (∃ c, v = some c ∧ L.currencyCode c = some c) ∧ a'.currencyUnit = v ∧ a'.id = a.id ∧
      a'.currentBalance = a.currentBalance ∧ a'.accountStatus = a.accountStatus ∧
      a'.accountNumber = a.accountNumber ∧ a'.updateAt = a.updateAt := by
  cases v with
  | none => simp [setCurrencyUnit] at h
  | some c =>
    simp only [setCurrencyUnit] at h
    split at h
    · cases h
    · next u hu =>
      have he : u = c := L.currencyCode_eq c u hu
      subst he
      cases h
      exact ⟨⟨u,rfl,hu⟩,rfl,rfl,rfl,rfl,rfl,rfl⟩

theorem setCurrencyUnit_known {c : String} (hc : L.currencyCode c = some c) (a : BankAccount L) :
    ∃ a', a.setCurrencyUnit (some c) = .ok a' := by
  simp only [setCurrencyUnit]
  split
  · next hn => simp [hc] at hn
  · exact ⟨_,rfl⟩

/-- Rendering fails on an unset field only: the setters of the copy accept what the
setters of the account accepted. -/
theorem toStringCopy_ok {a : BankAccount L} (h : a.Complete) (now : Millis) :
    ∃ copy, a.toStringCopy now = .ok copy := by
  obtain ⟨⟨b,hb⟩,⟨n,hn⟩,⟨c,hc⟩⟩ := h
  simp only [toStringCopy,hb,hn,hc,bind_ok,pure,Except.pure]
  obtain ⟨a₁,h₁⟩ := setAccountNumber_valid (a.number_valid n hn) (new a.id now)
  obtain ⟨a₂,h₂⟩ := setCurrencyUnit_known (a.currency_known c hc) (a₁.setAccountStatus a.accountStatus)
  obtain ⟨a₃,h₃⟩ := setCurrentBalance_nonneg (a.balance_nonneg b hb) now a₂
  exact ⟨_,a₁,h₁,a₂,h₂,a₃,h₃,rfl⟩

theorem complete_of_toStringCopy {a copy : BankAccount L} {now : Millis}
    (h : a.toStringCopy now = .ok copy) : a.Complete := by
  simp only [toStringCopy,bind_ok,pure,Except.pure,Except.ok.injEq] at h
  obtain ⟨a₁,h₁,a₂,h₂,a₃,h₃,-⟩ := h
  obtain ⟨⟨n,hn,-⟩,-⟩ := setAccountNumber_ok h₁
  obtain ⟨⟨c,hc,-⟩,-⟩ := setCurrencyUnit_ok h₂
  obtain ⟨⟨b,hb,-⟩,-⟩ := setCurrentBalance_ok h₃
  exact ⟨⟨b,hb⟩,⟨n,hn⟩,⟨c,hc⟩⟩

/-- A blank account, such as a lookup hands out after a failed cast, cannot be rendered. -/
theorem toStringCopy_unset {a : BankAccount L} (h : a.accountNumber = none) (now : Millis) :
    a.toStringCopy now = .error (L.invalidIban none) := by
  simp [toStringCopy,setAccountNumber,h,bind,Except.bind]

end BankAccount

@[ext] structure BankTransaction (L : Libs) where
  id : Option UUID
  transactionAmount : Option ℚ
  transactionType : Option Int8
  transactionTime : Millis
  currencyUnit : Option String
  transactionStatus : Option ℤ
  transactionFrom : Option String
  transactionTo : Option String
  amount_nonneg : ∀ a ∈ transactionAmount, 0 ≤ a
  currency_known : ∀ c ∈ currencyUnit, L.currencyCode c = some c
  deriving DecidableEq

namespace BankTransaction

variable {L : Libs}

def new (randomId : UUID) (now : Millis) : BankTransaction L where
  id := some randomId
  transactionAmount := none
  transactionType := some (-1)
  transactionTime := now
  currencyUnit := none
  transactionStatus := some 0
  transactionFrom := none
  transactionTo := none
  amount_nonneg := by simp
  currency_known := by simp

def setId (id : Option UUID) (t : BankTransaction L) : BankTransaction L := {t with id := id}

/-- `setTransactionAmount( BigDecimal )`: null stands for zero. -/
def setTransactionAmount (transactionAmount : Option ℚ) (t : BankTransaction L) :
    Except Throwable (BankTransaction L) :=
  let amount := transactionAmount.getD 0
  if h : amount < 0 then
    .error (.plain .currencyAmount (.text
      "Current implementation does not allow negative amounts. Rollbacked. "))
  else .ok {t with
    transactionAmount := some amount
    amount_nonneg := by simpa using h}

def setCreditTransaction (t : BankTransaction L) : BankTransaction L :=
  {t with transactionType := some 1}

def setDebitTransaction (t : BankTransaction L) : BankTransaction L :=
  {t with transactionType := some (-1)}

def setTransactionType (transactionType : Option Int8) (t : BankTransaction L) : BankTransaction L :=
  match transactionType with
  | none => t.setDebitTransaction
  | some _ => {t with transactionType := transactionType}

def isCredit (t : BankTransaction L) : Except Throwable Bool :=
  match t.transactionType with
  | none => .error (.plain .bankTransactionData
      (.text "Credit transaction type cannot be null value."))
  | some k => .ok (k == 1)

def isDebit (t : BankTransaction L) : Except Throwable Bool :=
  match t.transactionType with
  | none => .error (.plain .bankTransactionData
      (.text "Debit transaction type cannot be null value."))
  | some k => .ok (k == -1)

def setTransactionTime (transactionTime : Option Millis) (now : Millis) (t : BankTransaction L) :
    BankTransaction L :=
  {t with transactionTime := transactionTime.getD now}

def setCurrencyUnit (currencyUnit : Option String) (t : BankTransaction L) :
    Except Throwable (BankTransaction L) :=
  match currencyUnit with
  | none => .error (.plain .currencyCode (.text "Currency code is not specified."))
  | some c =>
    match h : L.currencyCode c with
    | none => .error (.caused .currencyCode (.text "Currency code validation error.")
        (.plain .unknownCurrency (.text ("Unknown currency code: " ++ c))))
    | some u => .ok {t with
        currencyUnit := some u
        currency_known := by
          have hu := L.currencyCode_eq c u h
          subst hu
          simpa using h}

def setTransactionStatus (transactionStatus : Option ℤ) (t : BankTransaction L) :
    BankTransaction L :=
  {t with transactionStatus := transactionStatus}

def setTransactionFrom (transactionFrom : Option String) (t : BankTransaction L) :
    BankTransaction L :=
  {t with transactionFrom := transactionFrom}

def setTransactionTo (transactionTo : Option String) (t : BankTransaction L) : BankTransaction L :=
  {t with transactionTo := transactionTo}

/-- The fresh transaction that `toString` fills and hands to Jackson: a missing currency
becomes EUR, a missing amount zero, a missing type debit. -/
def toStringCopy (now : Millis) (t : BankTransaction L) : Except Throwable (BankTransaction L) := do
  -- The random id is replaced at once.
  let copy : BankTransaction L := (new 0 now).setId t.id
  let copy ← (copy.setCurrencyUnit t.currencyUnit).tryCatch fun _ => copy.setCurrencyUnit (some "EUR")
  let copy ← copy.setTransactionAmount t.transactionAmount
  let copy := (copy.setTransactionFrom t.transactionFrom).setTransactionTo t.transactionTo
  let copy := (copy.setTransactionType t.transactionType).setTransactionStatus t.transactionStatus
  let copy := copy.setTransactionTime (some t.transactionTime) now
  return copy.setTransactionType t.transactionType

theorem setCurrencyUnit_known {c : String} (t : BankTransaction L)
    (h : L.currencyCode c = some c) : t.setCurrencyUnit (some c) =
      .ok {t with currencyUnit := some c, currency_known := by simpa using h} := by
  simp only [setCurrencyUnit]
  split
  · next hn => simp [h] at hn
  · next u hu =>
    have he : u = c := L.currencyCode_eq c u hu
    subst he
    rfl

theorem setTransactionAmount_nonneg {x : ℚ} (t : BankTransaction L) (h : 0 ≤ x) :
    t.setTransactionAmount (some x) =
      .ok {t with transactionAmount := some x, amount_nonneg := by simpa using h} := by
  simp [setTransactionAmount,not_lt.mpr h]

theorem setCurrencyUnit_orEuro (c : Option String) (t : BankTransaction L) : ∃ copy,
    (t.setCurrencyUnit c).tryCatch (fun _ => t.setCurrencyUnit (some "EUR")) = .ok copy := by
  cases h : t.setCurrencyUnit c with
  | ok copy => exact ⟨copy,rfl⟩
  | error e => exact ⟨_,setCurrencyUnit_known t L.euro⟩

theorem toStringCopy_ok (t : BankTransaction L) (now : Millis) :
    ∃ copy, t.toStringCopy now = .ok copy := by
  obtain ⟨copy,hcopy⟩ := setCurrencyUnit_orEuro t.currencyUnit
    ((new 0 now).setId t.id : BankTransaction L)
  have ha : ¬ t.transactionAmount.getD 0 < 0 := by
    cases h : t.transactionAmount with
    | none => simp
    | some a => simpa using t.amount_nonneg a h
  simp only [toStringCopy,hcopy,bind,Except.bind]
  simp [setTransactionAmount,ha,pure,Except.pure]

/-- Credit (1) and debit (-1) are the two kinds that are processed. -/
def CreditOrDebit (t : BankTransaction L) : Prop :=
  t.transactionType = some 1 ∨ t.transactionType = some (-1)

instance : DecidablePred (CreditOrDebit (L := L)) :=
  fun t => inferInstanceAs (Decidable (t.transactionType = some 1 ∨ t.transactionType = some (-1)))

end BankTransaction

/-! ### Account numbers of the migration scripts, and what the libraries say to them -/

namespace Sample

def iban₁ : String := "LT453500000905059421"
def iban₂ : String := "LT133500075675655357"
def iban₃ : String := "LT443500000234094531"

def libs : Libs where
  validIban s := s ∈ [iban₁,iban₂,iban₃]
  ibanMessage n :=
    match n with
    | none => "Null can't be a valid Iban."
    | some _ => "Iban country code is not supported."
  currencyCode c := if c ∈ ["EUR","USD"] then some c else none
  currencyCode_eq c u h := by
    split_ifs at h
    exact (Option.some.inj h).symm
  euro := by simp

theorem euro_known : ∀ c ∈ some "EUR", libs.currencyCode c = some c := by simp [libs]

def account (accountId : UUID) (number : String) (balance : ℕ) (hn : libs.validIban number = true) :
    BankAccount libs where
  id := accountId
  currentBalance := some (balance : ℚ)
  accountStatus := none
  accountNumber := some number
  currencyUnit := some "EUR"
  updateAt := accountId.toNat
  balance_nonneg := by simp
  number_valid := by simpa using hn
  currency_known := euro_known

theorem valid₁ : libs.validIban iban₁ = true := by decide

theorem valid₃ : libs.validIban iban₃ = true := by decide

end Sample
end HomeRest
