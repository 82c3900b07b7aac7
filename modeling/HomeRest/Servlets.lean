import HomeRest.DecimalText
import HomeRest.Independence
import HomeRest.Outcome
import HomeRest.Rendering
import HomeRest.RoundTrip
import HomeRest.StorageRounding

/-! The two testing servlets.
A form posted to `/accounts` opens an account, a form posted to `/transactions` makes a
credit transaction and processes it. What is not accepted leaves as an exception before
there is a step on the store. The page is a list of pieces, in the order they are written. -/
namespace HomeRest

open AtomicProgram

variable {L : Libs}

/-- What a page is put together from. The text of a decimal, a message or an exception is
what Java prints for it. -/
inductive Piece
  | text (s : String)
  | decimal (d : ℚ)
  | json (members : Beans.Members Json)
  | message (m : Message)
  | exception (e : Throwable)
  | stackTrace (e : Throwable)
  deriving DecidableEq

abbrev Page := List Piece

/-- A request that fails: `new BigDecimal` throws, or something behind it. -/
inductive Refusal
  | numberFormat
  | thrown (e : Throwable)
  deriving DecidableEq

/-- The libraries behind the servlets. `buildIban` is the `Iban.Builder` for a code of digits,
with LT and the bank code 35000. -/
structure Web where
  jackson : Jackson
  buildIban : String → Except Throwable String

/-- The parameters of a request to `/accounts`. -/
structure AccountForm where
  amount : Option String
  accountNr : Option String
  digitCode : Option String
  currencies : Option String

/-- The parameters of a request to `/transactions`. -/
structure TransferForm where
  amount : Option String
  transactFrom : Option String
  transactTo : Option String
  currencies : Option String

def refuse {α : Type} (x : Except Throwable α) : Except Refusal α := x.mapError .thrown

def newBigDecimal : Option String → Except Refusal ℚ
  | none => .error (.thrown .nullPointer)
  | some s =>
    match DecimalText.parse s with
    | none => .error .numberFormat
    | some d => .ok d

/-- `IbanUtil.validate`. -/
def validate (L : Libs) : Option String → Except Throwable Unit
  | none => .error (L.invalidIban none)
  | some n => if L.validIban n = true then .ok () else .error (L.invalidIban (some n))

def opening (title : String) : Page :=
  [.text "<!DOCTYPE html>\r\n",.text "<html>\r\n",.text "\t\t<head>\r\n",
    .text ("\t\t\t<title>" ++ title ++ "</title>\r\n"),.text "\t\t</head>\r\n",.text "\t\t<body>\r\n"]

def closing : Page :=
  [.text "\t<form action=\"/get/accounts\" method=\"POST\">\r\n",
    .text "\t\t<input type=\"submit\" value=\"Check\" />\r\n",.text "\t</form>\r\n",
    .text "\t\t</body>\r\n",.text "</html>\r\n"]

/-- The green block. -/
def allOK : Page :=
  [.text "<p style=\"color:green;font-family:courier;\"><b><code>",.text "All OK\r\n",
    .text "</code></b></p>"]

/-- The red blocks, with the message and the stack trace. -/
def complaint (e : Throwable) : Page :=
  [.text "<p style=\"color:red;font-family:courier;\"><b>",.message e.message,.text "\r\n",
    .text "</b></p>",.text "<p style=\"color:red;font-family:courier;\"><code>",.stackTrace e,
    .text "</code></p>"]

namespace HomeRestAccountsTestingServlet

/-- The account of the form; the clock is read by the constructor, by the setter of the
balance and for the time stamp. -/
def newAccount (W : Web) (clock : ℕ → Millis) (randomId : UUID) (form : AccountForm) :
    Except Refusal (BankAccount L) := do
  let amount ← newBigDecimal form.amount
  let bankAccount := BankAccount.new randomId (clock 0)
  let bankAccount ← refuse (if isNotBlank form.digitCode then do
      let ibanReturned ← W.buildIban (form.digitCode.getD "")
      validate L (some ibanReturned)
      bankAccount.setAccountNumber (some ibanReturned)
    else do
      validate L form.accountNr
      bankAccount.setAccountNumber form.accountNr)
  let bankAccount ← refuse (bankAccount.setCurrentBalance (some amount) (clock 1))
  let bankAccount ← refuse (bankAccount.setCurrencyUnit form.currencies)
  return bankAccount.setUpdateAt none (clock 2)

def created (a : BankAccount L) (json : Beans.Members Json) : Page :=
  opening "Account message" ++
    [.text "\tAccount of balance ",.decimal (a.currentBalance.getD 0),
      .text (" " ++ orNull a.currencyUnit ++ ".\r\n"),
      .text "You successfully created an account of ",.decimal (a.currentBalance.getD 0),
      .text (" " ++ orNull a.currencyUnit ++ " in " ++ orNull a.accountNumber ++ ".\r\n"),
      .text "<pre id=\"json\">",.json json,.text "</pre>"]

/-- The page of an exception of `putAccount`; without a message it shows nothing. -/
def failed (a : BankAccount L) (e : Throwable) : Page :=
  if e.message.isNotBlank then
    [.text " Account create of ",.decimal (a.currentBalance.getD 0),
      .text (" " ++ orNull a.currencyUnit ++ " failed with exception: ")] ++ complaint e
  else []

/-- The page of a `putAccount` that returns false. -/
def notPut : Page :=
  [.text "<p style=\"color:red;font-family:courier;\"><b><code>",.text "Failure\r\n",
    .text "</code></b></p>"]

def callPutAccount (put : Occasion) (a : BankAccount L) : Code L Bool :=
  Program.perform (StoreCall.putAccount put a)

/-- The text of an amount is never blank, so the page without data is never written. -/
def doPost (W : Web) (clock : ℕ → Millis) (randomId : UUID) (put : Occasion) (form : AccountForm) :
    Code L (Except Refusal Page) :=
  match (do
    let bankAccount ← newAccount W clock randomId form
    let json ← refuse (bankAccount.toString W.jackson (clock 3))
    return (bankAccount,json) : Except Refusal (BankAccount L × Beans.Members Json)) with
  | .error refusal => .ret (.error refusal)
  | .ok (bankAccount,json) => do
    let outcome ← Program.handle (do
        if ← callPutAccount put bankAccount then return allOK
        else return notPut)
      fun e => .ret (failed bankAccount e)
    return .ok (created bankAccount json ++ outcome ++ closing)

end HomeRestAccountsTestingServlet

namespace HomeRestTransactTestingServlet

/-- The credit transaction of the form. -/
def newTransaction (clock : ℕ → Millis) (randomId : UUID) (form : TransferForm) :
    Except Refusal (BankTransaction L) := do
  let amount ← newBigDecimal form.amount
  refuse (validate L form.transactFrom)
  refuse (validate L form.transactTo)
  let newTransaction := (BankTransaction.new randomId (clock 0)).setCreditTransaction
  let newTransaction ← refuse (newTransaction.setTransactionAmount (some amount))
  let newTransaction := newTransaction.setTransactionFrom form.transactFrom
  let newTransaction := newTransaction.setTransactionTo form.transactTo
  refuse (newTransaction.setCurrencyUnit form.currencies)

def created (t : BankTransaction L) (json : Beans.Members Json) : Page :=
  opening "Transfer message" ++
    [.text "\tTransfer ",.decimal (t.transactionAmount.getD 0),
      .text (" " ++ orNull t.currencyUnit ++ ".\r\n"),
      .text "You successfully completed creating a transfer of ",
      .decimal (t.transactionAmount.getD 0),
      .text (" from " ++ orNull t.transactionFrom ++ " to account " ++ orNull t.transactionTo ++
        ".\r\nby initiating the following transaction \r\n\r\n"),
      .text "<pre id=\"json\">",.json json,.text "</pre>"]

def outcome (t : BankTransaction L) : Option Throwable → Page
  | none => allOK
  | some e =>
    if e.message.isNotBlank then
      [.text " Your transfer of ",.decimal (t.transactionAmount.getD 0),
        .text (" " ++ orNull t.currencyUnit ++ " failed with exception: ")] ++ complaint e
    else allOK

def doPost (W : Web) (clock : ℕ → Millis) (randomId : UUID) (env : Env) (form : TransferForm) :
    Code L (Except Refusal Page) :=
  match (do
    let newTransaction ← newTransaction clock randomId form
    let json ← refuse (newTransaction.toString W.jackson (clock 1))
    return (newTransaction,json) : Except Refusal (BankTransaction L × Beans.Members Json)) with
  | .error refusal => .ret (.error refusal)
  | .ok (newTransaction,json) => do
    let outcome ← Program.handle (do
        return outcome newTransaction (← processTransaction env newTransaction))
      fun e => .ret [.exception e]
    return .ok (created newTransaction json ++ outcome ++ closing)

end HomeRestTransactTestingServlet

/-- The form names an amount that is not negative, a valid number and a known currency. -/
structure AccountForm.Enters (L : Libs) (W : Web) (form : AccountForm) (x : ℚ) (n c : String) :
    Prop where
  amount : ∃ s, form.amount = some s ∧ DecimalText.parse s = some x
  nonneg : 0 ≤ x
  number : if isNotBlank form.digitCode = true then W.buildIban (form.digitCode.getD "") = .ok n
    else form.accountNr = some n
  valid : L.validIban n = true
  currency : form.currencies = some c
  known : L.currencyCode c = some c

structure TransferForm.Enters (L : Libs) (form : TransferForm) (x : ℚ) (n m c : String) : Prop where
  amount : ∃ s, form.amount = some s ∧ DecimalText.parse s = some x
  nonneg : 0 ≤ x
  transactFrom : form.transactFrom = some n
  validFrom : L.validIban n = true
  transactTo : form.transactTo = some m
  validTo : L.validIban m = true
  currency : form.currencies = some c
  known : L.currencyCode c = some c

theorem refuse_ok {α : Type} {x : Except Throwable α} {a : α} : refuse x = .ok a ↔ x = .ok a := by
  cases x <;> simp [refuse,Except.mapError]

theorem newBigDecimal_ok {v : Option String} {x : ℚ} :
    newBigDecimal v = .ok x ↔ ∃ s, v = some s ∧ DecimalText.parse s = some x := by
  cases v with
  | none => simp [newBigDecimal]
  | some s => cases h : DecimalText.parse s <;> simp [newBigDecimal,h]

theorem validate_ok {v : Option String} :
    validate L v = .ok () ↔ ∃ n, v = some n ∧ L.validIban n = true := by
  cases v with
  | none => simp [validate]
  | some n => by_cases h : L.validIban n = true <;> simp [validate,h]

section Accounts

open HomeRestAccountsTestingServlet

variable {W : Web} {clock : ℕ → Millis} {randomId : UUID} {form : AccountForm} {x : ℚ} {n c : String}
  {a : BankAccount L}

/-- The account of a form. -/
structure Opened (clock : ℕ → Millis) (randomId : UUID) (x : ℚ) (n c : String) (a : BankAccount L) :
    Prop where
  id : a.id = randomId
  balance : a.currentBalance = some x
  status : a.accountStatus = none
  number : a.accountNumber = some n
  currency : a.currencyUnit = some c
  updateAt : a.updateAt = clock 2

theorem Opened.complete (h : Opened clock randomId x n c a) : a.Complete :=
  ⟨⟨x,h.balance⟩,⟨n,h.number⟩,⟨c,h.currency⟩⟩

theorem AccountForm.Enters.unique {x' : ℚ} {n' c' : String} (h : form.Enters L W x n c)
    (h' : form.Enters L W x' n' c') : x = x' ∧ n = n' ∧ c = c' := by
  obtain ⟨s,hs,hx⟩ := h.amount
  obtain ⟨s',hs',hx'⟩ := h'.amount
  have hn := h.number
  have hn' := h'.number
  refine ⟨?_,?_,Option.some.inj (h.currency.symm.trans h'.currency)⟩
  · cases hs.symm.trans hs'
    exact Option.some.inj (hx.symm.trans hx')
  · split_ifs at hn hn'
    · exact Except.ok.inj (hn.symm.trans hn')
    · exact Option.some.inj (hn.symm.trans hn')

theorem newAccount_sound (h : newAccount W clock randomId form = .ok a) :
    ∃ x n c, form.Enters L W x n c ∧ Opened clock randomId x n c a := by
  simp only [newAccount,bind_ok,refuse_ok,pure,Except.pure,Except.ok.injEq] at h
  obtain ⟨x,hx,a₁,h₁,a₂,h₂,a₃,h₃,rfl⟩ := h
  obtain ⟨⟨b,hb,h0⟩,hbal₂,-,hid₂,hst₂,hnum₂,-⟩ := BankAccount.setCurrentBalance_ok h₂
  obtain ⟨⟨c,hc,hknown⟩,hcur₃,hid₃,hbal₃,hst₃,hnum₃,-⟩ := BankAccount.setCurrencyUnit_ok h₃
  cases hb
  have hnumber : ∃ n, (if isNotBlank form.digitCode = true then
      W.buildIban (form.digitCode.getD "") = .ok n else form.accountNr = some n) ∧
      (BankAccount.new randomId (clock 0) : BankAccount L).setAccountNumber (some n) = .ok a₁ := by
    split_ifs at h₁ ⊢
    · obtain ⟨n,hn,hrest⟩ := bind_ok.mp h₁
      obtain ⟨-,-,hset⟩ := bind_ok.mp hrest
      exact ⟨n,hn,hset⟩
    · obtain ⟨-,-,hset⟩ := bind_ok.mp h₁
      obtain ⟨⟨n,hn,-⟩,-⟩ := BankAccount.setAccountNumber_ok hset
      exact ⟨n,hn,hn ▸ hset⟩
  obtain ⟨n,hn,hset⟩ := hnumber
  obtain ⟨⟨n',hn',hvalid⟩,hnum₁,hid₁,-,hst₁,-,-⟩ := BankAccount.setAccountNumber_ok hset
  cases hn'
  refine ⟨x,n,c,⟨newBigDecimal_ok.mp hx,h0,hn,hvalid,hc,hknown⟩,?_,?_,?_,?_,?_,rfl⟩
  · exact hid₃.trans (hid₂.trans hid₁)
  · exact hbal₃.trans hbal₂
  · exact hst₃.trans (hst₂.trans hst₁)
  · exact hnum₃.trans (hnum₂.trans hnum₁)
  · exact hcur₃.trans hc

variable (clock randomId) in
theorem newAccount_total (h : form.Enters L W x n c) :
    ∃ a : BankAccount L, newAccount W clock randomId form = .ok a ∧ Opened clock randomId x n c a := by
  obtain ⟨a₁,h₁⟩ := BankAccount.setAccountNumber_valid h.valid
    (BankAccount.new randomId (clock 0) : BankAccount L)
  obtain ⟨a₂,h₂⟩ := BankAccount.setCurrentBalance_nonneg h.nonneg (clock 1) a₁
  obtain ⟨a₃,h₃⟩ := BankAccount.setCurrencyUnit_known h.known a₂
  have hnumber : (if isNotBlank form.digitCode then do
      let ibanReturned ← W.buildIban (form.digitCode.getD "")
      validate L (some ibanReturned)
      (BankAccount.new randomId (clock 0) : BankAccount L).setAccountNumber (some ibanReturned)
    else do
      validate L form.accountNr
      (BankAccount.new randomId (clock 0) : BankAccount L).setAccountNumber form.accountNr) = .ok a₁ := by
    have hn := h.number
    have hv : validate L (some n) = .ok () := validate_ok.mpr ⟨n,rfl,h.valid⟩
    split_ifs at hn ⊢
    · simp [hn,hv,h₁,bind,Except.bind]
    · simp [hn,hv,h₁,bind,Except.bind]
  have hmade : newAccount W clock randomId form = .ok (a₃.setUpdateAt none (clock 2)) := by
    simp only [newAccount,bind_ok,refuse_ok,pure,Except.pure,h.currency]
    exact ⟨x,newBigDecimal_ok.mpr h.amount,a₁,hnumber,a₂,h₂,a₃,h₃,rfl⟩
  obtain ⟨x',n',c',hform,hopened⟩ := newAccount_sound hmade
  obtain ⟨rfl,rfl,rfl⟩ := h.unique hform
  exact ⟨_,hmade,hopened⟩

variable (clock randomId) in
theorem accountsPost_refused (h : ¬ ∃ x n c, form.Enters L W x n c) (put : Occasion) :
    ∃ refusal, (doPost W clock randomId put form : Code L (Except Refusal Page)) =
      .ret (.error refusal) := by
  cases ha : (newAccount W clock randomId form : Except Refusal (BankAccount L)) with
  | error refusal => exact ⟨refusal,by simp [doPost,ha,bind,Except.bind]⟩
  | ok a =>
    obtain ⟨x,n,c,hform,-⟩ := newAccount_sound ha
    exact absurd ⟨x,n,c,hform⟩ h

theorem accountsPost_opened (h : newAccount W clock randomId form = .ok a) (ha : a.Complete)
    (put : Occasion) : ∃ json, doPost W clock randomId put form =
      (callPutAccount put a).cont
        (fun returned => .ret (.ok (created a json ++ (if returned then allOK else notPut) ++ closing)))
        fun e => .ret (.ok (created a json ++ failed a e ++ closing)) := by
  obtain ⟨copy,hcopy⟩ := BankAccount.toStringCopy_ok ha (clock 3)
  refine ⟨Beans.write (BankAccount.getters W.jackson) copy,?_⟩
  have hjson : a.toString W.jackson (clock 3) = .ok (Beans.write (BankAccount.getters W.jackson) copy) := by
    simp [BankAccount.toString,hcopy,Except.map]
  simp only [doPost,h,hjson,refuse,Except.mapError,bind,Except.bind,pure,Except.pure,Program.handle,
    Program.cont_cont]
  congr 1
  funext returned
  cases returned <;> rfl

/-- What the page says of a `putAccount` that ended so. -/
def putSays (a : BankAccount L) : Except Throwable Bool → Page
  | .ok returned => if returned then allOK else notPut
  | .error e => failed a e

def openedRow (db : Database) (clock : ℕ → Millis) (put : Occasion) (x : ℚ) (n c : String) : Row where
  accountId := put.randomId
  currentBalance := some (db.decimal x)
  accountStatus := none
  accountNumber := some n
  currencyUnit := some c
  dateUpdated := some (clock 2)

theorem Opened.savedRow (h : Opened clock randomId x n c a) (db : Database) (put : Occasion) :
    savedRow db put a = openedRow db clock put x n c := by
  simp [HomeRest.savedRow,openedRow,h.balance,h.status,h.number,h.currency,h.updateAt]

variable (clock randomId) in
theorem accountsPost_entered (h : form.Enters L W x n c) (db : Database) (put : Occasion) (T : Table) :
    ∃ (a : BankAccount L) (json : Beans.Members Json), Opened clock randomId x n c a ∧
      (doPost W clock randomId put form : Code L (Except Refusal Page)).run (serve db) T =
        (.ok (.ok (created a json ++
            putSays a (put.inserting db (openedRow db clock put x n c) T).written ++ closing)),
          if put.fault = none ∧ db.accepts (openedRow db clock put x n c) T = true then
            T ++ [openedRow db clock put x n c] else T) := by
  obtain ⟨a,ha,hopened⟩ := newAccount_total (L := L) clock randomId h
  obtain ⟨json,hcode⟩ := accountsPost_opened ha hopened.complete put
  refine ⟨a,json,hopened,?_⟩
  have hrun : (callPutAccount put a).run (serve db) T =
      ((put.inserting db (openedRow db clock put x n c) T).written,
        if put.fault = none ∧ db.accepts (openedRow db clock put x n c) T = true then
          T ++ [openedRow db clock put x n c] else T) := by
    rw [← hopened.savedRow db put,← serve_putAccount db put a T]
    refine (Program.run_perform (serve db) (.putAccount put a) T).trans (Prod.ext ?_ rfl)
    exact (Prod.ext_iff.mp (putAccount_eq db put a T)).1
  rw [hcode]
  generalize (put.inserting db (openedRow db clock put x n c) T).written = outcome at hrun ⊢
  cases outcome with
  | ok returned =>
    rw [Program.run_cont_ok (serve db) hrun]
    rfl
  | error e =>
    rw [Program.run_cont_error (serve db) hrun]
    rfl

end Accounts

section Transactions

open HomeRestTransactTestingServlet

variable {W : Web} {clock : ℕ → Millis} {randomId : UUID} {form : TransferForm} {x : ℚ}
  {n m c : String} {t : BankTransaction L}

structure Ordered (clock : ℕ → Millis) (randomId : UUID) (x : ℚ) (n m c : String)
    (t : BankTransaction L) : Prop where
  id : t.id = some randomId
  amount : t.transactionAmount = some x
  type : t.transactionType = some 1
  time : t.transactionTime = clock 0
  currency : t.currencyUnit = some c
  status : t.transactionStatus = some 0
  transactionFrom : t.transactionFrom = some n
  transactionTo : t.transactionTo = some m

variable (clock randomId) in
theorem newTransaction_total (h : form.Enters L x n m c) :
    ∃ t : BankTransaction L, newTransaction clock randomId form = .ok t ∧
      Ordered clock randomId x n m c t := by
  have hamount := newBigDecimal_ok.mpr h.amount
  have hfrom : validate L (some n) = .ok () := validate_ok.mpr ⟨n,rfl,h.validFrom⟩
  have hto : validate L (some m) = .ok () := validate_ok.mpr ⟨m,rfl,h.validTo⟩
  simp only [newTransaction,hamount,h.transactFrom,h.transactTo,h.currency,hfrom,hto,refuse,
    Except.mapError,bind,Except.bind,BankTransaction.setTransactionAmount_nonneg _ h.nonneg,
    BankTransaction.setCurrencyUnit_known _ h.known]
  exact ⟨_,rfl,rfl,rfl,rfl,rfl,rfl,rfl,rfl,rfl⟩

theorem setTransactionAmount_ok {v : ℚ} {t' : BankTransaction L}
    (h : t.setTransactionAmount (some v) = .ok t') : 0 ≤ v := by
  by_contra hv
  obtain ⟨e,he,-⟩ := setTransactionAmount_negative (t := t) (not_le.mp hv)
  cases h.symm.trans he

theorem transaction_setCurrencyUnit_ok {v : Option String} {t' : BankTransaction L}
    (h : t.setCurrencyUnit v = .ok t') : ∃ c, v = some c ∧ L.currencyCode c = some c := by
  cases v with
  | none => simp [BankTransaction.setCurrencyUnit] at h
  | some c =>
    simp only [BankTransaction.setCurrencyUnit] at h
    split at h
    · cases h
    · next u hu => exact ⟨c,rfl,by rw [hu,L.currencyCode_eq c u hu]⟩

theorem newTransaction_sound (h : newTransaction clock randomId form = .ok t) :
    ∃ x n m c, form.Enters L x n m c ∧ Ordered clock randomId x n m c t := by
  have hform : ∃ x n m c, form.Enters L x n m c := by
    simp only [newTransaction,bind_ok,refuse_ok] at h
    obtain ⟨x,hx,_,hfrom,_,hto,t₁,h₁,h₂⟩ := h
    obtain ⟨n,hn,hnv⟩ := validate_ok.mp hfrom
    obtain ⟨m,hm,hmv⟩ := validate_ok.mp hto
    obtain ⟨c,hc,hknown⟩ := transaction_setCurrencyUnit_ok h₂
    exact ⟨x,n,m,c,newBigDecimal_ok.mp hx,setTransactionAmount_ok h₁,hn,hnv,hm,hmv,hc,hknown⟩
  obtain ⟨x,n,m,c,hform⟩ := hform
  obtain ⟨t',ht',hordered⟩ := newTransaction_total (L := L) clock randomId hform
  cases h.symm.trans ht'
  exact ⟨x,n,m,c,hform,hordered⟩

variable (clock randomId) in
theorem transactionsPost_refused (h : ¬ ∃ x n m c, form.Enters L x n m c) (env : Env) :
    ∃ refusal, (doPost W clock randomId env form : Code L (Except Refusal Page)) =
      .ret (.error refusal) := by
  cases ht : (newTransaction clock randomId form : Except Refusal (BankTransaction L)) with
  | error refusal => exact ⟨refusal,by simp [doPost,ht,bind,Except.bind]⟩
  | ok t =>
    obtain ⟨x,n,m,c,hform,-⟩ := newTransaction_sound ht
    exact absurd ⟨x,n,m,c,hform⟩ h

theorem transactionsPost_ordered (h : newTransaction clock randomId form = .ok t) (env : Env) :
    ∃ json, doPost W clock randomId env form = (processTransaction env t).cont
      (fun slot => .ret (.ok (created t json ++ outcome t slot ++ closing)))
      fun e => .ret (.ok (created t json ++ [.exception e] ++ closing)) := by
  obtain ⟨copy,hcopy⟩ := t.toStringCopy_ok (clock 1)
  refine ⟨Beans.write (Beans.getters (BankTransaction.properties W.jackson (clock 1))) copy,?_⟩
  have hjson : t.toString W.jackson (clock 1) =
      .ok (Beans.write (Beans.getters (BankTransaction.properties W.jackson (clock 1))) copy) := by
    simp [BankTransaction.toString,hcopy,Except.map]
  simp only [doPost,h,hjson,refuse,Except.mapError,bind,Except.bind,pure,Except.pure,Program.handle,
    Program.cont_cont]
  rfl

variable (clock randomId) in
theorem transactionsPost_entered (h : form.Enters L x n m c) (db : Database) {env : Env}
    (hu : env.Uncleared) (T : Table) :
    ∃ (t : BankTransaction L) (json : Beans.Members Json), Ordered clock randomId x n m c t ∧
      (doPost W clock randomId env form : Code L (Except Refusal Page)).run (serve db) T =
        (.ok (.ok (created t json ++ outcome t (some (closeSlot env)) ++ closing)),
          (process db env t T).2) := by
  obtain ⟨t,ht,hordered⟩ := newTransaction_total (L := L) clock randomId h
  obtain ⟨json,hcode⟩ := transactionsPost_ordered (W := W) ht env
  refine ⟨t,json,hordered,?_⟩
  have hslot : (process db env t T).1 = .ok (some (closeSlot env)) :=
    process_outcome db (.inl hordered.type) hu
  have hrun : (processTransaction env t).run (serve db) T =
      (.ok (some (closeSlot env)),(process db env t T).2) := Prod.ext hslot rfl
  rw [hcode,Program.run_cont_ok (serve db) hrun]
  rfl

end Transactions

namespace Sample

def web : Web where
  jackson := jackson
  buildIban code :=
    if code = "00905059421" then .ok iban₁ else .error (.plain .ibanFormat (.text code))

def accountForm : AccountForm := ⟨some "12.50",none,some "00905059421",some "EUR"⟩

def transferForm : TransferForm := ⟨some "30",some iban₁,some iban₂,some "EUR"⟩

theorem accountForm_enters : accountForm.Enters libs web (25/2) iban₁ "EUR" :=
  ⟨⟨_,rfl,by decide +kernel⟩,by norm_num,by decide +kernel,by decide,rfl,by decide⟩

theorem transferForm_enters : transferForm.Enters libs 30 iban₁ iban₂ "EUR" :=
  ⟨⟨_,rfl,by decide +kernel⟩,by norm_num,rfl,by decide,rfl,by decide,rfl,by decide⟩

end Sample

/-- A request to `/accounts`. With all its data it shows the account and how its insert ended,
and stores its row, unless the step fails or the constraints do not let it in; otherwise it is
refused and stores nothing. -/
theorem accountsPost_exact (db : Database) (W : Web) (clock : ℕ → Millis) (randomId : UUID)
    (put : Occasion) (form : AccountForm) (T : Table) :
    (∀ x n c, form.Enters L W x n c → ∃ (a : BankAccount L) (json : Beans.Members Json),
      Opened clock randomId x n c a ∧
      (HomeRestAccountsTestingServlet.doPost W clock randomId put form :
          Code L (Except Refusal Page)).run (serve db) T =
        (.ok (.ok (HomeRestAccountsTestingServlet.created a json ++
            putSays a (put.inserting db (openedRow db clock put x n c) T).written ++ closing)),
          if put.fault = none ∧ db.accepts (openedRow db clock put x n c) T = true then
            T ++ [openedRow db clock put x n c] else T)) ∧
    ((¬ ∃ x n c, form.Enters L W x n c) → ∃ refusal,
      (HomeRestAccountsTestingServlet.doPost W clock randomId put form :
          Code L (Except Refusal Page)).run (serve db) T = (.ok (.error refusal),T)) := by
  constructor
  · exact fun x n c h => accountsPost_entered clock randomId h db put T
  · intro h
    obtain ⟨refusal,hrefused⟩ := accountsPost_refused (L := L) clock randomId
      h put
    exact ⟨refusal,by rw [hrefused]; rfl⟩

open Sample in
theorem accountsPost_exact_sample : ∃ (a : BankAccount libs) (json : Beans.Members Json),
    Opened (fun _ => 200) 9 (25/2) iban₁ "EUR" a ∧
    (HomeRestAccountsTestingServlet.doPost web (fun _ => 200) 9 ⟨none,200,7⟩ accountForm :
        Code libs (Except Refusal Page)).run (serve cents) [] =
      (.ok (.ok (HomeRestAccountsTestingServlet.created a json ++
          putSays a ((⟨none,200,7⟩ : Occasion).inserting cents
            (openedRow cents (fun _ => 200) ⟨none,200,7⟩ (25/2) iban₁ "EUR") []).written ++ closing)),
        if (⟨none,200,7⟩ : Occasion).fault = none ∧ cents.accepts
            (openedRow cents (fun _ => 200) ⟨none,200,7⟩ (25/2) iban₁ "EUR") [] = true then
          [] ++ [openedRow cents (fun _ => 200) ⟨none,200,7⟩ (25/2) iban₁ "EUR"] else []) :=
  (accountsPost_exact cents web (fun _ => 200) 9 ⟨none,200,7⟩ accountForm []).1 _ _ _
    accountForm_enters

/-- A request to `/transactions`. With all its data it processes the credit of the form, and
its page tells how the close step went; otherwise it is refused and changes nothing. -/
theorem transactionsPost_exact (db : Database) (W : Web) (clock : ℕ → Millis) (randomId : UUID)
    {env : Env} (hu : env.Uncleared) (form : TransferForm) (T : Table) :
    (∀ x n m c, form.Enters L x n m c → ∃ (t : BankTransaction L) (json : Beans.Members Json),
      Ordered clock randomId x n m c t ∧
      (HomeRestTransactTestingServlet.doPost W clock randomId env form :
          Code L (Except Refusal Page)).run (serve db) T =
        (.ok (.ok (HomeRestTransactTestingServlet.created t json ++
            HomeRestTransactTestingServlet.outcome t (some (closeSlot env)) ++ closing)),
          (process db env t T).2)) ∧
    ((¬ ∃ x n m c, form.Enters L x n m c) → ∃ refusal,
      (HomeRestTransactTestingServlet.doPost W clock randomId env form :
          Code L (Except Refusal Page)).run (serve db) T = (.ok (.error refusal),T)) := by
  constructor
  · exact fun x n m c h => transactionsPost_entered clock randomId h db hu T
  · intro h
    obtain ⟨refusal,hrefused⟩ := transactionsPost_refused (L := L) (W := W) clock
      randomId h env
    exact ⟨refusal,by rw [hrefused]; rfl⟩

open Sample in
theorem transactionsPost_exact_sample : ∃ (t : BankTransaction libs) (json : Beans.Members Json),
    Ordered (fun _ => 200) 9 30 iban₁ iban₂ "EUR" t ∧
    (HomeRestTransactTestingServlet.doPost web (fun _ => 200) 9 (env 100 fun _ => none) transferForm :
        Code libs (Except Refusal Page)).run (serve database) twoRows =
      (.ok (.ok (HomeRestTransactTestingServlet.created t json ++
          HomeRestTransactTestingServlet.outcome t (some (closeSlot (env 100 fun _ => none))) ++
          closing)),
        (process database (env 100 fun _ => none) t twoRows).2) :=
  (transactionsPost_exact database web (fun _ => 200) 9 (env_uncleared 100 _) transferForm
    twoRows).1 _ _ _ _ transferForm_enters

/-- Every account whose balance is a number of whole cents that fits the column can be opened:
there is a form that stores exactly this balance. -/
theorem account_enterable (db : Database) (W : Web) (clock : ℕ → Millis)
    (randomId : UUID) (put : Occasion) (T : Table) {cents : ℕ} (hfits : cents < 10^19) {n c : String}
    (hn : L.validIban n = true) (hc : L.currencyCode c = some c) (hput : put.fault = none)
    (hnew : db.accepts ⟨put.randomId,some ((cents : ℚ)/100),none,some n,some c,some (clock 2)⟩ T =
      true) :
    ∃ form, ((HomeRestAccountsTestingServlet.doPost W clock randomId put form :
        Code L (Except Refusal Page)).run (serve db.twoDigits) T).2 =
      T ++ [⟨put.randomId,some ((cents : ℚ)/100),none,some n,some c,some (clock 2)⟩] := by
  have hform : (⟨some (DecimalText.plain 2 cents),some n,none,some c⟩ : AccountForm).Enters L W
      ((cents : ℚ)/100) n c := by
    have hparse : DecimalText.parse (DecimalText.plain 2 cents) = some ((cents : ℚ)/100) := by
      rw [DecimalText.parse_plain (by norm_num)]
      norm_num
    exact ⟨⟨_,rfl,hparse⟩,by positivity,by simp [isNotBlank],hn,rfl,hc⟩
  have hcents : HalfUp.toScale 2 ((cents : ℚ)/100) = (cents : ℚ)/100 := by
    rw [HalfUp.toScale_eq_self]
    exact ⟨cents,by norm_num⟩
  have hrow : openedRow db.twoDigits clock put ((cents : ℚ)/100) n c =
      ⟨put.randomId,some ((cents : ℚ)/100),none,some n,some c,some (clock 2)⟩ := by
    simp [openedRow,Database.twoDigits,hcents]
  have haccepts : db.twoDigits.accepts
      ⟨put.randomId,some ((cents : ℚ)/100),none,some n,some c,some (clock 2)⟩ T = true := by
    refine Database.twoDigits_accepts.mpr ⟨?_,hnew⟩
    have hbound : (cents : ℚ) < 10^19 := by exact_mod_cast hfits
    have h0 : 0 ≤ (cents : ℚ)/100 := by positivity
    rintro b ⟨⟩
    rw [abs_of_nonneg h0]
    linarith
  obtain ⟨a,json,-,hrun⟩ := accountsPost_entered clock randomId hform db.twoDigits put T
  refine ⟨⟨some (DecimalText.plain 2 cents),some n,none,some c⟩,?_⟩
  rw [hrun,hrow,if_pos ⟨hput,haccepts⟩]

open Sample in
theorem account_enterable_sample : ∃ form,
    ((HomeRestAccountsTestingServlet.doPost web (fun _ => 200) 9 ⟨none,200,7⟩ form :
        Code libs (Except Refusal Page)).run (serve database.twoDigits) twoRows).2 =
      twoRows ++ [⟨7,some (((1250 : ℕ) : ℚ)/100),none,some iban₃,some "EUR",some 200⟩] :=
  account_enterable database web (fun _ => 200) 9 ⟨none,200,7⟩ twoRows (by norm_num) valid₃
    (by decide) rfl (by decide +kernel)

end HomeRest
