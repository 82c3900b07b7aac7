import HomeRest.Jackson

/-! `toString` of the account, the transfer and the user.
Each fills a fresh copy and hands it to Jackson. The copy of an account has the current time,
the copy of a transfer is filled from itself, and the copy of a user has no date. -/
namespace HomeRest

variable {L : Libs}

structure BankTransfer where
  id : Option UUID := none
  transactionID : Option UUID := none
  transferStatus : ℤ := 0
  deriving DecidableEq

namespace BankTransfer

def setId (id : Option UUID) (x : BankTransfer) : BankTransfer := {x with id := id}
def setTransactionID (transactionID : Option UUID) (x : BankTransfer) : BankTransfer :=
  {x with transactionID := transactionID}
def setTransferStatus (transferStatus : ℤ) (x : BankTransfer) : BankTransfer :=
  {x with transferStatus := transferStatus}

def getters (J : Jackson) : List (Beans.Getter BankTransfer Json) :=
  [⟨"id",fun x => J.uuid.nullable x.id⟩,
    ⟨"transactionID",fun x => J.uuid.nullable x.transactionID⟩,
    ⟨"transactionStatus",fun x => J.integer.write x.transferStatus⟩]

/-- The fresh transfer is asked for its own values, not the one that is rendered. -/
def toStringCopy (_ : BankTransfer) : BankTransfer :=
  let transfer : BankTransfer := {}
  let transfer := transfer.setId transfer.id
  let transfer := transfer.setTransactionID transfer.transactionID
  transfer.setTransferStatus transfer.transferStatus

def toString (J : Jackson) (x : BankTransfer) : Beans.Members Json :=
  Beans.write (getters J) x.toStringCopy

end BankTransfer

/-- `User`, as its constructor leaves it by default; its authorities are not rendered. -/
structure User where
  id : Option ℤ := none
  username : Option String := none
  password : Option String := none
  dateCreated : Option Millis := none
  deriving DecidableEq

namespace User

def setId (id : Option ℤ) (u : User) : User := {u with id := id}
def setUsername (username : Option String) (u : User) : User := {u with username := username}
def setPassword (password : Option String) (u : User) : User := {u with password := password}

def getters (J : Jackson) : List (Beans.Getter User Json) :=
  [⟨"id",fun u => J.integer.nullable u.id⟩,
    ⟨"username",fun u => J.text.nullable u.username⟩,
    ⟨"password",fun u => J.text.nullable u.password⟩,
    ⟨"dateCreated",fun u => u.dateCreated.elim .null fun d => .string (J.date d)⟩]

/-- `readValue( "{}", User.class )`, and the setters of all fields but the date. -/
def toStringCopy (u : User) : User :=
  let user : User := {}
  ((user.setId u.id).setUsername u.username).setPassword u.password

def toString (J : Jackson) (u : User) : Beans.Members Json :=
  Beans.write (getters J) u.toStringCopy

end User

namespace BankAccount

def getters (J : Jackson) : List (Beans.Getter (BankAccount L) Json) :=
  [⟨"id",fun a => J.uuid.write a.id⟩,
    ⟨"balance",fun a => J.decimal.nullable a.currentBalance⟩,
    ⟨"status",fun a => J.integer.nullable a.accountStatus⟩,
    ⟨"accountNr",fun a => J.text.nullable a.accountNumber⟩,
    ⟨"updateAt",fun a => .string (J.timeStamp a.updateAt)⟩,
    ⟨"currencyUnit",fun a => J.text.nullable a.currencyUnit⟩]

def toString (J : Jackson) (now : Millis) (a : BankAccount L) :
    Except Throwable (Beans.Members Json) :=
  (a.toStringCopy now).map (Beans.write (getters J))

structure Copied (now : Millis) (a copy : BankAccount L) : Prop where
  id : copy.id = a.id
  balance : copy.currentBalance = a.currentBalance
  status : copy.accountStatus = a.accountStatus
  number : copy.accountNumber = a.accountNumber
  currency : copy.currencyUnit = a.currencyUnit
  updateAt : copy.updateAt = now

theorem toStringCopy_copied {a copy : BankAccount L} {now : Millis}
    (h : a.toStringCopy now = .ok copy) : Copied now a copy := by
  simp only [toStringCopy,bind_ok,pure,Except.pure,Except.ok.injEq] at h
  obtain ⟨a₁,h₁,a₂,h₂,a₃,h₃,rfl⟩ := h
  obtain ⟨-,hn₁,-,-,-,-,-⟩ := setAccountNumber_ok h₁
  obtain ⟨-,hc₂,-,-,hs₂,hn₂,-⟩ := setCurrencyUnit_ok h₂
  obtain ⟨-,hb₃,-,-,hs₃,hn₃,hc₃⟩ := setCurrentBalance_ok h₃
  exact ⟨rfl,hb₃,hs₃.trans hs₂,hn₃.trans (hn₂.trans hn₁),hc₃.trans hc₂,rfl⟩

end BankAccount

section Own

variable {J : Jackson} {now : Millis} {a : BankAccount L}

theorem BankAccount.toString_own (h : a.Complete) : a.toString J now =
    .ok (Beans.write (BankAccount.getters J) a) ↔ J.timeStamp now = J.timeStamp a.updateAt := by
  obtain ⟨copy,hcopy⟩ := BankAccount.toStringCopy_ok h now
  have hc := BankAccount.toStringCopy_copied hcopy
  simp [BankAccount.toString,hcopy,Except.map,Beans.write,BankAccount.getters,hc.id,hc.balance,
    hc.status,hc.number,hc.currency,hc.updateAt]

theorem BankTransfer.toString_own (x : BankTransfer) : x.toString J =
    Beans.write (BankTransfer.getters J) x ↔
      x.id = none ∧ x.transactionID = none ∧ x.transferStatus = 0 := by
  have hid : ∀ u, J.uuid.nullable none = J.uuid.nullable u ↔ u = none :=
    fun u => ⟨fun h => (J.uuid.nullable_injective h).symm,fun h => by rw [h]⟩
  have hstatus : J.integer.write 0 = J.integer.write x.transferStatus ↔ x.transferStatus = 0 := by
    constructor
    · intro h
      have hsome : some 0 = some x.transferStatus := J.integer.nullable_injective h
      exact (Option.some.inj hsome).symm
    · exact fun h => by rw [h]
  simp [BankTransfer.toString,BankTransfer.toStringCopy,BankTransfer.setId,
    BankTransfer.setTransactionID,BankTransfer.setTransferStatus,Beans.write,BankTransfer.getters,
    hid,hstatus]

theorem User.toString_own (u : User) : u.toString J = Beans.write (User.getters J) u ↔
    u.dateCreated = none := by
  cases hd : u.dateCreated <;>
    simp [User.toString,User.toStringCopy,User.setId,User.setUsername,User.setPassword,Beans.write,
      User.getters,hd]

end Own

/-- An account shows its own data exactly if the time of the rendering is written like its
time stamp, a transfer if all it has are the default values, and a user without a date. -/
theorem toString_showsOwn (J : Jackson) (now : Millis) {a : BankAccount L} (ha : a.Complete)
    (x : BankTransfer) (u : User) :
    (a.toString J now = .ok (Beans.write (BankAccount.getters J) a) ↔
      J.timeStamp now = J.timeStamp a.updateAt) ∧
    (x.toString J = Beans.write (BankTransfer.getters J) x ↔
      x.id = none ∧ x.transactionID = none ∧ x.transferStatus = 0) ∧
    (u.toString J = Beans.write (User.getters J) u ↔ u.dateCreated = none) :=
  ⟨BankAccount.toString_own ha,BankTransfer.toString_own x,User.toString_own u⟩

namespace Sample

def renderedAccount : BankAccount libs := (account 1 iban₁ 100 valid₁).setAccountStatus (some 10)

def renderedTransfer : BankTransfer := {id := some 1, transactionID := some 2, transferStatus := 7}

def renderedUser : User := {id := some 1, username := some "user", dateCreated := some 50}

theorem renderedAccount_complete : renderedAccount.Complete :=
  ⟨⟨(100 : ℕ),rfl⟩,⟨iban₁,rfl⟩,"EUR",rfl⟩

end Sample

open Sample in
theorem toString_showsOwn_sample :
    (renderedAccount.toString jackson 100 =
        .ok (Beans.write (BankAccount.getters jackson) renderedAccount) ↔
      jackson.timeStamp 100 = jackson.timeStamp renderedAccount.updateAt) ∧
    (renderedTransfer.toString jackson =
        Beans.write (BankTransfer.getters jackson) renderedTransfer ↔
      renderedTransfer.id = none ∧ renderedTransfer.transactionID = none ∧
        renderedTransfer.transferStatus = 0) ∧
    (renderedUser.toString jackson = Beans.write (User.getters jackson) renderedUser ↔
      renderedUser.dateCreated = none) :=
  toString_showsOwn jackson 100 renderedAccount_complete renderedTransfer renderedUser

open Sample in
/-- The time stamp of the account is the time of the rendering, the transfer shows nothing of
its own, and the user has lost its date. -/
theorem toString_showsOther :
    renderedAccount.Complete ∧
    renderedAccount.toString jackson 100 ≠
      .ok (Beans.write (BankAccount.getters jackson) renderedAccount) ∧
    renderedTransfer.toString jackson = [("id",.null),("transactionID",.null),
      ("transactionStatus",.number 0)] ∧
    renderedTransfer.toString jackson ≠
      Beans.write (BankTransfer.getters jackson) renderedTransfer ∧
    renderedUser.toString jackson ≠ Beans.write (User.getters jackson) renderedUser := by
  refine ⟨renderedAccount_complete,?_,?_,?_,?_⟩ <;> decide +kernel

end HomeRest
