import HomeRest.Jackson
import HomeRest.Setters

/-! A transaction written as JSON and read back.
`toString` writes a copy in which nothing that a setter checks is unset. Every setter takes
what the copy has, in any order of the members, and so the copy comes back. -/
namespace HomeRest

open Beans

variable {L : Libs}

namespace BankTransaction

/-- The properties of the class; `isCredit` and `isDebit` are ignored. -/
def properties (J : Jackson) (now : Millis) : List (Property (BankTransaction L) Json Throwable) :=
  [J.uuid.property "id" BankTransaction.id fun v t => .ok (t.setId v),
    J.decimal.property "transactionAmount" transactionAmount fun v t => t.setTransactionAmount v,
    J.byte.property "transactionType" transactionType fun v t => .ok (t.setTransactionType v),
    J.calendar.property "transactionTime" (fun t => some t.transactionTime)
      fun v t => .ok (t.setTransactionTime v now),
    J.text.property "currencyUnit" currencyUnit fun v t => t.setCurrencyUnit v,
    J.integer.property "transactionStatus" transactionStatus
      fun v t => .ok (t.setTransactionStatus v),
    J.text.property "transactionFrom" transactionFrom fun v t => .ok (t.setTransactionFrom v),
    J.text.property "transactionTo" transactionTo fun v t => .ok (t.setTransactionTo v)]

def toString (J : Jackson) (now : Millis) (t : BankTransaction L) :
    Except Throwable (Members Json) :=
  (t.toStringCopy now).map (write (getters (properties J now)))

def readValue (J : Jackson) (randomId : UUID) (now : Millis) (json : Members Json) :
    Except Throwable (BankTransaction L) :=
  read (properties J now)
    (fun name => .plain .jsonMapping (.text ("Unrecognized field \"" ++ name ++ "\"")))
    (new randomId now) json

/-- Nothing that a setter checks or replaces is unset. -/
structure Filled (t : BankTransaction L) : Prop where
  amount : t.transactionAmount ≠ none
  type : t.transactionType ≠ none
  currency : t.currencyUnit ≠ none

theorem properties_take (J : Jackson) (now : Millis) {t : BankTransaction L} (h : t.Filled) :
    ∀ p ∈ properties J now, Takes (properties J now) p (p.get t) := by
  obtain ⟨x,hx⟩ := Option.ne_none_iff_exists'.mp h.amount
  obtain ⟨k,hk⟩ := Option.ne_none_iff_exists'.mp h.type
  obtain ⟨c,hc⟩ := Option.ne_none_iff_exists'.mp h.currency
  simp only [properties,List.forall_mem_cons,List.not_mem_nil,false_imp_iff,implies_true,and_true]
  refine ⟨?_,?_,?_,?_,?_,?_,?_,?_⟩ <;> apply Scalar.takes <;> intro a
  · exact ⟨_,rfl,rfl,by simp [Scalar.property,setId]⟩
  · rw [hx]
    exact ⟨_,a.setTransactionAmount_nonneg (t.amount_nonneg x hx),rfl,by simp [Scalar.property]⟩
  · rw [hk]
    exact ⟨_,rfl,rfl,by simp [Scalar.property,setTransactionType]⟩
  · exact ⟨_,rfl,rfl,by simp [Scalar.property,setTransactionTime]⟩
  · rw [hc]
    exact ⟨_,a.setCurrencyUnit_known (t.currency_known c hc),rfl,by simp [Scalar.property]⟩
  · exact ⟨_,rfl,rfl,by simp [Scalar.property,setTransactionStatus]⟩
  · exact ⟨_,rfl,rfl,by simp [Scalar.property,setTransactionFrom]⟩
  · exact ⟨_,rfl,rfl,by simp [Scalar.property,setTransactionTo]⟩

theorem properties_names (J : Jackson) (now : Millis) :
    ((properties J now : List (Property (BankTransaction L) Json Throwable)).map
      fun p => p.name).Nodup := by
  simp [properties,Scalar.property]

theorem eq_of_getters {J : Jackson} {now : Millis} {t t' : BankTransaction L}
    (h : ∀ p ∈ properties J now, p.get t' = p.get t) : t' = t := by
  simp only [properties,List.forall_mem_cons,Scalar.property] at h
  obtain ⟨hid,hamount,htype,htime,hcurrency,hstatus,hfrom,hto,-⟩ := h
  apply BankTransaction.ext
  · exact J.uuid.nullable_injective hid
  · exact J.decimal.nullable_injective hamount
  · exact J.byte.nullable_injective htype
  · exact Option.some.inj (J.calendar.nullable_injective htime)
  · exact J.text.nullable_injective hcurrency
  · exact J.integer.nullable_injective hstatus
  · exact J.text.nullable_injective hfrom
  · exact J.text.nullable_injective hto

/-- The transaction as it is shown: what is unset counts as zero, as debit and as EUR. -/
def shown (t : BankTransaction L) : BankTransaction L := {t with
  transactionAmount := some (t.transactionAmount.getD 0)
  transactionType := some (t.transactionType.getD (-1))
  currencyUnit := some (t.currencyUnit.getD "EUR")
  amount_nonneg := by
    cases ha : t.transactionAmount with
    | none => simp
    | some x => simpa using t.amount_nonneg x ha
  currency_known := by
    cases hc : t.currencyUnit with
    | none => simpa using L.euro
    | some c => simpa using t.currency_known c hc}

theorem shown_filled (t : BankTransaction L) : t.shown.Filled :=
  ⟨Option.some_ne_none _,Option.some_ne_none _,Option.some_ne_none _⟩

theorem shown_of_filled {t : BankTransaction L} (h : t.Filled) : t.shown = t := by
  obtain ⟨x,hx⟩ := Option.ne_none_iff_exists'.mp h.amount
  obtain ⟨k,hk⟩ := Option.ne_none_iff_exists'.mp h.type
  obtain ⟨c,hc⟩ := Option.ne_none_iff_exists'.mp h.currency
  apply BankTransaction.ext <;> simp [shown,hx,hk,hc]

theorem setCurrencyUnit_shown (t copy : BankTransaction L) :
    (copy.setCurrencyUnit t.currencyUnit).tryCatch (fun _ => copy.setCurrencyUnit (some "EUR")) =
      .ok {copy with
        currencyUnit := t.shown.currencyUnit
        currency_known := t.shown.currency_known} := by
  cases hc : t.currencyUnit with
  | none =>
    rw [setCurrencyUnit_known copy L.euro]
    simp [setCurrencyUnit,Except.tryCatch,shown,hc]
  | some c =>
    rw [setCurrencyUnit_known copy (t.currency_known c hc)]
    simp [Except.tryCatch,shown,hc]

theorem setTransactionAmount_shown (t copy : BankTransaction L) :
    copy.setTransactionAmount t.transactionAmount = .ok {copy with
      transactionAmount := t.shown.transactionAmount
      amount_nonneg := t.shown.amount_nonneg} := by
  cases ha : t.transactionAmount with
  | none => simp [setTransactionAmount,shown,ha]
  | some x =>
    rw [setTransactionAmount_nonneg copy (t.amount_nonneg x ha)]
    simp [shown,ha]

theorem toStringCopy_eq (t : BankTransaction L) (now : Millis) :
    t.toStringCopy now = .ok t.shown := by
  simp only [toStringCopy,setCurrencyUnit_shown,setTransactionAmount_shown,bind,Except.bind,pure,
    Except.pure,Except.ok.injEq]
  cases hk : t.transactionType <;> apply BankTransaction.ext <;>
    simp [setTransactionFrom,setTransactionTo,setTransactionType,setTransactionStatus,
      setTransactionTime,setDebitTransaction,setId,shown,hk]

theorem toString_eq (J : Jackson) (now now' : Millis) (t : BankTransaction L) :
    t.toString J now = .ok (write (getters (properties J now')) t.shown) := by
  rw [toString,toStringCopy_eq]
  rfl

theorem readValue_shown (J : Jackson) (t : BankTransaction L) (randomId : UUID) (now : Millis)
    {members : Members Json} (hm : members.Perm (write (getters (properties J now)) t.shown)) :
    readValue J randomId now members = .ok t.shown := by
  obtain ⟨t',hread,hget⟩ := read_write (properties_names J now) (properties_take J now t.shown_filled)
    hm (new randomId now)
  rw [readValue,hread,eq_of_getters hget]

end BankTransaction

/-- A transaction that is set comes back from its JSON, whatever the order of the members, and
every transaction comes back as one with the same JSON. -/
theorem toString_readBack (J : Jackson) {t : BankTransaction L} (ht : Built t) (now : Millis) :
    ∃ json, t.toString J now = .ok json ∧ ∀ members, members.Perm json → ∀ randomId readAt,
      ∃ t', BankTransaction.readValue J randomId readAt members = .ok t' ∧
        (t.currencyUnit ≠ none → t.transactionAmount ≠ none → t' = t) ∧
        ∀ later, t'.toString J later = .ok json := by
  refine ⟨_,t.toString_eq J now now,?_⟩
  intro members hm randomId readAt
  refine ⟨t.shown,t.readValue_shown J randomId readAt hm,?_,?_⟩
  · exact fun hc ha => BankTransaction.shown_of_filled ⟨ha,ht.typed,hc⟩
  · intro later
    rw [t.shown.toString_eq J later now,BankTransaction.shown_of_filled t.shown_filled]

namespace Sample

def billed : BankTransaction libs :=
  let t : BankTransaction libs := .new 9 100
  let t := t.settled (SetterCall.run t (.setTransactionAmount (some (1005/1000))))
  let t := t.settled (SetterCall.run t (.setCurrencyUnit (some "USD")))
  t.settled (SetterCall.run t (.setTransactionStatus none))

theorem billed_built : Built billed :=
  .set (.setTransactionStatus none) (.set (.setCurrencyUnit (some "USD"))
    (.set (.setTransactionAmount (some (1005/1000))) (.new 9 100)))

end Sample

open Sample in
theorem toString_readBack_sample :
    ∃ json, billed.toString jackson 200 = .ok json ∧ ∀ members, members.Perm json →
      ∀ randomId readAt, ∃ t', BankTransaction.readValue jackson randomId readAt members = .ok t' ∧
        (billed.currencyUnit ≠ none → billed.transactionAmount ≠ none → t' = billed) ∧
        ∀ later, t'.toString jackson later = .ok json :=
  toString_readBack jackson billed_built 200

example : Sample.billed.toString Sample.jackson 200 = .ok
    [("id",.string "00000000-0000-0000-0000-000000000009"),
      ("transactionAmount",.number (201/200)),("transactionType",.number (-1)),
      ("transactionTime",.number 100),("currencyUnit",.string "USD"),("transactionStatus",.null),
      ("transactionFrom",.null),("transactionTo",.null)] := by decide +kernel

end HomeRest
