import HomeRest.Entity
import HomeRest.HalfUp

/-! Transactions as their constructors and setters leave them.
A setter that throws leaves the object as it was. The amount has two setters: one stores a
decimal as it is, the other one rounds a monetary amount before anything else. -/
namespace HomeRest

variable {L : Libs}

structure MonetaryAmount where
  currency : String
  number : ℚ

namespace BankTransaction

/-- Half up to two fraction digits, whatever the currency. -/
def minorRounding (amount : MonetaryAmount) : MonetaryAmount :=
  {amount with number := HalfUp.toScale 2 amount.number}

/-- `setTransactionAmount( MonetaryAmount )`: the sign is that of the rounded amount. -/
def setTransactionMonetaryAmount (transactionAmount : Option MonetaryAmount) (t : BankTransaction L) :
    Except Throwable (BankTransaction L) :=
  match transactionAmount with
  | none => .error .nullPointer
  | some amount =>
    let currency := minorRounding amount
    if h : currency.number < 0 then
      .error (.plain .currencyAmount (.text
        "Current implementation does not allow negative amounts. Rollbacked. "))
    else .ok {t with
      transactionAmount := some currency.number
      amount_nonneg := by simpa using h}

def withStatus (transactionStatus : Option ℤ) (randomId : UUID) (now : Millis) : BankTransaction L :=
  {new randomId now with transactionStatus := transactionStatus}

def settled (t : BankTransaction L) : Except Throwable (BankTransaction L) → BankTransaction L
  | .ok t' => t'
  | .error _ => t

end BankTransaction

inductive SetterCall
  | setId (id : Option UUID)
  | setTransactionAmount (transactionAmount : Option ℚ)
  | setTransactionMonetaryAmount (transactionAmount : Option MonetaryAmount)
  | setTransactionType (transactionType : Option Int8)
  | setCreditTransaction
  | setDebitTransaction
  | setTransactionTime (transactionTime : Option Millis) (now : Millis)
  | setCurrencyUnit (currencyUnit : Option String)
  | setTransactionStatus (transactionStatus : Option ℤ)
  | setTransactionFrom (transactionFrom : Option String)
  | setTransactionTo (transactionTo : Option String)

def SetterCall.run (t : BankTransaction L) : SetterCall → Except Throwable (BankTransaction L)
  | .setId v => .ok (t.setId v)
  | .setTransactionAmount v => t.setTransactionAmount v
  | .setTransactionMonetaryAmount v => t.setTransactionMonetaryAmount v
  | .setTransactionType v => .ok (t.setTransactionType v)
  | .setCreditTransaction => .ok t.setCreditTransaction
  | .setDebitTransaction => .ok t.setDebitTransaction
  | .setTransactionTime v now => .ok (t.setTransactionTime v now)
  | .setCurrencyUnit v => t.setCurrencyUnit v
  | .setTransactionStatus v => .ok (t.setTransactionStatus v)
  | .setTransactionFrom v => .ok (t.setTransactionFrom v)
  | .setTransactionTo v => .ok (t.setTransactionTo v)

/-- What the constructors and any calls of setters make. -/
inductive Built : BankTransaction L → Prop
  | new (randomId : UUID) (now : Millis) : Built (.new randomId now)
  | withStatus (transactionStatus : Option ℤ) (randomId : UUID) (now : Millis) :
      Built (.withStatus transactionStatus randomId now)
  | set {t : BankTransaction L} (call : SetterCall) : Built t → Built (t.settled (call.run t))

section Typed

variable {t : BankTransaction L}

theorem settled_typed (call : SetterCall) (h : t.transactionType ≠ none) :
    (t.settled (call.run t)).transactionType ≠ none := by
  cases call with
  | setTransactionAmount v =>
    simp only [SetterCall.run,BankTransaction.setTransactionAmount]
    split <;> exact h
  | setTransactionMonetaryAmount v =>
    cases v with
    | none => exact h
    | some amount =>
      simp only [SetterCall.run,BankTransaction.setTransactionMonetaryAmount]
      split <;> exact h
  | setCurrencyUnit v =>
    cases v with
    | none => exact h
    | some c =>
      simp only [SetterCall.run,BankTransaction.setCurrencyUnit]
      split <;> exact h
  | setTransactionType v => cases v <;> exact Option.some_ne_none _
  | setCreditTransaction => exact Option.some_ne_none _
  | setDebitTransaction => exact Option.some_ne_none _
  | setId v => exact h
  | setTransactionTime v now => exact h
  | setTransactionStatus v => exact h
  | setTransactionFrom v => exact h
  | setTransactionTo v => exact h

theorem Built.typed (h : Built t) : t.transactionType ≠ none := by
  induction h with
  | new randomId now => exact Option.some_ne_none _
  | withStatus status randomId now => exact Option.some_ne_none _
  | set call _ ih => exact settled_typed call ih

end Typed

/-! ### The two setters of the amount -/

def Refused (r : Except Throwable (BankTransaction L)) : Prop :=
  ∃ e, r = .error e ∧ e.cls = .currencyAmount

/-- Both calls are refused and leave the amount, or both store the same amount. -/
def AmountsAgree (t : BankTransaction L) (r r' : Except Throwable (BankTransaction L)) : Prop :=
  (Refused r ∧ Refused r' ∧ (t.settled r).transactionAmount = t.transactionAmount ∧
    (t.settled r').transactionAmount = t.transactionAmount) ∨
  r.isOk = true ∧ r'.isOk = true ∧
    (t.settled r).transactionAmount = (t.settled r').transactionAmount

section Amount

variable {t : BankTransaction L} {x y : ℚ}

theorem setTransactionAmount_negative (h : x < 0) : ∃ e, t.setTransactionAmount (some x) = .error e ∧
    e.cls = .currencyAmount := by
  simp [BankTransaction.setTransactionAmount,h,Throwable.cls]

theorem setTransactionMonetaryAmount_eq (amount : MonetaryAmount) :
    t.setTransactionMonetaryAmount (some amount) =
      t.setTransactionAmount (some (HalfUp.toScale 2 amount.number)) := rfl

theorem amountsAgree_iff : AmountsAgree t (t.setTransactionAmount (some x))
    (t.setTransactionAmount (some y)) ↔ x < 0 ∧ y < 0 ∨ 0 ≤ x ∧ 0 ≤ y ∧ x = y := by
  rcases lt_or_ge x 0 with hx | hx
  · obtain ⟨e,he,hc⟩ := setTransactionAmount_negative (t := t) hx
    rcases lt_or_ge y 0 with hy | hy
    · obtain ⟨e',he',hc'⟩ := setTransactionAmount_negative (t := t) hy
      rw [he,he']
      exact iff_of_true (.inl ⟨⟨e,rfl,hc⟩,⟨e',rfl,hc'⟩,rfl,rfl⟩) (.inl ⟨hx,hy⟩)
    · rw [he,t.setTransactionAmount_nonneg hy]
      simp [AmountsAgree,Refused,Except.isOk,Except.toBool,not_lt.mpr hy,not_le.mpr hx]
  · rw [t.setTransactionAmount_nonneg hx]
    rcases lt_or_ge y 0 with hy | hy
    · obtain ⟨e',he',-⟩ := setTransactionAmount_negative (t := t) hy
      rw [he']
      simp [AmountsAgree,Refused,Except.isOk,Except.toBool,not_lt.mpr hx,not_le.mpr hy]
    · rw [t.setTransactionAmount_nonneg hy]
      simp [AmountsAgree,Refused,Except.isOk,Except.toBool,BankTransaction.settled,hx,hy,
        not_lt.mpr hx]

end Amount

/-- The two setters agree on negative amounts from half a cent on, and on whole cents. -/
theorem setTransactionAmount_agrees (t : BankTransaction L) (x : ℚ) :
    AmountsAgree t (t.setTransactionAmount (some x))
      (t.setTransactionMonetaryAmount (some ⟨"EUR",x⟩)) ↔
    x ≤ -(1/200) ∨ 0 ≤ x ∧ ∃ n : ℤ, x = n/100 := by
  have hcents : (∃ n : ℤ, x = n/100) ↔ HalfUp.toScale 2 x = x := by
    rw [HalfUp.toScale_eq_self]
    norm_num
  have hsign : x ≤ -(1/200) ↔ HalfUp.toScale 2 x < 0 := by
    rw [HalfUp.toScale_neg_iff]
    constructor <;> intro h <;> linarith
  rw [setTransactionMonetaryAmount_eq,amountsAgree_iff,hcents]
  constructor
  · rintro (⟨-,hy⟩ | ⟨hx,-,he⟩)
    · exact .inl (hsign.mpr hy)
    · exact .inr ⟨hx,he.symm⟩
  · rintro (hx | ⟨hx,he⟩)
    · exact .inl ⟨by linarith,hsign.mp hx⟩
    · exact .inr ⟨hx,HalfUp.toScale_nonneg 2 hx,he.symm⟩

open Sample in
/-- A sum with half a cent is kept by one setter and rounded by the other, and a debt of a
tenth of a cent is refused by one and stored as zero by the other. -/
theorem setTransactionAmount_differs :
    ¬ AmountsAgree (.new 9 100 : BankTransaction libs)
      (BankTransaction.setTransactionAmount (some (2001/200)) (.new 9 100))
      (BankTransaction.setTransactionMonetaryAmount (some ⟨"EUR",2001/200⟩) (.new 9 100)) ∧
    ¬ AmountsAgree (.new 9 100 : BankTransaction libs)
      (BankTransaction.setTransactionAmount (some (-1/1000)) (.new 9 100))
      (BankTransaction.setTransactionMonetaryAmount (some ⟨"EUR",-1/1000⟩) (.new 9 100)) := by
  have hup : HalfUp.toScale 2 (2001/200) = 1001/100 := by decide +kernel
  have hzero : HalfUp.toScale 2 (-1/1000) = 0 := by decide +kernel
  rw [setTransactionMonetaryAmount_eq,setTransactionMonetaryAmount_eq,hup,hzero,amountsAgree_iff,
    amountsAgree_iff]
  norm_num

end HomeRest
