import HomeRest.Process

/-! The pieces of `transactInAccounts`.
A pass that fires reads both rows, then writes both; every other store step of the loop
is a read. These are equations between programs: they hold under any interleaving. -/
namespace HomeRest

open AtomicProgram

variable {L : Libs}

section Steps

theorem logAccount_complete {a : BankAccount L} (h : a.Complete) (now : Millis) :
    logAccount now a = .ret () := by
  obtain ⟨copy,hc⟩ := BankAccount.toStringCopy_ok h now
  simp [logAccount,hc,Except.map]

end Steps

section Side

def sideOf (env : Env) (t : BankTransaction L) (status : ℤ) (read stamp balance : Site)
    (sign : ℚ → ℚ) (complaint : String) (found : Option (BankAccount L)) :
    Except Throwable (BankAccount L) := do
  let side ← optionalGet found
  let _ ← side.toStringCopy (env.occasion read).now
  let side := (side.setAccountStatus (some status)).setUpdateAt none (env.occasion stamp).now
  let new ← newBalance t side sign complaint
  side.setCurrentBalance (some new) (env.occasion balance).now

theorem readSide_eq (env : Env) (t : BankTransaction L) (n : Option String) (status : ℤ)
    (read stamp balance : Site) (sign : ℚ → ℚ) (complaint : String) :
    readSide env t n status read stamp balance sign complaint =
      (callGetAccountByNumber env read n).cont
        (fun found => .ofExcept (sideOf env t status read stamp balance sign complaint found))
        .raise := by
  simp only [readSide,sideOf,logAccount,Program.bind_def,Program.ofExcept_bind,
    Program.ofExcept_map_cont]

/-- The account that is read becomes the account that is written. -/
structure Side (now : Millis) (status : ℤ) (balance : ℚ) (a side : BankAccount L) : Prop where
  id : side.id = a.id
  balance : side.currentBalance = some balance
  status : side.accountStatus = some status
  number : side.accountNumber = a.accountNumber
  currency : side.currencyUnit = a.currencyUnit
  updateAt : side.updateAt = now

theorem Side.complete {now : Millis} {status : ℤ} {balance : ℚ} {a side : BankAccount L}
    (h : Side now status balance a side) (ha : a.Complete) : side.Complete :=
  ⟨⟨balance,h.balance⟩,ha.number.imp fun _ hn => h.number.trans hn,
    ha.currency.imp fun _ hc => h.currency.trans hc⟩

variable {env : Env} {t : BankTransaction L} {status : ℤ} {read stamp balance : Site}
  {sign : ℚ → ℚ} {complaint : String} {a side : BankAccount L} {b x : ℚ} {k : Int8}

theorem newBalance_eq (hb : a.currentBalance = some b) (hx : t.transactionAmount = some x)
    (hk : t.transactionType = some k) :
    newBalance t a sign complaint =
      if b+x*sign (k.toInt : ℚ) < 0 then
        .error (.caused .bankTransactionProcessing (.decimal (b+x*sign (k.toInt : ℚ)) complaint)
          (.plain .currencyAmount (.text
            "Current implementation does not allow negative amounts. Rollbacked. ")))
      else .ok (b+x*sign (k.toInt : ℚ)) := by
  by_cases h0 : b+x*sign (k.toInt : ℚ) < 0
  · simp [newBalance,hb,hx,hk,h0,nonNull,bind,Except.bind,throw,throwThe,MonadExceptOf.throw]
  · simp [newBalance,hb,hx,hk,h0,nonNull,bind,Except.bind,pure,Except.pure]

theorem newBalance_unset (hx : t.transactionAmount = none) (hb : a.currentBalance = some b) :
    newBalance t a sign complaint = .error .nullPointer := by
  simp [newBalance,hb,hx,nonNull,bind,Except.bind]

theorem sideOf_sound (hk : t.transactionType = some k)
    (h : sideOf env t status read stamp balance sign complaint (some a) = .ok side) :
    a.Complete ∧ ∃ b x, a.currentBalance = some b ∧ t.transactionAmount = some x ∧
      0 ≤ b+x*sign (k.toInt : ℚ) ∧
      Side (env.occasion balance).now status (b+x*sign (k.toInt : ℚ)) a side := by
  simp only [sideOf,optionalGet,bind_ok,Except.ok.injEq,exists_eq_left'] at h
  obtain ⟨copy,hcopy,new,hnew,hset⟩ := h
  have ha := BankAccount.complete_of_toStringCopy hcopy
  obtain ⟨b,hb⟩ := ha.balance
  let marked := (a.setAccountStatus (some status)).setUpdateAt none (env.occasion stamp).now
  have hm : marked.currentBalance = some b := hb
  cases hx : t.transactionAmount with
  | none =>
    rw [newBalance_unset (a := marked) hx hm] at hnew
    cases hnew
  | some x =>
    rw [newBalance_eq (a := marked) hm hx hk] at hnew
    by_cases h0 : b+x*sign (k.toInt : ℚ) < 0
    · simp [h0] at hnew
    · simp only [h0,ite_false,Except.ok.injEq] at hnew
      subst hnew
      obtain ⟨-,hbal,hat,hid,hst,hnum,hcur⟩ := BankAccount.setCurrentBalance_ok hset
      exact ⟨ha,b,x,hb,rfl,not_lt.mp h0,hid,hbal,hst,hnum,hcur,hat⟩

theorem sideOf_total (hk : t.transactionType = some k) (ha : a.Complete)
    (hb : a.currentBalance = some b) (hx : t.transactionAmount = some x)
    (h0 : 0 ≤ b+x*sign (k.toInt : ℚ)) :
    ∃ side, sideOf env t status read stamp balance sign complaint (some a) = .ok side := by
  obtain ⟨copy,hcopy⟩ := BankAccount.toStringCopy_ok ha (env.occasion read).now
  let marked := (a.setAccountStatus (some status)).setUpdateAt none (env.occasion stamp).now
  have hnew : newBalance t marked sign complaint = .ok (b+x*sign (k.toInt : ℚ)) := by
    rw [newBalance_eq (a := marked) hb hx hk,if_neg (not_lt.mpr h0)]
  obtain ⟨side,hside⟩ := BankAccount.setCurrentBalance_nonneg h0 (env.occasion balance).now marked
  refine ⟨side,?_⟩
  simp only [sideOf,optionalGet,bind_ok,Except.ok.injEq,exists_eq_left']
  exact ⟨copy,hcopy,_,hnew,hside⟩

/-- The blank account of a failed cast fails at its log line. -/
theorem sideOf_unset (ha : a.accountNumber = none) :
    sideOf env t status read stamp balance sign complaint (some a) =
      .error (L.invalidIban none) := by
  simp [sideOf,optionalGet,BankAccount.toStringCopy_unset ha,bind,Except.bind]

end Side

section Guard

variable {t : BankTransaction L} {a c : BankAccount L}

theorem currencyGuard_ok : currencyGuard a c t = .ok () ↔
    ∃ u, a.currencyUnit = some u ∧ c.currencyUnit = some u ∧ t.currencyUnit = some u := by
  cases ha : a.currencyUnit with
  | none => simp [currencyGuard,ha,contentEquals,bind,Except.bind]
  | some u =>
    cases hc : c.currencyUnit with
    | none => simp [currencyGuard,ha,hc,contentEquals,bind,Except.bind]
    | some v =>
      by_cases huv : u = v
      · subst huv
        cases ht : t.currencyUnit with
        | none => simp [currencyGuard,ha,hc,ht,contentEquals,bind,Except.bind]
        | some w =>
          by_cases huw : u = w
          · simp [currencyGuard,ha,hc,ht,huw,contentEquals,bind,Except.bind,pure,Except.pure]
          · simp [currencyGuard,ha,hc,ht,huw,contentEquals,bind,Except.bind,throw,throwThe,
              MonadExceptOf.throw,Ne.symm huw]
      · simp [currencyGuard,ha,hc,huv,contentEquals,bind,Except.bind,throw,throwThe,
          MonadExceptOf.throw,Ne.symm huv]

theorem not_ok_guard (h : ¬ currencyGuard a c t = .ok ()) :
    ∃ e, currencyGuard a c t = .error e := by
  cases hg : currencyGuard a c t with
  | ok u => exact absurd hg h
  | error e => exact ⟨e,rfl⟩

theorem contentEquals_true {s s' : Option String} (h : contentEquals s s' = .ok true) : s = s' := by
  cases s with
  | none => simp [contentEquals] at h
  | some u =>
    cases s' with
    | none => simp [contentEquals] at h
    | some v => simpa [contentEquals] using h

end Guard

section Loop

variable (env : Env) (t : BankTransaction L) (pass : ℕ)

def visit (rest : List (BankAccount L)) (balanceFrom balanceTo account : BankAccount L) :
    Code L (List (BankAccount L)) := do
  Program.ofExcept (currencyGuard balanceFrom balanceTo t)
  match ← Program.ofExcept (chooseBranch t account) with
  | .credit =>
    let (balanceFrom,balanceTo) ← creditBranch env pass t account
    transactLoop env t (pass+1) rest balanceFrom balanceTo
  | .debit =>
    let (balanceFrom,balanceTo) ← debitBranch env pass t account
    transactLoop env t (pass+1) rest balanceFrom balanceTo
  | .sameAccount => .raise (.plain .bankTransactionProcessing (.text
      "There should be Currencies implemented for this transaction. Not in this MVP."))
  | .skip => transactLoop env t (pass+1) rest balanceFrom balanceTo

theorem transactLoop_cons (z : BankAccount L) (rest : List (BankAccount L))
    (balanceFrom balanceTo : BankAccount L) :
    transactLoop env t pass (z :: rest) balanceFrom balanceTo =
      (callGetAccountByNumber env (.loop pass) z.accountNumber).cont (fun found =>
        (Program.ofExcept (optionalGet found)).cont
          (visit env t pass rest balanceFrom balanceTo) .raise) .raise := rfl

/-- Money moves in the pass that visits the from account of a credit or the to account of
a debit. -/
def Fires (visited : Option String) : Prop :=
  t.transactionType = some 1 ∧ t.transactionFrom = visited ∨
    t.transactionType = some (-1) ∧ t.transactionTo = visited

instance (visited : Option String) : Decidable (Fires t visited) :=
  inferInstanceAs (Decidable (_ ∨ _))

def fire (account : BankAccount L) : Code L (BankAccount L × BankAccount L) :=
  if t.transactionType = some 1 then
    transferBlock env pass t account (fun type => -type) (fun type => type)
      " is negative." " is a negative number"
  else
    transferBlock env pass t account (fun type => type) (fun type => -type)
      " is a negative number." " is negative."

variable {env t pass}

theorem chooseBranch_fires {account : BankAccount L} {v : String} (hv : account.accountNumber = some v)
    (h : Fires t account.accountNumber) :
    t.transactionType = some 1 ∧ chooseBranch t account = .ok .credit ∨
      t.transactionType = some (-1) ∧ chooseBranch t account = .ok .debit := by
  rw [hv] at h
  rcases h with ⟨hk,hn⟩ | ⟨hk,hn⟩
  · left
    simp [chooseBranch,BankTransaction.isCredit,hk,hn,hv,contentEquals,bind,Except.bind,pure,Except.pure]
  · right
    simp [chooseBranch,BankTransaction.isCredit,BankTransaction.isDebit,hk,hn,hv,contentEquals,bind,
      Except.bind,pure,Except.pure]

theorem chooseBranch_idle {account : BankAccount L} (h : ¬ Fires t account.accountNumber) :
    chooseBranch t account ≠ .ok .credit ∧ chooseBranch t account ≠ .ok .debit := by
  cases hk : t.transactionType with
  | none => simp [chooseBranch,BankTransaction.isCredit,hk,bind,Except.bind]
  | some k =>
    have hcr : k = 1 → contentEquals t.transactionFrom account.accountNumber ≠ .ok true :=
      fun hk1 hf => h (.inl ⟨by rw [hk,hk1],contentEquals_true hf⟩)
    have hdb : k = -1 → contentEquals t.transactionTo account.accountNumber ≠ .ok true :=
      fun hk1 hf => h (.inr ⟨by rw [hk,hk1],contentEquals_true hf⟩)
    simp only [chooseBranch,BankTransaction.isCredit,BankTransaction.isDebit,hk]
    generalize contentEquals t.transactionFrom account.accountNumber = cf at hcr
    generalize contentEquals t.transactionTo account.accountNumber = ct at hdb
    generalize contentEquals t.transactionFrom t.transactionTo = same
    by_cases h₁ : k = 1 <;> by_cases h₂ : k = -1 <;> rcases cf with e | _ | _ <;>
      rcases ct with e' | _ | _ <;> rcases same with e'' | _ | _ <;>
        simp_all [bind,Except.bind,pure,Except.pure]

theorem chooseBranch_skip (hc : t.CreditOrDebit) {account : BankAccount L} {v n m : String}
    (hv : account.accountNumber = some v) (hn : t.transactionFrom = some n)
    (hm : t.transactionTo = some m) (hnm : n ≠ m) (h : ¬ Fires t account.accountNumber) :
    chooseBranch t account = .ok .skip := by
  rcases hc with hk | hk
  · have hnv : n ≠ v := fun he => h (.inl ⟨hk,by rw [hn,hv,he]⟩)
    simp [chooseBranch,BankTransaction.isCredit,BankTransaction.isDebit,hk,hn,hm,hv,hnm,hnv,
      contentEquals,bind,Except.bind,pure,Except.pure]
  · have hmv : m ≠ v := fun he => h (.inr ⟨hk,by rw [hm,hv,he]⟩)
    simp [chooseBranch,BankTransaction.isCredit,BankTransaction.isDebit,hk,hn,hm,hv,hnm,hmv,
      contentEquals,bind,Except.bind,pure,Except.pure]

theorem chooseBranch_unset (hc : t.CreditOrDebit) {account : BankAccount L}
    (hv : account.accountNumber = none) : chooseBranch t account = .error .nullPointer := by
  rcases hc with hk | hk <;>
    simp [chooseBranch,BankTransaction.isCredit,BankTransaction.isDebit,hk,hv,contentEquals,bind,
      Except.bind,pure,Except.pure]

variable {rest : List (BankAccount L)} {balanceFrom balanceTo account : BankAccount L}

theorem visit_fires (hg : currencyGuard balanceFrom balanceTo t = .ok ()) (ha : account.Complete)
    (h : Fires t account.accountNumber) :
    visit env t pass rest balanceFrom balanceTo account =
      (fire env t pass account).cont
        (fun sides => transactLoop env t (pass+1) rest sides.1 sides.2) .raise := by
  obtain ⟨v,hv⟩ := ha.number
  rcases chooseBranch_fires hv h with ⟨hk,hb⟩ | ⟨hk,hb⟩
  · simp [visit,hg,hb,fire,hk,creditBranch,logAccount_complete ha]
  · simp [visit,hg,hb,fire,hk,debitBranch,logAccount_complete ha]

theorem visit_skip (hg : currencyGuard balanceFrom balanceTo t = .ok ()) (hc : t.CreditOrDebit)
    {v n m : String} (hv : account.accountNumber = some v) (hn : t.transactionFrom = some n)
    (hm : t.transactionTo = some m) (hnm : n ≠ m) (h : ¬ Fires t account.accountNumber) :
    visit env t pass rest balanceFrom balanceTo account =
      transactLoop env t (pass+1) rest balanceFrom balanceTo := by
  simp [visit,hg,chooseBranch_skip hc hv hn hm hnm h]

theorem visit_guard {e : Throwable} (hg : currencyGuard balanceFrom balanceTo t = .error e) :
    visit env t pass rest balanceFrom balanceTo account = .raise e := by
  simp [visit,hg]

theorem visit_unset (hc : t.CreditOrDebit) (hv : account.accountNumber = none) :
    ∃ e, visit env t pass rest balanceFrom balanceTo account = .raise e := by
  cases hg : currencyGuard balanceFrom balanceTo t with
  | error e => exact ⟨e,visit_guard hg⟩
  | ok u => exact ⟨.nullPointer,by simp [visit,hg,chooseBranch_unset hc hv]⟩

/-- A pass raises, or fires, or goes on to the next one. -/
theorem visit_cases (rest : List (BankAccount L)) (balanceFrom balanceTo : BankAccount L)
    (ha : account.Complete) :
    (∃ e, visit env t pass rest balanceFrom balanceTo account = .raise e) ∨
    (Fires t account.accountNumber ∧ visit env t pass rest balanceFrom balanceTo account =
      (fire env t pass account).cont
        (fun sides => transactLoop env t (pass+1) rest sides.1 sides.2) .raise) ∨
    visit env t pass rest balanceFrom balanceTo account =
      transactLoop env t (pass+1) rest balanceFrom balanceTo := by
  by_cases hg : currencyGuard balanceFrom balanceTo t = .ok ()
  · by_cases hf : Fires t account.accountNumber
    · exact .inr (.inl ⟨hf,visit_fires hg ha hf⟩)
    · obtain ⟨hcr,hdb⟩ := chooseBranch_idle hf
      cases hb : chooseBranch t account with
      | error e => exact .inl ⟨e,by simp [visit,hg,hb]⟩
      | ok branch =>
        cases branch with
        | credit => exact absurd hb hcr
        | debit => exact absurd hb hdb
        | sameAccount => exact .inl ⟨_,by simp [visit,hg,hb]; rfl⟩
        | skip => exact .inr (.inr (by simp [visit,hg,hb]))
  · obtain ⟨e,he⟩ := not_ok_guard hg
    exact .inl ⟨e,visit_guard he⟩

end Loop

section Block

variable (env : Env) (t : BankTransaction L) (pass : ℕ)

def outgoing (found : Option (BankAccount L)) : Except Throwable (BankAccount L) :=
  if t.transactionType = some 1 then
    sideOf env t 10 (.branchFrom pass) (.stampFrom pass) (.balanceFrom pass) (fun type => -type)
      " is negative." found
  else
    sideOf env t 10 (.branchFrom pass) (.stampFrom pass) (.balanceFrom pass) (fun type => type)
      " is a negative number." found

def incoming (found : Option (BankAccount L)) : Except Throwable (BankAccount L) :=
  if t.transactionType = some 1 then
    sideOf env t 20 (.branchTo pass) (.stampTo pass) (.balanceTo pass) (fun type => type)
      " is a negative number" found
  else
    sideOf env t 20 (.branchTo pass) (.stampTo pass) (.balanceTo pass) (fun type => -type)
      " is negative." found

def writeSides (balanceFrom balanceTo : BankAccount L) : Code L (BankAccount L × BankAccount L) := do
  logAccount (env.occasion (.updateFrom pass)).now balanceFrom
  let _ ← callUpdateAccount env (.updateFrom pass) balanceFrom
  logAccount (env.occasion (.updateTo pass)).now balanceTo
  let _ ← callUpdateAccount env (.updateTo pass) balanceTo
  return (balanceFrom,balanceTo)

def updateFailed (account : BankAccount L) (e : Throwable) : Throwable :=
  .caused .bankTransactionProcessing (.text
    ("Account " ++ orNull account.accountNumber ++ " update failed. ")) e

/-- The block that fires is two reads and two writes, whichever branch it is. -/
theorem fire_eq (account : BankAccount L) :
    fire env t pass account =
      ((callGetAccountByNumber env (.branchFrom pass) t.transactionFrom).cont (fun foundFrom =>
        (Program.ofExcept (outgoing env t pass foundFrom)).cont (fun balanceFrom =>
          (callGetAccountByNumber env (.branchTo pass) t.transactionTo).cont (fun foundTo =>
            (Program.ofExcept (incoming env t pass foundTo)).cont
              (writeSides env pass balanceFrom) .raise) .raise) .raise) .raise).handle
        fun e => .raise (updateFailed account e) := by
  by_cases hk : t.transactionType = some 1
  · simp only [fire,hk,ite_true,transferBlock,readSide_eq,outgoing,incoming,Program.bind_def,
      Program.cont_cont,Program.raise_cont,updateFailed]
    rfl
  · simp only [fire,hk,ite_false,transferBlock,readSide_eq,outgoing,incoming,Program.bind_def,
      Program.cont_cont,Program.raise_cont,updateFailed]
    rfl

theorem writeSides_eq {balanceFrom balanceTo : BankAccount L} (hf : balanceFrom.Complete)
    (ht : balanceTo.Complete) :
    writeSides env pass balanceFrom balanceTo =
      (callUpdateAccount env (.updateFrom pass) balanceFrom).cont (fun _ =>
        (callUpdateAccount env (.updateTo pass) balanceTo).cont (fun _ =>
          .ret (balanceFrom,balanceTo)) .raise) .raise := by
  simp [writeSides,logAccount_complete hf,logAccount_complete ht]

variable {env t pass} {a side : BankAccount L} {b x : ℚ}

theorem credit_toInt : (((1 : Int8).toInt : ℤ) : ℚ) = 1 := by
  rw [show (1 : Int8).toInt = 1 by decide,Int.cast_one]
theorem debit_toInt : (((-1 : Int8).toInt : ℤ) : ℚ) = -1 := by
  rw [show (-1 : Int8).toInt = -1 by decide,Int.cast_neg,Int.cast_one]

theorem outgoing_sound (hc : t.CreditOrDebit) (h : outgoing env t pass (some a) = .ok side) :
    a.Complete ∧ ∃ b x, a.currentBalance = some b ∧ t.transactionAmount = some x ∧ x ≤ b ∧
      Side (env.occasion (.balanceFrom pass)).now 10 (b-x) a side := by
  rcases hc with hk | hk
  · simp only [outgoing,hk,ite_true] at h
    obtain ⟨ha,b,x,hb,hx,h0,hs⟩ := sideOf_sound hk h
    have he : b+x*(-(((1 : Int8).toInt : ℤ) : ℚ)) = b-x := by rw [credit_toInt]; ring
    rw [he] at h0 hs
    exact ⟨ha,b,x,hb,hx,by linarith,hs⟩
  · simp only [outgoing,hk,show ¬ (some (-1 : Int8) = some 1) by decide,ite_false] at h
    obtain ⟨ha,b,x,hb,hx,h0,hs⟩ := sideOf_sound hk h
    have he : b+x*(((-1 : Int8).toInt : ℤ) : ℚ) = b-x := by rw [debit_toInt]; ring
    rw [he] at h0 hs
    exact ⟨ha,b,x,hb,hx,by linarith,hs⟩

theorem outgoing_total (hc : t.CreditOrDebit) (ha : a.Complete) (hb : a.currentBalance = some b)
    (hx : t.transactionAmount = some x) (hxb : x ≤ b) :
    ∃ side, outgoing env t pass (some a) = .ok side := by
  rcases hc with hk | hk
  · simp only [outgoing,hk,ite_true]
    exact sideOf_total hk ha hb hx (by rw [credit_toInt]; linarith)
  · simp only [outgoing,hk,show ¬ (some (-1 : Int8) = some 1) by decide,ite_false]
    exact sideOf_total hk ha hb hx (by rw [debit_toInt]; linarith)

theorem outgoing_unset (ha : a.accountNumber = none) :
    outgoing env t pass (some a) = .error (L.invalidIban none) := by
  simp [outgoing,sideOf_unset ha]

theorem incoming_sound (hc : t.CreditOrDebit) (h : incoming env t pass (some a) = .ok side) :
    a.Complete ∧ ∃ d x, a.currentBalance = some d ∧ t.transactionAmount = some x ∧
      Side (env.occasion (.balanceTo pass)).now 20 (d+x) a side := by
  rcases hc with hk | hk
  · simp only [incoming,hk,ite_true] at h
    obtain ⟨ha,d,x,hd,hx,-,hs⟩ := sideOf_sound hk h
    have he : d+x*(((1 : Int8).toInt : ℤ) : ℚ) = d+x := by rw [credit_toInt]; ring
    rw [he] at hs
    exact ⟨ha,d,x,hd,hx,hs⟩
  · simp only [incoming,hk,show ¬ (some (-1 : Int8) = some 1) by decide,ite_false] at h
    obtain ⟨ha,d,x,hd,hx,-,hs⟩ := sideOf_sound hk h
    have he : d+x*(-(((-1 : Int8).toInt : ℤ) : ℚ)) = d+x := by rw [debit_toInt]; ring
    rw [he] at hs
    exact ⟨ha,d,x,hd,hx,hs⟩

/-- The guard of the to side never fires: both of its summands are nonnegative. -/
theorem incoming_total (hc : t.CreditOrDebit) (ha : a.Complete) (hx : t.transactionAmount = some x) :
    ∃ side, incoming env t pass (some a) = .ok side := by
  obtain ⟨d,hd⟩ := ha.balance
  have hd0 := a.balance_nonneg d hd
  have hx0 := t.amount_nonneg x hx
  rcases hc with hk | hk
  · simp only [incoming,hk,ite_true]
    exact sideOf_total hk ha hd hx (by rw [credit_toInt]; linarith)
  · simp only [incoming,hk,show ¬ (some (-1 : Int8) = some 1) by decide,ite_false]
    exact sideOf_total hk ha hd hx (by rw [debit_toInt]; linarith)

theorem incoming_unset (ha : a.accountNumber = none) :
    incoming env t pass (some a) = .error (L.invalidIban none) := by
  simp [incoming,sideOf_unset ha]

end Block

end HomeRest
