import HomeRest.Interleaving
import HomeRest.ProcessRun

/-! One call of `processTransaction` among others.
The lookups of the call see a table that the others may have changed in between. A fact
about its phases is proved for the block that moves money, and carried through the loop
and both functors by the rules of this module. -/
namespace HomeRest

open AtomicProgram

variable {L : Libs} {db : Database} {φ : Type} {J : Table → Prop}
  {Step : φ → StoreCall L → Table → φ → Prop} {env : Env} {t : BankTransaction L} {ph : φ}

section Calls

variable {β : Type} {R : Except Throwable β → φ → Prop}

theorem follows_get {site : Site} {n : Option String}
    {f : Option (BankAccount L) → Code L β} {h : Throwable → Code L β}
    (H : ∀ T, J T → ∃ ph', Step ph (.getAccountByNumber (env.occasion site) n) T ph' ∧
      (∀ found, getAccountByNumber (env.occasion site) n T = .ok found →
        Follows (serve db) J Step R ph' (f found)) ∧
      (∀ e, (getAccountByNumber (env.occasion site) n T :
        Except Throwable (Option (BankAccount L))) = .error e → Follows (serve db) J Step R ph' (h e))) :
    Follows (serve db) J Step R ph ((callGetAccountByNumber env site n).cont f h) :=
  follows_perform H

/-- A lookup whose account is computed on: with the blank account of a failed cast the
computation fails. -/
theorem follows_lookup {α : Type} {site : Site} {n : Option String}
    {compute : Option (BankAccount L) → Except Throwable α} {next : α → Code L β}
    (hunset : ∀ a : BankAccount L, a.accountNumber = none → ∃ e, compute (some a) = .error e)
    (H : ∀ T, J T → ∃ ph', Step ph (.getAccountByNumber (env.occasion site) n) T ph' ∧
      (∀ a r, Reads (env.occasion site) n T a → compute (some a) = .ok r →
        Follows (serve db) J Step R ph' (next r)) ∧
      ((¬ ∃ a r, Reads (env.occasion site) n T a ∧ compute (some a) = .ok r) →
        ∀ e, R (.error e) ph')) :
    Follows (serve db) J Step R ph ((callGetAccountByNumber env site n).cont
      (fun found => (Program.ofExcept (compute found)).cont next .raise) .raise) := by
  apply follows_get
  intro T hT
  obtain ⟨ph',hstep,hok,herror⟩ := H T hT
  refine ⟨ph',hstep,?_,?_⟩
  · intro found hfound
    have hcomp : (getAccountByNumber (env.occasion site) n T >>= compute) = compute found := by
      rw [hfound]
      rfl
    rcases lookup_cases (env.occasion site) n T compute hunset with ⟨e,he⟩ | ⟨a,r,ha,hr,hrun⟩
    · rw [hcomp] at he
      rw [he]
      apply herror
      rintro ⟨a,r,ha,hr⟩
      cases hfound.symm.trans ha.2
      cases he.symm.trans hr
    · rw [hcomp] at hrun
      rw [hrun]
      exact hok a r ha hr
  · intro e he
    apply herror
    rintro ⟨a,r,ha,-⟩
    cases he.symm.trans ha.2

end Calls

section Loop

theorem transactLoop_follows_collection (hc : t.CreditOrDebit) {collection : List (BankAccount L)}
    (hpeek : ∀ pass, ∀ z ∈ collection, ∀ T, J T →
      Step ph (.getAccountByNumber (env.occasion (.loop pass)) z.accountNumber) T ph)
    (hfire : ∀ pass account, Follows (serve db) J Step (fun _ ph' => ph' = ph) ph
      (fire env t pass account)) :
    ∀ pass balanceFrom balanceTo, Follows (serve db) J Step (fun _ ph' => ph' = ph) ph
      (transactLoop env t pass collection balanceFrom balanceTo) := by
  induction collection with
  | nil => intro pass balanceFrom balanceTo; exact rfl
  | cons z rest ih =>
    have ih' := ih fun pass z' hz' => hpeek pass z' (List.mem_cons_of_mem z hz')
    intro pass balanceFrom balanceTo
    rw [transactLoop_cons]
    apply follows_get
    intro T hT
    refine ⟨ph,hpeek pass z (by simp) T hT,?_,fun e _ => rfl⟩
    intro found hfound
    rcases getAccountByNumber_cases (L := L) (env.occasion (.loop pass)) z.accountNumber T
      with ⟨a,ha⟩ | ⟨e,he⟩ | ⟨a,ha,hn,-⟩
    · cases hfound.symm.trans ha.2
      simp only [optionalGet,Program.ofExcept_ok,Program.ret_cont]
      rcases visit_cases rest balanceFrom balanceTo ha.complete with ⟨e,he⟩ | ⟨-,he⟩ | he
      · rw [he]
        exact rfl
      · rw [he]
        apply (hfire pass a).cont
        · rintro sides ph' rfl
          exact ih' (pass+1) sides.1 sides.2
        · rintro e ph' rfl
          exact rfl
      · rw [he]
        exact ih' (pass+1) balanceFrom balanceTo
    · cases hfound.symm.trans he
    · cases hfound.symm.trans ha
      obtain ⟨e,he⟩ : ∃ e, visit env t pass rest balanceFrom balanceTo a = .raise e :=
        visit_unset hc hn
      simp only [optionalGet,Program.ofExcept_ok,Program.ret_cont,he]
      exact rfl

theorem transactLoop_follows (hc : t.CreditOrDebit)
    (hpeek : ∀ pass n T, J T → Step ph (.getAccountByNumber (env.occasion (.loop pass)) n) T ph)
    (hfire : ∀ pass account, Follows (serve db) J Step (fun _ ph' => ph' = ph) ph
      (fire env t pass account)) (collection : List (BankAccount L)) :
    ∀ pass balanceFrom balanceTo, Follows (serve db) J Step (fun _ ph' => ph' = ph) ph
      (transactLoop env t pass collection balanceFrom balanceTo) :=
  transactLoop_follows_collection hc (fun pass _ _ T hT => hpeek pass _ T hT) hfire

end Loop

section Consume

/-- Whatever the others do, the transfer functor gets to `transactInAccounts`. -/
structure AlwaysAdmits (J : Table → Prop) (env : Env) (t : BankTransaction L) : Prop where
  lock : env.cleared .accountsLock = false
  found : ∀ T, J T → ∃ x : BankAccount L, Reads (env.occasion .lookupFrom) t.transactionFrom T x ∧
    isNotBlank x.accountNumber = true
  foundTo : ∀ T, J T → ∃ y : BankAccount L, Reads (env.occasion .lookupTo) t.transactionTo T y ∧
    isNotBlank y.accountNumber = true

def lookedUp (env : Env) (t : BankTransaction L) (accountFrom found : Option (BankAccount L)) :
    Code L (Option (List (BankAccount L))) :=
  match found with
  | none => .raise (.plain .noSuchElement (.text "No value present"))
  | some accountTo =>
    if isNotBlank accountTo.accountNumber then
      match accountFrom with
      | some accountFrom => do
        let result ← transactInAccounts env t [accountFrom,accountTo]
        logAccount (env.occasion .lookupTo).now accountFrom
        logAccount (env.occasion .lookupTo).now accountTo
        return some result
      | none => do
        logAccount (env.occasion .lookupTo).now accountTo
        return none
    else .ret none

def lookUpTo (env : Env) (t : BankTransaction L) (accountFrom : Option (BankAccount L)) :
    Code L (Option (List (BankAccount L))) :=
  (callGetAccountByNumber env .lookupTo t.transactionTo).cont (lookedUp env t accountFrom) .raise

theorem consume_eq (env : Env) (t : BankTransaction L) (hl : env.cleared .accountsLock = false) :
    FunctorBiConsumeService4Accounts.consume env t =
      (callGetAccountByNumber env .lookupFrom t.transactionFrom).cont (fun found =>
        match found with
        | none => (lockGet env .accountsUnlock).cont (fun _ => .ret none) .raise
        | some foundFrom =>
          if isNotBlank foundFrom.accountNumber then
            (logAccount (env.occasion .lookupFrom).now foundFrom).cont
              (fun _ => lookUpTo env t (some foundFrom)) .raise
          else lookUpTo env t none) .raise := by
  have hlock : lockGet env .accountsLock = (.ret () : Code L Unit) := by simp [lockGet,hl]
  have hdef : FunctorBiConsumeService4Accounts.consume env t =
    (lockGet env .accountsLock).cont (fun _ => _) .raise := rfl
  rw [hdef,hlock]
  rfl

theorem lookedUp_both {x y : BankAccount L} (hx : x.Complete) (hy : y.Complete)
    (hby : isNotBlank y.accountNumber = true) :
    lookedUp env t (some x) (some y) =
      (transactInAccounts env t [x,y]).cont (fun result => .ret (some result)) .raise := by
  simp [lookedUp,hby,logAccount_complete hx,logAccount_complete hy]

theorem lookedUp_other {accountFrom found : Option (BankAccount L)}
    (h : ∀ x y, accountFrom = some x → found = some y → ¬ isNotBlank y.accountNumber = true) :
    ∃ r, lookedUp env t accountFrom found = .ofExcept r := by
  cases found with
  | none => exact ⟨.error _,rfl⟩
  | some y =>
    by_cases hby : isNotBlank y.accountNumber = true
    · cases accountFrom with
      | some x => exact absurd hby (h x y rfl rfl)
      | none =>
        simp only [lookedUp,hby,ite_true,logAccount,Program.bind_def]
        cases (y.toStringCopy (env.occasion .lookupTo).now).map fun _ => () with
        | ok u => exact ⟨.ok none,rfl⟩
        | error e => exact ⟨.error e,rfl⟩
    · exact ⟨.ok none,by simp [lookedUp,hby]⟩

variable {Q : φ → Prop}

theorem lookUpTo_follows {accountFrom : Option (BankAccount L)}
    (hpeekTo : ∀ T, J T → Step ph (.getAccountByNumber (env.occasion .lookupTo)
      t.transactionTo) T ph)
    (hexit : ¬ AlwaysAdmits J env t → Q ph)
    (htransact : ∀ x y T, accountFrom = some x → J T →
      Reads (env.occasion .lookupTo) t.transactionTo T y → isNotBlank y.accountNumber = true →
      Follows (serve db) J Step (fun _ => Q) ph (transactInAccounts env t [x,y]))
    (hfrom : ∀ x, accountFrom = some x → x.Complete)
    (hnone : accountFrom = none → ¬ AlwaysAdmits J env t) :
    Follows (serve db) J Step (fun _ => Q) ph (lookUpTo env t accountFrom) := by
  apply follows_get
  intro T hT
  refine ⟨ph,hpeekTo T hT,?_,?_⟩
  · intro found hfound
    by_cases hboth : ∃ x y, accountFrom = some x ∧ found = some y ∧
      isNotBlank y.accountNumber = true
    · obtain ⟨x,y,hx,rfl,hby⟩ := hboth
      have hy : Reads (env.occasion .lookupTo) t.transactionTo T y := by
        rcases lookup_found (L := L) (env.occasion .lookupTo) t.transactionTo T
          with ⟨e,he⟩ | ⟨y',hy',hread⟩
        · cases hfound.symm.trans he
        · cases hfound.symm.trans hy'
          exact hread hby
      have hfollow := htransact x y T hx hT hy hby
      rw [hx,lookedUp_both (hfrom x hx) hy.complete hby]
      apply hfollow.cont
      · intro result ph' hq
        exact hq
      · intro e ph' hq
        exact hq
    · obtain ⟨r,hr⟩ : ∃ r, lookedUp env t accountFrom found = .ofExcept r :=
        lookedUp_other fun x y hx hy hby => hboth ⟨x,y,hx,hy,hby⟩
      rw [hr,follows_ofExcept]
      apply hexit
      cases haccount : accountFrom with
      | none => exact hnone haccount
      | some x =>
        intro hall
        obtain ⟨y,hy,hby⟩ := hall.foundTo T hT
        cases hfound.symm.trans hy.2
        exact hboth ⟨x,y,haccount,rfl,hby⟩
  · intro e he
    apply hexit
    intro hall
    obtain ⟨y,hy,-⟩ := hall.foundTo T hT
    cases he.symm.trans hy.2

/-- The functor keeps to a phase until it gets to `transactInAccounts`; if it may be turned
away before, the phase must be one to end in. -/
theorem consume_follows
    (hpeekFrom : ∀ T, J T → Step ph (.getAccountByNumber (env.occasion .lookupFrom)
      t.transactionFrom) T ph)
    (hpeekTo : ∀ T, J T → Step ph (.getAccountByNumber (env.occasion .lookupTo)
      t.transactionTo) T ph)
    (hexit : ¬ AlwaysAdmits J env t → Q ph)
    (htransact : ∀ x y T T', J T → J T' → env.cleared .accountsLock = false →
      Reads (env.occasion .lookupFrom) t.transactionFrom T x →
      Reads (env.occasion .lookupTo) t.transactionTo T' y →
      isNotBlank x.accountNumber = true → isNotBlank y.accountNumber = true →
      Follows (serve db) J Step (fun _ => Q) ph (transactInAccounts env t [x,y])) :
    Follows (serve db) J Step (fun _ => Q) ph (FunctorBiConsumeService4Accounts.consume env t) := by
  by_cases hl : env.cleared .accountsLock = true
  · have hq : Q ph := hexit fun h => by simp [h.lock] at hl
    have hraise : FunctorBiConsumeService4Accounts.consume env t = .raise .nullPointer := by
      simp [FunctorBiConsumeService4Accounts.consume,lockGet,hl]
    rw [hraise]
    exact hq
  have hl' : env.cleared .accountsLock = false := by simpa using hl
  rw [consume_eq env t hl']
  apply follows_get
  intro T hT
  refine ⟨ph,hpeekFrom T hT,?_,?_⟩
  · intro found hfound
    rcases lookup_found (L := L) (env.occasion .lookupFrom) t.transactionFrom T
      with ⟨e,he⟩ | ⟨x,hx,hread⟩
    · cases hfound.symm.trans he
    · cases hfound.symm.trans hx
      by_cases hbx : isNotBlank x.accountNumber = true
      · simp only [hbx,ite_true,logAccount_complete (hread hbx).complete,Program.ret_cont]
        apply lookUpTo_follows hpeekTo hexit
        · rintro _ y T' ⟨⟩ hT' hy hby
          exact htransact x y T T' hT hT' hl' (hread hbx) hy hbx hby
        · rintro _ ⟨⟩
          exact (hread hbx).complete
        · rintro ⟨⟩
      · simp only [hbx,Bool.false_eq_true,ite_false]
        apply lookUpTo_follows hpeekTo hexit
        · rintro _ y T' ⟨⟩
        · rintro _ ⟨⟩
        · intro _ hall
          obtain ⟨x',hx',hbx'⟩ := hall.found T hT
          cases hfound.symm.trans hx'.2
          exact hbx hbx'
  · intro e he
    apply hexit
    intro hall
    obtain ⟨x,hx,-⟩ := hall.found T hT
    cases he.symm.trans hx.2

end Consume

section Process

variable {Q Q' : φ → Prop}

theorem lockGet_follows (get : WeakGet) (h : Q ph) :
    Follows (serve db) J Step (fun _ => Q) ph (lockGet env get : Code L Unit) := by
  rw [lockGet]
  split_ifs <;> exact h

theorem adopt_follows (get getAgain : WeakGet) (slot : Throwable) (exception : Option Throwable)
    (h : Q ph) : Follows (serve db) J Step (fun _ => Q) ph
      (ConcurrencyAccess.adopt env get getAgain slot exception : Code L _) := by
  unfold ConcurrencyAccess.adopt
  split_ifs
  · exact h
  · cases exception <;> exact h
  · cases exception <;> exact h

theorem accounts_accept_follows
    (h : Follows (serve db) J Step (fun _ => Q) ph (FunctorBiConsumeService4Accounts.consume env t)) :
    Follows (serve db) J Step (fun _ => Q) ph (FunctorBiConsumeService4Accounts.accept env t) := by
  apply h.cont
  · intro result ph' hq
    exact hq
  · intro e ph' hq
    apply (lockGet_follows .accountsUnlock hq).cont
    · intro u ph'' hq'
      exact hq'
    · intro e' ph'' hq'
      exact hq'

theorem transactions_accept_follows
    (hclose : ∀ T, J T → ∃ ph', Step ph (.closeTransaction (env.occasion .close) t) T ph' ∧ Q' ph')
    (hskip : env.cleared .transactionsLock = true → Q' ph) :
    Follows (serve db) J Step (fun _ => Q') ph (FunctorBiConsumeService4Transactions.accept env t) := by
  have hbody : Follows (serve db) J Step (fun _ => Q') ph ((lockGet env .transactionsLock).cont
      (fun _ => (callCloseTransaction env t).cont (fun _ => .ret Throwable.blank) .raise) .raise) := by
    by_cases hl : env.cleared .transactionsLock = true
    · have hraise : lockGet env .transactionsLock = (.raise .nullPointer : Code L Unit) := by
        simp [lockGet,hl]
      rw [hraise]
      exact hskip hl
    · have hret : lockGet env .transactionsLock = (.ret () : Code L Unit) := by
        simp [lockGet,hl]
      rw [hret]
      apply follows_perform
      intro T hT
      obtain ⟨ph',hstep,hq⟩ := hclose T hT
      exact ⟨ph',hstep,fun b _ => hq,fun e _ => hq⟩
  apply Follows.cont hbody
  · intro slot ph' hq
    exact hq
  · intro e ph' hq
    apply (lockGet_follows .transactionsUnlock hq).cont
    · intro u ph'' hq'
      exact hq'
    · intro e' ph'' hq'
      exact hq'

theorem functor_follows {accept : Code L Throwable}
    (h : Follows (serve db) J Step (fun _ => Q) ph accept) (get getAgain : WeakGet)
    (exception kept : Option Throwable) :
    Follows (serve db) J Step (fun r ph' => r.isOk = true ∧ Q ph') ph (Program.handle (accept.cont
        (fun slot => ConcurrencyAccess.adopt env get getAgain slot exception) .raise)
      fun _ => .ret kept) := by
  have hbody : Follows (serve db) J Step (fun _ => Q) ph (accept.cont
      (fun slot => ConcurrencyAccess.adopt env get getAgain slot exception) .raise) := by
    apply h.cont
    · intro slot ph' hq
      exact adopt_follows get getAgain slot exception hq
    · intro e ph' hq
      exact hq
  apply hbody.cont
  · intro slot ph' hq
    exact ⟨rfl,hq⟩
  · intro e ph' hq
    exact ⟨rfl,hq⟩

/-- The call keeps to its phases, when its transfer functor and its close step do. -/
theorem process_follows (hc : t.CreditOrDebit) (hnone : env.cleared .wrapperLock = true → Q' ph)
    (hconsume : env.cleared .wrapperLock = false → Follows (serve db) J Step (fun _ => Q) ph
      (FunctorBiConsumeService4Accounts.consume env t))
    (hclose : ∀ ph' T, Q ph' → J T → ∃ ph'',
      Step ph' (.closeTransaction (env.occasion .close) t) T ph'' ∧ Q' ph'')
    (hskip : env.cleared .transactionsLock = true → ∀ ph', Q ph' → Q' ph') :
    Follows (serve db) J Step (fun _ => Q') ph (processTransaction env t) := by
  have hwrapper : Follows (serve db) J Step (fun _ => Q') ph (ConcurrencyAccess.run env t) := by
    rw [wrapper_eq]
    by_cases hl : env.cleared .wrapperLock = true
    · rw [if_pos hl]
      exact hnone hl
    · rw [if_neg hl]
      have hfunctors : Follows (serve db) J Step (fun _ => Q') ph
          (ConcurrencyAccess.runFunctors env t) := by
        apply (functor_follows (accounts_accept_follows (hconsume (by simpa using hl)))
          .accountsException .accountsExceptionAgain (some .blank) (some .blank)).cont
        · rintro exception ph' ⟨-,hq⟩
          exact (functor_follows (transactions_accept_follows (fun T hT => hclose ph' T hq hT)
            fun hcl => hskip hcl ph' hq) .transactionsException .transactionsExceptionAgain exception
            exception).imp fun r ph'' hr => hr.2
        · rintro e ph' ⟨hok,-⟩
          cases hok
      apply hfunctors.cont
      · intro out ph' hq
        exact hq
      · intro e ph' hq
        exact hq
  rw [processTransaction_eq hc]
  apply hwrapper.cont
  · intro out ph' hq
    exact hq
  · intro e ph' hq
    exact hq

end Process

end HomeRest
