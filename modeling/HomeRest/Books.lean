import HomeRest.Requests
import HomeRest.Settlement

/-! The books over a run of requests.
On the column of two fraction digits, every stored balance is a number of whole cents. With
amounts in whole cents, requests that are handled one after the other then neither create nor
lose money: all there is was paid in when an account was opened. -/
namespace HomeRest

open AtomicProgram

variable {L : Libs}

def Request.handle (L : Libs) (db : Database) (W : Web) (request : Request) (T : Table) : Table :=
  ((request.program W : Code L (Except Refusal Page)).run (serve db) T).2

def handleAll (L : Libs) (db : Database) (W : Web) (requests : List Request) (T : Table) : Table :=
  requests.foldl (fun T request => request.handle L db W T) T

/-- The rows that a request adds: the account of its form, if the step does not fail and the
constraints let it in. -/
def Request.opens (L : Libs) (db : Database) (W : Web) : Request → Table → Table
  | .accounts clock randomId put form, T =>
    match (HomeRestAccountsTestingServlet.newAccount W clock randomId form :
        Except Refusal (BankAccount L)) with
    | .error _ => []
    | .ok a =>
      if put.fault = none ∧ db.accepts (savedRow db put a) T = true then [savedRow db put a] else []
  | .transactions _ _ _ _, _ => []

/-- The money in one currency that the requests pay in. -/
def deposits (L : Libs) (db : Database) (W : Web) (currency : String) : List Request → Table → ℚ
  | [], _ => 0
  | request :: requests, T =>
    total currency (request.opens L db W T) +
      deposits L db W currency requests (request.handle L db W T)

/-- A transfer is between two accounts, of whole cents, and no step of it fails. -/
def Request.Regular : Request → Prop
  | .accounts _ _ _ _ => True
  | .transactions _ _ env form => env.Sound ∧ form.transactFrom ≠ form.transactTo ∧
    ∀ s x, form.amount = some s → DecimalText.parse s = some x → Cents x

def InCents (T : Table) : Prop := ∀ r ∈ T, ∀ b ∈ r.currentBalance, Cents b

def Database.AcceptsNew (db : Database) : Prop :=
  ∀ row T, db.accepts row T = true → ∀ r ∈ T, sqlEq r.accountNumber row.accountNumber = false

section Cents

variable {db : Database} {T : Table}

theorem cents_toScale (x : ℚ) : Cents (HalfUp.toScale 2 x) := ⟨_,rfl⟩

theorem inCents_map {f : Row → Row}
    (hf : ∀ r, (f r).currentBalance = r.currentBalance ∨ ∀ b ∈ (f r).currentBalance, Cents b)
    (h : InCents T) : InCents (T.map f) := by
  intro r hr
  obtain ⟨q,hq,rfl⟩ := List.mem_map.mp hr
  rcases hf q with hsame | hcents
  · rw [hsame]
    exact h q hq
  · exact hcents

theorem cents_written (a : BankAccount L) :
    ∀ b ∈ a.currentBalance.map db.twoDigits.decimal, Cents b := by
  intro b hb
  obtain ⟨q,-,rfl⟩ := Option.map_eq_some_iff.mp hb
  exact cents_toScale q

theorem serve_inCents (op : StoreCall L) (T : Table) (h : InCents T) :
    InCents (serve db.twoDigits op T).2 := by
  cases op with
  | getAccountByNumber occasion n => exact h
  | updateAccount occasion a =>
    simp only [serve_updateAccount,Occasion.commits]
    split_ifs
    · apply inCents_map _ h
      intro r
      split_ifs
      · exact .inr (cents_written a)
      · exact .inl rfl
    · exact h
  | putAccount occasion a =>
    rw [serve_putAccount]
    split_ifs
    · intro r hr
      rcases List.mem_append.mp hr with hr | hr
      · exact h r hr
      · rw [List.mem_singleton] at hr
        subst hr
        exact cents_written a
    · exact h
  | closeTransaction occasion t =>
    simp only [serve_closeTransaction,Occasion.commits]
    split_ifs
    · apply inCents_map _ h
      intro r
      left
      split_ifs <;> rfl
    · exact h

theorem run_keeps {α : Type} {I : Table → Prop} {db : Database}
    (hserve : ∀ (op : StoreCall L) T, I T → I (serve db op T).2) (p : Code L α) (T : Table) (h : I T) :
    I (p.run (serve db) T).2 := by
  induction p generalizing T with
  | ret a => exact h
  | raise e => exact h
  | call op next ih => exact ih _ _ (hserve op T h)

end Cents

section Step

variable {db : Database} {W : Web} {T : Table}

theorem total_append (currency : String) (T T' : Table) :
    total currency (T ++ T') = total currency T + total currency T' := by
  simp only [total_eq,List.map_append,List.sum_append]

theorem accounts_handle (clock : ℕ → Millis) (randomId : UUID) (put : Occasion) (form : AccountForm) :
    (Request.accounts clock randomId put form).handle L db W T =
      T ++ (Request.accounts clock randomId put form).opens L db W T := by
  by_cases h : ∃ x n c, form.Enters L W x n c
  · obtain ⟨x,n,c,h⟩ := h
    obtain ⟨a,ha,hopened⟩ := newAccount_total (L := L) clock randomId h
    obtain ⟨_,json,-,hrun⟩ := accountsPost_entered clock randomId h db put T
    simp only [Request.handle,Request.program,hrun,Request.opens,ha,hopened.savedRow]
    split_ifs
    · rfl
    · exact (List.append_nil T).symm
  · obtain ⟨refusal,hcode⟩ := accountsPost_refused (L := L) clock randomId h put
    have hnone : (Request.accounts clock randomId put form).opens L db W T = [] := by
      cases ha : (HomeRestAccountsTestingServlet.newAccount W clock randomId form :
          Except Refusal (BankAccount L)) with
      | error refusal => simp only [Request.opens,ha]
      | ok a =>
        obtain ⟨x,n,c,hform,-⟩ := newAccount_sound ha
        exact absurd ⟨x,n,c,hform⟩ h
    rw [hnone,List.append_nil,Request.handle,Request.program,hcode]
    rfl

theorem opens_row (db : Database) (W : Web) (request : Request) (T : Table) :
    request.opens L db W T = [] ∨
      ∃ row, request.opens L db W T = [row] ∧ db.accepts row T = true := by
  cases request with
  | accounts clock randomId put form =>
    simp only [Request.opens]
    split
    · exact .inl rfl
    · next a ha =>
      split_ifs with hput
      · exact .inr ⟨_,rfl,hput.2⟩
      · exact .inl rfl
  | transactions clock randomId env form => exact .inl rfl

theorem transactions_handle (db : Database) (clock : ℕ → Millis) (randomId : UUID) (env : Env) (form : TransferForm) :
    (Request.transactions clock randomId env form).handle L db W T = T ∨
      ∃ x n m c, form.Enters L x n m c ∧ ∃ t : BankTransaction L,
        Ordered clock randomId x n m c t ∧
        (Request.transactions clock randomId env form).handle L db W T = (process db env t T).2 := by
  by_cases h : ∃ x n m c, form.Enters L x n m c
  · obtain ⟨x,n,m,c,h⟩ := h
    obtain ⟨t,ht,hordered⟩ := newTransaction_total (L := L) clock randomId h
    obtain ⟨json,hcode⟩ := transactionsPost_ordered (W := W) ht env
    obtain ⟨out,hrun⟩ := process_run db env (.inl hordered.type : t.CreditOrDebit) T
    refine .inr ⟨x,n,m,c,h,t,hordered,?_⟩
    rw [Request.handle,Request.program,hcode,Program.run_cont_ok (serve db) hrun,hrun]
    rfl
  · obtain ⟨refusal,hcode⟩ := transactionsPost_refused (L := L) (W := W) clock
      randomId h env
    rw [Request.handle,Request.program,hcode]
    exact .inl rfl

theorem process_inCents (db : Database) {env : Env} {t : BankTransaction L} (hu : UniqueNumbers T)
    (hT : InCents T) (h : Ordinary env t) (hx : ∀ x, t.transactionAmount = some x → Cents x) :
    (∀ currency, total currency (process db.twoDigits env t T).2 = total currency T) ∧
      (process db.twoDigits env t T).2.identities = T.identities := by
  have hexact : ∀ r s x b d, Accepted env t T r s x b d →
      db.twoDigits.decimal (b-x) = b-x ∧
        db.twoDigits.decimal (d+x) = d+x := by
    intro r s x b d hacc
    have hG : (centsGrid db).Holds T := Grid.holds_of_rows hT
    have hb : b ∈ (centsGrid db).amounts :=
      hG _ b ((held_single hacc.rowFrom).trans hacc.balanceFrom)
    have hd : d ∈ (centsGrid db).amounts :=
      hG _ d ((held_single hacc.rowTo).trans hacc.balanceTo)
    have hxc : x ∈ (centsGrid db).amounts := hx x hacc.amount
    exact ⟨(centsGrid db).kept _ (sub_mem hb hxc),(centsGrid db).kept _ (add_mem hd hxc)⟩
  obtain ⟨out,hrun⟩ := process_run db.twoDigits env h.kind T
  obtain ⟨htotal,hid⟩ := transferred_conserves_exact hexact hu h
  rw [hrun]
  exact ⟨fun currency => (total_closed env t currency _).trans (htotal currency),
    (identities_closed env t _).trans hid⟩

/-- A request adds what it pays in, and the key is kept. -/
theorem handle_books (hnew : db.AcceptsNew) (hu : UniqueNumbers T) (hT : InCents T)
    {request : Request} (h : request.Regular) (currency : String) :
    total currency (request.handle L db.twoDigits W T) =
        total currency T + total currency (request.opens L db.twoDigits W T) ∧
      UniqueNumbers (request.handle L db.twoDigits W T) := by
  cases request with
  | accounts clock randomId put form =>
    rw [accounts_handle,total_append]
    refine ⟨rfl,?_⟩
    rcases opens_row (L := L) db.twoDigits W (.accounts clock randomId put form) T
      with hnone | ⟨row,hrow,hacc⟩
    · rw [hnone,List.append_nil]
      exact hu
    · rw [hrow,UniqueNumbers,List.pairwise_append]
      refine ⟨hu,List.pairwise_singleton _ _,?_⟩
      intro r hr s hs
      rw [List.mem_singleton.mp hs]
      exact hnew row T (Database.twoDigits_accepts.mp hacc).2 r hr
  | transactions clock randomId env form =>
    obtain ⟨hs,hdiff,hcents⟩ := h
    have hnone : total currency ((Request.transactions clock randomId env form).opens L
        db.twoDigits W T) = 0 := rfl
    rw [hnone,add_zero]
    rcases transactions_handle (L := L) (W := W) (T := T) db.twoDigits clock randomId
      env form with hsame | ⟨x,n,m,c,henters,t,hordered,hprocess⟩
    · rw [hsame]
      exact ⟨rfl,hu⟩
    · have hord : Ordinary env t := by
        refine ⟨hs,.inl hordered.type,?_⟩
        rw [hordered.transactionFrom,hordered.transactionTo,← henters.transactFrom,← henters.transactTo]
        exact hdiff
      obtain ⟨s,hs',hparse⟩ := henters.amount
      obtain ⟨htotal,hid⟩ := process_inCents db hu hT hord fun x' hx' => by
        rw [hordered.amount] at hx'
        cases hx'
        exact hcents s x hs' hparse
      rw [hprocess]
      exact ⟨htotal currency,hu.of_identities hid⟩

end Step

/-- Over every run of requests, the money of each currency is what was there and what was
paid in for new accounts. -/
theorem books_balance {db : Database} (hnew : db.AcceptsNew) (W : Web)
    (requests : List Request) (hregular : ∀ request ∈ requests, request.Regular) (T : Table)
    (hu : UniqueNumbers T) (hT : InCents T) (currency : String) :
    total currency (handleAll L db.twoDigits W requests T) =
      total currency T + deposits L db.twoDigits W currency requests T := by
  induction requests generalizing T with
  | nil => simp [handleAll,deposits]
  | cons request requests ih =>
    obtain ⟨htotal,hu'⟩ := handle_books (L := L) (W := W) hnew hu hT (hregular request (by simp)) currency
    have hT' : InCents (request.handle L db.twoDigits W T) :=
      run_keeps serve_inCents _ T hT
    have hrest := ih (fun r hr => hregular r (by simp [hr])) _ hu' hT'
    rw [handleAll,List.foldl_cons,← handleAll,hrest,htotal,deposits]
    ring

namespace Sample

theorem database_acceptsNew : database.AcceptsNew := by
  intro row T h r hr
  simpa using List.all_eq_true.mp h r hr

def clients : Bool → Request
  | false => .transactions (fun _ => 200) 9 (env 100 fun _ => none) transferForm
  | true => .accounts (fun _ => 300) 8 ⟨none,300,7⟩ ⟨some "12.50",some iban₃,none,some "EUR"⟩

def booked : List Request := [false,true].map clients

theorem booked_regular : ∀ request ∈ booked, request.Regular := by
  simp only [booked,List.map_cons,List.map_nil,List.forall_mem_cons,clients]
  refine ⟨⟨env_sound 100,by decide +kernel,?_⟩,trivial,by simp⟩
  intro s x hs hx
  cases hs
  rw [show DecimalText.parse "30" = some 30 by decide +kernel] at hx
  cases hx
  exact ⟨3000,by norm_num⟩

end Sample

open Sample in
theorem books_balance_sample :
    total "EUR" (handleAll libs database.twoDigits web booked twoRows) =
      total "EUR" twoRows +
        deposits libs database.twoDigits web "EUR" booked twoRows :=
  books_balance database_acceptsNew web booked booked_regular twoRows twoRows_unique
    twoRows_inCents "EUR"

end HomeRest
