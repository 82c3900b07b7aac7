import HomeRest.Servlets

/-! Requests that are handled at the same time.
Whatever their forms say, however their steps are mixed and whichever of these fail: no
request removes an account or gives it another number or currency, and none stores what
could not be read again. -/
namespace HomeRest

open AtomicProgram

variable {L : Libs} {ι : Type}

/-- What a client sends, with what its handling meets. -/
inductive Request
  | accounts (clock : ℕ → Millis) (randomId : UUID) (put : Occasion) (form : AccountForm)
  | transactions (clock : ℕ → Millis) (randomId : UUID) (env : Env) (form : TransferForm)

def Request.program (W : Web) : Request → Code L (Except Refusal Page)
  | .accounts clock randomId put form =>
    HomeRestAccountsTestingServlet.doPost W clock randomId put form
  | .transactions clock randomId env form =>
    HomeRestTransactTestingServlet.doPost W clock randomId env form

def startRequests (L : Libs) (W : Web) (T : Table) (requests : ι → Request) :
    Config (StoreCall L) StoreCall.Answer Throwable (Except Refusal Page) Table ι :=
  Config.start T fun i => (requests i).program W

/-- The steps of requests: accounts are written and put with all their data. -/
def ByRequest : StoreCall L → Prop
  | .updateAccount _ a => a.Complete ∧ (a.accountStatus = some 10 ∨ a.accountStatus = some 20)
  | .putAccount _ a => a.Complete ∧ a.accountStatus = none
  | _ => True

section Steps

variable {db : Database}

theorem orderly_byRequest {t : BankTransaction L} (op : StoreCall L) (h : Orderly t op) :
    ByRequest op := by
  cases op with
  | getAccountByNumber occasion n => exact trivial
  | updateAccount occasion a => exact ⟨h.1,h.2.imp And.right And.right⟩
  | putAccount occasion a => exact h.elim
  | closeTransaction occasion t' => exact trivial

theorem request_issues (W : Web) (request : Request) :
    Issues (serve db) ByRequest (request.program W : Code L (Except Refusal Page)) := by
  cases request with
  | accounts clock randomId put form =>
    by_cases h : ∃ x n c, form.Enters L W x n c
    · obtain ⟨x,n,c,h⟩ := h
      obtain ⟨a,ha,hopened⟩ := newAccount_total (L := L) clock randomId h
      obtain ⟨json,hcode⟩ := accountsPost_opened ha hopened.complete put
      have hput : ByRequest (.putAccount put a) := ⟨hopened.complete,hopened.status⟩
      rw [Request.program,hcode]
      exact (issues_perform hput).silent (fun _ => trivial) fun _ => trivial
    · obtain ⟨refusal,hcode⟩ := accountsPost_refused (L := L) clock randomId
        h put
      rw [Request.program,hcode]
      exact trivial
  | transactions clock randomId env form =>
    by_cases h : ∃ x n m c, form.Enters L x n m c
    · obtain ⟨x,n,m,c,h⟩ := h
      obtain ⟨t,ht,-⟩ := newTransaction_total (L := L) clock randomId h
      obtain ⟨json,hcode⟩ := transactionsPost_ordered (W := W) ht env
      rw [Request.program,hcode]
      exact ((process_issues env t).imp orderly_byRequest).silent (fun _ => trivial) fun _ => trivial
    · obtain ⟨refusal,hcode⟩ := transactionsPost_refused (L := L) (W := W) clock
        randomId h env
      rw [Request.program,hcode]
      exact trivial

end Steps

def Marked (status : Option ℤ) : Prop := status = some 10 ∨ status = some 20 ∨ status = some 60

/-- A row some time later: the same account, still readable if it was. -/
structure Row.Later (L : Libs) (r r' : Row) : Prop where
  identity : r'.identity = r.identity
  status : r'.accountStatus = r.accountStatus ∨ Marked r'.accountStatus
  acceptable : r.Acceptable L → r'.Acceptable L

/-- A table some time later: the rows are still there in their order, and readable rows of
new accounts behind them. -/
def Table.Later (L : Libs) (T T' : Table) : Prop :=
  ∃ kept opened, T' = kept ++ opened ∧ List.Forall₂ (Row.Later L) T kept ∧
    ∀ r ∈ opened, r.Acceptable L ∧ (r.accountStatus = none ∨ Marked r.accountStatus)

section Later

variable {r r' r'' : Row} {T T' : Table}

theorem Row.Later.refl (r : Row) : r.Later L r := ⟨rfl,.inl rfl,id⟩

theorem Row.Later.trans (h : r.Later L r') (h' : r'.Later L r'') : r.Later L r'' := by
  refine ⟨h'.identity.trans h.identity,?_,fun hr => h'.acceptable (h.acceptable hr)⟩
  rcases h'.status with hs | hs
  · rw [hs]
    exact h.status
  · exact .inr hs

theorem Table.Later.refl (T : Table) : T.Later L T :=
  ⟨T,[],(List.append_nil T).symm,List.forall₂_same.mpr fun r _ => .refl r,by simp⟩

theorem Table.Later.map (h : T.Later L T') {f : Row → Row} (hf : ∀ r : Row, r.Later L (f r)) :
    T.Later L (T'.map f) := by
  obtain ⟨kept,opened,rfl,hkept,hopened⟩ := h
  refine ⟨kept.map f,opened.map f,List.map_append,?_,?_⟩
  · rw [List.forall₂_map_right_iff]
    exact hkept.imp fun r r' hr => hr.trans (hf r')
  · intro r hr
    obtain ⟨q,hq,rfl⟩ := List.mem_map.mp hr
    obtain ⟨hacc,hstatus⟩ := hopened q hq
    refine ⟨(hf q).acceptable hacc,?_⟩
    rcases (hf q).status with hs | hs
    · rw [hs]
      exact hstatus
    · exact .inr hs

theorem Table.Later.append (h : T.Later L T') (hr : r.Acceptable L) (hs : r.accountStatus = none) :
    T.Later L (T' ++ [r]) := by
  obtain ⟨kept,opened,rfl,hkept,hopened⟩ := h
  refine ⟨kept,opened ++ [r],List.append_assoc _ _ _,hkept,?_⟩
  simp only [List.forall_mem_append,List.forall_mem_singleton]
  exact ⟨hopened,hr,.inl hs⟩

end Later

section Run

variable {db : Database}

theorem later_updated {a : BankAccount L} (ha : a.Complete)
    (hs : a.accountStatus = some 10 ∨ a.accountStatus = some 20) (r : Row) :
    r.Later L (updatedRow db a r) := by
  obtain ⟨b,hb⟩ := ha.balance
  refine ⟨rfl,.inr (hs.imp id .inl),fun hr => ⟨⟨db.decimal b,?_,?_⟩,hr.number,hr.currency⟩⟩
  · simp [updatedRow,hb]
  · exact db.decimal_nonneg b (a.balance_nonneg b hb)

theorem later_closed (d : Millis) (r : Row) : r.Later L (closedRow d r) :=
  ⟨rfl,.inr (.inr (.inr rfl)),fun hr => ⟨hr.balance,hr.number,hr.currency⟩⟩

theorem acceptable_saved {a : BankAccount L} (ha : a.Complete) (occasion : Occasion) :
    (savedRow db occasion a).Acceptable L := by
  obtain ⟨⟨b,hb⟩,⟨n,hn⟩,⟨c,hc⟩⟩ := ha
  refine ⟨⟨db.decimal b,by simp [savedRow,hb],db.decimal_nonneg b (a.balance_nonneg b hb)⟩,
    ⟨n,hn,a.number_valid n hn⟩,⟨c,hc,a.currency_known c hc⟩⟩

theorem serve_later {T₀ : Table} (op : StoreCall L) (T : Table) (hop : ByRequest op)
    (h : T₀.Later L T) : T₀.Later L (serve db op T).2 := by
  cases op with
  | getAccountByNumber occasion n => exact h
  | updateAccount occasion a =>
    simp only [serve_updateAccount,Occasion.commits]
    split_ifs
    · apply h.map
      intro r
      split_ifs
      · exact later_updated hop.1 hop.2 r
      · exact .refl r
    · exact h
  | putAccount occasion a =>
    rw [serve_putAccount]
    split_ifs
    · exact h.append (acceptable_saved hop.1 occasion) hop.2
    · exact h
  | closeTransaction occasion t =>
    simp only [serve_closeTransaction,Occasion.commits]
    split_ifs
    · apply h.map
      intro r
      split_ifs
      · exact later_closed _ r
      · exact .refl r
    · exact h

variable [DecidableEq ι]

theorem requests_later (W : Web) (T : Table) (requests : ι → Request) (schedule : List ι) :
    T.Later L ((startRequests L W T requests).runs (serve db) schedule).shared :=
  runs_issued (fun op T' hop h => serve_later op T' hop h) _ (fun i => request_issues W (requests i))
    (.refl T) schedule

theorem Table.Later.identities {T T' : Table} (h : T.Later L T') : T.identities <+: T'.identities := by
  obtain ⟨kept,opened,rfl,hkept,-⟩ := h
  have hsame : kept.identities = T.identities := by
    induction hkept with
    | nil => rfl
    | cons hr _ ih => exact congrArg₂ List.cons hr.identity ih
  have happend : (kept ++ opened).identities = kept.identities ++ opened.identities := List.map_append
  exact ⟨opened.identities,by rw [happend,hsame]⟩

theorem Table.Later.readable {T T' : Table} (h : T.Later L T') (hT : ∀ r ∈ T, r.Acceptable L) :
    ∀ r ∈ T', r.Acceptable L := by
  obtain ⟨kept,opened,rfl,hkept,hopened⟩ := h
  have hkeptAcc : ∀ r ∈ kept, r.Acceptable L := by
    induction hkept with
    | nil => simp
    | cons hr _ ih =>
      simp only [List.forall_mem_cons] at hT ⊢
      exact ⟨hr.acceptable hT.1,ih hT.2⟩
  simp only [List.forall_mem_append]
  exact ⟨hkeptAcc,fun r hr => (hopened r hr).1⟩

end Run

end HomeRest
