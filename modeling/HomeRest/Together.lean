import HomeRest.Books

/-! Requests of different clients.
Forms that name no common account number can be handled at the same time: every client gets
the page that it gets alone, and the accounts end as if the requests had come one by one. -/
namespace HomeRest

open AtomicProgram

variable {L : Libs} {ι : Type}

def Request.Names (L : Libs) (W : Web) : Request → Option String → Prop
  | .accounts _ _ _ form, m => ∃ x n c, form.Enters L W x n c ∧ m = some n
  | .transactions _ _ _ form, m => ∃ x n n' c, form.Enters L x n n' c ∧ (m = some n ∨ m = some n')

def Request.Draws : Request → UUID → Prop
  | .accounts _ _ put _, id => id = put.randomId
  | .transactions _ _ _ _, _ => False

section Rows

variable {T T' : Table}

/-- Tables with the same rows under every number differ in the order of their rows only. -/
theorem perm_of_parts (h : ∀ n, part (fun m => m == n) T = part (fun m => m == n) T') : T.Perm T' := by
  rw [List.perm_iff_count]
  intro r
  have hcount : ∀ U : Table, List.count r (part (fun m => m == r.accountNumber) U) = List.count r U :=
    fun U => List.count_filter (by simp)
  rw [← hcount T,← hcount T',h]

end Rows

section Keeps

variable {db : Database} {W : Web}

theorem request_keepsTo (request : Request) :
    KeepsTo db (request.Names L W) request.Draws
      (request.program W : Code L (Except Refusal Page)) := by
  cases request with
  | accounts clock randomId put form =>
    by_cases h : ∃ x n c, form.Enters L W x n c
    · obtain ⟨x,n,c,h⟩ := h
      obtain ⟨a,ha,hopened⟩ := newAccount_total (L := L) clock randomId h
      obtain ⟨json,hcode⟩ := accountsPost_opened ha hopened.complete put
      rw [Request.program,hcode]
      refine (issues_perform ⟨fun m hm => ?_,?_⟩).silent (fun _ => trivial) fun _ => trivial
      · exact ⟨x,n,c,h,Eq.trans hm hopened.number⟩
      · rintro row rfl
        exact rfl
    · obtain ⟨refusal,hcode⟩ := accountsPost_refused (L := L) clock randomId
        h put
      rw [Request.program,hcode]
      exact trivial
  | transactions clock randomId env form =>
    by_cases h : ∃ x n m c, form.Enters L x n m c
    · obtain ⟨x,n,n',c,h⟩ := h
      obtain ⟨t,ht,hordered⟩ := newTransaction_total (L := L) clock randomId h
      obtain ⟨json,hcode⟩ := transactionsPost_ordered (W := W) ht env
      rw [Request.program,hcode]
      have hnames : ∀ op, Orderly t op → (∀ m, op.Addresses m →
          (Request.transactions clock randomId env form).Names L W m) ∧
          ∀ row, op.Inserts db row →
            (Request.transactions clock randomId env form).Draws row.accountId := by
        intro op hop
        refine ⟨fun m hm => ⟨x,n,n',c,h,?_⟩,fun row hrow => (hop.inserts_not hrow).elim⟩
        have htouches : Touches t m := orderly_addresses hop hm
        rw [Touches,hordered.transactionFrom,hordered.transactionTo] at htouches
        rcases htouches with hm | hm
        · obtain ⟨k,hk,hkn⟩ := sqlEq_iff.mp hm
          exact .inl (hk.trans hkn.symm)
        · obtain ⟨k,hk,hkn⟩ := sqlEq_iff.mp hm
          exact .inr (hk.trans hkn.symm)
      exact ((process_issues env t).imp hnames).silent (fun _ => trivial) fun _ => trivial
    · obtain ⟨refusal,hcode⟩ := transactionsPost_refused (L := L) (W := W) clock
        randomId h env
      rw [Request.program,hcode]
      exact trivial

theorem handleAll_serially (requests : ι → Request) (order : List ι) (T : Table) :
    handleAll L db W (order.map requests) T =
      serially (serve db) (fun i => ((requests i).program W : Code L (Except Refusal Page))) order T :=
  List.foldl_map

end Keeps

/-- Requests whose forms have no account number in common and draw new ids, in any interleaving
and whichever steps fail: every client gets the page that it gets when nobody else is there,
and the rows are those of handling the requests one after the other, in any order. -/
theorem requests_together [DecidableEq ι] {db : Database} (hkeyed : db.Keyed) (W : Web)
    (requests : ι → Request)
    (hapart : ∀ i j, i ≠ j → ∀ m, (requests i).Names L W m → ¬ (requests j).Names L W m)
    {T : Table} (hfresh : FreshIds T fun i => (requests i).Draws) (schedule order : List ι)
    (hdone : ((startRequests L W T requests).runs (serve db) schedule).Finished)
    (hnodup : order.Nodup) (hall : ∀ i, i ∈ order) :
    (∀ i, (((startRequests L W T requests).runs (serve db) schedule).thread i).run (serve db) T =
      ((((requests i).program W : Code L (Except Refusal Page)).run (serve db) T).1,T)) ∧
    ((startRequests L W T requests).runs (serve db) schedule).shared.Perm
      (handleAll L db W (order.map requests) T) := by
  have hkeeps : ∀ i, KeepsTo db ((requests i).Names L W) (requests i).Draws
      ((requests i).program W : Code L (Except Refusal Page)) := fun i => request_keepsTo (requests i)
  refine ⟨fun i => programs_answer hkeyed hfresh hkeeps hapart hdone i T,perm_of_parts fun n => ?_⟩
  rw [handleAll_serially]
  exact programs_apart hkeyed hfresh hkeeps hapart hdone hnodup hall n

namespace Sample

theorem clients_names (i : Bool) (m : Option String) (h : (clients i).Names libs web m) :
    (m == some iban₃) = i := by
  cases i with
  | false =>
    obtain ⟨x,n,n',c,henters,hm⟩ := h
    have hfrom : some iban₁ = some n := henters.transactFrom
    have hto : some iban₂ = some n' := henters.transactTo
    rw [← hfrom,← hto] at hm
    rcases hm with rfl | rfl <;> decide
  | true =>
    obtain ⟨x,n,c,henters,rfl⟩ := h
    have hnumber : some iban₃ = some n := henters.number
    rw [← hnumber]
    decide

theorem clients_draws {i : Bool} {id : UUID} (h : (clients i).Draws id) : i = true ∧ id = 7 := by
  cases i with
  | false => exact h.elim
  | true => exact ⟨rfl,h⟩

theorem clients_fresh : FreshIds twoRows fun i => (clients i).Draws where
  new i id h r hr := by
    rw [(clients_draws h).2]
    exact seven_new r hr
  distinct i j hij id hi hj := hij ((clients_draws hi).1.trans (clients_draws hj).1.symm)

def clientsInTurn : List Bool := [false,true,false] ++ List.replicate 7 false

end Sample

open Sample in
theorem requests_together_sample :
    (∀ i, (((startRequests libs web twoRows clients).runs (serve generated) clientsInTurn).thread i).run
        (serve generated) twoRows =
      ((((clients i).program web : Code libs (Except Refusal Page)).run (serve generated) twoRows).1,
        twoRows)) ∧
    ((startRequests libs web twoRows clients).runs (serve generated) clientsInTurn).shared.Perm
      (handleAll libs generated web ([true,false].map clients) twoRows) := by
  apply requests_together (accountMapping_keyed database)
  · intro i j hij m hi hj
    exact hij ((clients_names i m hi).symm.trans (clients_names j m hj))
  · exact clients_fresh
  · intro i
    cases i <;> decide +kernel
  · decide
  · decide

end HomeRest
