import HomeRest.CreditDebit
import HomeRest.Serializability

/-! The order of accepted transfers.
Balances are written as values computed from reads. On a store that keeps what is written,
an accepted transfer nevertheless adds the same to each balance, whatever the balances
are, and a sum does not depend on the order of its terms. -/
namespace HomeRest

open UnlockedTransfer

variable {L : Libs}

def net (t : BankTransaction L) (n : Option String) : ℚ :=
  (if t.transactionTo = n then t.transactionAmount.getD 0 else 0) -
    if t.transactionFrom = n then t.transactionAmount.getD 0 else 0

def nets (transactions : List (BankTransaction L)) (n : Option String) : ℚ :=
  (transactions.map fun t => net t n).sum

/-- Every transfer of the list is made, when the calls come one after the other. -/
def AllTransacted (db : Database) : List (Env × BankTransaction L) → Table → Prop
  | [], _ => True
  | call :: calls, T => call.1.cleared .wrapperLock = false ∧ Transacted db call.1 call.2 T ∧
      AllTransacted db calls (process db call.1 call.2 T).2

instance (db : Database) (env : Env) (t : BankTransaction L) (T : Table) :
    Decidable (Transacted db env t T) :=
  match h : (FunctorBiConsumeService4Accounts.consume env t).run (serve db) T with
  | (.ok (some result),T') => isTrue ⟨result,T',h⟩
  | (.ok none,_) => isFalse fun ⟨_,_,he⟩ => by cases h.symm.trans he
  | (.error _,_) => isFalse fun ⟨_,_,he⟩ => by cases h.symm.trans he

instance AllTransacted.decidable (db : Database) :
    (calls : List (Env × BankTransaction L)) → (T : Table) → Decidable (AllTransacted db calls T)
  | [], _ => isTrue trivial
  | call :: calls, T =>
    have : Decidable (AllTransacted db calls (process db call.1 call.2 T).2) :=
      AllTransacted.decidable db calls _
    inferInstanceAs (Decidable (_ ∧ _ ∧ _))

theorem nets_perm {ts ts' : List (BankTransaction L)} (h : ts.Perm ts') : nets ts = nets ts' := by
  funext n
  exact (h.map fun t => net t n).sum_eq

section Step

variable {db : Database} {env : Env} {t : BankTransaction L} {T : Table}

theorem Transacted.accepted (hu : UniqueNumbers T) (ho : Ordinary env t)
    (h : Transacted db env t T) : ∃ r s x b d, Accepted env t T r s x b d := by
  by_contra hacc
  obtain ⟨out,hrun,hout⟩ := consume_unaccepted db hu ho.kind ho.different hacc
  obtain ⟨result,T₁,hdone⟩ := h
  exact hout result (congrArg Prod.fst (hrun.symm.trans hdone))

/-- Balances are written as values, and change by the net amount, if the column keeps both. -/
theorem process_net_exact (hexact : ∀ r s x b d, Accepted env t T r s x b d →
      db.decimal (b-x) = b-x ∧ db.decimal (d+x) = d+x) (hu : UniqueNumbers T) (ho : Ordinary env t)
    (hw : env.cleared .wrapperLock = false) (h : Transacted db env t T) :
    held (process db env t T).2 = fun n => (held T n).map fun v => v + net t n := by
  obtain ⟨r,s,x,b,d,hacc⟩ := h.accepted hu ho
  obtain ⟨hkeptFrom,hkeptTo⟩ := hexact r s x b d hacc
  have hb : held T t.transactionFrom = some b := (held_single hacc.rowFrom).trans hacc.balanceFrom
  have hd : held T t.transactionTo = some d := (held_single hacc.rowTo).trans hacc.balanceTo
  have htake : (asTransfer db T env t).take (held T t.transactionFrom) = some (some (b-x)) := by
    rw [hb,take_covered (hacc.admissible hw) hacc.amount hacc.enough,hkeptFrom]
  have hput : (asTransfer db T env t).put (held T t.transactionTo) = some (d+x) := by
    rw [hd,put_some hacc.amount,hkeptTo]
  have hheld : held (process db env t T).2 =
      Function.update (Function.update (held T) t.transactionFrom (some (b-x))) t.transactionTo
        (some (d+x)) := by
    rw [(process_applies db hu ho).2,Transfer.apply_some htake]
    exact congrArg _ hput
  funext n
  rw [hheld]
  by_cases hto : t.transactionTo = n
  · have hfrom : t.transactionFrom ≠ n := fun he => ho.different (he.trans hto.symm)
    subst hto
    rw [Function.update_self,hd]
    simp [net,hfrom,hacc.amount]
  · rw [Function.update_of_ne (Ne.symm hto)]
    by_cases hfrom : t.transactionFrom = n
    · subst hfrom
      rw [Function.update_self,hb]
      simp [net,hto,hacc.amount,sub_eq_add_neg]
    · rw [Function.update_of_ne (Ne.symm hfrom)]
      simp [net,hto,hfrom]

theorem process_net (hexact : ∀ x, db.decimal x = x) (hu : UniqueNumbers T) (ho : Ordinary env t)
    (hw : env.cleared .wrapperLock = false) (h : Transacted db env t T) :
    held (process db env t T).2 = fun n => (held T n).map fun v => v + net t n :=
  process_net_exact (fun _ _ _ _ _ _ => ⟨hexact _,hexact _⟩) hu ho hw h

end Step

section Run

variable {db : Database} {T T₀ : Table}

theorem processAll_net (hexact : ∀ x, db.decimal x = x) (hu : UniqueNumbers T₀)
    (calls : List (Env × BankTransaction L)) (ho : ∀ call ∈ calls, Ordinary call.1 call.2)
    (hT : Akin L T₀ T) (h : AllTransacted db calls T) :
    Akin L T₀ (processAll db calls T) ∧ held (processAll db calls T) =
      fun n => (held T n).map fun v => v + nets (calls.map Prod.snd) n := by
  induction calls generalizing T with
  | nil =>
    refine ⟨hT,?_⟩
    funext n
    simp [processAll,nets]
  | cons call calls ih =>
    obtain ⟨hw,hcall,hcalls⟩ := h
    have huT : UniqueNumbers T := hu.of_identities hT.identities
    have hcallo : Ordinary call.1 call.2 := ho call (by simp)
    have hakin := hT.trans (process_applies db huT hcallo).1
    obtain ⟨hakin',hheld⟩ := ih (fun c hc => ho c (by simp [hc])) hakin hcalls
    refine ⟨hakin',?_⟩
    show held (processAll db calls (process db call.1 call.2 T).2) = _
    rw [hheld,process_net hexact huT hcallo hw hcall]
    funext n
    simp only [Option.map_map,List.map_cons,nets,List.sum_cons]
    congr 1
    funext v
    exact add_assoc _ _ _

end Run

/-- Two orders in which all transfers of a list are made end with the same balances. -/
theorem processAll_perm {db : Database} (hexact : ∀ x, db.decimal x = x) (T : Table)
    (hu : UniqueNumbers T) (calls calls' : List (Env × BankTransaction L))
    (ho : ∀ call ∈ calls, Ordinary call.1 call.2) (ho' : ∀ call ∈ calls', Ordinary call.1 call.2)
    (hperm : (calls.map Prod.snd).Perm (calls'.map Prod.snd)) (h : AllTransacted db calls T)
    (h' : AllTransacted db calls' T) :
    holdings (processAll db calls T) = holdings (processAll db calls' T) := by
  obtain ⟨hakin,hheld⟩ := processAll_net hexact hu calls ho (Akin.refl T) h
  obtain ⟨hakin',hheld'⟩ := processAll_net hexact hu calls' ho' (Akin.refl T) h'
  apply (hakin.symm.trans hakin').holdings_eq (hu.of_identities hakin.identities)
  rw [hheld,hheld',nets_perm hperm]

open Sample in
/-- A transfer there and one back, in both orders. -/
theorem processAll_perm_sample :
    holdings (processAll database
      [(env 100 fun _ => none,transfer 1 30000 iban₁ iban₂),
        (env 200 fun _ => none,transfer (-1) 3000 iban₂ iban₁)] twoRows) =
    holdings (processAll database
      [(env 300 fun _ => none,transfer (-1) 3000 iban₂ iban₁),
        (env 400 fun _ => none,transfer 1 30000 iban₁ iban₂)] twoRows) := by
  have ho : ∀ now, Ordinary (env now fun _ => none) (transfer 1 30000 iban₁ iban₂) :=
    fun now => ⟨env_sound now,.inl rfl,by decide +kernel⟩
  have ho' : ∀ now, Ordinary (env now fun _ => none) (transfer (-1) 3000 iban₂ iban₁) :=
    fun now => ⟨env_sound now,.inr rfl,by decide +kernel⟩
  exact processAll_perm (fun _ => rfl) twoRows (by decide +kernel) _ _
    (List.forall_mem_cons.mpr ⟨ho 100,List.forall_mem_singleton.mpr (ho' 200)⟩)
    (List.forall_mem_cons.mpr ⟨ho' 300,List.forall_mem_singleton.mpr (ho 400)⟩)
    (List.Perm.swap _ _ _) (by decide +kernel) (by decide +kernel)

end HomeRest
