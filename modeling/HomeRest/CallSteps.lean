import HomeRest.Footprints
import HomeRest.InProcess

/-! What a call of `processTransaction` may do to the store.
It looks for its two numbers, marks the two accounts as outgoing and as incoming with all
their data set, and closes them, whatever it reads and whatever fails. -/
namespace HomeRest

open AtomicProgram

variable {L : Libs} {db : Database} {env : Env} {t : BankTransaction L}

/-- The steps of a call. -/
def Orderly (t : BankTransaction L) : StoreCall L → Prop
  | .getAccountByNumber _ n => n = t.transactionFrom ∨ n = t.transactionTo
  | .updateAccount _ a => a.Complete ∧
    (a.accountNumber = t.transactionFrom ∧ a.accountStatus = some 10 ∨
      a.accountNumber = t.transactionTo ∧ a.accountStatus = some 20)
  | .putAccount _ _ => False
  | .closeTransaction _ t' => t' = t

theorem fire_issues (hc : t.CreditOrDebit) (pass : ℕ) (account : BankAccount L) :
    Issues (serve db) (Orderly t) (fire env t pass account) := by
  rw [fire_eq,Program.handle]
  apply Follows.cont (Q := fun _ _ => True)
  · apply follows_lookup fun a ha => ⟨_,outgoing_unset ha⟩
    intro T _
    refine ⟨(),.inl rfl,?_,fun _ _ => trivial⟩
    intro a bf ha hbf
    apply follows_lookup fun c hn => ⟨_,incoming_unset hn⟩
    intro T' _
    refine ⟨(),.inr rfl,?_,fun _ _ => trivial⟩
    intro c bt hcr hbt
    obtain ⟨hac,b,x,-,-,-,hsf⟩ := outgoing_sound hc hbf
    obtain ⟨hcc,d,x',-,-,hst⟩ := incoming_sound hc hbt
    have hbfc : bf.Complete := hsf.complete hac
    have hbtc : bt.Complete := hst.complete hcc
    have hfrom : bf.accountNumber = t.transactionFrom := hsf.number.trans ha.number.1
    have hto : bt.accountNumber = t.transactionTo := hst.number.trans hcr.number.1
    rw [writeSides_eq env pass hbfc hbtc]
    apply follows_perform
    intro T₁ _
    refine ⟨(),⟨hbfc,.inl ⟨hfrom,hsf.status⟩⟩,?_,fun _ _ => trivial⟩
    intro _ _
    apply follows_perform
    intro T₂ _
    exact ⟨(),⟨hbtc,.inr ⟨hto,hst.status⟩⟩,fun _ _ => trivial,fun _ _ => trivial⟩
  · exact fun _ _ _ => trivial
  · exact fun _ _ _ => trivial

theorem processTransaction_other (env : Env) (hc : ¬ t.CreditOrDebit) :
    ∃ r, processTransaction env t = .ofExcept r := by
  cases hk : t.transactionType with
  | none =>
    exact ⟨.ok _,by simp [processTransaction,Program.handle,BankTransaction.isDebit,hk]; rfl⟩
  | some k =>
    have hcredit : k ≠ 1 := fun h => hc (.inl (by rw [hk,h]))
    have hdebit : k ≠ -1 := fun h => hc (.inr (by rw [hk,h]))
    exact ⟨.error _,by simp [processTransaction,Program.handle,BankTransaction.isDebit,
      BankTransaction.isCredit,hk,hcredit,hdebit]; rfl⟩

theorem process_issues (env : Env) (t : BankTransaction L) :
    Issues (serve db) (Orderly t) (processTransaction env t) := by
  by_cases hc : t.CreditOrDebit
  · apply process_follows (Q := fun _ => True) hc
    · exact fun _ => trivial
    · intro _
      apply consume_follows
      · exact fun T _ => .inl rfl
      · exact fun T _ => .inr rfl
      · exact fun _ => trivial
      · intro x y T T' _ _ _ hx hy _ _
        have hpeek : ∀ pass, ∀ z ∈ [x,y], ∀ T : Table, True →
            Orderly t (.getAccountByNumber (env.occasion (.loop pass)) z.accountNumber) := by
          intro pass z hz T _
          rcases List.mem_pair.mp hz with rfl | rfl
          · exact .inl hx.number.1
          · exact .inr hy.number.1
        have hfire : ∀ pass account, Follows (serve db) (fun _ => True)
            (fun (_ : Unit) op _ _ => Orderly t op) (fun _ ph => ph = ()) () (fire env t pass account) :=
          fun pass account => Follows.imp (fire_issues hc pass account) fun _ _ _ => rfl
        exact (transactLoop_follows_collection hc hpeek hfire 0 x y).imp fun _ _ _ => trivial
    · exact fun _ T _ _ => ⟨(),rfl,trivial⟩
    · exact fun _ _ _ => trivial
  · obtain ⟨r,hr⟩ := processTransaction_other env hc
    rw [hr]
    exact follows_ofExcept.mpr trivial

end HomeRest
