import HomeRest.CallSteps
import HomeRest.Settlement
import HomeRest.TestProfile

/-! The two profiles.
The test service closes no transaction and reports nothing, and does not stop at types that
are neither credit nor debit. The money that it moves is what `processTransaction` of
production moves for the same elements. -/
namespace HomeRest

variable {L : Libs} {db : Database}

/-- The tables of the two profiles: the same accounts with the same balances. -/
structure EquallyRich (L : Libs) (T T' : Table) : Prop where
  akin : Akin L T T'
  held : held T = held T'

section Step

variable {T T' : Table} {visit : Visit L}

theorem process_other {env : Env} {t : BankTransaction L} (hc : ¬ t.CreditOrDebit) (T : Table) :
    (process db env t T).2 = T := by
  obtain ⟨r,hr⟩ := processTransaction_other env hc
  rw [process,hr,AtomicProgram.Program.run_ofExcept]

theorem EquallyRich.step (h : EquallyRich L T T') (hu : UniqueNumbers T) (hs : visit.1.Sound)
    (hl : Listed visit.2) : EquallyRich L (visited db visit T) (process db visit.1 visit.2 T').2 := by
  by_cases hc : visit.2.CreditOrDebit
  · have ho : Ordinary visit.1 visit.2 := ⟨hs,hc,hl.different⟩
    obtain ⟨hakin,hheld⟩ := transferred_applies db hu ho
    obtain ⟨hakin',hheld'⟩ := process_applies db (hu.of_identities h.akin.identities) ho
    rw [asTransfer_akin db h.akin] at hheld'
    rw [visited_eq]
    exact ⟨hakin.symm.trans (h.akin.trans hakin'),by rw [hheld,hheld',h.held]⟩
  · rw [visited_eq,transferred,(consume_other hs hl hc).1,ite_self,process_other hc]
    exact h

theorem EquallyRich.run (db : Database) {S : TransactionTable} (h : EquallyRich L T T') (hu : UniqueNumbers T)
    (visits : List (Visit L)) (hv : ∀ visit ∈ visits, FromTable S visit) :
    EquallyRich L (visitAll db visits T) (processAll db visits T') := by
  induction visits generalizing T T' with
  | nil => exact h
  | cons visit visits ih =>
    have hfrom : FromTable S visit := hv visit (by simp)
    have hakin : Akin L T (visited db visit T) := akin_visited hu hfrom.sound hfrom.listed
    exact ih (h.step hu hfrom.sound hfrom.listed) (hu.of_identities hakin.identities)
      fun v hvm => hv v (by simp [hvm])

end Step

/-- Listings of the test service, one after the other, move the money that production moves
when it processes the elements that they come to. -/
theorem profiles_agree (S : TransactionTable) (T : Table) (hu : UniqueNumbers T)
    (readings : List Reading) (hs : ∀ o ∈ readings, ∀ i, (o.env i).Sound) :
    holdings (readAll db S L readings T) =
      holdings (processAll db (allVisits db S readings T : List (Visit L)) T) := by
  have hv : ∀ visit ∈ (allVisits db S readings T : List (Visit L)), FromTable S visit :=
    allVisits_fromTable readings hs T hu
  have hrich := EquallyRich.run db ⟨Akin.refl T,rfl⟩ hu _ hv
  have hakin : Akin L T (visitAll db (allVisits db S readings T : List (Visit L)) T) :=
    akin_visitAll _ hu hv
  rw [readAll_eq]
  exact hrich.akin.holdings_eq (hu.of_identities hakin.identities) hrich.held

open Sample in
theorem profiles_agree_sample :
    holdings (readAll database oneTransaction libs [reading,reading] twoRows) =
      holdings (processAll database
        (allVisits database oneTransaction [reading,reading] twoRows : List (Visit libs)) twoRows) :=
  profiles_agree oneTransaction twoRows twoRows_unique [reading,reading] fun o ho i => by
    simp only [List.mem_cons,List.not_mem_nil,or_false,or_self] at ho
    subst ho
    exact env_sound 100

end HomeRest
