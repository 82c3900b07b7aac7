import HomeRest.InProcess
import HomeRest.TransferMoves

/-! Calls at the same time, compared with the same calls one after the other.
The locks of a call are its own, so nothing keeps two calls apart. A write of a balance is
stale when another call has written the account since the writer looked it up; runs without
stale writes end as the calls do in some order. -/
namespace HomeRest

open AtomicProgram UnlockedTransfer

variable {L : Libs} {ι : Type}

/-- Others have written the account since this call last looked it up. -/
def Stale : List (ι × StoreCall L) → ι → Option String → Prop
  | [] => fun _ _ => False
  | (i,.getAccountByNumber _ n) :: earlier => fresh (Stale earlier) i n
  | (i,.updateAccount _ a) :: earlier => spoil (Stale earlier) i a.accountNumber
  | _ :: earlier => Stale earlier

def NoStaleWrite : List (ι × StoreCall L) → Prop
  | [] => True
  | (i,.updateAccount _ a) :: earlier => ¬ Stale earlier i a.accountNumber ∧ NoStaleWrite earlier
  | _ :: earlier => NoStaleWrite earlier

section Decide

variable [DecidableEq ι]

instance decidableStale (history : List (ι × StoreCall L)) (i : ι) (n : Option String) :
    Decidable (Stale history i n) :=
  match history with
  | [] => inferInstanceAs (Decidable False)
  | (j,.getAccountByNumber _ m) :: earlier =>
    haveI := decidableStale earlier i n
    inferInstanceAs (Decidable (Stale earlier i n ∧ ¬ (i = j ∧ n = m)))
  | (j,.updateAccount _ a) :: earlier =>
    haveI := decidableStale earlier i n
    inferInstanceAs (Decidable (Stale earlier i n ∨ i ≠ j ∧ n = a.accountNumber))
  | (_,.putAccount _ _) :: earlier => decidableStale earlier i n
  | (_,.closeTransaction _ _) :: earlier => decidableStale earlier i n

instance decidableNoStaleWrite (history : List (ι × StoreCall L)) : Decidable (NoStaleWrite history) :=
  match history with
  | [] => inferInstanceAs (Decidable True)
  | (i,.updateAccount _ a) :: earlier =>
    haveI := decidableNoStaleWrite earlier
    inferInstanceAs (Decidable (¬ Stale earlier i a.accountNumber ∧ NoStaleWrite earlier))
  | (_,.getAccountByNumber _ _) :: earlier => decidableNoStaleWrite earlier
  | (_,.putAccount _ _) :: earlier => decidableNoStaleWrite earlier
  | (_,.closeTransaction _ _) :: earlier => decidableNoStaleWrite earlier

end Decide

theorem NoStaleWrite.earlier {event : ι × StoreCall L} {history : List (ι × StoreCall L)}
    (h : NoStaleWrite (event :: history)) : NoStaleWrite history := by
  obtain ⟨i,op⟩ := event
  cases op with
  | updateAccount occasion a => exact h.2
  | getAccountByNumber occasion n => exact h
  | putAccount occasion a => exact h
  | closeTransaction occasion t => exact h

section Run

variable {db : Database} {T₀ : Table} {env : ι → Env} {transaction : ι → BankTransaction L}

noncomputable def asTransfers (db : Database) (T₀ : Table) (env : ι → Env)
    (transaction : ι → BankTransaction L) (i : ι) : Transfer (Option String) (Option ℚ) :=
  asTransfer db T₀ (env i) (transaction i)

/-- What a history tells about the table. -/
structure Tracks (db : Database) (T₀ : Table) (env : ι → Env) (transaction : ι → BankTransaction L)
    (history : List (ι × StoreCall L)) (T : Table) (phase : ι → Phase (Option ℚ)) : Prop where
  akin : Akin L T₀ T
  inv : Inv (asTransfers db T₀ env transaction) (held T₀) ⟨held T,phase,Stale history⟩

variable [DecidableEq ι]

variable (db) in
theorem updateAccount_tracks {occasion : Occasion} {t : BankTransaction L} {a : BankAccount L}
    {T : Table} (hf : occasion.fault = none) (hT : Akin L T₀ T) (ha : a.Complete)
    (hfits : Fits t a.accountNumber T₀) :
    Akin L T₀ (serve db (.updateAccount occasion a) T).2 ∧
      held (serve db (.updateAccount occasion a) T).2 =
        Function.update (held T) a.accountNumber (a.currentBalance.map db.decimal) := by
  obtain ⟨r,hr,hacc,-,-⟩ := hfits.akin hT
  obtain ⟨b,hb⟩ := ha.balance
  have hwritten : (serve db (.updateAccount occasion a) T).2 =
      updateWhere a.accountNumber (updatedRow db a) T := by
    rw [serve_updateAccount,Occasion.commits_none hf,sqlUpdateAccountsByNumber_eq]
  rw [hwritten]
  constructor
  · apply hT.trans
    apply Akin.updateWhere
    · exact fun _ => rfl
    · intro q hq
      have hb0 : 0 ≤ db.decimal b := db.decimal_nonneg b (a.balance_nonneg b hb)
      exact ⟨⟨db.decimal b,by simp [updatedRow,hb],hb0⟩,hq.number,hq.currency⟩
    · intro q hq
      rw [hr,List.mem_singleton] at hq
      rw [hq]
      exact hacc
  · exact held_updateWhere (updatedRow_number db a) (fun _ => rfl) hr

/-- The simulation: a move that is no stale write is a step of the transfers, or closes accounts. -/
theorem MoveStep.simulates {history : List (ι × StoreCall L)} {T : Table}
    {phase : ι → Phase (Option ℚ)} (hakin : Akin L T₀ T) {i : ι} {op : StoreCall L}
    {ph : Phase (Option ℚ)} (hstep : MoveStep db T₀ (env i) (transaction i) (phase i) op T ph)
    (hclean : NoStaleWrite ((i,op) :: history)) :
    Akin L T₀ (serve db op T).2 ∧
      (Step (asTransfers db T₀ env transaction) ⟨held T,phase,Stale history⟩
          ⟨held (serve db op T).2,Function.update phase i ph,Stale ((i,op) :: history)⟩ ∨
        held (serve db op T).2 = held T ∧ Function.update phase i ph = phase ∧
          Stale ((i,op) :: history) = Stale history) := by
  generalize hi : phase i = ph₀ at hstep
  cases hstep with
  | look hsettled =>
    rw [← hi,Function.update_eq_self]
    rw [← hi] at hsettled
    exact ⟨hakin,.inl (.look i _ hsettled)⟩
  | take htake => exact ⟨hakin,.inl (.take i hi htake)⟩
  | refuse htake => exact ⟨hakin,.inl (.refuse i hi htake)⟩
  | read => exact ⟨hakin,.inl (.read i hi)⟩
  | @pay occasion a T b d hf hadm hn ha htake =>
    have hstale : Stale ((i,.updateAccount occasion a) :: history) =
        spoil (Stale history) i (transaction i).transactionFrom := by
      rw [← hn]
      rfl
    have hfresh : ¬ Stale history i (transaction i).transactionFrom := hn ▸ hclean.1
    obtain ⟨hakin',hheld⟩ := updateAccount_tracks db hf hakin ha (hn ▸ hadm.fitsFrom)
    refine ⟨hakin',.inl ?_⟩
    rw [hheld,hn,hstale]
    exact .pay i hi hfresh htake
  | @give occasion a T d hf hadm hn ha hput =>
    have hstale : Stale ((i,.updateAccount occasion a) :: history) =
        spoil (Stale history) i (transaction i).transactionTo := by
      rw [← hn]
      rfl
    have hfresh : ¬ Stale history i (transaction i).transactionTo := hn ▸ hclean.1
    obtain ⟨hakin',hheld⟩ := updateAccount_tracks db hf hakin ha (hn ▸ hadm.fitsTo)
    refine ⟨hakin',.inl ?_⟩
    rw [hheld,hn,hstale,← hput]
    exact .give i hi hfresh
  | @close ph occasion T hended =>
    have hserve : (serve db (.closeTransaction occasion (transaction i)) T).2 = occasion.commits
        (sqlUpdateAccountsInTransaction (transaction i).transactionFrom (transaction i).transactionTo
          occasion.now) T := congrArg Prod.snd (serve_closeTransaction db occasion (transaction i) T)
    have hclose := akin_commits_close (L := L) occasion (transaction i).transactionFrom
      (transaction i).transactionTo T
    rw [← hi,Function.update_eq_self,hserve]
    exact ⟨hakin.trans hclose.1,.inr ⟨hclose.2,rfl,rfl⟩⟩

theorem Tracks.step (hne : ∀ i, (transaction i).transactionFrom ≠ (transaction i).transactionTo)
    {history : List (ι × StoreCall L)} {T : Table} {phase : ι → Phase (Option ℚ)}
    (h : Tracks db T₀ env transaction history T phase) {i : ι} {op : StoreCall L}
    {ph : Phase (Option ℚ)} (hstep : MoveStep db T₀ (env i) (transaction i) (phase i) op T ph)
    (hclean : NoStaleWrite ((i,op) :: history)) :
    Tracks db T₀ env transaction ((i,op) :: history) (serve db op T).2
      (Function.update phase i ph) := by
  obtain ⟨hakin,hinv⟩ := h
  obtain ⟨hakin',hstep | ⟨hheld,hphase,hstale⟩⟩ := hstep.simulates hakin hclean
  · have hne' : ∀ i, (asTransfers db T₀ env transaction i).source ≠
        (asTransfers db T₀ env transaction i).target := hne
    exact ⟨hakin',hinv.step hne' hstep⟩
  · refine ⟨hakin',?_⟩
    rw [hheld,hphase,hstale]
    exact hinv

end Run

section Serial

variable (db : Database) {T₀ T : Table} {env : Env} {t : BankTransaction L}

theorem Accepted.admissible {r s : Row} {x b d : ℚ} (h : Accepted env t T r s x b d)
    (hwrapper : env.cleared .wrapperLock = false) : Admissible env t T := by
  obtain ⟨u,hru,hsu,htu⟩ := h.currency
  exact ⟨hwrapper,h.lock,
    ⟨r,h.rowFrom,h.acceptableFrom,single_number h.rowFrom ▸ h.notBlankFrom,hru.trans htu.symm⟩,
    ⟨s,h.rowTo,h.acceptableTo,single_number h.rowTo ▸ h.notBlankTo,hsu.trans htu.symm⟩,
    ⟨x,h.amount⟩⟩

theorem Admissible.accepted {x b : ℚ} (h : Admissible env t T) (hx : t.transactionAmount = some x)
    (hb : held T t.transactionFrom = some b) (hxb : x ≤ b) :
    ∃ r s d, Accepted env t T r s x b d := by
  obtain ⟨u,hu⟩ := h.fitsFrom.currency
  obtain ⟨d,hd⟩ := h.fitsTo.held
  obtain ⟨r,hr,hracc,hrn,hrc⟩ := h.fitsFrom
  obtain ⟨s,hs,hsacc,hsn,hsc⟩ := h.fitsTo
  exact ⟨r,s,d,h.lock,hr,hs,hracc,hsacc,single_number hr ▸ hrn,single_number hs ▸ hsn,
    ⟨u,hrc.trans hu,hsc.trans hu,hu⟩,hx,(held_single hr).symm.trans hb,
    (held_single hs).symm.trans hd,hxb⟩

theorem Accepted.applies {r s : Row} {x b d : ℚ} (h : Accepted env t T r s x b d)
    (ho : Ordinary env t) (hwrapper : env.cleared .wrapperLock = false) :
    Akin L T (transferred db env t T) ∧
      held (transferred db env t T) = (asTransfer db T env t).apply (held T) := by
  obtain ⟨result,hrun⟩ := consume_accepted db ho.sound ho.kind ho.different h
  have hx0 : 0 ≤ x := t.amount_nonneg x h.amount
  have hd0 : 0 ≤ d := by
    obtain ⟨d',hd',hd0⟩ := h.acceptableTo.balance
    cases h.balanceTo.symm.trans hd'
    exact hd0
  have hto : sqlGetAccountsByNumber t.transactionTo (book db t.transactionFrom 10 (b-x)
      (env.occasion (.balanceFrom (firingPass t))).now T) = [s] := by
    rw [book,sqlGet_updateWhere_ne (bookedRow_number _ _ _ _) ho.different]
    exact h.rowTo
  have htake : (asTransfer db T env t).take (held T t.transactionFrom) =
      some (some (db.decimal (b-x))) := by
    rw [held_single h.rowFrom,h.balanceFrom]
    exact take_covered (h.admissible hwrapper) h.amount h.enough
  have hput : (asTransfer db T env t).put (held T t.transactionTo) = some (db.decimal (d+x)) := by
    rw [held_single h.rowTo,h.balanceTo]
    exact put_some h.amount
  rw [transferred,if_pos hwrapper,hrun]
  simp only [delivered_sound ho.sound]
  constructor
  · exact (Akin.book db (sub_nonneg.mpr h.enough) _ h.rowFrom h.acceptableFrom).trans
      (Akin.book db (add_nonneg hd0 hx0) _ hto h.acceptableTo)
  · rw [held_book db hto,held_book db h.rowFrom,Transfer.apply_some htake]
    exact congrArg _ hput.symm

theorem transferred_applies (hu : UniqueNumbers T) (h : Ordinary env t) :
    Akin L T (transferred db env t T) ∧
      held (transferred db env t T) = (asTransfer db T env t).apply (held T) := by
  by_cases hw : env.cleared .wrapperLock = false
  · by_cases hacc : ∃ r s x b d, Accepted env t T r s x b d
    · obtain ⟨r,s,x,b,d,hacc⟩ := hacc
      exact hacc.applies db h hw
    · obtain ⟨out,hrun,-⟩ := consume_unaccepted db hu h.kind h.different hacc
      have htake : (asTransfer db T env t).take (held T t.transactionFrom) = none := by
        by_cases hadm : Admissible env t T
        · obtain ⟨x,hx⟩ := hadm.amount
          obtain ⟨b,hb⟩ := hadm.fitsFrom.held
          rw [hb]
          apply take_uncovered hx
          intro hxb
          obtain ⟨r,s,d,h'⟩ := hadm.accepted hx hb hxb
          exact hacc ⟨r,s,x,b,d,h'⟩
        · exact take_inadmissible hadm _
      rw [transferred,if_pos hw,hrun]
      exact ⟨Akin.refl T,(Transfer.apply_none htake).symm⟩
  · have htake : (asTransfer db T env t).take (held T t.transactionFrom) = none :=
      take_inadmissible (fun hadm => hw hadm.wrapper) _
    rw [transferred,if_neg hw]
    exact ⟨Akin.refl T,(Transfer.apply_none htake).symm⟩

theorem process_applies (hu : UniqueNumbers T) (h : Ordinary env t) :
    Akin L T (process db env t T).2 ∧
      held (process db env t T).2 = (asTransfer db T env t).apply (held T) := by
  obtain ⟨out,hrun⟩ := process_run db env h.kind T
  obtain ⟨hakin,hheld⟩ := transferred_applies db hu h
  rw [hrun,closed]
  split_ifs
  · obtain ⟨hakin',hheld'⟩ := akin_commits_close (L := L) (env.occasion .close) t.transactionFrom
      t.transactionTo (transferred db env t T)
    exact ⟨hakin.trans hakin',hheld'.trans hheld⟩
  · exact ⟨hakin,hheld⟩

theorem asTransfer_akin (hT : Akin L T₀ T) : asTransfer db T env t = asTransfer db T₀ env t := by
  have hadm : Admissible env t T ↔ Admissible env t T₀ :=
    ⟨fun h => h.akin hT.symm,fun h => h.akin hT⟩
  classical
  unfold asTransfer
  congr 1
  funext balance
  exact if_congr hadm rfl rfl

theorem processAll_applies {ι : Type} {env : ι → Env} {transaction : ι → BankTransaction L}
    (hu : UniqueNumbers T₀) (h : ∀ i, Ordinary (env i) (transaction i)) (order : List ι)
    (hT : Akin L T₀ T) :
    Akin L T₀ (processAll db (order.map fun i => (env i,transaction i)) T) ∧
      held (processAll db (order.map fun i => (env i,transaction i)) T) =
        serial (asTransfers db T₀ env transaction) (held T) order := by
  induction order generalizing T with
  | nil => exact ⟨hT,rfl⟩
  | cons i order ih =>
    obtain ⟨hakin,hheld⟩ := process_applies db (hu.of_identities hT.identities) (h i)
    rw [asTransfer_akin db hT] at hheld
    obtain ⟨hakin',hheld'⟩ := ih (hT.trans hakin)
    refine ⟨hakin',hheld'.trans ?_⟩
    rw [hheld]
    rfl

end Serial

/-- Runs without stale writes lose no update: they end with the balances of the same calls
one after the other. -/
theorem processTransaction_serializable {db : Database} [Fintype ι] [DecidableEq ι] (T : Table)
    (hu : UniqueNumbers T) (env : ι → Env) (transaction : ι → BankTransaction L)
    (h : ∀ i, Ordinary (env i) (transaction i)) (schedule : List ι)
    (hdone : ((startCalls T fun i => .processTransaction (env i) (transaction i)).runs (serve db)
      schedule).Finished)
    (hclean : NoStaleWrite ((startCalls T fun i => .processTransaction (env i) (transaction i)).runs
      (serve db) schedule).history) :
    ∃ order : List ι, order.Nodup ∧ (∀ i, i ∈ order) ∧
      holdings ((startCalls T fun i => .processTransaction (env i) (transaction i)).runs (serve db)
        schedule).shared =
      holdings (processAll db (order.map fun i => (env i,transaction i)) T) := by
  have hfollow : ∀ i, Follows (serve db) (Akin L T) (MoveStep db T (env i) (transaction i))
      (fun (_ : Except Throwable Unit) ph => ph.Ended) (startPhase T (env i) (transaction i))
      (Call.processTransaction (env i) (transaction i)).program := by
    intro i
    apply (process_moves hu (h i)).cont
    · exact fun slot ph hph => hph
    · exact fun e ph hph => hph
  have hstart : Tracks db T env transaction [] T fun i => startPhase T (env i) (transaction i) := by
    refine ⟨Akin.refl T,Inv.start (s := ⟨held T,_,_⟩) ?_⟩
    intro i
    by_cases hadm : Admissible (env i) (transaction i) T
    · exact .inl (if_pos hadm)
    · exact .inr ⟨if_neg hadm,take_inadmissible hadm⟩
  obtain ⟨phase,htracks,hend⟩ := runs_follow (serve db)
    (fun i => MoveStep db T (env i) (transaction i)) (J := Akin L T)
    (Q := fun _ _ ph => ph.Ended) (I := Tracks db T env transaction) (P := NoStaleWrite)
    (fun _ _ _ ht => ht.akin) (fun _ _ hc => hc.earlier)
    (fun _ _ _ _ _ _ ht hstep hc => ht.step (fun i => (h i).different) hstep hc)
    (startCalls T fun i => .processTransaction (env i) (transaction i)) _ hstart hfollow schedule hclean
  have hended : ∀ i, (phase i).Ended := by
    intro i
    obtain ⟨_,hph⟩ := (hend i).done (hdone i)
    exact hph
  obtain ⟨order,hnodup,hall,hserial⟩ := htracks.inv.serializes hended
  obtain ⟨hakin,hheld⟩ := processAll_applies db hu h order (Akin.refl T)
  refine ⟨order,hnodup,hall,?_⟩
  apply (htracks.akin.symm.trans hakin).holdings_eq (hu.of_identities htracks.akin.identities)
  rw [hheld,hserial]

namespace Sample

def thirty : BankTransaction libs := transfer 1 30000 iban₁ iban₂

theorem thirty_ordinary : Ordinary (env 100 fun _ => none) thirty :=
  ⟨env_sound 100,.inl rfl,by decide +kernel⟩

/-- The calls run at the same time, but neither looks up what the other one is about to write. -/
def overlapping : List Bool := List.replicate 3 false ++ List.replicate 3 true ++
  List.replicate 4 false ++ List.replicate 4 true ++ List.replicate 2 false ++ List.replicate 2 true

end Sample

open Sample in
theorem processTransaction_serializable_sample : ∃ order : List Bool, order.Nodup ∧
    (∀ i, i ∈ order) ∧
    holdings ((startCalls twoRows fun _ => .processTransaction (env 100 fun _ => none) thirty).runs
      (serve database) overlapping).shared =
    holdings (processAll database (order.map fun _ => (env 100 fun _ => none,thirty)) twoRows) :=
  processTransaction_serializable twoRows (by decide +kernel) (fun _ => env 100 fun _ => none)
    (fun _ => thirty) (fun _ => thirty_ordinary) overlapping (fun i => by cases i <;> decide +kernel)
    (by decide +kernel)

open Sample in
/-- In turn, both calls look up 100 and write 70: one of the two debits is lost. -/
theorem processTransaction_losesUpdate :
    UniqueNumbers twoRows ∧ NonNegative twoRows ∧ Ordinary (env 100 fun _ => none) thirty ∧
    ((startCalls twoRows fun _ : Bool => .processTransaction (env 100 fun _ => none) thirty).runs
      (serve database) inTurn).Finished ∧
    ¬ ∃ order : List Bool, order.Nodup ∧ (∀ i, i ∈ order) ∧
      holdings ((startCalls twoRows fun _ => .processTransaction (env 100 fun _ => none)
        thirty).runs (serve database) inTurn).shared =
      holdings (processAll database (order.map fun _ => (env 100 fun _ => none,thirty)) twoRows) := by
  refine ⟨by decide +kernel,by decide +kernel,thirty_ordinary,fun i => by cases i <;> decide +kernel,?_⟩
  rintro ⟨order,hnodup,hall,hholdings⟩
  have hlength : order.length = 2 := by
    have hset : order.toFinset = Finset.univ := by
      ext i
      simp [hall i]
    rw [← List.toFinset_card_of_nodup hnodup,hset]
    rfl
  rw [List.map_const',hlength] at hholdings
  revert hholdings
  decide +kernel

end HomeRest
