import HomeRest.CallSteps
import HomeRest.CutOff
import HomeRest.ReadModifyWrite
import HomeRest.Schema
import HomeRest.Settlement

/-! What concurrent calls can do to a balance, whatever goes wrong.
Calls that overtake each other lose updates. But a call writes each of its accounts once at
most, with the balance that it has read before and its own amount, so no amount is ever counted
twice: in every run, with any steps failing, a balance comes from the first one by some of the
calls. -/
namespace HomeRest

open AtomicProgram UnlockedTransfer ReadModifyWrite

variable {L : Libs} {ι : Type}

def changed (db : Database) (transaction : ι → BankTransaction L) (i : ι) (n : Option String)
    (balance : Option ℚ) : Option ℚ :=
  balance.map fun b => db.decimal (b+net (transaction i) n)

/-- How a call comes to its writes, if it does. -/
inductive WriteStep (t : BankTransaction L) :
    Phase (Option ℚ) → StoreCall L → Table → Phase (Option ℚ) → Prop
  | look {ph occasion n T} : WriteStep t ph (.getAccountByNumber occasion n) T ph
  | take {occasion T} :
    WriteStep t .idle (.getAccountByNumber occasion t.transactionFrom) T
      (.taking (held T t.transactionFrom))
  | read {b occasion T} :
    WriteStep t (.taking b) (.getAccountByNumber occasion t.transactionTo) T
      (.ready b (held T t.transactionTo))
  | pay {b d occasion a T} (hn : a.accountNumber = t.transactionFrom)
    (ha : a.currentBalance = b.map (·+net t t.transactionFrom)) :
    WriteStep t (.ready b d) (.updateAccount occasion a) T (.half d)
  | give {d occasion a T} (hn : a.accountNumber = t.transactionTo)
    (ha : a.currentBalance = d.map (·+net t t.transactionTo)) :
    WriteStep t (.half d) (.updateAccount occasion a) T .done
  | close {ph occasion t' T} : WriteStep t ph (.closeTransaction occasion t') T ph

section Follow

variable {db : Database} {env : Env} {t : BankTransaction L} {ph : Phase (Option ℚ)}

theorem fire_writes (hc : t.CreditOrDebit) (hdiff : t.transactionFrom ≠ t.transactionTo) (pass : ℕ)
    (account : BankAccount L) : Follows (serve db) UniqueNumbers (WriteStep t) (fun _ _ => True) .idle
      (fire env t pass account) := by
  have hfrom : ∀ x, t.transactionAmount = some x → net t t.transactionFrom = -x := by
    intro x hx
    simp [net,hx,hdiff.symm]
  have hto : ∀ x, t.transactionAmount = some x → net t t.transactionTo = x := by
    intro x hx
    simp [net,hx,hdiff]
  rw [fire_eq,Program.handle]
  apply Follows.cont (Q := fun _ _ => True)
  · apply follows_lookup fun a ha => ⟨_,outgoing_unset ha⟩
    intro T hT
    refine ⟨_,.take,?_,fun _ _ => trivial⟩
    intro a bf ha hbf
    apply follows_lookup fun c hn => ⟨_,incoming_unset hn⟩
    intro T' hT'
    refine ⟨_,.read,?_,fun _ _ => trivial⟩
    intro c bt hcr hbt
    obtain ⟨r,hr,-,hcar⟩ := hT.reads_single ha
    obtain ⟨s,hs,-,hcas⟩ := hT'.reads_single hcr
    obtain ⟨hac,b,x,hb,hx,-,hsf⟩ := outgoing_sound hc hbf
    obtain ⟨hcc,d,x',hd,hx',hst⟩ := incoming_sound hc hbt
    cases hx.symm.trans hx'
    have hheld : held T t.transactionFrom = some b :=
      (held_single hr).trans (hcar.balance.symm.trans hb)
    have hheld' : held T' t.transactionTo = some d :=
      (held_single hs).trans (hcas.balance.symm.trans hd)
    rw [writeSides_eq env pass (hsf.complete hac) (hst.complete hcc)]
    apply follows_perform
    intro T₁ _
    refine ⟨_,.pay (hsf.number.trans ha.number.1) ?_,?_,fun _ _ => trivial⟩
    · rw [hsf.balance,hheld,Option.map_some,hfrom x hx,sub_eq_add_neg]
    intro _ _
    apply follows_perform
    intro T₂ _
    refine ⟨_,.give (hst.number.trans hcr.number.1) ?_,fun _ _ => trivial,fun _ _ => trivial⟩
    rw [hst.balance,hheld',Option.map_some,hto x hx]
  · exact fun _ _ _ => trivial
  · exact fun _ _ _ => trivial

theorem loop_pass {z : BankAccount L} {rest : List (BankAccount L)} {pass : ℕ}
    {balanceFrom balanceTo : BankAccount L} (hc : t.CreditOrDebit)
    (hfire : Fires t z.accountNumber → ∀ account,
      Follows (serve db) UniqueNumbers (WriteStep t) (fun _ _ => True) ph (fire env t pass account))
    (hrest : ∀ ph' bf bt, ph' = ph ∨ Fires t z.accountNumber →
      Follows (serve db) UniqueNumbers (WriteStep t) (fun _ _ => True) ph'
        (transactLoop env t (pass+1) rest bf bt)) :
    Follows (serve db) UniqueNumbers (WriteStep t) (fun _ _ => True) ph
      (transactLoop env t pass (z :: rest) balanceFrom balanceTo) := by
  rw [transactLoop_cons]
  apply follows_get
  intro T hT
  refine ⟨ph,.look,?_,fun e _ => trivial⟩
  intro found hfound
  rcases getAccountByNumber_cases (L := L) (env.occasion (.loop pass)) z.accountNumber T
    with ⟨a,ha⟩ | ⟨e,he⟩ | ⟨a,ha,hn,-⟩
  · cases hfound.symm.trans ha.2
    simp only [optionalGet,Program.ofExcept_ok,Program.ret_cont]
    rcases visit_cases rest balanceFrom balanceTo ha.complete with ⟨e,he⟩ | ⟨hf,he⟩ | he
    · rw [he]
      exact trivial
    · rw [ha.number.1] at hf
      rw [he]
      apply (hfire hf a).cont
      · exact fun sides ph' _ => hrest ph' sides.1 sides.2 (.inr hf)
      · exact fun _ _ _ => trivial
    · rw [he]
      exact hrest ph balanceFrom balanceTo (.inl rfl)
  · cases hfound.symm.trans he
  · cases hfound.symm.trans ha
    obtain ⟨e,he⟩ : ∃ e, visit env t pass rest balanceFrom balanceTo a = .raise e := visit_unset hc hn
    simp only [optionalGet,Program.ofExcept_ok,Program.ret_cont,he]
    exact trivial

theorem fires_either (hdiff : t.transactionFrom ≠ t.transactionTo) :
    ¬ (Fires t t.transactionFrom ∧ Fires t t.transactionTo) := by
  rintro ⟨⟨hk,-⟩ | ⟨hk,hn⟩,⟨hk',hn'⟩ | ⟨hk',-⟩⟩
  · exact hdiff hn'
  · rw [hk] at hk'
    exact absurd hk' (by decide)
  · exact hdiff hn.symm
  · exact hdiff hn.symm

theorem transact_writes (hc : t.CreditOrDebit) (hdiff : t.transactionFrom ≠ t.transactionTo)
    {x y : BankAccount L} (hx : x.accountNumber = t.transactionFrom)
    (hy : y.accountNumber = t.transactionTo) :
    Follows (serve db) UniqueNumbers (WriteStep t) (fun _ _ => True) .idle
      (transactInAccounts env t [x,y]) := by
  show Follows _ _ _ _ _ (transactLoop env t 0 [x,y] x y)
  apply loop_pass hc
  · exact fun _ account => fire_writes hc hdiff 0 account
  · intro ph' bf bt hph
    apply loop_pass hc
    · intro hf account
      rw [hx] at hph
      rw [hy] at hf
      rcases hph with rfl | hfx
      · exact fire_writes hc hdiff 1 account
      · exact absurd ⟨hfx,hf⟩ (fires_either hdiff)
    · exact fun _ _ _ _ => trivial

/-- A call between different accounts writes each of them once at most. -/
theorem call_writes (env : Env) (hdiff : t.transactionFrom ≠ t.transactionTo) :
    Follows (serve db) UniqueNumbers (WriteStep t) (fun _ _ => True) .idle
      (Call.processTransaction env t).program := by
  have hprocess : Follows (serve db) UniqueNumbers (WriteStep t) (fun _ _ => True) .idle
      (processTransaction env t) := by
    by_cases hc : t.CreditOrDebit
    · apply process_follows (Q := fun _ => True) hc
      · exact fun _ => trivial
      · intro _
        apply consume_follows
        · exact fun _ _ => .look
        · exact fun _ _ => .look
        · exact fun _ => trivial
        · intro x y T T' _ _ _ hx hy _ _
          exact transact_writes hc hdiff hx.number.1 hy.number.1
      · exact fun ph' T _ _ => ⟨ph',.close,trivial⟩
      · exact fun _ _ _ => trivial
    · obtain ⟨r,hr⟩ := processTransaction_other env hc
      rw [hr,follows_ofExcept]
      exact trivial
  apply hprocess.cont
  · exact fun _ _ _ => trivial
  · exact fun _ _ _ => trivial

end Follow

section Once

variable {db : Database} {T₀ T : Table} {transaction : ι → BankTransaction L}
  {history history' : List (ι × StoreCall L)} {phase : ι → Phase (Option ℚ)}

def lastWriter : List (ι × StoreCall L) → Option String → Option ι
  | [], _ => none
  | (i,.updateAccount occasion a) :: earlier, n =>
    if occasion.fault = none ∧ a.accountNumber = n then some i else lastWriter earlier n
  | _ :: earlier, n => lastWriter earlier n

/-- A balance that some calls lead to, by their writes in the history. -/
def Comes (db : Database) (T₀ : Table) (transaction : ι → BankTransaction L)
    (history : List (ι × StoreCall L)) (n : Option String) (last : Option ι) (balance : Option ℚ) :
    Prop :=
  Chained (changed db transaction) (held T₀) (Wrote history) n last balance

/-- What a call keeps for its writes comes from calls that it is not one of. -/
def Keeps (db : Database) (T₀ : Table) (transaction : ι → BankTransaction L)
    (history : List (ι × StoreCall L)) (i : ι) : Phase (Option ℚ) → Prop
  | .idle => ¬ Wrote history i (transaction i).transactionFrom ∧
      ¬ Wrote history i (transaction i).transactionTo
  | .taking b => (∃ last, Comes db T₀ transaction history (transaction i).transactionFrom last b) ∧
      ¬ Wrote history i (transaction i).transactionFrom ∧
      ¬ Wrote history i (transaction i).transactionTo
  | .ready b d => (∃ last, Comes db T₀ transaction history (transaction i).transactionFrom last b) ∧
      (∃ last, Comes db T₀ transaction history (transaction i).transactionTo last d) ∧
      ¬ Wrote history i (transaction i).transactionFrom ∧
      ¬ Wrote history i (transaction i).transactionTo
  | .half d => (∃ last, Comes db T₀ transaction history (transaction i).transactionTo last d) ∧
      ¬ Wrote history i (transaction i).transactionTo
  | _ => True

/-- The invariant of concurrent calls. -/
structure Once (db : Database) (T₀ : Table) (transaction : ι → BankTransaction L)
    (history : List (ι × StoreCall L)) (T : Table) (phase : ι → Phase (Option ℚ)) : Prop where
  unique : UniqueNumbers T
  comes : ∀ n, Comes db T₀ transaction history n (lastWriter history n) (held T n)
  keeps : ∀ i, Keeps db T₀ transaction history i (phase i)

theorem Keeps.mono {i : ι} {ph : Phase (Option ℚ)} (h : Keeps db T₀ transaction history i ph)
    (hw : ∀ j n, Wrote history j n → Wrote history' j n)
    (hi : ∀ n, Wrote history' i n → Wrote history i n) : Keeps db T₀ transaction history' i ph := by
  have hcomes : ∀ n b, (∃ last, Comes db T₀ transaction history n last b) →
      ∃ last, Comes db T₀ transaction history' n last b :=
    fun n b hb => hb.imp fun last hc => Chained.mono hc fun j => hw j n
  have hnot : ∀ n, ¬ Wrote history i n → ¬ Wrote history' i n := fun n hn hw' => hn (hi n hw')
  cases ph with
  | idle => exact ⟨hnot _ h.1,hnot _ h.2⟩
  | taking b => exact ⟨hcomes _ _ h.1,hnot _ h.2.1,hnot _ h.2.2⟩
  | ready b d => exact ⟨hcomes _ _ h.1,hcomes _ _ h.2.1,hnot _ h.2.2.1,hnot _ h.2.2.2⟩
  | half d => exact ⟨hcomes _ _ h.1,hnot _ h.2⟩
  | done => exact trivial
  | refused => exact trivial

theorem held_update (db : Database) (hu : UniqueNumbers T) {occasion : Occasion}
    (hf : occasion.fault = none) (a : BankAccount L) :
    (∀ n, n ≠ a.accountNumber → held (serve db (.updateAccount occasion a) T).2 n = held T n) ∧
      (held (serve db (.updateAccount occasion a) T).2 a.accountNumber =
          a.currentBalance.map db.decimal ∨
        held (serve db (.updateAccount occasion a) T).2 a.accountNumber = none ∧
          held T a.accountNumber = none) := by
  simp only [serve_updateAccount,Occasion.commits,if_pos hf,sqlUpdateAccountsByNumber_eq]
  constructor
  · intro n hn
    rw [held,held,sqlGet_updateWhere_ne (updatedRow_number db a) hn.symm]
  · rcases hu.cases a.accountNumber with hnil | ⟨r,hr⟩
    · right
      rw [held,held,sqlGet_updateWhere_self (updatedRow_number db a),hnil]
      exact ⟨rfl,rfl⟩
    · left
      rw [held,sqlGet_updateWhere_self (updatedRow_number db a),hr]
      rfl

theorem held_failed (db : Database) {occasion : Occasion} (hf : occasion.fault ≠ none)
    (a : BankAccount L) : held (serve db (.updateAccount occasion a) T).2 = held T := by
  simp only [serve_updateAccount,Occasion.commits,if_neg hf]

theorem wrote_later {i : ι} {op : StoreCall L} {j : ι} {n : Option String}
    (h : Wrote history j n) : Wrote ((i,op) :: history) j n := by
  obtain ⟨occasion,a,hmem,hn⟩ := h
  exact ⟨occasion,a,List.mem_cons_of_mem _ hmem,hn⟩

theorem Comes.none_iff {n : Option String} {last : Option ι} {b : Option ℚ}
    (h : Comes db T₀ transaction history n last b) : b = none ↔ held T₀ n = none := by
  apply Chained.iff h (p := fun b => b = none)
  intro i b
  simp [changed]

theorem comes_written (hu : UniqueNumbers T)
    (h : ∀ n, Comes db T₀ transaction history n (lastWriter history n) (held T n)) {i : ι}
    {occasion : Occasion} {a : BankAccount L} {b : Option ℚ}
    (hb : ∃ last, Comes db T₀ transaction history a.accountNumber last b)
    (hi : ¬ Wrote history i a.accountNumber)
    (ha : a.currentBalance = b.map (·+net (transaction i) a.accountNumber)) (n : Option String) :
    Comes db T₀ transaction ((i,.updateAccount occasion a) :: history) n
      (lastWriter ((i,.updateAccount occasion a) :: history) n)
      (held (serve db (.updateAccount occasion a) T).2 n) := by
  by_cases hf : occasion.fault = none
  · obtain ⟨hother,hown⟩ := held_update db hu hf a
    by_cases hn : n = a.accountNumber
    · subst hn
      obtain ⟨last,hb⟩ := hb
      have hnew : held (serve db (.updateAccount occasion a) T).2 a.accountNumber =
          changed db transaction i a.accountNumber b := by
        rcases hown with hnew | ⟨hnew,hnone⟩
        · rw [hnew,ha,Option.map_map]
          rfl
        · have hbnone : b = none := hb.none_iff.mpr ((h _).none_iff.mp hnone)
          rw [hnew,hbnone]
          rfl
      rw [hnew,lastWriter,if_pos ⟨hf,rfl⟩]
      exact Chained.write hb hi (fun j => wrote_later) ((wrote_update occasion a).mpr (.inl ⟨hf,rfl⟩))
    · rw [hother n hn,lastWriter,if_neg fun hw => hn hw.2.symm]
      exact Chained.mono (h n) fun j => wrote_later
  · rw [held_failed db hf,lastWriter,if_neg fun hw => hf hw.1]
    exact Chained.mono (h n) fun j => wrote_later

variable [DecidableEq ι]

theorem Once.step (hdiff : ∀ i, (transaction i).transactionFrom ≠ (transaction i).transactionTo)
    (h : Once db T₀ transaction history T phase) {i : ι} {op : StoreCall L} {ph : Phase (Option ℚ)}
    (hstep : WriteStep (transaction i) (phase i) op T ph) :
    Once db T₀ transaction ((i,op) :: history) (serve db op T).2 (Function.update phase i ph) := by
  -- what a step does to the table and to its own call is enough
  have hown : UniqueNumbers (serve db op T).2 →
      (∀ n, Comes db T₀ transaction ((i,op) :: history) n (lastWriter ((i,op) :: history) n)
        (held (serve db op T).2 n)) →
      Keeps db T₀ transaction ((i,op) :: history) i ph →
      Once db T₀ transaction ((i,op) :: history) (serve db op T).2 (Function.update phase i ph) := by
    intro hu hcomes hkeeps
    refine ⟨hu,hcomes,?_⟩
    intro j
    by_cases hji : j = i
    · subst hji
      rw [Function.update_self]
      exact hkeeps
    · rw [Function.update_of_ne hji]
      exact (h.keeps j).mono (fun _ _ => wrote_later) fun n => (wrote_other hji).mp
  have hlater : ∀ n last b, Comes db T₀ transaction history n last b →
      Comes db T₀ transaction ((i,op) :: history) n last b :=
    fun n last b hb => Chained.mono hb fun j => wrote_later
  have hki := h.keeps i
  generalize hi : phase i = ph₀ at hstep hki
  cases hstep with
  | @look _ occasion n =>
    have hread : ∀ m, Wrote ((i,.getAccountByNumber occasion n) :: history) i m → Wrote history i m :=
      fun m => (wrote_read (by simp)).mp
    exact hown h.unique (fun m => hlater m _ _ (h.comes m)) (hki.mono (fun _ _ => wrote_later) hread)
  | @take occasion =>
    have hread : ∀ m, Wrote ((i,.getAccountByNumber occasion (transaction i).transactionFrom) :: history)
        i m → Wrote history i m := fun m => (wrote_read (by simp)).mp
    refine hown h.unique (fun m => hlater m _ _ (h.comes m)) ?_
    exact ⟨⟨_,hlater _ _ _ (h.comes _)⟩,fun hw => hki.1 (hread _ hw),fun hw => hki.2 (hread _ hw)⟩
  | @read b occasion =>
    have hread : ∀ m, Wrote ((i,.getAccountByNumber occasion (transaction i).transactionTo) :: history)
        i m → Wrote history i m := fun m => (wrote_read (by simp)).mp
    obtain ⟨⟨last,hb⟩,hfrom,hto⟩ := hki
    refine hown h.unique (fun m => hlater m _ _ (h.comes m)) ?_
    exact ⟨⟨last,hlater _ _ _ hb⟩,⟨_,hlater _ _ _ (h.comes _)⟩,fun hw => hfrom (hread _ hw),
      fun hw => hto (hread _ hw)⟩
  | @pay b d occasion a _ hn ha =>
    obtain ⟨hb,⟨last,hd⟩,hfrom,hto⟩ := hki
    rw [← hn] at hb hfrom ha
    refine hown (h.unique.of_identities (identities_serve_update occasion a))
      (comes_written h.unique h.comes hb hfrom ha) ⟨⟨last,hlater _ _ _ hd⟩,?_⟩
    rw [wrote_update,hn]
    exact fun hw => hw.elim (fun hw => hdiff i hw.2) hto
  | @give d occasion a _ hn ha =>
    obtain ⟨hd,hto⟩ := hki
    rw [← hn] at hd hto ha
    exact hown (h.unique.of_identities (identities_serve_update occasion a))
      (comes_written h.unique h.comes hd hto ha) trivial
  | @close _ occasion t' =>
    have hread : ∀ m, Wrote ((i,.closeTransaction occasion t') :: history) i m → Wrote history i m :=
      fun m => (wrote_read (by simp)).mp
    have hheld : held (serve db (.closeTransaction occasion t') T).2 = held T := by
      simp only [serve_closeTransaction]
      exact (akin_commits_close (L := L) occasion t'.transactionFrom t'.transactionTo T).2
    refine hown (h.unique.of_identities (identities_serve_close occasion t')) ?_
      (hki.mono (fun _ _ => wrote_later) hread)
    intro m
    rw [hheld]
    exact hlater m _ _ (h.comes m)

theorem comes_from (db : Database) (T : Table) (hu : UniqueNumbers T) (env : ι → Env)
    (transaction : ι → BankTransaction L)
    (hdiff : ∀ i, (transaction i).transactionFrom ≠ (transaction i).transactionTo)
    (schedule : List ι) (n : Option String) :
    Comes db T transaction ((processing T env transaction).runs (serve db) schedule).history n
      (lastWriter ((processing T env transaction).runs (serve db) schedule).history n)
      (held ((processing T env transaction).runs (serve db) schedule).shared n) := by
  have hstart : Once db T transaction [] T fun _ => .idle := by
    refine ⟨hu,fun _ => Chained.start,fun i => ⟨?_,?_⟩⟩ <;> simp [Wrote]
  obtain ⟨phase,honce,-⟩ := runs_follow (serve db) (fun i => WriteStep (transaction i))
    (J := UniqueNumbers) (Q := fun _ _ _ => True) (I := Once db T transaction) (P := fun _ => True)
    (fun _ _ _ h => h.unique) (fun _ _ _ => trivial)
    (fun _ _ _ _ _ _ h hstep _ => h.step hdiff hstep) (processing T env transaction)
    (fun _ => .idle) hstart (fun i => call_writes (env i) (hdiff i)) schedule trivial
  exact honce.comes n

end Once

/-- In every run of transfers between different accounts, whatever fails, a balance comes from
the first one by calls that have written it, each of them once, and the last of them is the last
whose write worked: updates can be lost, but none is made twice. -/
theorem updates_once [DecidableEq ι] (db : Database) (T : Table) (hu : UniqueNumbers T)
    (env : ι → Env) (transaction : ι → BankTransaction L)
    (hdiff : ∀ i, (transaction i).transactionFrom ≠ (transaction i).transactionTo)
    (schedule : List ι) (n : Option String) :
    ∃ order : List ι, order.Nodup ∧
      (∀ i ∈ order, Wrote ((processing T env transaction).runs (serve db) schedule).history i n) ∧
      order.getLast? = lastWriter ((processing T env transaction).runs (serve db) schedule).history n ∧
      held ((processing T env transaction).runs (serve db) schedule).shared n =
        order.foldl (fun balance i => balance.map fun b => db.decimal (b+net (transaction i) n))
          (held T n) :=
  comes_from db T hu env transaction hdiff schedule n

open Sample in
/-- Both calls have read 100, so one of the two debits is lost. -/
theorem updates_once_sample : ∃ order : List Bool, order.Nodup ∧
    (∀ i ∈ order, Wrote ((processing twoRows (fun _ => env 100 fun _ => none) fun _ => thirty).runs
      (serve database) inTurn).history i (some iban₁)) ∧
    order.getLast? = lastWriter ((processing twoRows (fun _ => env 100 fun _ => none) fun _ =>
      thirty).runs (serve database) inTurn).history (some iban₁) ∧
    held ((processing twoRows (fun _ => env 100 fun _ => none) fun _ => thirty).runs
        (serve database) inTurn).shared (some iban₁) =
      order.foldl (fun balance _ => balance.map fun b => database.decimal (b+net thirty (some iban₁)))
        (held twoRows (some iban₁)) :=
  updates_once database twoRows twoRows_unique (fun _ => env 100 fun _ => none) (fun _ => thirty)
    (fun _ => thirty_ordinary.different) inTurn (some iban₁)

section Bounds

variable {db : Database} {transaction : ι → BankTransaction L}

theorem net_between (t : BankTransaction L) (n : Option String) :
    max (net t n) 0 ≤ (if t.transactionTo = n then t.transactionAmount.getD 0 else 0) ∧
      -(if t.transactionFrom = n then t.transactionAmount.getD 0 else 0) ≤ min (net t n) 0 := by
  have h0 : 0 ≤ t.transactionAmount.getD 0 := movement_nonneg t
  have hpart : ∀ m : Option String, 0 ≤ if m = n then t.transactionAmount.getD 0 else 0 := by
    intro m
    split_ifs
    · exact h0
    · exact le_rfl
  have hgain := hpart t.transactionTo
  have hloss := hpart t.transactionFrom
  exact ⟨max_le (sub_le_self _ hloss) hgain,
    le_min (neg_le_sub_iff_le_add.mpr (le_add_of_nonneg_left hgain)) (neg_nonpos.mpr hloss)⟩

theorem chain_sum (G : Grid db) (n : Option String)
    (hgrid : ∀ i, net (transaction i) n ∈ G.amounts) (order : List ι) {b : ℚ} (hb : b ∈ G.amounts) :
    after (changed db transaction) n (some b) order =
      some (b+(order.map fun i => net (transaction i) n).sum) := by
  induction order generalizing b with
  | nil => simp [after]
  | cons i order ih =>
    have hkept : db.decimal (b+net (transaction i) n) = b+net (transaction i) n :=
      G.kept _ (add_mem hb (hgrid i))
    show after (changed db transaction) n (changed db transaction i n (some b)) order = _
    rw [changed,Option.map_some,hkept,ih (add_mem hb (hgrid i)),List.map_cons,List.sum_cons,add_assoc]

/-- So a balance never strays further than all that is taken from its account and all that is
brought to it, whatever is lost. -/
theorem balance_bounded [Fintype ι] [DecidableEq ι] (G : Grid db) (T : Table) (hu : UniqueNumbers T)
    (hT : G.Holds T) (env : ι → Env) (transaction : ι → BankTransaction L)
    (hdiff : ∀ i, (transaction i).transactionFrom ≠ (transaction i).transactionTo)
    (hgrid : ∀ i, (transaction i).transactionAmount.getD 0 ∈ G.amounts) (schedule : List ι)
    (n : Option String) (b : ℚ) (hb : held T n = some b) :
    ∃ b', held ((processing T env transaction).runs (serve db) schedule).shared n = some b' ∧
      b-(∑ i, if (transaction i).transactionFrom = n then (transaction i).transactionAmount.getD 0
        else 0) ≤ b' ∧
      b' ≤ b+∑ i, if (transaction i).transactionTo = n then (transaction i).transactionAmount.getD 0
        else 0 := by
  have hnet : ∀ i, net (transaction i) n ∈ G.amounts := by
    intro i
    have hpart : ∀ m : Option String,
        (if m = n then (transaction i).transactionAmount.getD 0 else 0) ∈ G.amounts := by
      intro m
      split_ifs
      · exact hgrid i
      · exact zero_mem _
    exact sub_mem (hpart _) (hpart _)
  obtain ⟨order,hnodup,-,-,hheld⟩ := comes_from db T hu env transaction hdiff schedule n
  rw [hb,chain_sum G n hnet order (hT n b hb)] at hheld
  refine ⟨_,hheld,?_,?_⟩
  · have hlosses := losses_le_sum (fun i => net (transaction i) n) hnodup
    have hall := Finset.sum_le_sum fun i (_ : i ∈ Finset.univ) => (net_between (transaction i) n).2
    rw [Finset.sum_neg_distrib] at hall
    linarith
  · have hgains := sum_le_gains (fun i => net (transaction i) n) hnodup
    have hall := Finset.sum_le_sum fun i (_ : i ∈ Finset.univ) => (net_between (transaction i) n).1
    linarith

end Bounds

open Sample in
theorem balance_bounded_sample : ∃ b',
    held ((processing twoRows (fun _ : Bool => env 100 fun _ => none) fun _ => thirty).runs
      (serve centsDatabase) inTurn).shared (some iban₁) = some b' ∧
    100-(∑ _i : Bool, if thirty.transactionFrom = some iban₁ then thirty.transactionAmount.getD 0
      else 0) ≤ b' ∧
    b' ≤ 100+∑ _i : Bool, if thirty.transactionTo = some iban₁ then thirty.transactionAmount.getD 0
      else 0 :=
  balance_bounded centsOnly twoRows twoRows_unique twoRows_onGrid (fun _ => env 100 fun _ => none)
    (fun _ => thirty) (fun _ => thirty_ordinary.different)
    (fun _ => ⟨3000,by norm_num [thirty,transfer]⟩) inTurn (some iban₁) 100 (by decide +kernel)

end HomeRest
