import HomeRest.NonNegative
import HomeRest.Ledger

/-! Which accounts a listing shows.
The set that collects the rows decides membership by the time stamps, so a listing is
complete as long as every write of a run stamps its rows apart from all others. -/
namespace HomeRest

open AtomicProgram

variable {L : Libs}

/-- Every row has a time stamp, and no two have the same. -/
def Apart (T : Table) : Prop := (T.map Row.dateUpdated).Nodup ∧ none ∉ T.map Row.dateUpdated

instance : DecidablePred Apart := fun _ => inferInstanceAs (Decidable (_ ∧ _))

def ListsAll (answer : Except Throwable (List (BankAccount L))) (T : Table) : Prop :=
  ∃ accounts list, answer = .ok accounts ∧
    List.Forall₂ (fun r a => ∃ now, Carries now r a) T list ∧ accounts.Perm list

section Listing

variable {T : Table} (clock : ℕ → Millis)

theorem hydrate_all {k : ℕ} (h : ∀ r ∈ T, r.Acceptable L) :
    ∃ list : List (BankAccount L),
      (T.zipIdx k).mapM (fun aa => hydrate (clock aa.2) aa.1) = .ok list ∧
      List.Forall₂ (fun r a => ∃ now, Carries now r a) T list ∧
      list.map BankAccount.updateAt =
        (T.zipIdx k).map fun aa => aa.1.dateUpdated.getD (clock aa.2) := by
  induction T generalizing k with
  | nil => exact ⟨[],rfl,.nil,rfl⟩
  | cons r T ih =>
    obtain ⟨a,ha⟩ := hydrate_acceptable (h r (by simp)) (clock k)
    obtain ⟨list,hl,hcarry,hstamps⟩ := ih (k := k+1) fun r hr => h r (by simp [hr])
    have hc := (hydrate_ok ha).2
    refine ⟨a :: list,?_,.cons ⟨_,hc⟩ hcarry,?_⟩
    · simp [List.zipIdx_cons,List.mapM_cons,ha,hl,bind,Except.bind,pure,Except.pure]
    · simp only [List.zipIdx_cons,List.map_cons,hc.updateAt,hstamps]

/-- A listing is complete exactly when the rows that it reads have different stamps. -/
theorem getAllAccounts_listsAll {o : AccountListing} (ho : o.Works) (h : ∀ r ∈ T, r.Acceptable L) :
    ListsAll (getAllAccounts o T : Except Throwable (List (BankAccount L))) T ↔
      (T.zipIdx.map fun aa => aa.1.dateUpdated.getD (o.clock aa.2)).Nodup := by
  obtain ⟨list,hl,hcarry,hstamps⟩ := hydrate_all (L := L) o.clock (k := 0) h
  rw [getAllAccounts_works ho hl,← hstamps,← SkipListSet.addAll_perm_iff]
  constructor
  · rintro ⟨accounts,list',hanswer,hcarry',hperm⟩
    cases hanswer
    rw [SkipListSet.addAll_perm_iff]
    by_contra hn
    have hn' : ¬ (([] ++ list).map BankAccount.updateAt).Nodup := by simpa using hn
    have hlt := SkipListSet.addAll_length_lt (by simp) hn'
    have hlen := hperm.length_eq
    have h₁ := hcarry.length_eq
    have h₂ := hcarry'.length_eq
    simp only [List.length_nil] at hlt
    omega
  · intro hperm
    exact ⟨_,list,rfl,hcarry,hperm⟩

theorem Apart.listsAll {o : AccountListing} (ho : o.Works) (hT : Apart T)
    (h : ∀ r ∈ T, r.Acceptable L) :
    ListsAll (getAllAccounts o T : Except Throwable (List (BankAccount L))) T := by
  rw [getAllAccounts_listsAll ho h]
  have hstamp : (T.zipIdx.map fun aa => aa.1.dateUpdated.getD (o.clock aa.2)).map some =
      T.map Row.dateUpdated := by
    have hfst : T.map Row.dateUpdated = T.zipIdx.map fun aa => aa.1.dateUpdated := by
      conv_lhs => rw [← List.zipIdx_map_fst 0 T]
      rw [List.map_map]
      rfl
    rw [hfst,List.map_map]
    apply List.map_congr_left
    intro aa haa
    have hmem : aa.1 ∈ T := List.fst_mem_of_mem_zipIdx haa
    cases hd : aa.1.dateUpdated with
    | none => exact absurd (List.mem_map.mpr ⟨aa.1,hmem,hd⟩) hT.2
    | some d => simp [hd]
  exact List.Nodup.of_map some (by rw [hstamp]; exact hT.1)

end Listing

section Steps

/-- Rows that a write stamps with one reading: there is one at most, and no other row has
that stamp. -/
def StampsApart (p : Row → Bool) (d : Millis) (T : Table) : Prop :=
  (T.filter p).length ≤ 1 ∧ (T.filter p ≠ [] → ∀ r ∈ T, p r = false → r.dateUpdated ≠ some d)

instance (p : Row → Bool) (d : Millis) (T : Table) : Decidable (StampsApart p d T) :=
  inferInstanceAs (Decidable (_ ∧ (_ → _)))

theorem nodup_stamp {p : Row → Bool} {d : Millis} {T : Table} (h : (T.map Row.dateUpdated).Nodup) :
    (T.map fun r => if p r then some d else r.dateUpdated).Nodup ↔ StampsApart p d T := by
  induction T with
  | nil => simp [StampsApart]
  | cons r T ih =>
    obtain ⟨hr,hT⟩ := List.nodup_cons.mp h
    have hne : ∀ q ∈ T, q.dateUpdated ≠ r.dateUpdated := fun q hq he =>
      hr (List.mem_map.mpr ⟨q,hq,he⟩)
    rw [List.map_cons,List.nodup_cons,ih hT]
    simp only [StampsApart,List.filter_cons,List.mem_map,not_exists,not_and]
    by_cases hp : p r = true
    · simp only [hp,ite_true,List.length_cons]
      constructor
      · rintro ⟨hnew,-⟩
        have hnone : T.filter p = [] := by
          apply List.filter_eq_nil_iff.mpr
          intro q hq hpq
          exact hnew q hq (by rw [if_pos hpq])
        refine ⟨by simp [hnone],fun _ q hq hpq => ?_⟩
        rcases List.mem_cons.mp hq with rfl | hq
        · simp [hp] at hpq
        · intro hd
          exact hnew q hq (by simp [hpq,hd])
      · rintro ⟨hlen,hdiff⟩
        have hnone : T.filter p = [] := List.eq_nil_of_length_eq_zero (by omega)
        have hpq : ∀ q ∈ T, p q = false := fun q hq => by
          simpa using List.filter_eq_nil_iff.mp hnone q hq
        refine ⟨fun q hq hd => ?_,by simp [hnone],fun hsome => absurd hnone hsome⟩
        rw [hpq q hq] at hd
        exact hdiff (by simp) q (by simp [hq]) (hpq q hq) hd
    · have hp' : p r = false := by simpa using hp
      simp only [hp',Bool.false_eq_true,ite_false,List.forall_mem_cons,true_imp_iff]
      constructor
      · rintro ⟨hnew,hlen,hdiff⟩
        refine ⟨hlen,fun hsome => ⟨fun hd => ?_,hdiff hsome⟩⟩
        obtain ⟨q,hq⟩ := List.exists_mem_of_ne_nil _ hsome
        obtain ⟨hqT,hpq⟩ := List.mem_filter.mp hq
        exact hnew q hqT (by rw [if_pos hpq,hd])
      · rintro ⟨hlen,hdiff⟩
        refine ⟨fun q hq hd => ?_,hlen,fun hsome => (hdiff hsome).2⟩
        by_cases hpq : p q = true
        · rw [if_pos hpq] at hd
          exact (hdiff (List.ne_nil_of_mem (List.mem_filter.mpr ⟨hq,hpq⟩))).1 hd.symm
        · rw [if_neg hpq] at hd
          exact hne q hq hd

variable {db : Database} {T : Table}

def StepApart (db : Database) (T : Table) : StoreCall L → Prop
  | .getAccountByNumber _ _ => True
  | .updateAccount occasion a => occasion.fault = none →
    StampsApart (fun r => sqlEq r.accountNumber a.accountNumber) a.updateAt T
  | .putAccount occasion a => occasion.fault = none → db.accepts (savedRow db occasion a) T = true →
    some a.updateAt ∉ T.map Row.dateUpdated
  | .closeTransaction occasion t => occasion.fault = none →
    StampsApart (fun r => sqlEq r.accountNumber t.transactionFrom ||
      sqlEq r.accountNumber t.transactionTo) occasion.now T

instance (db : Database) (T : Table) : DecidablePred (StepApart (L := L) db T)
  | .getAccountByNumber _ _ => isTrue trivial
  | .updateAccount _ _ => inferInstanceAs (Decidable (_ → _))
  | .putAccount _ _ => inferInstanceAs (Decidable (_ → _ → _))
  | .closeTransaction _ _ => inferInstanceAs (Decidable (_ → _))

theorem apart_stamp {p : Row → Bool} {d : Millis} {f : Row → Row} (hT : Apart T)
    (hf : ∀ r, (f r).dateUpdated = if p r then some d else r.dateUpdated) :
    Apart (T.map f) ↔ StampsApart p d T := by
  have hmap : (T.map f).map Row.dateUpdated = T.map fun r => if p r then some d else r.dateUpdated := by
    rw [List.map_map]
    exact List.map_congr_left fun r _ => hf r
  have hsome : none ∉ T.map fun r => if p r then some d else r.dateUpdated := by
    intro hmem
    obtain ⟨r,hr,hnone⟩ := List.mem_map.mp hmem
    split_ifs at hnone
    exact hT.2 (List.mem_map.mpr ⟨r,hr,hnone⟩)
  rw [Apart,hmap,nodup_stamp hT.1]
  exact and_iff_left hsome

/-- One step keeps the rows apart exactly when it stamps apart. -/
theorem apart_step (hT : Apart T) (op : StoreCall L) :
    Apart (serve db op T).2 ↔ StepApart db T op := by
  cases op with
  | getAccountByNumber occasion n => exact iff_of_true hT trivial
  | updateAccount occasion a =>
    rw [serve_updateAccount]
    by_cases hf : occasion.fault = none
    · simp only [Occasion.commits_none hf,StepApart,hf,true_imp_iff]
      apply apart_stamp hT
      intro r
      split_ifs <;> rfl
    · simpa [Occasion.commits,StepApart,hf] using hT
  | putAccount occasion a =>
    rw [serve_putAccount]
    by_cases hput : occasion.fault = none ∧ db.accepts (savedRow db occasion a) T = true
    · have hnew : (savedRow db occasion a).dateUpdated = some a.updateAt := rfl
      have hperm : (T.map Row.dateUpdated ++ [some a.updateAt]).Perm
          (some a.updateAt :: T.map Row.dateUpdated) := List.perm_append_singleton _ _
      rw [if_pos hput,Apart,List.map_append,List.map_singleton,hnew,hperm.nodup_iff,hperm.mem_iff,
        List.nodup_cons]
      constructor
      · rintro ⟨⟨hfresh,-⟩,-⟩ - -
        exact hfresh
      · intro hfresh
        exact ⟨⟨hfresh hput.1 hput.2,hT.1⟩,by simpa using hT.2⟩
    · rw [if_neg hput]
      exact iff_of_true hT fun hf hacc => absurd ⟨hf,hacc⟩ hput
  | closeTransaction occasion t =>
    rw [serve_closeTransaction]
    by_cases hf : occasion.fault = none
    · simp only [Occasion.commits_none hf,StepApart,hf,true_imp_iff]
      apply apart_stamp hT
      intro r
      split_ifs <;> rfl
    · simpa [Occasion.commits,StepApart,hf] using hT

end Steps

section Run

variable {ι : Type} [DecidableEq ι] (db : Database)

def StepsApart : Calls L ι → List ι → Prop
  | _, [] => True
  | c, i :: schedule => (∀ op ∈ (c.thread i).nextOp, StepApart db c.shared op) ∧
    StepsApart (c.step (serve db) i) schedule

instance decidableStepsApart : (c : Calls L ι) → (schedule : List ι) →
    Decidable (StepsApart db c schedule)
  | _, [] => isTrue trivial
  | c, i :: schedule =>
    have := decidableStepsApart (c.step (serve db) i) schedule
    inferInstanceAs (Decidable (_ ∧ _))

theorem apart_runs (c : Calls L ι) (hc : Apart c.shared) (schedule : List ι)
    (h : StepsApart db c schedule) : Apart (c.runs (serve db) schedule).shared := by
  induction schedule generalizing c with
  | nil => exact hc
  | cons i schedule ih =>
    obtain ⟨hstep,hrest⟩ := h
    rw [Config.runs_cons]
    apply ih _ _ hrest
    rcases Config.step_cases (serve db) c i with ⟨op,next,hthread,hs⟩ | hs
    · rw [hs]
      exact (apart_step hc op).mpr (hstep op (by rw [hthread]; rfl))
    · rw [hs]
      exact hc

/-- In a run whose steps stamp apart, every listing shows every account. -/
theorem getAllAccounts_complete (T : Table) (hT : Apart T) (calls : ι → Call L) (schedule : List ι)
    (hsteps : StepsApart db (startCalls T calls) schedule) {o : AccountListing} (ho : o.Works)
    (hquery : ∀ r ∈ ((startCalls T calls).runs (serve db) schedule).shared, r.Acceptable L) :
    ListsAll (getAllAccounts o ((startCalls T calls).runs (serve db) schedule).shared :
      Except Throwable (List (BankAccount L))) ((startCalls T calls).runs (serve db) schedule).shared :=
  (apart_runs db _ hT schedule hsteps).listsAll ho hquery

end Run

namespace Sample

def listed (clock : Millis) : AccountListing := ⟨fun _ => clock,none,none,none,none,none⟩

def early (put : Bool) : Call libs :=
  if put then .putAccount ⟨none,300,3⟩ (account 3 iban₃ 7 (by decide))
  else .processTransaction (env 100 fun _ => none) (transfer 1 30000 iban₁ iban₃)

instance (r : Row) : Decidable (r.Acceptable libs) :=
  decidable_of_iff ((∃ b ∈ r.currentBalance, 0 ≤ b) ∧ (∃ n ∈ r.accountNumber, libs.validIban n = true) ∧
    ∃ c ∈ r.currencyUnit, libs.currencyCode c = some c)
    ⟨fun h => ⟨h.1,h.2.1,h.2.2⟩,fun h => ⟨h.balance,h.number,h.currency⟩⟩

end Sample

open Sample in
theorem getAllAccounts_complete_sample :
    ListsAll (getAllAccounts (listed 0) ((startCalls twoRows early).runs (serve database)
      [false,false,false,true]).shared : Except Throwable (List (BankAccount libs)))
      ((startCalls twoRows early).runs (serve database) [false,false,false,true]).shared :=
  getAllAccounts_complete database twoRows (by decide +kernel) early [false,false,false,true]
    (by decide +kernel) (by decide) (by decide +kernel)

open Sample in
/-- A transfer stamps both of its accounts with one reading of the clock: one is lost. -/
theorem getAllAccounts_loses :
    UniqueNumbers twoRows ∧
    (∀ r ∈ (process database (env 100 fun _ => none) (transfer 1 30000 iban₁ iban₂)
      twoRows).2, r.Acceptable libs) ∧
    ¬ ListsAll (getAllAccounts (listed 0) (process database (env 100 fun _ => none)
      (transfer 1 30000 iban₁ iban₂) twoRows).2 : Except Throwable (List (BankAccount libs)))
      (process database (env 100 fun _ => none) (transfer 1 30000 iban₁ iban₂) twoRows).2 := by
  refine ⟨by decide +kernel,by decide +kernel,?_⟩
  have hlost : ∀ accounts, (getAllAccounts (listed 0) (process database (env 100 fun _ => none)
      (transfer 1 30000 iban₁ iban₂) twoRows).2 : Except Throwable (List (BankAccount libs))) =
        .ok accounts → accounts.length = 1 := by
    rintro accounts h
    have hlength : (getAllAccounts (listed 0) (process database (env 100 fun _ => none)
        (transfer 1 30000 iban₁ iban₂) twoRows).2 : Except Throwable (List (BankAccount libs))).map
          List.length = .ok 1 := by decide +kernel
    rw [h] at hlength
    exact Except.ok.inj hlength
  rintro ⟨accounts,list,hanswer,hcarry,hperm⟩
  have h₁ := hcarry.length_eq
  have h₂ := hperm.length_eq
  have htwo : (process database (env 100 fun _ => none) (transfer 1 30000 iban₁ iban₂)
      twoRows).2.length = 2 := by decide +kernel
  have h₃ := hlost accounts hanswer
  omega

end HomeRest
