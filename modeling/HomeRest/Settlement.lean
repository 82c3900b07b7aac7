import HomeRest.Accounting
import HomeRest.Reordering
import HomeRest.StorageRounding

/-! Lists of transfers, decided before the first of them.
Whether all transfers of a list are made depends on what each call meets, on the accounts
and on whether every from account covers its amounts at its turn. The last is a matter of
the first balances alone. What a list has moved can be moved back, and a transfer can be
made in parts. -/
namespace HomeRest

open Accounting

variable {L : Libs} {db : Database}

/-- Amounts that the column keeps as they are written. -/
structure Grid (db : Database) where
  amounts : AddSubgroup ℚ
  kept : ∀ x ∈ amounts, db.decimal x = x

def Grid.Holds (G : Grid db) (T : Table) : Prop := ∀ n b, held T n = some b → b ∈ G.amounts

theorem Grid.holds_of_rows {G : Grid db} {T : Table}
    (h : ∀ r ∈ T, ∀ b ∈ r.currentBalance, b ∈ G.amounts) : G.Holds T := by
  intro n b hb
  obtain ⟨r,hr,hrb⟩ := Option.bind_eq_some_iff.mp hb
  exact h r (mem_sqlGet.mp (List.mem_of_mem_head? hr)).1 b hrb

def centsGrid (db : Database) : Grid db.twoDigits where
  amounts := {
    carrier := Cents
    zero_mem' := ⟨0,by norm_num⟩
    add_mem' := by
      rintro x y ⟨m,rfl⟩ ⟨n,rfl⟩
      exact ⟨m+n,by push_cast; ring⟩
    neg_mem' := by
      rintro x ⟨m,rfl⟩
      exact ⟨-m,by push_cast; ring⟩}
  kept x hx := (HalfUp.toScale_eq_self 2).mpr hx

def balances (T : Table) (n : Option String) : ℚ := (held T n).getD 0

def movement (t : BankTransaction L) : Movement (Option String) ℚ :=
  ⟨t.transactionFrom,t.transactionTo,t.transactionAmount.getD 0⟩

def movements (calls : List (Env × BankTransaction L)) : List (Movement (Option String) ℚ) :=
  calls.map fun call => movement call.2

theorem nets_movements (calls : List (Env × BankTransaction L)) :
    Accounting.nets (movements calls) = HomeRest.nets (calls.map Prod.snd) := by
  funext n
  simp only [Accounting.nets,HomeRest.nets,movements,List.map_map]
  rfl

theorem movement_nonneg (t : BankTransaction L) : 0 ≤ (movement t).amount := by
  cases hx : t.transactionAmount with
  | none => simp [movement,hx]
  | some x => simpa [movement,hx] using t.amount_nonneg x hx

section Step

variable {env : Env} {t : BankTransaction L} {T T' : Table} {G : Grid db}

/-- A transfer is made when its accounts fit and the first of them covers the amount. -/
theorem transacted_iff (hu : UniqueNumbers T) (ho : Ordinary env t) :
    env.cleared .wrapperLock = false ∧ Transacted db env t T ↔
      Admissible env t T ∧ (movement t).amount ≤ balances T t.transactionFrom := by
  constructor
  · rintro ⟨hw,h⟩
    obtain ⟨r,s,x,b,d,hacc⟩ := h.accepted hu ho
    have hb : held T t.transactionFrom = some b := (held_single hacc.rowFrom).trans hacc.balanceFrom
    refine ⟨hacc.admissible hw,?_⟩
    simpa [movement,balances,hacc.amount,hb] using hacc.enough
  · rintro ⟨hadm,hle⟩
    obtain ⟨x,hx⟩ := hadm.amount
    obtain ⟨b,hb⟩ := hadm.fitsFrom.held
    have hxb : x ≤ b := by simpa [movement,balances,hx,hb] using hle
    obtain ⟨r,s,d,hacc⟩ := hadm.accepted hx hb hxb
    obtain ⟨result,hrun⟩ := consume_accepted db ho.sound ho.kind ho.different hacc
    exact ⟨hadm.wrapper,result,_,hrun⟩

theorem admissible_akin (hT : Akin L T T') : Admissible env t T ↔ Admissible env t T' :=
  ⟨fun h => h.akin hT,fun h => h.akin hT.symm⟩

theorem process_shifts (hu : UniqueNumbers T) (hT : G.Holds T) (ho : Ordinary env t)
    (hx : (movement t).amount ∈ G.amounts) (hw : env.cleared .wrapperLock = false)
    (h : Transacted db env t T) :
    (held (process db env t T).2 = fun n => (held T n).map fun v => v + (movement t).net n) ∧
      G.Holds (process db env t T).2 := by
  have hheld : held (process db env t T).2 = fun n => (held T n).map fun v => v + net t n := by
    apply process_net_exact _ hu ho hw h
    intro r s x b d hacc
    have hb : b ∈ G.amounts := hT _ b ((held_single hacc.rowFrom).trans hacc.balanceFrom)
    have hd : d ∈ G.amounts := hT _ d ((held_single hacc.rowTo).trans hacc.balanceTo)
    have hxG : x ∈ G.amounts := by simpa [movement,hacc.amount] using hx
    exact ⟨G.kept _ (sub_mem hb hxG),G.kept _ (add_mem hd hxG)⟩
  refine ⟨hheld,?_⟩
  intro n b hb
  rw [hheld] at hb
  obtain ⟨v,hv,rfl⟩ := Option.map_eq_some_iff.mp hb
  have hnet : net t n ∈ G.amounts := by
    have hxG : t.transactionAmount.getD 0 ∈ G.amounts := hx
    rw [net]
    apply sub_mem
    · split_ifs
      · exact hxG
      · exact zero_mem _
    · split_ifs
      · exact hxG
      · exact zero_mem _
  exact add_mem (hT n v hv) hnet

theorem balances_shifts (hadm : Admissible env t T)
    (h : held T' = fun n => (held T n).map fun v => v + (movement t).net n) :
    balances T' = balances T + (movement t).net := by
  funext n
  simp only [Pi.add_apply,balances,h]
  cases hn : held T n with
  | some v => rfl
  | none =>
    obtain ⟨b,hb⟩ := hadm.fitsFrom.held
    obtain ⟨d,hd⟩ := hadm.fitsTo.held
    have hfrom : t.transactionFrom ≠ n := fun he => by simp [← he,hb] at hn
    have hto : t.transactionTo ≠ n := fun he => by simp [← he,hd] at hn
    simp [Movement.net,movement,hfrom,hto]

theorem Fits.balance_nonneg {n : Option String} (h : Fits t n T) : 0 ≤ balances T n := by
  obtain ⟨r,hr,hacc,-,-⟩ := h
  obtain ⟨b,hb,h0⟩ := hacc.balance
  simpa [balances,held_single hr,hb] using h0

end Step

section Run

variable {T : Table} {G : Grid db}

structure OnGrid (G : Grid db) (call : Env × BankTransaction L) : Prop where
  ordinary : Ordinary call.1 call.2
  amount : (movement call.2).amount ∈ G.amounts

theorem processAll_shifts (hu : UniqueNumbers T) (hT : G.Holds T)
    (calls : List (Env × BankTransaction L)) (hcalls : ∀ call ∈ calls, OnGrid G call)
    (h : AllTransacted db calls T) :
    Akin L T (processAll db calls T) ∧
      held (processAll db calls T) =
        fun n => (held T n).map fun v => v + Accounting.nets (movements calls) n := by
  induction calls generalizing T with
  | nil =>
    refine ⟨Akin.refl T,?_⟩
    funext n
    simp [processAll,movements]
  | cons call calls ih =>
    obtain ⟨hw,hcall,hrest⟩ := h
    have hgrid : OnGrid G call := hcalls call (by simp)
    have hakin := (process_applies db hu hgrid.ordinary).1
    obtain ⟨hheld,hT'⟩ := process_shifts hu hT hgrid.ordinary hgrid.amount hw hcall
    obtain ⟨hakin',hheld'⟩ := ih (hu.of_identities hakin.identities) hT'
      (fun c hc => hcalls c (by simp [hc])) hrest
    refine ⟨hakin.trans hakin',?_⟩
    show held (processAll db calls (process db call.1 call.2 T).2) = _
    rw [hheld',hheld]
    funext n
    simp only [Option.map_map,movements,List.map_cons,nets_cons,Pi.add_apply]
    congr 1
    funext v
    exact add_assoc _ _ _

/-- All transfers of a list are made exactly when every call finds its locks and accounts, and
the first balances cover the list. -/
theorem allTransacted_iff (hu : UniqueNumbers T) (hT : G.Holds T)
    (calls : List (Env × BankTransaction L)) (hcalls : ∀ call ∈ calls, OnGrid G call) :
    AllTransacted db calls T ↔
      (∀ call ∈ calls, Admissible call.1 call.2 T) ∧ Covered (balances T) (movements calls) := by
  induction calls generalizing T with
  | nil => simp [AllTransacted,movements,Covered]
  | cons call calls ih =>
    have hgrid : OnGrid G call := hcalls call (by simp)
    have hakin : Akin L T (process db call.1 call.2 T).2 := (process_applies db hu hgrid.ordinary).1
    have hrest : ∀ hw : call.1.cleared .wrapperLock = false, Transacted db call.1 call.2 T →
        (AllTransacted db calls (process db call.1 call.2 T).2 ↔
          (∀ c ∈ calls, Admissible c.1 c.2 T) ∧
            Covered (balances T + (movement call.2).net) (movements calls)) := by
      intro hw hcall
      obtain ⟨hheld,hT'⟩ := process_shifts hu hT hgrid.ordinary hgrid.amount hw hcall
      have hadm := ((transacted_iff hu hgrid.ordinary).mp ⟨hw,hcall⟩).1
      rw [ih (hu.of_identities hakin.identities) hT' fun c hc => hcalls c (by simp [hc]),
        balances_shifts hadm hheld]
      simp only [admissible_akin hakin]
    rw [AllTransacted,← and_assoc,List.forall_mem_cons]
    constructor
    · rintro ⟨⟨hw,hcall⟩,hcs⟩
      obtain ⟨hadm,hle⟩ := (transacted_iff hu hgrid.ordinary).mp ⟨hw,hcall⟩
      obtain ⟨hadms,hcov⟩ := (hrest hw hcall).mp hcs
      exact ⟨⟨hadm,hadms⟩,hle,hcov⟩
    · rintro ⟨⟨hadm,hadms⟩,hle,hcov⟩
      have hmade : call.1.cleared .wrapperLock = false ∧ Transacted db call.1 call.2 T :=
        (transacted_iff hu hgrid.ordinary).mpr ⟨hadm,hle⟩
      exact ⟨hmade,(hrest hmade.1 hmade.2).mpr ⟨hadms,hcov⟩⟩

theorem holdings_shifts (calls calls' : List (Env × BankTransaction L)) (hu : UniqueNumbers T)
    (hT : G.Holds T) (hcalls : ∀ call ∈ calls, OnGrid G call) (hcalls' : ∀ call ∈ calls', OnGrid G call)
    (h : AllTransacted db calls T) (h' : AllTransacted db calls' T)
    (hnets : Accounting.nets (movements calls) = Accounting.nets (movements calls')) :
    holdings (processAll db calls T) = holdings (processAll db calls' T) := by
  obtain ⟨hakin,hheld⟩ := processAll_shifts hu hT calls hcalls h
  obtain ⟨hakin',hheld'⟩ := processAll_shifts hu hT calls' hcalls' h'
  apply (hakin.symm.trans hakin').holdings_eq (hu.of_identities hakin.identities)
  rw [hheld,hheld',hnets]

end Run

/-- Whether all transfers of a list are made is decided before the first: every call must find
its locks and accounts, and its from account the amount, by the balances at the start and the
amounts of the calls before. -/
theorem transfers_decided (G : Grid db) (T : Table) (hu : UniqueNumbers T) (hT : G.Holds T)
    (calls : List (Env × BankTransaction L)) (hcalls : ∀ call ∈ calls, OnGrid G call) :
    AllTransacted db calls T ↔ (∀ call ∈ calls, Admissible call.1 call.2 T) ∧
      ∀ before call after, calls = before ++ call :: after →
        call.2.transactionAmount.getD 0 ≤ balances T call.2.transactionFrom +
          nets (before.map Prod.snd) call.2.transactionFrom := by
  rw [allTransacted_iff hu hT calls hcalls,covered_iff]
  apply and_congr_right'
  constructor
  · rintro h before call after rfl
    have hturn := h (movements before) (movement call.2) (movements after) (by simp [movements])
    rwa [nets_movements] at hturn
  · intro h before m after hms
    obtain ⟨first,rest,rfl,rfl,hrest⟩ := List.map_eq_append_iff.mp hms
    obtain ⟨call,last,rfl,rfl,rfl⟩ := List.map_eq_cons_iff.mp hrest
    have hturn := h first call last rfl
    rwa [← nets_movements] at hturn

namespace Sample

def centsDatabase : Database := database.twoDigits

def centsOnly : Grid centsDatabase := centsGrid database

theorem twoRows_unique : UniqueNumbers twoRows := by decide +kernel

theorem twoRows_inCents : ∀ r ∈ twoRows, ∀ b ∈ r.currentBalance, Cents b := by
  simp only [twoRows,row,List.forall_mem_cons,Option.mem_def,Option.some.injEq,forall_eq']
  exact ⟨⟨10000,by norm_num⟩,⟨500,by norm_num⟩,by simp⟩

theorem twoRows_onGrid : centsOnly.Holds twoRows := Grid.holds_of_rows twoRows_inCents

theorem transfer_onGrid {now : Millis} {type : Int8} {thousandths : ℕ} {n m : String} (cents : ℕ)
    (hc : thousandths = 10*cents) (htype : type = 1 ∨ type = -1) (hne : n ≠ m) :
    OnGrid centsOnly (env now fun _ => none,transfer type thousandths n m) := by
  refine ⟨⟨env_sound now,?_,by simpa [transfer] using hne⟩,cents,?_⟩
  · exact htype.imp (congrArg some) (congrArg some)
  · subst hc
    simp only [movement,transfer,Option.getD_some]
    push_cast
    ring

def moved : List (Env × BankTransaction libs) :=
  [(env 100 fun _ => none,transfer 1 30000 iban₁ iban₂),
    (env 200 fun _ => none,transfer (-1) 3000 iban₂ iban₁)]

theorem moved_onGrid : ∀ call ∈ moved, OnGrid centsOnly call := by
  simp only [moved,List.forall_mem_cons]
  exact ⟨transfer_onGrid 3000 rfl (.inl rfl) (by decide),
    transfer_onGrid 300 rfl (.inr rfl) (by decide),by simp⟩

end Sample

open Sample in
theorem transfers_decided_sample :
    AllTransacted centsDatabase moved twoRows ↔
      (∀ call ∈ moved, Admissible call.1 call.2 twoRows) ∧
      ∀ before call after, moved = before ++ call :: after →
        call.2.transactionAmount.getD 0 ≤ balances twoRows call.2.transactionFrom +
          nets (before.map Prod.snd) call.2.transactionFrom :=
  transfers_decided centsOnly twoRows twoRows_unique twoRows_onGrid moved moved_onGrid

structure Reverses (call back : Env × BankTransaction L) : Prop where
  ordinary : Ordinary back.1 back.2
  wrapper : back.1.cleared .wrapperLock = false
  lock : back.1.cleared .accountsLock = false
  transactionFrom : back.2.transactionFrom = call.2.transactionTo
  transactionTo : back.2.transactionTo = call.2.transactionFrom
  amount : back.2.transactionAmount = call.2.transactionAmount
  currency : back.2.currencyUnit = call.2.currencyUnit

section Reverses

variable {call back : Env × BankTransaction L} {T : Table} {G : Grid db}

theorem Fits.of_currency {t t' : BankTransaction L} {n : Option String} (h : Fits t n T)
    (hc : t'.currencyUnit = t.currencyUnit) : Fits t' n T := by
  obtain ⟨r,hr,hacc,hn,hrc⟩ := h
  exact ⟨r,hr,hacc,hn,hrc.trans hc.symm⟩

theorem Reverses.admissible (h : Reverses call back) (hadm : Admissible call.1 call.2 T) :
    Admissible back.1 back.2 T := by
  refine ⟨h.wrapper,h.lock,?_,?_,?_⟩
  · rw [h.transactionFrom]
    exact hadm.fitsTo.of_currency h.currency
  · rw [h.transactionTo]
    exact hadm.fitsFrom.of_currency h.currency
  · rw [h.amount]
    exact hadm.amount

theorem Reverses.movement_eq (h : Reverses call back) : movement back.2 = (movement call.2).back := by
  simp [movement,Movement.back,h.transactionFrom,h.transactionTo,h.amount]

theorem movements_undo {calls backs : List (Env × BankTransaction L)}
    (h : List.Forall₂ Reverses calls backs) : movements backs.reverse = undo (movements calls) := by
  have hmap : movements backs = (movements calls).map Movement.back := by
    induction h with
    | nil => rfl
    | cons hr _ ih =>
      simp only [movements,List.map_cons] at ih ⊢
      rw [hr.movement_eq,ih]
  rw [undo,← hmap,movements,movements,List.map_reverse]

theorem Reverses.onGrid (h : Reverses call back) (hcall : OnGrid G call) : OnGrid G back := by
  refine ⟨h.ordinary,?_⟩
  rw [h.movement_eq]
  exact hcall.amount

end Reverses

/-- Transfers that were made can be undone: the transfers back, the last one first, are all
made, and every account holds what it held. -/
theorem transfers_undone (G : Grid db) (T : Table) (hu : UniqueNumbers T) (hT : G.Holds T)
    (calls : List (Env × BankTransaction L)) (hcalls : ∀ call ∈ calls, OnGrid G call)
    (h : AllTransacted db calls T) (backs : List (Env × BankTransaction L))
    (hbacks : List.Forall₂ Reverses calls backs) :
    AllTransacted db (calls ++ backs.reverse) T ∧
      holdings (processAll db (calls ++ backs.reverse) T) = holdings T := by
  obtain ⟨hadm,hcov⟩ := (allTransacted_iff hu hT calls hcalls).mp h
  have hback : ∀ back ∈ backs, ∃ call ∈ calls, Reverses call back :=
    fun back hback => forall₂_mem_right hbacks hback
  have hgrid : ∀ call ∈ calls ++ backs.reverse, OnGrid G call := by
    simp only [List.mem_append,List.mem_reverse]
    rintro call (hcall | hcall)
    · exact hcalls call hcall
    · obtain ⟨c,hc,hr⟩ := hback call hcall
      exact hr.onGrid (hcalls c hc)
  have hmoves : movements (calls ++ backs.reverse) = movements calls ++ undo (movements calls) := by
    rw [← movements_undo hbacks]
    exact List.map_append
  have hall : AllTransacted db (calls ++ backs.reverse) T := by
    rw [allTransacted_iff hu hT _ hgrid,hmoves,covered_append]
    refine ⟨?_,hcov,hcov.undo ?_⟩
    · simp only [List.mem_append,List.mem_reverse]
      rintro call (hcall | hcall)
      · exact hadm call hcall
      · obtain ⟨c,hc,hr⟩ := hback call hcall
        exact hr.admissible (hadm c hc)
    · intro m hm
      obtain ⟨call,hcall,rfl⟩ := List.mem_map.mp hm
      exact ⟨(hcalls call hcall).ordinary.different,movement_nonneg call.2,
        (hadm call hcall).fitsTo.balance_nonneg⟩
  refine ⟨hall,?_⟩
  apply holdings_shifts _ [] hu hT hgrid (by simp) hall trivial
  rw [hmoves,Accounting.nets_append,nets_undo,add_neg_cancel]
  rfl

namespace Sample

def movedBack : List (Env × BankTransaction libs) :=
  [(env 400 fun _ => none,transfer 1 30000 iban₂ iban₁),
    (env 300 fun _ => none,transfer 1 3000 iban₁ iban₂)]

theorem movedBack_reverses : List.Forall₂ Reverses moved movedBack := by
  refine .cons ⟨⟨env_sound 400,.inl rfl,by decide +kernel⟩,rfl,rfl,rfl,rfl,rfl,rfl⟩ (.cons ?_ .nil)
  exact ⟨⟨env_sound 300,.inl rfl,by decide +kernel⟩,rfl,rfl,rfl,rfl,rfl,rfl⟩

end Sample

open Sample in
theorem transfers_undone_sample :
    AllTransacted centsDatabase (moved ++ movedBack.reverse) twoRows ∧
      holdings (processAll centsDatabase (moved ++ movedBack.reverse) twoRows) = holdings twoRows :=
  transfers_undone centsOnly twoRows twoRows_unique twoRows_onGrid moved moved_onGrid
    (by decide +kernel) movedBack movedBack_reverses

structure PartOf (call part : Env × BankTransaction L) : Prop where
  ordinary : Ordinary part.1 part.2
  wrapper : part.1.cleared .wrapperLock = false
  lock : part.1.cleared .accountsLock = false
  transactionFrom : part.2.transactionFrom = call.2.transactionFrom
  transactionTo : part.2.transactionTo = call.2.transactionTo
  currency : part.2.currencyUnit = call.2.currencyUnit

section Parts

variable {call : Env × BankTransaction L} {parts : List (Env × BankTransaction L)} {xs : List ℚ}
  {T : Table} {G : Grid db}

theorem movements_parts (h : ∀ part ∈ parts, PartOf call part)
    (hxs : parts.map (fun part => part.2.transactionAmount) = xs.map some) :
    movements parts = xs.map fun x => ⟨call.2.transactionFrom,call.2.transactionTo,x⟩ := by
  induction parts generalizing xs with
  | nil =>
    rw [List.map_nil,eq_comm,List.map_eq_nil_iff] at hxs
    subst hxs
    rfl
  | cons part parts ih =>
    obtain ⟨x,ys,rfl,hx,hys⟩ := List.map_eq_cons_iff.mp hxs.symm
    have hpart := h part (by simp)
    have hamount : part.2.transactionAmount = some x := hx.symm
    have hrest := ih (fun p hp => h p (by simp [hp])) hys.symm
    simp only [movements,List.map_cons] at hrest ⊢
    rw [hrest,movement,hpart.transactionFrom,hpart.transactionTo,hamount,Option.getD_some]

theorem PartOf.admissible {part : Env × BankTransaction L} (h : PartOf call part)
    (hw : call.1.cleared .wrapperLock = false) (hl : call.1.cleared .accountsLock = false)
    {x y : ℚ} (hx : part.2.transactionAmount = some x) (hy : call.2.transactionAmount = some y) :
    Admissible part.1 part.2 T ↔ Admissible call.1 call.2 T := by
  constructor
  · intro hadm
    exact ⟨hw,hl,h.transactionFrom ▸ hadm.fitsFrom.of_currency h.currency.symm,
      h.transactionTo ▸ hadm.fitsTo.of_currency h.currency.symm,⟨y,hy⟩⟩
  · intro hadm
    exact ⟨h.wrapper,h.lock,h.transactionFrom ▸ hadm.fitsFrom.of_currency h.currency,
      h.transactionTo ▸ hadm.fitsTo.of_currency h.currency,⟨x,hx⟩⟩

theorem part_amount (hxs : parts.map (fun part => part.2.transactionAmount) = xs.map some)
    {part : Env × BankTransaction L} (h : part ∈ parts) :
    ∃ x ∈ xs, part.2.transactionAmount = some x := by
  have hmem : part.2.transactionAmount ∈ xs.map some := by
    rw [← hxs]
    exact List.mem_map_of_mem h
  obtain ⟨x,hx,he⟩ := List.mem_map.mp hmem
  exact ⟨x,hx,he.symm⟩

theorem parts_nonneg (hxs : parts.map (fun part => part.2.transactionAmount) = xs.map some) :
    ∀ x ∈ xs, 0 ≤ x := by
  intro x hx
  have hmem : some x ∈ parts.map fun part => part.2.transactionAmount := by
    rw [hxs]
    exact List.mem_map_of_mem hx
  obtain ⟨part,-,he⟩ := List.mem_map.mp hmem
  exact part.2.amount_nonneg x he

theorem parts_admissible (hne : parts ≠ []) (h : ∀ part ∈ parts, PartOf call part)
    (hw : call.1.cleared .wrapperLock = false) (hl : call.1.cleared .accountsLock = false)
    (hxs : parts.map (fun part => part.2.transactionAmount) = xs.map some) {y : ℚ}
    (hy : call.2.transactionAmount = some y) :
    (∀ part ∈ parts, Admissible part.1 part.2 T) ↔ Admissible call.1 call.2 T := by
  constructor
  · intro hadm
    obtain ⟨part,hpart⟩ := List.exists_mem_of_ne_nil parts hne
    obtain ⟨x,-,hx⟩ := part_amount hxs hpart
    exact ((h part hpart).admissible hw hl hx hy).mp (hadm part hpart)
  · intro hadm part hpart
    obtain ⟨x,-,hx⟩ := part_amount hxs hpart
    exact ((h part hpart).admissible hw hl hx hy).mpr hadm

end Parts

/-- A transfer can be made in parts: all parts are made exactly when the whole is, and the
accounts then hold the same. -/
theorem transfer_inParts (G : Grid db) (T : Table) (hu : UniqueNumbers T) (hT : G.Holds T)
    (call : Env × BankTransaction L) (hcall : Ordinary call.1 call.2)
    (hw : call.1.cleared .wrapperLock = false) (hl : call.1.cleared .accountsLock = false)
    (parts : List (Env × BankTransaction L)) (hne : parts ≠ [])
    (hparts : ∀ part ∈ parts, PartOf call part) (xs : List ℚ) (hgrid : ∀ x ∈ xs, x ∈ G.amounts)
    (hxs : parts.map (fun part => part.2.transactionAmount) = xs.map some)
    (hsum : call.2.transactionAmount = some xs.sum) :
    (AllTransacted db parts T ↔ AllTransacted db [call] T) ∧
      (AllTransacted db [call] T →
        holdings (processAll db parts T) = holdings (processAll db [call] T)) := by
  have hmoves := movements_parts hparts hxs
  have hwhole : movements [call] =
      [⟨call.2.transactionFrom,call.2.transactionTo,xs.sum⟩] := by
    simp [movements,movement,hsum]
  have hcallGrid : ∀ c ∈ [call], OnGrid G c := by
    have hamount : (movement call.2).amount ∈ G.amounts := by
      simpa [movement,hsum] using list_sum_mem hgrid
    exact List.forall_mem_singleton.mpr ⟨hcall,hamount⟩
  have hpartsGrid : ∀ part ∈ parts, OnGrid G part := by
    intro part hpart
    obtain ⟨x,hx,he⟩ := part_amount hxs hpart
    refine ⟨(hparts part hpart).ordinary,?_⟩
    simpa [movement,he] using hgrid x hx
  have hxsne : xs ≠ [] := by
    rintro rfl
    exact hne (by simpa using hxs)
  have hiff : AllTransacted db parts T ↔ AllTransacted db [call] T := by
    rw [allTransacted_iff hu hT parts hpartsGrid,allTransacted_iff hu hT [call] hcallGrid,
      parts_admissible hne hparts hw hl hxs hsum,hmoves,hwhole,
      covered_parts hcall.different (parts_nonneg hxs) hxsne,covered_singleton,
      List.forall_mem_singleton]
  refine ⟨hiff,fun h => ?_⟩
  apply holdings_shifts parts [call] hu hT hpartsGrid hcallGrid (hiff.mpr h) h
  rw [hmoves,nets_parts,hwhole,nets_cons,nets_nil,add_zero]

namespace Sample

def whole : Env × BankTransaction libs := (env 100 fun _ => none,transfer 1 30000 iban₁ iban₂)

def inTwo : List (Env × BankTransaction libs) :=
  [(env 200 fun _ => none,transfer 1 10000 iban₁ iban₂),
    (env 300 fun _ => none,transfer (-1) 20000 iban₁ iban₂)]

theorem inTwo_parts : ∀ part ∈ inTwo, PartOf whole part := by
  simp only [inTwo,List.forall_mem_cons]
  exact ⟨⟨⟨env_sound 200,.inl rfl,by decide +kernel⟩,rfl,rfl,rfl,rfl,rfl⟩,
    ⟨⟨env_sound 300,.inr rfl,by decide +kernel⟩,rfl,rfl,rfl,rfl,rfl⟩,by simp⟩

end Sample

open Sample in
theorem transfer_inParts_sample :
    (AllTransacted centsDatabase inTwo twoRows ↔ AllTransacted centsDatabase [whole] twoRows) ∧
      (AllTransacted centsDatabase [whole] twoRows →
        holdings (processAll centsDatabase inTwo twoRows) =
          holdings (processAll centsDatabase [whole] twoRows)) := by
  apply transfer_inParts centsOnly twoRows twoRows_unique twoRows_onGrid whole
    ⟨env_sound 100,.inl rfl,by decide +kernel⟩ rfl rfl inTwo (by simp [inTwo]) inTwo_parts [10,20]
  · simp only [List.forall_mem_cons]
    exact ⟨⟨1000,by norm_num⟩,⟨2000,by norm_num⟩,by simp⟩
  · norm_num [inTwo,transfer]
  · norm_num [whole,transfer]

end HomeRest
