import HomeRest.CallSteps
import HomeRest.Schema

/-! Calls that share no account.
Every step of a call looks for, writes or inserts rows under its own numbers. Calls on
different numbers therefore do not influence each other at all, whatever the schedule and
whichever steps fail; accounts that no call names keep every column. -/
namespace HomeRest

open AtomicProgram

variable {L : Libs} {ι : Type}

/-- The rows of a group of numbers. -/
def part (p : Option String → Bool) (T : Table) : Table := T.filter fun r => p r.accountNumber

/-- The numbers of the rows that a step looks for, writes or inserts. -/
def StoreCall.Addresses : StoreCall L → Option String → Prop
  | .getAccountByNumber _ n, m => sqlEq m n = true
  | .updateAccount _ a, m => sqlEq m a.accountNumber = true
  | .putAccount _ a, m => m = a.accountNumber
  | .closeTransaction _ t, m => Touches t m

def StoreCall.Inserts (db : Database) : StoreCall L → Row → Prop
  | .putAccount occasion a, row => row = savedRow db occasion a
  | _, _ => False

def Call.Names : Call L → Option String → Prop
  | .processTransaction _ t, m => Touches t m
  | .putAccount _ a, m => m = a.accountNumber

def Call.Inserts (db : Database) : Call L → Row → Prop
  | .processTransaction _ _, _ => False
  | .putAccount occasion a, row => row = savedRow db occasion a

def Call.Draws : Call L → UUID → Prop
  | .processTransaction _ _, _ => False
  | .putAccount occasion _, id => id = occasion.randomId

def Outside (p : Option String → Bool) (ids : UUID → Prop) (T : Table) : Prop :=
  ∀ r ∈ T, p r.accountNumber = false → ids r.accountId

/-- Whether the row is let in depends on the rows of the group only, as long as the others have
these ids. -/
def Database.LocalTo (db : Database) (p : Option String → Bool) (ids : UUID → Prop) (row : Row) :
    Prop :=
  ∀ T, Outside p ids T → db.accepts row (part p T) = db.accepts row T

/-- Whether a row is let in depends on the rows with its number or its id only. -/
def Database.Keyed (db : Database) : Prop :=
  ∀ row T, db.accepts row (T.filter fun r => r.accountNumber == row.accountNumber ||
    r.accountId == row.accountId) = db.accepts row T

section Keys

theorem all_filter_of {α : Type} {keep f : α → Bool} (h : ∀ x, f x = false → keep x = true)
    (xs : List α) : (xs.filter keep).all f = xs.all f := by
  rw [List.all_filter]
  congr 1
  funext x
  cases hf : f x with
  | true => simp
  | false => simp [h x hf]

theorem Database.Keyed.localTo {db : Database} (h : db.Keyed) {p : Option String → Bool}
    {ids : UUID → Prop} {row : Row} (hp : p row.accountNumber = true) (hid : ¬ ids row.accountId) :
    db.LocalTo p ids row := by
  intro T hT
  rw [← h row (part p T),← h row T,part,List.filter_filter]
  congr 1
  apply List.filter_congr
  intro r hr
  cases hpr : p r.accountNumber with
  | true => simp
  | false =>
    have hn : r.accountNumber ≠ row.accountNumber := by
      intro hn
      simp [hn,hp] at hpr
    have hi : r.accountId ≠ row.accountId := by
      intro hi
      exact hid (hi ▸ hT r hr hpr)
    simp [hn,hi]

theorem Mapping.generate_keyed {m : Mapping} (hid : m.id = .accountId)
    (h : ∀ property ∈ m.properties, property.unique = true → property.column = .accountNumber)
    (db : Database) : (m.generate db).Keyed := by
  intro row T
  have hcolumn : ∀ column, column = .accountId ∨ column = .accountNumber →
      (T.filter fun r => r.accountNumber == row.accountNumber || r.accountId == row.accountId).all
        (fun r => !r.sameIn column row) = T.all fun r => !r.sameIn column row := by
    intro column hc
    apply all_filter_of
    intro r hr
    simp only [Bool.not_eq_false'] at hr
    rcases hc with rfl | rfl
    · simp [show r.accountId = row.accountId by simpa [Row.sameIn] using hr]
    · obtain ⟨k,hk,hrow⟩ := sqlEq_iff.mp (show sqlEq r.accountNumber row.accountNumber = true from hr)
      simp [hk,hrow]
  simp only [Mapping.generate,Mapping.accepts]
  rw [hcolumn m.id (.inl hid)]
  congr 1
  rw [Bool.eq_iff_iff,List.all_eq_true,List.all_eq_true]
  apply forall₂_congr
  intro property hproperty
  cases hu : property.unique with
  | false => rfl
  | true => rw [hcolumn property.column (.inr (h property hproperty hu))]

theorem accountMapping_keyed (db : Database) : (accountMapping.generate db).Keyed :=
  Mapping.generate_keyed rfl (by decide) db

end Keys

section Part

variable {p : Option String → Bool} {ids : UUID → Prop} {T : Table} {db : Database}

theorem part_map {f : Row → Row} (hf : ∀ r, (f r).accountNumber = r.accountNumber) (T : Table) :
    part p (T.map f) = (part p T).map f := by
  have hcomp : ((fun r : Row => p r.accountNumber) ∘ f) = fun r => p r.accountNumber := by
    funext r
    simp only [Function.comp_apply,hf]
  rw [part,List.filter_map,hcomp]
  rfl

theorem part_map_other {f : Row → Row} (hf : ∀ r, (f r).accountNumber = r.accountNumber)
    (h : ∀ r, p r.accountNumber = true → f r = r) (T : Table) : part p (T.map f) = part p T := by
  have hrow : ∀ r ∈ part p T, f r = r := fun r hr => h r (by simpa using (List.mem_filter.mp hr).2)
  rw [part_map hf,List.map_congr_left hrow,List.map_id']

theorem part_part {q : Option String → Bool} (h : ∀ m, q m = true → p m = true) (T : Table) :
    part q (part p T) = part q T := by
  rw [part,part,part,List.filter_filter]
  apply List.filter_congr
  intro r _
  cases hq : q r.accountNumber with
  | false => rfl
  | true => simp [h _ hq]

theorem sqlGet_part {n : Option String} (h : ∀ m, sqlEq m n = true → p m = true) (T : Table) :
    sqlGetAccountsByNumber n (part p T) = sqlGetAccountsByNumber n T :=
  part_part (q := fun m => sqlEq m n) h T

theorem part_append (T : Table) (row : Row) :
    part p (T ++ [row]) = if p row.accountNumber then part p T ++ [row] else part p T := by
  by_cases hp : p row.accountNumber = true <;> simp [part,hp]

theorem part_commits {occasion : Occasion} {write : Table → Table} {T' : Table}
    (h : part p (write T) = T') :
    part p (occasion.commits write T) = if occasion.fault = none then T' else part p T := by
  simp only [Occasion.commits]
  split_ifs
  · exact h
  · rfl

theorem part_update_other {a : BankAccount L} (h : ∀ m, sqlEq m a.accountNumber = true → p m = false)
    (T : Table) : part p (sqlUpdateAccountsByNumber db a T) = part p T := by
  apply part_map_other
  · intro r
    split_ifs <;> rfl
  · intro r hr
    rw [if_neg]
    intro hn
    simp [h _ hn] at hr

theorem part_close_other {t : BankTransaction L} {d : Millis} (h : ∀ m, Touches t m → p m = false)
    (T : Table) : part p (sqlUpdateAccountsInTransaction t.transactionFrom t.transactionTo d T) =
      part p T := by
  apply part_map_other
  · intro r
    split_ifs <;> rfl
  · intro r hr
    rw [if_neg]
    intro hn
    simp [h _ (by simpa [Touches] using hn)] at hr

theorem part_keeps (op : StoreCall L) (T : Table) (h : ∀ m, op.Addresses m → p m = false) :
    part p (serve db op T).2 = part p T := by
  cases op with
  | getAccountByNumber occasion n => rfl
  | updateAccount occasion a =>
    rw [serve_updateAccount,part_commits (part_update_other h T),ite_self]
  | putAccount occasion a =>
    rw [serve_putAccount]
    split_ifs
    · rw [part_append,if_neg]
      simpa [savedRow] using h a.accountNumber rfl
    · rfl
  | closeTransaction occasion t =>
    rw [serve_closeTransaction,part_commits (part_close_other h T),ite_self]

/-- Steps of the group act on its rows, and see no others. -/
theorem part_acts (hT : Outside p ids T) (op : StoreCall L) (h : ∀ m, op.Addresses m → p m = true)
    (hlocal : ∀ row, op.Inserts db row → db.LocalTo p ids row) :
    (serve db op T).1 = (serve db op (part p T)).1 ∧
      part p (serve db op T).2 = (serve db op (part p T)).2 := by
  cases op with
  | getAccountByNumber occasion n =>
    have hget : (getAccountByNumber occasion n T : Except Throwable (Option (BankAccount L))) =
        getAccountByNumber occasion n (part p T) := by
      simp only [getAccountByNumber,sqlGet_part h T]
    exact ⟨hget,rfl⟩
  | updateAccount occasion a =>
    have hset : part p (sqlUpdateAccountsByNumber db a T) = sqlUpdateAccountsByNumber db a (part p T) := by
      apply part_map
      intro r
      split_ifs <;> rfl
    rw [serve_updateAccount,serve_updateAccount,part_commits hset]
    exact ⟨rfl,rfl⟩
  | putAccount occasion a =>
    have hp : p (savedRow db occasion a).accountNumber = true := h a.accountNumber rfl
    have hmeets : occasion.inserting db (savedRow db occasion a) (part p T) =
        occasion.inserting db (savedRow db occasion a) T := by
      simp only [Occasion.inserting,hlocal _ rfl T hT]
    have happend : part p (T ++ [savedRow db occasion a]) = part p T ++ [savedRow db occasion a] := by
      rw [part_append,if_pos hp]
    simp only [serve,putAccount_eq,hmeets]
    exact ⟨rfl,part_commits happend⟩
  | closeTransaction occasion t =>
    have hset : part p (sqlUpdateAccountsInTransaction t.transactionFrom t.transactionTo occasion.now T) =
        sqlUpdateAccountsInTransaction t.transactionFrom t.transactionTo occasion.now (part p T) := by
      apply part_map
      intro r
      split_ifs <;> rfl
    rw [serve_closeTransaction,serve_closeTransaction,part_commits hset]
    exact ⟨rfl,rfl⟩

theorem outside_map {f : Row → Row} (hf : ∀ r, (f r).accountNumber = r.accountNumber)
    (hid : ∀ r, (f r).accountId = r.accountId) (h : Outside p ids T) : Outside p ids (T.map f) := by
  intro r hr hout
  obtain ⟨q,hq,rfl⟩ := List.mem_map.mp hr
  rw [hid]
  exact h q hq (by rwa [hf] at hout)

theorem outside_serve (h : Outside p ids T) (op : StoreCall L)
    (hrow : ∀ row, op.Inserts db row → p row.accountNumber = true ∨ ids row.accountId) :
    Outside p ids (serve db op T).2 := by
  cases op with
  | getAccountByNumber occasion n => exact h
  | updateAccount occasion a =>
    simp only [serve_updateAccount,Occasion.commits]
    split_ifs
    · apply outside_map _ _ h <;> (intro r; split_ifs <;> rfl)
    · exact h
  | putAccount occasion a =>
    rw [serve_putAccount]
    split_ifs
    · intro r hr hout
      rcases List.mem_append.mp hr with hr | hr
      · exact h r hr hout
      · rw [List.mem_singleton] at hr
        subst hr
        exact (hrow _ rfl).resolve_left (by simp [hout])
    · exact h
  | closeTransaction occasion t =>
    simp only [serve_closeTransaction,Occasion.commits]
    split_ifs
    · apply outside_map _ _ h <;> (intro r; split_ifs <;> rfl)
    · exact h

theorem StoreCall.Inserts.addresses {op : StoreCall L} {row : Row} (h : op.Inserts db row) :
    op.Addresses row.accountNumber := by
  cases op with
  | putAccount occasion a =>
    cases h
    exact rfl
  | getAccountByNumber occasion n => exact h.elim
  | updateAccount occasion a => exact h.elim
  | closeTransaction occasion t => exact h.elim

def StoreCall.Within (db : Database) (p : Option String → Bool) (ids : UUID → Prop)
    (op : StoreCall L) : Prop :=
  (∀ m, op.Addresses m → p m = true) ∧ ∀ row, op.Inserts db row → db.LocalTo p ids row

def StoreCall.Without (db : Database) (p : Option String → Bool) (ids : UUID → Prop)
    (op : StoreCall L) : Prop :=
  (∀ m, op.Addresses m → p m = false) ∧ ∀ row, op.Inserts db row → ids row.accountId

theorem part_view (db : Database) (p : Option String → Bool) (ids : UUID → Prop) :
    View (serve (L := L) db) (serve db) (part p) (Outside p ids) (StoreCall.Within db p ids)
      (StoreCall.Without db p ids) where
  answers op _ hT hop := (part_acts hT op hop.1 hop.2).1
  moves op _ hT hop := (part_acts hT op hop.1 hop.2).2
  keeps op T _ hop := part_keeps op T hop.1
  invOwn op _ hT hop := outside_serve hT op fun _ hrow => .inl (hop.1 _ hrow.addresses)
  invOther op _ hT hop := outside_serve hT op fun row hrow => .inr (hop.2 row hrow)

end Part

section Names

variable {db : Database}

theorem orderly_addresses {t : BankTransaction L} {op : StoreCall L} (h : Orderly t op)
    {m : Option String} (hm : op.Addresses m) : Touches t m := by
  cases op with
  | getAccountByNumber occasion n =>
    rcases h with rfl | rfl
    · exact .inl hm
    · exact .inr hm
  | updateAccount occasion a =>
    have hm' : sqlEq m a.accountNumber = true := hm
    rcases h.2 with ⟨hn,-⟩ | ⟨hn,-⟩
    · exact .inl (hn ▸ hm')
    · exact .inr (hn ▸ hm')
  | putAccount occasion a => exact h.elim
  | closeTransaction occasion t' =>
    cases h
    exact hm

theorem Orderly.inserts_not {t : BankTransaction L} {op : StoreCall L} (h : Orderly t op) {row : Row} :
    ¬ op.Inserts db row := by
  cases op with
  | putAccount occasion a => exact h.elim
  | getAccountByNumber occasion n => exact id
  | updateAccount occasion a => exact id
  | closeTransaction occasion t' => exact id

/-- A call keeps to its numbers and its row. -/
theorem call_issues (call : Call L) : Issues (serve db) (fun op =>
    (∀ m, op.Addresses m → call.Names m) ∧ ∀ row, op.Inserts db row → call.Inserts db row)
      call.program := by
  cases call with
  | processTransaction env t =>
    apply ((process_issues env t).imp ?_).silent
    · exact fun _ => trivial
    · exact fun _ => trivial
    · exact fun op h => ⟨fun m hm => orderly_addresses h hm,fun row hrow => h.inserts_not hrow⟩
  | putAccount occasion a =>
    apply (issues_perform ⟨fun m hm => hm,fun row hrow => hrow⟩).silent
    · exact fun _ => trivial
    · exact fun _ => trivial

theorem Call.Inserts.draws {call : Call L} {row : Row} (h : call.Inserts db row) :
    call.Draws row.accountId := by
  cases call with
  | processTransaction env t => exact h.elim
  | putAccount occasion a =>
    cases h
    exact rfl

end Names

namespace Sample

def generated : Database := accountMapping.generate database

def besides : Bool → Call libs
  | false => .processTransaction (env 100 fun _ => none) (transfer 1 30000 iban₁ iban₂)
  | true => .putAccount ⟨none,200,7⟩ (account 7 iban₃ 40 valid₃)

theorem besides_names (i : Bool) (m : Option String) (h : (besides i).Names m) :
    (m == some iban₃) = i := by
  cases i with
  | false =>
    rcases h with h | h
    all_goals
      obtain ⟨k,rfl,hk⟩ := sqlEq_iff.mp h
      cases hk
      decide
  | true =>
    have hm : m = some iban₃ := h
    rw [hm]
    decide

def besidesInTurn : List Bool := [false,false,true] ++ List.replicate 7 false

theorem besides_draws {i : Bool} {id : UUID} (h : (besides i).Draws id) : i = true ∧ id = 7 := by
  cases i with
  | false => exact h.elim
  | true => exact ⟨rfl,h⟩

theorem seven_new : ∀ r ∈ twoRows, r.accountId ≠ 7 := by decide +kernel

end Sample

section Independent

variable {db : Database} {p : Option String → Bool} {calls : ι → Call L}

/-- The ids of the other rows, and those that the other calls draw. -/
def Elsewhere (p : Option String → Bool) (mine : ι → Bool) (calls : ι → Call L) (T : Table) (id : UUID) :
    Prop :=
  (∃ r ∈ T, p r.accountNumber = false ∧ r.accountId = id) ∨ ∃ j, mine j = false ∧ (calls j).Draws id

theorem calls_separated {mine : ι → Bool} {T : Table}
    (hlocal : ∀ i, mine i = true → ∀ row, (calls i).Inserts db row →
      db.LocalTo p (Elsewhere p mine calls T) row)
    (hnames : ∀ i m, (calls i).Names m → p m = mine i) :
    Separated (serve db) (StoreCall.Within db p (Elsewhere p mine calls T))
      (StoreCall.Without db p (Elsewhere p mine calls T)) mine (startCalls T calls) := by
  intro i
  apply (call_issues (calls i)).imp
  rintro op ⟨hop,hrow⟩
  cases hi : mine i with
  | true => exact ⟨fun m hm => (hnames i m (hop m hm)).trans hi,fun row h => hlocal i hi row (hrow row h)⟩
  | false => exact ⟨fun m hm => (hnames i m (hop m hm)).trans hi,
      fun row h => .inr ⟨i,hi,(hrow row h).draws⟩⟩

variable [DecidableEq ι]

/-- Calls on the numbers of one side run as if the other calls and the other rows did not
exist, whatever the schedule and whichever steps fail. -/
theorem calls_independent (mine : ι → Bool) (T : Table)
    (hlocal : ∀ i, mine i = true → ∀ row, (calls i).Inserts db row →
      db.LocalTo p (Elsewhere p mine calls T) row)
    (hnames : ∀ i m, (calls i).Names m → p m = mine i) (schedule : List ι) :
    part p ((startCalls T calls).runs (serve db) schedule).shared =
        ((startCalls (part p T) calls).runs (serve db) (schedule.filter mine)).shared ∧
      ∀ i, mine i = true → ((startCalls T calls).runs (serve db) schedule).thread i =
        ((startCalls (part p T) calls).runs (serve db) (schedule.filter mine)).thread i := by
  have hout : Outside p (Elsewhere p mine calls T) T := fun r hr hp => .inl ⟨r,hr,hp,rfl⟩
  have hsees := runs_separated (part_view db p (Elsewhere p mine calls T)) (startCalls T calls)
    (startCalls (part p T) calls) ⟨hout,rfl,fun _ _ => rfl⟩ (calls_separated hlocal hnames) schedule
  exact ⟨hsees.shared.symm,fun i hi => (hsees.thread i hi).symm⟩

open Sample in
/-- Under the primary key of the generated table. -/
theorem calls_independent_sample :
    part (fun m => m == some iban₃)
        ((startCalls twoRows besides).runs (serve generated) besidesInTurn).shared =
        ((startCalls (part (fun m => m == some iban₃) twoRows) besides).runs (serve generated)
          (besidesInTurn.filter id)).shared ∧
      ∀ i, id i = true → ((startCalls twoRows besides).runs (serve generated) besidesInTurn).thread i =
        ((startCalls (part (fun m => m == some iban₃) twoRows) besides).runs (serve generated)
          (besidesInTurn.filter id)).thread i := by
  apply calls_independent id twoRows _ besides_names besidesInTurn
  rintro i rfl row rfl
  apply (accountMapping_keyed database).localTo (by decide)
  rintro (⟨r,hr,-,hid⟩ | ⟨j,hj,hdraws⟩)
  · exact seven_new r hr hid
  · cases (besides_draws hdraws).1.symm.trans hj

end Independent

section Apart

variable {α : Type} {db : Database} {thread : ι → Code L α} {names : ι → Option String → Prop}
  {draws : ι → UUID → Prop}

/-- The program addresses its numbers only, and inserts rows under its ids only. -/
def KeepsTo (db : Database) (names : Option String → Prop) (draws : UUID → Prop) (p : Code L α) :
    Prop :=
  Issues (serve db) (fun op => (∀ m, op.Addresses m → names m) ∧
    ∀ row, op.Inserts db row → draws row.accountId) p

/-- The ids that are drawn are new, and no two programs draw the same. -/
structure FreshIds (T : Table) (draws : ι → UUID → Prop) : Prop where
  new : ∀ i id, draws i id → ∀ r ∈ T, r.accountId ≠ id
  distinct : ∀ i j, i ≠ j → ∀ id, draws i id → ¬ draws j id

def NotOf (T : Table) (names : ι → Option String → Prop) (draws : ι → UUID → Prop) (i : ι) (id : UUID) :
    Prop :=
  (∃ r ∈ T, ¬ names i r.accountNumber ∧ r.accountId = id) ∨ ∃ j, j ≠ i ∧ draws j id

theorem outside_start {T : Table} {i : ι} {p : Option String → Bool}
    (hp : ∀ m, p m = true ↔ names i m) : Outside p (NotOf T names draws i) T :=
  fun r hr hout => .inl ⟨r,hr,fun hn => by simp [(hp _).mpr hn] at hout,rfl⟩

theorem KeepsTo.sides {T : Table} (hkeyed : db.Keyed) (hfresh : FreshIds T draws)
    (hkeeps : ∀ i, KeepsTo db (names i) (draws i) (thread i))
    (hapart : ∀ i j, i ≠ j → ∀ m, names i m → ¬ names j m) (i : ι) {p : Option String → Bool}
    (hp : ∀ m, p m = true ↔ names i m) :
    Issues (serve db) (StoreCall.Within db p (NotOf T names draws i)) (thread i) ∧
      ∀ j, j ≠ i → Issues (serve db) (StoreCall.Without db p (NotOf T names draws i)) (thread j) := by
  constructor
  · apply (hkeeps i).imp
    rintro op ⟨hop,hdraws⟩
    have hown : ∀ m, op.Addresses m → p m = true := fun m hm => (hp m).mpr (hop m hm)
    refine ⟨hown,fun row hrow => hkeyed.localTo (hown _ hrow.addresses) ?_⟩
    rintro (⟨r,hr,-,hid⟩ | ⟨j,hji,hj⟩)
    · exact hfresh.new i _ (hdraws row hrow) r hr hid
    · exact hfresh.distinct i j hji.symm _ (hdraws row hrow) hj
  · intro j hji
    apply (hkeeps j).imp
    rintro op ⟨hop,hdraws⟩
    refine ⟨fun m hm => ?_,fun row hrow => .inr ⟨j,hji,hdraws row hrow⟩⟩
    rw [Bool.eq_false_iff,ne_eq,hp]
    exact hapart j i hji m (hop m hm)

variable [DecidableEq ι]

theorem bystanders_unchanged {p : Option String → Bool}
    (hkeeps : ∀ i, KeepsTo db (names i) (draws i) (thread i))
    (hnames : ∀ i m, names i m → p m = false) (T : Table) (schedule : List ι) :
    part p ((Config.start T thread).runs (serve db) schedule).shared = part p T := by
  apply runs_issued (I := fun T' => part p T' = part p T)
    (fun op T' hop h => (part_keeps op T' hop).trans h) (Config.start T thread)
  · exact fun i => (hkeeps i).imp fun op hop m hm => hnames i m (hop.1 m hm)
  · rfl

/-- Programs without a common number, in any interleaving: each number ends with the rows that
it has after the programs ran one after the other. -/
theorem programs_apart {T : Table} (hkeyed : db.Keyed) (hfresh : FreshIds T draws)
    (hkeeps : ∀ i, KeepsTo db (names i) (draws i) (thread i))
    (hapart : ∀ i j, i ≠ j → ∀ m, names i m → ¬ names j m) {schedule order : List ι}
    (hdone : ((Config.start T thread).runs (serve db) schedule).Finished) (hnodup : order.Nodup)
    (hall : ∀ i, i ∈ order) (n : Option String) :
    part (fun m => m == n) ((Config.start T thread).runs (serve db) schedule).shared =
      part (fun m => m == n) (serially (serve db) thread order T) := by
  classical
  by_cases hn : ∃ i, names i n
  · obtain ⟨i,hi⟩ := hn
    set p : Option String → Bool := fun m => decide (names i m) with hp
    have hnames : ∀ m, p m = true ↔ names i m := by simp [hp]
    have hv := part_view (L := L) db p (NotOf T names draws i)
    have hout : Outside p (NotOf T names draws i) T := outside_start hnames
    obtain ⟨hown,hother⟩ := KeepsTo.sides hkeyed hfresh hkeeps hapart i hnames
    have hsame : part p ((Config.start T thread).runs (serve db) schedule).shared =
        part p (serially (serve db) thread order T) := by
      rw [(finished_own hv (Config.start T thread) hout hown hother hdone T).1,
        serially_own hv hown hother hnodup (hall i) hout]
      rfl
    have hpart : ∀ m, (m == n) = true → p m = true := by
      intro m hm
      cases eq_of_beq hm
      exact (hnames n).mpr hi
    rw [← part_part hpart,hsame,part_part hpart]
  · have hnames : ∀ i m, names i m → (m == n) = false := by
      intro i m hm
      rw [beq_eq_false_iff_ne]
      rintro rfl
      exact hn ⟨i,hm⟩
    rw [bystanders_unchanged hkeeps hnames T schedule]
    have hv := part_view (L := L) db (fun m => m == n) fun _ => True
    refine (serially_other hv (fun j _ => ?_) fun _ _ _ => trivial).1.symm
    exact (hkeeps j).imp fun op hop => ⟨fun m hm => hnames j m (hop.1 m hm),fun _ _ => trivial⟩

/-- And each program has answered what it answers alone. -/
theorem programs_answer {T : Table} (hkeyed : db.Keyed) (hfresh : FreshIds T draws)
    (hkeeps : ∀ i, KeepsTo db (names i) (draws i) (thread i))
    (hapart : ∀ i j, i ≠ j → ∀ m, names i m → ¬ names j m) {schedule : List ι}
    (hdone : ((Config.start T thread).runs (serve db) schedule).Finished) (i : ι) (T' : Table) :
    (((Config.start T thread).runs (serve db) schedule).thread i).run (serve db) T' =
      (((thread i).run (serve db) T).1,T') := by
  classical
  set p : Option String → Bool := fun m => decide (names i m) with hp
  have hnames : ∀ m, p m = true ↔ names i m := by simp [hp]
  have hv := part_view (L := L) db p (NotOf T names draws i)
  have hout : Outside p (NotOf T names draws i) T := outside_start hnames
  obtain ⟨hown,hother⟩ := KeepsTo.sides hkeyed hfresh hkeeps hapart i hnames
  rw [(finished_own hv (Config.start T thread) hout hown hother hdone T').2,(hv.run_own hown hout).1]
  rfl

def PairwiseApart (calls : ι → Call L) : Prop :=
  ∀ i j, i ≠ j → ∀ m, (calls i).Names m → ¬ (calls j).Names m

/-- Calls without a common number can run in any interleaving, as long as the ids that they
draw are new: each number ends with the rows that it has after the calls ran one after the
other, in any order, and each call returns or throws what it does alone. -/
theorem apart_serializable {calls : ι → Call L} (hkeyed : db.Keyed) (hapart : PairwiseApart calls)
    {T : Table} (hfresh : FreshIds T fun i => (calls i).Draws) {schedule order : List ι}
    (hdone : ((startCalls T calls).runs (serve db) schedule).Finished)
    (hnodup : order.Nodup) (hall : ∀ i, i ∈ order) :
    (∀ n, part (fun m => m == n) ((startCalls T calls).runs (serve db) schedule).shared =
      part (fun m => m == n) (serially (serve db) (fun i => (calls i).program) order T)) ∧
    ∀ i, (((startCalls T calls).runs (serve db) schedule).thread i).run (serve db) T =
      (((calls i).program.run (serve db) T).1,T) := by
  have hkeeps : ∀ i, KeepsTo db (calls i).Names (calls i).Draws (calls i).program :=
    fun i => (call_issues (calls i)).imp fun op hop => ⟨hop.1,fun row hrow => (hop.2 row hrow).draws⟩
  exact ⟨programs_apart hkeyed hfresh hkeeps hapart hdone hnodup hall,
    fun i => programs_answer hkeyed hfresh hkeeps hapart hdone i T⟩

theorem Sample.besides_fresh : FreshIds twoRows fun i => (besides i).Draws where
  new i id h r hr := by
    rw [(besides_draws h).2]
    exact seven_new r hr
  distinct i j hij id hi hj := hij ((besides_draws hi).1.trans (besides_draws hj).1.symm)

open Sample in
theorem apart_serializable_sample :
    (∀ n, part (fun m => m == n)
        ((startCalls twoRows besides).runs (serve generated) besidesInTurn).shared =
      part (fun m => m == n)
        (serially (serve generated) (fun i => (besides i).program) [true,false] twoRows)) ∧
    ∀ i, (((startCalls twoRows besides).runs (serve generated) besidesInTurn).thread i).run
        (serve generated) twoRows = (((besides i).program.run (serve generated) twoRows).1,twoRows) := by
  apply apart_serializable (accountMapping_keyed database)
  · intro i j hij m hi hj
    exact hij ((besides_names i m hi).symm.trans (besides_names j m hj))
  · exact besides_fresh
  · intro i
    cases i <;> decide +kernel
  · decide
  · decide

end Apart

end HomeRest
