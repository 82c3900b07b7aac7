import HomeRest.Conservation

/-! What the accounts hold, and what no call changes in between.
Two tables are akin when their rows differ in status, date and balance only, and in the
balance of numbered rows only. The store steps of a transfer lead from a table to one that
is akin to it. -/
namespace HomeRest

variable {L : Libs}

/-- The rows belong to one account. -/
structure Row.Akin (L : Libs) (r r' : Row) : Prop where
  identity : r.identity = r'.identity
  acceptable : r.Acceptable L ↔ r'.Acceptable L
  unnumbered : r.accountNumber = none → r.currentBalance = r'.currentBalance

def Akin (L : Libs) (T T' : Table) : Prop := List.Forall₂ (Row.Akin L) T T'

/-- The balance under a number. -/
def held (T : Table) (n : Option String) : Option ℚ :=
  (sqlGetAccountsByNumber n T).head?.bind Row.currentBalance

/-- Every row with its identity and its balance. -/
def holdings (T : Table) : List ((UUID × Option String × Option String) × Option ℚ) :=
  T.map fun r => (r.identity,r.currentBalance)

namespace Row.Akin

variable {r r' r'' : Row}

theorem number (h : r.Akin L r') : r.accountNumber = r'.accountNumber :=
  congrArg (fun p => p.2.1) h.identity
theorem currency (h : r.Akin L r') : r.currencyUnit = r'.currencyUnit :=
  congrArg (fun p => p.2.2) h.identity

theorem refl (r : Row) : r.Akin L r := ⟨rfl,Iff.rfl,fun _ => rfl⟩

theorem symm (h : r.Akin L r') : r'.Akin L r :=
  ⟨h.identity.symm,h.acceptable.symm,fun hn => (h.unnumbered (h.number.trans hn)).symm⟩

theorem trans (h : r.Akin L r') (h' : r'.Akin L r'') : r.Akin L r'' :=
  ⟨h.identity.trans h'.identity,h.acceptable.trans h'.acceptable,
    fun hn => (h.unnumbered hn).trans (h'.unnumbered (h.number.symm.trans hn))⟩

theorem closed (d : Millis) (r : Row) : r.Akin L (closedRow d r) :=
  ⟨rfl,⟨fun h => ⟨h.balance,h.number,h.currency⟩,fun h => ⟨h.balance,h.number,h.currency⟩⟩,
    fun _ => rfl⟩

end Row.Akin

namespace Akin

variable {T T' T'' : Table} {n : Option String}

theorem refl (T : Table) : Akin L T T := List.forall₂_same.mpr fun r _ => Row.Akin.refl r

theorem symm (h : Akin L T T') : Akin L T' T := h.flip.imp fun _ _ hr => hr.symm

theorem trans (h : Akin L T T') (h' : Akin L T' T'') : Akin L T T'' := by
  unfold Akin at *
  induction h generalizing T'' with
  | nil => exact h'
  | cons hr _ ih =>
    cases h' with
    | cons hr' h' => exact .cons (hr.trans hr') (ih h')

theorem map {f : Row → Row} (h : ∀ r ∈ T, r.Akin L (f r)) : Akin L T (T.map f) :=
  List.forall₂_map_right_iff.mpr (List.forall₂_same.mpr h)

theorem identities (h : Akin L T T') : T'.identities = T.identities := by
  unfold Akin at h
  induction h with
  | nil => rfl
  | cons hr _ ih => simpa [Table.identities,hr.identity] using ih

theorem sqlGet (h : Akin L T T') (n : Option String) :
    Akin L (sqlGetAccountsByNumber n T) (sqlGetAccountsByNumber n T') := by
  have hnumber : ∀ ⦃r r' : Row⦄, r.Akin L r' →
      (sqlEq r.accountNumber n = true ↔ sqlEq r'.accountNumber n = true) := by
    intro r r' hr
    rw [hr.number]
  exact List.rel_filter hnumber h

theorem single (h : Akin L T T') {r : Row} (hr : sqlGetAccountsByNumber n T = [r]) :
    ∃ r', sqlGetAccountsByNumber n T' = [r'] ∧ r.Akin L r' := by
  have hget := h.sqlGet n
  rw [hr] at hget
  obtain ⟨r',rest,hrr',hrest,heq⟩ := List.forall₂_cons_left_iff.mp hget
  cases hrest
  exact ⟨r',heq,hrr'⟩

theorem close (f g : Option String) (d : Millis) (T : Table) :
    Akin L T (sqlUpdateAccountsInTransaction f g d T) := by
  apply map
  intro r _
  split_ifs
  · exact Row.Akin.closed d r
  · exact Row.Akin.refl r

theorem updateWhere {set : Row → Row} (hid : ∀ r, (set r).identity = r.identity)
    (hacc : ∀ r, r.Acceptable L → (set r).Acceptable L)
    (hT : ∀ r ∈ sqlGetAccountsByNumber n T, r.Acceptable L) :
    Akin L T (HomeRest.updateWhere n set T) := by
  apply map
  intro r hr
  split_ifs with hn
  · obtain ⟨k,hk,hkn⟩ := sqlEq_iff.mp hn
    have hacc₀ := hT r (mem_sqlGet.mpr ⟨hr,k,hk,hkn⟩)
    exact ⟨(hid r).symm,iff_of_true hacc₀ (hacc r hacc₀),fun h₀ => by simp [hk] at h₀⟩
  · exact Row.Akin.refl r

theorem book (db : Database) {r : Row} {status : ℤ} {v : ℚ} (h0 : 0 ≤ v) (now : Millis)
    (hT : sqlGetAccountsByNumber n T = [r]) (hr : r.Acceptable L) :
    Akin L T (HomeRest.book db n status v now T) := by
  apply updateWhere
  · exact fun _ => rfl
  · exact fun _ hq => bookedRow_acceptable db h0 now hq
  · intro q hq
    rw [hT,List.mem_singleton] at hq
    rw [hq]
    exact hr

end Akin

section Held

variable {T T' : Table} {n : Option String} {r : Row}

theorem single_number (h : sqlGetAccountsByNumber n T = [r]) : r.accountNumber = n := by
  have hr : r ∈ sqlGetAccountsByNumber n T := by rw [h]; exact List.mem_singleton_self r
  obtain ⟨-,k,hk,hn⟩ := mem_sqlGet.mp hr
  rw [hk,hn]

theorem held_single (h : sqlGetAccountsByNumber n T = [r]) : held T n = r.currentBalance := by
  simp [held,h]

theorem held_close (f g : Option String) (d : Millis) (T : Table) :
    held (sqlUpdateAccountsInTransaction f g d T) = held T := by
  funext n
  have hhead : ∀ rows : Table,
      rows.head?.bind Row.currentBalance = (rows.map Row.currentBalance).head?.join := by
    intro rows
    cases rows <;> rfl
  rw [held,hhead,sqlGet_close,map_close fun _ _ => rfl,← hhead,held]

theorem akin_commits_close (occasion : Occasion) (f g : Option String) (T : Table) :
    Akin L T (occasion.commits (sqlUpdateAccountsInTransaction f g occasion.now) T) ∧
      held (occasion.commits (sqlUpdateAccountsInTransaction f g occasion.now) T) = held T := by
  simp only [Occasion.commits]
  split_ifs
  · exact ⟨Akin.close f g occasion.now T,held_close f g occasion.now T⟩
  · exact ⟨Akin.refl T,rfl⟩

theorem held_updateWhere {set : Row → Row} {balance : Option ℚ}
    (hset : ∀ r, (set r).accountNumber = r.accountNumber)
    (hbalance : ∀ r, (set r).currentBalance = balance) (hT : sqlGetAccountsByNumber n T = [r]) :
    held (updateWhere n set T) = Function.update (held T) n balance := by
  funext m
  by_cases hm : m = n
  · subst hm
    rw [Function.update_self,held,sqlGet_updateWhere_self hset,hT]
    exact hbalance r
  · rw [Function.update_of_ne hm,held,sqlGet_updateWhere_ne hset (Ne.symm hm),held]

theorem held_book (db : Database) {status : ℤ} {v : ℚ} {now : Millis}
    (hT : sqlGetAccountsByNumber n T = [r]) :
    held (book db n status v now T) = Function.update (held T) n (some (db.decimal v)) :=
  held_updateWhere (bookedRow_number db status v now) (bookedRow_balance db status v now) hT

theorem UniqueNumbers.sqlGet_mem (hu : UniqueNumbers T) (hr : r ∈ T) {k : String}
    (hk : r.accountNumber = some k) : sqlGetAccountsByNumber (some k) T = [r] := by
  have hmem : r ∈ sqlGetAccountsByNumber (some k) T := mem_sqlGet.mpr ⟨hr,k,hk,rfl⟩
  rcases hu.cases (some k) with hnil | ⟨r',hr'⟩
  · rw [hnil] at hmem
    cases hmem
  · rw [hr',List.mem_singleton] at hmem
    rw [hr',hmem]

/-- Akin tables that hold the same under every number hold the same in every row. -/
theorem Akin.holdings_eq (h : Akin L T T') (hu : UniqueNumbers T) (hheld : held T = held T') :
    holdings T = holdings T' := by
  have hu' : UniqueNumbers T' := hu.of_identities h.identities
  have hrow : ∀ r ∈ T, ∀ r' ∈ T', r.Akin L r' → r.currentBalance = r'.currentBalance := by
    intro r hr r' hr' hrr'
    cases hk : r.accountNumber with
    | none => exact hrr'.unnumbered hk
    | some k =>
      have hT := held_single (hu.sqlGet_mem hr hk)
      have hT' := held_single (hu'.sqlGet_mem hr' (hrr'.number.symm.trans hk))
      rw [← hT,← hT',hheld]
  clear hu hu' hheld
  unfold Akin at h
  induction h with
  | nil => rfl
  | cons hr _ ih =>
    simp only [holdings,List.map_cons] at ih ⊢
    rw [ih fun r hr r' hr' => hrow r (by simp [hr]) r' (by simp [hr']),hr.identity,
      hrow _ (by simp) _ (by simp) hr]

end Held

end HomeRest
