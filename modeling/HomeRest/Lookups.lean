import HomeRest.Holdings

/-! The lookups of an account by its id and by its number.
Both start from a blank account. `getAccountByUUID` returns it from its handlers, so an id
that is not there, like a failing step, makes an account up; `getAccountByNumber` throws. -/
namespace HomeRest

variable {L : Libs}

/-- What one lookup by id meets: the clock, the generator of random ids, a failure before
there is a transaction, one of the query, one of the commit, and what the rollback throws
after either. The session is closed by then. -/
structure Search where
  now : Millis
  randomId : UUID
  beginFault : Option Throwable
  queryFault : Option Throwable
  commitFault : Option Throwable
  rollbackFault : Option Throwable

/-- `from BankAccount AA where AA.id = :account_id`. -/
def sqlGetAccountsById (accountId : UUID) (T : Table) : Table :=
  T.filter fun aa => aa.accountId == accountId

namespace Search

variable (o : Search)

def found (accountId : UUID) (T : Table) : Except Throwable (BankAccount L) :=
  match o.queryFault with
  | some e => .error e
  | none => do
    let results ← (sqlGetAccountsById accountId T).mapM (hydrate o.now)
    if results.length > 1 then throw noMatchingRecord
    match results with
    | [] => throw (.plain .indexOutOfBounds .null)
    | first :: _ => return first

/-- A failed cast is swallowed; everything else is swallowed after the rollback, if there is
a transaction. -/
def recover (begun : Bool) (optionalBankAccount : Option (BankAccount L)) (e : Throwable) :
    Except Throwable (Option (BankAccount L)) :=
  if e.cls = .classCast then .ok optionalBankAccount
  else match o.rollbackFault with
    | some e' => if begun then .error e' else .ok optionalBankAccount
    | none => .ok optionalBankAccount

def Works : Prop := o.beginFault = none ∧ o.queryFault = none ∧ o.commitFault = none

end Search

/-- `AccountServiceImpl.getAccountByUUID`. -/
def getAccountByUUID (o : Search) (accountId : UUID) (T : Table) :
    Except Throwable (Option (BankAccount L)) :=
  let bankAccount := BankAccount.new o.randomId o.now
  match o.beginFault with
  | some e => o.recover false (some bankAccount) e
  | none =>
    match o.found accountId T with
    | .error e => o.recover true (some bankAccount) e
    | .ok first =>
      match o.commitFault with
      | some e => o.recover true (some first) e
      | none => .ok (some first)

/-- An answer of a lookup among some rows: an account is one of the rows as read, by steps that
work; anything else means that a step failed, or that there is no row. -/
def Honest (works : Prop) (rows : Table) (now : Millis) :
    Except Throwable (Option (BankAccount L)) → Prop
  | .ok (some a) => works ∧ ∃ r ∈ rows, hydrate now r = .ok a
  | _ => ¬ works ∨ rows = []

/-- Whatever goes wrong, the exception gets out: there is a transaction, its rollback throws,
and what went wrong is no failed cast. -/
structure Search.Escapes (L : Libs) (o : Search) (accountId : UUID) (T : Table) : Prop where
  begun : o.beginFault = none
  rollback : o.rollbackFault ≠ none
  query : ∀ e ∈ o.queryFault, e.cls ≠ .classCast
  commit : o.queryFault = none → (∃ r ∈ sqlGetAccountsById accountId T, r.Acceptable L) →
    ∀ e ∈ o.commitFault, e.cls ≠ .classCast

section ById

variable {o : Search} {u : UUID} {T : Table}

theorem byId_cases (hid : (T.map Row.accountId).Nodup) (u : UUID) :
    sqlGetAccountsById u T = [] ∨ ∃ r, sqlGetAccountsById u T = [r] := by
  have hlen : (sqlGetAccountsById u T).length ≤ 1 := by
    have hcount : (sqlGetAccountsById u T).length = (T.map Row.accountId).count u := by
      rw [sqlGetAccountsById,← List.countP_eq_length_filter,List.count,List.countP_map]
      rfl
    rw [hcount]
    exact List.nodup_iff_count_le_one.mp hid u
  cases hrows : sqlGetAccountsById u T with
  | nil => exact .inl rfl
  | cons r rest =>
    have hrest : rest = [] := by simpa [hrows] using hlen
    exact .inr ⟨r,by rw [hrest]⟩

theorem found_nil (hq : o.queryFault = none) (h : sqlGetAccountsById u T = []) :
    (o.found u T : Except Throwable (BankAccount L)) = .error (.plain .indexOutOfBounds .null) := by
  simp [Search.found,hq,h,pure,Except.pure,bind,Except.bind,throw,throwThe,MonadExceptOf.throw]

theorem found_single {r : Row} (hq : o.queryFault = none) (h : sqlGetAccountsById u T = [r]) :
    (o.found u T : Except Throwable (BankAccount L)) = hydrate o.now r := by
  cases hr : (hydrate o.now r : Except Throwable (BankAccount L)) <;>
    simp [Search.found,hq,h,hr,pure,Except.pure,bind,Except.bind]

theorem not_acceptable {r : Row} (h : ¬ r.Acceptable L) (now : Millis) :
    ∃ e, (hydrate now r : Except Throwable (BankAccount L)) = .error e ∧ e.cls = .propertyAccess := by
  cases hr : (hydrate now r : Except Throwable (BankAccount L)) with
  | ok a => exact absurd (hydrate_ok hr).1 h
  | error e => exact ⟨e,rfl,hydrate_error hr⟩

theorem recover_honest {works : Prop} {rows : Table} {begun : Bool} {a : BankAccount L} {e : Throwable}
    (hno : ¬ (works ∧ ∃ r ∈ rows, hydrate o.now r = .ok a)) :
    Honest works rows o.now (o.recover begun (some a) e) ↔
      (e.cls ≠ .classCast ∧ begun = true ∧ o.rollbackFault ≠ none) ∧ (¬ works ∨ rows = []) := by
  by_cases hc : e.cls = .classCast
  · simp [Search.recover,hc,Honest,hno]
  · cases hr : o.rollbackFault with
    | none => simp [Search.recover,hc,hr,Honest,hno]
    | some e' =>
      cases begun with
      | false => simp [Search.recover,hc,hr,Honest,hno]
      | true => simp [Search.recover,hc,hr,Honest]

/-! The ways through `getAccountByUUID`, in the order of its steps -/

theorem byId_unbegun {e : Throwable} (hb : o.beginFault = some e) :
    ¬ Honest o.Works (sqlGetAccountsById u T) o.now
      (getAccountByUUID o u T : Except Throwable (Option (BankAccount L))) := by
  have hw : ¬ o.Works := fun hw => by simp [hw.1] at hb
  simp only [getAccountByUUID,hb]
  rw [recover_honest fun h => hw h.1]
  simp

theorem byId_unread {e : Throwable} (hb : o.beginFault = none) (hq : o.queryFault = some e) :
    Honest o.Works (sqlGetAccountsById u T) o.now
      (getAccountByUUID o u T : Except Throwable (Option (BankAccount L))) ↔
    e.cls ≠ .classCast ∧ o.rollbackFault ≠ none := by
  have hw : ¬ o.Works := fun hw => by simp [hw.2.1] at hq
  simp only [getAccountByUUID,hb,Search.found,hq]
  rw [recover_honest fun h => hw h.1]
  simp [hw]

theorem byId_missing (hb : o.beginFault = none) (hq : o.queryFault = none)
    (hrows : sqlGetAccountsById u T = []) :
    Honest o.Works (sqlGetAccountsById u T) o.now
      (getAccountByUUID o u T : Except Throwable (Option (BankAccount L))) ↔
    o.rollbackFault ≠ none := by
  simp only [getAccountByUUID,hb,found_nil hq hrows]
  rw [recover_honest (by simp [hrows])]
  simp [hrows,Throwable.cls]

theorem byId_unfilled {r : Row} (hb : o.beginFault = none) (hq : o.queryFault = none)
    (hrows : sqlGetAccountsById u T = [r]) (hacc : ¬ r.Acceptable L) :
    Honest o.Works (sqlGetAccountsById u T) o.now
      (getAccountByUUID o u T : Except Throwable (Option (BankAccount L))) ↔
    o.rollbackFault ≠ none ∧ ¬ o.Works := by
  obtain ⟨e,he,hcls⟩ := not_acceptable hacc o.now
  simp only [getAccountByUUID,hb,found_single hq hrows,he]
  rw [recover_honest (by simp [hrows,he])]
  simp [hrows,hcls]

theorem byId_uncommitted {r : Row} {e : Throwable} (hb : o.beginFault = none)
    (hq : o.queryFault = none) (hrows : sqlGetAccountsById u T = [r]) (hacc : r.Acceptable L)
    (hcm : o.commitFault = some e) :
    Honest o.Works (sqlGetAccountsById u T) o.now
      (getAccountByUUID o u T : Except Throwable (Option (BankAccount L))) ↔
    e.cls ≠ .classCast ∧ o.rollbackFault ≠ none := by
  have hw : ¬ o.Works := fun hw => by simp [hw.2.2] at hcm
  obtain ⟨a,ha⟩ := hydrate_acceptable hacc o.now
  simp only [getAccountByUUID,hb,found_single hq hrows,ha,hcm]
  rw [recover_honest fun h => hw h.1]
  simp [hw]

theorem byId_found {r : Row} (hw : o.Works) (hrows : sqlGetAccountsById u T = [r])
    (hacc : r.Acceptable L) :
    ∃ a : BankAccount L, getAccountByUUID o u T = .ok (some a) ∧ hydrate o.now r = .ok a := by
  obtain ⟨a,ha⟩ := hydrate_acceptable hacc o.now
  exact ⟨a,by simp [getAccountByUUID,hw.1,found_single hw.2.1 hrows,ha,hw.2.2],ha⟩

theorem byId_honest (hid : (T.map Row.accountId).Nodup) (u : UUID) :
    Honest o.Works (sqlGetAccountsById u T) o.now
      (getAccountByUUID o u T : Except Throwable (Option (BankAccount L))) ↔
    (o.Works ∧ ∃ r ∈ sqlGetAccountsById u T, r.Acceptable L) ∨
      (¬ o.Works ∨ sqlGetAccountsById u T = []) ∧ o.Escapes L u T := by
  cases hb : o.beginFault with
  | some e =>
    have hw : ¬ o.Works := fun hw => by simp [hw.1] at hb
    have hesc : ¬ o.Escapes L u T := fun he => by simp [he.begun] at hb
    exact iff_of_false (byId_unbegun hb) (by simp [hw,hesc])
  | none =>
    cases hq : o.queryFault with
    | some e =>
      have hw : ¬ o.Works := fun hw => by simp [hw.2.1] at hq
      have hesc : o.Escapes L u T ↔ e.cls ≠ .classCast ∧ o.rollbackFault ≠ none :=
        ⟨fun he => ⟨he.query e hq,he.rollback⟩,
          fun ⟨hc,hr⟩ => ⟨hb,hr,by simpa [hq] using hc,by simp [hq]⟩⟩
      rw [byId_unread hb hq]
      simp [hw,hesc]
    | none =>
      have hquery : ∀ e ∈ o.queryFault, e.cls ≠ .classCast := by simp [hq]
      rcases byId_cases hid u with hrows | ⟨r,hrows⟩
      · have hesc : o.Escapes L u T ↔ o.rollbackFault ≠ none :=
          ⟨fun he => he.rollback,fun hr => ⟨hb,hr,hquery,by simp [hrows]⟩⟩
        rw [byId_missing hb hq hrows]
        simp [hrows,hesc]
      · by_cases hacc : r.Acceptable L
        · cases hcm : o.commitFault with
          | none =>
            have hw : o.Works := ⟨hb,hq,hcm⟩
            obtain ⟨a,hget,ha⟩ := byId_found hw hrows hacc
            rw [hget,hrows]
            exact iff_of_true ⟨hw,r,by simp,ha⟩ (.inl ⟨hw,r,by simp,hacc⟩)
          | some e =>
            have hw : ¬ o.Works := fun hw => by simp [hw.2.2] at hcm
            have hesc : o.Escapes L u T ↔ e.cls ≠ .classCast ∧ o.rollbackFault ≠ none :=
              ⟨fun he => ⟨he.commit hq ⟨r,by simp [hrows],hacc⟩ e hcm,he.rollback⟩,
                fun ⟨hc,hr⟩ => ⟨hb,hr,hquery,fun _ _ => by simpa [hcm] using hc⟩⟩
            rw [byId_uncommitted hb hq hrows hacc hcm]
            simp [hw,hesc]
        · have hesc : o.Escapes L u T ↔ o.rollbackFault ≠ none :=
            ⟨fun he => he.rollback,fun hr => ⟨hb,hr,hquery,by simp [hrows,hacc]⟩⟩
          rw [byId_unfilled hb hq hrows hacc]
          simp [hrows,hacc,hesc,and_comm]

end ById

section ByNumber

variable {occasion : Occasion} {n : Option String} {T : Table}

theorem byNumber_honest (hu : UniqueNumbers T) (n : Option String) :
    Honest (occasion.fault = none) (sqlGetAccountsByNumber n T) occasion.now
      (getAccountByNumber occasion n T : Except Throwable (Option (BankAccount L))) ↔
    (∀ e ∈ occasion.fault, e.cls ≠ .classCast) ∧
      (occasion.fault = none → ∀ r ∈ sqlGetAccountsByNumber n T, r.Acceptable L) := by
  cases hf : occasion.fault with
  | some e =>
    by_cases hc : e.cls = .classCast
    · simp [getAccountByNumber,hf,hc,Honest]
    · simp [getAccountByNumber,hf,hc,Honest]
  | none =>
    simp only [Option.mem_def,reduceCtorEq,false_imp_iff,implies_true,true_and,true_imp_iff]
    have hrows : (∀ r ∈ sqlGetAccountsByNumber n T, r.Acceptable L) ↔
        sqlGetAccountsByNumber n T = [] ∨ Readable L n T := by
      rcases hu.cases n with hnil | ⟨s,hs⟩
      · simp [hnil]
      · simp [readable_single hs,hs]
    rw [hrows]
    rcases getAccountByNumber_sound (L := L) hf n T with ⟨hr,a,ha,r,hmem,hra⟩ | ⟨hno,e,he⟩
    · rw [ha]
      exact iff_of_true ⟨trivial,r,hmem,hra⟩ (.inr hr)
    · rw [he]
      simp [Honest,hno]

def BothFind (L : Libs) (o : Search) (occasion : Occasion) (T : Table) (r : Row) : Prop :=
  (∃ a : BankAccount L, getAccountByUUID o r.accountId T = .ok (some a) ∧
    hydrate o.now r = .ok a) ∧
  ∃ a : BankAccount L, getAccountByNumber occasion r.accountNumber T = .ok (some a) ∧
    hydrate occasion.now r = .ok a

theorem bothFind_iff {o : Search} (hid : (T.map Row.accountId).Nodup) (hu : UniqueNumbers T)
    (hw : o.Works) (hf : occasion.fault = none) {r : Row} (hr : r ∈ T) :
    BothFind L o occasion T r ↔ r.Acceptable L := by
  constructor
  · rintro ⟨⟨a,-,ha⟩,-⟩
    exact (hydrate_ok ha).1
  · intro hacc
    have hrow : sqlGetAccountsById r.accountId T = [r] := by
      have hmem : r ∈ sqlGetAccountsById r.accountId T := by simp [sqlGetAccountsById,hr]
      rcases byId_cases hid r.accountId with hnil | ⟨s,hs⟩
      · simp [hnil] at hmem
      · rw [hs,List.mem_singleton] at hmem
        rw [hs,hmem]
    obtain ⟨k,hk,-⟩ := hacc.number
    have hnumber : sqlGetAccountsByNumber r.accountNumber T = [r] := by
      rw [hk]
      exact hu.sqlGet_mem hr hk
    refine ⟨byId_found hw hrow hacc,?_⟩
    rcases getAccountByNumber_sound (L := L) hf r.accountNumber T with
      ⟨-,c,hc,s,hs,hsc⟩ | ⟨hno,-⟩
    · rw [hnumber,List.mem_singleton] at hs
      subst hs
      exact ⟨c,hc,hsc⟩
    · exact absurd ((readable_single hnumber).mpr hacc) hno

end ByNumber

/-- The lookups are honest, and agree on the stored rows, exactly when: an id finds a row
that can be filled, or whatever goes wrong gets out; no cast fails in a lookup by number, and
the rows it finds can be filled; and so can every row, if nothing fails. -/
theorem lookups_honest {T : Table} (hid : (T.map Row.accountId).Nodup) (hu : UniqueNumbers T)
    (o : Search) (occasion : Occasion) (u : UUID) (n : Option String) :
    (Honest o.Works (sqlGetAccountsById u T) o.now
        (getAccountByUUID o u T : Except Throwable (Option (BankAccount L))) ∧
      Honest (occasion.fault = none) (sqlGetAccountsByNumber n T) occasion.now
        (getAccountByNumber occasion n T : Except Throwable (Option (BankAccount L))) ∧
      (o.Works → occasion.fault = none → ∀ r ∈ T, BothFind L o occasion T r)) ↔
    ((o.Works ∧ ∃ r ∈ sqlGetAccountsById u T, r.Acceptable L) ∨
      (¬ o.Works ∨ sqlGetAccountsById u T = []) ∧ o.Escapes L u T) ∧
    ((∀ e ∈ occasion.fault, e.cls ≠ .classCast) ∧
      (occasion.fault = none → ∀ r ∈ sqlGetAccountsByNumber n T, r.Acceptable L)) ∧
    (o.Works → occasion.fault = none → ∀ r ∈ T, r.Acceptable L) := by
  have hboth : (o.Works → occasion.fault = none → ∀ r ∈ T, BothFind L o occasion T r) ↔
      (o.Works → occasion.fault = none → ∀ r ∈ T, r.Acceptable L) := by
    apply forall₂_congr
    intro hw hf
    apply forall₂_congr
    intro r hr
    exact bothFind_iff hid hu hw hf hr
  rw [byId_honest hid u,byNumber_honest hu n,hboth]

namespace Sample

def search : Search := ⟨100,9,none,none,none,none⟩

def unanswered : Search := {search with
  beginFault := some (.plain .hibernate (.text "Unable to acquire JDBC Connection"))}

end Sample

open Sample in
theorem lookups_honest_sample :
    (Honest search.Works (sqlGetAccountsById 1 twoRows) search.now
        (getAccountByUUID search 1 twoRows : Except Throwable (Option (BankAccount libs))) ∧
      Honest ((none : Option Throwable) = none) (sqlGetAccountsByNumber (some iban₂) twoRows) 100
        (getAccountByNumber ⟨none,100,0⟩ (some iban₂) twoRows :
          Except Throwable (Option (BankAccount libs))) ∧
      (search.Works → (none : Option Throwable) = none →
        ∀ r ∈ twoRows, BothFind libs search ⟨none,100,0⟩ twoRows r)) ↔
    ((search.Works ∧ ∃ r ∈ sqlGetAccountsById 1 twoRows, r.Acceptable libs) ∨
      (¬ search.Works ∨ sqlGetAccountsById 1 twoRows = []) ∧ search.Escapes libs 1 twoRows) ∧
    ((∀ e ∈ (none : Option Throwable), e.cls ≠ .classCast) ∧
      ((none : Option Throwable) = none →
        ∀ r ∈ sqlGetAccountsByNumber (some iban₂) twoRows, r.Acceptable libs)) ∧
    (search.Works → (none : Option Throwable) = none → ∀ r ∈ twoRows, r.Acceptable libs) :=
  lookups_honest (by decide +kernel) (by decide +kernel) search ⟨none,100,0⟩ 1 (some iban₂)

open Sample in
/-- An account that nobody stored is returned when the database does not answer, and also for
an id that is not there. -/
theorem getAccountByUUID_makesUp :
    (twoRows.map Row.accountId).Nodup ∧ UniqueNumbers twoRows ∧
    ¬ Honest unanswered.Works (sqlGetAccountsById 1 twoRows) unanswered.now
      (getAccountByUUID unanswered 1 twoRows : Except Throwable (Option (BankAccount libs))) ∧
    ¬ Honest search.Works (sqlGetAccountsById 7 twoRows) search.now
      (getAccountByUUID search 7 twoRows : Except Throwable (Option (BankAccount libs))) := by
  have hunanswered : getAccountByUUID unanswered 1 twoRows =
      .ok (some (BankAccount.new 9 100 : BankAccount libs)) := by decide +kernel
  have hunknown : getAccountByUUID search 7 twoRows =
      .ok (some (BankAccount.new 9 100 : BankAccount libs)) := by decide +kernel
  have hnone : sqlGetAccountsById 7 twoRows = [] := by decide +kernel
  refine ⟨by decide +kernel,by decide +kernel,?_,?_⟩
  · rw [hunanswered]
    rintro ⟨⟨hbegin,-⟩,-⟩
    cases hbegin
  · rw [hunknown,hnone]
    rintro ⟨-,r,hr,-⟩
    cases hr

end HomeRest
