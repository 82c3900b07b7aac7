import HomeRest.Holdings
import HomeRest.ProcessFollows
import HomeRest.UnlockedTransfer

/-! A call of `processTransaction` as an unlocked transfer.
The rows decide once and for all whether a call gets to its balances: other calls change
none of what is checked before. From there on it reads both balances, and writes both. -/
namespace HomeRest

open AtomicProgram UnlockedTransfer

variable {L : Libs}

def Fits (t : BankTransaction L) (n : Option String) (T : Table) : Prop :=
  ∃ r, sqlGetAccountsByNumber n T = [r] ∧ r.Acceptable L ∧ isNotBlank n = true ∧
    r.currencyUnit = t.currencyUnit

/-- Nothing but the balance can turn the call away. -/
structure Admissible (env : Env) (t : BankTransaction L) (T : Table) : Prop where
  wrapper : env.cleared .wrapperLock = false
  lock : env.cleared .accountsLock = false
  fitsFrom : Fits t t.transactionFrom T
  fitsTo : Fits t t.transactionTo T
  amount : ∃ x, t.transactionAmount = some x

open Classical in
noncomputable def asTransfer (db : Database) (T₀ : Table) (env : Env) (t : BankTransaction L) :
    Transfer (Option String) (Option ℚ) where
  source := t.transactionFrom
  target := t.transactionTo
  take balance :=
    if Admissible env t T₀ then
      balance.bind fun b =>
        if t.transactionAmount.getD 0 ≤ b then some (some (db.decimal (b-t.transactionAmount.getD 0)))
        else none
    else none
  put balance := balance.map fun d => db.decimal (d+t.transactionAmount.getD 0)

/-- How a call moves between its phases. -/
inductive MoveStep (db : Database) (T₀ : Table) (env : Env) (t : BankTransaction L) :
    Phase (Option ℚ) → StoreCall L → Table → Phase (Option ℚ) → Prop
  | look {ph occasion n T} (h : ph.Settled) : MoveStep db T₀ env t ph (.getAccountByNumber occasion n) T ph
  | take {occasion T b} (h : (asTransfer db T₀ env t).take (held T t.transactionFrom) = some b) :
    MoveStep db T₀ env t .idle (.getAccountByNumber occasion t.transactionFrom) T
      (.taking (held T t.transactionFrom))
  | refuse {occasion T} (h : (asTransfer db T₀ env t).take (held T t.transactionFrom) = none) :
    MoveStep db T₀ env t .idle (.getAccountByNumber occasion t.transactionFrom) T .refused
  | read {occasion T b} :
    MoveStep db T₀ env t (.taking b) (.getAccountByNumber occasion t.transactionTo) T
      (.ready b (held T t.transactionTo))
  | pay {occasion a T b d} (hf : occasion.fault = none) (hadm : Admissible env t T₀)
    (hn : a.accountNumber = t.transactionFrom) (ha : a.Complete)
    (h : (asTransfer db T₀ env t).take b = some (a.currentBalance.map db.decimal)) :
    MoveStep db T₀ env t (.ready b d) (.updateAccount occasion a) T (.half d)
  | give {occasion a T d} (hf : occasion.fault = none) (hadm : Admissible env t T₀)
    (hn : a.accountNumber = t.transactionTo) (ha : a.Complete)
    (h : (asTransfer db T₀ env t).put d = a.currentBalance.map db.decimal) :
    MoveStep db T₀ env t (.half d) (.updateAccount occasion a) T .done
  | close {ph occasion T} (h : ph.Ended) : MoveStep db T₀ env t ph (.closeTransaction occasion t) T ph

section Admissible

variable {db : Database} {T T' T₀ : Table} {env : Env} {t : BankTransaction L} {n : Option String}

theorem Fits.akin (h : Fits t n T) (hT : Akin L T T') : Fits t n T' := by
  obtain ⟨r,hr,hacc,hn,hc⟩ := h
  obtain ⟨r',hr',hrr'⟩ := hT.single hr
  exact ⟨r',hr',hrr'.acceptable.mp hacc,hn,hrr'.currency.symm.trans hc⟩

theorem Admissible.akin (h : Admissible env t T) (hT : Akin L T T') : Admissible env t T' :=
  ⟨h.wrapper,h.lock,h.fitsFrom.akin hT,h.fitsTo.akin hT,h.amount⟩

theorem Fits.reads (h : Fits t n T) {occasion : Occasion} (hf : occasion.fault = none) :
    ∃ a : BankAccount L, Reads occasion n T a := by
  obtain ⟨r,hr,hacc,-,-⟩ := h
  exact ((readable_single hr).mpr hacc).reads hf

theorem Fits.read (h : Fits t n T) {occasion : Occasion} {a : BankAccount L}
    (ha : Reads occasion n T a) : a.currentBalance = held T n ∧ a.currencyUnit = t.currencyUnit ∧
      isNotBlank a.accountNumber = true := by
  obtain ⟨r,hr,-,hn,hc⟩ := h
  obtain ⟨-,hcar⟩ := ha.single hr
  exact ⟨hcar.balance.trans (held_single hr).symm,hcar.currency.trans hc,by rwa [ha.number.1]⟩

theorem Fits.held (h : Fits t n T) : ∃ b, held T n = some b := by
  obtain ⟨r,hr,hacc,-,-⟩ := h
  obtain ⟨b,hb,-⟩ := hacc.balance
  exact ⟨b,(held_single hr).trans hb⟩

theorem Fits.currency (h : Fits t n T) : ∃ u, t.currencyUnit = some u := by
  obtain ⟨r,-,hacc,-,hc⟩ := h
  obtain ⟨u,hu,-⟩ := hacc.currency
  exact ⟨u,hc.symm.trans hu⟩

theorem fits_of_reads (hu : UniqueNumbers T) {occasion : Occasion} {a : BankAccount L}
    (ha : Reads occasion n T a) (hn : isNotBlank a.accountNumber = true)
    (hc : a.currencyUnit = t.currencyUnit) : Fits t n T := by
  obtain ⟨r,hr,hacc,hcar⟩ := hu.reads_single ha
  exact ⟨r,hr,hacc,by rwa [← ha.number.1],hcar.currency.symm.trans hc⟩

theorem take_inadmissible (h : ¬ Admissible env t T₀) (v : Option ℚ) :
    (asTransfer db T₀ env t).take v = none := by
  simp [asTransfer,h]

theorem take_covered (h : Admissible env t T₀) {x b : ℚ} (hx : t.transactionAmount = some x)
    (hxb : x ≤ b) : (asTransfer db T₀ env t).take (some b) = some (some (db.decimal (b-x))) := by
  simp [asTransfer,h,hx,hxb]

theorem take_uncovered {x b : ℚ} (hx : t.transactionAmount = some x) (hxb : ¬ x ≤ b) :
    (asTransfer db T₀ env t).take (some b) = none := by
  by_cases h : Admissible env t T₀
  · simp [asTransfer,h,hx,hxb]
  · exact take_inadmissible h _

theorem put_some {x d : ℚ} (hx : t.transactionAmount = some x) :
    (asTransfer db T₀ env t).put (some d) = some (db.decimal (d+x)) := by
  simp [asTransfer,hx]

end Admissible

section Call

variable {db : Database} {T₀ : Table} {env : Env} {t : BankTransaction L} {x : ℚ}

def Fired (t : BankTransaction L) (r : Except Throwable (BankAccount L × BankAccount L))
    (ph : Phase (Option ℚ)) : Prop :=
  ph.Ended ∧ ∀ sides, r = .ok sides →
    sides.1.currencyUnit = t.currencyUnit ∧ sides.2.currencyUnit = t.currencyUnit

theorem follows_write {β : Type} {R : Except Throwable β → Phase (Option ℚ) → Prop}
    {ph ph' : Phase (Option ℚ)} {site : Site} {a : BankAccount L} {f : Bool → Code L β}
    {h : Throwable → Code L β} (hs : env.Sound)
    (hstep : ∀ T, MoveStep db T₀ env t ph (.updateAccount (env.occasion site) a) T ph')
    (hf : Follows (serve db) (Akin L T₀) (MoveStep db T₀ env t) R ph' (f true)) :
    Follows (serve db) (Akin L T₀) (MoveStep db T₀ env t) R ph
      ((callUpdateAccount env site a).cont f h) := by
  apply follows_perform
  intro T _
  have hwritten : (serve db (.updateAccount (env.occasion site) a) T).1 = .ok true := by
    rw [serve_updateAccount]
    exact Occasion.written_none (hs site)
  refine ⟨ph',hstep T,?_,?_⟩
  · intro answer hanswer
    cases hwritten.symm.trans hanswer
    exact hf
  · intro e he
    cases hwritten.symm.trans he

theorem writeSides_moves (hs : env.Sound) (hadm : Admissible env t T₀)
    (hx : t.transactionAmount = some x) {pass : ℕ} {b d : ℚ} {now now' : Millis}
    {a c bf bt : BankAccount L} (hxb : x ≤ b) (ha : a.Complete) (hc : c.Complete)
    (hf : Side now 10 (b-x) a bf) (ht : Side now' 20 (d+x) c bt)
    (han : a.accountNumber = t.transactionFrom) (hcn : c.accountNumber = t.transactionTo)
    (hau : a.currencyUnit = t.currencyUnit) (hcu : c.currencyUnit = t.currencyUnit) :
    Follows (serve db) (Akin L T₀) (MoveStep db T₀ env t) (Fired t) (.ready (some b) (some d))
      (writeSides env pass bf bt) := by
  rw [writeSides_eq env pass (hf.complete ha) (ht.complete hc)]
  have hpay : (asTransfer db T₀ env t).take (some b) = some (bf.currentBalance.map db.decimal) := by
    rw [hf.balance]
    exact take_covered hadm hx hxb
  have hgive : (asTransfer db T₀ env t).put (some d) = bt.currentBalance.map db.decimal := by
    rw [ht.balance]
    exact put_some hx
  apply follows_write hs
  · exact fun T => .pay (hs _) hadm (hf.number.trans han) (hf.complete ha) hpay
  apply follows_write hs
  · exact fun T => .give (hs _) hadm (ht.number.trans hcn) (ht.complete hc) hgive
  refine ⟨trivial,?_⟩
  rintro sides ⟨⟩
  exact ⟨hf.currency.trans hau,ht.currency.trans hcu⟩

theorem fired_error (e : Throwable) {ph : Phase (Option ℚ)} (h : ph.Ended) :
    Fired t (.error e) ph :=
  ⟨h,by simp⟩

theorem incoming_moves (hs : env.Sound) (hc : t.CreditOrDebit) (hadm : Admissible env t T₀)
    (hx : t.transactionAmount = some x) {pass : ℕ} {b : ℚ} {now : Millis} {a bf : BankAccount L}
    (hxb : x ≤ b) (ha : a.Complete) (hf : Side now 10 (b-x) a bf)
    (han : a.accountNumber = t.transactionFrom) (hau : a.currencyUnit = t.currencyUnit) :
    Follows (serve db) (Akin L T₀) (MoveStep db T₀ env t) (Fired t) (.taking (some b))
      ((callGetAccountByNumber env (.branchTo pass) t.transactionTo).cont (fun foundTo =>
        (Program.ofExcept (incoming env t pass foundTo)).cont (writeSides env pass bf) .raise)
        .raise) := by
  apply follows_lookup fun c hn => ⟨_,incoming_unset hn⟩
  intro T hT
  have hto := hadm.fitsTo.akin hT
  obtain ⟨d,hd⟩ := hto.held
  refine ⟨.ready (some b) (some d),hd ▸ .read,?_,?_⟩
  · intro c bt hcr hbt
    obtain ⟨hbal,hcu,-⟩ := hto.read hcr
    obtain ⟨hcc,d',x',hd',hx',hst⟩ := incoming_sound hc hbt
    cases hx.symm.trans hx'
    cases hd'.symm.trans (hbal.trans hd)
    exact writeSides_moves hs hadm hx hxb ha hcc hf hst han hcr.number.1 hau hcu
  · intro hnot
    obtain ⟨c,hcr⟩ := hto.reads (hs (.branchTo pass))
    obtain ⟨bt,hbt⟩ : ∃ bt, incoming env t pass (some c) = .ok bt :=
      incoming_total hc hcr.complete hx
    exact absurd ⟨c,bt,hcr,hbt⟩ hnot

theorem fire_moves (hs : env.Sound) (hc : t.CreditOrDebit) (hadm : Admissible env t T₀) (pass : ℕ)
    (account : BankAccount L) :
    Follows (serve db) (Akin L T₀) (MoveStep db T₀ env t) (Fired t) .idle
      (fire env t pass account) := by
  obtain ⟨x,hx⟩ := hadm.amount
  rw [fire_eq,Program.handle]
  apply Follows.cont (Q := Fired t)
  · apply follows_lookup fun a ha => ⟨_,outgoing_unset ha⟩
    intro T hT
    have hfrom := hadm.fitsFrom.akin hT
    obtain ⟨b,hb⟩ := hfrom.held
    by_cases hxb : x ≤ b
    · have htake : (asTransfer db T₀ env t).take (some b) = some (some (db.decimal (b-x))) :=
        take_covered hadm hx hxb
      refine ⟨.taking (some b),hb ▸ .take (hb ▸ htake),?_,?_⟩
      · intro a bf ha hbf
        obtain ⟨hbal,hau,-⟩ := hfrom.read ha
        obtain ⟨hac,b',x',hb',hx',-,hsf⟩ := outgoing_sound hc hbf
        cases hx.symm.trans hx'
        cases hb'.symm.trans (hbal.trans hb)
        exact incoming_moves hs hc hadm hx hxb hac hsf ha.number.1 hau
      · intro hnot
        obtain ⟨a,ha⟩ := hfrom.reads (hs (.branchFrom pass))
        have hbal : a.currentBalance = some b := (hfrom.read ha).1.trans hb
        obtain ⟨bf,hbf⟩ : ∃ bf, outgoing env t pass (some a) = .ok bf :=
          outgoing_total hc ha.complete hbal hx hxb
        exact absurd ⟨a,bf,ha,hbf⟩ hnot
    · have htake : (asTransfer db T₀ env t).take (some b) = none := take_uncovered hx hxb
      refine ⟨.refused,.refuse (hb ▸ htake),?_,?_⟩
      · intro a bf ha hbf
        obtain ⟨-,b',x',hb',hx',hxb',-⟩ := outgoing_sound hc hbf
        cases hx.symm.trans hx'
        cases hb'.symm.trans ((hfrom.read ha).1.trans hb)
        exact absurd hxb' hxb
      · exact fun _ e => fired_error e trivial
  · exact fun sides ph h => h
  · exact fun e ph h => fired_error _ h.1

end Call

section Loop

variable {db : Database} {T₀ : Table} {env : Env} {t : BankTransaction L} {x y : BankAccount L}

theorem pass_moves {R : Except Throwable (List (BankAccount L)) → Phase (Option ℚ) → Prop}
    {ph : Phase (Option ℚ)} {pass : ℕ} {z balanceFrom balanceTo : BankAccount L}
    {rest : List (BankAccount L)} {n : Option String} (hs : env.Sound) (hfits : Fits t n T₀)
    (hz : z.accountNumber = n) (hph : ph.Settled)
    (hvisit : ∀ a : BankAccount L, a.Complete → a.accountNumber = n →
      Follows (serve db) (Akin L T₀) (MoveStep db T₀ env t) R ph
        (visit env t pass rest balanceFrom balanceTo a)) :
    Follows (serve db) (Akin L T₀) (MoveStep db T₀ env t) R ph
      (transactLoop env t pass (z :: rest) balanceFrom balanceTo) := by
  subst hz
  rw [transactLoop_cons]
  apply follows_get
  intro T hT
  obtain ⟨a,ha⟩ := (hfits.akin hT).reads (hs (.loop pass))
  refine ⟨ph,.look hph,?_,?_⟩
  · intro found hfound
    cases hfound.symm.trans ha.2
    exact hvisit a ha.complete ha.number.1
  · intro e he
    cases he.symm.trans ha.2

theorem ended_settled {ph : Phase (Option ℚ)} (h : ph.Ended) : ph.Settled := by
  cases ph <;> simp_all [Phase.Ended,Phase.Settled]

theorem visit_moves {pass : ℕ} {balanceFrom balanceTo a : BankAccount L}
    {rest : List (BankAccount L)} (hs : env.Sound) (hc : t.CreditOrDebit) (hadm : Admissible env t T₀)
    (hg : currencyGuard balanceFrom balanceTo t = .ok ()) (ha : a.Complete)
    (hfires : Fires t a.accountNumber)
    (hrest : ∀ (ph : Phase (Option ℚ)) (balanceFrom balanceTo : BankAccount L), ph.Ended →
      balanceFrom.currencyUnit = t.currencyUnit → balanceTo.currencyUnit = t.currencyUnit →
      Follows (serve db) (Akin L T₀) (MoveStep db T₀ env t) (fun _ ph' => ph'.Ended) ph
        (transactLoop env t (pass+1) rest balanceFrom balanceTo)) :
    Follows (serve db) (Akin L T₀) (MoveStep db T₀ env t) (fun _ ph => ph.Ended) .idle
      (visit env t pass rest balanceFrom balanceTo a) := by
  rw [visit_fires hg ha hfires]
  apply (fire_moves hs hc hadm pass a).cont
  · intro sides ph h
    obtain ⟨hbf,hbt⟩ := h.2 sides rfl
    exact hrest ph sides.1 sides.2 h.1 hbf hbt
  · exact fun e ph h => h.1

/-- The loop over the two accounts moves the amount in one of its passes. -/
theorem transact_moves {n m : String} (hb : Between t n m x y) (hs : env.Sound)
    (hadm : Admissible env t T₀) (hxu : x.currencyUnit = t.currencyUnit)
    (hyu : y.currencyUnit = t.currencyUnit) :
    Follows (serve db) (Akin L T₀) (MoveStep db T₀ env t) (fun _ ph => ph.Ended) .idle
      (transactInAccounts env t [x,y]) := by
  obtain ⟨u,hu⟩ := hadm.fitsFrom.currency
  have hguard : ∀ a c : BankAccount L, a.currencyUnit = t.currencyUnit →
      c.currencyUnit = t.currencyUnit → currencyGuard a c t = .ok () :=
    fun a c ha hc => currencyGuard_ok.mpr ⟨u,ha.trans hu,hc.trans hu,hu⟩
  have hxn : x.accountNumber = t.transactionFrom := hb.numberFrom.trans hb.transactionFrom.symm
  have hyn : y.accountNumber = t.transactionTo := hb.numberTo.trans hb.transactionTo.symm
  have hskip : ∀ (pass : ℕ) (rest : List (BankAccount L)) (a bf bt : BankAccount L) (k : String),
      a.accountNumber = some k → ¬ Fires t a.accountNumber → bf.currencyUnit = t.currencyUnit →
      bt.currencyUnit = t.currencyUnit →
      visit env t pass rest bf bt a = transactLoop env t (pass+1) rest bf bt :=
    fun pass rest a bf bt k hk hf hbf hbt => visit_skip (hguard bf bt hbf hbt) hb.kind hk
      hb.transactionFrom hb.transactionTo hb.different hf
  show Follows _ _ _ _ _ (transactLoop env t 0 [x,y] x y)
  by_cases hk : t.transactionType = some 1
  · apply pass_moves hs hadm.fitsFrom hxn
    · exact trivial
    intro a ha han
    have hfires : Fires t a.accountNumber := by
      rw [han,hb.transactionFrom]
      exact hb.fires_from.mpr hk
    apply visit_moves hs hb.kind hadm (hguard x y hxu hyu) ha hfires
    intro ph bf bt hph hbf hbt
    apply pass_moves hs hadm.fitsTo hyn (ended_settled hph)
    intro c _ hcn
    rw [hb.transactionTo] at hcn
    have hidle : ¬ Fires t c.accountNumber := by
      rw [hcn]
      exact fun hf => hb.fires_to.mp hf hk
    rw [hskip 1 [] c bf bt m hcn hidle hbf hbt]
    exact hph
  · apply pass_moves hs hadm.fitsFrom hxn
    · exact trivial
    intro a _ han
    rw [hb.transactionFrom] at han
    have hidle : ¬ Fires t a.accountNumber := by
      rw [han]
      exact fun hf => hk (hb.fires_from.mp hf)
    rw [hskip 0 [y] a x y n han hidle hxu hyu]
    apply pass_moves hs hadm.fitsTo hyn
    · exact trivial
    intro c hc hcn
    have hfires : Fires t c.accountNumber := by
      rw [hcn,hb.transactionTo]
      exact hb.fires_to.mpr hk
    apply visit_moves hs hb.kind hadm (hguard x y hxu hyu) hc hfires
    exact fun ph bf bt hph _ _ => hph

/-- What the loop of a call that is not admissible does: it looks up, and moves nothing. -/
theorem transact_stays (hu : UniqueNumbers T₀) (h : Ordinary env t)
    (hadm : ¬ Admissible env t T₀) (hwrapper : env.cleared .wrapperLock = false)
    (hlock : env.cleared .accountsLock = false) {T T' : Table} (hT : Akin L T₀ T)
    (hT' : Akin L T₀ T') (hx : Reads (env.occasion .lookupFrom) t.transactionFrom T x)
    (hy : Reads (env.occasion .lookupTo) t.transactionTo T' y)
    (hbx : isNotBlank x.accountNumber = true) (hby : isNotBlank y.accountNumber = true) :
    Follows (serve db) (Akin L T₀) (MoveStep db T₀ env t) (fun _ ph => ph = .refused) .refused
      (transactInAccounts env t [x,y]) := by
  show Follows _ _ _ _ _ (transactLoop env t 0 [x,y] x y)
  cases hg : currencyGuard x y t with
  | error e =>
    rw [transactLoop_cons]
    apply follows_get
    intro T₁ _
    refine ⟨.refused,.look trivial,?_,fun _ _ => rfl⟩
    intro found _
    cases found with
    | none => exact rfl
    | some a =>
      show Follows _ _ _ _ _ (visit env t 0 [y] x y a)
      rw [visit_guard hg]
      exact rfl
  | ok _ =>
    obtain ⟨u,hxu,hyu,htu⟩ := currencyGuard_ok.mp hg
    -- both accounts fit, so it is the amount that is missing
    have hfrom : Fits t t.transactionFrom T :=
      fits_of_reads (hu.of_identities hT.identities) hx hbx (hxu.trans htu.symm)
    have hto : Fits t t.transactionTo T' :=
      fits_of_reads (hu.of_identities hT'.identities) hy hby (hyu.trans htu.symm)
    have hamount : ¬ ∃ p, t.transactionAmount = some p := fun hp =>
      hadm ⟨hwrapper,hlock,hfrom.akin hT.symm,hto.akin hT'.symm,hp⟩
    apply transactLoop_follows h.kind
    · exact fun _ _ _ _ => .look trivial
    · intro pass account
      rw [fire_eq,Program.handle]
      apply Follows.cont (Q := fun _ ph => ph = .refused)
      · apply follows_lookup fun a ha => ⟨_,outgoing_unset ha⟩
        intro T₁ _
        refine ⟨.refused,.look trivial,?_,fun _ _ => rfl⟩
        intro a bf _ hbf
        obtain ⟨-,b,p,-,hp,-,-⟩ := outgoing_sound h.kind hbf
        exact absurd ⟨p,hp⟩ hamount
      · exact fun sides ph hph => hph
      · exact fun e ph hph => hph

end Loop

section Process

variable {db : Database} {T₀ : Table} {env : Env} {t : BankTransaction L}

open Classical in
noncomputable def startPhase (T₀ : Table) (env : Env) (t : BankTransaction L) : Phase (Option ℚ) :=
  if Admissible env t T₀ then .idle else .refused

/-- A call follows its phases, whatever other calls do in between. -/
theorem process_moves (hu : UniqueNumbers T₀) (h : Ordinary env t) :
    Follows (serve db) (Akin L T₀) (MoveStep db T₀ env t) (fun _ ph => ph.Ended)
      (startPhase T₀ env t) (processTransaction env t) := by
  by_cases hadm : Admissible env t T₀
  · rw [startPhase,if_pos hadm]
    apply process_follows (Q := fun ph => ph.Ended) h.kind
    · intro hl
      simp [hadm.wrapper] at hl
    · intro _
      apply consume_follows
      · exact fun T _ => .look trivial
      · exact fun T _ => .look trivial
      · intro hnot
        refine absurd ⟨hadm.lock,?_,?_⟩ hnot
        · intro T hT
          obtain ⟨a,ha⟩ := (hadm.fitsFrom.akin hT).reads (h.sound .lookupFrom)
          exact ⟨a,ha,((hadm.fitsFrom.akin hT).read ha).2.2⟩
        · intro T hT
          obtain ⟨a,ha⟩ := (hadm.fitsTo.akin hT).reads (h.sound .lookupTo)
          exact ⟨a,ha,((hadm.fitsTo.akin hT).read ha).2.2⟩
      · intro x y T T' hT hT' _ hx hy _ _
        obtain ⟨n,m,hb⟩ := between_of_reads h.kind h.different hx hy
        exact transact_moves hb h.sound hadm ((hadm.fitsFrom.akin hT).read hx).2.1
          ((hadm.fitsTo.akin hT').read hy).2.1
    · exact fun ph T hph _ => ⟨ph,.close hph,hph⟩
    · exact fun _ ph hph => hph
  · rw [startPhase,if_neg hadm]
    apply process_follows (Q := fun ph => ph = .refused) h.kind
    · exact fun _ => trivial
    · intro hwrapper
      apply consume_follows
      · exact fun T _ => .look trivial
      · exact fun T _ => .look trivial
      · exact fun _ => rfl
      · intro x y T T' hT hT' hlock hx hy hbx hby
        exact transact_stays hu h hadm hwrapper hlock hT hT' hx hy hbx hby
    · rintro ph T rfl -
      exact ⟨.refused,.close trivial,trivial⟩
    · rintro - ph rfl
      exact trivial

end Process

end HomeRest
