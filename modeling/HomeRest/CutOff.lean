import HomeRest.Serializability

/-! The table in the middle of a run.
What a call writes is two updates of their own, so between them the amount has left the one
account and has not come to the other. Apart from that, a run without stale writes has at every
moment the balances of some of its calls one after the other. -/
namespace HomeRest

open AtomicProgram UnlockedTransfer

variable {L : Libs} {ι : Type}

/-- The call has written the account of this number, by a step that worked. -/
def Wrote (history : List (ι × StoreCall L)) (i : ι) (n : Option String) : Prop :=
  ∃ occasion a, (i,.updateAccount occasion a) ∈ history ∧ occasion.fault = none ∧ a.accountNumber = n

/-- The from account is written, the to account is not. -/
def HalfWay (transaction : ι → BankTransaction L) (history : List (ι × StoreCall L)) (i : ι) : Prop :=
  Wrote history i (transaction i).transactionFrom ∧ ¬ Wrote history i (transaction i).transactionTo

section Wrote

variable {history : List (ι × StoreCall L)} {i j : ι} {op : StoreCall L} {n : Option String}

theorem wrote_other (hji : j ≠ i) : Wrote ((i,op) :: history) j n ↔ Wrote history j n := by
  simp [Wrote,hji]

theorem wrote_update (occasion : Occasion) (a : BankAccount L) :
    Wrote ((i,.updateAccount occasion a) :: history) i n ↔
      (occasion.fault = none ∧ a.accountNumber = n) ∨ Wrote history i n := by
  constructor
  · rintro ⟨o,b,hmem,hb⟩
    rcases List.mem_cons.mp hmem with he | hmem
    · cases he
      exact .inl hb
    · exact .inr ⟨o,b,hmem,hb⟩
  · rintro (ha | ⟨o,b,hmem,hb⟩)
    · exact ⟨occasion,a,List.mem_cons_self,ha⟩
    · exact ⟨o,b,List.mem_cons_of_mem _ hmem,hb⟩

theorem wrote_read (hop : ∀ occasion a, op ≠ .updateAccount occasion a) :
    Wrote ((i,op) :: history) i n ↔ Wrote history i n := by
  constructor
  · rintro ⟨o,b,hmem,hb⟩
    rcases List.mem_cons.mp hmem with he | hmem
    · exact absurd (Prod.mk.inj he).2.symm (hop o b)
    · exact ⟨o,b,hmem,hb⟩
  · rintro ⟨o,b,hmem,hb⟩
    exact ⟨o,b,List.mem_cons_of_mem _ hmem,hb⟩

theorem NoStaleWrite.suffix {later : List (ι × StoreCall L)}
    (h : NoStaleWrite (later ++ history)) : NoStaleWrite history := by
  induction later with
  | nil => exact h
  | cons event later ih => exact ih h.earlier

end Wrote

section Phases

variable {db : Database} {T₀ T : Table} {env : ι → Env} {transaction : ι → BankTransaction L}
  {history : List (ι × StoreCall L)} {phase : ι → Phase (Option ℚ)}

structure Shows (t : BankTransaction L) (history : List (ι × StoreCall L)) (i : ι)
    (ph : Phase (Option ℚ)) : Prop where
  debited : Wrote history i t.transactionFrom ↔ (∃ d, ph = .half d) ∨ ph = .done
  credited : Wrote history i t.transactionTo ↔ ph = .done

theorem Shows.halfWay {i : ι} (h : Shows (transaction i) history i (phase i)) :
    HalfWay transaction history i ↔ ∃ d, phase i = .half d := by
  rw [HalfWay,h.debited,h.credited]
  constructor
  · rintro ⟨hd | hd,hnot⟩
    · exact hd
    · exact absurd hd hnot
  · rintro ⟨d,hd⟩
    exact ⟨.inl ⟨d,hd⟩,by simp [hd]⟩

theorem MoveStep.shows {i : ι} {env : Env} {t : BankTransaction L} {op : StoreCall L}
    {ph ph' : Phase (Option ℚ)} (hne : t.transactionFrom ≠ t.transactionTo)
    (hstep : MoveStep db T₀ env t ph op T ph') (h : Shows t history i ph) :
    Shows t ((i,op) :: history) i ph' := by
  -- a move between phases that are not half way or done
  have hmove : ∀ op ph ph', Shows t history i ph → (∀ occasion a, op ≠ .updateAccount occasion a) →
      (((∃ d, ph' = .half d) ∨ ph' = .done) ↔ (∃ d, ph = .half d) ∨ ph = .done) →
      (ph' = .done ↔ ph = .done) → Shows t ((i,op) :: history) i ph' := by
    intro op ph ph' h hop hdebited hcredited
    exact ⟨(wrote_read hop).trans (h.debited.trans hdebited.symm),
      (wrote_read hop).trans (h.credited.trans hcredited.symm)⟩
  cases hstep with
  | look hsettled => exact hmove _ _ _ h (by simp) Iff.rfl Iff.rfl
  | take htake => exact hmove _ _ _ h (by simp) (by simp) (by simp)
  | refuse htake => exact hmove _ _ _ h (by simp) (by simp) (by simp)
  | read => exact hmove _ _ _ h (by simp) (by simp) (by simp)
  | close hended => exact hmove _ _ _ h (by simp) Iff.rfl Iff.rfl
  | @pay occasion a T b d hf hadm hn ha htake =>
    have hto : ¬ Wrote history i t.transactionTo := by
      rw [h.credited]
      simp
    refine ⟨?_,?_⟩
    · rw [wrote_update]
      exact iff_of_true (.inl ⟨hf,hn⟩) (.inl ⟨d,rfl⟩)
    · rw [wrote_update,hn]
      exact iff_of_false (fun hw => hw.elim (fun hw => hne hw.2) hto) (by simp)
  | @give occasion a T d hf hadm hn ha hput =>
    have hfrom : Wrote history i t.transactionFrom := h.debited.mpr (.inl ⟨d,rfl⟩)
    refine ⟨?_,?_⟩
    · rw [wrote_update]
      exact iff_of_true (.inr hfrom) (.inr rfl)
    · rw [wrote_update]
      exact iff_of_true (.inl ⟨hf,hn⟩) rfl

theorem MoveStep.half {env : Env} {t : BankTransaction L} {op : StoreCall L}
    {ph : Phase (Option ℚ)} {d : Option ℚ} (hstep : MoveStep db T₀ env t ph op T (.half d)) :
    ph = .half d ∨ Admissible env t T₀ := by
  cases hstep with
  | look hsettled => exact .inl rfl
  | pay hf hadm hn ha htake => exact .inr hadm
  | close hended => exact .inl rfl

theorem ended_decided {ph : Phase (Option ℚ)} (h : ph.Ended) : ph.Decided ∧ ¬ ∃ d, ph = .half d := by
  cases ph <;> simp_all [Phase.Ended,Phase.Decided]

variable (db T₀ env transaction) in
/-- What a history tells about the table and about the writes of each call. -/
structure Midway (history : List (ι × StoreCall L)) (T : Table) (phase : ι → Phase (Option ℚ)) :
    Prop where
  tracks : Tracks db T₀ env transaction history T phase
  shows : ∀ i, Shows (transaction i) history i (phase i)
  checked : ∀ i d, phase i = .half d → Admissible (env i) (transaction i) T₀

variable (db T₀ env transaction) in
/-- A call waits for a write that is going to be stale. -/
def Doom (history : List (ι × StoreCall L)) (T : Table) (phase : ι → Phase (Option ℚ)) : Prop :=
  Akin L T₀ T ∧ Doomed (asTransfers db T₀ env transaction) ⟨held T,phase,Stale history⟩

variable [DecidableEq ι]

theorem Midway.step (hne : ∀ i, (transaction i).transactionFrom ≠ (transaction i).transactionTo)
    (h : Midway db T₀ env transaction history T phase) {i : ι} {op : StoreCall L}
    {ph : Phase (Option ℚ)} (hstep : MoveStep db T₀ (env i) (transaction i) (phase i) op T ph)
    (hclean : NoStaleWrite ((i,op) :: history)) :
    Midway db T₀ env transaction ((i,op) :: history) (serve db op T).2
      (Function.update phase i ph) := by
  refine ⟨h.tracks.step hne hstep hclean,?_,?_⟩
  · intro j
    by_cases hji : j = i
    · subst hji
      rw [Function.update_self]
      exact hstep.shows (hne j) (h.shows j)
    · rw [Function.update_of_ne hji]
      exact ⟨(wrote_other hji).trans (h.shows j).debited,(wrote_other hji).trans (h.shows j).credited⟩
  · intro j d hj
    by_cases hji : j = i
    · subst hji
      rw [Function.update_self] at hj
      subst hj
      exact hstep.half.elim (h.checked j d) id
    · rw [Function.update_of_ne hji] at hj
      exact h.checked j d hj

/-- Without a stale write, no step takes the doom away. -/
theorem Doom.step (h : Doom db T₀ env transaction history T phase) {i : ι} {op : StoreCall L}
    {ph : Phase (Option ℚ)} (hstep : MoveStep db T₀ (env i) (transaction i) (phase i) op T ph)
    (hclean : NoStaleWrite ((i,op) :: history)) :
    Doom db T₀ env transaction ((i,op) :: history) (serve db op T).2 (Function.update phase i ph) := by
  obtain ⟨hakin,hdoom⟩ := h
  obtain ⟨hakin',hmove | ⟨hheld,hphase,hstale⟩⟩ := hstep.simulates hakin hclean
  · exact ⟨hakin',doomed_step hdoom hmove⟩
  · refine ⟨hakin',?_⟩
    rw [hheld,hphase,hstale]
    exact hdoom

omit [DecidableEq ι] in
theorem Doom.waits (h : Doom db T₀ env transaction history T phase) : ∃ i, ¬ (phase i).Ended := by
  rcases h.2 with ⟨i,d,hi,-⟩ | ⟨i,j,d,e,-,hi,-,-⟩
  · exact ⟨i,fun he => by simp [show phase i = .half d from hi,Phase.Ended] at he⟩
  · exact ⟨i,fun he => by simp [show phase i = .half d from hi,Phase.Ended] at he⟩

end Phases

section Calls

variable {db : Database} {T : Table} {env : ι → Env} {transaction : ι → BankTransaction L}

def processing (T : Table) (env : ι → Env) (transaction : ι → BankTransaction L) :
    Calls L ι :=
  startCalls T fun i => .processTransaction (env i) (transaction i)

theorem call_moves (hu : UniqueNumbers T) {env : Env} {t : BankTransaction L} (h : Ordinary env t) :
    Follows (serve db) (Akin L T) (MoveStep db T env t) (fun _ ph => ph.Ended) (startPhase T env t)
      (Call.processTransaction env t).program := by
  apply (process_moves hu h).cont
  · exact fun slot ph hph => hph
  · exact fun e ph hph => hph

theorem midway_start [Fintype ι] :
    Midway db T env transaction [] T fun i => startPhase T (env i) (transaction i) := by
  have hphase : ∀ i, startPhase T (env i) (transaction i) = .idle ∨
      startPhase T (env i) (transaction i) = .refused ∧ ∀ b,
        (asTransfers db T env transaction i).take b = none := by
    intro i
    by_cases hadm : Admissible (env i) (transaction i) T
    · exact .inl (if_pos hadm)
    · exact .inr ⟨if_neg hadm,take_inadmissible hadm⟩
  refine ⟨⟨Akin.refl T,Inv.start (s := ⟨held T,_,_⟩) hphase⟩,?_,?_⟩
  · intro i
    have hnone : ∀ n, ¬ Wrote ([] : List (ι × StoreCall L)) i n := by simp [Wrote]
    rcases hphase i with hi | ⟨hi,-⟩
    · exact ⟨by simp [hnone,hi],by simp [hnone,hi]⟩
    · exact ⟨by simp [hnone,hi],by simp [hnone,hi]⟩
  · intro i d hi
    rcases hphase i with h | ⟨h,-⟩ <;> simp [h] at hi

variable [DecidableEq ι]

theorem Doom.absurd {c : Calls L ι}
    {phase : ι → Phase (Option ℚ)} (h : Doom db T env transaction c.history c.shared phase)
    (hfollow : ∀ i, Follows (serve db) (Akin L T) (MoveStep db T (env i) (transaction i))
      (fun _ ph => ph.Ended) (phase i) (c.thread i)) (after : List ι)
    (hdone : (c.runs (serve db) after).Finished)
    (hclean : NoStaleWrite (c.runs (serve db) after).history) : False := by
  obtain ⟨phase',hdoom,hend⟩ := runs_follow (serve db)
    (fun i => MoveStep db T (env i) (transaction i)) (J := Akin L T) (Q := fun _ _ ph => ph.Ended)
    (I := Doom db T env transaction) (P := NoStaleWrite) (fun _ _ _ hd => hd.1)
    (fun _ _ hc => hc.earlier) (fun _ _ _ _ _ _ hd hstep hc => hd.step hstep hc) c phase h hfollow
    after hclean
  obtain ⟨i,hi⟩ := hdoom.waits
  obtain ⟨_,hph⟩ := (hend i).done (hdone i)
  exact hi hph

/-- The balances of the calls of an order, one after the other, less the amounts that calls half
way have still to add. -/
structure CutOff (db : Database) (T : Table) (env : ι → Env) (transaction : ι → BankTransaction L)
    (cut : Calls L ι) (order : List ι) : Prop where
  identities : cut.shared.identities = T.identities
  nodup : order.Nodup
  begun : ∀ i, Wrote cut.history i (transaction i).transactionFrom → i ∈ order
  returned : ∀ i, (cut.thread i).Done → i ∈ order ∧ ¬ HalfWay transaction cut.history i
  apart : ∀ i j, HalfWay transaction cut.history i → HalfWay transaction cut.history j →
    (transaction i).transactionTo = (transaction j).transactionTo → i = j
  outstanding : ∀ i, HalfWay transaction cut.history i → ∃ x, (transaction i).transactionAmount = some x ∧
    held (processAll db (order.map fun i => (env i,transaction i)) T) (transaction i).transactionTo =
      (held cut.shared (transaction i).transactionTo).map fun d => db.decimal (d+x)
  settled : ∀ n, (∀ i, HalfWay transaction cut.history i → (transaction i).transactionTo ≠ n) →
    held (processAll db (order.map fun i => (env i,transaction i)) T) n = held cut.shared n

theorem Midway.cutOff {cut : Calls L ι} {phase : ι → Phase (Option ℚ)}
    (hmid : Midway db T env transaction cut.history cut.shared phase) (hu : UniqueNumbers T)
    (h : ∀ i, Ordinary (env i) (transaction i)) (hended : ∀ i, (cut.thread i).Done → (phase i).Ended)
    (hsafe : ¬ Doomed (asTransfers db T env transaction) ⟨held cut.shared,phase,Stale cut.history⟩) :
    ∃ order, CutOff db T env transaction cut order := by
  have hhalf : ∀ i, HalfWay transaction cut.history i ↔ ∃ d, phase i = .half d :=
    fun i => (hmid.shows i).halfWay
  obtain ⟨order,horder⟩ := hmid.tracks.inv.serializable.resolve_left hsafe
  obtain ⟨-,hheld⟩ := processAll_applies db hu h order (Akin.refl T)
  refine ⟨order,hmid.tracks.akin.identities,horder.nodup,?_,?_,?_,?_,?_⟩
  · intro i hi
    rw [horder.decided i]
    show (phase i).Decided
    rcases (hmid.shows i).debited.mp hi with ⟨d,hd⟩ | hd
    · rw [hd]
      exact trivial
    · rw [hd]
      exact trivial
  · intro i hi
    rw [horder.decided i,hhalf i]
    exact ended_decided (hended i hi)
  · intro i j hi hj hto
    obtain ⟨d,hd⟩ := (hhalf i).mp hi
    obtain ⟨e,he⟩ := (hhalf j).mp hj
    by_contra hij
    exact hsafe (.inr ⟨i,j,d,e,hij,hd,he,hto⟩)
  · intro i hi
    obtain ⟨d,hd⟩ := (hhalf i).mp hi
    obtain ⟨x,hx⟩ := (hmid.checked i d hd).amount
    refine ⟨x,hx,?_⟩
    have hwaits := horder.waiting i d hd
    rw [hheld]
    refine hwaits.trans ?_
    simp [asTransfers,asTransfer,hx]
  · intro n hn
    rw [hheld]
    exact horder.others n fun i d hd => hn i ((hhalf i).mpr ⟨d,hd⟩)

/-- What a run that ends without stale writes leaves at any moment on its way: the table is cut
off from that of its calls one after the other by the second writes that are due. -/
theorem cutOff_explained [Fintype ι] (T : Table) (hu : UniqueNumbers T) (env : ι → Env)
    (transaction : ι → BankTransaction L) (h : ∀ i, Ordinary (env i) (transaction i))
    (before after : List ι)
    (hdone : ((processing T env transaction).runs (serve db) (before ++ after)).Finished)
    (hclean : NoStaleWrite ((processing T env transaction).runs (serve db)
      (before ++ after)).history) :
    ∃ order, CutOff db T env transaction ((processing T env transaction).runs (serve db) before)
      order := by
  have hruns : (processing T env transaction).runs (serve db) (before ++ after) =
      ((processing T env transaction).runs (serve db) before).runs (serve db) after :=
    List.foldl_append
  rw [hruns] at hdone hclean
  have hclean' : NoStaleWrite ((processing T env transaction).runs (serve db) before).history := by
    obtain ⟨later,hlater⟩ := Config.history_suffix (serve db)
      ((processing T env transaction).runs (serve db) before) after
    rw [← hlater] at hclean
    exact hclean.suffix
  obtain ⟨phase,hmid,hfollow⟩ := runs_follow (serve db)
    (fun i => MoveStep db T (env i) (transaction i)) (J := Akin L T) (Q := fun _ _ ph => ph.Ended)
    (I := Midway db T env transaction) (P := NoStaleWrite) (fun _ _ _ hm => hm.tracks.akin)
    (fun _ _ hc => hc.earlier)
    (fun _ _ _ _ _ _ hm hstep hc => hm.step (fun i => (h i).different) hstep hc)
    (processing T env transaction) _ midway_start (fun i => call_moves hu (h i)) before hclean'
  apply hmid.cutOff hu h
  · intro i hi
    obtain ⟨_,hph⟩ := (hfollow i).done hi
    exact hph
  · exact fun hdoom => Doom.absurd ⟨hmid.tracks.akin,hdoom⟩ hfollow after hdone hclean

end Calls

open Sample in
/-- The second transfer of 30 is cut off between its two writes, the first before its close step. -/
theorem cutOff_explained_sample : ∃ order, CutOff database twoRows (fun _ : Bool => env 100 fun _ => none)
    (fun _ => thirty) ((processing twoRows (fun _ => env 100 fun _ => none) fun _ => thirty).runs
      (serve database) (overlapping.take 13)) order :=
  cutOff_explained twoRows (by decide +kernel) _ _ (fun _ => thirty_ordinary) (overlapping.take 13)
    (overlapping.drop 13) (by rw [List.take_append_drop]; exact fun i => by cases i <;> decide +kernel)
    (by decide +kernel)

end HomeRest
