import HomeRest.Independence
import HomeRest.Turns

/-! Every call ends.
No lock is held between two calls and no step is tried again, so a call takes a bounded
number of steps of its own, whatever these answer or fail with and whatever other calls do. -/
namespace HomeRest

open AtomicProgram

variable {L : Libs} {ι : Type}

section Bounds

variable (env : Env) (t : BankTransaction L)

theorem within_get (site : Site) (number : Option String) :
    Within 1 (callGetAccountByNumber env site number : Code L _) := within_perform _
theorem within_update (site : Site) (a : BankAccount L) : Within 1 (callUpdateAccount env site a) :=
  within_perform _
theorem within_log (now : Millis) (a : BankAccount L) : Within 0 (logAccount now a) :=
  within_ofExcept 0 _
theorem within_lock (get : WeakGet) : Within 0 (lockGet env get : Code L Unit) := by
  rw [lockGet]
  split_ifs <;> simp

theorem within_readSide (number : Option String) (status : ℤ) (read stamp balance : Site)
    (sign : ℚ → ℚ) (complaint : String) :
    Within 1 (readSide env t number status read stamp balance sign complaint) := by
  refine (within_get env read number).andThen (m := 0) fun found => ?_
  refine (within_ofExcept 0 _).free fun side => ?_
  refine (within_log _ side).free fun _ => ?_
  exact (within_ofExcept 0 _).free fun _ => within_ofExcept 0 _

/-- A block reads both rows and writes both. -/
theorem within_block (pass : ℕ) (account : BankAccount L) (signFrom signTo : ℚ → ℚ)
    (complaintFrom complaintTo : String) :
    Within 4 (transferBlock env pass t account signFrom signTo complaintFrom complaintTo) := by
  refine Within.cont (n := 4) (m := 0) ?_ (fun _ => within_ret _ _) fun _ => within_raise _ _
  refine (within_readSide env t _ _ _ _ _ _ _).andThen (m := 3) fun balanceFrom => ?_
  refine (within_readSide env t _ _ _ _ _ _ _).andThen (m := 2) fun balanceTo => ?_
  refine (within_log _ balanceFrom).free fun _ => ?_
  refine (within_update env _ balanceFrom).andThen (m := 1) fun _ => ?_
  refine (within_log _ balanceTo).free fun _ => ?_
  exact (within_update env _ balanceTo).andThen (m := 0) fun _ => within_ret _ _

theorem within_creditBranch (pass : ℕ) (account : BankAccount L) :
    Within 4 (creditBranch env pass t account) :=
  (within_log _ account).free fun _ => within_block env t pass account _ _ _ _

theorem within_debitBranch (pass : ℕ) (account : BankAccount L) :
    Within 4 (debitBranch env pass t account) :=
  (within_log _ account).free fun _ => within_block env t pass account _ _ _ _

theorem within_loop (collection : List (BankAccount L)) (pass : ℕ)
    (balanceFrom balanceTo : BankAccount L) :
    Within (collection.length*5) (transactLoop env t pass collection balanceFrom balanceTo) := by
  induction collection generalizing pass balanceFrom balanceTo with
  | nil => exact within_ret _ _
  | cons z rest ih =>
    have hrest : ∀ sides : BankAccount L × BankAccount L, Within (rest.length*5)
        (transactLoop env t (pass+1) rest sides.1 sides.2) := fun sides => ih _ _ _
    have hlength : (z :: rest).length*5 = 1+(4+rest.length*5) := by
      rw [List.length_cons]
      omega
    rw [hlength]
    refine (within_get env _ _).andThen fun found => ?_
    refine (within_ofExcept 0 _).free fun account => ?_
    refine (within_ofExcept 0 _).free fun _ => ?_
    refine (within_ofExcept 0 _).free fun branch => ?_
    cases branch with
    | credit => exact (within_creditBranch env t pass account).andThen hrest
    | debit => exact (within_debitBranch env t pass account).andThen hrest
    | sameAccount => exact within_raise _ _
    | skip => exact (hrest (balanceFrom,balanceTo)).mono (by omega)

theorem within_lookedUp (accountFrom found : Option (BankAccount L)) :
    Within 10 (lookedUp env t accountFrom found) := by
  cases found with
  | none => exact within_raise _ _
  | some accountTo =>
    dsimp only [lookedUp]
    split_ifs
    · cases accountFrom with
      | some x =>
        refine (within_loop env t [x,accountTo] 0 x accountTo).andThen (m := 0) fun result => ?_
        refine (within_log _ x).free fun _ => ?_
        exact (within_log _ accountTo).free fun _ => within_ret _ _
      | none => exact (within_log _ accountTo).free fun _ => within_ret _ _
    · exact within_ret _ _

theorem within_consume : Within 12 (FunctorBiConsumeService4Accounts.consume env t) := by
  have hto : ∀ accountFrom, Within 11 (lookUpTo env t accountFrom) := fun accountFrom =>
    (within_get env _ _).andThen (m := 10) fun found => within_lookedUp env t accountFrom found
  refine (within_lock env _).free fun _ => ?_
  refine (within_get env _ _).andThen (m := 11) fun found => ?_
  cases found with
  | none => exact (within_lock env _).free fun _ => within_ret _ _
  | some foundFrom =>
    dsimp only
    split_ifs
    · exact (within_log _ foundFrom).free fun _ => hto (some foundFrom)
    · exact hto none

theorem within_accounts : Within 12 (FunctorBiConsumeService4Accounts.accept env t) :=
  (within_consume env t).cont (m := 0) (fun _ => within_ret _ _)
    fun _ => (within_lock env _).free fun _ => within_ret _ _

theorem within_transactions : Within 1 (FunctorBiConsumeService4Transactions.accept env t) := by
  refine Within.cont (n := 1) (m := 0) ?_ (fun _ => within_ret _ _)
    fun _ => (within_lock env _).free fun _ => within_ret _ _
  refine (within_lock env _).free fun _ => ?_
  exact (within_perform _).andThen (m := 0) fun _ => within_ret _ _

theorem within_adopt (get getAgain : WeakGet) (slot : Throwable) (exception : Option Throwable) :
    Within 0 (ConcurrencyAccess.adopt env get getAgain slot exception : Code L _) := by
  cases exception <;> simp only [ConcurrencyAccess.adopt] <;> split_ifs <;> simp

theorem within_runFunctors : Within 13 (ConcurrencyAccess.runFunctors env t) := by
  refine Within.andThen (n := 12) (m := 1) ?_ fun exception => ?_
  · refine Within.cont (n := 12) (m := 0) ?_ (fun _ => within_ret _ _) fun _ => within_ret _ _
    exact (within_accounts env t).andThen (m := 0) fun slot => within_adopt env _ _ _ _
  · refine Within.cont (n := 1) (m := 0) ?_ (fun _ => within_ret _ _) fun _ => within_ret _ _
    exact (within_transactions env t).andThen (m := 0) fun slot => within_adopt env _ _ _ _

theorem within_wrapper : Within 13 (ConcurrencyAccess.run env t) := by
  refine Within.cont (n := 13) (m := 0) ?_ (fun _ => within_ret _ _) fun _ => within_ret _ _
  refine (within_ofExcept 0 _).free fun _ => ?_
  exact (within_lock env _).free fun _ => within_runFunctors env t

theorem within_processTransaction : Within 13 (processTransaction env t) := by
  refine Within.andThen (n := 13) (m := 0) ?_ fun returned => ?_
  · refine Within.cont (n := 13) (m := 0) ?_ (fun _ => within_ret _ _) fun _ => within_ret _ _
    refine (within_ofExcept 0 _).free fun debit => ?_
    refine (within_ofExcept 0 _).free fun credit => ?_
    split_ifs
    · exact (within_wrapper env t).andThen (m := 0) fun _ => within_ret _ _
    · exact within_ret _ _
  · cases returned with
    | some exception => exact within_ret _ _
    | none => exact within_raise _ _

end Bounds

def Call.turns : Call L → ℕ
  | .processTransaction _ _ => 13
  | .putAccount _ _ => 1

theorem Call.within (call : Call L) : Within call.turns call.program := by
  cases call with
  | processTransaction env t =>
    exact (within_processTransaction env t).andThen (m := 0) fun _ => within_ret _ _
  | putAccount occasion a => exact (within_perform _).andThen (m := 0) fun _ => within_ret _ _

/-- Every call ends within its turns, however the turns of the calls are mixed and whatever
steps fail: no call waits for another one. -/
theorem calls_finish [DecidableEq ι] (db : Database) (T : Table) (calls : ι → Call L)
    (schedule : List ι) (h : ∀ i, (calls i).turns ≤ schedule.count i) :
    ((startCalls T calls).runs (serve db) schedule).Finished :=
  runs_finished _ schedule fun i => (calls i).within.mono (h i)

open Sample in
theorem calls_finish_sample :
    ((startCalls twoRows besides).runs (serve database)
      (List.replicate 13 false ++ [true])).Finished :=
  calls_finish database twoRows besides _ (by decide)

open Sample in
/-- A transfer of an account to itself enters its branch twice and takes all of its turns. -/
example : ¬ ((startCalls [row 1 iban₁ 100] fun _ : Unit => .processTransaction (env 100 fun _ => none)
    (transfer 1 30000 iban₁ iban₁)).runs (serve database) (List.replicate 12 ())).Finished :=
  fun h => absurd (h ()) (by decide +kernel)

end HomeRest
