import Mathlib.Tactic

/-! Numbers written in groups of hexadecimal digits, with a dash between two groups. -/
namespace HexGroups

def digits : ℕ → ℕ → List Char
  | 0, _ => []
  | k+1, n => digits k (n/16) ++ [Nat.digitChar (n%16)]

def digit? (c : Char) : Option ℕ :=
  if '0' ≤ c ∧ c ≤ '9' then some (c.toNat-48)
  else if 'a' ≤ c ∧ c ≤ 'f' then some (c.toNat-87)
  else if 'A' ≤ c ∧ c ≤ 'F' then some (c.toNat-55)
  else none

def value? (cs : List Char) : Option ℕ := cs.foldlM (fun n c => (digit? c).map (16*n + ·)) 0

/-- One group of digits for each width, the last one with the last digits. -/
def groups : List ℕ → ℕ → List (List Char)
  | [], _ => []
  | k :: widths, n => digits k (n/16^widths.sum) :: groups widths n

def text (widths : List ℕ) (n : ℕ) : String := String.ofList (['-'].intercalate (groups widths n))

def parse (widths : List ℕ) (s : String) : Option ℕ :=
  let parts := s.toList.splitOn '-'
  if parts.map List.length = widths then value? parts.flatten else none

theorem digit_digitChar : ∀ d < 16, digit? (Nat.digitChar d) = some d := by decide

theorem digits_length (k n : ℕ) : (digits k n).length = k := by
  induction k generalizing n with
  | zero => rfl
  | succ k ih => rw [digits,List.length_append,ih,List.length_singleton]

theorem dash_digits (k n : ℕ) : '-' ∉ digits k n := by
  induction k generalizing n with
  | zero => exact List.not_mem_nil
  | succ k ih =>
    have hdigit : ∀ d < 16, '-' ≠ Nat.digitChar d := by decide
    simp only [digits,List.mem_append,List.mem_singleton,not_or]
    exact ⟨ih _,hdigit _ (Nat.mod_lt n (by omega))⟩

theorem digits_add (j k n : ℕ) : digits (j+k) n = digits j (n/16^k) ++ digits k n := by
  induction k generalizing n with
  | zero => simp [digits]
  | succ k ih =>
    have hdiv : n/16/16^k = n/16^(k+1) := by rw [Nat.div_div_eq_div_mul,pow_succ']
    rw [← Nat.add_assoc,digits,ih,hdiv,List.append_assoc]
    rfl

theorem value_digits (k n : ℕ) : value? (digits k n) = some (n%16^k) := by
  induction k generalizing n with
  | zero => simp [digits,value?,Nat.mod_one]
  | succ k ih =>
    have hfront : (digits k (n/16)).foldlM (fun n c => (digit? c).map (16*n + ·)) 0 =
        some (n/16%16^k) := ih (n/16)
    have hmod : n%16^(k+1) = n%16 + 16*(n/16%16^k) := by rw [pow_succ',Nat.mod_mul]
    rw [digits,value?,List.foldlM_append,hfront]
    simp [digit_digitChar _ (Nat.mod_lt n (by omega)),hmod,add_comm]

theorem groups_length (widths : List ℕ) (n : ℕ) : (groups widths n).map List.length = widths := by
  induction widths with
  | nil => rfl
  | cons k widths ih => rw [groups,List.map_cons,digits_length,ih]

theorem groups_flatten (widths : List ℕ) (n : ℕ) :
    (groups widths n).flatten = digits widths.sum n := by
  induction widths with
  | nil => rfl
  | cons k widths ih => rw [groups,List.flatten_cons,ih,List.sum_cons,digits_add]

theorem dash_groups {widths : List ℕ} {n : ℕ} : ∀ part ∈ groups widths n, '-' ∉ part := by
  induction widths with
  | nil => simp [groups]
  | cons k widths ih =>
    simp only [groups,List.forall_mem_cons]
    exact ⟨dash_digits _ _,ih⟩

/-- A number that fits the widths is read back from its text. -/
theorem parse_text {widths : List ℕ} (hw : widths ≠ []) {n : ℕ} (hn : n < 16^widths.sum) :
    parse widths (text widths n) = some n := by
  have hne : groups widths n ≠ [] := by
    cases widths with
    | nil => exact absurd rfl hw
    | cons k widths => simp [groups]
  have hparts : (text widths n).toList.splitOn '-' = groups widths n := by
    rw [text,String.toList_ofList,List.splitOn_intercalate '-' dash_groups hne]
  simp only [parse,hparts,groups_length,ite_true,groups_flatten,value_digits,Nat.mod_eq_of_lt hn]

end HexGroups
