import Mathlib.Algebra.Order.Field.Rat
import Mathlib.Tactic

/-! Decimals as text: what `new BigDecimal( String )` reads, and `toPlainString` writes.
A number is an optional sign, digits with an optional point between or beside them, and an
optional exponent. The digits may be of any script; the exponent and the scale must each fit
into 32 bits. -/
namespace DecimalText

/-- The zeros of the digits that `Character.isDigit` knows among 16 bit characters. -/
def zeros : List ℕ :=
  [0x30,0x660,0x6F0,0x7C0,0x966,0x9E6,0xA66,0xAE6,0xB66,0xBE6,0xC66,0xCE6,0xD66,0xE50,0xED0,0xF20,
    0x1040,0x1090,0x17E0,0x1810,0x1946,0x19D0,0x1A80,0x1A90,0x1B50,0x1BB0,0x1C40,0x1C50,0xA620,
    0xA8D0,0xA900,0xA9D0,0xAA50,0xABF0,0xFF10]

/-- `Character.digit( c, 10 )`. -/
def digit (c : Char) : Option ℕ :=
  zeros.findSome? fun z => if z ≤ c.toNat ∧ c.toNat < z+10 then some (c.toNat-z) else none

def fitsInt (n : ℤ) : Bool := -2^31 ≤ n ∧ n < 2^31

def exponentDigits : ℕ → List Char → Option ℕ
  | _, [] => none
  | value, [c] => (digit c).map fun d => 10*value+d
  | value, c :: rest => (digit c).bind fun d => exponentDigits (10*value+d) rest

/-- `parseExp`, and the check that the exponent is an `int`. -/
def exponent (cs : List Char) : Option ℤ :=
  let signed : Option ℤ :=
    match cs with
    | '-' :: rest => (exponentDigits 0 rest).map fun e => -(e : ℤ)
    | '+' :: rest => (exponentDigits 0 rest).map fun e => (e : ℤ)
    | rest => (exponentDigits 0 rest).map fun e => (e : ℤ)
  signed.filter fitsInt

/-- What is read: the digits as one number, how many of them stand behind the point, and the
exponent. -/
structure Scanned where
  unscaled : ℕ
  scale : ℕ
  exponent : ℤ
  deriving DecidableEq

/-- The loop over the characters; `dot` and `any` tell whether a point and a digit were met. -/
def scan : Bool → Bool → ℕ → ℕ → List Char → Option Scanned
  | _, any, unscaled, scale, [] => if any then some ⟨unscaled,scale,0⟩ else none
  | dot, any, unscaled, scale, c :: rest =>
    match digit c with
    | some d => scan dot true (10*unscaled+d) (if dot then scale+1 else scale) rest
    | none =>
      if c = '.' then
        if dot then none else scan true any unscaled scale rest
      else if c = 'e' ∨ c = 'E' then
        if any then (exponent rest).map fun e => ⟨unscaled,scale,e⟩ else none
      else none

def Scanned.value (n : Scanned) : Option ℚ :=
  if fitsInt (n.scale-n.exponent) then some (n.unscaled*10^(n.exponent-n.scale)) else none

/-- `new BigDecimal( s )`; `none` stands for the `NumberFormatException`. -/
def parse (s : String) : Option ℚ :=
  match s.toList with
  | '-' :: rest => ((scan false false 0 0 rest).bind Scanned.value).map fun d => -d
  | '+' :: rest => (scan false false 0 0 rest).bind Scanned.value
  | rest => (scan false false 0 0 rest).bind Scanned.value

def fraction : ℕ → ℕ → List Char
  | 0, _ => []
  | k+1, n => fraction k (n/10) ++ [Nat.digitChar (n%10)]

/-- `toPlainString()` of an unscaled value with a scale that is not negative. -/
def plain (scale : ℕ) (unscaled : ℤ) : String :=
  String.ofList ((if unscaled < 0 then ['-'] else []) ++ Nat.toDigits 10 (unscaled.natAbs/10^scale) ++
    if scale = 0 then [] else '.' :: fraction scale unscaled.natAbs)

theorem digit_digitChar : ∀ d < 10, digit (Nat.digitChar d) = some d := by decide

theorem scan_digit {d : ℕ} (h : d < 10) (dot any : Bool) (unscaled scale : ℕ) (rest : List Char) :
    scan dot any unscaled scale (Nat.digitChar d :: rest) =
      scan dot true (10*unscaled+d) (if dot then scale+1 else scale) rest := by
  simp only [scan,digit_digitChar d h]

theorem scan_whole (n : ℕ) (any : Bool) (rest : List Char) :
    scan false any 0 0 (Nat.toDigits 10 n ++ rest) = scan false true n 0 rest := by
  induction n using Nat.strong_induction_on generalizing rest with
  | _ n ih =>
    rcases lt_or_ge n 10 with h | h
    · rw [Nat.toDigits_of_lt_base h,List.singleton_append,scan_digit h]
      simp
    · rw [Nat.toDigits_of_base_le (by omega) h,List.append_assoc,ih (n/10) (by omega),List.singleton_append,
        scan_digit (Nat.mod_lt n (by omega)),Nat.div_add_mod]
      rfl

theorem scan_fraction (k n unscaled scale : ℕ) (rest : List Char) :
    scan true true unscaled scale (fraction k n ++ rest) =
      scan true true (unscaled*10^k+n%10^k) (scale+k) rest := by
  induction k generalizing n rest with
  | zero => simp [fraction,Nat.mod_one]
  | succ k ih =>
    have hvalue : 10*(unscaled*10^k+n/10%10^k)+n%10 = unscaled*10^(k+1)+n%10^(k+1) := by
      rw [pow_succ',Nat.mod_mul]
      ring
    rw [fraction,List.append_assoc,ih,List.singleton_append,scan_digit (Nat.mod_lt n (by omega)),
      hvalue]
    rfl

theorem scan_plain (scale n : ℕ) :
    scan false false 0 0 (Nat.toDigits 10 (n/10^scale) ++
      if scale = 0 then [] else '.' :: fraction scale n) = some ⟨n,scale,0⟩ := by
  rw [scan_whole]
  split_ifs with h
  · simp [h,scan]
  · have hdot : digit '.' = none := by decide
    have hread := scan_fraction scale n (n/10^scale) 0 []
    rw [List.append_nil,Nat.div_add_mod',Nat.zero_add] at hread
    simp only [scan,hdot,ite_true,Bool.false_eq_true,ite_false,hread]

theorem parse_unsigned {n : ℕ} (rest : List Char) :
    parse (String.ofList (Nat.toDigits 10 n ++ rest)) =
      (scan false false 0 0 (Nat.toDigits 10 n ++ rest)).bind Scanned.value := by
  have hne : Nat.toDigits 10 n ≠ [] := Nat.toDigits_ne_nil
  obtain ⟨c,cs,hcs⟩ := List.exists_cons_of_ne_nil hne
  have hc : c.isDigit = true :=
    Nat.isDigit_of_mem_toDigits (b := 10) (n := n) (by omega) (by omega) (by simp [hcs])
  have hminus : c ≠ '-' := by
    rintro rfl
    exact absurd hc (by decide)
  have hplus : c ≠ '+' := by
    rintro rfl
    exact absurd hc (by decide)
  simp [parse,hcs,hminus,hplus]

/-- What is written is read. -/
theorem parse_plain {scale : ℕ} (hscale : scale < 2^31) (unscaled : ℤ) :
    parse (plain scale unscaled) = some ((unscaled : ℚ)/10^scale) := by
  have hfits : fitsInt (scale : ℤ) = true := by
    simp only [fitsInt,decide_eq_true_eq]
    omega
  have hvalue : Scanned.value ⟨unscaled.natAbs,scale,0⟩ = some ((unscaled.natAbs : ℚ)/10^scale) := by
    simp [Scanned.value,hfits,div_eq_mul_inv]
  rcases lt_or_ge unscaled 0 with h | h
  · have habs : ((unscaled.natAbs : ℕ) : ℚ) = -unscaled := by
      rw [Nat.cast_natAbs,abs_of_neg h,Int.cast_neg]
    simp only [plain,h,ite_true,parse,String.toList_ofList,List.cons_append,List.nil_append]
    rw [scan_plain,Option.bind_some,hvalue,habs,Option.map_some,neg_div,neg_neg]
  · have habs : ((unscaled.natAbs : ℕ) : ℚ) = unscaled := by
      rw [Nat.cast_natAbs,abs_of_nonneg h]
    simp only [plain,not_lt.mpr h,ite_false,List.nil_append]
    rw [parse_unsigned,scan_plain,Option.bind_some,hvalue,habs]

example : parse "12.50" = some (25/2) := by decide +kernel
example : parse "-.5e+1" = some (-5) := by decide +kernel
example : parse " 1" = none ∧ parse "1e" = none ∧ parse "." = none := by decide +kernel

end DecimalText
