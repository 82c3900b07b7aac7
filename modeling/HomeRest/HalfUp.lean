import Mathlib.Algebra.Order.Floor.Ring
import Mathlib.Data.Rat.Floor
import Mathlib.Tactic

/-! Rounding half up, away from zero, to a number of fraction digits. -/
namespace HalfUp

/-- To the nearest integer; a half goes away from zero. -/
def round (x : ℚ) : ℤ := if 0 ≤ x then ⌊x+1/2⌋ else -⌊-x+1/2⌋

def toScale (k : ℕ) (x : ℚ) : ℚ := (round (10^k*x) : ℚ) / 10^k

theorem round_of_nonneg {x : ℚ} (h : 0 ≤ x) : round x = ⌊x+1/2⌋ := if_pos h

theorem round_nonneg {x : ℚ} (h : 0 ≤ x) : 0 ≤ round x := by
  rw [round_of_nonneg h]
  exact Int.floor_nonneg.mpr (by linarith)

theorem toScale_nonneg (k : ℕ) {x : ℚ} (h : 0 ≤ x) : 0 ≤ toScale k x := by
  have hk : (0 : ℚ) < 10^k := by positivity
  have hr : 0 ≤ round (10^k*x) := round_nonneg (mul_nonneg hk.le h)
  exact div_nonneg (by exact_mod_cast hr) hk.le

theorem round_intCast (n : ℤ) : round n = n := by
  have hhalf : ∀ m : ℤ, ⌊(m : ℚ)+1/2⌋ = m := fun m =>
    Int.floor_eq_iff.mpr ⟨by linarith,by linarith⟩
  unfold round
  split_ifs
  · exact hhalf n
  · have hneg : -(n : ℚ)+1/2 = ((-n : ℤ) : ℚ)+1/2 := by push_cast; ring
    rw [hneg,hhalf,neg_neg]

theorem round_neg_iff {x : ℚ} : round x < 0 ↔ x ≤ -(1/2) := by
  by_cases h : 0 ≤ x
  · exact iff_of_false (not_lt.mpr (round_nonneg h)) (by linarith)
  · rw [round,if_neg h,neg_lt_zero,← Int.add_one_le_iff,Int.le_floor]
    push_cast
    constructor <;> intro hx <;> linarith

theorem toScale_neg_iff (k : ℕ) {x : ℚ} : toScale k x < 0 ↔ 10^k*x ≤ -(1/2) := by
  have hk : (0 : ℚ) < 10^k := by positivity
  rw [toScale,div_lt_iff₀ hk,zero_mul,Int.cast_lt_zero,round_neg_iff]

theorem toScale_eq_self (k : ℕ) {x : ℚ} : toScale k x = x ↔ ∃ n : ℤ, x = n/10^k := by
  have hk : (10 : ℚ)^k ≠ 0 := by positivity
  constructor
  · exact fun h => ⟨round (10^k*x),h.symm⟩
  · rintro ⟨n,rfl⟩
    rw [toScale,mul_div_cancel₀ _ hk,round_intCast]

/-- The two roundings make up for each other unless they both meet a half. -/
theorem floor_half_add (y : ℚ) : ⌊1/2-y⌋ + ⌊y+1/2⌋ = 0 ↔ Int.fract y ≠ 1/2 := by
  have hy : (⌊y⌋ : ℚ) + Int.fract y = y := Int.floor_add_fract y
  have hf0 := Int.fract_nonneg y
  have hf1 := Int.fract_lt_one y
  have hleft : ⌊1/2-y⌋ = -⌊y⌋ + ⌊1/2-Int.fract y⌋ := by
    rw [← Int.floor_intCast_add]
    congr 1
    push_cast
    linarith
  have hright : ⌊y+1/2⌋ = ⌊y⌋ + ⌊Int.fract y+1/2⌋ := by
    rw [← Int.floor_intCast_add]
    congr 1
    linarith
  rw [hleft,hright]
  rcases lt_trichotomy (Int.fract y) (1/2) with hlt | heq | hgt
  · have h₁ : ⌊1/2-Int.fract y⌋ = 0 := Int.floor_eq_zero_iff.mpr ⟨by linarith,by linarith⟩
    have h₂ : ⌊Int.fract y+1/2⌋ = 0 := Int.floor_eq_zero_iff.mpr ⟨by linarith,by linarith⟩
    rw [h₁,h₂]
    exact ⟨fun _ => hlt.ne,fun _ => by ring⟩
  · rw [heq]
    norm_num
  · have h₁ : ⌊1/2-Int.fract y⌋ = -1 := Int.floor_eq_iff.mpr ⟨by push_cast; linarith,by push_cast; linarith⟩
    have h₂ : ⌊Int.fract y+1/2⌋ = 1 := Int.floor_eq_iff.mpr ⟨by push_cast; linarith,by push_cast; linarith⟩
    rw [h₁,h₂]
    exact ⟨fun _ => hgt.ne',fun _ => by ring⟩

/-- Two integers of which `y` is moved from one to the other, each rounded on its own. -/
theorem round_split {m n : ℤ} {y : ℚ} (hm : 0 ≤ (m : ℚ)-y) (hn : 0 ≤ (n : ℚ)+y) :
    round (m-y) + round (n+y) = m+n ↔ Int.fract y ≠ 1/2 := by
  have hfrom : round (m-y) = m + ⌊1/2-y⌋ := by
    rw [round_of_nonneg hm,← Int.floor_intCast_add]
    congr 1
    ring
  have hto : round (n+y) = n + ⌊y+1/2⌋ := by
    rw [round_of_nonneg hn,← Int.floor_intCast_add]
    congr 1
    ring
  rw [hfrom,hto,← floor_half_add]
  constructor <;> intro h <;> linarith

theorem toScale_split (k : ℕ) {m n : ℤ} {b d x : ℚ} (hb : b = m/10^k) (hd : d = n/10^k)
    (hbx : 0 ≤ b-x) (hdx : 0 ≤ d+x) :
    toScale k (b-x) + toScale k (d+x) = b+d ↔ Int.fract (10^k*x) ≠ 1/2 := by
  have hk : (0 : ℚ) < 10^k := by positivity
  have hm : 10^k*(b-x) = m-10^k*x := by rw [hb]; field_simp
  have hn : 10^k*(d+x) = n+10^k*x := by rw [hd]; field_simp
  rw [← round_split (hm ▸ mul_nonneg hk.le hbx) (hn ▸ mul_nonneg hk.le hdx)]
  simp only [toScale,hm,hn]
  rw [hb,hd,← add_div,← add_div,div_left_inj' hk.ne']
  norm_cast

end HalfUp
