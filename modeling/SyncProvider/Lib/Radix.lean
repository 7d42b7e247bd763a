import Mathlib.Data.Nat.Digits.Lemmas
import Mathlib.Data.String.Basic

/-!
# Numbers written with a fixed count of digits

A number of `k` digits in base `b`, most significant digit first. When the symbols
of the digits are ordered as the digits are, texts of one length are ordered as the
numbers are.

Results:
1. `value_digits`, `digits_append` : the digits of a number, and of one in two parts.
2. `digits_eq_map` : the digits one by one.
3. `map_lt_map_iff` : the order of texts.
-/

namespace Radix

/-! ## 1. Digits -/

/-- The number with these digits, most significant first. -/
def value (b : ℕ) (ds : List ℕ) : ℕ := Nat.ofDigits b ds.reverse

@[simp] theorem value_nil (b : ℕ) : value b [] = 0 := rfl

theorem value_append (b : ℕ) (ds es : List ℕ) :
    value b (ds ++ es) = value b ds * b ^ es.length + value b es := by
  unfold value
  rw [List.reverse_append, Nat.ofDigits_append, List.length_reverse, add_comm, mul_comm]

theorem value_cons (b d : ℕ) (ds : List ℕ) :
    value b (d :: ds) = d * b ^ ds.length + value b ds := by
  rw [← List.singleton_append, value_append]
  unfold value
  rw [List.reverse_singleton, Nat.ofDigits_singleton]

theorem value_snoc (b d : ℕ) (ds : List ℕ) : value b (ds ++ [d]) = value b ds * b + d := by
  rw [value_append, value_cons]
  simp

theorem value_lt {b : ℕ} (hb : 1 < b) {ds : List ℕ} (h : ∀ d ∈ ds, d < b) :
    value b ds < b ^ ds.length := by
  unfold value
  rw [← List.length_reverse]
  exact Nat.ofDigits_lt_base_pow_length hb fun d hd => h d (List.mem_reverse.mp hd)

/-- The last `k` digits of a number. -/
def digits (b : ℕ) : ℕ → ℕ → List ℕ
  | 0, _ => []
  | k + 1, n => digits b k (n / b) ++ [n % b]

@[simp] theorem length_digits (b k n : ℕ) : (digits b k n).length = k := by
  induction k generalizing n with
  | zero => rfl
  | succ k ih => rw [digits, List.length_append, ih, List.length_singleton]

theorem digits_lt {b : ℕ} (hb : 0 < b) {k n d : ℕ} (h : d ∈ digits b k n) : d < b := by
  induction k generalizing n with
  | zero => cases h
  | succ k ih =>
    rcases List.mem_append.mp h with h | h
    · exact ih h
    · obtain rfl := List.mem_singleton.mp h
      exact Nat.mod_lt n hb

theorem value_digits {b k n : ℕ} (h : n < b ^ k) : value b (digits b k n) = n := by
  induction k generalizing n with
  | zero =>
    have hzero : n = 0 := by simpa using h
    rw [hzero]
    rfl
  | succ k ih =>
    have hdiv : n / b < b ^ k := Nat.div_lt_of_lt_mul (by rwa [Nat.pow_succ, mul_comm] at h)
    rw [digits, value_snoc, ih hdiv, mul_comm]
    exact Nat.div_add_mod n b

/-- The digits that a number was written with. -/
theorem digits_value {b : ℕ} {ds : List ℕ} (h : ∀ d ∈ ds, d < b) :
    digits b ds.length (value b ds) = ds := by
  induction ds using List.reverseRecOn with
  | nil => rfl
  | append_singleton ds d ih =>
    obtain ⟨hds, hd⟩ := List.forall_mem_append.mp h
    have hlt : d < b := hd d List.mem_cons_self
    have hquotient : (value b ds * b + d) / b = value b ds := by
      rw [mul_comm, Nat.mul_add_div (Nat.zero_lt_of_lt hlt), Nat.div_eq_of_lt hlt, add_zero]
    have hremainder : (value b ds * b + d) % b = d := by
      rw [mul_comm, Nat.mul_add_mod, Nat.mod_eq_of_lt hlt]
    rw [List.length_append, List.length_singleton, value_snoc, digits, hquotient, hremainder,
      ih hds]

/-- The digits of a number in two parts. -/
theorem digits_append {b j lo : ℕ} (hb : 0 < b) (hlo : lo < b ^ j) (k hi : ℕ) :
    digits b (k + j) (hi * b ^ j + lo) = digits b k hi ++ digits b j lo := by
  induction j generalizing lo with
  | zero =>
    have hzero : lo = 0 := by simpa using hlo
    simp [hzero, digits]
  | succ j ih =>
    have hdiv : lo / b < b ^ j := Nat.div_lt_of_lt_mul (by rwa [Nat.pow_succ, mul_comm] at hlo)
    have hquotient : (hi * b ^ (j + 1) + lo) / b = hi * b ^ j + lo / b := by
      rw [Nat.pow_succ, ← mul_assoc, mul_comm _ b, Nat.mul_add_div hb]
    have hremainder : (hi * b ^ (j + 1) + lo) % b = lo % b := by
      rw [Nat.pow_succ, ← mul_assoc, mul_comm _ b, Nat.mul_add_mod]
    rw [← Nat.add_assoc, digits, hquotient, hremainder, ih hdiv, digits, List.append_assoc]

/-! ## 2. One digit -/

theorem digits_eq_map (b k n : ℕ) :
    digits b k n = (List.range k).map fun i => n / b ^ (k - 1 - i) % b := by
  induction k generalizing n with
  | zero => rfl
  | succ k ih =>
    rw [digits, ih, List.range_succ, List.map_append]
    congr 1
    · refine List.map_congr_left fun i hi => ?_
      have hexp : k + 1 - 1 - i = (k - 1 - i) + 1 := by
        have := List.mem_range.mp hi
        omega
      rw [hexp, Nat.pow_succ, mul_comm, Nat.div_div_eq_div_mul]
    · simp

/-! ## 3. The order of texts -/

/-- Texts of one length are ordered as the numbers they write. -/
theorem map_lt_map_iff {α : Type*} [LinearOrder α] {b : ℕ} {symbol : ℕ → α}
    (hsymbol : ∀ d < b, ∀ e < b, d < e → symbol d < symbol e) (hb : 1 < b) {ds es : List ℕ}
    (hds : ∀ d ∈ ds, d < b) (hes : ∀ d ∈ es, d < b) (hlength : ds.length = es.length) :
    ds.map symbol < es.map symbol ↔ value b ds < value b es := by
  induction ds generalizing es with
  | nil =>
    obtain rfl := List.eq_nil_of_length_eq_zero hlength.symm
    simp
  | cons d ds ih =>
    cases es with
    | nil => cases hlength
    | cons e es =>
      obtain ⟨hd, hds⟩ := List.forall_mem_cons.mp hds
      obtain ⟨he, hes⟩ := List.forall_mem_cons.mp hes
      have hlen : ds.length = es.length := Nat.succ.inj hlength
      have hlow : value b ds < b ^ es.length := hlen ▸ value_lt hb hds
      have hlow' : value b es < b ^ es.length := value_lt hb hes
      rw [List.map_cons, List.map_cons, List.cons_lt_cons_iff, ih hds hes hlen, value_cons,
        value_cons, hlen]
      rcases lt_trichotomy d e with hlt | rfl | hgt
      · have hstep : (d + 1) * b ^ es.length ≤ e * b ^ es.length := Nat.mul_le_mul_right _ hlt
        rw [Nat.succ_mul] at hstep
        exact iff_of_true (.inl (hsymbol d hd e he hlt)) (by omega)
      · simp
      · have hstep : (e + 1) * b ^ es.length ≤ d * b ^ es.length := Nat.mul_le_mul_right _ hgt
        rw [Nat.succ_mul] at hstep
        have hsym : symbol e < symbol d := hsymbol e he d hd hgt
        refine iff_of_false ?_ (by omega)
        rintro (hlt | ⟨heq, -⟩)
        · exact absurd hlt hsym.asymm
        · exact hsym.ne heq.symm

end Radix
