import Ownly.Lib.JsArith

-- The numbers of JavaScript that are finite, as rationals: rounding to 53 bits, the text of a
-- number, and the number of a literal.
namespace Double
open List

-- The nearest integer, of two equally near the even one.
def halfEven (x : ℚ) : ℤ :=
  if Int.fract x < 1/2 ∨ Int.fract x = 1/2 ∧ ⌊x⌋ % 2 = 0 then ⌊x⌋ else ⌊x⌋ + 1

def unit (x : ℚ) : ℚ := 2^(max (Int.log 2 |x| - 52) (-1074))

def rounded (x : ℚ) : ℚ := halfEven (x / unit x) * unit x

-- None where the result is infinite.
def round (x : ℚ) : Option ℚ := if 2^1024 ≤ |rounded x| then none else some (rounded x)

def IsDouble (x : ℚ) : Prop := round x = some x

structure Decimal where
  significand : Nat
  exponent : Int

def Decimal.value (d : Decimal) : ℚ := d.significand * 10^d.exponent

def candidates (x : ℚ) : List Nat := [(halfEven x).toNat,⌊x⌋.toNat,⌊x⌋.toNat + 1]

-- The decimals of one digit more at every step that may stand for the number.
def search (v : ℚ) : Nat → Int → Option Decimal
  | 0,_ => none
  | more + 1,exponent =>
    match (candidates (v / 10^exponent)).find? (fun s => decide (round (Decimal.value ⟨s,exponent⟩) = some v)) with
    | some s => some ⟨s,exponent⟩
    | none => search v more (exponent - 1)

-- All the digits of a number that has no end after 17 of them.
def exact (v : ℚ) : Decimal := ⟨⌊v * 10^Nat.log 2 v.den⌋.toNat,-(Nat.log 2 v.den)⟩

def shortest (v : ℚ) : Decimal := (search v 17 (Int.log 10 v)).getD (exact v)

def pointed : List Char → List Char
  | c :: d :: rest => c :: '.' :: d :: rest
  | digits => digits

def scientific (digits : List Char) (exponent : Int) : List Char :=
  pointed digits ++ 'e' :: (if exponent < 0 then '-' else '+') :: Nat.toDigits 10 exponent.natAbs

def digitsOf (n : Nat) : List Char := (Nat.toDigits 10 n).rdropWhile (fun c => decide (c = '0'))

def Decimal.point (d : Decimal) : Int := d.exponent + (Nat.toDigits 10 d.significand).length

-- The digits and where the point stands among them, in plain notation or with an exponent.
def layout (digits : List Char) (point : Int) : List Char :=
  if digits.length ≤ point ∧ point ≤ 21 then digits ++ List.replicate (point - digits.length).toNat '0'
  else if 0 < point ∧ point ≤ 21 then digits.take point.toNat ++ '.' :: digits.drop point.toNat
  else if -6 < point ∧ point ≤ 0 then '0' :: '.' :: (List.replicate (-point).toNat '0' ++ digits)
  else scientific digits (point - 1)

def magnitude (v : ℚ) : List Char :=
  if v = 0 then ['0'] else layout (digitsOf (shortest |v|).significand) (shortest |v|).point

-- `String(v)`
def text (v : ℚ) : List Char := if v < 0 then '-' :: magnitude v else magnitude v

def valueOf (digits : List Char) : Nat := Nat.ofDigitChars 10 digits 0

-- A literal without an exponent, in strict mode; none where it is no literal.
def literal (text : List Char) : Option (Option ℚ) :=
  if 1 < (text.takeWhile Char.isDigit).length ∧ text.head? = some '0' then none
  else match text.dropWhile Char.isDigit with
  | [] => if text = [] then none else some (round (valueOf text))
  | '.' :: fraction =>
    if fraction.all Char.isDigit ∧ 1 < text.length then
      some (round (valueOf (text.takeWhile Char.isDigit ++ fraction) / 10^fraction.length))
    else none
  | _ => none

-- A result that is not finite stays so under these operations.
def numbers : JsArith.Numbers (Option ℚ) where
  literal := literal
  add := fun x y => x.bind (fun x => y.bind (fun y => round (x + y)))
  sub := fun x y => x.bind (fun x => y.bind (fun y => round (x - y)))
  mul := fun x y => x.bind (fun x => y.bind (fun y => round (x * y)))
  neg := fun x => x.map (fun x => -x)

section rounding
variable {x v : ℚ} {z : ℤ}

theorem halfEven_int (z : ℤ) : halfEven z = z := by simp [halfEven]

theorem halfEven_le (x : ℚ) : halfEven x ≤ ⌊x⌋ + 1 := by
  unfold halfEven
  split <;> omega

theorem halfEven_ge (x : ℚ) : ⌊x⌋ ≤ halfEven x := by
  unfold halfEven
  split <;> omega

theorem round_zero : round 0 = some 0 := by
  have same : rounded 0 = 0 := by
    have zero := halfEven_int 0
    rw [Int.cast_zero] at zero
    simp [rounded,zero]
  rw [round,same,if_neg (by norm_num)]

theorem isDouble_scaled {m e : ℤ} (small : |m| < 2^53) (low : -1074 ≤ e) (bounded : |(m : ℚ) * 2^e| < 2^1024) : IsDouble (m * 2^e) := by
  by_cases zero : m = 0
  · subst zero
    simpa [IsDouble] using round_zero
  · have positive : (0 : ℚ) < |(m : ℚ) * 2^e| := abs_pos.mpr (mul_ne_zero (Int.cast_ne_zero.mpr zero) (zpow_ne_zero _ (by norm_num)))
    have high : Int.log 2 |(m : ℚ) * 2^e| < 53 + e := by
      apply (Int.lt_zpow_iff_log_lt (by decide) positive).mp
      have bits : |(m : ℚ)| < 2^53 := by exact_mod_cast small
      rw [abs_mul,abs_of_pos (zpow_pos (by norm_num : (0 : ℚ) < 2) e)]
      calc |(m : ℚ)| * 2^e < 2^53 * 2^e := mul_lt_mul_of_pos_right bits (zpow_pos (by norm_num) e)
        _ = ((2 : ℕ) : ℚ)^(53 + e) := by rw [zpow_add₀ (by norm_num)]; norm_num
    obtain ⟨k,shift⟩ := Int.eq_ofNat_of_zero_le (a := e - max (Int.log 2 |(m : ℚ) * 2^e| - 52) (-1074)) (by omega)
    have scaled : (m : ℚ) * 2^e / unit (m * 2^e) = ((m * 2^k : ℤ) : ℚ) := by
      rw [unit,mul_div_assoc,← zpow_sub₀ (by norm_num),shift]
      push_cast
      rfl
    have same : rounded ((m : ℚ) * 2^e) = m * 2^e := by
      rw [rounded,scaled,halfEven_int,← scaled]
      exact div_mul_cancel₀ _ (zpow_ne_zero _ (by norm_num))
    rw [IsDouble,round,same,if_neg (not_le.mpr bounded)]

theorem round_int (small : |z| < 2^53) : round z = some (z : ℚ) := by
  have bounded : |(z : ℚ)| < 2^1024 := by
    have cast : |(z : ℚ)| < 2^53 := by exact_mod_cast small
    exact lt_of_lt_of_le cast (pow_le_pow_right₀ (by norm_num) (by norm_num))
  have double := isDouble_scaled (m := z) (e := 0) small (by norm_num) (by simpa using bounded)
  rwa [zpow_zero,mul_one] at double

theorem unit_bound (x : ℚ) : |x / unit x| < 2^53 := by
  have positive : 0 < unit x := zpow_pos (by norm_num) _
  by_cases zero : x = 0
  · simp [zero]
  · rw [abs_div,abs_of_pos positive,div_lt_iff₀ positive]
    calc |x| < ((2 : ℕ) : ℚ)^(Int.log 2 |x| + 1) := Int.lt_zpow_succ_log_self (by decide) _
      _ = 2^53 * 2^(Int.log 2 |x| - 52) := by rw [← zpow_natCast,← zpow_add₀ (by norm_num)]; norm_num; ring_nf
      _ ≤ 2^53 * unit x := mul_le_mul_of_nonneg_left (zpow_le_zpow_right₀ (by norm_num) (le_max_left _ _)) (by norm_num)

theorem round_double (rounds : round x = some v) : IsDouble v := by
  have bounded : |rounded x| < 2^1024 := by
    by_contra large
    rw [round,if_pos (not_lt.mp large)] at rounds
    cases rounds
  rw [round,if_neg (not_le.mpr bounded)] at rounds
  cases rounds
  obtain ⟨below,above⟩ := abs_lt.mp (unit_bound x)
  have floor_low : -(2^53) ≤ ⌊x / unit x⌋ := Int.le_floor.mpr (by push_cast; exact below.le)
  have floor_high : ⌊x / unit x⌋ < 2^53 := Int.floor_lt.mpr (by push_cast; exact above)
  have low := halfEven_ge (x / unit x)
  have high := halfEven_le (x / unit x)
  have least : -1074 ≤ max (Int.log 2 |x| - 52) (-1074) := le_max_right _ _
  have shape : rounded x = (halfEven (x / unit x) : ℚ) * 2^max (Int.log 2 |x| - 52) (-1074) := rfl
  rw [shape] at bounded ⊢
  generalize max (Int.log 2 |x| - 52) (-1074) = e at bounded least ⊢
  -- The largest significand carries into the next power of two.
  have carry : ∀ s : ℤ, ((s * 2 : ℤ) : ℚ) * 2^e = (s : ℚ) * 2^(e + 1) := by
    intro s
    rw [zpow_add₀ (by norm_num)]
    push_cast
    ring
  rcases lt_or_ge |halfEven (x / unit x)| (2^53) with within | edge
  · exact isDouble_scaled within least bounded
  · obtain ⟨s,half,small⟩ : ∃ s, halfEven (x / unit x) = s * 2 ∧ |s| < 2^53 := by
      rcases le_abs.mp edge with top | bottom
      · exact ⟨2^52,by omega,by norm_num⟩
      · exact ⟨-2^52,by omega,by norm_num⟩
    rw [half,carry] at bounded ⊢
    exact isDouble_scaled small (by omega) bounded
theorem double_whole (double : IsDouble v) (large : 2^52 ≤ |v|) : ∃ z : ℤ, v = z := by
  have positive : (0 : ℚ) < |v| := lt_of_lt_of_le (by norm_num) large
  have bits : 52 ≤ Int.log 2 |v| := by
    have power : ((2 : ℕ) : ℚ)^(52 : ℤ) ≤ |v| := by exact_mod_cast large
    exact (Int.zpow_le_iff_le_log (by decide) positive).mp power
  obtain ⟨k,exponent⟩ := Int.eq_ofNat_of_zero_le (a := max (Int.log 2 |v| - 52) (-1074)) (by omega)
  have same : rounded v = v := by
    unfold IsDouble round at double
    split at double
    · cases double
    · exact Option.some.inj double
  refine ⟨halfEven (v / unit v) * 2^k,?_⟩
  conv_lhs => rw [← same,rounded,unit,exponent]
  push_cast
  rw [unit,exponent]
  rfl

theorem whole_double {f : ℚ → ℤ} (fixes : ∀ z : ℤ, f z = z) (near : ∀ x, |(f x : ℚ) - x| ≤ 1) (double : IsDouble v) : IsDouble (f v) := by
  rcases lt_or_ge |v| (2^52) with small | large
  · have close := near v
    have bound : |(f v : ℚ)| < 2^53 := by
      rw [abs_lt] at small ⊢
      rw [abs_le] at close
      constructor <;> linarith [small.1,small.2,close.1,close.2]
    exact round_int (by exact_mod_cast bound)
  · obtain ⟨z,rfl⟩ := double_whole double large
    rwa [fixes]

theorem dyadic (double : IsDouble v) : ∃ k, v.den = 2^k := by
  have same : rounded v = v := by
    unfold IsDouble round at double
    split at double
    · cases double
    · exact Option.some.inj double
  have fraction : ∃ (m : ℤ) (k : ℕ), v = Rat.divInt m (2^k : ℕ) := by
    obtain ⟨k,sign⟩ := Int.eq_nat_or_neg (max (Int.log 2 |v| - 52) (-1074))
    rw [rounded] at same
    rcases sign with whole | negative
    · refine ⟨halfEven (v / unit v) * 2^k,0,?_⟩
      rw [Rat.divInt_eq_div]
      conv_lhs => rw [← same]
      simp [unit,whole]
    · refine ⟨halfEven (v / unit v),k,?_⟩
      rw [Rat.divInt_eq_div]
      conv_lhs => rw [← same]
      simp [unit,negative,div_eq_mul_inv]
  obtain ⟨m,k,quotient⟩ := fraction
  have divides : (v.den : ℤ) ∣ ((2^k : ℕ) : ℤ) := by
    rw [quotient]
    exact Rat.den_dvd m _
  obtain ⟨j,_,power⟩ := (Nat.dvd_prime_pow Nat.prime_two).mp (Int.natCast_dvd_natCast.mp divides)
  exact ⟨j,power⟩

theorem exact_value (positive : 0 < v) (double : IsDouble v) : (exact v).value = v := by
  obtain ⟨k,power⟩ := dyadic double
  have log : Nat.log 2 v.den = k := by rw [power,Nat.log_pow (by decide)]
  have whole : v * 10^k = ((v.num * 5^k : ℤ) : ℚ) := by
    have den : (v.den : ℚ) = 2^k := by rw [power]; push_cast; rfl
    have ten : (10 : ℚ)^k = 2^k * 5^k := by rw [← mul_pow]; norm_num
    conv_lhs => rw [← Rat.num_div_den v,den,ten]
    push_cast
    field_simp
  have sign : 0 ≤ v.num * 5^k := mul_nonneg (Rat.num_pos.mpr positive).le (by positivity)
  have cast : ((⌊v * 10^k⌋.toNat : ℕ) : ℚ) = v * 10^k := by
    rw [whole,Int.floor_intCast]
    exact_mod_cast Int.toNat_of_nonneg sign
  rw [exact,Decimal.value,log]
  simp only [cast]
  rw [zpow_neg,zpow_natCast]
  field_simp

theorem search_rounds (more : ℕ) (exponent : ℤ) {d : Decimal} (found : search v more exponent = some d) : round d.value = some v := by
  induction more generalizing exponent with
  | zero => cases found
  | succ more ih =>
    unfold search at found
    split at found
    · rename_i s first
      cases Option.some.inj found
      simpa using find?_some first
    · exact ih _ found

theorem shortest_rounds (positive : 0 < v) (double : IsDouble v) : round (shortest v).value = some v := by
  unfold shortest
  cases found : search v 17 (Int.log 10 v) with
  | none => rw [Option.getD_none,exact_value positive double]; exact double
  | some d => exact search_rounds _ _ found

theorem shortest_positive (positive : 0 < v) (double : IsDouble v) : 0 < (shortest v).significand := by
  apply Nat.pos_of_ne_zero
  intro zero
  have rounds := shortest_rounds positive double
  rw [Decimal.value,zero,Nat.cast_zero,zero_mul,round_zero] at rounds
  exact positive.ne (Option.some.inj rounds)

end rounding

section digits
variable {digits more : List Char} {n : ℕ} {c : Char}

theorem valueOf_append (digits more : List Char) : valueOf (digits ++ more) = valueOf digits * 10^more.length + valueOf more := by
  rw [valueOf,Nat.ofDigitChars_append,Nat.ofDigitChars_eq_ofDigitChars_zero,Nat.mul_comm]
  rfl

theorem valueOf_zeros (k : ℕ) : valueOf (List.replicate k '0') = 0 := by simp [valueOf]

theorem toDigits_head (positive : 0 < n) : (Nat.toDigits 10 n).head? ≠ some '0' := by
  induction n using Nat.strongRecOn with
  | ind n ih =>
    by_cases small : n < 10
    · rw [Nat.toDigits_of_lt_base small]
      interval_cases n <;> decide
    · have front : Nat.toDigits 10 (n / 10) ≠ [] := Nat.toDigits_ne_nil
      rw [Nat.toDigits_of_base_le (by decide) (by omega),head?_append_of_ne_nil _ front]
      exact ih (n / 10) (by omega) (by omega)

theorem toDigits_shift (positive : 0 < n) (k : ℕ) : Nat.toDigits 10 (n * 10^k) = Nat.toDigits 10 n ++ List.replicate k '0' := by
  induction k with
  | zero => simp
  | succ k ih =>
    have split := Nat.toDigits_append_toDigits (by decide : 1 < 10) (by positivity : 0 < n * 10^k) (by decide : 0 < 10)
    rw [ih,Nat.toDigits_zero,Nat.add_zero] at split
    rw [pow_succ,← Nat.mul_assoc,Nat.mul_comm (n * 10^k),← split,append_assoc,← replicate_succ']

theorem strip_zeros (digits : List Char) : ∃ z, digits = digits.rdropWhile (fun c => decide (c = '0')) ++ List.replicate z '0' := by
  induction digits using List.reverseRecOn with
  | nil => exact ⟨0,rfl⟩
  | append_singleton digits c ih =>
    by_cases zero : c = '0'
    · obtain ⟨z,split⟩ := ih
      refine ⟨z + 1,?_⟩
      rw [rdropWhile_concat,if_pos (decide_eq_true zero),replicate_succ',← append_assoc,← split,zero]
    · exact ⟨0,by simp [zero]⟩

theorem digitsOf_spec (positive : 0 < n) : ∃ z, Nat.toDigits 10 n = digitsOf n ++ List.replicate z '0' ∧
    n = valueOf (digitsOf n) * 10^z ∧ digitsOf n ≠ [] ∧ (digitsOf n).head? ≠ some '0' ∧ ∀ c ∈ digitsOf n, c.isDigit = true := by
  obtain ⟨z,split⟩ := strip_zeros (Nat.toDigits 10 n)
  change Nat.toDigits 10 n = digitsOf n ++ _ at split
  have value : n = valueOf (digitsOf n) * 10^z := by
    conv_lhs => rw [← Nat.ofDigitChars_ten_toDigits (n := n),split]
    change valueOf (digitsOf n ++ List.replicate z '0') = _
    rw [valueOf_append,valueOf_zeros,length_replicate,Nat.add_zero]
  have some_ : digitsOf n ≠ [] := by
    intro none_
    rw [none_] at value
    simp [valueOf] at value
    omega
  refine ⟨z,split,value,some_,?_,fun c member => ?_⟩
  · have head := toDigits_head positive
    rwa [split,head?_append_of_ne_nil _ some_] at head
  · exact Nat.isDigit_of_mem_toDigits (by decide) (by decide) (split ▸ mem_append_left _ member)

theorem takeWhile_digits (numerals : ∀ c ∈ digits, c.isDigit = true) (stop : ∀ c ∈ more.head?, c.isDigit = false) :
    (digits ++ more).takeWhile Char.isDigit = digits ∧ (digits ++ more).dropWhile Char.isDigit = more := by
  rw [takeWhile_append_of_pos numerals,dropWhile_append_of_pos numerals]
  cases more with
  | nil => simp
  | cons c more => simp [stop c rfl]

theorem takeWhile_all (numerals : ∀ c ∈ digits, c.isDigit = true) :
    digits.takeWhile Char.isDigit = digits ∧ digits.dropWhile Char.isDigit = [] := by
  have both : (digits ++ []).takeWhile Char.isDigit = digits ∧ (digits ++ []).dropWhile Char.isDigit = [] :=
    takeWhile_digits numerals (by simp)
  rwa [append_nil] at both

theorem literal_whole (some_ : digits ≠ []) (numerals : ∀ c ∈ digits, c.isDigit = true)
    (lead : 1 < digits.length → digits.head? ≠ some '0') : literal digits = some (round (valueOf digits)) := by
  obtain ⟨taken,dropped⟩ := takeWhile_all numerals
  rw [literal,taken,dropped,if_neg (fun both => lead both.1 both.2),if_neg some_]

theorem literal_padded (numerals : ∀ c ∈ digits, c.isDigit = true) (long : 1 < digits.length) (lead : digits.head? = some '0') :
    literal digits = none := by
  obtain ⟨taken,_⟩ := takeWhile_all numerals
  rw [literal,taken,if_pos ⟨long,lead⟩]

theorem literal_point (some_ : digits ≠ []) (numerals : ∀ c ∈ digits, c.isDigit = true) (fraction : ∀ c ∈ more, c.isDigit = true)
    (lead : 1 < digits.length → digits.head? ≠ some '0') :
    literal (digits ++ '.' :: more) = some (round (valueOf (digits ++ more) / 10^more.length)) := by
  have both : (digits ++ '.' :: more).takeWhile Char.isDigit = digits ∧ (digits ++ '.' :: more).dropWhile Char.isDigit = '.' :: more :=
    takeWhile_digits numerals (by simp)
  have positive := length_pos_iff.mpr some_
  have head : (digits ++ '.' :: more).head? = digits.head? := head?_append_of_ne_nil _ some_
  have long : 1 < (digits ++ '.' :: more).length := by simp; omega
  rw [literal,both.1,both.2,head,if_neg (fun padded => lead padded.1 padded.2)]
  simp only
  rw [if_pos ⟨all_eq_true.mpr fraction,long⟩]

theorem literal_layout (some_ : digits ≠ []) (numerals : ∀ c ∈ digits, c.isDigit = true) (lead : digits.head? ≠ some '0')
    (point : ℤ) (plain : 'e' ∉ layout digits point) :
    literal (layout digits point) = some (round (valueOf digits * 10^(point - digits.length))) := by
  unfold layout at plain ⊢
  split_ifs at plain ⊢ with whole inside small
  · obtain ⟨k,shift⟩ := Int.eq_ofNat_of_zero_le (Int.sub_nonneg.mpr whole.1)
    rw [literal_whole (by simp [some_]) _ _,shift,Int.toNat_natCast,valueOf_append,valueOf_zeros,length_replicate]
    · push_cast
      simp
    · intro c member
      rcases mem_append.mp member with old | zero
      · exact numerals c old
      · rw [eq_of_mem_replicate zero]
        rfl
    · intro _
      rwa [head?_append_of_ne_nil _ some_]
  · obtain ⟨k,place⟩ := Int.eq_ofNat_of_zero_le inside.1.le
    have less : k < digits.length := by omega
    have front : digits.take k ≠ [] := by
      intro none_
      have size := congrArg List.length none_
      rw [length_take,length_nil] at size
      omega
    have rest : ((k : ℤ) - digits.length) = -((digits.drop k).length : ℤ) := by rw [length_drop]; omega
    rw [place,Int.toNat_natCast,literal_point front (fun c member => numerals c (mem_of_mem_take member))
      (fun c member => numerals c (mem_of_mem_drop member)) _,take_append_drop,rest,zpow_neg,zpow_natCast,div_eq_mul_inv]
    intro _ zero
    apply lead
    rwa [← take_append_drop k digits,head?_append_of_ne_nil _ front]
  · obtain ⟨k,zeros⟩ := Int.exists_eq_neg_ofNat (a := point) (by omega)
    have size : point - digits.length = -((List.replicate k '0' ++ digits).length : ℤ) := by
      rw [length_append,length_replicate,zeros]
      push_cast
      ring
    have value : valueOf (['0'] ++ (List.replicate k '0' ++ digits)) = valueOf digits := by
      rw [valueOf_append,valueOf_append,valueOf_zeros]
      simp [show valueOf ['0'] = 0 from rfl]
    have fraction : ∀ c ∈ List.replicate k '0' ++ digits, c.isDigit = true := by
      intro c member
      rcases mem_append.mp member with zero | old
      · rw [eq_of_mem_replicate zero]
        rfl
      · exact numerals c old
    have read : literal (['0'] ++ '.' :: (List.replicate k '0' ++ digits)) = _ :=
      literal_point (by simp) (by simp) fraction (by simp)
    rw [size,zpow_neg,zpow_natCast,← div_eq_mul_inv,← value]
    rw [zeros]
    simpa using read
  · exact absurd (by simp [scientific]) plain

theorem point_value (d : Decimal) (positive : 0 < d.significand) :
    d.value = valueOf (digitsOf d.significand) * 10^(d.point - (digitsOf d.significand).length) := by
  obtain ⟨z,split,value,_⟩ := digitsOf_spec positive
  have size : d.point - (digitsOf d.significand).length = (z : ℤ) + d.exponent := by
    rw [Decimal.point,split,length_append,length_replicate]
    push_cast
    ring
  rw [Decimal.value,size,zpow_add₀ (by norm_num),zpow_natCast,← mul_assoc]
  congr 1
  exact_mod_cast value

theorem pointed_chars (numerals : ∀ c ∈ digits, c.isDigit = true) : ∀ c ∈ pointed digits, JsArith.Numeral c := by
  intro c inside
  unfold pointed at inside
  split at inside
  · rename_i d e rest
    rcases mem_cons.mp inside with rfl | later
    · exact .inl (numerals c mem_cons_self)
    · rcases mem_cons.mp later with rfl | last
      · exact .inr rfl
      · exact .inl (numerals c (mem_cons_of_mem _ last))
  · exact .inl (numerals c inside)

theorem layout_shape (numerals : ∀ c ∈ digits, c.isDigit = true) (point : ℤ) :
    (∀ c ∈ layout digits point, JsArith.Numeral c) ∨
      ∃ front sign back, layout digits point = front ++ 'e' :: sign :: back ∧ (∀ c ∈ front, JsArith.Numeral c) ∧
        (sign = '+' ∨ sign = '-') ∧ ∀ c ∈ back, JsArith.Numeral c := by
  have zeros : ∀ (k : ℕ), ∀ c ∈ List.replicate k '0', JsArith.Numeral c :=
    fun _ c zero => .inl (by rw [eq_of_mem_replicate zero]; rfl)
  unfold layout
  split_ifs with whole inside small
  · refine .inl (fun c member => ?_)
    rcases mem_append.mp member with old | zero
    · exact .inl (numerals c old)
    · exact zeros _ c zero
  · refine .inl (fun c member => ?_)
    rcases mem_append.mp member with front | rest
    · exact .inl (numerals c (mem_of_mem_take front))
    · rcases mem_cons.mp rest with rfl | back
      · exact .inr rfl
      · exact .inl (numerals c (mem_of_mem_drop back))
  · refine .inl (fun c member => ?_)
    simp only [mem_cons,mem_append] at member
    rcases member with rfl | rfl | zero | old
    · exact .inl rfl
    · exact .inr rfl
    · exact zeros _ c zero
    · exact .inl (numerals c old)
  · refine .inr ⟨pointed digits,_,_,rfl,pointed_chars numerals,?_,fun c member => ?_⟩
    · by_cases negative : point - 1 < 0 <;> simp [negative]
    · exact .inl (Nat.isDigit_of_mem_toDigits (by decide) (by decide) member)

end digits

section text
variable {v : ℚ}

theorem digitsOf_numerals (n : ℕ) : ∀ c ∈ digitsOf n, c.isDigit = true := by
  intro c member
  have inside : c ∈ Nat.toDigits 10 n := ( rdropWhile_prefix _ _).subset member
  exact Nat.isDigit_of_mem_toDigits (by decide) (by decide) inside

theorem magnitude_shape (v : ℚ) : (∀ c ∈ magnitude v, JsArith.Numeral c) ∨
    ∃ front sign back, magnitude v = front ++ 'e' :: sign :: back ∧ (∀ c ∈ front, JsArith.Numeral c) ∧
      (sign = '+' ∨ sign = '-') ∧ ∀ c ∈ back, JsArith.Numeral c := by
  unfold magnitude
  split
  · refine .inl (fun c member => ?_)
    cases mem_singleton.mp member
    exact .inl rfl
  · exact layout_shape (digitsOf_numerals _) _

theorem magnitude_plain (plain : 'e' ∉ magnitude v) : ∀ c ∈ magnitude v, JsArith.Numeral c := by
  rcases magnitude_shape v with numerals | ⟨front,sign,back,shape,_⟩
  · exact numerals
  · exact absurd (by simp [shape]) plain

theorem magnitude_chars (v : ℚ) : ∀ c ∈ magnitude v, JsArith.Numeral c ∨ c ∈ ['e','+','-'] := by
  intro c member
  rcases magnitude_shape v with numerals | ⟨front,sign,back,shape,before,signs,behind⟩
  · exact .inl (numerals c member)
  · rw [shape] at member
    simp only [mem_append,mem_cons] at member
    rcases member with old | rfl | rfl | rest
    · exact .inl (before c old)
    · exact .inr (by simp)
    · exact .inr (by rcases signs with rfl | rfl <;> simp)
    · exact .inl (behind c rest)

theorem text_chars (v : ℚ) : ∀ c ∈ text v, JsArith.Numeral c ∨ c ∈ ['e','+','-'] := by
  intro c member
  unfold text at member
  split at member
  · rcases mem_cons.mp member with rfl | rest
    · exact .inr (by simp)
    · exact magnitude_chars v c rest
  · exact magnitude_chars v c member

theorem text_exponent : 'e' ∈ text v ↔ 'e' ∈ magnitude v := by
  unfold text
  split <;> simp

theorem halfEven_neg (x : ℚ) : halfEven (-x) = -halfEven x := by
  by_cases whole : Int.fract x = 0
  · obtain ⟨z,rfl⟩ := Int.fract_eq_zero_iff.mp whole
    have back := halfEven_int (-z)
    push_cast at back
    rw [back,halfEven_int]
  · have parts := Int.floor_add_fract x
    have positive : 0 < Int.fract x := lt_of_le_of_ne (Int.fract_nonneg x) (Ne.symm whole)
    have less := Int.fract_lt_one x
    have floor : ⌊-x⌋ = -⌊x⌋ - 1 := by
      rw [Int.floor_eq_iff]
      push_cast
      constructor <;> linarith
    have fract : Int.fract (-x) = 1 - Int.fract x := Int.fract_neg whole
    unfold halfEven
    rw [floor,fract]
    split_ifs with down up up
    · rcases down with down | ⟨half,odd⟩ <;> rcases up with up | ⟨tie,even⟩
      · linarith
      · linarith
      · linarith
      · omega
    · ring
    · ring
    · obtain ⟨high,odd⟩ := not_or.mp down
      obtain ⟨low,even⟩ := not_or.mp up
      have half : Int.fract x = 1/2 := by linarith
      have parity : ⌊x⌋ % 2 ≠ 0 := fun zero => even ⟨half,zero⟩
      exact absurd ⟨by linarith,by omega⟩ odd

theorem rounded_neg (x : ℚ) : rounded (-x) = -rounded x := by
  have same : unit (-x) = unit x := by rw [unit,unit,abs_neg]
  rw [rounded,rounded,same,neg_div,halfEven_neg]
  push_cast
  ring

theorem IsDouble.neg (double : IsDouble v) : IsDouble (-v) := by
  unfold IsDouble round at *
  rw [rounded_neg,abs_neg]
  split at double
  · cases double
  · rename_i small
    rw [if_neg small,Option.some.inj double]

theorem IsDouble.abs (double : IsDouble v) : IsDouble |v| := by
  rcases abs_choice v with same | same <;> rw [same]
  · exact double
  · exact double.neg

theorem magnitude_literal (double : IsDouble v) (plain : 'e' ∉ magnitude v) : literal (magnitude v) = some (some |v|) := by
  by_cases zero : v = 0
  · subst zero
    rw [magnitude,if_pos rfl,literal_whole (by simp) (by simp) (by simp),show valueOf ['0'] = 0 from rfl]
    simp [round_zero]
  · have positive : 0 < |v| := abs_pos.mpr zero
    have some_ := shortest_positive positive double.abs
    obtain ⟨_,_,_,front,lead,numerals⟩ := digitsOf_spec some_
    rw [magnitude,if_neg zero] at plain ⊢
    rw [literal_layout front numerals lead _ plain,← point_value _ some_,shortest_rounds positive double.abs]

end text

section integers
variable {n : ℕ}

theorem search_whole (more : ℕ) (exponent : ℕ) (near : exponent < more) (small : n < 2^53) :
    ∃ (s k : ℕ), search n more exponent = some ⟨s,k⟩ ∧ k ≤ exponent ∧ s ∈ candidates ((n : ℚ) / 10^k) ∧
      round (Decimal.value ⟨s,k⟩) = some (n : ℚ) := by
  induction more generalizing exponent with
  | zero => omega
  | succ more ih =>
    unfold search
    cases found : (candidates ((n : ℚ) / 10^(exponent : ℤ))).find? (fun s => decide (round (Decimal.value ⟨s,exponent⟩) = some (n : ℚ))) with
    | some s =>
      refine ⟨s,exponent,rfl,le_refl _,?_,by simpa using find?_some found⟩
      simpa using mem_of_find?_eq_some found
    | none =>
      cases exponent with
      | zero =>
        have self : n ∈ candidates ((n : ℚ) / 10^((0 : ℕ) : ℤ)) := by
          have whole : halfEven (n : ℚ) = n := by simpa using halfEven_int n
          simp [candidates,whole]
        have rounds : round (n : ℚ) = some (n : ℚ) := by
          have small' : |(n : ℤ)| < 2^53 := by rw [Nat.abs_cast]; exact_mod_cast small
          simpa using round_int small'
        have absent := find?_eq_none.mp found n self
        simp [Decimal.value,rounds] at absent
      | succ exponent =>
        obtain ⟨s,k,next,less,rest⟩ := ih exponent (by omega)
        refine ⟨s,k,?_,by omega,rest⟩
        simpa using next

theorem shortest_whole (positive : 0 < n) (small : n < 10^15) : ∃ s k, shortest n = ⟨s,(k : ℕ)⟩ ∧ n = s * 10^k := by
  have value : (0 : ℚ) < n := by exact_mod_cast positive
  obtain ⟨top,log⟩ := Int.eq_ofNat_of_zero_le (a := Int.log 10 (n : ℚ)) (by
    apply (Int.zpow_le_iff_le_log (by decide) value).mp
    rw [zpow_zero]
    exact_mod_cast positive)
  have low : 10^top ≤ n := by
    have bound := Int.zpow_log_le_self (b := 10) (by decide) value
    rw [log] at bound
    exact_mod_cast bound
  have near : top < 15 := by
    by_contra far
    exact absurd (Nat.pow_le_pow_right (by decide : 0 < 10) (Nat.le_of_not_lt far)) (by omega)
  obtain ⟨s,k,found,less,member,rounds⟩ := search_whole 17 top (by omega) (by omega : n < 2^53)
  refine ⟨s,k,?_,?_⟩
  · rw [shortest,log]
    rw [found]
    rfl
  · have power : 10^k ≤ n := le_trans (Nat.pow_le_pow_right (by decide) less) low
    have size : s ≤ n / 10^k + 1 := by
      have floor : ⌊(n : ℚ) / 10^k⌋ = ((n / 10^k : ℕ) : ℤ) := by
        have division := Rat.floor_intCast_div_natCast n (10^k)
        push_cast at division ⊢
        exact division
      have above := halfEven_le ((n : ℚ) / 10^k)
      simp only [candidates,floor,mem_cons,not_mem_nil,or_false] at member above
      generalize n / 10^k = whole at member above ⊢
      omega
    have bound : s * 10^k < 2^53 := by
      have whole : n / 10^k * 10^k ≤ n := Nat.div_mul_le_self _ _
      have : s * 10^k ≤ (n / 10^k + 1) * 10^k := Nat.mul_le_mul_right _ size
      rw [Nat.add_mul] at this
      omega
    have cast : Decimal.value ⟨s,k⟩ = ((s * 10^k : ℕ) : ℚ) := by simp [Decimal.value]
    have small' : |((s * 10^k : ℕ) : ℤ)| < 2^53 := by rw [Nat.abs_cast]; exact_mod_cast bound
    have same : round ((s * 10^k : ℕ) : ℚ) = some ((s * 10^k : ℕ) : ℚ) := by simpa using round_int small'
    rw [cast,same] at rounds
    exact_mod_cast (Option.some.inj rounds).symm

theorem magnitude_whole (positive : 0 < n) (small : n < 10^15) :
    layout (digitsOf (shortest n).significand) (shortest n).point = Nat.toDigits 10 n := by
  obtain ⟨s,k,form,value⟩ := shortest_whole positive small
  have some_ : 0 < s := Nat.pos_of_ne_zero (fun zero => by simp [zero] at value; omega)
  obtain ⟨z,split,_⟩ := digitsOf_spec some_
  have whole : Nat.toDigits 10 n = Nat.toDigits 10 s ++ List.replicate k '0' := by rw [value,toDigits_shift some_]
  have length := congrArg List.length whole
  have short := (Nat.length_toDigits_le_iff (by decide : 1 < 10) (by decide : 0 < 15)).mpr small
  rw [length_append,length_replicate] at length
  have digits := congrArg List.length split
  rw [length_append,length_replicate] at digits
  rw [form,layout,Decimal.point,if_pos (by constructor <;> simp only <;> omega)]
  have zeros : (((k : ℤ) + (Nat.toDigits 10 s).length) - (digitsOf s).length).toNat = z + k := by omega
  simp only [zeros]
  rw [whole,split,append_assoc,replicate_append_replicate]

theorem text_whole (z : ℤ) (small : |z| < 10^15) :
    text z = if z < 0 then '-' :: Nat.toDigits 10 z.natAbs else Nat.toDigits 10 z.natAbs := by
  have bound : z.natAbs < 10^15 := by
    rw [Int.abs_eq_natAbs] at small
    exact_mod_cast small
  have digits : magnitude z = Nat.toDigits 10 z.natAbs := by
    unfold magnitude
    by_cases zero : z = 0
    · simp [zero]
    · have cast : |(z : ℚ)| = ((z.natAbs : ℕ) : ℚ) := by
        rw [Nat.cast_natAbs]
        push_cast
        rfl
      rw [if_neg (by exact_mod_cast zero),cast,magnitude_whole (Int.natAbs_pos.mpr zero) bound]
  rw [text,digits]
  by_cases negative : z < 0
  · rw [if_pos (by exact_mod_cast negative),if_pos negative]
  · rw [if_neg (by exact_mod_cast negative),if_neg negative]

end integers

end Double
