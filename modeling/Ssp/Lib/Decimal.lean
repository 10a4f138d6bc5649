import Mathlib.Algebra.Group.Nat.Defs
import Mathlib.Data.List.TakeWhile
import Ssp.Lib.CString

/-!
# Decimal numbers

What is written to a stream of a number, and what `atoi` makes of it. A *decimal number* is
a string of digits, at least one; leading zeros do no harm. `atoi` reads it as far as it goes:
up to 32 bits it is the number (`toNat_atoi_eq_iff`).
-/

namespace Ssp

/-- The digits that are written of a number. -/
def decimal (n : ℕ) : Bytes := Nat.toDigits 10 n

/-- A decimal number. -/
def IsDecimal (s : Bytes) : Prop := s ≠ [] ∧ ∀ c ∈ s, c.isDigit = true

instance (s : Bytes) : Decidable (IsDecimal s) :=
  decidable_of_iff (s ≠ [] ∧ s.all Char.isDigit = true) (and_congr_right fun _ => List.all_eq_true)

theorem decimal_ne_nil (n : ℕ) : decimal n ≠ [] := Nat.toDigits_ne_nil

theorem isDigit_of_mem_decimal {n : ℕ} {c : Char} (h : c ∈ decimal n) : c.isDigit = true :=
  Nat.isDigit_of_mem_toDigits (by decide) (by decide) h

theorem isDecimal_decimal (n : ℕ) : IsDecimal (decimal n) :=
  ⟨decimal_ne_nil n, fun _ => isDigit_of_mem_decimal⟩

section

variable {s : Bytes}

/-- All of a decimal number counts. -/
theorem leadingDigits_eq (h : ∀ c ∈ s, c.isDigit = true) : leadingDigits s = Nat.ofDigitChars 10 s 0 := by
  unfold leadingDigits
  rw [List.takeWhile_eq_self_iff.2 h, Nat.ofDigitChars_eq_foldl]

@[simp]
theorem leadingDigits_decimal (n : ℕ) : leadingDigits (decimal n) = n := by
  rw [leadingDigits_eq fun _ => isDigit_of_mem_decimal]
  exact Nat.ofDigitChars_ten_toDigits

/-- A digit is no white space and no sign. -/
theorem isDigit_ne {c : Char} (h : c.isDigit = true) : isSpace c = false ∧ c ≠ '-' ∧ c ≠ '+' := by
  have hne : ∀ d : Char, d.isDigit = false → c ≠ d := by
    rintro d hd rfl
    exact Bool.false_ne_true (hd.symm.trans h)
  refine ⟨?_, hne '-' (by decide), hne '+' (by decide)⟩
  unfold isSpace
  simp [hne ' ' (by decide), hne '\t' (by decide), hne '\n' (by decide), hne '\x0b' (by decide),
    hne '\x0c' (by decide), hne '\r' (by decide)]

theorem strtol_of_isDecimal (h : IsDecimal s) : strtol s = min (leadingDigits s : ℤ) (2 ^ 63 - 1) := by
  obtain ⟨c, t, rfl⟩ := List.exists_cons_of_ne_nil h.1
  obtain ⟨hspace, hminus, hplus⟩ := isDigit_ne (h.2 c List.mem_cons_self)
  unfold strtol
  rw [List.dropWhile_cons_of_neg (by simp [hspace])]
  split
  next heq => exact absurd (List.cons.inj heq).1 hminus
  next heq => exact absurd (List.cons.inj heq).1 hplus
  next => rfl

/-- `atoi` reads a decimal number up to the largest `long`, and keeps 32 bits of it. -/
theorem toNat_atoi (h : IsDecimal s) : (atoi s).toNat = min (leadingDigits s) (2 ^ 63 - 1) % 2 ^ 32 := by
  have hmod : (min (leadingDigits s : ℤ) (2 ^ 63 - 1) % 2 ^ 32).toNat =
      min (leadingDigits s) (2 ^ 63 - 1) % 2 ^ 32 := by omega
  unfold atoi UInt32.ofInt
  rw [strtol_of_isDecimal h, hmod, UInt32.toNat_ofNat', Nat.mod_mod]

/-- `atoi` reads a decimal number right exactly if it has no more than 32 bits. -/
theorem toNat_atoi_eq_iff (h : IsDecimal s) :
    (atoi s).toNat = leadingDigits s ↔ leadingDigits s < 2 ^ 32 := by
  rw [toNat_atoi h]
  omega

/-! ### Place values -/

theorem leadingDigits_append {t : Bytes} (hs : ∀ c ∈ s, c.isDigit = true) (ht : ∀ c ∈ t, c.isDigit = true) :
    leadingDigits (s ++ t) = 10 ^ t.length * leadingDigits s + leadingDigits t := by
  have hst : ∀ c ∈ s ++ t, c.isDigit = true := fun c hc => (List.mem_append.1 hc).elim (hs c) (ht c)
  rw [leadingDigits_eq hst, leadingDigits_eq hs, leadingDigits_eq ht, Nat.ofDigitChars_append,
    Nat.ofDigitChars_eq_ofDigitChars_zero]

theorem leadingDigits_cons {c : Char} (hc : c.isDigit = true) (hs : ∀ c ∈ s, c.isDigit = true) :
    leadingDigits (c :: s) = 10 ^ s.length * (c.toNat - '0'.toNat) + leadingDigits s := by
  have hsingle : ∀ d ∈ [c], d.isDigit = true := fun d hd => List.mem_singleton.1 hd ▸ hc
  rw [← List.singleton_append, leadingDigits_append hsingle hs, leadingDigits_eq hsingle, Nat.ofDigitChars_cons,
    Nat.ofDigitChars_nil, Nat.mul_zero, Nat.zero_add]

/-- The value of a digit. -/
theorem digit_bounds {c : Char} (h : c.isDigit = true) : '0'.toNat ≤ c.toNat ∧ c.toNat - '0'.toNat < 10 := by
  obtain ⟨hge, hle⟩ := Char.isDigit_iff_toNat.1 h
  rw [show '9'.toNat = '0'.toNat + 9 from rfl] at hle
  exact ⟨hge, by omega⟩

theorem leadingDigits_lt (hs : ∀ c ∈ s, c.isDigit = true) : leadingDigits s < 10 ^ s.length := by
  induction s with
  | nil => decide
  | cons c s ih =>
    obtain ⟨hc, hs⟩ := List.forall_mem_cons.1 hs
    have hvalue := Nat.mul_le_mul_left (10 ^ s.length) (Nat.le_of_lt_succ (digit_bounds hc).2)
    have hlt := ih hs
    rw [leadingDigits_cons hc hs, List.length_cons, Nat.pow_succ]
    omega

/-- Decimal numbers of one length have different values. -/
theorem leadingDigits_inj {t : Bytes} (hs : ∀ c ∈ s, c.isDigit = true) (ht : ∀ c ∈ t, c.isDigit = true)
    (hlen : s.length = t.length) : leadingDigits s = leadingDigits t ↔ s = t := by
  refine ⟨fun h => ?_, fun h => h ▸ rfl⟩
  induction s generalizing t with
  | nil => exact (List.eq_nil_of_length_eq_zero hlen.symm).symm
  | cons c s ih =>
    obtain ⟨d, t, rfl⟩ := List.exists_cons_of_length_eq_add_one hlen.symm
    obtain ⟨hc, hs⟩ := List.forall_mem_cons.1 hs
    obtain ⟨hd, ht⟩ := List.forall_mem_cons.1 ht
    have hlen' : s.length = t.length := Nat.succ.inj hlen
    have hslt := leadingDigits_lt hs
    have htlt := leadingDigits_lt ht
    have hpos : 0 < 10 ^ t.length := Nat.pow_pos (by decide)
    rw [leadingDigits_cons hc hs, leadingDigits_cons hd ht, hlen'] at h
    rw [hlen'] at hslt
    -- The first digits are the quotients, the rest are the remainders.
    have hquot := congrArg (· / 10 ^ t.length) h
    have hrest := congrArg (· % 10 ^ t.length) h
    simp only [Nat.mul_add_div hpos, Nat.div_eq_of_lt hslt, Nat.div_eq_of_lt htlt, Nat.mul_add_mod,
      Nat.mod_eq_of_lt hslt, Nat.mod_eq_of_lt htlt] at hquot hrest
    have hchar : c = d := by
      have hc' := (digit_bounds hc).1
      have hd' := (digit_bounds hd).1
      exact Char.toNat_inj.1 (by omega)
    rw [hchar, ih hs ht hlen' hrest]

theorem toNat_atoi_decimal {n : ℕ} (hn : n < 2 ^ 32) : (atoi (decimal n)).toNat = n := by
  rw [(toNat_atoi_eq_iff (isDecimal_decimal n)).2 (by rwa [leadingDigits_decimal]), leadingDigits_decimal]

end

end Ssp
