/-!
# Decimal digits

The decimal digits of a natural number, highest first and without leading zeros, and the number
that a list of digits stands for.
-/

namespace ModelRegistry.Decimal

def digits (n : Nat) : List Nat :=
  if n < 10 then [n] else digits (n / 10) ++ [n % 10]

def value (ds : List Nat) : Nat :=
  ds.foldl (fun n d => 10 * n + d) 0

def digitChar (d : Nat) : Char :=
  Char.ofNat ('0'.toNat + d)

def natText (n : Nat) : List Char :=
  (digits n).map digitChar

def intText : Int → List Char
  | .ofNat n => natText n
  | .negSucc n => '-' :: natText (n + 1)

theorem value_append_singleton (ds : List Nat) (d : Nat) :
    value (ds ++ [d]) = 10 * value ds + d := by
  simp [value]

theorem value_digits (n : Nat) : value (digits n) = n := by
  fun_induction digits n with
  | case1 n h => simp [value]
  | case2 n h ih => rw [value_append_singleton, ih]; omega

theorem lt_ten_of_mem_digits {n d : Nat} (h : d ∈ digits n) : d < 10 := by
  fun_induction digits n with
  | case1 n hn => simp_all
  | case2 n hn ih =>
    rcases List.mem_append.1 h with h | h
    · exact ih h
    · simp only [List.mem_singleton] at h; omega

end ModelRegistry.Decimal
