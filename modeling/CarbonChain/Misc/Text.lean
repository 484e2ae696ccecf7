import Mathlib.Data.List.TakeWhile
import Mathlib.Algebra.Ring.Int.Defs

/-!
# Strings of the services

What the services use of the strings of their language: `trim`, `split`, and `BigInt`, which
reads an integer in decimal, or in another base after a prefix, between white space.
-/

namespace CarbonChain.Text

/-- White space and line ends. -/
def isWhiteSpace (c : Char) : Bool :=
  c.toNat ∈ [0x9, 0xA, 0xB, 0xC, 0xD, 0x20, 0xA0, 0x1680, 0x2028, 0x2029, 0x202F, 0x205F, 0x3000,
    0xFEFF] || (0x2000 ≤ c.toNat && c.toNat ≤ 0x200A)

/-- The characters without white space at both ends. -/
def trimmed (s : List Char) : List Char :=
  ((s.dropWhile isWhiteSpace).reverse.dropWhile isWhiteSpace).reverse

/-- `s.trim()`. -/
def trim (s : String) : String := String.ofList (trimmed s.toList)

/-- `s.split(separator)[0]`. -/
def firstPart (separator : Char) (s : String) : String :=
  String.ofList (s.toList.takeWhile (· ≠ separator))

/-- The character is one from `first` to `last`. -/
def Between (first last c : Char) : Prop := first.toNat ≤ c.toNat ∧ c.toNat ≤ last.toNat

instance (first last c : Char) : Decidable (Between first last c) :=
  inferInstanceAs (Decidable (_ ∧ _))

/-- The value of a digit, up to `f`; another character has none below 36. -/
def digitValue (c : Char) : Nat :=
  if Between '0' '9' c then c.toNat - '0'.toNat
  else if Between 'a' 'f' c then c.toNat - 'a'.toNat + 10
  else if Between 'A' 'F' c then c.toNat - 'A'.toNat + 10
  else 36

/-- The number with the digits, of which there is one at least. -/
def readDigits (base : Nat) (digits : List Char) : Option Nat :=
  if digits ≠ [] ∧ digits.all (digitValue · < base) then
    some (digits.foldl (fun n c => n * base + digitValue c) 0)
  else none

/-- `BigInt(s)`; `none` is its `SyntaxError`. -/
def bigInt (s : String) : Option Int :=
  match trimmed s.toList with
  | [] => some 0
  | '+' :: digits => (readDigits 10 digits).map Int.ofNat
  | '-' :: digits => (readDigits 10 digits).map fun n => -Int.ofNat n
  | '0' :: 'x' :: digits | '0' :: 'X' :: digits => (readDigits 16 digits).map Int.ofNat
  | '0' :: 'o' :: digits | '0' :: 'O' :: digits => (readDigits 8 digits).map Int.ofNat
  | '0' :: 'b' :: digits | '0' :: 'B' :: digits => (readDigits 2 digits).map Int.ofNat
  | digits => (readDigits 10 digits).map Int.ofNat

/-- What follows the sign of a negative integer. -/
def unsigned : List Char → List Char
  | '-' :: digits => digits
  | digits => digits

/-- The string is a decimal integer. -/
def IsDecimal (s : String) : Prop :=
  unsigned s.toList ≠ [] ∧ (unsigned s.toList).all (Between '0' '9' ·)

instance (s : String) : Decidable (IsDecimal s) := inferInstanceAs (Decidable (_ ∧ _))

theorem isWhiteSpace_of_digit {c : Char} (digit : Between '0' '9' c) : isWhiteSpace c = false := by
  have low : 48 ≤ c.toNat := digit.1
  have high : c.toNat ≤ 57 := digit.2
  simp [isWhiteSpace]
  omega

theorem digitValue_lt {c : Char} (digit : Between '0' '9' c) : digitValue c < 10 := by
  have high : c.toNat ≤ 57 := digit.2
  rw [digitValue, if_pos digit]
  show c.toNat - 48 < 10
  omega

theorem trimmed_eq_self {s : List Char} (solid : ∀ c ∈ s, isWhiteSpace c = false) :
    trimmed s = s := by
  have kept : ∀ t : List Char, (∀ c ∈ t, isWhiteSpace c = false) →
      t.dropWhile isWhiteSpace = t := by
    intro t solid
    cases t with
    | nil => rfl
    | cons c t => simp [solid c List.mem_cons_self]
  rw [trimmed, kept s solid, kept s.reverse fun c listed => solid c (List.mem_reverse.mp listed),
    List.reverse_reverse]

theorem unsigned_cases (s : List Char) : unsigned s = s ∨ s = '-' :: unsigned s := by
  cases s with
  | nil => exact .inl rfl
  | cons c s =>
      by_cases negative : c = '-'
      · subst negative
        exact .inr rfl
      · left
        unfold unsigned
        split
        · simp_all
        · rfl

/-- A decimal integer is read. -/
theorem isSome_bigInt {s : String} (decimal : IsDecimal s) : (bigInt s).isSome := by
  obtain ⟨nonempty, digits⟩ := decimal
  have each : ∀ c ∈ unsigned s.toList, Between '0' '9' c := by simpa using digits
  have number : (readDigits 10 (unsigned s.toList)).isSome := by
    have small : ∀ c ∈ unsigned s.toList, digitValue c < 10 :=
      fun c listed => digitValue_lt (each c listed)
    rw [readDigits, if_pos ⟨nonempty, by simpa using small⟩]
    rfl
  have solid : ∀ c ∈ s.toList, isWhiteSpace c = false := by
    intro c listed
    rcases unsigned_cases s.toList with same | negative
    · rw [← same] at listed
      exact isWhiteSpace_of_digit (each c listed)
    · rw [negative] at listed
      rcases List.mem_cons.mp listed with rfl | digit
      · decide
      · exact isWhiteSpace_of_digit (each c digit)
  rw [bigInt, trimmed_eq_self solid]
  rcases unsigned_cases s.toList with same | negative
  · rw [same] at number each
    -- the other readings start with a sign or go on with a letter
    split <;> simp_all [Between]
  · rw [negative]
    simpa using number

/-- A list is cut at its last separator in one way. -/
theorem append_separator_inj {α : Type} [DecidableEq α] {separator : α} {s s' t t' : List α}
    (apart : separator ∉ t) (apart' : separator ∉ t')
    (same : s ++ separator :: t = s' ++ separator :: t') : s = s' ∧ t = t' := by
  have last : ∀ s t : List α, separator ∉ t →
      (s ++ separator :: t).reverse.takeWhile (· ≠ separator) = t.reverse := by
    intro s t apart
    rw [List.reverse_append, List.reverse_cons, List.append_assoc, List.takeWhile_append_of_pos]
    · simp
    · intro a listed
      have there : a ∈ t := List.mem_reverse.mp listed
      simpa using fun equal : a = separator => apart (equal ▸ there)
  have ends : t = t' := by
    rw [← List.reverse_inj, ← last s t apart, same, last s' t' apart']
  subst ends
  exact ⟨(List.append_left_inj (separator :: t)).mp same, rfl⟩

/-! ## The characters of a number -/

theorem mem_dropWhile_or {p : Char → Bool} {s : List Char} {c : Char} (listed : c ∈ s) :
    p c = true ∨ c ∈ s.dropWhile p := by
  rw [← List.takeWhile_append_dropWhile (p := p) (l := s), List.mem_append] at listed
  rcases listed with first | rest
  · exact .inl (List.mem_takeWhile_imp first)
  · exact .inr rest

/-- What is trimmed off is white space. -/
theorem mem_trimmed_or {s : List Char} {c : Char} (listed : c ∈ s) :
    isWhiteSpace c = true ∨ c ∈ trimmed s := by
  rcases mem_dropWhile_or (p := isWhiteSpace) listed with white | rest
  · exact .inl white
  · rcases mem_dropWhile_or (p := isWhiteSpace) (List.mem_reverse.mpr rest) with white | kept
    · exact .inl white
    · exact .inr (List.mem_reverse.mpr kept)

theorem digitValue_of_readDigits {base : Nat} {digits : List Char}
    (number : (readDigits base digits).isSome) : ∀ c ∈ digits, digitValue c < base := by
  unfold readDigits at number
  split at number
  · next read => simpa using read.2
  · cases number

/-- A character that is no white space, no digit, no sign and no letter of a prefix. -/
def Foreign (c : Char) : Prop :=
  isWhiteSpace c = false ∧ 16 ≤ digitValue c ∧ c ∉ ['+', '-', 'x', 'X', 'o', 'O', 'b', 'B']

instance (c : Char) : Decidable (Foreign c) := inferInstanceAs (Decidable (_ ∧ _))

/-- What `BigInt` reads has no foreign character. -/
theorem not_mem_of_bigInt {s : String} {c : Char} (foreign : Foreign c)
    (number : (bigInt s).isSome) : c ∉ s.toList := by
  obtain ⟨solid, large, unlisted⟩ := foreign
  intro listed
  have kept : c ∈ trimmed s.toList := by
    rcases mem_trimmed_or listed with white | kept
    · rw [solid] at white
      cases white
    · exact kept
  have zero : c ≠ '0' := by
    rintro rfl
    exact absurd large (by decide)
  have apart : ∀ (start digits : List Char), ∀ base ≤ 16, trimmed s.toList = start ++ digits →
      (∀ d ∈ start, d ∈ ['0', '+', '-', 'x', 'X', 'o', 'O', 'b', 'B']) →
      ¬ (readDigits base digits).isSome := by
    intro start digits base small read known number
    rw [read] at kept
    rcases List.mem_append.mp kept with first | rest
    · exact (List.mem_cons.mp (known c first)).elim zero unlisted
    · have value := digitValue_of_readDigits number c rest
      omega
  unfold bigInt at number
  split at number
  · next empty =>
      rw [empty] at kept
      cases kept
  · next read => exact apart ['+'] _ 10 (by decide) read (by simp) (by simpa using number)
  · next read => exact apart ['-'] _ 10 (by decide) read (by simp) (by simpa using number)
  · next read => exact apart ['0', 'x'] _ 16 (by decide) read (by simp) (by simpa using number)
  · next read => exact apart ['0', 'X'] _ 16 (by decide) read (by simp) (by simpa using number)
  · next read => exact apart ['0', 'o'] _ 8 (by decide) read (by simp) (by simpa using number)
  · next read => exact apart ['0', 'O'] _ 8 (by decide) read (by simp) (by simpa using number)
  · next read => exact apart ['0', 'b'] _ 2 (by decide) read (by simp) (by simpa using number)
  · next read => exact apart ['0', 'B'] _ 2 (by decide) read (by simp) (by simpa using number)
  · rw [Option.isSome_map] at number
    exact apart [] (trimmed s.toList) 10 (by decide) rfl (by simp) number

end CarbonChain.Text
