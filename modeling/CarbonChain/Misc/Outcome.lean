import Mathlib.Data.List.Induction
import Mathlib.Algebra.Ring.Int.Defs
import Mathlib.Algebra.Ring.Nat

/-!
# Outcomes of fallible entry points

An entry point either returns a value, returns an error code of its contract, or
traps (a panic, an arithmetic overflow under overflow checks, a refused
authorisation). A caller cannot tell the last two apart by their effect, since
both roll back. The lemmas tagged `simp` read a successful `do` block backwards:
`(x >>= f) = .ok b` becomes the conjunction of what every step of the block
required, so that the specification of an entry point is one `simp`.
-/

namespace CarbonChain

/-- How an entry point fails: with an error code, or by trapping. -/
inductive Fail (E : Type) where
  | error (code : E)
  | trap
  deriving DecidableEq, Repr

/-- The result of an entry point with error codes `E`. -/
abbrev Outcome (E α : Type) := Except (Fail E) α

variable {E α β : Type}

@[simp] theorem bind_eq_ok {x : Outcome E α} {f : α → Outcome E β} {b : β} :
    (x >>= f) = .ok b ↔ ∃ a, x = .ok a ∧ f a = .ok b := by
  constructor
  · intro success
    cases x with
    | error failure => cases success
    | ok a => exact ⟨a, rfl, success⟩
  · rintro ⟨a, rfl, success⟩
    exact success

@[simp] theorem pure_eq_ok {a b : α} : (pure a : Outcome E α) = .ok b ↔ a = b := by
  simp [pure, Except.pure]

@[simp] theorem map_eq_ok {x : Outcome E α} {f : α → β} {b : β} :
    (f <$> x) = .ok b ↔ ∃ a, x = .ok a ∧ f a = b := by
  cases x <;> simp [Functor.map, Except.map]

/-- `if condition { return Err(code) }`. -/
def rejectIf (condition : Prop) [Decidable condition] (code : E) : Outcome E Unit :=
  if condition then .error (.error code) else .ok ()

@[simp] theorem rejectIf_eq_ok {condition : Prop} [Decidable condition] {code : E} {u : Unit} :
    rejectIf condition code = .ok u ↔ ¬ condition := by
  unfold rejectIf
  split <;> simp_all

/-- `if condition { panic!(..) }`. -/
def panicIf (condition : Prop) [Decidable condition] : Outcome E Unit :=
  if condition then .error .trap else .ok ()

@[simp] theorem panicIf_eq_ok {condition : Prop} [Decidable condition] {u : Unit} :
    (panicIf condition : Outcome E Unit) = .ok u ↔ ¬ condition := by
  unfold panicIf
  split <;> simp_all

/-- `value.ok_or(code)?`. -/
def okOr (value : Option α) (code : E) : Outcome E α :=
  match value with
  | some a => .ok a
  | none => .error (.error code)

@[simp] theorem okOr_eq_ok {value : Option α} {code : E} {a : α} :
    okOr value code = .ok a ↔ value = some a := by
  cases value <;> simp [okOr]

/-- `value.unwrap()`, which traps on `None`. -/
def unwrap (value : Option α) : Outcome E α :=
  match value with
  | some a => .ok a
  | none => .error .trap

@[simp] theorem unwrap_eq_ok {value : Option α} {a : α} :
    (unwrap value : Outcome E α) = .ok a ↔ value = some a := by
  cases value <;> simp [unwrap]

/-- A map whose function fails for no element of the list. -/
theorem mapM_of_ok {f : α → Outcome E β} {g : α → β} {list : List α}
    (each : ∀ a ∈ list, f a = .ok (g a)) : list.mapM f = .ok (list.map g) := by
  induction list with
  | nil => rfl
  | cons a list ih =>
      rw [List.mapM_cons, bind_eq_ok]
      refine ⟨g a, each a List.mem_cons_self, ?_⟩
      rw [ih fun b listed => each b (List.mem_cons_of_mem a listed)]
      rfl

/-- A successful loop `for b in list { acc = f(acc, b)?; }` carries from its start to its
end whatever every successful iteration carries. -/
theorem foldlM_ok_induct {f : α → β → Outcome E α} (P : List β → α → Prop)
    {start finish : α} {list : List β} (h : list.foldlM f start = .ok finish)
    (base : P [] start)
    (carry : ∀ earlier b acc acc', earlier.foldlM f start = .ok acc → P earlier acc →
      f acc b = .ok acc' → P (earlier ++ [b]) acc') : P list finish := by
  induction list using List.reverseRecOn generalizing finish with
  | nil =>
      rw [List.foldlM_nil, pure_eq_ok] at h
      rw [← h]
      exact base
  | append_singleton earlier b ih =>
      rw [List.foldlM_append, bind_eq_ok] at h
      obtain ⟨acc, looped, last⟩ := h
      rw [List.foldlM_cons, bind_eq_ok] at last
      obtain ⟨acc', iterated, ended⟩ := last
      rw [List.foldlM_nil, pure_eq_ok] at ended
      rw [← ended]
      exact carry earlier b acc acc' looped (ih looped) iterated

/-- A loop `for b in list { acc = f(acc, b)?; }` succeeds if every iteration succeeds from what
the iterations before it carry. -/
theorem foldlM_succeeds {f : α → β → Outcome E α} (P : List β → α → Prop) {start : α}
    {list : List β} (base : P [] start)
    (carry : ∀ earlier b rest acc, list = earlier ++ b :: rest → P earlier acc →
      ∃ acc', f acc b = .ok acc' ∧ P (earlier ++ [b]) acc') :
    ∃ finish, list.foldlM f start = .ok finish ∧ P list finish := by
  induction list using List.reverseRecOn with
  | nil => exact ⟨start, rfl, base⟩
  | append_singleton earlier b ih =>
      obtain ⟨acc, looped, carried⟩ := ih fun first c rest acc split =>
        carry first c (rest ++ [b]) acc (by simp [split])
      obtain ⟨acc', iterated, carried'⟩ := carry earlier b [] acc rfl carried
      refine ⟨acc', ?_, carried'⟩
      rw [List.foldlM_append, bind_eq_ok]
      refine ⟨acc, looped, ?_⟩
      rw [List.foldlM_cons, bind_eq_ok]
      exact ⟨acc', iterated, rfl⟩

/-- A loop whose iterations compute `g` and fail where `P` does not hold of the result succeeds
if and only if `P` holds after every iteration. -/
theorem foldlM_guarded {f : α → β → Outcome E α} {g : α → β → α} {P : α → Prop}
    (guarded : ∀ a b c, f a b = .ok c ↔ P c ∧ g a b = c) {list : List β} {start finish : α} :
    list.foldlM f start = .ok finish ↔
      (∀ first b rest, list = first ++ b :: rest → P (g (first.foldl g start) b)) ∧
        list.foldl g start = finish := by
  induction list generalizing start with
  | nil => simp
  | cons head tail ih =>
      rw [List.foldlM_cons, bind_eq_ok]
      simp only [guarded, ih, List.foldl_cons]
      constructor
      · rintro ⟨_, ⟨now, rfl⟩, later, finished⟩
        refine ⟨?_, finished⟩
        intro first b rest split
        cases first with
        | nil =>
            cases split
            exact now
        | cons _ first =>
            cases split
            exact later first b rest rfl
      · rintro ⟨all, finished⟩
        refine ⟨_, ⟨all [] head tail rfl, rfl⟩, ?_, finished⟩
        rintro first b rest rfl
        exact all (head :: first) b rest rfl

/-- Addition of `width`-bit unsigned integers, which traps on overflow. -/
def addUnsigned (width a b : Nat) : Outcome E Nat :=
  if a + b < 2 ^ width then .ok (a + b) else .error .trap

@[simp] theorem addUnsigned_eq_ok {width a b c : Nat} :
    (addUnsigned width a b : Outcome E Nat) = .ok c ↔ a + b < 2 ^ width ∧ a + b = c := by
  unfold addUnsigned
  by_cases fits : a + b < 2 ^ width
  · simp [fits]
  · simp only [if_neg fits, reduceCtorEq, false_iff, not_and]
    exact fun small => absurd small fits

/-- `a` is a value of the signed integers of `width` bits. -/
def FitsSigned (width : Nat) (a : Int) : Prop :=
  -2 ^ (width - 1) ≤ a ∧ a < 2 ^ (width - 1)

instance (width : Nat) (a : Int) : Decidable (FitsSigned width a) :=
  inferInstanceAs (Decidable (_ ∧ _))

/-- `a.checked_add(b).ok_or(code)?` on signed integers of `width` bits. -/
def checkedAddSigned (width : Nat) (a b : Int) (code : E) : Outcome E Int :=
  if FitsSigned width (a + b) then .ok (a + b) else .error (.error code)

@[simp] theorem checkedAddSigned_eq_ok {width : Nat} {a b c : Int} {code : E} :
    checkedAddSigned width a b code = .ok c ↔ FitsSigned width (a + b) ∧ a + b = c := by
  unfold checkedAddSigned
  by_cases fits : FitsSigned width (a + b) <;> simp [fits]

/-! ## Traps

The same lemmas for a `do` block that traps: one of its steps does, and those before it succeed. -/

@[simp] theorem bind_eq_trap {x : Outcome E α} {f : α → Outcome E β} :
    (x >>= f) = .error .trap ↔ x = .error .trap ∨ ∃ a, x = .ok a ∧ f a = .error .trap := by
  cases x with
  | error failure => simp [bind, Except.bind]
  | ok a => simp [bind, Except.bind]

@[simp] theorem pure_ne_trap {a : α} : (pure a : Outcome E α) ≠ .error .trap := by
  simp [pure, Except.pure]

@[simp] theorem map_eq_trap {x : Outcome E α} {f : α → β} :
    f <$> x = .error .trap ↔ x = .error .trap := by
  cases x <;> simp [Functor.map, Except.map]

@[simp] theorem rejectIf_ne_trap {condition : Prop} [Decidable condition] {code : E} :
    rejectIf condition code ≠ .error .trap := by
  unfold rejectIf
  split <;> simp

@[simp] theorem panicIf_eq_trap {condition : Prop} [Decidable condition] :
    (panicIf condition : Outcome E Unit) = .error .trap ↔ condition := by
  unfold panicIf
  split <;> simp_all

@[simp] theorem okOr_ne_trap {value : Option α} {code : E} :
    okOr value code ≠ .error .trap := by
  cases value <;> simp [okOr]

@[simp] theorem unwrap_eq_trap {value : Option α} :
    (unwrap value : Outcome E α) = .error .trap ↔ value = none := by
  cases value <;> simp [unwrap]

@[simp] theorem addUnsigned_eq_trap {width a b : Nat} :
    (addUnsigned width a b : Outcome E Nat) = .error .trap ↔ 2 ^ width ≤ a + b := by
  unfold addUnsigned
  by_cases fits : a + b < 2 ^ width
  · simp only [if_pos fits, reduceCtorEq, false_iff, Nat.not_le]
    exact fits
  · simp only [if_neg fits, true_iff]
    omega

@[simp] theorem checkedAddSigned_ne_trap {width : Nat} {a b : Int} {code : E} :
    checkedAddSigned width a b code ≠ .error .trap := by
  unfold checkedAddSigned
  split <;> simp

/-- A loop traps in one of its iterations, after those before it have succeeded. -/
theorem foldlM_trap {f : α → β → Outcome E α} {start : α} {list : List β}
    (h : list.foldlM f start = .error .trap) :
    ∃ first b rest acc, list = first ++ b :: rest ∧ first.foldlM f start = .ok acc ∧
      f acc b = .error .trap := by
  induction list generalizing start with
  | nil => exact absurd h pure_ne_trap
  | cons head tail ih =>
      rw [List.foldlM_cons, bind_eq_trap] at h
      rcases h with now | ⟨next, iterated, later⟩
      · exact ⟨[], head, tail, start, rfl, rfl, now⟩
      · obtain ⟨first, b, rest, acc, rfl, looped, trapped⟩ := ih later
        refine ⟨head :: first, b, rest, acc, rfl, ?_, trapped⟩
        rw [List.foldlM_cons, bind_eq_ok]
        exact ⟨next, iterated, looped⟩

end CarbonChain
