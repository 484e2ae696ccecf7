import Mathlib.Algebra.BigOperators.Pi
import Mathlib.Algebra.Order.Group.Defs
import Mathlib.Data.List.Induction

/-!
# Accounts

Books that issue amounts to accounts, move them between accounts and burn them. The balances
are the sum of the postings. Nobody loses by a posting that does not spend from them.
-/

namespace CarbonChain.Accounts

variable {A M : Type} [DecidableEq A] [AddCommGroup M]

/-- An entry of the books. -/
inductive Posting (A M : Type) where
  | issue (account : A) (amount : M)
  | move (source target : A) (amount : M)
  | burn (account : A) (amount : M)

/-- What a posting adds to each account. -/
def Posting.effect : Posting A M → A → M
  | .issue account amount => Pi.single account amount
  | .move source target amount => Pi.single target amount - Pi.single source amount
  | .burn account amount => -Pi.single account amount

/-- The amount of a posting. -/
def Posting.amount : Posting A M → M
  | .issue _ amount | .move _ _ amount | .burn _ amount => amount

/-- The account that a posting takes from. -/
def Posting.spender : Posting A M → Option A
  | .issue _ _ => none
  | .move source _ _ => some source
  | .burn account _ => some account

/-- The balances after an entry that may be a posting. -/
def posted (balance : A → M) (posting : Option (Posting A M)) : A → M :=
  posting.elim balance (balance + ·.effect)

/-- The balances that the postings leave, from empty accounts. -/
def replay (postings : List (Posting A M)) : A → M := (postings.map Posting.effect).sum

theorem replay_snoc {E : Type} (posting : E → Option (Posting A M)) (log : List E) (last : E) :
    replay ((log ++ [last]).filterMap posting) =
      posted (replay (log.filterMap posting)) (posting last) := by
  rw [List.filterMap_append]
  cases posts : posting last with
  | none => simp [posts, posted]
  | some p => simp [posts, posted, replay]

variable [PartialOrder M]

/-- Only the spender of a posting can lose by it. -/
theorem Posting.spender_of_loss {posting : Posting A M} (nonneg : 0 ≤ posting.amount) {a : A}
    (loss : posting.effect a < 0) : posting.spender = some a := by
  have single : ∀ (account : A) {amount : M}, 0 ≤ amount →
      0 ≤ (Pi.single account amount : A → M) a := by
    intro account amount positive
    rw [Pi.single_apply]
    split
    · exact positive
    · exact le_refl _
  cases posting with
  | issue account amount => exact absurd loss (single account nonneg).not_gt
  | move source target amount =>
      by_contra other
      have kept : source ≠ a := fun same => other (congrArg some same)
      have gain : (Posting.move source target amount).effect a =
          (Pi.single target amount : A → M) a := by
        simp [effect, Pi.single_apply, kept.symm]
      rw [gain] at loss
      exact absurd loss (single target nonneg).not_gt
  | burn account amount =>
      by_contra other
      have kept : account ≠ a := fun same => other (congrArg some same)
      have gain : (Posting.burn account amount).effect a = 0 := by
        simp [effect, kept.symm]
      rw [gain] at loss
      exact absurd loss (lt_irrefl _)

end CarbonChain.Accounts
