import Mathlib.Order.Basic

/-!
# Escrow

A custodian takes items into its own name against receipts and hands each item back to
the party on the receipt. What makes that safe is not that every receipt is honoured but
that the open receipts are sound: each is for an item in custody and names the item's
last depositor, and no item has two. A sound custodian releases an item to its last
depositor only.
-/

namespace CarbonChain

/-- Receipts `R` for items `I` of parties `P`: who owns each item, which receipts are open
and who deposited each item last. -/
structure Escrow (R I P : Type) where
  owner : I → Option P
  receipt : R → I → P → Prop
  depositor : I → Option P

namespace Escrow

variable {R I P : Type} [DecidableEq I]

/-- The open receipts are sound for the custodian `custodian`. -/
structure Sound (custodian : P) (e : Escrow R I P) : Prop where
  held : ∀ r i p, e.receipt r i p → e.owner i = some custodian
  depositor : ∀ r i p, e.receipt r i p → e.depositor i = some p
  unique : ∀ r r' i p p', e.receipt r i p → e.receipt r' i p' → r = r'

/-- What may happen to the escrow of `custodian` at once. -/
inductive Step (custodian : P) (e e' : Escrow R I P) : Prop where
  /-- Nothing leaves custody and no receipt is issued. -/
  | idle (owner : ∀ i, e.owner i = some custodian → e'.owner i = some custodian)
      (receipt : ∀ r i p, e'.receipt r i p → e.receipt r i p)
      (depositor : e'.depositor = e.depositor)
  /-- An item from outside is taken against a receipt. -/
  | deposit (r : R) (i : I) (p : P) (outside : e.owner i ≠ some custodian)
      (owner : ∀ j, e.owner j = some custodian → e'.owner j = some custodian)
      (taken : e'.owner i = some custodian)
      (receipt : ∀ r' j q, e'.receipt r' j q → e.receipt r' j q ∨ r' = r ∧ j = i ∧ q = p)
      (depositor : ∀ j, e'.depositor j = if j = i then some p else e.depositor j)
  /-- An item is handed back for its receipt. -/
  | withdraw (r : R) (i : I) (p : P) (opened : e.receipt r i p)
      (owner : ∀ j, j ≠ i → e.owner j = some custodian → e'.owner j = some custodian)
      (released : e'.owner i = some p)
      (receipt : ∀ r' j q, e'.receipt r' j q → e.receipt r' j q ∧ r' ≠ r)
      (depositor : e'.depositor = e.depositor)

variable {custodian : P} {e e' : Escrow R I P}

theorem Sound.step (sound : e.Sound custodian) (step : Step custodian e e') :
    e'.Sound custodian := by
  cases step with
  | idle owner receipt depositor =>
      refine ⟨?_, ?_, ?_⟩
      · intro r i p opened
        exact owner i (sound.held r i p (receipt r i p opened))
      · intro r i p opened
        rw [depositor]
        exact sound.depositor r i p (receipt r i p opened)
      · intro r r' i p p' opened opened'
        exact sound.unique r r' i p p' (receipt r i p opened) (receipt r' i p' opened')
  | deposit r₀ i₀ p₀ outside owner taken receipt depositor =>
      -- an older receipt is for an item in custody, so not for the item taken now
      have older : ∀ r i p, e.receipt r i p → i ≠ i₀ := by
        intro r i p opened same
        rw [same] at opened
        exact outside (sound.held r i₀ p opened)
      refine ⟨?_, ?_, ?_⟩
      · intro r i p opened
        rcases receipt r i p opened with earlier | ⟨-, same, -⟩
        · exact owner i (sound.held r i p earlier)
        · rw [same]
          exact taken
      · intro r i p opened
        rw [depositor]
        rcases receipt r i p opened with earlier | ⟨-, sameItem, sameParty⟩
        · rw [if_neg (older r i p earlier)]
          exact sound.depositor r i p earlier
        · rw [if_pos sameItem, sameParty]
      · intro r r' i p p' opened opened'
        rcases receipt r i p opened with earlier | ⟨new, same, -⟩ <;>
          rcases receipt r' i p' opened' with earlier' | ⟨new', same', -⟩
        · exact sound.unique r r' i p p' earlier earlier'
        · exact absurd same' (older r i p earlier)
        · exact absurd same (older r' i p' earlier')
        · rw [new, new']
  | withdraw r₀ i₀ p₀ opened₀ owner released receipt depositor =>
      refine ⟨?_, ?_, ?_⟩
      · intro r i p opened
        rcases receipt r i p opened with ⟨earlier, other⟩
        have elsewhere : i ≠ i₀ := by
          intro same
          rw [same] at earlier
          exact other (sound.unique r r₀ i₀ p p₀ earlier opened₀)
        exact owner i elsewhere (sound.held r i p earlier)
      · intro r i p opened
        rw [depositor]
        exact sound.depositor r i p (receipt r i p opened).1
      · intro r r' i p p' opened opened'
        exact sound.unique r r' i p p' (receipt r i p opened).1 (receipt r' i p' opened').1

/-- What leaves a sound custody goes to whoever deposited it last. -/
theorem Sound.released (sound : e.Sound custodian) (step : Step custodian e e') {i : I}
    (held : e.owner i = some custodian) (left : e'.owner i ≠ some custodian) :
    e'.owner i = e.depositor i := by
  cases step with
  | idle owner receipt depositor => exact absurd (owner i held) left
  | deposit r₀ i₀ p₀ outside owner taken receipt depositor => exact absurd (owner i held) left
  | withdraw r₀ i₀ p₀ opened₀ owner released receipt depositor =>
      by_cases same : i = i₀
      · rw [same, released]
        exact (sound.depositor r₀ i₀ p₀ opened₀).symm
      · exact absurd (owner i same held) left

end Escrow

end CarbonChain
