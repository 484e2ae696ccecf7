import CarbonChain.Misc.Latch
import CarbonChain.Marketplace.System
import CarbonChain.MrvOracle.Readings
import CarbonChain.Retirement.Records

/-!
# What a pause keeps in Retirement, the marketplace and the oracle

The three contracts read their pause flag where they write records, offers and readings. They
run here with any callees: whatever registry a caller names, and however it answers, nothing is
written under a pause until the admin of the moment lifts it. The clean-up of the marketplace
does not read the flag, so the admin can still close expired offers.
-/

namespace CarbonChain

open Registry (Client Peer ScriptedCall)

/-- The admin of the moment lifts the pause. -/
def Lifts {S C O : Type} (admin : S → Option Address) (unpause : Address → C)
    (event : Event S (ScriptedCall C) O) : Prop :=
  ∃ a, event.input.call = unpause a ∧ admin event.pre = some a ∧ event.input.env.auth a = true

namespace Retirement

variable {sha256 : Bytes → BytesN32}

/-- The pause, and the records it keeps. -/
def pauseLatch : Latch State (ScriptedCall Call) Ret where
  holds := fun s => s.paused = true
  releases := Lifts State.admin .unpause
  keeps := fun s s' =>
    s'.retirement = s.retirement ∧ s'.accountRetirements = s.accountRetirements

theorem pauseLatch_kept (sha256 : Bytes → BytesN32) : pauseLatch.KeptBy (peer sha256).alone := by
  refine ⟨fun s => ⟨rfl, rfl⟩, ?_, ?_⟩
  · rintro s t u ⟨records, index⟩ ⟨records', index'⟩
    exact ⟨records'.trans records, index'.trans index⟩
  · rintro ⟨pre, ⟨env, call, script⟩, ret, post⟩ paused commits lasting
    obtain ⟨n, success⟩ := Registry.Peer.alone_commits.mp commits
    have paused : pre.paused = true := paused
    have dispatched := (exec_eq_ok.mp success).2
    dsimp only at dispatched
    show post.paused = true ∧ post.retirement = pre.retirement ∧
      post.accountRetirements = pre.accountRetirements
    cases call with
    | unpause admin =>
        simp only [dispatch, map_eq_ok, unpause, setPaused, State.requireAdmin, bind_eq_ok,
          requireAdmin_eq_ok] at dispatched
        obtain ⟨-, ⟨-, ⟨stored, authorised⟩, -⟩, -⟩ := dispatched
        exact absurd ⟨admin, rfl, stored, authorised⟩ lasting
    | _ =>
        simp only [dispatch, map_eq_ok, initializeContract, pause, setPaused, retire, batchRetire,
          upgrade, proposeAdmin, acceptAdmin, bind_eq_ok, rejectIf_eq_ok, exists_const,
          pure_eq_ok, Prod.exists, Prod.mk.injEq] at dispatched
        grind

end Retirement

namespace Marketplace

/-- The pause, and what it keeps: the offers, of which the clean-up may close some, their number,
their index and the amounts in escrow. -/
def pauseLatch : Latch State (ScriptedCall Call) Ret where
  holds := fun s => s.paused = true
  releases := Lifts State.admin .unpause
  keeps := fun s s' => Closes s.offer s'.offer ∧ s'.offerCount = s.offerCount ∧
    s'.sellerOffers = s.sellerOffers ∧ s'.escrowedAmount = s.escrowedAmount

theorem pauseLatch_kept (self : Address) : pauseLatch.KeptBy (peer self).alone := by
  refine ⟨fun s => ⟨Closes.refl s.offer, rfl, rfl, rfl⟩, ?_, ?_⟩
  · rintro s t u ⟨offers, count, index, escrow⟩ ⟨offers', count', index', escrow'⟩
    exact ⟨offers.trans offers', count'.trans count, index'.trans index, escrow'.trans escrow⟩
  · rintro ⟨pre, ⟨env, call, script⟩, ret, post⟩ paused commits lasting
    obtain ⟨n, success⟩ := Registry.Peer.alone_commits.mp commits
    have paused : pre.paused = true := paused
    have written := exec_offers success
    have dispatched := (exec_eq_ok.mp success).2
    dsimp only at dispatched written
    show post.paused = true ∧ Closes pre.offer post.offer ∧ post.offerCount = pre.offerCount ∧
      post.sellerOffers = pre.sellerOffers ∧ post.escrowedAmount = pre.escrowedAmount
    cases call with
    | unpause admin =>
        simp only [dispatch, map_eq_ok, unpause, setPaused, State.requireAdmin, bind_eq_ok,
          requireAdmin_eq_ok] at dispatched
        obtain ⟨-, ⟨-, ⟨stored, authorised⟩, -⟩, -⟩ := dispatched
        exact absurd ⟨admin, rfl, stored, authorised⟩ lasting
    | _ =>
        simp only [dispatch, map_eq_ok, initializeContract, pause, setPaused, createOffer,
          cancelOffer, cleanupExpiredOffers, updateMinPrice, upgrade, bind_eq_ok, rejectIf_eq_ok,
          exists_const, pure_eq_ok, Prod.exists, Prod.mk.injEq] at dispatched
        grind [Call.offer]

end Marketplace

namespace MrvOracle

/-- The pause, and the readings it keeps. -/
def pauseLatch : Latch State (ScriptedCall Call) Ret where
  holds := fun s => s.paused = true
  releases := Lifts State.admin .unpause
  keeps := fun s s' => s'.latest = s.latest ∧ s'.history = s.history ∧ s'.nonce = s.nonce

theorem pauseLatch_kept : pauseLatch.KeptBy peer.alone := by
  refine ⟨fun s => ⟨rfl, rfl, rfl⟩, ?_, ?_⟩
  · rintro s t u ⟨latest, history, nonce⟩ ⟨latest', history', nonce'⟩
    exact ⟨latest'.trans latest, history'.trans history, nonce'.trans nonce⟩
  · rintro ⟨pre, ⟨env, call, script⟩, ret, post⟩ paused commits lasting
    obtain ⟨n, success⟩ := Registry.Peer.alone_commits.mp commits
    have paused : pre.paused = true := paused
    have dispatched := (exec_eq_ok.mp success).2
    dsimp only at dispatched
    show post.paused = true ∧ post.latest = pre.latest ∧ post.history = pre.history ∧
      post.nonce = pre.nonce
    cases call with
    | unpause admin =>
        simp only [dispatch, map_eq_ok, unpause, setPaused, State.requireAdmin, bind_eq_ok,
          requireAdmin_eq_ok] at dispatched
        obtain ⟨-, ⟨-, ⟨stored, authorised⟩, -⟩, -⟩ := dispatched
        exact absurd ⟨admin, rfl, stored, authorised⟩ lasting
    | _ =>
        simp only [dispatch, map_eq_ok, initializeContract, pause, setPaused, registerOracle,
          updateMrvData, upgrade, proposeAdmin, acceptAdmin, bind_eq_ok, rejectIf_eq_ok,
          exists_const, pure_eq_ok, Prod.exists, Prod.mk.injEq, ite_eq_iff] at dispatched
        grind

end MrvOracle

/-- In every run of each of the three contracts, with any registries and any callers, a pause
lasts until the admin of the moment lifts it, and as long as it lasts nothing is retired, offered,
cancelled or read in: the records, the index of the accounts, the amounts in escrow, the numbering
of the offers and the readings stay as they were, and an offer is at most closed. -/
theorem pauses_protect (sha256 : Bytes → BytesN32) (self : Address) :
    Retirement.pauseLatch.Protects (Retirement.peer sha256).alone ∧
    Marketplace.pauseLatch.Protects (Marketplace.peer self).alone ∧
    MrvOracle.pauseLatch.Protects MrvOracle.peer.alone :=
  ⟨(Retirement.pauseLatch_kept sha256).protects, (Marketplace.pauseLatch_kept self).protects,
    MrvOracle.pauseLatch_kept.protects⟩

end CarbonChain
