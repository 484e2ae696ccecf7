import CarbonChain.Misc.Machine

/-!
# Latches

A latch holds in some states of a machine until an event releases it. While it holds, every
step follows a preorder between states, the identity on what the latch protects. So from
any state in which it holds to any later one, the run follows the preorder, or the latch
was released on the way.
-/

namespace CarbonChain

/-- A condition on states, the events that end it, and what it preserves from state to state.
-/
structure Latch (S I O : Type) where
  holds : S → Prop
  releases : Event S I O → Prop
  keeps : S → S → Prop

namespace Latch

variable {S I O E : Type} (latch : Latch S I O) (M : Machine S I O E)

/-- A step of the machine from a state in which the latch holds releases it, or keeps it and what
it protects. -/
structure KeptBy : Prop where
  refl : ∀ s, latch.keeps s s
  trans : ∀ s t u, latch.keeps s t → latch.keeps t u → latch.keeps s u
  step : ∀ event, latch.holds event.pre → M.Commits event → ¬ latch.releases event →
    latch.holds event.post ∧ latch.keeps event.pre event.post

/-- From every state of a run in which the latch holds, it and what it protects are kept as long
as no event releases it. -/
def Protects : Prop :=
  ∀ earlier later, latch.holds (M.state earlier) →
    ∃ more, M.log (earlier ++ later) = M.log earlier ++ more ∧
      ((∃ event ∈ more, latch.releases event) ∨
        latch.holds (M.state (earlier ++ later)) ∧
          latch.keeps (M.state earlier) (M.state (earlier ++ later)))

variable {latch M}

theorem KeptBy.protects (kept : latch.KeptBy M) : latch.Protects M := by
  intro earlier later closed
  induction later using List.reverseRecOn with
  | nil =>
      refine ⟨[], by simp, .inr ?_⟩
      rw [List.append_nil]
      exact ⟨closed, kept.refl (M.state earlier)⟩
  | append_singleton later input ih =>
      obtain ⟨more, logged, outcome⟩ := ih
      rw [← List.append_assoc]
      cases committed : M.exec (M.state (earlier ++ later)) input with
      | error failure =>
          rw [(M.snoc_of_error committed).1, (M.snoc_of_error committed).2]
          exact ⟨more, logged, outcome⟩
      | ok result =>
          obtain ⟨output, post⟩ := result
          let event : Event S I O := ⟨M.state (earlier ++ later), input, output, post⟩
          rw [(M.snoc_of_ok committed).1, (M.snoc_of_ok committed).2, logged]
          refine ⟨more ++ [event], List.append_assoc _ _ _, ?_⟩
          rcases outcome with ⟨e, listed, releases⟩ | ⟨held, followed⟩
          · exact .inl ⟨e, List.mem_append_left _ listed, releases⟩
          by_cases releases : latch.releases event
          · exact .inl ⟨event, List.mem_concat_self, releases⟩
          · have step := kept.step event held committed releases
            exact .inr ⟨step.1, kept.trans _ _ _ followed step.2⟩

end Latch

end CarbonChain
