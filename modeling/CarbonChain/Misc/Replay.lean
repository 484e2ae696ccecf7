import CarbonChain.Misc.Machine
import Mathlib.Data.List.Nodup
import Mathlib.Logic.Function.Basic

/-!
# Numbered requests

Every party has a counter, and a request that spends a number of a party is let through
only with the number the counter shows, which it advances. `KeptBy.spentBy_eq_range` says
what a machine that keeps such counters lets through in a run: the numbers of a party come
in order, from zero and without a gap, however many kinds of requests spend them.
-/

namespace CarbonChain

/-- The counters of a state, and the party and the number that an input spends. -/
structure Numbering (S I A : Type) where
  next : S → A → Nat
  spends : I → Option (A × Nat)

namespace Numbering

variable {S I O E A : Type} (numbering : Numbering S I A)

/-- The numbers that the events of a log spend, with their parties. -/
def spent (log : List (Event S I O)) : List (A × Nat) :=
  log.filterMap fun event => numbering.spends event.input

theorem spent_snoc {log : List (Event S I O)} {event : Event S I O} :
    numbering.spent (log ++ [event]) =
      numbering.spent log ++ (numbering.spends event.input).toList := by
  unfold spent
  rw [List.filterMap_append, List.filterMap_cons]
  cases numbering.spends event.input <;> rfl

variable [DecidableEq A]

/-- The event spends the number that the counter shows, and advances no other counter. -/
def Obeys (event : Event S I O) : Prop :=
  match numbering.spends event.input with
  | none => numbering.next event.post = numbering.next event.pre
  | some (a, n) =>
      numbering.next event.pre a = n ∧
        numbering.next event.post = Function.update (numbering.next event.pre) a (n + 1)

/-- The counters start at zero, and every committed invocation obeys them. -/
structure KeptBy (M : Machine S I O E) : Prop where
  start : ∀ a, numbering.next M.init a = 0
  obeys : ∀ event, M.Commits event → numbering.Obeys event

/-- The numbers of one party that the events of a log spend. -/
def spentBy (log : List (Event S I O)) (a : A) : List Nat :=
  ((numbering.spent log).filter (·.1 = a)).map Prod.snd

variable {numbering} {log : List (Event S I O)} {event : Event S I O} {M : Machine S I O E}

theorem mem_spentBy {a : A} {n : Nat} :
    n ∈ numbering.spentBy log a ↔ (a, n) ∈ numbering.spent log := by
  simp [spentBy]

theorem spentBy_snoc_of_none (silent : numbering.spends event.input = none) (a : A) :
    numbering.spentBy (log ++ [event]) a = numbering.spentBy log a := by
  simp [spentBy, spent_snoc, silent]

theorem spentBy_snoc_of_some {a : A} {n : Nat} (spends : numbering.spends event.input = some (a, n))
    (b : A) : numbering.spentBy (log ++ [event]) b =
      if b = a then numbering.spentBy log b ++ [n] else numbering.spentBy log b := by
  by_cases same : b = a
  · simp [spentBy, spent_snoc, spends, same]
  · simp [spentBy, spent_snoc, spends, same, Ne.symm same]

/-- What was spent is exactly what the counters have passed, once and in order. -/
structure Exact (numbering : Numbering S I A) (log : List (Event S I O)) (s : S) : Prop where
  inOrder : ∀ a, numbering.spentBy log a = List.range (numbering.next s a)
  once : (numbering.spent log).Nodup

theorem Exact.step (exact_ : numbering.Exact log event.pre) (obeys : numbering.Obeys event) :
    numbering.Exact (log ++ [event]) event.post := by
  unfold Obeys at obeys
  cases spends : numbering.spends event.input with
  | none =>
      rw [spends] at obeys
      refine ⟨?_, ?_⟩
      · intro a
        rw [spentBy_snoc_of_none spends, exact_.inOrder a, obeys]
      · rw [spent_snoc, spends]
        simpa using exact_.once
  | some spending =>
      obtain ⟨a, n⟩ := spending
      rw [spends] at obeys
      obtain ⟨shown, advanced⟩ := obeys
      refine ⟨?_, ?_⟩
      · intro b
        rw [spentBy_snoc_of_some spends, exact_.inOrder b, advanced]
        split
        · next same =>
            rw [same, Function.update_self, shown, List.range_succ]
        · next other => rw [Function.update_of_ne other]
      · -- the counter shows a number that no earlier event has spent
        have unspent : (a, n) ∉ numbering.spent log := by
          rw [← mem_spentBy, exact_.inOrder a, shown]
          exact List.not_mem_range_self
        rw [spent_snoc, spends, Option.toList_some, ← List.concat_eq_append, List.nodup_concat]
        exact ⟨unspent, exact_.once⟩

theorem KeptBy.exact (kept : numbering.KeptBy M) (inputs : List I) :
    numbering.Exact (M.log inputs) (M.state inputs) := by
  refine M.run_induct (fun log s => numbering.Exact log s) ?_ ?_ inputs
  · refine ⟨fun a => ?_, List.nodup_nil⟩
    rw [kept.start a]
    rfl
  · exact fun log event exact_ commits => exact_.step (kept.obeys event commits)

/-- The numbers of a party come in order, from zero and without a gap. -/
theorem KeptBy.spentBy_eq_range (kept : numbering.KeptBy M) (inputs : List I) (a : A) :
    numbering.spentBy (M.log inputs) a = List.range (numbering.next (M.state inputs) a) :=
  (kept.exact inputs).inOrder a

/-- No number of a party is spent twice. -/
theorem KeptBy.spent_nodup (kept : numbering.KeptBy M) (inputs : List I) :
    (numbering.spent (M.log inputs)).Nodup :=
  (kept.exact inputs).once

end Numbering

end CarbonChain
