import Mathlib.Data.Finset.Card

/-!
# Tallies

Each watcher of a pool of items keeps a counter for the open items that were opened while
it watched. The counters are kept by bookkeeping that knows the watchers of the moment but
not those of the past: opening an item raises the counters of all watchers, and a close
that is counted lowers them all, down to zero. The tally stays exact as long as what an
entry does to the counters fits who was watching when the item was opened.
-/

namespace CarbonChain

/-- Who watches, the open items of each watcher, and the counters. -/
structure Tally (P I : Type) where
  watching : P → Prop
  opened : P → Finset I
  count : P → Nat

namespace Tally

variable {P I : Type}

/-- What the bookkeeping does at once. -/
inductive Entry (P I : Type) where
  | idle
  /-- The item is opened and the counters rise. -/
  | opened (item : I)
  /-- The item is closed and the counters fall. -/
  | counted (item : I)
  /-- The item is closed and the counters stay. -/
  | uncounted (item : I)
  /-- The item is closed, two others are opened for it, and the counters stay. -/
  | renewed (item first second : I)
  | enrolled (watcher : P)
  /-- A watcher leaves, whose counter is at zero. -/
  | dismissed (watcher : P)

namespace Entry

/-- The item that an entry closes. -/
def closes : Entry P I → Option I
  | .counted item | .uncounted item | .renewed item _ _ => some item
  | _ => none

/-- The items that an entry opens. -/
def opens : Entry P I → List I
  | .opened item => [item]
  | .renewed _ first second => [first, second]
  | _ => []

/-- What an entry does to the counter of a watcher. -/
def counts : Entry P I → Nat → Nat
  | .opened _, n => n + 1
  | .counted _, n => n - 1
  | _, n => n

theorem counts_le (entry : Entry P I) (n : Nat) : entry.counts n ≤ n + 1 := by
  cases entry <;> simp only [counts] <;> omega

/-- Who watches after an entry. -/
def watches (watching : P → Prop) : Entry P I → P → Prop
  | .enrolled watcher, p => watching p ∨ p = watcher
  | .dismissed watcher, p => watching p ∧ p ≠ watcher
  | _, p => watching p

end Entry

/-- The tally `t'` is `t` after the entry. -/
structure Follows (t : Tally P I) (entry : Entry P I) (t' : Tally P I) : Prop where
  watching : ∀ p, t'.watching p ↔ entry.watches t.watching p
  opened : ∀ p i, i ∈ t'.opened p ↔
    i ∈ t.opened p ∧ entry.closes ≠ some i ∨ i ∈ entry.opens ∧ t.watching p
  counted : ∀ p, t.watching p → t'.count p = entry.counts (t.count p)
  uncounted : ∀ p, ¬ t.watching p → t'.count p = t.count p
  fresh : ∀ i ∈ entry.opens, ∀ p, i ∉ t.opened p
  distinct : entry.opens.Nodup
  idle : ∀ p, entry = .dismissed p → t.count p = 0

/-- The counter of every watcher is the number of its open items. -/
def Exact (t : Tally P I) : Prop := ∀ p, t.watching p → t.count p = (t.opened p).card

/-- Who does not watch has no open items and a counter at zero. -/
def Settled (t : Tally P I) : Prop := ∀ p, ¬ t.watching p → t.count p = 0 ∧ t.opened p = ∅

/-- What the entry does to the counters fits the open items of the watchers. -/
def Fair (t : Tally P I) : Entry P I → Prop
  | .counted item => ∀ p, t.watching p → item ∈ t.opened p ∨ t.opened p = ∅
  | .uncounted item => ∀ p, t.watching p → item ∉ t.opened p
  | .renewed _ _ _ => ∀ p, ¬ t.watching p
  | _ => True

/-- What the entry does to the counter of a watcher fits the open items of this watcher. -/
def FairTo (opened : Finset I) : Entry P I → Prop
  | .counted item => item ∈ opened ∨ opened = ∅
  | .uncounted item => item ∉ opened
  | .renewed _ _ _ => False
  | _ => True

variable {t t' : Tally P I} {entry : Entry P I}

theorem fair_iff : t.Fair entry ↔ ∀ p, t.watching p → FairTo (t.opened p) entry := by
  cases entry with
  | counted item => exact Iff.rfl
  | uncounted item => exact Iff.rfl
  | renewed item first second => exact Iff.rfl
  | _ => exact ⟨fun _ _ _ => trivial, fun _ => trivial⟩

/-- A watcher stays unless it is dismissed. -/
theorem Follows.stays (follows : t.Follows entry t') {p : P} (watching : t.watching p)
    (undismissed : entry ≠ .dismissed p) : t'.watching p := by
  rw [follows.watching]
  cases entry with
  | enrolled watcher => exact .inl watching
  | dismissed watcher =>
      refine ⟨watching, ?_⟩
      rintro rfl
      exact undismissed rfl
  | _ => exact watching

variable [DecidableEq I]

/-- The open items of one watcher after an entry. -/
theorem Follows.opened_watching (follows : t.Follows entry t') {p : P} (watching : t.watching p) :
    t'.opened p = match entry with
      | .opened item => insert item (t.opened p)
      | .counted item | .uncounted item => (t.opened p).erase item
      | .renewed item first second => insert first (insert second ((t.opened p).erase item))
      | _ => t.opened p := by
  ext i
  rw [follows.opened]
  cases entry <;> simp only [Entry.closes, Entry.opens, Finset.mem_insert, Finset.mem_erase,
    List.mem_cons, List.not_mem_nil, or_false, ne_eq, Option.some.injEq, reduceCtorEq,
    not_false_eq_true, and_true, watching]
  case opened item => exact or_comm
  case counted item => rw [and_comm, eq_comm]
  case uncounted item => rw [and_comm, eq_comm]
  case renewed item first second =>
    rw [or_comm, or_assoc, and_comm (a := ¬ i = item), eq_comm (a := i) (b := item)]

/-- Closing one of `n` counted items. -/
theorem card_erase_eq_pred_iff {items : Finset I} {item : I} :
    items.card - 1 = (items.erase item).card ↔ item ∈ items ∨ items = ∅ := by
  by_cases member : item ∈ items
  · rw [Finset.card_erase_of_mem member]
    exact ⟨fun _ => .inl member, fun _ => rfl⟩
  · rw [Finset.erase_eq_of_notMem member, ← Finset.card_eq_zero]
    constructor
    · intro same
      right
      omega
    · rintro (listed | empty)
      · exact absurd listed member
      · omega

theorem card_eq_card_erase_iff {items : Finset I} {item : I} :
    items.card = (items.erase item).card ↔ item ∉ items := by
  by_cases member : item ∈ items
  · have fewer := Finset.card_erase_lt_of_mem member
    constructor
    · intro same
      omega
    · exact fun absent => absurd member absent
  · rw [Finset.erase_eq_of_notMem member]
    exact ⟨fun _ => member, fun _ => rfl⟩

/-- A renewal gives one watcher more open items than it had. -/
theorem card_lt_card_renewed {items : Finset I} (item : I) {first second : I}
    (ne : first ≠ second) (new1 : first ∉ items) (new2 : second ∉ items) :
    items.card < (insert first (insert second (items.erase item))).card := by
  have absent2 : second ∉ items.erase item := fun member => new2 (Finset.mem_of_mem_erase member)
  have absent1 : first ∉ insert second (items.erase item) := by
    intro member
    rcases Finset.mem_insert.mp member with same | earlier
    · exact ne same
    · exact new1 (Finset.mem_of_mem_erase earlier)
  rw [Finset.card_insert_of_notMem absent1, Finset.card_insert_of_notMem absent2]
  have := Finset.pred_card_le_card_erase (s := items) (a := item)
  omega

/-- One watcher stays exact if and only if the entry is fair to it. -/
theorem Follows.exact_at (follows : t.Follows entry t') {p : P} (watching : t.watching p)
    (exact_ : t.count p = (t.opened p).card) :
    t'.count p = (t'.opened p).card ↔ FairTo (t.opened p) entry := by
  rw [follows.opened_watching watching, follows.counted p watching, exact_]
  cases entry with
  | opened item =>
      have absent := follows.fresh item (List.mem_singleton_self item) p
      rw [Finset.card_insert_of_notMem absent]
      exact ⟨fun _ => trivial, fun _ => rfl⟩
  | counted item => exact card_erase_eq_pred_iff
  | uncounted item => exact card_eq_card_erase_iff
  | renewed item first second =>
      have ne : first ≠ second := by
        have distinct := follows.distinct
        simpa [Entry.opens] using distinct
      have new1 := follows.fresh first (by simp [Entry.opens]) p
      have new2 := follows.fresh second (by simp [Entry.opens]) p
      have more := card_lt_card_renewed item ne new1 new2
      constructor
      · intro same
        have same' : (t.opened p).card =
            (insert first (insert second ((t.opened p).erase item))).card := same
        omega
      · exact False.elim
  | _ => exact ⟨fun _ => trivial, fun _ => rfl⟩

/-- A newcomer is exact, and so is every other watcher under a fair entry. -/
theorem Follows.exact_iff (follows : t.Follows entry t') (exact_ : t.Exact)
    (settled : t.Settled) : t'.Exact ↔ t.Fair entry := by
  rw [fair_iff]
  constructor
  · intro after p watching
    by_cases dismissed : entry = .dismissed p
    · subst dismissed
      trivial
    · have now := after p (follows.stays watching dismissed)
      exact (follows.exact_at watching (exact_ p watching)).mp now
  · intro fair p watching'
    by_cases watching : t.watching p
    · rw [follows.exact_at watching (exact_ p watching)]
      exact fair p watching
    · -- whoever watches now and did not before has nothing open and nothing counted
      obtain ⟨zero, empty⟩ := settled p watching
      have now := (follows.watching p).mp watching'
      have same : t'.opened p = ∅ := by
        ext i
        rw [follows.opened, empty]
        simp [watching]
      rw [follows.uncounted p watching, zero, same, Finset.card_empty]

/-- A watcher leaves with nothing open, and nothing is opened for those who do not watch. -/
theorem Follows.settled (follows : t.Follows entry t') (exact_ : t.Exact)
    (settled : t.Settled) : t'.Settled := by
  intro p away
  by_cases watching : t.watching p
  · have dismissed : entry = .dismissed p := by
      by_contra undismissed
      exact away (follows.stays watching undismissed)
    have zero := follows.idle p dismissed
    have empty : t.opened p = ∅ := by
      rw [← Finset.card_eq_zero, ← exact_ p watching]
      exact zero
    subst dismissed
    refine ⟨?_, ?_⟩
    · rw [follows.counted p watching]
      exact zero
    · rw [follows.opened_watching watching]
      exact empty
  · obtain ⟨zero, empty⟩ := settled p watching
    refine ⟨?_, ?_⟩
    · rw [follows.uncounted p watching]
      exact zero
    · ext i
      rw [follows.opened, empty]
      simp [watching]

end Tally

end CarbonChain
