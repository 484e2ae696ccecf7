import Mathlib.Data.List.Induction
import Mathlib.Data.List.Nodup

/-!
# Reading a log

What a log of events has left can be had by going through the events one by one, as the system
that wrote it did, or read off the last event that mattered. The results say that both are the
same: for registers that events write, for numbered entries that events add and amend, and for
lists of members that events change.
-/

/-! ## Splits

An event of a log splits it into what came before and what came after. The splits of a longer
log are the one at its last event and those of the log before it.
-/

namespace CarbonChain

theorem exists_split_snoc {E : Type} {P : List E → E → List E → Prop} {log : List E} {last : E} :
    (∃ before event after, log ++ [last] = before ++ event :: after ∧ P before event after) ↔
      P log last [] ∨ ∃ before event after, log = before ++ event :: after ∧
        P before event (after ++ [last]) := by
  constructor
  · rintro ⟨before, event, after, split, holds⟩
    rcases List.eq_nil_or_concat after with rfl | ⟨rest, final, rfl⟩
    · obtain ⟨rfl, single⟩ := List.append_inj' split rfl
      obtain rfl := (List.cons.inj single).1
      exact .inl holds
    · rw [List.concat_eq_append] at split holds
      rw [← List.cons_append, ← List.append_assoc] at split
      obtain ⟨rfl, single⟩ := List.append_inj' split rfl
      obtain rfl := (List.cons.inj single).1
      exact .inr ⟨before, event, rest, rfl, holds⟩
  · rintro (holds | ⟨before, event, after, rfl, holds⟩)
    · exact ⟨log, last, [], rfl, holds⟩
    · exact ⟨before, event, after ++ [last], by simp, holds⟩

end CarbonChain

/-! ## The last write

A register for each key, which events write. What a register holds is what the last event that
wrote it has written: a value, or nothing.
-/

namespace CarbonChain.Latest

variable {E K V : Type} (writes : E → K → Option (Option V))

/-- The registers after an event. -/
def written (registers : K → Option V) (event : E) : K → Option V :=
  fun key => (writes event key).getD (registers key)

/-- The registers that a log leaves. -/
def held (log : List E) : K → Option V := log.foldl (written writes) fun _ => none

@[simp] theorem held_snoc (log : List E) (event : E) :
    held writes (log ++ [event]) = written writes (held writes log) event := by
  rw [held, List.foldl_append]
  rfl

variable {writes}

theorem held_eq_some_iff {log : List E} {key : K} {value : V} :
    held writes log key = some value ↔
      ∃ before event after, log = before ++ event :: after ∧
        writes event key = some (some value) ∧ ∀ later ∈ after, writes later key = none := by
  induction log using List.reverseRecOn with
  | nil => simp [held]
  | append_singleton log last ih =>
      rw [held_snoc, exists_split_snoc, written]
      simp only [List.forall_mem_append, List.forall_mem_singleton]
      cases writes last key with
      | none => simp [ih]
      | some v => simp

end CarbonChain.Latest

/-! ## Dockets

A docket has numbered entries. Every event amends the entries there are, each by its number, and
may add one at the end, with the next number. What an entry has become can be read off the events
in two ways: the docket as a whole by going through the events one by one, a single entry from
the event that added it and the events after that one.
-/

namespace CarbonChain.Docket

variable {E A : Type} (entry : E → Option A) (amend : E → Nat → A → A)

/-- What an event makes of a docket. -/
def posted (docket : List A) (event : E) : List A :=
  docket.mapIdx (amend event) ++ (entry event).toList

/-- The docket that a log leaves. -/
def kept (log : List E) : List A := log.foldl (posted entry amend) []

/-- What the events of a log make of the entry with one number. -/
def amended (number : Nat) (first : A) (log : List E) : A :=
  log.foldl (fun a event => amend event number a) first

@[simp] theorem kept_snoc (log : List E) (event : E) :
    kept entry amend (log ++ [event]) = posted entry amend (kept entry amend log) event := by
  rw [kept, List.foldl_append]
  rfl

@[simp] theorem amended_snoc (number : Nat) (first : A) (log : List E) (event : E) :
    amended amend number first (log ++ [event]) =
      amend event number (amended amend number first log) := by
  rw [amended, List.foldl_append]
  rfl

variable {entry amend}

theorem getElem?_posted {docket : List A} {event : E} {i : Nat} :
    (posted entry amend docket event)[i]? =
      if i = docket.length then entry event else docket[i]?.map (amend event i) := by
  unfold posted
  by_cases next : i = docket.length
  · subst next
    rw [if_pos rfl, List.getElem?_append_right (by simp)]
    cases entry event <;> simp
  · rw [if_neg next]
    rcases Nat.lt_or_gt_of_ne next with earlier | later
    · rw [List.getElem?_append_left (by simpa using earlier), List.getElem?_mapIdx]
    · have beyond : docket[i]? = none := List.getElem?_eq_none (Nat.le_of_lt later)
      rw [List.getElem?_append_right (by simp; omega), beyond, List.length_mapIdx]
      cases entry event with
      | none => rfl
      | some a =>
          have past : i - docket.length ≠ 0 := by omega
          simp [past]

theorem length_posted (docket : List A) (event : E) :
    (posted entry amend docket event).length =
      docket.length + if (entry event).isSome then 1 else 0 := by
  unfold posted
  cases entry event <;> simp

/-- An entry of the docket is what the events after the one that added it made of it, and its
number is how many entries there were before. -/
theorem getElem?_kept_iff {log : List E} {i : Nat} {a : A} :
    (kept entry amend log)[i]? = some a ↔
      ∃ before event after, log = before ++ event :: after ∧ ∃ first, entry event = some first ∧
        (kept entry amend before).length = i ∧ amended amend i first after = a := by
  induction log using List.reverseRecOn generalizing a with
  | nil => simp [kept]
  | append_singleton log last ih =>
      rw [kept_snoc, getElem?_posted, exists_split_snoc]
      constructor
      · intro found
        split at found
        · next next => exact .inl ⟨a, found, next.symm, rfl⟩
        · obtain ⟨earlier, stored, rfl⟩ := Option.map_eq_some_iff.mp found
          obtain ⟨before, event, after, split, first, adds, number, rfl⟩ := ih.mp stored
          exact .inr ⟨before, event, after, split, first, adds, number, by rw [amended_snoc]⟩
      · rintro (⟨first, adds, number, rfl⟩ |
          ⟨before, event, after, split, first, adds, number, rfl⟩)
        · rw [if_pos number.symm]
          exact adds
        · have stored := ih.mpr ⟨before, event, after, split, first, adds, number, rfl⟩
          have earlier : i < (kept entry amend log).length :=
            (List.getElem?_eq_some_iff.mp stored).1
          rw [if_neg (Nat.ne_of_lt earlier), stored, amended_snoc]
          rfl

end CarbonChain.Docket

/-! ## Rosters

A roster is a list of members that changes add to, remove from or replace. Who is a member is
decided by the last change that concerns them.
-/

namespace CarbonChain.Roster

variable {A : Type} [DecidableEq A]

/-- A change of a set that is kept as a list. -/
inductive Change (A : Type) where
  | add (a : A)
  | remove (a : A)
  | reset (members : List A)

/-- The members after a change: one who is there already is not added again. -/
def Change.apply (members : List A) : Change A → List A
  | .add a => if a ∈ members then members else members ++ [a]
  | .remove a => members.filter (· != a)
  | .reset members => members

/-- The members after an entry that may be a change. -/
def changed (members : List A) (change : Option (Change A)) : List A :=
  change.elim members (Change.apply members)

/-- The roster that the changes leave, from an empty one. -/
def replay (changes : List (Change A)) : List A := changes.foldl Change.apply []

/-- The change makes `a` a member. -/
def Change.Admits (a : A) : Change A → Prop
  | .add b => b = a
  | .remove _ => False
  | .reset members => a ∈ members

/-- The change leaves `a` no member. -/
def Change.Expels (a : A) : Change A → Prop
  | .add _ => False
  | .remove b => b = a
  | .reset members => a ∉ members

theorem Change.mem_apply {members : List A} {change : Change A} {a : A} :
    a ∈ change.apply members ↔ change.Admits a ∨ a ∈ members ∧ ¬ change.Expels a := by
  cases change with
  | add b =>
      by_cases listed : b ∈ members
      · simp only [apply, if_pos listed, Admits, Expels, not_false_eq_true, and_true]
        constructor
        · exact .inr
        · rintro (rfl | member)
          · exact listed
          · exact member
      · simp only [apply, if_neg listed, Admits, Expels, List.mem_append, List.mem_singleton,
          not_false_eq_true, and_true]
        rw [or_comm, @eq_comm _ a b]
  | remove b =>
      simp only [apply, Admits, Expels, List.mem_filter, bne_iff_ne, false_or, ne_eq]
      rw [@eq_comm _ a b]
  | reset members' => simp [apply, Admits, Expels]

theorem replay_snoc {E : Type} (change : E → Option (Change A)) (log : List E) (last : E) :
    replay ((log ++ [last]).filterMap change) =
      changed (replay (log.filterMap change)) (change last) := by
  rw [List.filterMap_append]
  cases changes : change last with
  | none => simp [changes, changed]
  | some c => simp [changes, changed, replay, List.foldl_append]

/-- The roster that the entries of a log leave, of which some are changes: a member is one whom
an entry has made a member and no later one has expelled. -/
theorem mem_replay_iff {E : Type} {change : E → Option (Change A)} {log : List E} {a : A} :
    a ∈ replay (log.filterMap change) ↔ ∃ before entry after, log = before ++ entry :: after ∧
      (∃ c, change entry = some c ∧ c.Admits a) ∧
      ∀ later ∈ after, ∀ c, change later = some c → ¬ c.Expels a := by
  induction log using List.reverseRecOn with
  | nil => simp [replay]
  | append_singleton log last ih =>
      have stepped : a ∈ replay ((log ++ [last]).filterMap change) ↔
          (∃ c, change last = some c ∧ c.Admits a) ∨
            a ∈ replay (log.filterMap change) ∧ ∀ c, change last = some c → ¬ c.Expels a := by
        rw [replay_snoc]
        cases change last with
        | none => simp [changed]
        | some c => simp [changed, Change.mem_apply]
      rw [stepped, ih, exists_split_snoc]
      constructor
      · rintro (admits | ⟨⟨before, entry, after, split, admits, kept⟩, stays⟩)
        · exact .inl ⟨admits, by simp⟩
        · refine .inr ⟨before, entry, after, split, admits, ?_⟩
          intro later listed
          rcases List.mem_append.mp listed with earlier | final
          · exact kept later earlier
          · rw [List.mem_singleton.mp final]
            exact stays
      · rintro (⟨admits, -⟩ | ⟨before, entry, after, split, admits, kept⟩)
        · exact .inl admits
        · refine .inr ⟨⟨before, entry, after, split, admits, ?_⟩, ?_⟩
          · exact fun later listed => kept later (List.mem_append_left _ listed)
          · exact kept last List.mem_concat_self

/-- A roster has no member twice, where no change replaces it by one that has. -/
theorem nodup_replay {changes : List (Change A)}
    (tidy : ∀ members, .reset members ∈ changes → members.Nodup) : (replay changes).Nodup := by
  induction changes using List.reverseRecOn with
  | nil => exact List.nodup_nil
  | append_singleton changes last ih =>
      have distinct := ih fun members listed => tidy members (List.mem_append_left _ listed)
      have stepped : replay (changes ++ [last]) = last.apply (replay changes) := by
        simp [replay, List.foldl_append]
      rw [stepped]
      cases last with
      | add a =>
          by_cases listed : a ∈ replay changes
          · simp only [Change.apply, if_pos listed]
            exact distinct
          · simp only [Change.apply, if_neg listed]
            exact List.nodup_append_comm.mp (List.nodup_cons.mpr ⟨listed, distinct⟩)
      | remove a => exact distinct.filter _
      | reset members => exact tidy members List.mem_concat_self

end CarbonChain.Roster
