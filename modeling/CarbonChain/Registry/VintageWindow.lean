import CarbonChain.Misc.Calendar
import CarbonChain.Registry.Effect

/-!
# CreditRegistry: which vintages are accepted

`submit_credit` (`contracts/credit_registry/src/lib.rs:315-405`) accepts vintages from 1990
to the year after the current one. It counts the current year in years of 365 days, so its
calendar runs ahead of the real one by the leap days since 1970: on the last days of a
year, the last fourteen in 2025, it accepts the vintage after the next one.
-/

namespace CarbonChain.Registry

variable {sha256 : Bytes → BytesN32}

/-- The call of `submit_credit` that makes a submission. -/
def Submission.call (sub : Submission) : Call :=
  .submitCredit sub.issuer sub.projectId sub.vintageYear sub.methodology sub.geography sub.tonnes
    sub.ipfsHash sub.nonce

/-- The checks of `submit_credit` other than the one of the window of vintages. -/
structure OtherChecks (env : Env) (s : State) (sub : Submission) : Prop where
  current : s.roles.wasm = none
  hasAdmin : s.roles.hasAdmin = true
  unpaused : s.roles.paused = false
  authorised : env.auth sub.issuer = true
  nonce : nonceOf s.nonce sub.issuer = sub.nonce
  nonceRoom : sub.nonce + 1 < 2 ^ 64
  project : (s.project.lookup sub.projectId).isSome = true
  issuer : s.roles.isIssuer sub.issuer = true
  methodology : s.roles.isMethodologyValid sub.methodology = true
  positive : 0 < sub.tonnes
  bounded : sub.tonnes ≤ 1000000000000000
  geography : 2 ≤ sub.geography.utf8ByteSize
  unique : s.ledger.duplicateExists sub.projectId sub.vintageYear = false
  counter : s.ledger.creditNonce + 1 < 2 ^ 64
  pending : ∃ verifiers, s.verifiers.incrementAllPending s.roles.verifierSet = .ok verifiers

/-- The window of vintages that `submit_credit` computes. -/
def InWindow (env : Env) (vintageYear : Nat) : Prop :=
  1990 ≤ vintageYear ∧ vintageYear ≤ env.timestamp / 31536000 % 2 ^ 32 + 1971 ∧
    env.timestamp / 31536000 % 2 ^ 32 + 1971 < 2 ^ 32

theorem submitCredit_of_checks {env : Env} {s : State} {sub : Submission}
    (checks : OtherChecks env s sub) (window : InWindow env sub.vintageYear) :
    ∃ id s', submitCredit sha256 env s sub.issuer sub.projectId sub.vintageYear sub.methodology
      sub.geography sub.tonnes sub.ipfsHash sub.nonce = .ok (id, s') := by
  rcases checks.pending with ⟨verifiers, pending⟩
  rcases window with ⟨late, early, fits⟩
  have project := checks.project
  rw [Option.isSome_iff_ne_none] at project
  simp only [submitCredit, currentYear, bind_eq_ok, rejectIf_eq_ok, Env.requireAuth_eq_ok,
    exists_const, addUnsigned_eq_ok, Ledger.nextCreditId_eq_ok, pure_eq_ok, Prod.exists,
    Prod.mk.injEq, State.consumeNonce, consumeNonce_eq_ok]
  refine ⟨_, _, ?_, ?_, checks.authorised, _, ⟨checks.nonce, ?_, rfl⟩, ?_, ?_, ?_, ?_, ?_, _,
    ⟨?_, rfl⟩, ?_, _, ⟨?_, rfl⟩, ?_, ?_, ?_, _, _, ⟨checks.counter, rfl, rfl⟩, verifiers, pending,
    rfl, rfl⟩
  · simp [checks.hasAdmin]
  · simp [checks.unpaused]
  · rw [checks.nonce]
    exact checks.nonceRoom
  · simpa using project
  · simp [checks.issuer]
  · simp [checks.methodology]
  · have positive := checks.positive
    omega
  · have bounded := checks.bounded
    omega
  · omega
  · omega
  · omega
  · omega
  · have geography := checks.geography
    omega
  · simp [checks.unique]

theorem checks_of_submitCredit {env : Env} {s s' : State} {sub : Submission} {id : BytesN32}
    (current : s.roles.wasm = none)
    (h : submitCredit sha256 env s sub.issuer sub.projectId sub.vintageYear sub.methodology
      sub.geography sub.tonnes sub.ipfsHash sub.nonce = .ok (id, s')) :
    OtherChecks env s sub ∧ InWindow env sub.vintageYear := by
  simp only [submitCredit, currentYear, bind_eq_ok, rejectIf_eq_ok, Env.requireAuth_eq_ok,
    exists_const, addUnsigned_eq_ok, Ledger.nextCreditId_eq_ok, pure_eq_ok, Prod.exists,
    Prod.mk.injEq, State.consumeNonce, consumeNonce_eq_ok] at h
  rcases h with ⟨hasAdmin, unpaused, authorised, _, ⟨nonce, nonceRoom, -⟩, project, issuer,
    methodology, positive, bounded, year, ⟨-, rfl⟩, late, lastYear, ⟨fits, rfl⟩, early, geography,
    unique, _, _, ⟨counter, -, -⟩, verifiers, pending, -⟩
  rw [nonce] at nonceRoom
  refine ⟨?_, by omega, by omega, by omega⟩
  refine ⟨current, by simpa using hasAdmin, by simpa using unpaused, authorised, nonce, nonceRoom,
    ?_, by simpa using issuer, by simpa using methodology, by omega, by omega, by omega,
    by simpa using unique, counter, verifiers, pending⟩
  rw [Option.isSome_iff_ne_none]
  simpa using project

/-- `submit_credit` succeeds if and only if the vintage is in the window and the other checks
are satisfied. -/
theorem submitCredit_succeeds {env : Env} {s : State} {sub : Submission} :
    (∃ result, exec sha256 s ⟨env, sub.call⟩ = .ok result) ↔
      OtherChecks env s sub ∧ InWindow env sub.vintageYear := by
  constructor
  · rintro ⟨⟨ret, s'⟩, success⟩
    have called := (exec_eq_ok sha256 s).mp success
    rcases Result.id_eq_ok.mp called.2 with ⟨id, submitted, -⟩
    exact checks_of_submitCredit called.1 submitted
  · rintro ⟨checks, window⟩
    rcases submitCredit_of_checks checks window with ⟨id, s', submitted⟩
    refine ⟨(.id id, s'), (exec_eq_ok sha256 s).mpr ⟨checks.current, ?_⟩⟩
    exact Result.id_eq_ok.mpr ⟨id, submitted, rfl⟩

/-- Whether a submission is accepted depends on the calendar year as it should. -/
def FollowsCalendar (sha256 : Bytes → BytesN32) (env : Env) (s : State) (sub : Submission) :
    Prop :=
  (∃ result, exec sha256 s ⟨env, sub.call⟩ = .ok result) ↔
    1990 ≤ sub.vintageYear ∧ sub.vintageYear ≤ Calendar.yearAt env.timestamp + 1

/-- Of a submission that satisfies the other checks, the vintage is judged by the calendar
unless it is a later one than that of the next year and as many years of 365 days have passed
since 1970 as would be needed for it. -/
theorem followsCalendar_iff (env : Env) (s : State) (sub : Submission)
    (time : env.timestamp < 2 ^ 40) (checks : OtherChecks env s sub) :
    FollowsCalendar sha256 env s sub ↔
      sub.vintageYear < 1990 ∨ sub.vintageYear ≤ Calendar.yearAt env.timestamp + 1 ∨
        env.timestamp < (sub.vintageYear - 1971) * 31536000 := by
  have ahead := Calendar.yearAt_le env.timestamp
  have year : env.timestamp / 31536000 % 2 ^ 32 = env.timestamp / 31536000 := by
    apply Nat.mod_eq_of_lt
    omega
  have window : InWindow env sub.vintageYear ↔
      1990 ≤ sub.vintageYear ∧ sub.vintageYear ≤ env.timestamp / 31536000 + 1971 := by
    unfold InWindow
    rw [year]
    omega
  unfold FollowsCalendar
  rw [submitCredit_succeeds, window]
  simp only [checks, true_and]
  omega

namespace Sample

/-- The issuer signs on 31 December 2025. -/
def newYearsEve : Env := ⟨1767139200, fun a => a == issuer⟩

/-- The submission of one tonne of a vintage. -/
def vintage (vintageYear : Nat) : Submission :=
  ⟨issuer, "project-1", vintageYear, "VCS", "NG", 1000000, "ipfs", 0⟩

end Sample

theorem newYearsEve_year : Calendar.yearAt Sample.newYearsEve.timestamp = 2025 :=
  (Calendar.yearAt_eq_iff (n := 55)).mpr (by decide)

set_option maxRecDepth 100000 in
theorem vintage_checks (vintageYear : Nat) :
    OtherChecks Sample.newYearsEve ((machine BytesN32.mk).state (Sample.setup 1))
      (Sample.vintage vintageYear) :=
  ⟨rfl, rfl, rfl, rfl, rfl, (by decide : 0 + 1 < 2 ^ 64), rfl, rfl, rfl,
    (by decide : (0 : Int) < 1000000), (by decide : (1000000 : Int) ≤ 1000000000000000),
    (by decide : 2 ≤ "NG".utf8ByteSize), rfl, by decide, _, rfl⟩

/-- On the last day of 2025 the vintage 2026 is accepted, as it should be. -/
theorem nextVintage_follows :
    FollowsCalendar BytesN32.mk Sample.newYearsEve
      ((machine BytesN32.mk).state (Sample.setup 1)) (Sample.vintage 2026) := by
  refine (followsCalendar_iff Sample.newYearsEve _ (Sample.vintage 2026) (by decide)
    (vintage_checks 2026)).mpr (.inr (.inl ?_))
  rw [newYearsEve_year]
  exact le_refl _

/-- On the last day of 2025 the vintage 2027 is accepted too. -/
theorem futureVintage_accepted :
    ¬ FollowsCalendar BytesN32.mk Sample.newYearsEve
      ((machine BytesN32.mk).state (Sample.setup 1)) (Sample.vintage 2027) := by
  intro follows
  have window : InWindow Sample.newYearsEve 2027 := ⟨by decide, by decide, by decide⟩
  have early := (follows.mp (submitCredit_succeeds.mpr ⟨vintage_checks 2027, window⟩)).2
  rw [newYearsEve_year] at early
  exact absurd early (by decide)

end CarbonChain.Registry
