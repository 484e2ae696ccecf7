import CarbonChain.Auth.Service
import CarbonChain.Misc.Machine
import CarbonChain.Misc.Text
import CarbonChain.Stellar.Service
import Mathlib.Data.List.Basic

/-!
# The MRV webhook

`ingestMrvData` of `api/src/oracle/oracle.service.ts` takes readings from outside and
submits them to the oracle contract. A reading comes with an HMAC of the project and the
amount, joined by a colon, under a secret that the service shares with the provider. The
tag is a symbolic signature with that secret, and of a hex string the model keeps what it
decodes to.

Neither the oracle nor the time of a reading is under the tag, and nothing is remembered of a
tag that was used.
-/

namespace CarbonChain.Oracle

open Auth (HttpException)

/-- A result of the service. -/
abbrev Result (α : Type) := Outcome HttpException α

/-- The tag of a text under a secret. -/
abbrev Tag := Signature String String

/-- `MrvWebhookDto` (8-13). -/
structure MrvWebhookDto where
  oraclePublicKey : String
  projectId : String
  tonnesSequestered : String
  signature : Tag

/-- The service with its secret, the account of its admin key pair, if that is loaded, and the
strings that the SDK reads as an address. -/
structure OracleService where
  webhookSecret : String
  adminKeypair : Option String
  isAddress : String → Bool

/-- The arguments that `update_mrv_data` is invoked with (62-67). -/
structure Submission where
  oracle : String
  projectId : String
  tonnes : Int
  timestamp : Nat
  deriving DecidableEq

/-- The text under the tag of a reading. -/
def signedText (projectId tonnesSequestered : String) : String :=
  projectId ++ ":" ++ tonnesSequestered

namespace OracleService

/-- The constructor (21-34); `config` is `ConfigService.get` without its default. -/
def ofConfig (config : String → Option String) (adminKeypair : Option String)
    (isAddress : String → Bool) : OracleService where
  webhookSecret := (config "ORACLE_WEBHOOK_SECRET").getD "changeme"
  adminKeypair := adminKeypair
  isAddress := isAddress

variable (service : OracleService)

/-- `validateSignature` (39-53). -/
def validateSignature (dto : MrvWebhookDto) : Result Unit :=
  rejectIf (!dto.signature.verify service.webhookSecret
      (signedText dto.projectId dto.tonnesSequestered))
    (.unauthorized "Invalid oracle signature")

/-- The arguments (62-67) at the time `now` in milliseconds; `nativeToScVal` and `BigInt` throw
errors of their own. -/
def arguments (dto : MrvWebhookDto) (now : Nat) : Result Submission := do
  panicIf (!service.isAddress dto.oraclePublicKey)
  let tonnes ← unwrap (Text.bigInt dto.tonnesSequestered)
  panicIf (¬ FitsSigned 128 tonnes)
  return { oracle := dto.oraclePublicKey, projectId := dto.projectId, tonnes,
           timestamp := now / 1000 }

/-- `getAdminKeypair` (`stellar-keypair.service.ts:33-40`). -/
def getAdminKeypair : Result String :=
  okOr service.adminKeypair
    (.internal "Admin keypair is not initialized. Check ADMIN_SECRET_KEY in .env")

/-- `ingestMrvData` (55-83): what is submitted, and whether the contract found an anomaly; the
submission is made whatever becomes of it. -/
def ingestMrvData (dto : MrvWebhookDto) (now : Nat) (rpc : Stellar.Rpc Bool) :
    Result (Submission × Stellar.Result Bool) := do
  service.validateSignature dto
  let submission ← service.arguments dto now
  let _signer ← service.getAdminKeypair
  let anomaly := (fun response => response.returnValue.getD false) <$> Stellar.invokeContract rpc
  return (submission, anomaly)

end OracleService

/-! ## The webhook under attack -/

/-- The provider makes the tag of a reading, or anybody calls the webhook. -/
inductive Request where
  | sign (projectId tonnesSequestered : String)
  | ingest (dto : MrvWebhookDto) (rpc : Stellar.Rpc Bool)

/-- A request at a time in milliseconds. -/
structure Input where
  now : Nat
  request : Request

/-- A tag from the provider, or what the webhook answers. -/
inductive Response where
  | signed (tag : Tag)
  | submitted (submission : Submission) (anomaly : Stellar.Result Bool)

/-- Why there is no response: the provider signs no amounts that are no numbers, the service
throws, or the caller cannot present the tag. -/
inductive Refusal where
  | noAmount
  | service (failure : Fail HttpException)
  | unobtainable

/-- The callers hold the secrets `holds`; the state is what tags they have seen. -/
def respond (service : OracleService) (holds : String → Bool) (seen : List Tag) (input : Input) :
    Except Refusal (Response × List Tag) :=
  match input.request with
  | .sign projectId tonnesSequestered =>
      if (Text.bigInt tonnesSequestered).isSome then
        let tag : Tag := .sign service.webhookSecret (signedText projectId tonnesSequestered)
        .ok (.signed tag, seen ++ [tag])
      else .error .noAmount
  | .ingest dto rpc =>
      if dto.signature.obtainable holds seen then
        match service.ingestMrvData dto input.now rpc with
        | .ok (submission, anomaly) => .ok (.submitted submission anomaly, seen)
        | .error failure => .error (.service failure)
      else .error .unobtainable

/-- The webhook before callers who have seen no tag. -/
def attack (service : OracleService) (holds : String → Bool) :
    Machine (List Tag) Input Response Refusal where
  init := []
  exec := respond service holds

/-! ## What is submitted -/

variable {service : OracleService} {holds : String → Bool}

/-- An amount has no colon, so the text under a tag is that of one reading only. -/
theorem signedText_inj {p p' t t' : String} (number : (Text.bigInt t).isSome)
    (number' : (Text.bigInt t').isSome) (same : signedText p t = signedText p' t') :
    p = p' ∧ t = t' := by
  have apart : ':' ∉ t.toList := Text.not_mem_of_bigInt (by decide) number
  have apart' : ':' ∉ t'.toList := Text.not_mem_of_bigInt (by decide) number'
  have lists : p.toList ++ ':' :: t.toList = p'.toList ++ ':' :: t'.toList := by
    have text := congrArg String.toList same
    simpa [signedText] using text
  obtain ⟨projects, amounts⟩ := Text.append_separator_inj apart apart' lists
  exact ⟨String.toList_inj.mp projects, String.toList_inj.mp amounts⟩

/-- The service submits a reading if its tag is right and its parts can be converted. -/
theorem ingestMrvData_eq_ok {dto : MrvWebhookDto} {now : Nat} {rpc : Stellar.Rpc Bool}
    {submission : Submission} {anomaly : Stellar.Result Bool} :
    service.ingestMrvData dto now rpc = .ok (submission, anomaly) ↔
      dto.signature = .sign service.webhookSecret
        (signedText dto.projectId dto.tonnesSequestered) ∧
      service.isAddress dto.oraclePublicKey = true ∧
      Text.bigInt dto.tonnesSequestered = some submission.tonnes ∧
      FitsSigned 128 submission.tonnes ∧ service.adminKeypair ≠ none ∧
      submission.oracle = dto.oraclePublicKey ∧ submission.projectId = dto.projectId ∧
      submission.timestamp = now / 1000 ∧
      anomaly = (fun response => response.returnValue.getD false) <$>
        Stellar.invokeContract rpc := by
  simp only [OracleService.ingestMrvData, OracleService.validateSignature,
    OracleService.arguments, OracleService.getAdminKeypair, bind_eq_ok, rejectIf_eq_ok,
    panicIf_eq_ok, unwrap_eq_ok, okOr_eq_ok, pure_eq_ok, exists_const, Prod.mk.injEq, not_not,
    Bool.not_eq_eq_eq_not, Bool.not_true, Bool.not_eq_false, Signature.verify_iff]
  constructor
  · rintro ⟨tagged, submitted, ⟨address, tonnes, number, fits, rfl⟩, signer, loaded, rfl, rfl⟩
    refine ⟨tagged, address, number, fits, ?_, rfl, rfl, rfl, rfl⟩
    rw [loaded]
    exact Option.some_ne_none signer
  · rintro ⟨tagged, address, number, fits, loaded, oracle, project, time, rfl⟩
    obtain ⟨signer, loaded⟩ := Option.ne_none_iff_exists'.mp loaded
    refine ⟨tagged, submission, ⟨address, submission.tonnes, number, fits, ?_⟩, signer, loaded,
      rfl, rfl⟩
    rw [← oracle, ← project, ← time]

/-- The provider has signed the reading in the run. -/
def Signed (log : List (Event (List Tag) Input Response)) (projectId tonnes : String) : Prop :=
  ∃ event ∈ log, event.input.request = .sign projectId tonnes

theorem signed_snoc {log : List (Event (List Tag) Input Response)}
    {event : Event (List Tag) Input Response} {p t : String} :
    Signed (log ++ [event]) p t ↔ Signed log p t ∨ event.input.request = .sign p t :=
  Machine.exists_snoc

/-- The tags that are seen are those of the readings that the provider has signed. -/
structure Seen (service : OracleService) (log : List (Event (List Tag) Input Response))
    (seen : List Tag) : Prop where
  amounts : ∀ p t, Signed log p t → (Text.bigInt t).isSome
  tags : ∀ tag, tag ∈ seen ↔
    ∃ p t, Signed log p t ∧ tag = .sign service.webhookSecret (signedText p t)

theorem Seen.step {log : List (Event (List Tag) Input Response)}
    {event : Event (List Tag) Input Response} (seen : Seen service log event.pre)
    (commits : (attack service holds).Commits event) :
    Seen service (log ++ [event]) event.post := by
  obtain ⟨pre, ⟨now, request⟩, output, post⟩ := event
  have success : respond service holds pre ⟨now, request⟩ = .ok (output, post) := commits
  have seen : Seen service log pre := seen
  unfold respond at success
  cases request with
  | sign p t =>
      dsimp only at success
      split at success
      · next number =>
          cases success
          refine ⟨?_, ?_⟩
          · intro p' t' signed
            rcases signed_snoc.mp signed with before | now
            · exact seen.amounts p' t' before
            · cases now
              exact number
          · intro tag
            simp only [List.mem_append, List.mem_singleton, seen.tags, signed_snoc,
              Request.sign.injEq]
            constructor
            · rintro (⟨p', t', signed, rfl⟩ | rfl)
              · exact ⟨p', t', .inl signed, rfl⟩
              · exact ⟨p, t, .inr ⟨rfl, rfl⟩, rfl⟩
            · rintro ⟨p', t', signed | ⟨rfl, rfl⟩, rfl⟩
              · exact .inl ⟨p', t', signed, rfl⟩
              · exact .inr rfl
      · cases success
  | ingest dto rpc =>
      have same : post = pre := by
        dsimp only at success
        split at success
        · split at success
          · cases success
            rfl
          · cases success
        · cases success
      subst same
      have unsigned : ∀ p t, Signed (log ++ [⟨post, ⟨now, .ingest dto rpc⟩, output, post⟩]) p t ↔
          Signed log p t := by
        intro p t
        simp [signed_snoc]
      refine ⟨?_, ?_⟩
      · intro p t signed
        exact seen.amounts p t ((unsigned p t).mp signed)
      · intro tag
        simp only [unsigned]
        exact seen.tags tag

theorem seen_of_run (inputs : List Input) :
    Seen service ((attack service holds).log inputs) ((attack service holds).state inputs) := by
  refine (attack service holds).run_induct (Seen service) ?_ ?_ inputs
  · refine ⟨?_, ?_⟩
    · rintro p t ⟨event, logged, -⟩
      cases logged
    · intro tag
      constructor
      · intro member
        cases member
      · rintro ⟨p, t, ⟨event, logged, -⟩, -⟩
        cases logged
  · exact fun log event seen commits => seen.step commits

/-- A webhook call after the run leads to the submission. -/
def Submits (service : OracleService) (holds : String → Bool) (inputs : List Input)
    (submission : Submission) : Prop :=
  ∃ dto now rpc anomaly, (attack service holds).exec ((attack service holds).state inputs)
    ⟨now, .ingest dto rpc⟩ =
      .ok (.submitted submission anomaly, (attack service holds).state inputs)

namespace Sample

def webhook : OracleService := .ofConfig (fun _ => some "secret") (some "GADMIN") fun _ => true

/-- The provider signs one reading. -/
def signOnce : List Input := [⟨0, .sign "project-1" "500"⟩]

end Sample

end CarbonChain.Oracle
