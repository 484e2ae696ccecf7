import CarbonChain.Auth.Service
import CarbonChain.Misc.Machine

/-!
# Tokens for accounts whose keys the adversary does not hold

The adversary requests challenges for any account and exchanges any transactions whose
signatures it can present for tokens. A challenge (`api/src/auth/auth.service.ts:48-85`)
carries one signature, the server's, so it helps to no token but one for the server's own
account; for that account the same signature is found twice, as the server's and as the
client's.
-/

namespace CarbonChain.Auth

/-! ## The service under attack -/

/-- The two endpoints. -/
inductive Request where
  | challenge (account nonce : String)
  | token (signedTransactionXdr : Xdr)

/-- A request at a time. The nonce of a challenge is the server's. -/
structure Input where
  now : Nat
  request : Request

/-- What a request is answered with. -/
inductive Response where
  | challenge (transaction : Xdr) (networkPassphrase : String)
  | token (account : String)
  deriving DecidableEq

/-- Why there is no response: the service throws, or the adversary cannot present the
signatures of the transaction. -/
inductive Refusal where
  | service (failure : Fail HttpException)
  | unobtainable

/-- The adversary holds the keys `holds`; the state is what signatures it has seen. -/
def respond (service : AuthService) (holds : String → Bool) (seen : List TxSignature)
    (input : Input) : Except Refusal (Response × List TxSignature) :=
  match input.request with
  | .challenge account nonce =>
      match service.generateChallenge account nonce input.now with
      | .ok (transaction, networkPassphrase) =>
          .ok (.challenge transaction networkPassphrase, seen ++ transaction.signatures)
      | .error failure => .error (.service failure)
  | .token signedTransactionXdr =>
      if signedTransactionXdr.signatures.all (Signature.obtainable holds seen) then
        match service.verifyAndIssueToken signedTransactionXdr input.now with
        | .ok account => .ok (.token account, seen)
        | .error failure => .error (.service failure)
      else .error .unobtainable

/-- The service before an adversary who has seen nothing. -/
def attack (service : AuthService) (holds : String → Bool) :
    Machine (List TxSignature) Input Response Refusal where
  init := []
  exec := respond service holds

/-- No run gets a token for the account. -/
def NeverIssues (service : AuthService) (holds : String → Bool) (account : String) : Prop :=
  ∀ inputs, ∀ event ∈ (attack service holds).log inputs, event.output ≠ .token account

/-! ## What the service accepts -/

/-- Challenges are given out for the account. -/
def AuthService.Challenges (service : AuthService) (account : String) : Prop :=
  account.isEmpty = false ∧ service.sdk.isValidEd25519PublicKey account = true ∧
    service.sdk.dataNameError service.challengeName = none

variable {service : AuthService} {holds : String → Bool} {seen seen' : List TxSignature}

/-- The transaction of a challenge. -/
def challengeOf (service : AuthService) (server account nonce : String) (now : Nat) :
    Transaction :=
  AuthService.buildChallenge server
    (.manageData service.challengeName (some nonce) (some account)) now

theorem manageData_eq_ok {name : String} {value source : Option String} {operation : Operation} :
    service.manageData name value source = .ok operation ↔
      service.sdk.dataNameError name = none ∧ operation = .manageData name value source := by
  unfold AuthService.manageData
  cases service.sdk.dataNameError name <;> simp [eq_comm]

theorem generateChallenge_eq_ok {account nonce : String} {now : Nat} {xdr : Xdr}
    {networkPassphrase : String} :
    service.generateChallenge account nonce now = .ok (xdr, networkPassphrase) ↔
      service.Challenges account ∧ ∃ server, service.adminKeypair = some server ∧
        xdr = .envelope (challengeOf service server account nonce now)
          [.sign server
            ⟨service.networkPassphrase, challengeOf service server account nonce now⟩] ∧
        networkPassphrase = service.networkPassphrase := by
  simp only [AuthService.generateChallenge, AuthService.getAdminKeypair, bind_eq_ok,
    rejectIf_eq_ok, okOr_eq_ok, manageData_eq_ok, pure_eq_ok, exists_const, Prod.mk.injEq,
    not_or, Bool.not_eq_true, Bool.not_eq_eq_eq_not, Bool.not_true, Bool.not_eq_false]
  constructor
  · rintro ⟨⟨nonempty, valid⟩, server, present, operation, ⟨named, rfl⟩, rfl, rfl⟩
    exact ⟨⟨nonempty, valid, named⟩, server, present, rfl, rfl⟩
  · rintro ⟨⟨nonempty, valid, named⟩, server, present, rfl, rfl⟩
    exact ⟨⟨nonempty, valid⟩, server, present, _, ⟨named, rfl⟩, rfl, rfl⟩

theorem verifyAndIssueToken_eq_ok {tx : Transaction} {signatures : List TxSignature} {now : Nat}
    {account : String} :
    service.verifyAndIssueToken (.envelope tx signatures) now = .ok account ↔
      AuthService.withinTimeBounds tx.timeBounds now = true ∧
      AuthService.clientOf tx.operations = some account ∧
      service.sdk.isValidEd25519PublicKey account = true ∧ ∃ server,
        service.adminKeypair = some server ∧
        .sign server ⟨service.networkPassphrase, tx⟩ ∈ signatures ∧
        .sign account ⟨service.networkPassphrase, tx⟩ ∈ signatures := by
  simp only [AuthService.verifyAndIssueToken, AuthService.getAdminKeypair, bind_eq_ok,
    rejectIf_eq_ok, okOr_eq_ok, pure_eq_ok, exists_const, Bool.not_eq_eq_eq_not, Bool.not_true,
    Bool.not_eq_false, List.any_eq_true, Signature.verify_iff, exists_eq_right]
  constructor
  · rintro ⟨within, client, names, valid, server, present, byServer, byClient, rfl⟩
    exact ⟨within, names, valid, server, present, byServer, byClient⟩
  · rintro ⟨within, names, valid, server, present, byServer, byClient⟩
    exact ⟨within, account, names, valid, server, present, byServer, byClient, rfl⟩

/-- The client of a challenge is the account it is for. -/
theorem clientOf_challengeOf {server account nonce : String} {now : Nat}
    (nonempty : account.isEmpty = false) :
    AuthService.clientOf (challengeOf service server account nonce now).operations =
      some account := by
  simp [AuthService.clientOf, challengeOf, AuthService.buildChallenge, Operation.isManageData,
    Operation.source, nonempty]

/-! ## What the adversary sees -/

/-- The signatures seen are the server's, if the service gives out challenges at all. -/
def OnlyServer (service : AuthService) (seen : List TxSignature) : Prop :=
  ∀ signature ∈ seen, service.sdk.dataNameError service.challengeName = none ∧
    ∃ server payload, service.adminKeypair = some server ∧ signature = .sign server payload

/-- A response shows the adversary the signature of a challenge, or nothing. -/
theorem respond_onlyServer {input : Input} {response : Response}
    (only : OnlyServer service seen)
    (h : respond service holds seen input = .ok (response, seen')) :
    OnlyServer service seen' := by
  unfold respond at h
  split at h
  · split at h
    · next account nonce asked transaction networkPassphrase success =>
        cases h
        rcases generateChallenge_eq_ok.mp success with ⟨challenges, server, present, rfl, -⟩
        intro signature member
        rcases List.mem_append.mp member with earlier | new
        · exact only signature earlier
        · rw [List.mem_singleton.mp new]
          exact ⟨challenges.2.2, server, _, present, rfl⟩
    · cases h
  · split at h
    · split at h
      · cases h
        exact only
      · cases h
    · cases h

/-- A token is issued on signatures that the adversary can present. -/
theorem respond_token {input : Input} {account : String}
    (h : respond service holds seen input = .ok (.token account, seen')) :
    ∃ xdr, xdr.signatures.all (Signature.obtainable holds seen) = true ∧
      service.verifyAndIssueToken xdr input.now = .ok account := by
  unfold respond at h
  split at h
  · split at h <;> cases h
  · next xdr asked =>
      split at h
      · next obtained =>
          split at h
          · next success =>
              cases h
              exact ⟨xdr, obtained, success⟩
          · cases h
      · cases h

/-- A token for an account whose key the adversary does not hold is for the server's. -/
theorem token_server (only : OnlyServer service seen) {input : Input} {account : String}
    (unheld : holds account = false)
    (h : respond service holds seen input = .ok (.token account, seen')) :
    service.adminKeypair = some account ∧ service.Challenges account := by
  rcases respond_token h with ⟨xdr, obtained, issued⟩
  cases xdr with
  | malformed => cases issued
  | envelope tx signatures =>
      rcases verifyAndIssueToken_eq_ok.mp issued with
        ⟨-, names, valid, server, present, -, byClient⟩
      have presented : Signature.obtainable holds seen
          (.sign account ⟨service.networkPassphrase, tx⟩) = true :=
        List.all_eq_true.mp obtained _ byClient
      have shown := Signature.mem_of_obtainable presented unheld
      rcases only _ shown with ⟨named, signer, payload, isServer, same⟩
      obtain ⟨rfl, -⟩ := Signature.sign.inj same
      have nonempty : account.isEmpty = false := by
        have := Option.filter_eq_some_iff.mp names
        simpa using this.2
      exact ⟨isServer, nonempty, valid, named⟩

/-! ## Runs -/

/-- A challenge of the server for its own account. -/
def ownChallenge (service : AuthService) (account nonce : String) (now : Nat) : Xdr :=
  let tx := challengeOf service account account nonce now
  .envelope tx [.sign account ⟨service.networkPassphrase, tx⟩]

/-- The adversary asks for a challenge for the account and hands it back as it is. -/
def replay (service : AuthService) (account nonce : String) (now : Nat) : List Input :=
  [⟨now, .challenge account nonce⟩, ⟨now, .token (ownChallenge service account nonce now)⟩]

/-- For the server's account a challenge is its own answer. -/
theorem ownChallenge_issues {account nonce : String} {now : Nat}
    (server : service.adminKeypair = some account) (challenges : service.Challenges account) :
    service.verifyAndIssueToken (ownChallenge service account nonce now) now = .ok account := by
  refine verifyAndIssueToken_eq_ok.mpr ⟨?_, clientOf_challengeOf challenges.1, challenges.2.1,
    account, server, List.mem_singleton_self _, List.mem_singleton_self _⟩
  simp [AuthService.withinTimeBounds, challengeOf, AuthService.buildChallenge]

theorem replay_issues (holds : String → Bool) (account nonce : String) (now : Nat)
    (server : service.adminKeypair = some account) (challenges : service.Challenges account) :
    ∃ event ∈ (attack service holds).log (replay service account nonce now),
      event.output = .token account := by
  have given : service.generateChallenge account nonce now =
      .ok (ownChallenge service account nonce now, service.networkPassphrase) :=
    generateChallenge_eq_ok.mpr ⟨challenges, account, server, rfl, rfl⟩
  have first : (attack service holds).exec ((attack service holds).state [])
      ⟨now, .challenge account nonce⟩ =
        .ok (.challenge (ownChallenge service account nonce now) service.networkPassphrase,
          (ownChallenge service account nonce now).signatures) := by
    simp [attack, Machine.state_nil, respond, given]
  have reached := ((attack service holds).snoc_of_ok first).1
  have presented : (ownChallenge service account nonce now).signatures.all
      (Signature.obtainable holds (ownChallenge service account nonce now).signatures) = true :=
    List.all_eq_true.mpr fun signature member => Signature.obtainable_of_mem member
  have second : (attack service holds).exec
      ((attack service holds).state ([] ++ [⟨now, .challenge account nonce⟩]))
      ⟨now, .token (ownChallenge service account nonce now)⟩ =
        .ok (.token account, (ownChallenge service account nonce now).signatures) := by
    rw [reached]
    simp only [attack, respond, presented, if_pos, ownChallenge_issues server challenges]
  have logged := ((attack service holds).snoc_of_ok second).2
  rw [List.nil_append, List.singleton_append] at logged
  unfold replay
  rw [logged]
  exact ⟨_, List.mem_append_right _ (List.mem_singleton_self _), rfl⟩

/-- No token is issued for an account whose key the adversary does not hold, unless it is
the service's own and the service gives out challenges for it. -/
theorem neverIssues_iff (service : AuthService) (holds : String → Bool) (account : String)
    (unheld : holds account = false) :
    NeverIssues service holds account ↔
      ¬ (service.adminKeypair = some account ∧ service.Challenges account) := by
  constructor
  · rintro never ⟨server, challenges⟩
    rcases replay_issues holds account "" 0 server challenges with
      ⟨event, logged, issued⟩
    exact never _ event logged issued
  · intro other inputs event logged issued
    obtain ⟨only, commits⟩ := (attack service holds).invariant_pre (OnlyServer service)
      (fun signature member => by cases member)
      (fun event only commits => respond_onlyServer only commits) logged
    apply other
    unfold Machine.Commits at commits
    rw [issued] at commits
    exact token_server only unheld commits

/-! ## A service in operation -/

namespace Sample

/-- Two accounts with valid checksums; the first is the server's. -/
def server : String := "GAAZI4TCR3TY5OJHCTJC2A4QSY6CJWJH5IAJTGKIN2ER7LBNVKOCCWN7"

def client : String := "GAAAAAAAAAAAAAAAAAAAAAAAAAAAAAAAAAAAAAAAAAAAAAAAAAAAAWHF"

def sdk : Sdk where
  isValidEd25519PublicKey := fun account => account = server ∨ account = client
  dataNameError := fun _ => none
  publicNetwork := "Public Global Stellar Network ; September 2015"
  testnet := "Test SDF Network ; September 2015"

/-- The service in its default configuration. -/
def deployed : AuthService := .ofConfig sdk (fun _ => none) (some server)

/-- The adversary holds no key. -/
def keyless : String → Bool := fun _ => false

end Sample

theorem client_neverIssues : NeverIssues Sample.deployed Sample.keyless Sample.client :=
  (neverIssues_iff Sample.deployed Sample.keyless Sample.client rfl).mpr
    fun condition => absurd condition.1 (by decide)

/-- A challenge for the server's own account comes back as a token for it. -/
theorem server_issues : Sample.keyless Sample.server = false ∧
    ¬ NeverIssues Sample.deployed Sample.keyless Sample.server := by
  refine ⟨rfl, ?_⟩
  intro never
  obtain ⟨event, logged, issued⟩ : ∃ event ∈ (attack Sample.deployed Sample.keyless).log
      (replay Sample.deployed Sample.server "nonce" 1735689600),
        event.output = .token Sample.server :=
    ⟨_, List.getElem_mem (n := 1) (by decide), rfl⟩
  exact never _ event logged issued

end CarbonChain.Auth
