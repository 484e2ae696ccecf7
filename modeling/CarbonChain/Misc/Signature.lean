import Mathlib.Data.List.Basic

/-!
# Symbolic signatures

A signature is a term: who signed what. Verification compares the term with what it
should be, so a signature that verifies was made with the signer's secret key. The
signatures that an adversary can present are those it has seen, those it makes with the
keys it holds, and bytes that are no signature.
-/

namespace CarbonChain

/-- Signatures of messages `M`; a signer `K` stands for its key pair. -/
inductive Signature (K M : Type) where
  | sign (signer : K) (message : M)
  | junk (bytes : List Nat)
  deriving DecidableEq

namespace Signature

variable {K M : Type} [DecidableEq K] [DecidableEq M]

/-- Whether the signature is the signer's on the message. -/
def verify (signer : K) (message : M) (signature : Signature K M) : Bool :=
  signature = .sign signer message

@[simp] theorem verify_iff {signer : K} {message : M} {signature : Signature K M} :
    signature.verify signer message = true ↔ signature = .sign signer message := by
  simp [verify]

/-- Whether an adversary with these keys who has seen these signatures can present this one. -/
def obtainable (holds : K → Bool) (seen : List (Signature K M)) : Signature K M → Bool
  | .junk _ => true
  | .sign signer message => holds signer || decide (.sign signer message ∈ seen)

/-- What the adversary has seen it can present. -/
theorem obtainable_of_mem {holds : K → Bool} {seen : List (Signature K M)}
    {signature : Signature K M} (member : signature ∈ seen) :
    signature.obtainable holds seen = true := by
  cases signature with
  | junk bytes => rfl
  | sign signer message => simp [obtainable, member]

/-- Signatures are unforgeable: one by a key that the adversary does not hold was seen. -/
theorem mem_of_obtainable {holds : K → Bool} {seen : List (Signature K M)} {signer : K}
    {message : M} (obtained : obtainable holds seen (.sign signer message) = true)
    (unheld : holds signer = false) : .sign signer message ∈ seen := by
  simpa [obtainable, unheld] using obtained

end Signature

end CarbonChain
