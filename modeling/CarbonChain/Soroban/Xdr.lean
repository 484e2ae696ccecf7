import Mathlib.Data.List.Basic

/-!
# Host values and their XDR encoding

The contracts derive ids by hashing concatenations of XDR encodings
(`a.to_xdr(&env)`, `preimage.append(&b.to_xdr(&env))`). An encoding is a
discriminant, a length where the size varies, and the content; a word of the
encoding is a number of any size, so neither the padding nor the byte order of
the wire format appears. What the contracts rely on is proved here: encodings
are self-delimiting, so a concatenation determines the values in it.
-/

namespace CarbonChain

/-- An account (`G…`) or a contract (`C…`) of the network. -/
inductive Address where
  | account (key : Nat)
  | contract (id : Nat)
  deriving DecidableEq, Repr

/-- The bytes of an encoding. -/
abbrev Bytes := List Nat

/-- `BytesN<32>`. The length is left open: identifiers are hashes, and the hash
is taken to be injective, which it cannot be on 32 bytes. -/
structure BytesN32 where
  bytes : Bytes
  deriving DecidableEq, Repr

theorem BytesN32.mk_injective : Function.Injective BytesN32.mk :=
  fun _ _ same => congrArg BytesN32.bytes same

/-- The host values that occur in a hashed preimage. -/
inductive ScVal where
  | u32 (n : Nat)
  | u64 (n : Nat)
  | bytes (b : BytesN32)
  | string (s : String)
  | address (a : Address)
  deriving DecidableEq

namespace ScVal

/-- The XDR discriminants `SCV_U32`, `SCV_U64`, `SCV_BYTES`, `SCV_STRING` and
`SCV_ADDRESS`. -/
def discriminant : ScVal → Nat
  | .u32 _ => 3
  | .u64 _ => 5
  | .bytes _ => 13
  | .string _ => 14
  | .address _ => 18

/-- The content of the encoding: values of varying size are preceded by their length. -/
def content : ScVal → Bytes
  | .u32 n => [n]
  | .u64 n => [n]
  | .bytes b => b.bytes.length :: b.bytes
  | .string s => s.toList.length :: s.toList.map Char.toNat
  | .address (.account key) => [0, key]
  | .address (.contract id) => [1, id]

/-- `to_xdr`. -/
def toXdr (v : ScVal) : Bytes := v.discriminant :: v.content

/-- A length-prefixed list of words is self-delimiting. -/
theorem sized_append_inj {xs ys rest rest' : Bytes}
    (same : xs.length :: xs ++ rest = ys.length :: ys ++ rest') : xs = ys ∧ rest = rest' := by
  rw [List.cons_append, List.cons_append] at same
  obtain ⟨lengths, contents⟩ := List.cons.inj same
  exact List.append_inj contents lengths

/-- Encodings are self-delimiting: a value and what follows it are read back uniquely. -/
theorem toXdr_append_inj {v w : ScVal} {rest rest' : Bytes}
    (same : v.toXdr ++ rest = w.toXdr ++ rest') : v = w ∧ rest = rest' := by
  obtain ⟨tags, contents⟩ := List.cons.inj same
  cases v with
  | u32 n =>
      cases w <;> simp_all [discriminant, content]
  | u64 n =>
      cases w <;> simp_all [discriminant, content]
  | bytes b =>
      cases w with
      | bytes b' =>
          obtain ⟨read, following⟩ := sized_append_inj contents
          exact ⟨congrArg ScVal.bytes (congrArg BytesN32.mk read), following⟩
      | _ => simp [discriminant] at tags
  | string s =>
      cases w with
      | string s' =>
          simp only [content, ← List.length_map (f := Char.toNat)] at contents
          obtain ⟨read, following⟩ := sized_append_inj contents
          have letters : s.toList = s'.toList :=
            List.map_injective_iff.mpr (fun _ _ code => Char.toNat_inj.mp code) read
          exact ⟨congrArg ScVal.string (String.toList_inj.mp letters), following⟩
      | _ => simp [discriminant] at tags
  | address a =>
      cases w with
      | address a' => cases a <;> cases a' <;> simp_all [content]
      | _ => simp [discriminant] at tags

@[simp] theorem toXdr_append_eq {v w : ScVal} {rest rest' : Bytes} :
    v.toXdr ++ rest = w.toXdr ++ rest' ↔ v = w ∧ rest = rest' := by
  constructor
  · exact toXdr_append_inj
  · rintro ⟨rfl, rfl⟩
    rfl

@[simp] theorem toXdr_eq {v w : ScVal} : v.toXdr = w.toXdr ↔ v = w := by
  constructor
  · intro same
    exact (toXdr_append_inj (congrArg (· ++ ([] : Bytes)) same)).1
  · rintro rfl
    rfl

@[simp] theorem toXdr_ne_nil {v : ScVal} : v.toXdr ≠ [] := by
  simp [toXdr]

end ScVal

end CarbonChain
