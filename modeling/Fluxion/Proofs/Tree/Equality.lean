/-
The fingerprint does not change what equality says. Trees that are the same
have one fingerprint, provided equal numbers have, so looking at the
fingerprints first refuses only what the comparison node by node refuses
(`equal_eq_same`).
-/
import Fluxion.Tree.Equality

namespace Fluxion

/-- Equal numbers have the same fingerprint. -/
def Digest.Respects {α : Type} [Scalar α] (d : Digest α) : Prop :=
  ∀ ⦃a b : α⦄, Scalar.eq a b = true → d.number a = d.number b

/-- Numbers that are fingerprinted by what they are equal to. -/
class Fingerprinted (α : Type) [Scalar α] : Prop where
  digest_eq {a b : α} (h : Scalar.eq a b = true) : Scalar.digest a = Scalar.digest b

namespace Tree

variable {α : Type} [Scalar α] {d : Digest α}

theorem digest_eq_of_same (hd : d.Respects) {a b : Tree α} (h : a.same b = true) :
    a.digest d = b.digest d := by
  induction a generalizing b with
  | var x =>
    cases b <;> simp only [same, Bool.false_eq_true, beq_iff_eq] at h
    rw [h]
  | const a =>
    cases b <;> simp only [same, Bool.false_eq_true] at h
    rw [digest, digest, hd h]
  | binary op l r hl hr =>
    cases b <;> simp only [same, Bool.false_eq_true, Bool.and_eq_true, beq_iff_eq] at h
    rw [digest, digest, h.1.1, hl h.1.2, hr h.2]
  | unary op u hu =>
    cases b <;> simp only [same, Bool.false_eq_true, Bool.and_eq_true, beq_iff_eq] at h
    rw [digest, digest, h.1, hu h.2]
  | relate rel l r hl hr =>
    cases b <;> simp only [same, Bool.false_eq_true, Bool.and_eq_true, beq_iff_eq] at h
    rw [digest, digest, h.1.1, hl h.1.2, hr h.2]
  | branch c t f hc ht hf =>
    cases b <;> simp only [same, Bool.false_eq_true, Bool.and_eq_true] at h
    rw [digest, digest, hc h.1.1, ht h.1.2, hf h.2]

/-- A fingerprint looked at first refuses nothing more. -/
theorem digest_and_same (hd : d.Respects) (a b : Tree α) :
    ((a.digest d == b.digest d) && a.same b) = a.same b := by
  cases h : a.same b with
  | false => exact Bool.and_false _
  | true => rw [digest_eq_of_same hd h, beq_self_eq_true, Bool.and_true]

/-- **The fingerprint does not change equality.** -/
theorem equal_eq_same (hd : d.Respects) (a b : Tree α) : a.equal d b = a.same b := by
  induction a generalizing b with
  | var x =>
    cases b with
    | var y => exact digest_and_same hd (.var x) (.var y)
    | _ => rfl
  | const a =>
    cases b with
    | const b => exact digest_and_same hd (.const a) (.const b)
    | _ => rfl
  | binary op l r hl hr =>
    cases b with
    | binary op' l' r' =>
      rw [equal, hl, hr, ← digest_and_same hd (.binary op l r), same, Bool.and_assoc]
    | _ => rfl
  | unary op u hu =>
    cases b with
    | unary op' u' => rw [equal, hu, ← digest_and_same hd (.unary op u), same]
    | _ => rfl
  | relate rel l r hl hr =>
    cases b with
    | relate rel' l' r' =>
      rw [equal, hl, hr, ← digest_and_same hd (.relate rel l r), same, Bool.and_assoc]
    | _ => rfl
  | branch c t f hc ht hf =>
    cases b with
    | branch c' t' f' =>
      rw [equal, hc, ht, hf, ← digest_and_same hd (.branch c t f), same, Bool.and_assoc]
    | _ => rfl

theorem eq_eq_same [Fingerprinted α] (a b : Tree α) : a.eq b = a.same b :=
  equal_eq_same (d := .standard α) (fun _ _ h => Fingerprinted.digest_eq h) a b

end Tree

end Fluxion
