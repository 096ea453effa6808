/-
What integration finds is over the names of the integrand and the variable
of integration, and its literals are finite: no name comes out of nowhere,
and nothing that would be refused as a literal stands in a result.
-/
import Fluxion.Proofs.Integral.Rules
import Fluxion.Proofs.Tree.Over

namespace Fluxion

variable {α : Type} [Scalar α] {v : String} {P : String → Prop}

namespace Strategy

variable {s : Strategy α} {t F : Tree α} {sub : Tree α → Except (Fault α) (Tree α)}

theorem over_powerQuotient {a : α} (hv : P v) (ha : Scalar.isFinite a = true) :
    (powerQuotient v a).Over P :=
  ⟨⟨hv, ha⟩, ha⟩

theorem over_logTerm {c : Tree α} (hv : P v) (hc : c.Over P) : (logTerm v c).Over P := by
  unfold logTerm
  split
  · exact hv
  · exact ⟨hc, hv⟩

theorem over_outerAntiderivative {op : UnaryOp} {u g : Tree α} (hu : u.Over P)
    (h : outerAntiderivative? op u = some g) : g.Over P := by
  cases op <;> cases h <;> exact hu

theorem over_scaledBy {k : α} {g : Tree α} (hg : g.Over P) (h : scaledBy k g = .ok F) :
    F.Over P := by
  unfold scaledBy at h
  split at h
  · cases h; exact hg
  · obtain ⟨c, hc, rfl⟩ := map_eq_ok.mp h
    exact ⟨Tree.over_literal hc, hg⟩

variable [Steady α]

theorem over_cofactor {rest : List (Tree α)} {c : Tree α} (h : ∀ f ∈ rest, f.Over P)
    (hc : cofactor rest = .ok c) : c.Over P := by
  unfold cofactor at hc
  split at hc
  · cases hc; exact Tree.over_one
  · exact Tree.over_regroup h hc

theorem over_parts {u w : Tree α} (hu : u.Over P) (hw : w.Over P) :
    ∀ f ∈ [w, (u.derivative v).simplify], f.Over P := by
  simp only [List.mem_cons, List.not_mem_nil, or_false, forall_eq_or_imp, forall_eq]
  exact ⟨hw, Tree.over_simplify (Tree.over_derivative hu)⟩

variable [Numeral α]

/-- What a rule finds is over the names of the integrand and `v`, when the
sub-integrals are. -/
theorem over_of_finds (hv : P v) (ht : t.Over P)
    (hsub : ∀ {u w}, u.Over P → sub u = .ok w → w.Over P) (h : s.Finds sub v t F) : F.Over P := by
  cases h with
  | identity => exact over_powerQuotient hv Steady.isFinite_two
  | lnPower he hn h => exact hv
  | power he hn hfin => exact over_powerQuotient hv hfin
  | constant hc => exact ⟨ht, hv⟩
  | leftFactor hc hw => exact ⟨ht.1, hsub ht.2 hw⟩
  | rightFactor hc hw => exact ⟨ht.2, hsub ht.1 hw⟩
  | ln hc => exact over_logTerm hv ht.1
  | lnFirstPower hc he hn h => exact over_logTerm hv ht.1
  | reciprocal hc he hn hfin =>
    split
    · exact over_powerQuotient hv hfin
    · exact ⟨ht.1, over_powerQuotient hv hfin⟩
  | sin => exact hv
  | cos => exact hv
  | tan he => exact hv
  | cot he => exact hv
  | exp => exact hv
  | onePower hb ha h => exact hv
  | exponential hb => exact ⟨ht, ht.1⟩
  | @neg u w hw => exact hsub (u := u) (w := w) ht hw
  | divisor hc hw => exact ⟨hsub ht.1 hw, ht.2⟩
  | @substitution m t before op u after g c k F hfactors hg hc hk hF =>
    have hu := Tree.over_factors ht (.unary op u) (by rw [hfactors]; simp)
    exact over_scaledBy (over_outerAntiderivative (u := u) hu hg) hF
  | @parts u dv w rest s t htt hw hrest hs =>
    obtain ⟨hu, hdv⟩ : u.Over P ∧ dv.Over P := by
      rcases htt with rfl | rfl
      · exact ht
      · exact ⟨ht.2, ht.1⟩
    have hw' := hsub hdv hw
    exact ⟨⟨hu, hw'⟩, hsub (Tree.over_regroup (over_parts hu hw') hrest) hs⟩
  | sum ha hb => exact ⟨hsub ht.1 ha, hsub ht.2 hb⟩
  | difference ha hb => exact ⟨hsub ht.1 ha, hsub ht.2 hb⟩

end Strategy

/-! ## Whole runs -/

namespace Pipeline

variable [Numeral α] [Steady α]

theorem over_of_run {p : Pipeline α} {t F : Tree α} (hv : P v) {n : Nat} (ht : t.Over P)
    (h : p.run v n t = .ok F) : F.Over P := by
  induction n generalizing t F with
  | zero => cases h
  | succ n ih =>
    obtain ⟨m, s, hm, -, hf⟩ := finds_of_run h
    obtain rfl : n = m := Nat.succ.inj hm
    exact Strategy.over_of_finds hv ht ih hf

end Pipeline

end Fluxion
