/-
A continuous function with a derivative that is nowhere negative does not
decrease, and countably many points without such a derivative make no
difference.
-/
import Mathlib

namespace Fluxion

open Filter Set Topology

variable {f : ℝ → ℝ} {a b : ℝ}

/-- To the right of a point with a positive derivative the function exceeds
its value there. -/
theorem exists_lt_right {d s : ℝ} (hf : HasDerivAt f d s) (hd : 0 < d) (hb : s < b) :
    ∃ x ∈ Ioo s b, f s < f x := by
  have hslope : ∀ᶠ x in 𝓝[≠] s, 0 < slope f s x :=
    (hasDerivAt_iff_tendsto_slope.mp hf).eventually (lt_mem_nhds hd)
  have hright : ∀ᶠ x in 𝓝[>] s, 0 < slope f s x :=
    hslope.filter_mono (nhdsWithin_mono s fun x hx => (ne_of_gt hx : x ≠ s))
  have hnear : ∀ᶠ x in 𝓝[>] s, x ∈ Ioo s b := Ioo_mem_nhdsGT hb
  obtain ⟨x, hx, hpos⟩ := (hnear.and hright).exists
  rw [slope_def_field] at hpos
  exact ⟨x, hx, sub_pos.mp ((div_pos_iff_of_pos_right (sub_pos.mpr hx.1)).mp hpos)⟩

/-- A value between `f b` and `f a` is taken for the last time at a point
where the derivative is not positive; there are uncountably many such
values. -/
theorem le_of_deriv_pos (hab : a ≤ b) (hf : ContinuousOn f (Icc a b))
    (h : ∀ᶠ s in cocountable, s ∈ Ioo a b → ∃ d, 0 < d ∧ HasDerivAt f d s) : f a ≤ f b := by
  by_contra hlt
  rw [not_le] at hlt
  obtain ⟨y, hy, hyb, hya⟩ :=
    (((mem_cocountable.mp h).image f).dense_compl ℝ).exists_between hlt
  have hclosed : IsClosed (Icc a b ∩ preimage f (Ici y)) :=
    hf.preimage_isClosed_of_isClosed isClosed_Icc isClosed_Ici
  obtain ⟨s, ⟨hs, hys⟩, hlast⟩ :=
    (isCompact_Icc.of_isClosed_subset hclosed inter_subset_left).exists_isGreatest
      ⟨a, ⟨le_rfl, hab⟩, hya.le⟩
  have hsb : s < b := lt_of_le_of_ne hs.2 fun h₀ => (h₀ ▸ hyb).not_ge hys
  have after {x : ℝ} (hx : x ∈ Ioo s b) : f x < y := by
    by_contra hle
    exact hx.1.not_ge (hlast ⟨⟨hs.1.trans hx.1.le, hx.2.le⟩, not_lt.mp hle⟩)
  have hfs : f s = y := by
    refine le_antisymm (not_lt.mp fun hgt => ?_) hys
    obtain ⟨x, hx, hfx⟩ :=
      intermediate_value_Ioo' hsb.le (hf.mono (Icc_subset_Icc_left hs.1)) ⟨hyb, hgt⟩
    exact (after hx).ne hfx
  have hsa : a < s := lt_of_le_of_ne hs.1 fun h₀ => (h₀ ▸ hya).ne' hfs
  obtain ⟨d, hd, hderiv⟩ : ∃ d, 0 < d ∧ HasDerivAt f d s := by
    by_contra hbad
    exact hy ⟨s, fun hgood => hbad (hgood ⟨hsa, hsb⟩), hfs⟩
  obtain ⟨x, hx, hfx⟩ := exists_lt_right hderiv hd hsb
  exact (after hx).not_gt (hfs ▸ hfx)

/-- A small slope added to the function makes the derivative positive. -/
theorem le_of_deriv_nonneg (hab : a ≤ b) (hf : ContinuousOn f (Icc a b))
    (h : ∀ᶠ s in cocountable, s ∈ Ioo a b → ∃ d, 0 ≤ d ∧ HasDerivAt f d s) : f a ≤ f b := by
  refine le_of_forall_pos_le_add fun ε hε => ?_
  have hlen : 0 < b - a + 1 := by linarith
  have hδ : 0 < ε / (b - a + 1) := div_pos hε hlen
  have hsum : f a + ε / (b - a + 1) * a ≤ f b + ε / (b - a + 1) * b := by
    refine le_of_deriv_pos (f := fun x => f x + ε / (b - a + 1) * x) hab
      (hf.add (by fun_prop)) (h.mono fun s hs hmem => ?_)
    obtain ⟨d, hd, hderiv⟩ := hs hmem
    have hline : HasDerivAt (fun x => ε / (b - a + 1) * x) (ε / (b - a + 1)) s := by
      simpa using (hasDerivAt_id' s).const_mul (ε / (b - a + 1))
    exact ⟨d + ε / (b - a + 1), by linarith, hderiv.fun_add hline⟩
  have hsmall : ε / (b - a + 1) * (b - a) ≤ ε := by
    rw [div_mul_eq_mul_div, div_le_iff₀ hlen]
    nlinarith
  linarith

end Fluxion
