import Mathlib
import Magnetofluid.Proofs.Exact.Partial

/-!
# Flux and current of the initial conditions

The initial current is the Laplacian of the initial flux, and what the unperturbed state loses by resistivity is what the
forcing gives back.

* `Profile.laplacian`: the sum of the two second derivatives of a profile.
* `laplacian_islands`: the flux of a chain of islands, of which a sheet is the one of strength zero.
* `laplacian_perturbed`: a perturbation adds its own Laplacian.
* `InitialCase.consistent`: with the parameters for which they are meant, wave, sheet and islands are defined everywhere,
  smooth, and have the Laplacians of their fluxes as currents.
-/

namespace Magnetofluid

open Elementary PartialReal

/-! ### Second derivatives -/

section Derivative

variable {f g f' f'' : ℝ → ℝ}

theorem iteratedDeriv_two_of_hasDerivAt (hf : ∀ s, HasDerivAt f (f' s) s)
    (hf' : ∀ s, HasDerivAt f' (f'' s) s) (s : ℝ) : iteratedDeriv 2 f s = f'' s := by
  have hderiv : deriv f = f' := funext fun s => (hf s).deriv
  rw [iteratedDeriv_succ, iteratedDeriv_one, hderiv]
  exact (hf' s).deriv

theorem iteratedDeriv_two_add_const_mul (hf : ContDiff ℝ 2 f) (hg : ContDiff ℝ 2 g) (c s : ℝ) :
    iteratedDeriv 2 (fun s => f s + c * g s) s = iteratedDeriv 2 f s + c * iteratedDeriv 2 g s := by
  have hsum := iteratedDeriv_add hf.contDiffAt (contDiff_const.mul hg).contDiffAt (x := s) (g := fun s => c * g s)
  rw [iteratedDeriv_const_mul c hg.contDiffAt] at hsum
  exact hsum

theorem iteratedDeriv_two_cos (k s : ℝ) :
    iteratedDeriv 2 (fun s => Real.cos (k * s)) s = -(k * k) * Real.cos (k * s) := by
  rw [iteratedDeriv_comp_const_mul Real.contDiff_cos, Real.iteratedDeriv_even_cos 1]
  simp [pow_two]

theorem iteratedDeriv_two_sin (k s : ℝ) :
    iteratedDeriv 2 (fun s => Real.sin (k * s)) s = -(k * k) * Real.sin (k * s) := by
  rw [iteratedDeriv_comp_const_mul Real.contDiff_sin, Real.iteratedDeriv_even_sin 1]
  simp [pow_two]

/-- The second derivative of a logarithm over a constant. -/
theorem iteratedDeriv_two_log_div (hf : ∀ s, HasDerivAt f (f' s) s) (hf' : ∀ s, HasDerivAt f' (f'' s) s)
    (hpos : ∀ s, 0 < f s) (c s : ℝ) :
    iteratedDeriv 2 (fun s => Real.log (f s) / c) s = (f'' s * f s - f' s * f' s) / (f s) ^ 2 / c :=
  iteratedDeriv_two_of_hasDerivAt (fun s => ((hf s).log (hpos s).ne').div_const c)
    (fun s => ((hf' s).div (hf s) (hpos s).ne').div_const c) s

end Derivative

/-! ### Profiles over the reals -/

namespace Profile

noncomputable def laplacian (f : Profile ℝ) : Profile ℝ := fun x y =>
  iteratedDeriv 2 (fun s => f s y) x + iteratedDeriv 2 (fun s => f x s) y

structure Smooth (f : Profile ℝ) : Prop where
  contDiff : ContDiff ℝ 2 fun p : ℝ × ℝ => f p.1 p.2

/-- A profile of partial arithmetic is defined everywhere, with the values of a profile over the reals. -/
def HasValues (p : Profile PartialReal) (f : Profile ℝ) : Prop := ∀ x y, p (value x) (value y) = value (f x y)

variable {f g : Profile ℝ}

theorem Smooth.along_x (hf : f.Smooth) (y : ℝ) : ContDiff ℝ 2 fun x => f x y :=
  hf.contDiff.comp (contDiff_id.prodMk contDiff_const)

theorem Smooth.along_y (hf : f.Smooth) (x : ℝ) : ContDiff ℝ 2 fun y => f x y :=
  hf.contDiff.comp (contDiff_const.prodMk contDiff_id)

theorem Smooth.add_const_mul (hf : f.Smooth) (hg : g.Smooth) (c : ℝ) : Smooth fun x y => f x y + c * g x y :=
  ⟨hf.contDiff.add (contDiff_const.mul hg.contDiff)⟩

theorem laplacian_add_const_mul (hf : f.Smooth) (hg : g.Smooth) (c x y : ℝ) :
    laplacian (fun x y => f x y + c * g x y) x y = laplacian f x y + c * laplacian g x y := by
  unfold laplacian
  rw [iteratedDeriv_two_add_const_mul (hf.along_x y) (hg.along_x y),
    iteratedDeriv_two_add_const_mul (hf.along_y x) (hg.along_y x)]
  ring

theorem laplacian_mul {a b : ℝ → ℝ} (ha : ContDiff ℝ 2 a) (hb : ContDiff ℝ 2 b) (x y : ℝ) :
    laplacian (fun x y => a x * b y) x y = iteratedDeriv 2 a x * b y + a x * iteratedDeriv 2 b y := by
  unfold laplacian
  rw [iteratedDeriv_const_mul (a x) hb.contDiffAt]
  congr 1
  simp only [mul_comm _ (b y)]
  exact iteratedDeriv_const_mul (b y) ha.contDiffAt

/-- The current of a smooth flux is its Laplacian. -/
structure HasCurrent (psi j : Profile ℝ) : Prop where
  smooth : psi.Smooth
  laplacian_eq : ∀ x y, laplacian psi x y = j x y

end Profile

/-! ### The profiles of the library -/

namespace InitialCondition

open Profile

variable {alpha lam eps yc lx : ℝ}

/-- The perturbation as a product of its shapes along the coordinates. -/
theorem mode_eq : (mode : Profile ℝ) = fun x y => Real.cos (Real.pi * x) * Real.cos (Real.pi / 2 * y) := by
  funext x y
  show Real.cos (0.5 * Real.pi * y) * Real.cos (Real.pi * x) = _
  rw [mul_comm, show (0.5 : ℝ) * Real.pi = Real.pi / 2 by ring]

theorem smooth_mode : (mode : Profile ℝ).Smooth := by
  rw [mode_eq]
  constructor
  fun_prop

theorem laplacian_mode (x y : ℝ) : laplacian mode x y = modeEigenvalue * mode x y := by
  have hx : ContDiff ℝ 2 fun x => Real.cos (Real.pi * x) := by fun_prop
  have hy : ContDiff ℝ 2 fun y => Real.cos (Real.pi / 2 * y) := by fun_prop
  rw [mode_eq, laplacian_mul hx hy, iteratedDeriv_two_cos, iteratedDeriv_two_cos]
  show _ = -1.25 * (Real.pi * Real.pi) * _
  ring

/-- What the logarithm of the flux of a chain of islands is taken of. -/
noncomputable def islands (lam eps yc : ℝ) : Profile ℝ := fun x y =>
  Real.cosh (lam * (y - yc)) + eps * Real.cos (lam * x)

theorem islands_pos (lam yc : ℝ) (heps : 0 ≤ eps) (heps' : eps < 1) (x y : ℝ) : 0 < islands lam eps yc x y := by
  have hcosh := Real.one_le_cosh (lam * (y - yc))
  have hcos := mul_le_mul_of_nonneg_left (Real.neg_one_le_cos (lam * x)) heps
  unfold islands
  linarith

theorem smooth_islands : (islands lam eps yc).Smooth := by
  unfold islands
  constructor
  fun_prop

theorem smooth_log_islands (heps : 0 ≤ eps) (heps' : eps < 1) :
    Smooth fun x y => Real.log (islands lam eps yc x y) / lam :=
  ⟨(smooth_islands.contDiff.log fun p => (islands_pos lam yc heps heps' p.1 p.2).ne').div_const lam⟩

/-- The derivatives of what the logarithm is taken of meet in `cosh² - sinh² = 1` and `sin² + cos² = 1`. -/
theorem laplacian_islands (hlam : lam ≠ 0) (heps : 0 ≤ eps) (heps' : eps < 1) (x y : ℝ) :
    laplacian (fun x y => Real.log (islands lam eps yc x y) / lam) x y =
      lam * (1 - eps * eps) / (islands lam eps yc x y * islands lam eps yc x y) := by
  have hpos := islands_pos lam yc heps heps'
  have hscale (s : ℝ) : HasDerivAt (fun s => lam * s) lam s := by simpa using (hasDerivAt_id s).const_mul lam
  have hshift (s : ℝ) : HasDerivAt (fun s => lam * (s - yc)) lam s := by
    simpa using ((hasDerivAt_id s).sub_const yc).const_mul lam
  have along_x : iteratedDeriv 2 (fun s => Real.log (islands lam eps yc s y) / lam) x = _ :=
    iteratedDeriv_two_log_div (fun s => ((hscale s).cos.const_mul eps).const_add _)
      (fun s => ((hscale s).sin.neg.mul_const lam).const_mul eps) (fun s => hpos s y) lam x
  have along_y : iteratedDeriv 2 (fun s => Real.log (islands lam eps yc x s) / lam) y = _ :=
    iteratedDeriv_two_log_div (fun s => (hshift s).cosh.add_const _)
      (fun s => (hshift s).sinh.mul_const lam) (fun s => hpos x s) lam y
  have hx := hpos x y
  have hcosh := Real.cosh_sq (lam * (y - yc))
  have hcos := Real.sin_sq_add_cos_sq (lam * x)
  rw [laplacian, along_x, along_y]
  unfold islands at hx ⊢
  field_simp
  linear_combination hcosh - eps ^ 2 * hcos

/-- A sheet is a chain of islands of strength zero. -/
theorem tearing_eq (alpha lam yc : ℝ) :
    tearing alpha lam yc = { coalescence alpha lam 0 yc with coordinates := .y } := by
  simp [tearing, coalescence, perturbed]

/-- An initial condition is defined everywhere: of all numbers that it is computed with, none that is divided by is zero,
and none that a logarithm is taken of is not positive. -/
structure HasValues (p : InitialCondition PartialReal) (c : InitialCondition ℝ) : Prop where
  psi : p.psi.HasValues c.psi
  j : p.j.HasValues c.j
  background : p.background.HasValues c.background

theorem hasValues_perturbed {psi j : Profile PartialReal} {psi' j' : Profile ℝ} (hpsi : psi.HasValues psi')
    (hj : j.HasValues j') (alpha : ℝ) (coordinates : Coordinates) :
    (perturbed (value alpha) coordinates psi j).HasValues (perturbed alpha coordinates psi' j') where
  psi x y := by simp [perturbed, mode, hpsi x y]
  j x y := by simp [perturbed, mode, modeEigenvalue, hj x y]
  background := hj

theorem hasValues_wave (hlx : lx ≠ 0) : (wave (value alpha) (value lx)).HasValues (wave alpha lx) where
  psi x y := by simp [wave, waveNumber, value_div _ hlx]
  j x y := by simp [wave, waveNumber, value_div _ hlx]
  background _ _ := rfl

theorem hasValues_tearing (hlam : lam ≠ 0) :
    (tearing (value alpha) (value lam) (value yc)).HasValues (tearing alpha lam yc) := by
  have hcosh (y : ℝ) : 0 < cosh (lam * (y - yc)) := Real.cosh_pos _
  refine hasValues_perturbed (fun x y => ?_) (fun x y => ?_) alpha .y
  · simp [log_value (hcosh y), value_div _ hlam]
  · simp [value_div _ (mul_self_ne_zero.2 (hcosh y).ne')]

theorem hasValues_coalescence (hlam : lam ≠ 0) (heps : 0 ≤ eps) (heps' : eps < 1) :
    (coalescence (value alpha) (value lam) (value eps) (value yc)).HasValues (coalescence alpha lam eps yc) := by
  have hpos (x y : ℝ) : 0 < cosh (lam * (y - yc)) + eps * cos (lam * x) := islands_pos lam yc heps heps' x y
  refine hasValues_perturbed (fun x y => ?_) (fun x y => ?_) alpha .both
  · simp [log_value (hpos x y), value_div _ hlam]
  · simp [value_div _ (mul_self_ne_zero.2 (hpos x y).ne')]

/-! ### Currents -/

theorem hasCurrent_wave (alpha lx : ℝ) : (wave alpha lx).psi.HasCurrent (wave alpha lx).j := by
  have hx : ContDiff ℝ 2 fun x => Real.cos (waveNumber lx * x) := by fun_prop
  have hy : ContDiff ℝ 2 fun y => Real.sin (Real.pi * y) := by fun_prop
  have hfield : Smooth fun _ y => -y := ⟨contDiff_snd.neg⟩
  have hshape : Smooth fun x y => Real.cos (waveNumber lx * x) * Real.sin (Real.pi * y) := by
    constructor
    fun_prop
  have hpsi : (wave alpha lx).psi =
      fun x y => -y + alpha * (Real.cos (waveNumber lx * x) * Real.sin (Real.pi * y)) := by
    funext x y
    show -y + alpha * Real.sin (Real.pi * y) * Real.cos (waveNumber lx * x) = _
    ring
  rw [hpsi]
  refine ⟨hfield.add_const_mul hshape alpha, fun x y => ?_⟩
  rw [laplacian_add_const_mul hfield hshape, laplacian_mul hx hy, iteratedDeriv_two_cos, iteratedDeriv_two_sin]
  have hflat : laplacian (fun _ y => -y) x y = 0 := by
    have hy : iteratedDeriv 2 (fun s : ℝ => -s) y = 0 :=
      iteratedDeriv_two_of_hasDerivAt (fun s => (hasDerivAt_id' s).neg) (fun s => hasDerivAt_const s (-1)) y
    rw [laplacian, hy, iteratedDeriv_const, if_neg two_ne_zero, add_zero]
  rw [hflat]
  show _ = -(Real.pi * Real.pi + waveNumber lx * waveNumber lx) * alpha * Real.sin (Real.pi * y) *
    Real.cos (waveNumber lx * x)
  ring

theorem hasCurrent_perturbed {psi j : Profile ℝ} (h : psi.HasCurrent j) (alpha : ℝ) (coordinates : Coordinates) :
    (perturbed alpha coordinates psi j).psi.HasCurrent (perturbed alpha coordinates psi j).j := by
  refine ⟨h.smooth.add_const_mul smooth_mode alpha, fun x y => ?_⟩
  show laplacian (fun x y => psi x y + alpha * mode x y) x y = j x y + modeEigenvalue * alpha * mode x y
  rw [laplacian_add_const_mul h.smooth smooth_mode, h.laplacian_eq, laplacian_mode]
  ring

theorem perturbed_zero_j (coordinates : Coordinates) (psi j : Profile ℝ) : (perturbed 0 coordinates psi j).j = j := by
  simp [perturbed]

theorem hasCurrent_islands (hlam : lam ≠ 0) (heps : 0 ≤ eps) (heps' : eps < 1) :
    HasCurrent (fun x y => Real.log (islands lam eps yc x y) / lam)
      fun x y => lam * (1 - eps * eps) / (islands lam eps yc x y * islands lam eps yc x y) :=
  ⟨smooth_log_islands heps heps', laplacian_islands hlam heps heps'⟩

theorem hasCurrent_coalescence (hlam : lam ≠ 0) (heps : 0 ≤ eps) (heps' : eps < 1) (alpha yc : ℝ) :
    (coalescence alpha lam eps yc).psi.HasCurrent (coalescence alpha lam eps yc).j :=
  hasCurrent_perturbed (hasCurrent_islands hlam heps heps') alpha .both

theorem hasCurrent_tearing (hlam : lam ≠ 0) (alpha yc : ℝ) :
    (tearing alpha lam yc).psi.HasCurrent (tearing alpha lam yc).j := by
  rw [tearing_eq]
  exact hasCurrent_coalescence hlam le_rfl zero_lt_one alpha yc

end InitialCondition

namespace InitialCase

def map {K L : Type} (f : K → L) : InitialCase K → InitialCase L
  | wave alpha lx => wave (f alpha) (f lx)
  | tearing alpha lam yc => tearing (f alpha) (f lam) (f yc)
  | coalescence alpha lam eps yc => coalescence (f alpha) (f lam) (f eps) (f yc)

def unperturbed {K : Type} [Zero K] : InitialCase K → InitialCase K
  | wave _ lx => wave 0 lx
  | tearing _ lam yc => tearing 0 lam yc
  | coalescence _ lam eps yc => coalescence 0 lam eps yc

open InitialCondition Profile

/-- A case is an initial condition of which the current belongs to the flux.  The condition is looked at in partial
arithmetic as well, and without its perturbation. -/
structure Consistent (c : InitialCase ℝ) (p : InitialCondition PartialReal) (rest i : InitialCondition ℝ) : Prop where
  condition_eq : c.condition = i
  map_eq : (c.map value).condition = p
  unperturbed_eq : c.unperturbed.condition = rest
  /-- Every divisor is nonzero and every argument of a logarithm positive. -/
  defined : p.HasValues i
  /-- The flux is smooth, and the current is its Laplacian. -/
  current : i.psi.HasCurrent i.j
  /-- The current of the background is that of the unperturbed flux. -/
  background : rest.psi.HasCurrent i.background
  /-- The forcing gives back what the unperturbed state loses. -/
  balance : ∀ resistivity x y, resistivity * laplacian rest.psi x y - i.electricField resistivity x y = 0

/-- The current of the background is that of the condition without its perturbation. -/
theorem Consistent.of_currents {c : InitialCase ℝ} (hdefined : (c.map value).condition.HasValues c.condition)
    (hcurrent : c.condition.psi.HasCurrent c.condition.j)
    (hrest : c.unperturbed.condition.psi.HasCurrent c.unperturbed.condition.j)
    (hbackground : c.unperturbed.condition.j = c.condition.background) :
    c.Consistent (c.map value).condition c.unperturbed.condition c.condition := by
  refine ⟨rfl, rfl, rfl, hdefined, hcurrent, hbackground ▸ hrest, fun resistivity x y => ?_⟩
  rw [hrest.laplacian_eq, hbackground]
  exact sub_self _

/-- **Initial current.**  With the parameters for which it is meant, each of wave, sheet and islands is defined
everywhere, its flux is smooth with its current as Laplacian, and the forcing keeps the unperturbed state from
decaying. -/
theorem consistent (alpha lx lam eps yc : ℝ) :
    (lx ≠ 0 → (wave alpha lx).Consistent (InitialCondition.wave (value alpha) (value lx))
      (InitialCondition.wave 0 lx) (InitialCondition.wave alpha lx)) ∧
    (0 < lam → (tearing alpha lam yc).Consistent (InitialCondition.tearing (value alpha) (value lam) (value yc))
      (InitialCondition.tearing 0 lam yc) (InitialCondition.tearing alpha lam yc)) ∧
    (0 < lam → 0 ≤ eps → eps < 1 → (coalescence alpha lam eps yc).Consistent
      (InitialCondition.coalescence (value alpha) (value lam) (value eps) (value yc))
      (InitialCondition.coalescence 0 lam eps yc) (InitialCondition.coalescence alpha lam eps yc)) := by
  refine ⟨fun hlx => ?_, fun hlam => ?_, fun hlam heps heps' => ?_⟩
  · refine .of_currents (c := wave alpha lx) (hasValues_wave hlx) (hasCurrent_wave alpha lx) (hasCurrent_wave 0 lx) ?_
    simp [unperturbed, condition, InitialCondition.wave]
  · exact .of_currents (c := tearing alpha lam yc) (hasValues_tearing hlam.ne') (hasCurrent_tearing hlam.ne' alpha yc)
      (hasCurrent_tearing hlam.ne' 0 yc) (perturbed_zero_j _ _ _)
  · exact .of_currents (c := coalescence alpha lam eps yc) (hasValues_coalescence hlam.ne' heps heps')
      (hasCurrent_coalescence hlam.ne' heps heps' alpha yc) (hasCurrent_coalescence hlam.ne' heps heps' 0 yc)
      (perturbed_zero_j _ _ _)

/-- A wave, a sheet and islands of strength one fifth, once around. -/
theorem consistent_islands :
    (wave (1 / 10) 1).Consistent (InitialCondition.wave (value (1 / 10)) (value 1)) (InitialCondition.wave 0 1)
      (InitialCondition.wave (1 / 10) 1) ∧
    (tearing (1 / 10) 20 (1 / 2)).Consistent
      (InitialCondition.tearing (value (1 / 10)) (value 20) (value (1 / 2)))
      (InitialCondition.tearing 0 20 (1 / 2)) (InitialCondition.tearing (1 / 10) 20 (1 / 2)) ∧
    (coalescence (1 / 10) (2 * Real.pi) (1 / 5) 0).Consistent
      (InitialCondition.coalescence (value (1 / 10)) (value (2 * Real.pi)) (value (1 / 5)) (value 0))
      (InitialCondition.coalescence 0 (2 * Real.pi) (1 / 5) 0)
      (InitialCondition.coalescence (1 / 10) (2 * Real.pi) (1 / 5) 0) := by
  obtain ⟨hwave, -, hislands⟩ := consistent (1 / 10) 1 (2 * Real.pi) (1 / 5) 0
  obtain ⟨-, hsheet, -⟩ := consistent (1 / 10) 1 20 0 (1 / 2)
  exact ⟨hwave one_ne_zero, hsheet (by norm_num), hislands Real.two_pi_pos (by norm_num) (by norm_num)⟩

end InitialCase

end Magnetofluid
