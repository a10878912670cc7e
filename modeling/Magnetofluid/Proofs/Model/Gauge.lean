import Mathlib
import Magnetofluid.Proofs.Form.Bracket
import Magnetofluid.Proofs.Model.Direct

/-!
# Constants that no rate depends on

Stream function, flux and vorticity enter the equations by their gradients alone, also on the boundary.  A constant
added to one of them on all nodes, essential ones included, is not seen.

* `Form.jump_mulVec_add_fill`, `Form.bracket_add_fill`, `Form.bracket_mulVec_add_fill`: what each operator makes of a
  field to which a constant is added.
* `Model.IsRate.unique`: the rates of a state are determined.
* `Model.rate_gauge_invariant`: a state has the rates and the current of each state that differs from it by constants.
-/

namespace Magnetofluid

open Matrix Grid

variable {m : Mesh ℝ}

/-! ### Constants -/

namespace Mesh

@[simp] theorem slope_const (m : Mesh ℝ) (a : ℝ) (t : Fin m.triangles) : m.slope (fun _ => a) t = ⟨0, 0⟩ := by
  simp [slope]

theorem slope_add_const (u : Fin m.nodes → ℝ) (a : ℝ) (t : Fin m.triangles) :
    m.slope (u + fun _ => a) t = m.slope u t := by
  simp [slope]

theorem perpGradient_add_fill (h : m.Proper) (u : Vec ℝ m.nodes) (a : ℝ) :
    m.perpGradient (u + Vec.fill _ a) = m.perpGradient u := by
  have hgradient : ∀ t, m.gradientOn (u + Vec.fill _ a) t = m.gradientOn u t := by
    intro t
    rw [gradientOn_eq h, gradientOn_eq h, Vec.values_add, Vec.values_fill, slope_add_const]
  simp only [perpGradient, hgradient]

end Mesh

namespace Form

theorem boundaryFlux_const (h : m.Proper) (x : Fin m.nodes → ℝ) : x ⬝ᵥ (boundaryFlux m).toMatrix *ᵥ 1 = 0 := by
  have hslope : ∀ t, m.slope 1 t = ⟨0, 0⟩ := m.slope_const 1
  rw [boundaryFlux_slope h]
  refine List.sum_eq_zero fun v hv => ?_
  obtain ⟨e, -, rfl⟩ := List.mem_map.1 hv
  simp [hslope, Vec2.dot]

/-- A matrix whose form vanishes at a constant does not see constants. -/
theorem mulVec_add_fill {n : ℕ} {A : Sparse ℝ n n} (hA : ∀ x, x ⬝ᵥ A.toMatrix *ᵥ 1 = 0) (u : Vec ℝ n) (a : ℝ) :
    A.mulVec (u + Vec.fill n a) = A.mulVec u := by
  have hone : A.toMatrix *ᵥ 1 = 0 := dotProduct_eq_zero _ fun x => (dotProduct_comm _ x).trans (hA x)
  have hfill : (Vec.fill n a).values = a • (1 : Fin n → ℝ) := by
    rw [Vec.values_fill]
    funext
    simp
  apply Vec.values_injective
  rw [Sparse.values_mulVec, Sparse.values_mulVec, Vec.values_add, hfill, Matrix.mulVec_add, Matrix.mulVec_smul, hone,
    smul_zero, add_zero]

theorem jump_mulVec_add_fill (h : m.Proper) (u : Vec ℝ m.nodes) (a : ℝ) :
    (diffusion m 1 - boundaryFlux m).mulVec (u + Vec.fill _ a) = (diffusion m 1 - boundaryFlux m).mulVec u := by
  refine mulVec_add_fill (fun x => ?_) u a
  rw [Sparse.toMatrix_sub, Matrix.sub_mulVec, dotProduct_sub, boundaryFlux_const h, sub_zero]
  exact diffusion_const h 1 x 1

theorem bracket_add_fill (h : m.Proper) (u : Vec ℝ m.nodes) (a : ℝ) :
    bracket m (u + Vec.fill _ a) = bracket m u := by
  unfold bracket
  rw [Mesh.perpGradient_add_fill h]

theorem bracket_mulVec_add_fill (h : m.Proper) (u y : Vec ℝ m.nodes) (a : ℝ) :
    (bracket m u).mulVec (y + Vec.fill _ a) = (bracket m u).mulVec y :=
  mulVec_add_fill (bracket_const h u) y a

end Form

/-- Diffusion with a coefficient, which may be zero, does not see constants either. -/
theorem Vec.minusProduct?_add_fill (h : m.Proper) (c : ℝ) (x y : Vec ℝ m.nodes) (a : ℝ) :
    Vec.minusProduct? x (Operators.diffusion? m c) (y + Vec.fill _ a) =
      Vec.minusProduct? x (Operators.diffusion? m c) y := by
  unfold Operators.diffusion? minusProduct?
  split_ifs
  · rfl
  · exact congrArg (x - ·) (Form.mulVec_add_fill (fun x => Form.diffusion_const h c x 1) y a)

/-! ### States -/

noncomputable def State.raise {n : ℕ} (x : State ℝ n) (c : Block → ℝ) : State ℝ n where
  phi := x.phi + Vec.fill n (c .potential)
  psi := x.psi + Vec.fill n (c .flux)
  w := x.w + Vec.fill n (c .vorticity)

section Raise

variable {n : ℕ} (x : State ℝ n) (c : Block → ℝ)

theorem State.raise_phi : (x.raise c).phi = x.phi + Vec.fill n (c .potential) := rfl

theorem State.raise_psi : (x.raise c).psi = x.psi + Vec.fill n (c .flux) := rfl

theorem State.raise_w : (x.raise c).w = x.w + Vec.fill n (c .vorticity) := rfl

end Raise

namespace Model

variable {ess : Essential m.nodes} {viscosity resistivity : ℝ} {model : Model ℝ m.nodes}

/-- The rates of a state with a current are determined. -/
theorem IsRate.unique (hmass : Function.Injective (model.massSystem.toMatrix *ᵥ ·)) {forcing : Option (Vec ℝ m.nodes)}
    {x k k' : State ℝ m.nodes} {j : Vec ℝ m.nodes} (hk : model.IsRate forcing x j k)
    (hk' : model.IsRate forcing x j k') : k = k' := by
  have hmulVec : ∀ {u v : Vec ℝ m.nodes}, model.massSystem.mulVec u = model.massSystem.mulVec v → u = v := by
    intro u v huv
    have hvalues := congrArg Vec.values huv
    rw [Sparse.values_mulVec, Sparse.values_mulVec] at hvalues
    exact Vec.values_injective (hmass hvalues)
  obtain ⟨phi, psi, w⟩ := k
  obtain ⟨phi', psi', w'⟩ := k'
  obtain rfl : phi = phi' := hk.phi.trans hk'.phi.symm
  obtain rfl : psi = psi' := hmulVec (hk.psi.trans hk'.psi.symm)
  obtain rfl : w = w' := hmulVec (hk.w.trans hk'.w.symm)
  rfl

section Raise

variable (h : m.Proper) (hops : model.toOperators = .ofMesh m ess viscosity resistivity) (x : State ℝ m.nodes)
  (c : Block → ℝ)
include h hops

theorem isCurrent_raise_iff {boundary j : Vec ℝ m.nodes} :
    model.IsCurrent boundary (x.raise c).psi j ↔ model.IsCurrent boundary x.psi j := by
  have hoperator : model.jump = Form.diffusion m 1 - Form.boundaryFlux m := congrArg Operators.jump hops
  have hjump : model.jump.mulVec (x.raise c).psi = model.jump.mulVec x.psi := by
    rw [hoperator, State.raise_psi, Form.jump_mulVec_add_fill h]
  have hvalues := congrArg Vec.values hjump
  rw [Sparse.values_mulVec, Sparse.values_mulVec] at hvalues
  unfold Operators.IsCurrent
  rw [hvalues]

theorem isRate_raise_iff {forcing : Option (Vec ℝ m.nodes)} {j : Vec ℝ m.nodes} {k : State ℝ m.nodes} :
    model.IsRate forcing (x.raise c) j k ↔ model.IsRate forcing x j k := by
  have hbracket : model.bracket = Form.bracket m := congrArg Operators.bracket hops
  have hflow : model.bracket (x.raise c).phi = model.bracket x.phi := by
    rw [hbracket, State.raise_phi, Form.bracket_add_fill h]
  have hfield : model.bracket (x.raise c).psi = model.bracket x.psi := by
    rw [hbracket, State.raise_psi, Form.bracket_add_fill h]
  have hresistive : model.resistive = Operators.diffusion? m resistivity := congrArg Operators.resistive hops
  have hviscous : model.viscous = Operators.diffusion? m viscosity := congrArg Operators.viscous hops
  have hflux : model.fluxLoad (model.bracket x.phi) forcing (x.raise c).psi =
      model.fluxLoad (model.bracket x.phi) forcing x.psi := by
    simp only [fluxLoad, hbracket, hresistive, State.raise_psi, Form.bracket_mulVec_add_fill h,
      Vec.minusProduct?_add_fill h]
  have hvorticity : model.vorticityLoad (model.bracket x.phi) (model.bracket x.psi) j (x.raise c).w =
      model.vorticityLoad (model.bracket x.phi) (model.bracket x.psi) j x.w := by
    simp only [vorticityLoad, hbracket, hviscous, State.raise_w, Form.bracket_mulVec_add_fill h,
      Vec.minusProduct?_add_fill h]
  constructor
  · rintro ⟨hphi, hpsi, hw⟩
    rw [hflow, hflux] at hpsi
    rw [hflow, hfield, hvorticity] at hw
    exact ⟨hphi, hpsi, hw⟩
  · rintro ⟨hphi, hpsi, hw⟩
    refine ⟨hphi, ?_, ?_⟩
    · rwa [hflow, hflux]
    · rwa [hflow, hfield, hvorticity]

end Raise

/-- **No rate depends on constants.**  Evaluated at a state and at one that differs from it by a constant in each block,
with one forcing and one prescribed current, the explicit rate is the same and so is the current that is recovered. -/
theorem rate_gauge_invariant (h : m.Proper) (hops : model.toOperators = .ofMesh m ess viscosity resistivity)
    (hmass : Krylov.Exact model.massSystem model.massSolve) {mem mem' : Memory ℝ m.nodes}
    (hsolvable : mem.solvable = true) (hsolvable' : mem'.solvable = true) (hforcing : mem'.forcing = mem.forcing)
    (hcurrent : ∀ i ∈ ess, mem'.current.get i = mem.current.get i) (x : State ℝ m.nodes) (c : Block → ℝ) :
    ∃ k after after', (model.rate x).run mem = .ok k after ∧ (model.rate (x.raise c)).run mem' = .ok k after' ∧
      after'.current = after.current := by
  have hsystem := Operators.massSystem_eq hops
  have hdefinite := Operators.mass_definite hops h
  obtain rfl := Operators.ess_eq hops
  obtain ⟨k, after, hk⟩ := exists_rate hmass hsolvable x
  obtain ⟨k', after', hk'⟩ := exists_rate hmass hsolvable' (x.raise c)
  obtain ⟨hj, hrate, -⟩ := rate_ok hmass.sound hsystem hk
  obtain ⟨hj', hrate', -⟩ := rate_ok hmass.sound hsystem hk'
  rw [isCurrent_raise_iff h hops] at hj'
  rw [isRate_raise_iff h hops, hforcing] at hrate'
  have hsame : after'.current = after.current := hj'.unique hdefinite hj hcurrent
  rw [hsame] at hrate'
  obtain rfl := hrate'.unique (hsystem ▸ hdefinite.eliminate_injective) hrate
  exact ⟨k', after, after', hk, hk', hsame⟩

/-- A forced vortex, and the same one with three, minus five and seven added to its blocks. -/
theorem rate_gauge_invariant_vortex :
    ∃ k after after', (square.rate ⟨vortex, ramp, vortex⟩).run forced = .ok k after ∧
      (square.rate ⟨vortex + Vec.fill _ 3, ramp + Vec.fill _ (-5), vortex + Vec.fill _ 7⟩).run forced = .ok k after' ∧
      after'.current = after.current := by
  have hops : square.toOperators = .ofMesh Mesh.unitSquare (.boundary _) 1 1 := rfl
  exact rate_gauge_invariant Mesh.unitSquare_proper hops square_exactSolves.mass rfl rfl rfl (fun _ _ => rfl)
    ⟨vortex, ramp, vortex⟩ fun block => if block = .potential then 3 else if block = .flux then -5 else 7

end Model

end Magnetofluid
