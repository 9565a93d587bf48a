import Mathlib.Tactic.Linarith

/-!
Owns the window of context that is asked of a model under a budget of video memory. Between
too little memory and enough of it the window is scaled down, but not below the functional
floor, whatever was requested.
-/

namespace Swarmind.ModelRouter.GpuGuard

/-- The fields of a `GpuBudget` that the window depends on, as `__post_init__` accepts them. -/
structure GpuBudget where
  safeCtxMax : Int
  minFreeVramMb : Int
  minSafeCtx : Int
  ctxStep : Int
  safeCtxMax_pos : 0 < safeCtxMax
  minSafeCtx_pos : 0 < minSafeCtx
  minSafeCtx_le : minSafeCtx ≤ safeCtxMax
  ctxStep_pos : 0 < ctxStep
  minFreeVramMb_nonneg : 0 ≤ minFreeVramMb

/-- The defaults of `GpuBudget`. -/
def GpuBudget.default : GpuBudget where
  safeCtxMax := 8192
  minFreeVramMb := 3000
  minSafeCtx := 2048
  ctxStep := 1024
  safeCtxMax_pos := by decide
  minSafeCtx_pos := by decide
  minSafeCtx_le := by decide
  ctxStep_pos := by decide
  minFreeVramMb_nonneg := by decide

/-- What the manifest of the fleet and the tables behind it say of the models. -/
structure Fleet where
  footprintMb : String → Int
  recommendNumCtx : String → Int
  footprintMb_pos : ∀ model, 0 < footprintMb model
  recommendNumCtx_pos : ∀ model, 1 ≤ recommendNumCtx model

variable (fleet : Fleet) (model : String) (budget : GpuBudget)

/-- The requested window, or the declared one. -/
def base (requested : Option Int) : Int := requested.getD (fleet.recommendNumCtx model)

/-- The window that a headroom between nothing and the footprint leaves of `cap`. -/
def scaledWindow (cap headroom : Int) : Int :=
  let scaled := cap * headroom / fleet.footprintMb model
  let stepped := scaled / budget.ctxStep * budget.ctxStep
  max budget.minSafeCtx (min cap stepped)

def safeNumCtx (freeVramMb requested : Option Int) : Int :=
  let cap := min (base fleet model requested) budget.safeCtxMax
  match freeVramMb with
  | none => cap
  | some free =>
    let headroom := free - budget.minFreeVramMb
    if headroom ≤ 0 then min cap budget.minSafeCtx
    else if fleet.footprintMb model ≤ headroom then cap
    else scaledWindow fleet model budget cap headroom

/-- The window is within its bounds, and neither more memory nor a larger request shrinks it. -/
structure Safe (freeVramMb requested : Option Int) : Prop where
  within : safeNumCtx fleet model budget freeVramMb requested ≤ base fleet model requested
  ceiling : safeNumCtx fleet model budget freeVramMb requested ≤ budget.safeCtxMax
  floor : min (base fleet model requested) budget.minSafeCtx ≤
    safeNumCtx fleet model budget freeVramMb requested
  moreMemory : ∀ free more, freeVramMb = some free → free ≤ more →
    safeNumCtx fleet model budget freeVramMb requested ≤
      safeNumCtx fleet model budget (some more) requested
  largerRequest : ∀ larger, base fleet model requested ≤ larger →
    safeNumCtx fleet model budget freeVramMb requested ≤
      safeNumCtx fleet model budget freeVramMb (some larger)

/-- The memory leaves some headroom, but less than the model takes. -/
def Scales (free : Int) : Prop :=
  0 < free - budget.minFreeVramMb ∧ free - budget.minFreeVramMb < fleet.footprintMb model

/-! ### The scaled window -/

private theorem scaledWindow_mono {cap larger headroom more : Int} (request : cap ≤ larger)
    (memory : headroom ≤ more) (capNonneg : 0 ≤ cap) (headroomNonneg : 0 ≤ headroom) :
    scaledWindow fleet model budget cap headroom ≤
      scaledWindow fleet model budget larger more := by
  have product : cap * headroom ≤ larger * more :=
    mul_le_mul request memory headroomNonneg (capNonneg.trans request)
  have scaled := Int.ediv_le_ediv (fleet.footprintMb_pos model) product
  have steps := Int.ediv_le_ediv budget.ctxStep_pos scaled
  have stepped := mul_le_mul_of_nonneg_right steps budget.ctxStep_pos.le
  exact max_le_max le_rfl (min_le_min request stepped)

private theorem scaledWindow_le {cap headroom : Int} (functional : budget.minSafeCtx ≤ cap) :
    scaledWindow fleet model budget cap headroom ≤ cap :=
  max_le functional (min_le_left _ _)

private theorem le_scaledWindow (cap headroom : Int) :
    budget.minSafeCtx ≤ scaledWindow fleet model budget cap headroom :=
  le_max_left _ _

/-! ### The three branches -/

inductive Branch (cap free : Int) : Int → Prop
  | reserved (low : free - budget.minFreeVramMb ≤ 0) :
    Branch cap free (min cap budget.minSafeCtx)
  | whole (headroom : 0 < free - budget.minFreeVramMb)
      (fits : fleet.footprintMb model ≤ free - budget.minFreeVramMb) : Branch cap free cap
  | scaled (scales : Scales fleet model budget free) :
    Branch cap free (scaledWindow fleet model budget cap (free - budget.minFreeVramMb))

private theorem safeNumCtx_branch (free : Int) (requested : Option Int) :
    Branch fleet model budget (min (base fleet model requested) budget.safeCtxMax) free
      (safeNumCtx fleet model budget (some free) requested) := by
  unfold safeNumCtx
  dsimp only
  split_ifs with low fits
  · exact .reserved low
  · exact .whole (not_le.mp low) fits
  · exact .scaled ⟨not_le.mp low, not_le.mp fits⟩

variable {fleet model budget}

private theorem Branch.bounds {cap free window : Int}
    (branch : Branch fleet model budget cap free window)
    (functional : Scales fleet model budget free → budget.minSafeCtx ≤ cap) :
    min cap budget.minSafeCtx ≤ window ∧ window ≤ cap := by
  cases branch with
  | reserved low => exact ⟨le_rfl, min_le_left _ _⟩
  | whole _ _ => exact ⟨min_le_left _ _, le_rfl⟩
  | scaled scales =>
    exact ⟨(min_le_right _ _).trans (le_scaledWindow fleet model budget _ _),
      scaledWindow_le fleet model budget (functional scales)⟩

/-- Below the floor the branches that do not scale give the cap, from the floor on they are
ordered. -/
theorem Branch.mono {cap larger free more window wider : Int}
    (branch : Branch fleet model budget cap free window)
    (other : Branch fleet model budget larger more wider) (memory : free ≤ more)
    (request : cap ≤ larger)
    (functional : Scales fleet model budget free → budget.minSafeCtx ≤ cap) : window ≤ wider := by
  have floorPos := budget.minSafeCtx_pos
  cases branch with
  | reserved low =>
    cases other with
    | reserved _ => exact min_le_min request le_rfl
    | whole _ _ => exact (min_le_left _ _).trans request
    | scaled _ => exact (min_le_right _ _).trans (le_scaledWindow fleet model budget _ _)
  | whole headroom fits =>
    cases other with
    | reserved low => omega
    | whole _ _ => exact request
    | scaled scales =>
      have short := scales.2
      omega
  | scaled scales =>
    have capFloor := functional scales
    cases other with
    | reserved low =>
      have some := scales.1
      omega
    | whole _ _ => exact (scaledWindow_le fleet model budget capFloor).trans request
    | scaled _ =>
      exact scaledWindow_mono fleet model budget request (sub_le_sub_right memory _)
        (by omega) scales.1.le

variable (fleet model budget)

/-- The window is safe exactly where it is not scaled down, or was asked for from the
functional floor on. -/
theorem safe_iff (freeVramMb requested : Option Int) :
    Safe fleet model budget freeVramMb requested ↔
      ∀ free, freeVramMb = some free → Scales fleet model budget free →
        budget.minSafeCtx ≤ base fleet model requested := by
  have ordered := budget.minSafeCtx_le
  constructor
  · rintro safe free rfl scales
    have branch := safeNumCtx_branch fleet model budget free requested
    have within := safe.within
    generalize safeNumCtx fleet model budget (some free) requested = window at branch within
    cases branch with
    | reserved low => exact absurd low (not_le.mpr scales.1)
    | whole _ fits => exact absurd fits (not_le.mpr scales.2)
    | scaled _ => exact (le_scaledWindow fleet model budget _ _).trans within
  · intro functional
    cases freeVramMb with
    | none =>
      refine ⟨min_le_left _ _, min_le_right _ _, min_le_min le_rfl ordered, nofun, ?_⟩
      exact fun larger wider => min_le_min wider le_rfl
    | some free =>
      have reaches (scales : Scales fleet model budget free) :
          budget.minSafeCtx ≤ min (base fleet model requested) budget.safeCtxMax :=
        le_min (functional free rfl scales) ordered
      have branch := safeNumCtx_branch fleet model budget free requested
      obtain ⟨atLeast, atMost⟩ := branch.bounds reaches
      refine ⟨atMost.trans (min_le_left _ _), atMost.trans (min_le_right _ _),
        (le_min (min_le_min le_rfl ordered) (min_le_right _ _)).trans atLeast,
        fun vram more given memory => ?_, fun larger wider => ?_⟩
      · obtain rfl := Option.some.inj given
        exact branch.mono (safeNumCtx_branch fleet model budget more requested) memory le_rfl
          reaches
      · exact branch.mono (safeNumCtx_branch fleet model budget free (some larger)) le_rfl
          (min_le_min wider le_rfl) reaches

/-- A model of the largest footprint in the table. -/
def Fleet.single : Fleet where
  footprintMb _ := 6600
  recommendNumCtx _ := 8192
  footprintMb_pos _ := by decide
  recommendNumCtx_pos _ := by decide

/-- The window is raised above the one that was asked for. -/
theorem not_safe_small :
    ¬ ∀ (fleet : Fleet) (model : String) (budget : GpuBudget) (freeVramMb requested : Option Int),
      (∀ window, requested = some window → 1 ≤ window) →
        Safe fleet model budget freeVramMb requested := by
  intro always
  have safe := always .single "qwen" .default (some 4000) (some 512) (by
    rintro window ⟨⟩
    decide)
  exact absurd safe.within (by decide)

end Swarmind.ModelRouter.GpuGuard
