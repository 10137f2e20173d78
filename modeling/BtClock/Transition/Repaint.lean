import BtClock.Transition.Run

/-!
# Painting over

A frame is painted over the one before it, at the places which are marked.  What is shown is the
frame as long as the places which are left alone are those where nothing changes.
-/

namespace Repaint

variable {σ ι α : Type*}

/-- What is shown after a frame is painted at its marked places. -/
def painted (marked : ι → Bool) (shown frame : ι → α) (i : ι) : α :=
  if marked i then frame i else shown i

theorem painted_eq_frame_iff {marked : ι → Bool} {shown frame : ι → α} :
    painted marked shown frame = frame ↔ ∀ i, marked i = false → shown i = frame i := by
  constructor
  · intro h i hi
    have hplace := congrFun h i
    simpa [painted, hi] using hplace
  · intro h
    funext i
    cases hi : marked i with
    | true => simp [painted, hi]
    | false => simp [painted, hi, h i hi]

/-- A frame with all its places marked. -/
theorem painted_of_forall_marked {marked : ι → Bool} (h : ∀ i, marked i = true)
    (shown frame : ι → α) : painted marked shown frame = frame :=
  painted_eq_frame_iff.mpr fun i hi => absurd (h i) (by simp [hi])

/-! ### One frame after the other -/

/-- The value which was painted last, with what is shown. -/
def paint (frame : σ → ι → α) (marked : σ → σ → ι → Bool) (s : σ × (ι → α)) (new : σ) :
    σ × (ι → α) :=
  (new, painted (marked s.1 new) s.2 (frame new))

def UpToDate (frame : σ → ι → α) (s : σ × (ι → α)) : Prop :=
  s.2 = frame s.1

/-- The values of a run show their frames exactly when each of them, painted over the frame of
the value before it, shows its own. -/
theorem upToDate_run_iff {frame : σ → ι → α} {marked : σ → σ → ι → Bool} {s : σ × (ι → α)}
    (hs : UpToDate frame s) (values : List σ) :
    (∀ pre post, values = pre ++ post →
        UpToDate frame (Transition.run (paint frame marked) s pre)) ↔
      Transition.Along (paint frame marked)
        (fun s new => painted (marked s.1 new) (frame s.1) (frame new) = frame new) s values := by
  refine Transition.forall_prefix_iff_along (fun s new hup => ?_) hs values
  have hshown : s.2 = frame s.1 := hup
  simp only [UpToDate, paint, hshown]

end Repaint
