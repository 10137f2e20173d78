import BtClock.Ota.PushOutcome

/-!
# A push with and without a digest

A digest makes a difference to a push update only where it is refused.  What was received is the
front of what was to be read.
-/

namespace BtClock

namespace Ota

open Reading Nostr

variable {φ : Type*} (api : EspOta φ)

/-! ### What was received -/

/-- What was received and what is still to be read. -/
def Push.whole (s : Push φ) : List UInt8 :=
  s.received ++ pending s.reads

section Whole

variable {s : Push φ} {want handle written : ℕ} {reads : Reads}

end Whole

/-! ### A refused digest -/

/-- A push which was refused got as far as `t` without a digest. -/
structure RefusedIn (s t : Push φ) : Prop where
  received : s.received = t.received
  codes : ∀ rc ∈ s.codes, rc ∈ t.codes

section Digest

variable (hex : Option (List Char)) {s : Push φ}

/-- The guard changes the flash only. -/
theorem RefusedIn.otaHandleGuard {α : Type*} {t : Push φ} {out : (α × Bool) × Push φ}
    (h : RefusedIn t out.2) (handle : ℕ) :
    RefusedIn { t with flash := api.drop handle t.flash }
      (Ota.otaHandleGuard api handle out).2 := by
  match out with
  | ((r, true), u) => exact ⟨h.received, h.codes⟩
  | ((r, false), u) => exact ⟨h.received, h.codes⟩

end Digest

section Outcome

variable {api} {reads : Reads} {expectedBytes : ℕ} {m : OtaManager φ}

end Outcome

end Ota

end BtClock
