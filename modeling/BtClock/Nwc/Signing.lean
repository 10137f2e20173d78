import BtClock.Nostr.SignVerify
import BtClock.Nwc.Client

/-!
# The requests of the client are genuine

The client signs with the functions of the signer.  What it publishes is what the signer
returns, so whoever checks a request accepts it.
-/

namespace BtClock

namespace Nwc

open Nostr

variable {G : Type} [AddCommGroup G] [DecidableEq G] (C : Curve G) (lib : Library)

/-- The client's library with the signer on a curve. -/
def withCurve : Library :=
  { lib with
    derivePubkeyXOnly := fun seckey => (derivePubkeyXOnly C seckey).toOption
    schnorrSign := fun seckey msg aux => (schnorrSign C seckey msg aux).toOption }

/-- The client signs as the signer does. -/
theorem signEvent_withCurve (seckey aux : List UInt8) (ev : Event) :
    Nwc.signEvent (withCurve C lib) seckey aux ev =
      (Nostr.signEvent C seckey aux ev).1.toOption.map fun _ =>
        (Nostr.signEvent C seckey aux ev).2 := by
  unfold Nwc.signEvent Nostr.signEvent withCurve
  dsimp only
  cases derivePubkeyXOnly C seckey with
  | error err => rfl
  | ok pk =>
      change ((schnorrSign C seckey (eventId { ev with pubkey := Nostr.hexLowercase pk })
        aux).toOption.bind _) = _
      dsimp only
      cases schnorrSign C seckey (eventId { ev with pubkey := Nostr.hexLowercase pk }) aux with
      | error err => rfl
      | ok sig => rfl

/-- Every event which the client signs is accepted. -/
theorem verifyEvent_of_signEvent_withCurve {seckey aux : List UInt8} {ev signed : Event}
    (h : Nwc.signEvent (withCurve C lib) seckey aux ev = some signed) :
    verifyEvent C.secp256k1 signed = .ok := by
  rw [signEvent_withCurve] at h
  obtain ⟨u, hok, rfl⟩ := Option.map_eq_some_iff.mp h
  refine verifyEvent_of_signEvent C ?_
  cases hres : (Nostr.signEvent C seckey aux ev).1 with
  | error err =>
      rw [hres] at hok
      cases hok
  | ok u => rfl

end Nwc

end BtClock
