import Mathlib.Data.Int.Notation
import Mathlib.Data.List.Basic

/-!
# Nostr events

The event object of the relay protocol and the access to its tags.  A byte string is a
`String` whose characters are its bytes.
-/

namespace BtClock

namespace Nostr

def kKindAppData : UInt32 := 30078

def kKindZapReceipt : UInt32 := 9735

/-- The greatest age of a zap receipt which is surfaced. -/
def kZapMaxAgeSeconds : ℤ := 15 * 60

/-- A tag: its name first, then its values. -/
structure Tag where
  values : List String
  deriving DecidableEq, Repr

/-- The value at index `idx`, `""` if absent. -/
def Tag.at (t : Tag) (idx : ℕ) : String :=
  t.values.getD idx ""

structure Event where
  id : String := ""
  pubkey : String := ""
  createdAt : UInt64 := 0
  kind : UInt32 := 0
  tags : List Tag := []
  content : String := ""
  sig : String := ""
  deriving DecidableEq, Repr

/-- The first tag with the given name. -/
def Event.findTag (ev : Event) (name : String) : Option Tag :=
  ev.tags.find? fun t => decide (t.values.head? = some name)

/-- The first value of the first tag with the given name, `""` if there is none. -/
def Event.tagValue (ev : Event) (name : String) : String :=
  match ev.findTag name with
  | none => ""
  | some t => t.at 1

end Nostr

end BtClock
