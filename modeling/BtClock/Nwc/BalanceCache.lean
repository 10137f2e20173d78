import BtClock.Settings.Prefs
import BtClock.Transition.Join
import Mathlib.Algebra.Group.Int.Defs

/-!
# The cached balance

The balance of the wallet is kept in the flash store, so that the screen has a value before the
wallet answers.  The writes are spaced by the time of the last one, which starts at the least
number of 64 bits, and the distance to that one is not a number of 64 bits.
-/

namespace BtClock

namespace BalanceCache

open Settings Transition

def kBalanceCacheCapSats : Int64 := 4000000000

def kBalanceCacheMinIntervalMs : Int64 := 60000

def kNwcLastBalSat : String := "nwcLastBalSat"

/-- A balance which the wallet gives, with the reading of `MsNow` and of the wall clock.  The
timer behind `MsNow` counts from the boot. -/
structure Balance where
  balanceMsat : UInt64
  now : Int64
  wallclock : Int64
  now_nonneg : 0 ≤ now

/-- The balance in whole sats. -/
def Balance.sats (b : Balance) : Int64 :=
  (b.balanceMsat / 1000).toInt64

/-- The static variables of the handler. -/
structure Handler where
  lastPersistMs : Int64 := Int64.minValue
  lastPersistedSats : Int64 := -1
  bootPollDone : Bool := false

/-- What the handler does besides. -/
inductive Effect
  | report (nwcBalanceMsat : Int64)
  | prefs (write : PrefsWrite)
  | requestListTransactions (fromSecs : Int64) (limit : ℕ)

/-- The difference of the numbers is no number of 64 bits. -/
def SubOverflows (x y : Int64) : Prop :=
  x.toInt - y.toInt < -2 ^ 63 ∨ 2 ^ 63 ≤ x.toInt - y.toInt

instance (x y : Int64) : Decidable (SubOverflows x y) :=
  inferInstanceAs (Decidable (_ ∨ _))

namespace Handler

variable (h : Handler) (b : Balance)

/-- The test up to the difference of the times. -/
def Compares : Prop :=
  b.sats ≤ kBalanceCacheCapSats ∧ h.lastPersistedSats ≠ b.sats

/-- The whole test, with the difference as the machine computes it. -/
def Persists : Prop :=
  h.Compares b ∧ b.now - h.lastPersistMs ≥ kBalanceCacheMinIntervalMs

/-- A difference is taken which overflows. -/
def Overflows : Prop :=
  h.Compares b ∧ SubOverflows b.now h.lastPersistMs

instance : Decidable (h.Compares b) :=
  inferInstanceAs (Decidable (_ ∧ _))

instance : Decidable (h.Persists b) :=
  inferInstanceAs (Decidable (_ ∧ _))

instance : Decidable (h.Overflows b) :=
  inferInstanceAs (Decidable (_ ∧ _))

/-- The handler of `SetOnBalance`, with whether there is a hub and a client. -/
def onBalance (hub client : Bool) : Handler × List Effect :=
  let report := if hub then [Effect.report b.balanceMsat.toInt64] else []
  let write :=
    if h.Persists b then
      [Effect.prefs (.setU32 kNwcLastBalSat b.sats.toUInt64.toUInt32)]
    else []
  let poll :=
    if ¬ h.bootPollDone ∧ 1700000000 < b.wallclock ∧ client then
      [Effect.requestListTransactions (b.wallclock - 600) 20]
    else []
  let h' := if h.Persists b then
      { h with lastPersistMs := b.now, lastPersistedSats := b.sats }
    else h
  ({ h' with bootPollDone := true }, report ++ write ++ poll)

end Handler

/-- The balances which are written. -/
def written (effects : List Effect) : List ℕ :=
  effects.filterMap fun
    | .prefs (.setU32 key value) => if key = kNwcLastBalSat then some value.toNat else none
    | _ => none

/-- The handler with the last write, its balance and its time. -/
structure Cache where
  handler : Handler := {}
  last : Option (ℕ × ℤ) := none

namespace Cache

variable (hub client : Bool)

def step (s : Cache) (b : Balance) : Cache :=
  let next := s.handler.onBalance b hub client
  { handler := next.1
    last := ((written next.2).getLast?.map fun sats => (sats, b.now.toInt)) <|> s.last }

/-- A balance is to be written when it is within the cap, and when it differs from the last one
which was written and a minute has passed since. -/
def Due (last : Option (ℕ × ℤ)) (sats : ℕ) (now : ℤ) : Prop :=
  sats ≤ 4000000000 ∧ ∀ write ∈ last, sats ≠ write.1 ∧ 60000 ≤ now - write.2

instance (last : Option (ℕ × ℤ)) (sats : ℕ) (now : ℤ) : Decidable (Due last sats now) :=
  inferInstanceAs (Decidable (_ ∧ _))

/-- The handler does not overflow, and it writes the balance exactly when it is due. -/
def Correct (s : Cache) (b : Balance) : Prop :=
  ¬ s.handler.Overflows b ∧
    written (s.handler.onBalance b hub client).2 =
      if Due s.last (b.balanceMsat.toNat / 1000) b.now.toInt then
        [b.balanceMsat.toNat / 1000]
      else []

end Cache

/-! ### The difference -/

theorem toInt_sats (b : Balance) : b.sats.toInt = (b.balanceMsat.toNat / 1000 : ℕ) := by
  have hnat : (b.balanceMsat / 1000).toNat = b.balanceMsat.toNat / 1000 := UInt64.toNat_div ..
  have hlt : 2 * (b.balanceMsat / 1000).toBitVec.toNat < 2 ^ 64 := by
    have hbound := b.balanceMsat.toNat_lt
    rw [UInt64.toNat_toBitVec, hnat]
    omega
  have hbits : b.sats.toInt = (b.balanceMsat / 1000).toBitVec.toInt := rfl
  rw [hbits, BitVec.toInt_eq_toNat_of_lt hlt, UInt64.toNat_toBitVec, hnat]

theorem sats_le_cap_iff (b : Balance) :
    b.sats ≤ kBalanceCacheCapSats ↔ b.balanceMsat.toNat / 1000 ≤ 4000000000 := by
  rw [Int64.le_iff_toInt_le, toInt_sats]
  exact Int.ofNat_le (n := 4000000000)

theorem sats_ne_neg_one (b : Balance) : (-1 : Int64) ≠ b.sats := by
  intro heq
  have hneg : b.sats.toInt = -1 := by
    rw [← heq]
    decide
  rw [toInt_sats] at hneg
  omega

/-- No time from the boot on is a minute behind the least number. -/
theorem not_interval_le (b : Balance) :
    ¬ b.now - Int64.minValue ≥ kBalanceCacheMinIntervalMs := by
  have hnonneg : 0 ≤ b.now.toInt := Int64.le_iff_toInt_le.mp b.now_nonneg
  have hlt := b.now.toInt_lt
  have hmin : Int64.minValue.toInt = -2 ^ 63 := Int64.toInt_minValue
  have hsub : (b.now - Int64.minValue).toInt = b.now.toInt - 2 ^ 63 := by
    rw [Int64.toInt_sub, hmin, Int.bmod_def]
    split <;> omega
  rw [ge_iff_le, Int64.le_iff_toInt_le, hsub]
  have hk : kBalanceCacheMinIntervalMs.toInt = 60000 := by decide
  omega

theorem subOverflows_minValue (b : Balance) : SubOverflows b.now Int64.minValue := by
  have hnonneg : 0 ≤ b.now.toInt := Int64.le_iff_toInt_le.mp b.now_nonneg
  rw [SubOverflows, Int64.toInt_minValue]
  omega

/-! ### Runs -/

namespace Cache

variable (hub client : Bool)

/-- Nothing has been written yet. -/
structure Untouched (s : Cache) : Prop where
  lastPersistMs : s.handler.lastPersistMs = Int64.minValue
  lastPersistedSats : s.handler.lastPersistedSats = -1
  last : s.last = none

variable {s : Cache}

theorem Untouched.not_persists (h : Untouched s) (b : Balance) : ¬ s.handler.Persists b := by
  rintro ⟨-, hinterval⟩
  rw [h.lastPersistMs] at hinterval
  exact not_interval_le b hinterval

/-- The first difference overflows, and before it there is none. -/
theorem Untouched.overflows_iff (h : Untouched s) (b : Balance) :
    s.handler.Overflows b ↔ b.balanceMsat.toNat / 1000 ≤ 4000000000 := by
  rw [Handler.Overflows, Handler.Compares, h.lastPersistMs, h.lastPersistedSats,
    sats_le_cap_iff]
  exact ⟨fun hover => hover.1.1,
    fun hcap => ⟨⟨hcap, sats_ne_neg_one b⟩, subOverflows_minValue b⟩⟩

theorem Untouched.written_eq_nil (h : Untouched s) (b : Balance) :
    written (s.handler.onBalance b hub client).2 = [] := by
  simp only [Handler.onBalance, if_neg (h.not_persists b), List.append_nil, written,
    List.filterMap_append]
  split <;> split <;> rfl

theorem Untouched.step (h : Untouched s) (b : Balance) : Untouched (step hub client s b) := by
  have hwritten := h.written_eq_nil hub client b
  constructor
  · simp only [Cache.step, Handler.onBalance, if_neg (h.not_persists b), h.lastPersistMs]
  · simp only [Cache.step, Handler.onBalance, if_neg (h.not_persists b), h.lastPersistedSats]
  · simp only [Cache.step, hwritten, h.last]
    rfl

/-- With the differences as the machine computes them, no run ever writes. -/
theorem untouched_run (balances : List Balance) :
    Untouched (run (Cache.step hub client) {} balances) := by
  have hstep : ∀ (s : Cache) (b : Balance), Untouched s → Untouched (Cache.step hub client s b) :=
    fun s b h => h.step hub client b
  exact run_invariant hstep ⟨rfl, rfl, rfl⟩ balances

theorem Untouched.correct_iff (h : Untouched s) (b : Balance) :
    Correct hub client s b ↔ 4000000000 < b.balanceMsat.toNat / 1000 := by
  rw [Correct, h.overflows_iff b, h.written_eq_nil hub client b, Nat.not_le]
  refine and_iff_left_of_imp fun hcap => ?_
  rw [if_neg fun hdue => Nat.not_le.mpr hcap hdue.1]

/-- The handler does what it should along a run exactly when all balances are above the cap. -/
theorem along_correct_iff (balances : List Balance) :
    Along (Cache.step hub client) (Correct hub client) {} balances ↔
      ∀ b ∈ balances, 4000000000 < b.balanceMsat.toNat / 1000 := by
  have hstep : ∀ (s : Cache) (b : Balance), Untouched s → Untouched (Cache.step hub client s b) :=
    fun s b h => h.step hub client b
  have hcorrect : ∀ (s : Cache) (b : Balance), Untouched s →
      (Correct hub client s b ↔ 4000000000 < b.balanceMsat.toNat / 1000) :=
    fun s b h => h.correct_iff hub client b
  rw [along_congr_of_invariant hstep hcorrect ⟨rfl, rfl, rfl⟩, along_const_iff]

/-- The first balance, at the boot. -/
def firstBalance : Balance where
  balanceMsat := 21000000
  now := 0
  wallclock := 0
  now_nonneg := by decide

theorem not_along_correct_first :
    ¬ ∀ (hub client : Bool) (balances : List Balance),
      Along (Cache.step hub client) (Correct hub client) {} balances := by
  intro h
  have hfirst : Correct true true {} firstBalance := (h true true [firstBalance]).1
  revert hfirst
  rw [Correct]
  decide

end Cache

end BalanceCache

end BtClock
