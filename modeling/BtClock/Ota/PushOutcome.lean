import BtClock.Ota.PushImage

/-!
# What a push update leaves

An update succeeds exactly when the declared bytes came and everything they went through
succeeded.  Otherwise the partition to boot stays, no handle is left open, and the failure is
emitted once.
-/

namespace BtClock

namespace Ota

open Reading Nostr Staging

variable {φ : Type*} {api : EspOta φ}

/-- The digest, when one is given, is the one of the bytes in upper or lower case. -/
def DigestMatches (expectedSha256Hex : Option (List Char)) (bytes : List UInt8) : Prop :=
  ∀ hex, expectedSha256Hex = some hex → hex ≠ [] →
    hex.map Char.toLower = (hexLowercase (sha256 bytes)).toList

/-- All declared bytes came, every flash function succeeded, and the digest matches. -/
def Complete (expectedBytes : ℕ) (expectedSha256Hex : Option (List Char)) (s : Push φ) : Prop :=
  s.received.length = expectedBytes ∧ (∀ rc ∈ s.codes, rc = espOk) ∧
    DigestMatches expectedSha256Hex s.received

/-- The image fits in the partition which is updated next. -/
def Fits (api : EspOta φ) (expectedBytes : ℕ) (flash : φ) : Prop :=
  ∃ part, api.nextUpdatePartition flash = some part ∧ expectedBytes ≤ part.size

/-- The call takes the flag. -/
def Takes (recvFn : Option Reads) (m : OtaManager φ) : Prop :=
  recvFn ≠ none ∧ m.isUpdating = false

/-! ### The digest -/

def IsHexDigit (c : Char) : Prop :=
  '0' ≤ c ∧ c ≤ '9' ∨ 'a' ≤ c ∧ c ≤ 'f'

theorem toNat_ofNat {n : ℕ} (hn : n < 0xd800) : (Char.ofNat n).toNat = n := by
  have hvalid : n.isValidChar := Or.inl hn
  exact congrArg Char.toNat (dif_pos hvalid)

/-- The flag is held, and neither a failure nor a reboot was emitted. -/
structure Underway (s : Push φ) : Prop where
  isUpdating : s.isUpdating = true
  emitted : ∀ p ∈ s.emitted, p.phase ≠ .failed ∧ p.phase ≠ .rebooting

theorem Underway.emit {s : Push φ} (h : Underway s) {p : OtaProgress}
    (hp : p.phase ≠ .failed ∧ p.phase ≠ .rebooting) : Underway (s.emit p) := by
  refine ⟨h.isUpdating, fun q hq => ?_⟩
  rcases List.mem_append.mp hq with hq | hq
  · exact h.emitted q hq
  · rw [List.mem_singleton.mp hq]
    exact hp

/-- The handle has taken what was received, and nothing failed. -/
structure Streaming (api : EspOta φ) (v : Staging.View Partition ℕ UInt8) (part : Partition)
    (handle written : ℕ) (s : Push φ) : Prop where
  underway : Underway s
  onlyAt : Staging.View.OnlyAt handle v (api.view s.flash)
  streams : (api.view s.flash).streams handle = some (part, s.received)
  md : s.md = sha256Update sha256Init s.received
  codes : ∀ rc ∈ s.codes, rc = espOk
  length : s.received.length = written

theorem codes_flashed_ok {s : Push φ} (h : ∀ rc ∈ s.codes, rc = espOk) (flash : φ) :
    ∀ rc ∈ (s.flashed espOk flash).codes, rc = espOk := by
  intro rc hrc
  rcases List.mem_append.mp hrc with hrc | hrc
  · exact h rc hrc
  · exact List.mem_singleton.mp hrc

section Loop

variable {v : Staging.View Partition ℕ UInt8} {part : Partition} {handle expectedBytes written : ℕ}
  {hex : Option (List Char)} {s : Push φ}

/-- What `write` took is hashed and written. -/
theorem Streaming.write (hapi : api.Lawful) (h : Streaming api v part handle written s)
    {bytes : List UInt8} {flash : φ} (reads : Reads)
    (hwrite : api.append handle bytes s.flash = (espOk, flash)) :
    Streaming api v part handle (written + bytes.length)
      ((s.take bytes reads).flashed espOk flash) where
  underway := ⟨h.underway.isUpdating, h.underway.emitted⟩
  onlyAt := by
    have hat := hapi.append_onlyAt handle bytes s.flash
    rw [hwrite] at hat
    exact h.onlyAt.trans hat
  streams := hapi.append_ok hwrite h.streams
  md := by
    show sha256Update s.md bytes = sha256Update sha256Init (s.received ++ bytes)
    rw [h.md, sha256Update_append (by decide)]
  codes := codes_flashed_ok (s := s.take bytes reads) h.codes flash
  length := by
    show (s.received ++ bytes).length = written + bytes.length
    rw [List.length_append, h.length]

theorem Streaming.emit (h : Streaming api v part handle written s) {p : OtaProgress}
    (hp : p.phase ≠ .failed ∧ p.phase ≠ .rebooting) :
    Streaming api v part handle written (s.emit p) :=
  ⟨h.underway.emit hp, h.onlyAt, h.streams, h.md, h.codes, h.length⟩

end Loop

/-! ### The end of a push -/

section Close

variable {v : Staging.View Partition ℕ UInt8} {part : Partition} {handle expectedBytes written : ℕ}
  {hex : Option (List Char)} {s : Push φ}

end Close

section Impl

variable {expectedBytes : ℕ} {hex : Option (List Char)} {s : Push φ}

end Impl

/-! ### The call -/

/-- A call which takes the flag emits one failure and no reboot. -/
structure FailedOnce (s : Push φ) : Prop where
  failed : (s.emitted.map OtaProgress.phase).count .failed = 1
  rebooting : Phase.rebooting ∉ s.emitted.map OtaProgress.phase

theorem Underway.failedOnce {s : Push φ} (h : Underway s) (written total : ℕ) :
    FailedOnce (s.emit ⟨written, total, .failed⟩) := by
  have hphases : (s.emit ⟨written, total, .failed⟩).emitted.map OtaProgress.phase =
      s.emitted.map OtaProgress.phase ++ [.failed] := List.map_append
  constructor
  · rw [hphases, List.count_append, List.count_eq_zero.mpr]
    · rfl
    · intro hmem
      obtain ⟨p, hp, hphase⟩ := List.mem_map.mp hmem
      exact (h.emitted p hp).1 hphase
  · rw [hphases]
    intro hmem
    rcases List.mem_append.mp hmem with hmem | hmem
    · obtain ⟨p, hp, hphase⟩ := List.mem_map.mp hmem
      exact (h.emitted p hp).2 hphase
    · cases List.mem_singleton.mp hmem

/-- What a push update owes its caller. -/
structure Exact (api : EspOta φ) (recvFn : Option Reads) (expectedBytes : ℕ)
    (hex : Option (List Char)) (m : OtaManager φ) (out : Outcome φ) : Prop where
  ok_iff : out.rc = espOk ↔
    m.isUpdating = false ∧ Fits api expectedBytes m.flash ∧ Complete expectedBytes hex out.state
  activated : out.rc = espOk → ∃ part, api.nextUpdatePartition m.flash = some part ∧
    (api.view out.state.flash).selected = part ∧
      out.state.received <+: (api.view out.state.flash).contents part
  unselected : out.rc ≠ espOk →
    (api.view out.state.flash).selected = (api.view m.flash).selected
  closed : (api.view out.state.flash).streams = (api.view m.flash).streams
  released : out.state.isUpdating = m.isUpdating
  failedOnce : out.rc ≠ espOk → Takes recvFn m → FailedOnce out.state

def hexOfAbc : List Char :=
  "BA7816BF8F01CFEA414140DE5DAE2223B00361A396177A9CB410FF61F20015AD".toList

end Ota

end BtClock
